import CollectionSchema.Token.Pattern
import Mathlib.Data.List.TakeWhile

/-!
# Regular expressions with priorities

A regular expression may match the front of a text in several ways, and the ways come
in an order of preference: an alternative before those behind it, and a repetition
with one more character before or after the one that ends here, as it is greedy or
not.  In a sequence the first part decides before the second.  The match that counts
is the first one.

To find it, an expression is followed by what is to come behind it (`followedBy`).
The equations for this read an expression from left to right.
-/

set_option autoImplicit false

namespace CollectionSchema

namespace Cut

variable {test : Char → Bool} {first : Char}

theorem run_of_holds (holds : test first = true) (rest : List Char) :
    run test (first :: rest) = (run test rest).prepend [first] := by
  rw [run, List.takeWhile_cons_of_pos holds, List.dropWhile_cons_of_pos holds]
  rfl

theorem run_of_fails (fails : ¬ test first = true) (rest : List Char) :
    run test (first :: rest) = ⟨[], first :: rest⟩ := by
  rw [run, List.takeWhile_cons_of_neg fails, List.dropWhile_cons_of_neg fails]

theorem prepend_nil : prepend [] = id := rfl

theorem prepend_prepend (outer inner : List Char) :
    prepend outer ∘ prepend inner = prepend (outer ++ inner) := by
  funext cut
  simp [prepend]

end Cut

/-! ## Classes of characters -/

/-- A class of characters. -/
inductive CharClass where
  | any
  | blank
  /-- The characters in some closed ranges. -/
  | within (ranges : List (Char × Char))
  /-- The characters in none of some closed ranges. -/
  | outside (ranges : List (Char × Char))

namespace CharClass

/-- Whether a character is in one of some closed ranges. -/
def covers (ranges : List (Char × Char)) (character : Char) : Bool :=
  ranges.any fun range => range.1 ≤ character && character ≤ range.2

/-- Whether a character is in a class. -/
def holds : CharClass → Char → Bool
  | .any, _ => true
  | .blank, character => Text.isBlank character
  | .within ranges, character => covers ranges character
  | .outside ranges, character => !covers ranges character

/-- The class of a single character. -/
def only (character : Char) : CharClass := .within [(character, character)]

/-- The class of all characters but one. -/
def allBut (character : Char) : CharClass := .outside [(character, character)]

theorem covers_nil (character : Char) : covers [] character = false := rfl

theorem covers_cons (first last : Char) (ranges : List (Char × Char)) (character : Char) :
    covers ((first, last) :: ranges) character =
      ((first ≤ character && character ≤ last) || covers ranges character) :=
  List.any_cons

/-- A range from a character to itself holds this character and no other. -/
theorem covers_cons_self (only : Char) (ranges : List (Char × Char)) (character : Char) :
    covers ((only, only) :: ranges) character =
      (decide (character = only) || covers ranges character) := by
  have same : (only ≤ character ∧ character ≤ only) ↔ character = only := by
    refine ⟨?_, ?_⟩
    · intro between
      exact Char.le_antisymm between.2 between.1
    · rintro rfl
      exact ⟨Char.le_refl _, Char.le_refl _⟩
  rw [covers_cons, ← Bool.decide_and, decide_eq_decide.mpr same]

@[simp] theorem holds_only (character other : Char) :
    (only character).holds other = decide (other = character) := by
  rw [only, holds, covers_cons_self, covers_nil, Bool.or_false]

theorem holds_allBut (character : Char) :
    (allBut character).holds = fun other => decide (other ≠ character) := by
  funext other
  rw [allBut, holds, covers_cons_self, covers_nil, Bool.or_false, ← decide_not]

end CharClass

/-! ## Expressions -/

/-- A regular expression in which only characters are repeated. -/
inductive Regex where
  /-- The empty text. -/
  | empty
  /-- A single character of a class. -/
  | one (chars : CharClass)
  /-- Any number of characters of a class, as many or as few as possible. -/
  | repeated (greedy : Bool) (chars : CharClass)
  | sequence (first second : Regex)
  /-- The first of two expressions, or else the second. -/
  | either (first second : Regex)

namespace Regex

/-- At least one character of a class, and as many as possible. -/
def several (chars : CharClass) : Regex := .sequence (.one chars) (.repeated true chars)

/-- An expression or else nothing. -/
def optional (body : Regex) : Regex := .either body .empty

/-- The characters of a text, one by one. -/
def literal : List Char → Regex
  | [] => .empty
  | first :: rest => .sequence (.one (.only first)) (literal rest)

/-! ## Matches in the order of preference -/

/-- The ways to take characters of a class from the front of a text. -/
def runs (greedy : Bool) (chars : CharClass) : List Char → List Cut
  | [] => [⟨[], []⟩]
  | first :: rest =>
    let more := if chars.holds first then (runs greedy chars rest).map (Cut.prepend [first]) else []
    if greedy then more ++ [⟨[], first :: rest⟩] else ⟨[], first :: rest⟩ :: more

/-- The ways in which an expression matches the front of a text, in the order of preference. -/
def cuts : Regex → List Char → List Cut
  | .empty, text => [⟨[], text⟩]
  | .one _, [] => []
  | .one chars, first :: rest => if chars.holds first then [⟨[first], rest⟩] else []
  | .repeated greedy chars, text => runs greedy chars text
  | .sequence first second, text =>
    (first.cuts text).flatMap fun cut => (second.cuts cut.left).map (Cut.prepend cut.taken)
  | .either first second, text => first.cuts text ++ second.cuts text

section Cuts

variable (chars : CharClass) (first second : Regex) (text : List Char)

theorem cuts_empty : empty.cuts text = [⟨[], text⟩] := rfl

theorem cuts_one_cons (character : Char) (rest : List Char) :
    (one chars).cuts (character :: rest) =
      if chars.holds character then [⟨[character], rest⟩] else [] := rfl

theorem cuts_repeated (greedy : Bool) :
    (repeated greedy chars).cuts text = runs greedy chars text := rfl

theorem cuts_sequence :
    (sequence first second).cuts text =
      (first.cuts text).flatMap fun cut =>
        (second.cuts cut.left).map (Cut.prepend cut.taken) := rfl

theorem cuts_either : (either first second).cuts text = first.cuts text ++ second.cuts text := rfl

theorem runs_nil (greedy : Bool) : runs greedy chars [] = [⟨[], []⟩] := rfl

theorem runs_cons (greedy : Bool) (character : Char) (rest : List Char) :
    runs greedy chars (character :: rest) =
      let more :=
        if chars.holds character then (runs greedy chars rest).map (Cut.prepend [character]) else []
      if greedy then more ++ [⟨[], character :: rest⟩] else ⟨[], character :: rest⟩ :: more := rfl

end Cuts

/-- What an expression takes from the front of a text: the preferred match, if there is any. -/
def front (regex : Regex) : Pattern := fun text => (regex.cuts text).head?

/-! ## Expressions with something behind them -/

/-- An expression with a pattern behind it: the preferred match behind which the pattern takes
something, with what it takes there. -/
def followedBy (regex : Regex) (next : Pattern) : Pattern := fun text =>
  (regex.cuts text).findSome? fun cut => (next cut.left).map (Cut.prepend cut.taken)

/-- Takes nothing. -/
def stop : Pattern := fun text => some ⟨[], text⟩

theorem front_eq_followedBy (regex : Regex) : regex.front = regex.followedBy stop := by
  funext text
  have whole : ∀ cut : Cut, (stop cut.left).map (Cut.prepend cut.taken) = some cut := by
    intro cut
    simp [stop, Cut.prepend]
  simp only [front, followedBy, whole]
  cases regex.cuts text <;> rfl

theorem followedBy_empty (next : Pattern) : empty.followedBy next = next := by
  funext text
  simp only [followedBy, cuts_empty, List.findSome?_cons, List.findSome?_nil, Cut.prepend_nil,
    Option.map_id, id]
  cases next text <;> rfl

theorem followedBy_one_cons (chars : CharClass) (next : Pattern) (first : Char)
    (rest : List Char) :
    (one chars).followedBy next (first :: rest) =
      if chars.holds first then (next rest).map (Cut.prepend [first]) else none := by
  rw [followedBy, cuts_one_cons]
  by_cases held : chars.holds first = true
  · rw [if_pos held, if_pos held, List.findSome?_cons, List.findSome?_nil]
    cases next rest <;> rfl
  · rw [if_neg held, if_neg held]
    rfl

theorem findSome?_map_prepend (next : Pattern) (front : List Char) (found : List Cut) :
    ((found.map (Cut.prepend front)).findSome? fun cut =>
        (next cut.left).map (Cut.prepend cut.taken)) =
      (found.findSome? fun cut => (next cut.left).map (Cut.prepend cut.taken)).map
        (Cut.prepend front) := by
  induction found with
  | nil => rfl
  | cons first rest ih =>
      have same : (next (first.prepend front).left).map (Cut.prepend (first.prepend front).taken) =
          ((next first.left).map (Cut.prepend first.taken)).map (Cut.prepend front) := by
        rw [Option.map_map, Cut.prepend_prepend]
        rfl
      rw [List.map_cons, List.findSome?_cons, List.findSome?_cons, ih, same]
      cases (next first.left).map (Cut.prepend first.taken) <;> rfl

/-- The second part of a sequence is what comes behind the first one. -/
theorem followedBy_sequence (first second : Regex) (next : Pattern) :
    (sequence first second).followedBy next = first.followedBy (second.followedBy next) := by
  funext text
  simp only [followedBy, cuts_sequence]
  induction first.cuts text with
  | nil => rfl
  | cons cut others ih =>
      rw [List.flatMap_cons, List.findSome?_append, findSome?_map_prepend, ih, List.findSome?_cons]
      cases (second.cuts cut.left).findSome? _ <;> rfl

theorem followedBy_either (first second : Regex) (next : Pattern) (text : List Char) :
    (either first second).followedBy next text =
      (first.followedBy next text).or (second.followedBy next text) := by
  simp only [followedBy, cuts_either, List.findSome?_append]

theorem followedBy_repeated_nil (greedy : Bool) (chars : CharClass) (next : Pattern) :
    (repeated greedy chars).followedBy next [] = next [] := by
  simp only [followedBy, cuts_repeated, runs_nil, List.findSome?_cons, List.findSome?_nil,
    Cut.prepend_nil, Option.map_id, id]
  cases next [] <;> rfl

/-- A greedy repetition goes on as long as something can be made of what is left. -/
theorem followedBy_greedy_cons (chars : CharClass) (next : Pattern) (first : Char)
    (rest : List Char) :
    (repeated true chars).followedBy next (first :: rest) =
      if chars.holds first then
        (((repeated true chars).followedBy next rest).map (Cut.prepend [first])).or
          (next (first :: rest))
      else next (first :: rest) := by
  rw [followedBy, cuts_repeated, runs_cons]
  by_cases held : chars.holds first = true
  · rw [if_pos held, if_pos held]
    simp only [if_true, List.findSome?_append, findSome?_map_prepend]
    rw [List.findSome?_cons, List.findSome?_nil, Cut.prepend_nil, Option.map_id, id]
    cases next (first :: rest) <;> rfl
  · rw [if_neg held, if_neg held]
    simp only [if_true, List.nil_append, List.findSome?_cons, List.findSome?_nil, Cut.prepend_nil,
      Option.map_id, id]
    cases next (first :: rest) <;> rfl

/-- A repetition that is not greedy goes on only when nothing can be made of what is left. -/
theorem followedBy_lazy_cons (chars : CharClass) (next : Pattern) (first : Char)
    (rest : List Char) :
    (repeated false chars).followedBy next (first :: rest) =
      (next (first :: rest)).or
        (if chars.holds first then
          ((repeated false chars).followedBy next rest).map (Cut.prepend [first]) else none) := by
  rw [followedBy, cuts_repeated, runs_cons]
  by_cases held : chars.holds first = true
  · rw [if_pos held, if_pos held]
    simp only [Bool.false_eq_true, if_false, List.findSome?_cons, findSome?_map_prepend,
      Cut.prepend_nil, Option.map_id, id]
    cases next (first :: rest) <;> rfl
  · rw [if_neg held, if_neg held]
    simp only [Bool.false_eq_true, if_false, List.findSome?_cons, List.findSome?_nil,
      Cut.prepend_nil, Option.map_id, id]
    cases next (first :: rest) <;> rfl

/-- A greedy repetition takes a longest run when something can always be made of what is left. -/
theorem followedBy_greedy (chars : CharClass) (next : List Char → Cut) (text : List Char) :
    (repeated true chars).followedBy (fun left => some (next left)) text =
      some ((next (Cut.run chars.holds text).left).prepend (Cut.run chars.holds text).taken) := by
  induction text with
  | nil => rw [followedBy_repeated_nil]; rfl
  | cons first rest ih =>
      rw [followedBy_greedy_cons, ih]
      by_cases held : chars.holds first = true
      · rw [if_pos held, Cut.run_of_holds held, Option.map_some, Option.some_or]
        exact congrArg some (congrFun (Cut.prepend_prepend [first] _) _)
      · rw [if_neg held, Cut.run_of_fails held]
        rfl

/-- A greedy repetition with nothing behind it is a longest run. -/
theorem followedBy_greedy_stop (chars : CharClass) (text : List Char) :
    (repeated true chars).followedBy stop text = some (Cut.run chars.holds text) := by
  have whole := followedBy_greedy chars (fun left => ⟨[], left⟩) text
  rw [Cut.prepend, List.append_nil] at whole
  exact whole

theorem followedBy_optional (body : Regex) (next : Pattern) (text : List Char) :
    body.optional.followedBy next text = (body.followedBy next text).or (next text) := by
  rw [optional, followedBy_either, followedBy_empty]

/-! ## Literals -/

theorem followedBy_literal (word : List Char) (next : Pattern) (rest : List Char) :
    (literal word).followedBy next (word ++ rest) = (next rest).map (Cut.prepend word) := by
  induction word with
  | nil =>
      rw [literal, followedBy_empty, Cut.prepend_nil, Option.map_id]
      rfl
  | cons first others ih =>
      rw [literal, followedBy_sequence, List.cons_append, followedBy_one_cons, ih,
        if_pos (by simp), Option.map_map, Cut.prepend_prepend]
      rfl

theorem followedBy_literal_of_not_front {word : List Char} (next : Pattern) {text : List Char}
    (other : ¬ word <+: text) : (literal word).followedBy next text = none := by
  induction word generalizing text with
  | nil => exact absurd List.nil_prefix other
  | cons first others ih =>
      rw [literal, followedBy_sequence]
      rcases text with _ | ⟨character, rest⟩
      · rfl
      · rw [followedBy_one_cons, CharClass.holds_only]
        by_cases same : character = first
        · subst same
          have behind : ¬ others <+: rest := fun front =>
            other (List.cons_prefix_cons.mpr ⟨rfl, front⟩)
          rw [ih behind]
          simp
        · rw [if_neg (by simpa using same)]

end Regex

end CollectionSchema
