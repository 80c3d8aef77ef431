import CollectionSchema.Text.Position
import Mathlib.Data.List.Basic

/-!
# Places by what is in front of them

A place that was reached by going over a text can be told from that text alone: its
line is one more than the text has line feeds, and its column is one more than the
text has characters behind the last of them.  Whoever goes on gets to a place that
is further down, or further to the right on the same line.
-/

set_option autoImplicit false

namespace CollectionSchema.Position

/-- The place behind a text that starts at the first place. -/
def behind (text : List Char) : Position :=
  ⟨1 + text.count '\n', 1 + (text.reverse.takeWhile (· ≠ '\n')).length⟩

theorem behind_concat (text : List Char) (last : Char) :
    behind (text ++ [last]) = (behind text).advance last := by
  by_cases feed : last = '\n'
  · subst feed
    simp [behind, advance, Nat.add_assoc]
  · simp [behind, advance, feed, List.count_append, Nat.add_assoc]

theorem behind_append (front text : List Char) :
    behind (front ++ text) = (behind front).after text := by
  induction text generalizing front with
  | nil => rw [List.append_nil, after_nil]
  | cons first rest ih =>
      rw [List.append_cons, ih, behind_concat, after_cons]

/-- Whether a place is further up than another, or further to the left on the same line. -/
def Precedes (first second : Position) : Prop :=
  first.line < second.line ∨ (first.line = second.line ∧ first.column < second.column)

namespace Precedes

variable {first second third : Position}

theorem irrefl (place : Position) : ¬ place.Precedes place := by
  unfold Precedes
  omega

theorem trans (before : first.Precedes second) (after : second.Precedes third) :
    first.Precedes third := by
  unfold Precedes at *
  omega

theorem advance (place : Position) (character : Char) :
    place.Precedes (place.advance character) := by
  unfold Position.advance
  split
  · exact .inl (Nat.lt_succ_self _)
  · exact .inr ⟨rfl, Nat.lt_succ_self _⟩

theorem after (place : Position) {text : List Char} (some : text ≠ []) :
    place.Precedes (place.after text) := by
  induction text generalizing place with
  | nil => exact absurd rfl some
  | cons character rest ih =>
      rw [after_cons]
      rcases rest with _ | ⟨next, rest⟩
      · exact advance place character
      · exact (advance place character).trans (ih _ (List.cons_ne_nil next rest))

end Precedes

/-- What is in front of a place of a text is told by the place. -/
theorem eq_of_behind_eq {front other rest more : List Char} (text : front ++ rest = other ++ more)
    (place : behind front = behind other) : front = other := by
  have nothing : ∀ {short long : List Char}, behind short = behind (short ++ long) →
      long = [] := by
    intro short long same
    by_contra some
    have further := Precedes.after (behind short) some
    rw [← behind_append, ← same] at further
    exact Precedes.irrefl _ further
  rcases List.append_eq_append_iff.mp text with ⟨long, rfl, _⟩ | ⟨long, rfl, _⟩
  · rw [nothing place, List.append_nil]
  · rw [nothing place.symm, List.append_nil]

end CollectionSchema.Position
