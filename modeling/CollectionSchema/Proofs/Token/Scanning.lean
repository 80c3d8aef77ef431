import CollectionSchema.Proofs.Token.Expressions
import CollectionSchema.Proofs.Token.Standing

/-!
# Scanning by the table

A scan goes over a text from its start.  Wherever it arrives, the first expression of
the table that matches decides, and its preferred match is passed; a match that makes
a token is handed out.  The scan is over at the end of the text or at a character at
which no expression matches.  The items of a stream are those of the scan of its text,
so a text makes no tokens just when its scan arrives at such a character.
-/

set_option autoImplicit false

namespace CollectionSchema

namespace Regex

/-! ## Choices -/

/-- The first expression of the table that matches at the front of a text, by the kind of its
token, and its preferred match. -/
inductive Prefers (text : List Char) : Option TokenKind → Cut → Prop
  | first {before behind : List (Option TokenKind × Regex)} {kind : Option TokenKind}
      {regex : Regex} {cut : Cut} {others : List Cut}
      (listed : table = before ++ (kind, regex) :: behind)
      (declined : ∀ entry ∈ before, entry.2.cuts text = [])
      (preferred : regex.cuts text = cut :: others) : Prefers text kind cut

/-- No expression of the table matches at the front of a text. -/
def Declines (text : List Char) : Prop := ∀ entry ∈ table, entry.2.cuts text = []

theorem front_eq_none {regex : Regex} {text : List Char} :
    regex.front text = none ↔ regex.cuts text = [] :=
  List.head?_eq_none_iff

/-- The patterns take the preferred match of the first expression that matches. -/
theorem firstMatch_eq_some {text : List Char} {kind : Option TokenKind} {cut : Cut} :
    Pattern.firstMatch text = some (kind, cut) ↔ Prefers text kind cut := by
  rw [← firstMatch_eq, firstMatch, List.findSome?_eq_some_iff]
  refine ⟨?_, ?_⟩
  · rintro ⟨before, ⟨_, regex⟩, behind, listed, found, declined⟩
    obtain ⟨_, taken, same⟩ := Option.map_eq_some_iff.mp found
    obtain ⟨rfl, rfl⟩ := Prod.mk.inj same
    obtain ⟨others, preferred⟩ := List.head?_eq_some_iff.mp taken
    refine .first listed ?_ preferred
    intro entry member
    exact front_eq_none.mp (Option.map_eq_none_iff.mp (declined entry member))
  · rintro ⟨listed, declined, preferred⟩
    refine ⟨_, _, _, listed, ?_, ?_⟩
    · rw [front, preferred]
      rfl
    · intro entry member
      rw [front_eq_none.mpr (declined entry member)]
      rfl

theorem firstMatch_eq_none {text : List Char} :
    Pattern.firstMatch text = none ↔ Declines text := by
  rw [← firstMatch_eq, firstMatch, List.findSome?_eq_none_iff]
  refine forall₂_congr fun entry _ => ?_
  rw [Option.map_eq_none_iff, front_eq_none]

/-! ## Scans -/

/-- The items of a text that starts at a place. -/
inductive Scan : List Char → Position → List StreamItem → Prop
  | ended {place : Position} : Scan [] place [.ok (Token.endAt place)]
  | wrong {character : Char} {rest : List Char} {place : Position}
      (declines : Declines (character :: rest)) :
      Scan (character :: rest) place [.error (.unexpectedCharacter character place)]
  | skip {text : List Char} {cut : Cut} {place : Position} {items : List StreamItem}
      (prefers : Prefers text none cut)
      (behind : Scan cut.left (place.after cut.taken) items) : Scan text place items
  | token {text : List Char} {kind : TokenKind} {cut : Cut} {place : Position}
      {items : List StreamItem} (prefers : Prefers text (some kind) cut)
      (behind : Scan cut.left (place.after cut.taken) items) :
      Scan text place (.ok ⟨kind, String.ofList cut.taken, place⟩ :: items)

/-- The places of a text at which its scan arrives, each with the characters from there on. -/
inductive Reaches (source : List Char) : List Char → Position → Prop
  | start : Reaches source source Position.start
  | behind {text : List Char} {kind : Option TokenKind} {cut : Cut} {place : Position}
      (reached : Reaches source text place) (prefers : Prefers text kind cut) :
      Reaches source cut.left (place.after cut.taken)

theorem exists_scan (text : List Char) (place : Position) : ∃ items, Scan text place items := by
  obtain ⟨_, lexes⟩ := exists_lexes text place
  induction lexes with
  | done => exact ⟨_, .ended⟩
  | wrong missed => exact ⟨_, .wrong (firstMatch_eq_none.mp missed)⟩
  | skip found _ ih =>
      obtain ⟨items, behind⟩ := ih
      exact ⟨items, .skip (firstMatch_eq_some.mp found) behind⟩
  | token found _ ih =>
      obtain ⟨_, behind⟩ := ih
      exact ⟨_, .token (firstMatch_eq_some.mp found) behind⟩

end Regex

namespace TokenStream

open Regex (Prefers Declines Scan Reaches)

/-- A stream hands out the items of the scan of its text. -/
theorem takeItems_of_scan {text : List Char} {place : Position} {items : List StreamItem}
    (scan : Scan text place items) (source : List Char) :
    ∀ {bound : Nat}, text.length ≤ bound →
      takeItems (bound + 1) ⟨source, text, place, false⟩ = items := by
  induction scan with
  | ended =>
      intro bound _
      exact takeItems_of_done bound source _
  | wrong declines =>
      intro bound _
      exact takeItems_of_wrong (Regex.firstMatch_eq_none.mpr declines) bound
  | skip prefers _ ih =>
      intro bound enough
      have found := Regex.firstMatch_eq_some.mpr prefers
      have shorter := (Pattern.firstMatch_divides found).1.length_lt
      rw [takeItems_of_skip found]
      exact ih (by omega)
  | token prefers _ ih =>
      intro bound enough
      have found := Regex.firstMatch_eq_some.mpr prefers
      have shorter := (Pattern.firstMatch_divides found).1.length_lt
      obtain ⟨fewer, rfl⟩ : ∃ fewer, bound = fewer + 1 := ⟨bound - 1, by omega⟩
      rw [takeItems_of_token found, ih (by omega)]

theorem scan_iff (source : String) (items : List StreamItem) :
    Scan source.toList Position.start items ↔ items = (ofText source.toList).items := by
  have only : ∀ others, Scan source.toList Position.start others →
      others = (ofText source.toList).items := by
    intro others scan
    exact (takeItems_of_scan scan source.toList le_rfl).symm
  refine ⟨only items, ?_⟩
  rintro rfl
  obtain ⟨others, scan⟩ := Regex.exists_scan source.toList Position.start
  exact only others scan ▸ scan

/-! ## Errors -/

/-- An error comes from a character at which the scan arrives and no expression matches. -/
theorem reaches_of_error {source text : List Char} {place : Position}
    {result : Except SyntaxError (List Token)} (lexes : Lexes text place result) :
    ∀ {error : SyntaxError}, result = .error error → Reaches source text place →
      ∃ character rest there, Reaches source (character :: rest) there ∧
        Declines (character :: rest) ∧ error = .unexpectedCharacter character there := by
  induction lexes with
  | done => exact nofun
  | wrong missed =>
      rintro _ ⟨⟩ reached
      exact ⟨_, _, _, reached, Regex.firstMatch_eq_none.mp missed, rfl⟩
  | skip found _ ih =>
      intro error made reached
      exact ih made (reached.behind (Regex.firstMatch_eq_some.mp found))
  | @token _ _ _ _ result found _ ih =>
      intro error made reached
      rcases result with inner | others
      · cases made
        exact ih rfl (reached.behind (Regex.firstMatch_eq_some.mp found))
      · cases made

/-- An error behind a place at which the scan arrives is the error of the whole text. -/
theorem lexes_of_reaches {source text : List Char} {place : Position} {error : SyntaxError}
    (reached : Reaches source text place) :
    Lexes text place (.error error) → Lexes source Position.start (.error error) := by
  induction reached with
  | start => exact id
  | @behind text kind cut place _ prefers ih =>
      intro behind
      have found := Regex.firstMatch_eq_some.mpr prefers
      rcases kind with _ | kind
      · exact ih (.skip found behind)
      · exact ih (.token found behind)

theorem tokenize_eq_error (source : String) (error : SyntaxError) :
    tokenize source = .error error ↔
      ∃ character rest place, Reaches source.toList (character :: rest) place ∧
        Declines (character :: rest) ∧ error = .unexpectedCharacter character place := by
  refine ⟨?_, ?_⟩
  · intro made
    exact reaches_of_error (lexes_tokenize source) made .start
  · rintro ⟨character, rest, place, reached, declines, rfl⟩
    have wrong : Lexes (character :: rest) place _ := .wrong (Regex.firstMatch_eq_none.mpr declines)
    exact tokenize_of_lexes (lexes_of_reaches reached wrong)

/-! ## The result -/

/-- The items of a text are those of its scan by the table.  What is taken from the front of any
text is the preferred match of the first expression that matches, and this is the piece that stands
there; no expression matches just where nothing starts.  A text makes an error just when its scan
arrives at a character at which no expression matches. -/
theorem items_follow_table (source : String) :
    (∀ items, Scan source.toList Position.start items ↔
        items = (ofText source.toList).items) ∧
      (∀ text kind cut, Pattern.firstMatch text = some (kind, cut) ↔ Prefers text kind cut) ∧
      (∀ text kind cut, Prefers text kind cut ↔
        cut.taken ++ cut.left = text ∧ Stands kind cut.taken cut.left) ∧
      (∀ character rest, Declines (character :: rest) ↔ Refused character rest) ∧
      ∀ error, tokenize source = .error error ↔
        ∃ character rest place, Reaches source.toList (character :: rest) place ∧
          Declines (character :: rest) ∧ error = .unexpectedCharacter character place := by
  refine ⟨scan_iff source, ?_, ?_, ?_, tokenize_eq_error source⟩
  · intro text kind cut
    exact Regex.firstMatch_eq_some
  · intro text kind cut
    rw [← Regex.firstMatch_eq_some, Pattern.firstMatch_eq_some_iff]
  · intro character rest
    rw [← Regex.firstMatch_eq_none, Pattern.firstMatch_eq_none_iff]

end TokenStream

end CollectionSchema
