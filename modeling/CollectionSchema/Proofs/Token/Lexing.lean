import CollectionSchema.Proofs.Token.Pattern
import CollectionSchema.Token.Stream

/-!
# Tokens by pieces

Going over a text piece by piece gives its tokens, or the error of the first
character at which no piece starts.  Each step looks at the front of the text only,
and what it makes is put in front of what the rest makes.  The stream of a text
hands out just that.
-/

set_option autoImplicit false

namespace CollectionSchema

/-- What a text makes when it starts at a place: its tokens with the end of the input behind them,
or an error. -/
inductive Lexes : List Char → Position → Except SyntaxError (List Token) → Prop where
  | done {place : Position} : Lexes [] place (.ok [Token.endAt place])
  | wrong {character : Char} {rest : List Char} {place : Position}
      (missed : Pattern.firstMatch (character :: rest) = none) :
      Lexes (character :: rest) place (.error (.unexpectedCharacter character place))
  | skip {text : List Char} {cut : Cut} {place : Position}
      {result : Except SyntaxError (List Token)}
      (found : Pattern.firstMatch text = some (none, cut))
      (behind : Lexes cut.left (place.after cut.taken) result) : Lexes text place result
  | token {text : List Char} {kind : TokenKind} {cut : Cut} {place : Position}
      {result : Except SyntaxError (List Token)}
      (found : Pattern.firstMatch text = some (some kind, cut))
      (behind : Lexes cut.left (place.after cut.taken) result) :
      Lexes text place (result.map (⟨kind, String.ofList cut.taken, place⟩ :: ·))

/-! ## Every text makes something -/

theorem exists_lexes (text : List Char) (place : Position) :
    ∃ result, Lexes text place result := by
  induction size : text.length using Nat.strongRecOn generalizing text place with
  | ind size shorter =>
      subst size
      rcases text with _ | ⟨character, rest⟩
      · exact ⟨_, .done⟩
      rcases found : Pattern.firstMatch (character :: rest) with _ | ⟨kind, cut⟩
      · exact ⟨_, .wrong found⟩
      obtain ⟨result, behind⟩ := shorter cut.left.length
        (Pattern.firstMatch_divides found).1.length_lt cut.left (place.after cut.taken) rfl
      rcases kind with _ | kind
      · exact ⟨result, .skip found behind⟩
      · exact ⟨_, .token found behind⟩

/-- The end of the input is the last token of a text and no other. -/
theorem Lexes.exists_ended {text : List Char} {place : Position}
    {result : Except SyntaxError (List Token)} (lexes : Lexes text place result) :
    ∀ {tokens : List Token}, result = .ok tokens → ∃ front last, tokens = front ++ [last] ∧
      (∀ token ∈ front, token.isEnd = false) ∧ last.isEnd = true := by
  induction lexes with
  | done =>
      rintro _ ⟨⟩
      exact ⟨[], _, rfl, nofun, rfl⟩
  | wrong => exact nofun
  | skip _ _ ih => exact ih
  | @token _ kind _ _ result found _ ih =>
      intro tokens made
      rcases result with _ | others
      · cases made
      · obtain ⟨front, last, rfl, proper, ended⟩ := ih rfl
        cases made
        refine ⟨_ :: front, last, rfl, ?_, ended⟩
        intro token member
        rcases List.mem_cons.mp member with rfl | member
        · have other := (Pattern.firstMatch_divides found).2
          cases kind <;> first | rfl | exact absurd rfl other
        · exact proper token member

/-! ## The stream of a text -/

namespace TokenStream

theorem scan_cons (bound : Nat) (character : Char) (rest : List Char) (place : Position) :
    scan (bound + 1) (character :: rest) place =
      match Pattern.firstMatch (character :: rest) with
      | none => (.error (.unexpectedCharacter character place), character :: rest, place)
      | some (none, cut) => scan bound cut.left (place.after cut.taken)
      | some (some kind, cut) =>
        (.ok ⟨kind, String.ofList cut.taken, place⟩, cut.left, place.after cut.taken) := rfl

theorem scan_of_lt {first : Nat} : ∀ {second : Nat} {text : List Char} {place : Position},
    text.length < first → text.length < second →
      scan first text place = scan second text place := by
  induction first with
  | zero => exact fun before _ => absurd before (Nat.not_lt_zero _)
  | succ first ih =>
      rintro (_ | second) (_ | ⟨character, rest⟩) place before behind
      · exact absurd behind (Nat.not_lt_zero _)
      · exact absurd behind (Nat.not_lt_zero _)
      · rfl
      · rw [scan_cons, scan_cons]
        rcases found : Pattern.firstMatch (character :: rest) with _ | ⟨_ | kind, cut⟩
        · rfl
        · have shorter := (Pattern.firstMatch_divides found).1.length_lt
          exact ih (by omega) (by omega)
        · rfl

theorem next_of_done (source : List Char) (place : Position) :
    next ⟨source, [], place, false⟩ = some (.ok (Token.endAt place), ⟨source, [], place, true⟩) :=
  rfl

theorem next_of_skip {source text : List Char} {cut : Cut} {place : Position}
    (found : Pattern.firstMatch text = some (none, cut)) :
    next ⟨source, text, place, false⟩ =
      next ⟨source, cut.left, place.after cut.taken, false⟩ := by
  have shorter := (Pattern.firstMatch_divides found).1.length_lt
  rcases text with _ | ⟨character, rest⟩
  · cases found
  · have step : scan ((character :: rest).length + 1) (character :: rest) place =
        scan (cut.left.length + 1) cut.left (place.after cut.taken) := by
      rw [scan_cons, found]
      exact scan_of_lt (by omega) (by omega)
    simp only [next, step]

theorem next_of_token {source text : List Char} {kind : TokenKind} {cut : Cut} {place : Position}
    (found : Pattern.firstMatch text = some (some kind, cut)) :
    next ⟨source, text, place, false⟩ =
      some (.ok ⟨kind, String.ofList cut.taken, place⟩,
        ⟨source, cut.left, place.after cut.taken, false⟩) := by
  have other := (Pattern.firstMatch_divides found).2
  rcases text with _ | ⟨character, rest⟩
  · cases found
  · have proper : (kind == .endOfInput) = false := by
      cases kind <;> first | rfl | exact absurd rfl other
    simp only [next, List.length_cons, scan_cons, found, isLast, Token.isEnd, proper,
      Bool.false_eq_true, if_false]

theorem next_of_wrong {source rest : List Char} {character : Char} {place : Position}
    (missed : Pattern.firstMatch (character :: rest) = none) :
    next ⟨source, character :: rest, place, false⟩ =
      some (.error (.unexpectedCharacter character place),
        ⟨source, character :: rest, place, true⟩) := by
  simp only [next, List.length_cons, scan_cons, missed, isLast, Bool.false_eq_true, if_false]

theorem takeItems_of_finished (bound : Nat) (source text : List Char) (place : Position) :
    takeItems bound ⟨source, text, place, true⟩ = [] := by
  cases bound <;> rfl

theorem takeItems_of_next {stream later : TokenStream} {item : StreamItem}
    (step : stream.next = some (item, later)) (bound : Nat) :
    stream.takeItems (bound + 1) = item :: later.takeItems bound := by
  rw [takeItems, step]

/-! One item at a time.  A piece that makes no token is passed within the same item, so the bound
stays what it was. -/

theorem takeItems_of_done (bound : Nat) (source : List Char) (place : Position) :
    takeItems (bound + 1) ⟨source, [], place, false⟩ = [.ok (Token.endAt place)] := by
  rw [takeItems_of_next (next_of_done source place), takeItems_of_finished]

theorem takeItems_of_wrong {source rest : List Char} {character : Char} {place : Position}
    (missed : Pattern.firstMatch (character :: rest) = none) (bound : Nat) :
    takeItems (bound + 1) ⟨source, character :: rest, place, false⟩ =
      [.error (.unexpectedCharacter character place)] := by
  rw [takeItems_of_next (next_of_wrong missed), takeItems_of_finished]

theorem takeItems_of_skip {source text : List Char} {cut : Cut} {place : Position}
    (found : Pattern.firstMatch text = some (none, cut)) (bound : Nat) :
    takeItems (bound + 1) ⟨source, text, place, false⟩ =
      takeItems (bound + 1) ⟨source, cut.left, place.after cut.taken, false⟩ := by
  rw [takeItems, takeItems, next_of_skip found]

theorem takeItems_of_token {source text : List Char} {kind : TokenKind} {cut : Cut}
    {place : Position} (found : Pattern.firstMatch text = some (some kind, cut)) (bound : Nat) :
    takeItems (bound + 1) ⟨source, text, place, false⟩ =
      .ok ⟨kind, String.ofList cut.taken, place⟩ ::
        takeItems bound ⟨source, cut.left, place.after cut.taken, false⟩ :=
  takeItems_of_next (next_of_token found) bound

/-- The items of a stream are what its text makes. -/
theorem takeItems_of_lexes {text : List Char} {place : Position}
    {result : Except SyntaxError (List Token)} (lexes : Lexes text place result)
    (source : List Char) :
    ∀ {bound : Nat}, text.length ≤ bound →
      (takeItems (bound + 1) ⟨source, text, place, false⟩).mapM id = result := by
  induction lexes with
  | done =>
      intro bound _
      rw [takeItems_of_done]
      rfl
  | wrong missed =>
      intro bound _
      rw [takeItems_of_wrong missed]
      rfl
  | skip found _ ih =>
      intro bound enough
      have shorter := (Pattern.firstMatch_divides found).1.length_lt
      rw [takeItems_of_skip found]
      exact ih (by omega)
  | token found _ ih =>
      intro bound enough
      have shorter := (Pattern.firstMatch_divides found).1.length_lt
      obtain ⟨fewer, rfl⟩ : ∃ fewer, bound = fewer + 1 := ⟨bound - 1, by omega⟩
      rw [takeItems_of_token found, List.mapM_cons, ih (by omega)]
      rfl

/-- The items of a text without an error are its tokens. -/
theorem eq_of_mapM {items : List StreamItem} : ∀ {tokens : List Token},
    items.mapM id = .ok tokens → items = tokens.map .ok := by
  induction items with
  | nil =>
      rintro _ ⟨⟩
      rfl
  | cons item rest ih =>
      intro tokens made
      rw [List.mapM_cons] at made
      rcases item with error | token
      · cases made
      · rcases others : rest.mapM id with error | later
        · rw [others] at made
          cases made
        · rw [others] at made
          cases made
          rw [List.map_cons, ih others]

end TokenStream

/-- What a text makes from its first place on are its tokens. -/
theorem tokenize_of_lexes {source : String} {result : Except SyntaxError (List Token)}
    (lexes : Lexes source.toList Position.start result) : tokenize source = result :=
  TokenStream.takeItems_of_lexes lexes source.toList le_rfl

theorem lexes_tokenize (source : String) :
    Lexes source.toList Position.start (tokenize source) := by
  obtain ⟨result, lexes⟩ := exists_lexes source.toList Position.start
  exact tokenize_of_lexes lexes ▸ lexes

end CollectionSchema
