import CollectionSchema.Proofs.Text.Position
import CollectionSchema.Proofs.Token.Lexing

/-!
# No character is lost

The items of a text cut it into pieces without a rest: the lexemes of the tokens in
their order, and gaps of comments and white space in front of each of them.  Behind
the last token and its gap, the text has either ended or goes on with a character at
which no pattern matches, and the last item says which of the two it is.  Each item
has the place at which it starts, told from the text in front of it.
-/

set_option autoImplicit false

namespace CollectionSchema

/-! ## Gaps between tokens -/

/-- A complete comment or run of white space, given the text that follows it.  A comment in slashes
goes on to the end of its line, a block ends at the first end behind its start, and white space goes
on as long as there is any. -/
inductive Discarded : List Char → List Char → Prop
  | line {body following : List Char} (within : '\n' ∉ body)
      (ends : ∀ next ∈ following.head?, next = '\n') : Discarded ('/' :: '/' :: body) following
  | block {body following : List Char} (first : ¬ ['*', '/'] <:+: body ++ ['*']) :
      Discarded ('/' :: '*' :: body ++ ['*', '/']) following
  | blanks {run following : List Char} (some : run ≠ [])
      (blank : ∀ character ∈ run, Text.isBlank character = true)
      (ends : ∀ next ∈ following.head?, Text.isBlank next = false) : Discarded run following

/-- Any number of complete comments and runs of white space, given the text that follows them. -/
inductive Gap : List Char → List Char → Prop
  | nil {following : List Char} : Gap [] following
  | cons {piece gap following : List Char} (first : Discarded piece (gap ++ following))
      (others : Gap gap following) : Gap (piece ++ gap) following

namespace Pattern

theorem head_dropWhile {test : Char → Bool} {text : List Char} :
    ∀ next ∈ (text.dropWhile test).head?, test next = false := by
  intro next member
  have stops := List.head?_dropWhile_not test text
  rw [member] at stops
  exact stops

/-- The piece that ends a block holds the end of a block in no other place. -/
theorem blockEnd_first {text : List Char} {cut : Cut} (found : blockEnd text = some cut) :
    ∃ body, cut.taken = body ++ ['*', '/'] ∧ ¬ ['*', '/'] <:+: body ++ ['*'] := by
  induction text using blockEnd.induct generalizing cut with
  | case1 => cases found
  | case2 left =>
      cases found
      exact ⟨[], rfl, by decide⟩
  | case3 character rest other ih =>
      rw [blockEnd.eq_3 character rest other] at found
      obtain ⟨inner, ended, rfl⟩ := Option.map_eq_some_iff.mp found
      obtain ⟨body, same, first⟩ := ih ended
      refine ⟨character :: body, by rw [Cut.prepend, same]; rfl, fun inside => ?_⟩
      rcases List.infix_cons_iff.mp inside with ⟨more, front⟩ | inside
      · obtain ⟨star, slash⟩ := List.cons.inj front
        have whole := blockEnd_whole ended
        rw [same] at whole
        rcases body with _ | ⟨next, body⟩
        · cases slash
        · obtain ⟨isSlash, _⟩ := List.cons.inj slash
          exact other (body ++ ['*', '/'] ++ inner.left) star.symm
            (by rw [← whole, ← isSlash]; simp)
      · exact first inside

theorem discarded_of_comment {text : List Char} {cut : Cut} (found : comment text = some cut) :
    Discarded cut.taken cut.left := by
  unfold comment at found
  split at found
  · cases found
    refine .line (fun inside => ?_) fun next member => ?_
    · simpa using List.mem_takeWhile_imp inside
    · simpa using head_dropWhile next member
  · obtain ⟨inner, ended, rfl⟩ := Option.map_eq_some_iff.mp found
    obtain ⟨body, same, first⟩ := blockEnd_first ended
    rw [Cut.prepend, same]
    exact .block first
  · cases found

theorem discarded_of_blanks {text : List Char} {cut : Cut} (found : blanks text = some cut) :
    Discarded cut.taken cut.left := by
  have blank := blanks_taken found
  rw [blanks_eq_leading] at found
  have divides := leading_divides found
  refine .blanks divides.taken blank ?_
  rcases text with _ | ⟨first, rest⟩
  · cases found
  · rw [leading] at found
    split at found
    · cases found
      exact head_dropWhile
    · cases found

end Pattern

/-! ## The items of a text -/

namespace TokenStream

/-- The place of an item. -/
def itemPosition : StreamItem → Position
  | .ok token => token.position
  | .error error => error.position

/-- What the items of a text have to do with it, given the text in front of it: gaps and lexemes
take turns, and behind them there is nothing or a character that starts no piece. -/
inductive Splits : List Char → List Char → List StreamItem → Prop
  | ended {before gap : List Char} (space : Gap gap []) :
      Splits before gap [.ok (Token.endAt (Position.behind (before ++ gap)))]
  | wrong {before gap rest : List Char} {character : Char} (space : Gap gap (character :: rest))
      (unmatched : ∀ entry ∈ Pattern.table, entry.2 (character :: rest) = none) :
      Splits before (gap ++ character :: rest)
        [.error (.unexpectedCharacter character (Position.behind (before ++ gap)))]
  | token {before gap lexeme text : List Char} {kind : TokenKind} {items : List StreamItem}
      (space : Gap gap (lexeme ++ text)) (some : lexeme ≠ []) (proper : kind ≠ .endOfInput)
      (others : Splits (before ++ gap ++ lexeme) text items) :
      Splits before (gap ++ (lexeme ++ text))
        (.ok ⟨kind, String.ofList lexeme, Position.behind (before ++ gap)⟩ :: items)

namespace Splits

/-- Something that makes no token can be put in front of the first gap. -/
theorem skip {before piece text : List Char} {items : List StreamItem}
    (discarded : Discarded piece text) (splits : Splits (before ++ piece) text items) :
    Splits before (piece ++ text) items := by
  cases splits with
  | ended space =>
      rw [List.append_assoc]
      exact .ended (.cons (by rwa [List.append_nil]) space)
  | wrong space unmatched =>
      rw [List.append_assoc, ← List.append_assoc piece]
      exact .wrong (.cons discarded space) unmatched
  | token space some proper others =>
      rw [List.append_assoc before, ← List.append_assoc piece]
      rw [List.append_assoc before] at others
      exact .token (.cons discarded space) some proper others

theorem behind_le (before : List Char) (text : List Char) :
    Position.behind (before ++ text) = Position.behind before ∨
      (Position.behind before).Precedes (Position.behind (before ++ text)) := by
  rcases text with _ | ⟨first, rest⟩
  · exact .inl (by rw [List.append_nil])
  · rw [Position.behind_append]
    exact .inr (.after _ (List.cons_ne_nil first rest))

/-- No item is in front of the text that it comes from. -/
theorem place_le {before text : List Char} {items : List StreamItem}
    (splits : Splits before text items) : ∀ item ∈ items,
      itemPosition item = Position.behind before ∨
        (Position.behind before).Precedes (itemPosition item) := by
  induction splits with
  | ended _ | wrong _ _ =>
      intro item member
      rw [List.mem_singleton.mp member]
      exact behind_le _ _
  | @token before gap lexeme text kind items _ some _ _ ih =>
      intro item member
      rcases List.mem_cons.mp member with rfl | member
      · exact behind_le _ _
      · have further := behind_le before (gap ++ lexeme)
        have later := ih item member
        rw [List.append_assoc] at later
        rcases later with same | later
        · rwa [same]
        · rcases further with same | further
          · exact .inr (same ▸ later)
          · exact .inr (further.trans later)

/-- Each item is behind the items in front of it. -/
theorem increasing {before text : List Char} {items : List StreamItem}
    (splits : Splits before text items) :
    (items.map itemPosition).Pairwise Position.Precedes := by
  induction splits with
  | ended _ | wrong _ _ => exact .cons nofun .nil
  | @token before gap lexeme text kind items _ some _ others ih =>
      refine .cons (fun place member => ?_) ih
      obtain ⟨item, inside, rfl⟩ := List.mem_map.mp member
      have step : (Position.behind (before ++ gap)).Precedes
          (Position.behind (before ++ gap ++ lexeme)) := by
        rw [Position.behind_append (before ++ gap)]
        exact .after _ some
      rcases others.place_le item inside with same | later
      · rwa [same]
      · exact step.trans later

end Splits

/-! ## Every text is split -/

theorem splits_takeItems (source : List Char) {text : List Char} {place : Position}
    {result : Except SyntaxError (List Token)} (lexes : Lexes text place result) :
    ∀ (before : List Char) {bound : Nat}, place = Position.behind before → text.length ≤ bound →
      Splits before text (takeItems (bound + 1) ⟨source, text, place, false⟩) := by
  induction lexes with
  | done =>
      rintro before bound rfl _
      rw [takeItems_of_done]
      have ended := @Splits.ended before _ .nil
      rwa [List.append_nil] at ended
  | @wrong character rest _ missed =>
      rintro before bound rfl _
      rw [takeItems_of_wrong missed]
      have unmatched : ∀ entry ∈ Pattern.table, entry.2 (character :: rest) = none := by
        simpa [Pattern.firstMatch, List.findSome?_eq_none_iff] using missed
      have wrong := @Splits.wrong before _ _ _ .nil unmatched
      rwa [List.append_nil] at wrong
  | @skip _ cut _ _ found _ ih =>
      rintro before bound rfl enough
      have divides := (Pattern.firstMatch_divides found).1
      have shorter := divides.length_lt
      have discarded : Discarded cut.taken cut.left := by
        rcases Pattern.of_skip found with piece | space
        · exact Pattern.discarded_of_comment piece
        · exact Pattern.discarded_of_blanks space
      have behind := ih (before ++ cut.taken) (Position.behind_append _ _).symm
        (shorter.le.trans enough)
      have whole := Splits.skip discarded behind
      rwa [divides.whole, ← takeItems_of_skip found] at whole
  | @token _ kind cut _ _ found _ ih =>
      rintro before bound rfl enough
      obtain ⟨divides, proper⟩ := Pattern.firstMatch_divides found
      have shorter := divides.length_lt
      obtain ⟨fewer, rfl⟩ : ∃ fewer, bound = fewer + 1 := ⟨bound - 1, by omega⟩
      have behind := ih (before ++ cut.taken) (Position.behind_append _ _).symm
        (Nat.le_of_lt_succ (shorter.trans_le enough))
      have kindProper : kind ≠ .endOfInput := fun same => proper (by rw [same])
      have whole := @Splits.token before [] _ _ _ _ .nil divides.taken kindProper
        (by rw [List.append_nil]; exact behind)
      rw [takeItems_of_token found]
      rwa [List.nil_append, divides.whole, List.append_nil] at whole

/-- The items of a text split it into gaps and lexemes, up to its end or to a character that starts
nothing, and the place of each item is behind the places of those in front of it. -/
theorem items_split (source : String) :
    let items := (ofText source.toList).items
    Splits [] source.toList items ∧ (items.map itemPosition).Pairwise Position.Precedes := by
  have splits := splits_takeItems source.toList (lexes_tokenize source) [] rfl le_rfl
  exact ⟨splits, splits.increasing⟩

end TokenStream

end CollectionSchema
