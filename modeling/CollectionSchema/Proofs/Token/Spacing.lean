import CollectionSchema.Proofs.Token.Lexeme

/-!
# Tokens written apart

White space and complete comments make no token wherever they stand between tokens.
So the lexemes of a text can be written down again with any such text between them,
and they make the same tokens at other places.  All that is needed is white space
directly behind each lexeme, because what stands there can change how the lexeme is
read: a letter goes on with a word, a digit makes a number of a sign, and a star
behind a slash opens a comment.
-/

set_option autoImplicit false

namespace CollectionSchema

open Pattern (firstMatch comment blockEnd)

/-! ## Separators -/

/-- A text of white space and complete comments.  A comment in slashes is complete with the line
feed behind it, a block with the first end behind its start. -/
inductive Separator : List Char → Prop
  | nil : Separator []
  | blank {character : Char} {others : List Char} (blank : Text.isBlank character = true)
      (behind : Separator others) : Separator (character :: others)
  | line {body others : List Char} (within : '\n' ∉ body) (behind : Separator others) :
      Separator ('/' :: '/' :: body ++ '\n' :: others)
  | block {body others : List Char} (first : ¬ ['*', '/'] <:+: body ++ ['*'])
      (behind : Separator others) : Separator ('/' :: '*' :: body ++ '*' :: '/' :: others)

namespace Pattern

theorem firstMatch_of_comment {text : List Char} {cut : Cut} (piece : comment text = some cut) :
    firstMatch text = some (none, cut) := by
  simp [firstMatch, table, piece]

theorem comment_line {body following : List Char} (within : '\n' ∉ body)
    (ends : ∀ next ∈ following.head?, next = '\n') :
    comment ('/' :: '/' :: body ++ following) = some ⟨'/' :: '/' :: body, following⟩ := by
  have inside : ∀ character ∈ body, (decide (character ≠ '\n')) = true := by
    intro character member
    simpa using ne_of_mem_of_not_mem member within
  have run : Cut.run (· ≠ '\n') (body ++ following) = ⟨body, following⟩ :=
    Cut.run_append inside fun next member => by simpa using ends next member
  rw [List.cons_append, List.cons_append, comment, run]
  rfl

/-- A block goes up to its first end. -/
theorem blockEnd_body {body : List Char} (first : ¬ ['*', '/'] <:+: body ++ ['*'])
    (following : List Char) :
    blockEnd (body ++ '*' :: '/' :: following) = some ⟨body ++ ['*', '/'], following⟩ := by
  induction body with
  | nil => rfl
  | cons character rest ih =>
      have later := ih fun inside => first (List.infix_cons inside)
      have other : ∀ left, character = '*' →
          rest ++ '*' :: '/' :: following = '/' :: left → False := by
        rintro left rfl same
        rcases rest with _ | ⟨next, rest⟩
        · cases same
        · obtain ⟨rfl, _⟩ := List.cons.inj same
          exact first ⟨[], rest ++ ['*'], rfl⟩
      rw [List.cons_append, blockEnd.eq_3 _ _ other, later]
      rfl

theorem comment_block {body : List Char} (first : ¬ ['*', '/'] <:+: body ++ ['*'])
    (following : List Char) :
    comment ('/' :: '*' :: body ++ '*' :: '/' :: following) =
      some ⟨'/' :: '*' :: body ++ ['*', '/'], following⟩ :=
  congrArg (Option.map (Cut.prepend ['/', '*'])) (blockEnd_body first following)

end Pattern

/-- A separator makes no token in front of another text. -/
theorem Separator.lexes {gap : List Char} (separator : Separator gap) {more : List Char}
    {result : Except SyntaxError (List Token)} :
    ∀ {place : Position}, Lexes more (place.after gap) result →
      Lexes (gap ++ more) place result := by
  induction separator with
  | nil => exact id
  | blank blank _ ih => exact fun behind => .blank blank (ih behind)
  | @line body others within _ ih =>
      intro place behind
      rw [Position.after_append] at behind
      have piece := @Pattern.comment_line _ ('\n' :: (others ++ more)) within fun _ same =>
        (Option.some.inj same).symm
      rw [List.append_assoc, List.cons_append]
      exact .skip (Pattern.firstMatch_of_comment piece) (.blank rfl (ih behind))
  | @block body others first _ ih =>
      intro place behind
      have split : '/' :: '*' :: body ++ '*' :: '/' :: others =
          ('/' :: '*' :: body ++ ['*', '/']) ++ others := by simp
      rw [split, Position.after_append] at behind
      have piece := Pattern.comment_block first (others ++ more)
      rw [List.append_assoc]
      exact .skip (Pattern.firstMatch_of_comment piece) (ih behind)

/-! ## Lexemes with separators between them -/

/-- Every token but the end of the input has the text of its kind. -/
theorem Lexes.lexeme_or_end {text : List Char} {place : Position}
    {result : Except SyntaxError (List Token)} (lexes : Lexes text place result) :
    ∀ {tokens : List Token}, result = .ok tokens → ∀ token ∈ tokens,
      Lexeme token.kind token.lexeme.toList ∨ ∃ there, token = Token.endAt there := by
  induction lexes with
  | done =>
      rintro _ ⟨⟩ token member
      exact .inr ⟨_, List.mem_singleton.mp member⟩
  | wrong => exact nofun
  | skip _ _ ih => exact ih
  | @token _ kind cut _ result found _ ih =>
      intro tokens made
      rcases result with _ | others
      · cases made
      · cases made
        intro token member
        rcases List.mem_cons.mp member with rfl | member
        · left
          show Lexeme kind (String.ofList cut.taken).toList
          rw [String.toList_ofList]
          exact Pattern.lexeme_of_firstMatch found
        · exact ih rfl token member

/-- The texts of tokens, with another text behind each of them. -/
def spaced (tokens : List Token) (gaps : List (List Char)) : List Char :=
  (List.zipWith (fun token gap => token.lexeme.toList ++ gap) tokens gaps).flatten

/-- White space with any separator behind it. -/
def SetsApart (gap : List Char) : Prop :=
  Separator gap ∧ ∃ blank others, gap = blank :: others ∧ Text.isBlank blank = true

theorem lexes_spaced {tokens : List Token} : ∀ {gaps : List (List Char)} (place : Position),
    (∀ token ∈ tokens, Lexeme token.kind token.lexeme.toList) →
    gaps.length = tokens.length → (∀ gap ∈ gaps, SetsApart gap) →
    ∃ others, Lexes (spaced tokens gaps) place (.ok others) ∧
      others.map Token.content = tokens.map Token.content ++ [(.endOfInput, "")] := by
  induction tokens with
  | nil =>
      intro gaps place _ count _
      obtain rfl := List.length_eq_zero_iff.mp count
      exact ⟨_, .done, rfl⟩
  | cons token tokens ih =>
      intro gaps place lexemes count parts
      rcases gaps with _ | ⟨gap, gaps⟩
      · cases count
      obtain ⟨separator, blank, rest, head, isBlank⟩ := parts gap List.mem_cons_self
      have apart : Text.Apart (gap ++ spaced tokens gaps) := by
        rintro next same
        rw [head] at same
        cases same
        exact isBlank
      have found := (lexemes token List.mem_cons_self).firstMatch apart
      obtain ⟨others, behind, same⟩ := ih ((place.after token.lexeme.toList).after gap)
        (fun other member => lexemes other (List.mem_cons_of_mem token member))
        (Nat.succ.inj count) (fun other member => parts other (List.mem_cons_of_mem gap member))
      have whole := Lexes.token found (separator.lexes behind)
      rw [← List.append_assoc] at whole
      refine ⟨_, whole, ?_⟩
      rw [List.map_cons, same, Token.content, String.ofList_toList]
      rfl

/-- When a text makes tokens, their texts make tokens with the same kinds and texts, whatever
separators stand in front of them, between them and behind them. -/
theorem tokenize_spaced {source : String} {tokens : List Token}
    (made : tokenize source = .ok tokens) {first : List Char} (separator : Separator first)
    {gaps : List (List Char)} (count : gaps.length = (tokens.filter (!·.isEnd)).length)
    (parts : ∀ gap ∈ gaps, SetsApart gap) :
    ∃ others, tokenize (String.ofList (first ++ spaced (tokens.filter (!·.isEnd)) gaps)) =
        .ok others ∧
      others.map Token.content = tokens.map Token.content := by
  have lexes := made ▸ lexes_tokenize source
  obtain ⟨front, last, rfl, proper, ended⟩ := lexes.exists_ended rfl
  have written : (front ++ [last]).filter (!·.isEnd) = front := by
    rw [List.filter_append, List.filter_eq_self.mpr fun token member => by
      rw [proper token member, Bool.not_false]]
    simp [ended]
  rw [written] at count ⊢
  have lexemes : ∀ token ∈ front, Lexeme token.kind token.lexeme.toList := by
    intro token member
    rcases lexes.lexeme_or_end rfl token (List.mem_append_left [last] member) with found | same
    · exact found
    · obtain ⟨there, rfl⟩ := same
      cases proper _ member
  have content : last.content = (.endOfInput, "") := by
    rcases lexes.lexeme_or_end rfl last (by simp) with found | same
    · have kind : last.kind = .endOfInput := by simpa [Token.isEnd] using ended
      rw [kind] at found
      cases found
    · obtain ⟨there, rfl⟩ := same
      rfl
  obtain ⟨others, behind, same⟩ :=
    lexes_spaced (Position.start.after first) lexemes count parts
  refine ⟨others, tokenize_of_lexes ?_, ?_⟩
  · rw [String.toList_ofList]
    exact separator.lexes behind
  · rw [same, List.map_append, List.map_singleton, content]

/-- A name, a slash and a negative number, which touch each other, are written apart: a block that
holds a quote comes first, a comment with a quote goes to the end of the line behind the name, and
another block follows the slash, which would open one itself. -/
theorem tokenize_spaced_of_division :
    let tokens : List Token := [⟨.identifier, "a", ⟨1, 1⟩⟩, ⟨.symbol, "/", ⟨1, 2⟩⟩,
      ⟨.number, "-1", ⟨1, 3⟩⟩, ⟨.endOfInput, "", ⟨1, 5⟩⟩]
    let gaps := [" // \"\n".toList, "\t/**/".toList, " ".toList]
    ∃ others, tokenize (String.ofList ("/*'*/".toList ++
        spaced (tokens.filter (!·.isEnd)) gaps)) = .ok others ∧
      others.map Token.content = tokens.map Token.content := by
  have made : tokenize "a/-1" = .ok [⟨.identifier, "a", ⟨1, 1⟩⟩, ⟨.symbol, "/", ⟨1, 2⟩⟩,
      ⟨.number, "-1", ⟨1, 3⟩⟩, ⟨.endOfInput, "", ⟨1, 5⟩⟩] := by
    decide +kernel
  have quoted : ¬ ['*', '/'] <:+: ['\''] ++ ['*'] := by decide
  have empty : ¬ ['*', '/'] <:+: [] ++ ['*'] := by decide
  have within : '\n' ∉ [' ', '"'] := by decide
  refine tokenize_spaced made (.block quoted .nil) rfl fun gap member => ?_
  simp only [List.mem_cons, List.not_mem_nil, or_false] at member
  rcases member with rfl | rfl | rfl
  · exact ⟨.blank rfl (.line within .nil), ' ', _, rfl, rfl⟩
  · exact ⟨.blank rfl (.block empty .nil), '\t', _, rfl, rfl⟩
  · exact ⟨.blank rfl .nil, ' ', _, rfl, rfl⟩

end CollectionSchema
