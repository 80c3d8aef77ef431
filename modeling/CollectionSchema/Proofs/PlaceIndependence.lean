import CollectionSchema.Proofs.Relocation

/-!
# Places do not steer a parse

Tokens at other places make the same program or the same error at other places, and
this holds of every call of a session.  Two lists of tokens with the same kinds and
texts become one list when all their tokens are put at the same place.  So they make
programs that differ in places only, or the same error about the same token.
-/

set_option autoImplicit false

namespace CollectionSchema

/-- A program with all its parts at one and the same place. -/
def Program.withoutPlaces (program : Program) : Program :=
  program.relocate fun _ => Position.start

/-- Answers about two lists of tokens that are alike: programs that differ in places only, or one
error about the two tokens that have the same number of tokens before them. -/
inductive Alike (tokens others : List Token) :
    Except SyntaxError Program → Except SyntaxError Program → Prop
  | programs {left right : Program} (same : left.withoutPlaces = right.withoutPlaces) :
      Alike tokens others (.ok left) (.ok right)
  | errors (error : SyntaxError) {index : Nat} {token other : Token}
      (here : tokens[index]? = some token) (there : others[index]? = some other) :
      Alike tokens others (.error { error with position := token.position })
        (.error { error with position := other.position })

/-- Tokens that are alike are the same when all of them are put at one place. -/
theorem map_relocate_of_content {tokens others : List Token} (place : Position)
    (same : tokens.map Token.content = others.map Token.content) :
    tokens.map (Token.relocate fun _ => place) = others.map (Token.relocate fun _ => place) := by
  have rebuilt : Token.relocate (fun _ => place) =
      (fun content => ⟨content.1, content.2, place⟩) ∘ Token.content := by
    funext token
    rfl
  rw [rebuilt, ← List.map_map, ← List.map_map, same]

namespace ParseSession

/-- Where there are no tokens, a call leaves the cursor where it is. -/
theorem later_nil (calls : Nat) : ∃ furthest,
    (ofTokens []).later calls = ⟨closed [], 0, furthest⟩ := by
  induction calls with
  | zero => exact ⟨none, rfl⟩
  | succ calls ih =>
      obtain ⟨furthest, state⟩ := ih
      rw [later, state]
      exact ⟨_, rfl⟩

/-- Where there are no tokens, every call reads the empty program. -/
theorem parse_later_nil (calls : Nat) : ((ofTokens []).later calls).parse.1 = .ok ⟨[]⟩ := by
  obtain ⟨furthest, state⟩ := later_nil calls
  rw [state]
  rfl

/-- Sessions that become the same when all tokens are put at one place answer alike. -/
theorem alike_of_relocate {session other : ParseSession} (range : session.InRange)
    (ends : ∃ token ∈ session.tokens, token.isEnd = true) (otherRange : other.InRange)
    (otherEnds : ∃ token ∈ other.tokens, token.isEnd = true)
    (same : session.relocate (fun _ => Position.start) =
      other.relocate fun _ => Position.start) :
    Alike session.tokens other.tokens session.parse.1 other.parse.1 := by
  have step := relocate_parse (fun _ => Position.start) range ends
  rw [same, relocate_parse _ otherRange otherEnds, Prod.mk.injEq] at step
  obtain ⟨answer, state⟩ := step
  rcases failed : session.parse.1 with error | left
  · rcases otherFailed : other.parse.1 with otherError | right
    · obtain ⟨record, token, known, here, rfl⟩ := range.exists_record ends failed
      obtain ⟨otherRecord, found, otherKnown, there, rfl⟩ :=
        otherRange.exists_record otherEnds otherFailed
      -- Putting tokens elsewhere leaves the record as it is, so there is only one.
      have furthest := congrArg ParseSession.furthest state
      rw [relocate_furthest, relocate_furthest, known, otherKnown] at furthest
      obtain rfl := Option.some.inj furthest
      rw [failed, otherFailed] at answer
      have moved : otherRecord.toSyntaxError found =
          { otherRecord.toSyntaxError token with position := found.position } :=
        congrArg (fun error => { error with position := found.position })
          (Except.error.inj answer)
      rw [moved]
      exact .errors (otherRecord.toSyntaxError token) here there
    · rw [failed, otherFailed] at answer
      cases answer
  · rcases otherFailed : other.parse.1 with otherError | right
    · rw [failed, otherFailed] at answer
      cases answer
    · rw [failed, otherFailed] at answer
      exact .programs (Except.ok.inj answer).symm

/-- Every call of a session on tokens at other places answers the same at other places. -/
theorem later_relocate (move : Position → Position) (tokens : List Token) (calls : Nat) :
    ((ofTokens (tokens.map (Token.relocate move))).later calls).parse.1 =
      relocateResult move (Program.relocate move) ((ofTokens tokens).later calls).parse.1 := by
  by_cases some : tokens = []
  · rw [some, List.map_nil, parse_later_nil]
    rfl
  · obtain ⟨same, range⟩ := (InRange.ofTokens tokens).later calls
    have ends := exists_end_closed tokens
    rw [ofTokens_relocate move some, relocate_later move (.ofTokens tokens) ends,
      relocate_parse move range (same ▸ ends)]

/-- Every call of sessions on tokens that are alike answers alike. -/
theorem later_alike {tokens others : List Token}
    (same : tokens.map Token.content = others.map Token.content) (calls : Nat) :
    Alike (closed tokens) (closed others) ((ofTokens tokens).later calls).parse.1
      ((ofTokens others).later calls).parse.1 := by
  by_cases some : tokens = []
  · have none : others = [] := by simpa [some] using same.symm
    rw [some, none, parse_later_nil]
    exact .programs rfl
  · have otherSome : others ≠ [] := by
      rintro rfl
      exact some (by simpa using same)
    obtain ⟨still, range⟩ := (InRange.ofTokens tokens).later calls
    obtain ⟨otherStill, otherRange⟩ := (InRange.ofTokens others).later calls
    have ends := exists_end_closed tokens
    have otherEnds := exists_end_closed others
    have alike := alike_of_relocate range (still ▸ ends) otherRange (otherStill ▸ otherEnds) (by
      rw [← relocate_later _ (.ofTokens tokens) ends,
        ← relocate_later _ (.ofTokens others) otherEnds, ← ofTokens_relocate _ some,
        ← ofTokens_relocate _ otherSome, map_relocate_of_content _ same])
    rwa [still, otherStill] at alike

end ParseSession

/-- In every call of a session, tokens at other places make the same program or error at other
places, and tokens that are alike make programs or errors that are alike. -/
theorem ParseSession.later_regardless_of_places (calls : Nat) :
    (∀ (move : Position → Position) (tokens : List Token),
      ((ofTokens (tokens.map (Token.relocate move))).later calls).parse.1 =
        relocateResult move (Program.relocate move) ((ofTokens tokens).later calls).parse.1) ∧
    ∀ tokens others : List Token, tokens.map Token.content = others.map Token.content →
      Alike (closed tokens) (closed others) ((ofTokens tokens).later calls).parse.1
        ((ofTokens others).later calls).parse.1 :=
  ⟨fun move tokens => later_relocate move tokens calls, fun _ _ same => later_alike same calls⟩

/-- In two layouts of a text, the second call refuses the comma where it stands. -/
theorem ParseSession.later_regardless_of_places_of_comma :
    let line : List Token := [⟨.identifier, "f", ⟨1, 1⟩⟩, ⟨.symbol, "(", ⟨1, 2⟩⟩,
      ⟨.symbol, ",", ⟨1, 3⟩⟩]
    let column : List Token := [⟨.identifier, "f", ⟨1, 1⟩⟩, ⟨.symbol, "(", ⟨2, 1⟩⟩,
      ⟨.symbol, ",", ⟨3, 1⟩⟩]
    Alike (closed line) (closed column) ((ofTokens line).later 1).parse.1
      ((ofTokens column).later 1).parse.1 :=
  (later_regardless_of_places 1).2 _ _ rfl

end CollectionSchema
