import CollectionSchema.Proofs.Text.Position
import CollectionSchema.Proofs.Token.Lexing

/-!
# Streams and their copies

A text has a script: the items that are handed out for it, each with the piece of the
text that is passed for it.  All that a stream has to remember is how often it was
asked since it was started.  So several streams over one text, which are asked,
restarted, located and copied in any order, answer as counters into the script do
(`TokenStream.answers_follow_script`).
-/

set_option autoImplicit false

namespace CollectionSchema

namespace TokenStream

/-! ## Scripts -/

/-- How handing out an item gets on in a text, by what is in front, what is passed and what follows.
A token is passed with the text in front of it, the end of the input passes all that is left, and a
character that starts nothing is not passed. -/
inductive Hands : List Char → List Char → List Char → StreamItem → Prop
  | token {before gap lexeme following : List Char} {kind : TokenKind} (some : lexeme ≠ [])
      (proper : kind ≠ .endOfInput) :
      Hands before (gap ++ lexeme) following
        (.ok ⟨kind, String.ofList lexeme, Position.behind (before ++ gap)⟩)
  | ended {before gap : List Char} :
      Hands before gap [] (.ok (Token.endAt (Position.behind (before ++ gap))))
  | wrong {before gap following : List Char} {character : Char} :
      Hands before gap (character :: following)
        (.error (.unexpectedCharacter character (Position.behind (before ++ gap))))

/-- The items of a text with the pieces that are passed for them, given the text in front of it: any
number of tokens, and one last item, which is the end of the input or an error. -/
inductive Script : List Char → List Char → List (StreamItem × List Char) → Prop
  | last {before piece following : List Char} {item : StreamItem}
      (hands : Hands before piece following item) (ends : isLast item = true) :
      Script before (piece ++ following) [(item, piece)]
  | more {before piece following : List Char} {item : StreamItem}
      {others : List (StreamItem × List Char)} (hands : Hands before piece following item)
      (goes : isLast item = false) (behind : Script (before ++ piece) following others) :
      Script before (piece ++ following) ((item, piece) :: others)

theorem Hands.skip {before piece passed following : List Char} {item : StreamItem}
    (hands : Hands (before ++ piece) passed following item) :
    Hands before (piece ++ passed) following item := by
  cases hands with
  | token some proper =>
      rw [List.append_assoc before, ← List.append_assoc piece]
      exact .token some proper
  | ended =>
      rw [List.append_assoc before]
      exact .ended
  | wrong =>
      rw [List.append_assoc before]
      exact .wrong

theorem Hands.piece_ne_nil {before piece following : List Char} {item : StreamItem}
    (hands : Hands before piece following item) (goes : isLast item = false) : piece ≠ [] := by
  cases hands with
  | token some _ => exact List.append_ne_nil_of_right_ne_nil _ some
  | ended => cases goes
  | wrong => cases goes

/-- The next item of a stream that stands behind some text. -/
theorem exists_hands (source : List Char) {text : List Char} {place : Position}
    {result : Except SyntaxError (List Token)} (lexes : Lexes text place result) :
    ∀ {before : List Char}, place = Position.behind before →
      ∃ item piece following, piece ++ following = text ∧ Hands before piece following item ∧
        next ⟨source, text, place, false⟩ =
          some (item, ⟨source, following, Position.behind (before ++ piece), isLast item⟩) := by
  induction lexes with
  | done =>
      rintro before rfl
      refine ⟨_, [], [], rfl, .ended, ?_⟩
      rw [next_of_done, List.append_nil]
      rfl
  | @wrong character rest _ missed =>
      rintro before rfl
      refine ⟨_, [], character :: rest, rfl, .wrong, ?_⟩
      rw [next_of_wrong missed, List.append_nil]
      rfl
  | @skip _ cut _ _ found _ ih =>
      rintro before rfl
      have divides := (Pattern.firstMatch_divides found).1
      obtain ⟨item, piece, following, whole, hands, step⟩ :=
        ih (Position.behind_append before cut.taken).symm
      refine ⟨item, cut.taken ++ piece, following, ?_, hands.skip, ?_⟩
      · rw [List.append_assoc, whole, divides.whole]
      · rw [next_of_skip found, step, List.append_assoc]
  | @token _ kind cut _ _ found _ _ =>
      rintro before rfl
      obtain ⟨divides, proper⟩ := Pattern.firstMatch_divides found
      have kindProper : kind ≠ .endOfInput := by
        intro same
        exact proper (by rw [same])
      have goes : isLast (.ok ⟨kind, String.ofList cut.taken, Position.behind before⟩) = false := by
        simp [isLast, Token.isEnd, kindProper]
      have hands := @Hands.token before [] cut.taken cut.left kind divides.taken kindProper
      rw [List.nil_append, List.append_nil] at hands
      refine ⟨_, cut.taken, cut.left, divides.whole, hands, ?_⟩
      rw [next_of_token found, goes, Position.behind_append]

/-- There is at most one item for each character, and one more. -/
theorem Script.length_le {before text : List Char} {script : List (StreamItem × List Char)}
    (plays : Script before text script) : script.length ≤ text.length + 1 := by
  induction plays with
  | last hands ends => simp
  | more hands goes _ ih =>
      have some := List.length_pos_iff.mpr (hands.piece_ne_nil goes)
      rw [List.length_cons, List.length_append]
      omega

/-! ## A stream follows the script -/

/-- The stream behind the next item; behind the last one it stays as it is. -/
def behindNext (stream : TokenStream) : TokenStream := (stream.next.map Prod.snd).getD stream

/-- A stream that was asked for an item a number of times. -/
def asked (stream : TokenStream) : Nat → TokenStream
  | 0 => stream
  | count + 1 => (stream.asked count).behindNext

theorem asked_succ (stream : TokenStream) (count : Nat) :
    stream.asked (count + 1) = stream.behindNext.asked count := by
  induction count with
  | zero => rfl
  | succ count ih => rw [asked, ih, asked]

theorem asked_of_finished {source text : List Char} {place : Position} (count : Nat) :
    asked ⟨source, text, place, true⟩ count = ⟨source, text, place, true⟩ := by
  induction count with
  | zero => rfl
  | succ count ih =>
      rw [asked, ih]
      rfl

/-- However often a stream is asked, it stays on its text. -/
theorem source_asked (stream : TokenStream) (count : Nat) :
    (stream.asked count).source = stream.source := by
  induction count with
  | zero => rfl
  | succ count ih =>
      rw [asked, behindNext, next]
      split
      · exact ih
      · exact ih

/-- A stream and a script agree when, however often the stream is asked, its next item is that of
the script, and its place is behind the pieces that the script has passed. -/
def Agrees (before : List Char) (stream : TokenStream) (script : List (StreamItem × List Char)) :
    Prop :=
  ∀ count, (stream.asked count).next.map Prod.fst = script[count]?.map Prod.fst ∧
    (stream.asked count).position = Position.behind (before ++ (script.take count).flatMap Prod.snd)

/-- A text that is not passed yet has a script, and a stream in front of it agrees with the
script. -/
theorem exists_script (source : List Char) (text : List Char) (before : List Char) :
    ∃ script, Script before text script ∧
      Agrees before ⟨source, text, Position.behind before, false⟩ script := by
  induction size : text.length using Nat.strongRecOn generalizing text before with
  | ind size shorter =>
      subst size
      obtain ⟨_, lexes⟩ := exists_lexes text (Position.behind before)
      obtain ⟨item, piece, following, rfl, hands, step⟩ := exists_hands source lexes rfl
      have behind : behindNext ⟨source, piece ++ following, Position.behind before, false⟩ =
          ⟨source, following, Position.behind (before ++ piece), isLast item⟩ := by
        rw [behindNext, step]
        rfl
      cases ends : isLast item with
      | true =>
          refine ⟨_, .last hands ends, ?_⟩
          intro count
          cases count with
          | zero => exact ⟨congrArg (Option.map Prod.fst) step, by simp [asked]⟩
          | succ count =>
              rw [asked_succ, behind, ends, asked_of_finished]
              exact ⟨rfl, by simp⟩
      | false =>
          have some := List.length_pos_iff.mpr (hands.piece_ne_nil ends)
          obtain ⟨others, plays, agrees⟩ := shorter following.length
            (by rw [List.length_append]; omega) following (before ++ piece) rfl
          refine ⟨_, .more hands ends plays, ?_⟩
          intro count
          cases count with
          | zero => exact ⟨congrArg (Option.map Prod.fst) step, by simp [asked]⟩
          | succ count =>
              obtain ⟨items, place⟩ := agrees count
              rw [asked_succ, behind, ends]
              refine ⟨items, ?_⟩
              rw [place, List.append_assoc]
              rfl

end TokenStream

/-! ## Requests to several streams -/

/-- What a stream can be asked to do. -/
inductive StreamRequest where
  | next
  | restart
  | location
  | clone

/-- What is told when a request is carried out. -/
inductive StreamAnswer where
  | item (found : Option StreamItem)
  | place (position : Position)
  | nothing

/-- Whatever can be asked for items one by one, started again and located. -/
structure ItemSource (State : Type) where
  next : State → Option StreamItem × State
  restart : State → State
  location : State → Position

namespace ItemSource

variable {State Other : Type}

/-- Carries out a request to one of several states, by its number: what is told, and the states
afterwards.  A copy becomes the last of the states.  Nothing is done for a number without a
state. -/
def perform (source : ItemSource State) (request : StreamRequest × Nat) (states : List State) :
    StreamAnswer × List State :=
  match states[request.2]? with
  | none => (.nothing, states)
  | some state =>
    match request.1 with
    | .next => (.item (source.next state).1, states.set request.2 (source.next state).2)
    | .restart => (.nothing, states.set request.2 (source.restart state))
    | .location => (.place (source.location state), states)
    | .clone => (.nothing, states ++ [state])

/-- What is told when requests are carried out one after the other. -/
def answers (source : ItemSource State) :
    List (StreamRequest × Nat) → List State → List StreamAnswer
  | [], _ => []
  | first :: others, states =>
    (source.perform first states).1 :: source.answers others (source.perform first states).2

/-- That one source shows the states of another: the shown states hand out the same items, have the
same places, and are shown again afterwards. -/
structure Shows (source : ItemSource State) (other : ItemSource Other) (view : Other → State) :
    Prop where
  next : ∀ state, source.next (view state) = Prod.map id view (other.next state)
  restart : ∀ state, source.restart (view state) = view (other.restart state)
  location : ∀ state, source.location (view state) = other.location state

namespace Shows

variable {source : ItemSource State} {other : ItemSource Other} {view : Other → State}

theorem perform (shows_ : source.Shows other view) (request : StreamRequest × Nat)
    (states : List Other) :
    source.perform request (states.map view) =
      Prod.map id (List.map view) (other.perform request states) := by
  obtain ⟨wanted, number⟩ := request
  simp only [ItemSource.perform, List.getElem?_map]
  cases states[number]? with
  | none => rfl
  | some state =>
      simp only [Option.map_some]
      cases wanted with
      | next => simp only [shows_.next, Prod.map, List.map_set, id_eq]
      | restart => simp only [shows_.restart, Prod.map, List.map_set, id_eq]
      | location => simp only [shows_.location, Prod.map, id_eq]
      | clone => simp only [Prod.map, List.map_append, List.map_singleton, id_eq]

/-- The shown states tell the same when they are asked the same. -/
theorem answers (shows_ : source.Shows other view) (requests : List (StreamRequest × Nat)) :
    ∀ states, source.answers requests (states.map view) = other.answers requests states := by
  induction requests with
  | nil => exact fun _ => rfl
  | cons first others ih =>
      intro states
      rw [ItemSource.answers, ItemSource.answers, shows_.perform, Prod.map, ih]
      rfl

end Shows

end ItemSource

namespace TokenStream

/-- Streams as a source of items. -/
def streams : ItemSource TokenStream where
  next stream := (stream.next.map Prod.fst, stream.behindNext)
  restart := restart
  location := position

/-- Counters as a source of items: a counter says how many items of a script were asked for since
the start, and its place is behind the pieces that were passed for them. -/
def counters (script : List (StreamItem × List Char)) : ItemSource Nat where
  next count := (script[count]?.map Prod.fst, count + 1)
  restart _ := 0
  location count := Position.behind ((script.take count).flatMap Prod.snd)

/-- A stream that agrees with a script shows the counters into the script. -/
theorem Agrees.shows {source : List Char} {script : List (StreamItem × List Char)}
    (agrees : Agrees [] (ofText source) script) :
    streams.Shows (counters script) (ofText source).asked where
  next count := by
    show ((asked _ count).next.map Prod.fst, _) = _
    rw [(agrees count).1]
    rfl
  restart count := by
    show ofText ((ofText source).asked count).source = _
    rw [source_asked]
    rfl
  location count := (agrees count).2

/-! ## The tokens of a text -/

/-- The items of a stream are those of its script. -/
theorem Agrees.items {script : List (StreamItem × List Char)} :
    ∀ {before : List Char} {stream : TokenStream} {bound : Nat}, Agrees before stream script →
      script.length ≤ bound → stream.takeItems bound = script.map Prod.fst := by
  induction script with
  | nil =>
      intro before stream bound agrees _
      have none : stream.next = none := by simpa [asked] using (agrees 0).1
      cases bound with
      | zero => rfl
      | succ bound => rw [takeItems, none]; rfl
  | cons entry others ih =>
      intro before stream bound agrees enough
      cases bound with
      | zero => cases enough
      | succ bound =>
          obtain ⟨⟨item, later⟩, step, same⟩ :
              ∃ found, stream.next = some found ∧ found.1 = entry.1 := by
            simpa [asked] using (agrees 0).1
          have behind : stream.behindNext = later := by
            rw [behindNext, step]
            rfl
          have onward : Agrees (before ++ entry.2) later others := by
            intro count
            have next := agrees (count + 1)
            rw [asked_succ, behind] at next
            rw [List.append_assoc]
            exact next
          rw [takeItems_of_next step, List.map_cons, ← same]
          exact congrArg (item :: ·) (ih onward (Nat.le_of_succ_le_succ enough))

theorem mapM_map_ok (tokens : List Token) :
    (tokens.map Except.ok).mapM id = (.ok tokens : Except SyntaxError (List Token)) := by
  induction tokens with
  | nil => rfl
  | cons token rest ih =>
      rw [List.map_cons, List.mapM_cons, ih]
      rfl

/-- The items of a script make an error exactly when it is one of them. -/
theorem Script.mapM_eq_error_iff {before text : List Char}
    {script : List (StreamItem × List Char)} (plays : Script before text script)
    (error : SyntaxError) :
    (script.map Prod.fst).mapM id = .error error ↔ .error error ∈ script.map Prod.fst := by
  induction plays with
  | @last _ _ _ item _ _ =>
      rw [List.map_singleton, List.mem_singleton]
      cases item with
      | error found =>
          show (Except.error found : Except SyntaxError (List Token)) = .error error ↔
            (.error error : StreamItem) = .error found
          rw [Except.error.injEq, Except.error.injEq]
          exact eq_comm
      | ok token => exact ⟨nofun, nofun⟩
  | @more _ _ _ item others _ goes _ ih =>
      cases item with
      | error found => cases goes
      | ok token =>
          rw [List.map_cons, List.mem_cons, ← ih, List.mapM_cons]
          cases (others.map Prod.fst).mapM id with
          | error found => exact ⟨.inr, fun either => either.resolve_left nofun⟩
          | ok tokens => exact ⟨nofun, fun either => either.elim nofun nofun⟩

end TokenStream

/-- Every text has a script.  Streams over the text that are asked, started again, located and
copied in any order answer as counters into the script do, and the tokens of the text are those of
the script, unless there is an error in it. -/
theorem TokenStream.answers_follow_script (source : String) :
    ∃ script, Script [] source.toList script ∧ script.length ≤ source.toList.length + 1 ∧
      (∀ requests, streams.answers requests [ofText source.toList] =
        (counters script).answers requests [0]) ∧
      (∀ tokens, tokenize source = .ok tokens ↔ script.map Prod.fst = tokens.map .ok) ∧
      ∀ error, tokenize source = .error error ↔ .error error ∈ script.map Prod.fst := by
  obtain ⟨script, plays, agrees⟩ := exists_script source.toList source.toList []
  have items : (ofText source.toList).items = script.map Prod.fst := agrees.items plays.length_le
  have made : tokenize source = (script.map Prod.fst).mapM id := congrArg (List.mapM id) items
  refine ⟨script, plays, plays.length_le, ?_, ?_, ?_⟩
  · intro requests
    exact agrees.shows.answers requests [0]
  · intro tokens
    rw [made]
    refine ⟨eq_of_mapM, ?_⟩
    intro same
    rw [same, mapM_map_ok]
  · intro error
    rw [made]
    exact plays.mapM_eq_error_iff error

end CollectionSchema
