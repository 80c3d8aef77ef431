import CollectionSchema.Proofs.Text.Position
import CollectionSchema.Text.Lines
import Mathlib.Data.List.Induction

/-!
# Lines and places

The place behind the front of a text tells where in the lines of the text the rest
goes on: as many pieces are complete as there are lines above the place, and as many
characters of the next piece are taken as there are columns to the left of it.  A
line shows its piece up to the characters that end it, so every other character of
the text is found in the line and at the column of its place.

The lines of a text can also be told from its line feeds alone: they are what the line
feeds separate, but for a carriage return in front of a line feed (`line_of_segments`).
The two differ in their number only, since behind a last line feed there is an empty
segment but no piece.
-/

set_option autoImplicit false

namespace CollectionSchema.Text

theorem pieces_cons_feed (rest : List Char) : pieces ('\n' :: rest) = ['\n'] :: pieces rest := by
  rw [pieces, if_pos rfl]

/-- A character that is no line feed joins the first piece of what is behind it. -/
theorem pieces_cons {first : Char} {rest piece : List Char} {others : List (List Char)}
    (other : first ≠ '\n') (same : pieces rest = piece :: others) :
    pieces (first :: rest) = (first :: piece) :: others := by
  rw [pieces, if_neg other, same]

theorem exists_pieces_cons {first : Char} (other : first ≠ '\n') (rest : List Char) :
    ∃ more others, pieces (first :: rest) = (first :: more) :: others := by
  rcases same : pieces rest with _ | ⟨piece, others⟩
  · exact ⟨[], [], by rw [pieces, if_neg other, same]⟩
  · exact ⟨piece, others, pieces_cons other same⟩

theorem exists_pieces {rest : List Char} (some : rest ≠ []) :
    ∃ piece others, pieces rest = piece :: others := by
  apply List.exists_cons_of_ne_nil
  intro none
  apply some
  rw [← flatten_pieces rest, none, List.flatten_nil]

/-- In front of a rest there are complete pieces and the start of the next one, as the place of the
rest says. -/
theorem exists_pieces_append (front : List Char) {rest : List Char} (some : rest ≠ []) :
    ∃ above left piece others, pieces rest = piece :: others ∧
      pieces (front ++ rest) = above ++ (left ++ piece) :: others ∧
      Position.behind front = ⟨1 + above.length, 1 + left.length⟩ := by
  induction front using List.reverseRecOn generalizing rest with
  | nil =>
      obtain ⟨piece, others, same⟩ := exists_pieces some
      exact ⟨[], [], piece, others, same, same, rfl⟩
  | append_singleton front last ih =>
      obtain ⟨above, left, first, behind, own, whole, place⟩ := ih (List.cons_ne_nil last rest)
      obtain ⟨piece, others, same⟩ := exists_pieces some
      rw [List.append_assoc, List.singleton_append, whole, Position.behind_concat, place]
      by_cases feed : last = '\n'
      · -- The line feed completes the piece, and the rest starts the next one.
        subst feed
        rw [pieces_cons_feed, same] at own
        cases own
        refine ⟨above ++ [left ++ ['\n']], [], piece, others, same, ?_, ?_⟩
        · rw [List.append_assoc, List.singleton_append, List.nil_append]
        · rw [Position.advance, if_pos rfl, List.length_append]
          rfl
      · rw [pieces_cons feed same] at own
        obtain ⟨rfl, rfl⟩ := List.cons.inj own
        refine ⟨above, left ++ [last], piece, others, same, ?_, ?_⟩
        · rw [List.append_assoc, List.singleton_append]
        · rw [Position.advance, if_neg feed, List.length_append]
          rfl

/-- A line is its piece without the characters that end it. -/
theorem exists_shown (piece : List Char) :
    ∃ ending, piece = shown piece ++ ending ∧ ∀ character ∈ ending,
      character = '\n' ∨ character = '\r' := by
  rw [shown]
  split
  case h_1 rest same =>
    refine ⟨['\r', '\n'], ?_, by simp⟩
    rw [← List.reverse_inj, same]
    simp
  case h_2 rest _ same =>
    refine ⟨['\n'], ?_, by simp⟩
    rw [← List.reverse_inj, same]
    simp
  case h_3 =>
    exact ⟨[], (List.append_nil _).symm, nofun⟩

/-- A character that does not end a line is shown behind everything in front of it. -/
theorem exists_shown_append {left more : List Char} {first : Char} (noFeed : first ≠ '\n')
    (noReturn : first ≠ '\r') : ∃ kept, shown (left ++ first :: more) = left ++ first :: kept := by
  obtain ⟨ending, same, ends⟩ := exists_shown (left ++ first :: more)
  have outside : first ∉ ending := by
    intro member
    rcases ends first member with feed | isReturn
    · exact noFeed feed
    · exact noReturn isReturn
  rcases List.append_eq_append_iff.mp same with ⟨inner, shows, behind⟩ | ⟨inner, _, behind⟩
  · rcases inner with _ | ⟨head, kept⟩
    · rw [List.nil_append] at behind
      exact absurd (behind ▸ List.mem_cons_self) outside
    · obtain ⟨rfl, _⟩ := List.cons.inj behind
      exact ⟨kept, shows⟩
  · rw [behind] at outside
    exact absurd (List.mem_append_right _ List.mem_cons_self) outside

/-- A character that does not end a line is found in the line of its place, and as many characters
are in front of it there as there are columns to the left of the place. -/
theorem exists_line {front behind : List Char} {first : Char} (noFeed : first ≠ '\n')
    (noReturn : first ≠ '\r') :
    ∃ left kept, line (front ++ first :: behind) (Position.behind front).line =
        left ++ first :: kept ∧ left.length = (Position.behind front).column - 1 := by
  obtain ⟨above, left, piece, others, own, whole, place⟩ :=
    exists_pieces_append front (List.cons_ne_nil first behind)
  obtain ⟨more, later, joined⟩ := exists_pieces_cons noFeed behind
  rw [joined] at own
  cases own
  obtain ⟨kept, shows⟩ := @exists_shown_append left more first noFeed noReturn
  refine ⟨left, kept, ?_, ?_⟩
  · rw [line, lines, whole, place, Nat.add_sub_cancel_left, List.map_append, List.map_cons, shows,
      List.getElem?_append_right (Nat.le_of_eq (List.length_map _)), List.length_map, Nat.sub_self]
    rfl
  · rw [place, Nat.add_sub_cancel_left]

/-! ## Lines by line feeds -/

/-- What stands between two line feeds, without a carriage return in front of the second. -/
def withoutReturn (segment : List Char) : List Char :=
  if segment.getLast? = some '\r' then segment.dropLast else segment

/-- What the line feeds of a text separate, by its number counted from one.  A carriage return at
its end is left out if a line feed follows. -/
def segmentLine? (text : List Char) (number : Nat) : Option (List Char) :=
  let segments := text.splitOn '\n'
  segments[number - 1]?.map fun segment =>
    if number < segments.length then withoutReturn segment else segment

/-- The pieces of a text are what its line feeds separate, with the line feeds.  The last segment
has none, and it is no piece when it is empty. -/
theorem exists_segments (text : List Char) :
    ∃ above last, text.splitOn '\n' = above ++ [last] ∧ '\n' ∉ last ∧
      pieces text = above.map (· ++ ['\n']) ++ if last = [] then [] else [last] := by
  induction text with
  | nil => exact ⟨[], [], rfl, List.not_mem_nil, rfl⟩
  | cons first rest ih =>
      obtain ⟨above, last, split, noFeed, same⟩ := ih
      by_cases feed : first = '\n'
      · subst feed
        refine ⟨[] :: above, last, ?_, noFeed, ?_⟩
        · rw [List.splitOn_cons_eq_if_modifyHead, if_pos (beq_self_eq_true _), split]
          rfl
        · rw [pieces_cons_feed, same]
          rfl
      · have joined : (first :: rest).splitOn '\n' = (above ++ [last]).modifyHead (first :: ·) := by
          rw [List.splitOn_cons_eq_if_modifyHead, if_neg (mt eq_of_beq feed), split]
        rcases above with _ | ⟨segment, above⟩
        · refine ⟨[], first :: last, joined, ?_, ?_⟩
          · rw [List.mem_cons, not_or]
            exact ⟨Ne.symm feed, noFeed⟩
          · rw [pieces, if_neg feed, same]
            by_cases none : last = [] <;> simp [none]
        · exact ⟨(first :: segment) :: above, last, joined, noFeed, pieces_cons feed same⟩

/-- A piece shows what is in front of its line feed, without a carriage return. -/
theorem shown_feed (segment : List Char) : shown (segment ++ ['\n']) = withoutReturn segment := by
  rcases List.eq_nil_or_concat segment with rfl | ⟨front, last, rfl⟩
  · rfl
  rw [List.concat_eq_append, shown, withoutReturn, List.reverse_concat, List.reverse_concat,
    List.getLast?_concat, List.dropLast_concat]
  split
  case h_1 rest same =>
    cases same
    rw [if_pos rfl, List.reverse_reverse]
  case h_2 rest noReturn same =>
    cases same
    have other : some last ≠ some '\r' := by
      rintro ⟨⟩
      exact noReturn front.reverse rfl
    rw [if_neg other, List.reverse_cons, List.reverse_reverse]
  case h_3 noFeed => exact absurd rfl (noFeed _)

/-- A piece without a line feed shows all of its characters. -/
theorem shown_of_notMem {piece : List Char} (noFeed : '\n' ∉ piece) : shown piece = piece := by
  rw [shown]
  split
  case h_3 => rfl
  all_goals
    rename_i same
    exact absurd (List.mem_reverse.mp (same ▸ List.mem_cons_self)) noFeed

/-- The lines of a text are what its line feeds separate. -/
theorem line_of_segments {text : List Char} {number : Nat} (positive : 0 < number)
    (inside : number ≤ (text.splitOn '\n').length) :
    segmentLine? text number = some (line text number) := by
  obtain ⟨above, last, split, noFeed, same⟩ := exists_segments text
  obtain ⟨index, rfl⟩ := Nat.exists_eq_succ_of_ne_zero (Nat.pos_iff_ne_zero.mp positive)
  rw [split, List.length_append, List.length_singleton] at inside
  simp only [segmentLine?, line, lines, split, same, List.length_append, List.length_singleton,
    Nat.succ_sub_one, List.map_append, List.map_map]
  rcases Nat.lt_or_ge index above.length with lt | le
  · rw [List.getElem?_append_left lt, List.getElem?_append_left (by rwa [List.length_map]),
      List.getElem?_map, List.getElem?_eq_getElem lt, Option.map_some, if_pos (Nat.succ_lt_succ lt)]
    exact congrArg some (shown_feed _).symm
  · obtain rfl : index = above.length := by omega
    rw [List.getElem?_append_right le,
      List.getElem?_append_right (Nat.le_of_eq (List.length_map _)),
      List.length_map, Nat.sub_self]
    by_cases none : last = []
    · simp [none]
    · simp [none, shown_of_notMem noFeed]

/-- The front of a text has complete segments and the start of the next one, as the place behind it
says. -/
theorem exists_splitOn_append (front : List Char) :
    ∃ above left, Position.behind front = ⟨1 + above.length, 1 + left.length⟩ ∧
      ∀ rest first others, rest.splitOn '\n' = first :: others →
        (front ++ rest).splitOn '\n' = above ++ (left ++ first) :: others := by
  induction front using List.reverseRecOn with
  | nil => exact ⟨[], [], rfl, fun _ _ _ same => same⟩
  | append_singleton front last ih =>
      obtain ⟨above, left, place, joined⟩ := ih
      rw [Position.behind_concat, place]
      by_cases feed : last = '\n'
      · -- The line feed completes the segment, and the rest starts the next one.
        subst feed
        refine ⟨above ++ [left], [], ?_, fun rest first others same => ?_⟩
        · rw [Position.advance, if_pos rfl, List.length_append]
          rfl
        · rw [List.append_assoc, List.singleton_append, joined _ [] (first :: others) (by
            rw [List.splitOn_cons_eq_if_modifyHead, if_pos (beq_self_eq_true _), same]),
            List.append_nil, List.append_assoc]
          rfl
      · refine ⟨above, left ++ [last], ?_, fun rest first others same => ?_⟩
        · rw [Position.advance, if_neg feed, List.length_append]
          rfl
        · rw [List.append_assoc, List.singleton_append, joined _ (last :: first) others (by
            rw [List.splitOn_cons_eq_if_modifyHead, if_neg (mt eq_of_beq feed), same]
            rfl), List.append_assoc]
          rfl

theorem line_behind_le (front rest : List Char) :
    (Position.behind front).line ≤ ((front ++ rest).splitOn '\n').length := by
  obtain ⟨above, left, place, joined⟩ := exists_splitOn_append front
  obtain ⟨first, others, same⟩ := List.exists_cons_of_ne_nil (List.splitOn_ne_nil '\n' rest)
  rw [joined rest first others same, place, List.length_append, List.length_cons,
    Nat.add_comm 1]
  exact Nat.add_le_add_left (Nat.succ_le_succ (Nat.zero_le _)) _

/-- Behind a whole text, all characters of its last line stand to the left. -/
theorem length_last_line (text : List Char) :
    (line text (Position.behind text).line).length = (Position.behind text).column - 1 := by
  obtain ⟨above, left, place, joined⟩ := exists_splitOn_append text
  have split := joined [] [] [] (List.splitOn_nil _)
  rw [List.append_nil, List.append_nil] at split
  have inside := line_behind_le text []
  rw [List.append_nil] at inside
  have shows := line_of_segments (by rw [place]; exact Nat.add_pos_left Nat.one_pos _) inside
  simp only [segmentLine?, split, place, Nat.add_sub_cancel_left, List.getElem?_concat_length,
    List.length_append, List.length_singleton, Option.map_some, Option.some.injEq] at shows ⊢
  rw [← shows, if_neg (by omega)]

end CollectionSchema.Text
