import CollectionSchema.Proofs.Concatenation
import CollectionSchema.Proofs.Files.Directory
import CollectionSchema.Proofs.Relocation
import CollectionSchema.Proofs.Token.Joining

/-!
# Texts one behind the other

A text that makes a program can be put in front of another text, with a line feed
between them.  What the other text makes stays the same, only further down, and the
declarations of the first one come before it.  So the program of a directory is the
program of all its files put one behind the other, except for the lines.
-/

set_option autoImplicit false

namespace CollectionSchema

open Peg (OpensComment declarations)

/-! ## Two texts -/

/-- The tokens of a program do not open a comment. -/
theorem apart_of_parse {front : List Token} {last : Token} {program : Program}
    (parsed : parse (front ++ [last]) = .ok program)
    (proper : ∀ token ∈ front, token.isEnd = false) (ended : last.isEnd = true) :
    (front ++ [last]).IsChain fun first second => ¬ OpensComment first second := by
  obtain ⟨_, run⟩ :=
    ParseSession.run_of_parse parsed (closed_of_ended ended front) proper ended
  have apart := run.apart rfl trivial rfl
  rw [List.take_left' rfl] at apart
  refine apart.chain.append (.singleton last) ?_
  rintro first _ _ ⟨⟩ opens
  have kind : last.kind = .endOfInput := by simpa [Token.isEnd] using ended
  have star := opens.2
  simp [Token.isSymbol, kind] at star

/-- Behind tokens that open no comment and a line feed, a text has the tokens that it has alone,
further down. -/
theorem tokenize_feed {first : String} {front : List Token} {last : Token}
    (made : tokenize first = .ok (front ++ [last]))
    (apart : (front ++ [last]).IsChain fun first second => ¬ OpensComment first second)
    (second : String) :
    let down := Position.down (first.toList.count '\n' + 1)
    tokenize (first ++ "\n" ++ second) =
      (relocateResult down (List.map (Token.relocate down)) (tokenize second)).map
        (front ++ ·) := by
  intro down
  have lexes := lexes_tokenize first
  rw [made] at lexes
  have behind := (lexes_tokenize second).down (first.toList.count '\n' + 1)
  rw [← Position.after_start_feed] at behind
  have joined := lexes.join rfl apart behind
  have text : first.toList ++ '\n' :: second.toList = (first ++ "\n" ++ second).toList := by
    simp
  rw [text, List.dropLast_concat] at joined
  exact tokenize_of_lexes joined

/-- Behind a program and a line feed, a text makes what it makes alone, further down. -/
theorem parseText_feed {first : String} {program : Program}
    (parsed : parseText first = .ok program) (second : String) :
    let down := Position.down (first.toList.count '\n' + 1)
    parseText (first ++ "\n" ++ second) =
      (relocateResult down (Program.relocate down) (parseText second)).map program.append := by
  intro down
  rcases made : tokenize first with _ | tokens
  · rw [parseText, made] at parsed
    cases parsed
  rw [parseText, made] at parsed
  have lexes := lexes_tokenize first
  rw [made] at lexes
  obtain ⟨front, last, rfl, proper, ended⟩ := lexes.exists_ended rfl
  have whole := tokenize_feed made (apart_of_parse parsed proper ended) second
  have others := lexes_tokenize second
  rcases rest : tokenize second with error | tokens
  · rw [rest] at whole
    rw [parseText, parseText, whole, rest]
    rfl
  · rw [rest] at whole others
    obtain ⟨inner, final, rfl, _, isFinal⟩ := others.exists_ended rfl
    have closedOther := closed_of_ended isFinal inner
    have moved := ParseSession.parse_behind parsed (closed_of_ended ended front) proper ended
      (closed_relocate down closedOther)
    rw [parse_relocate down closedOther] at moved
    rw [parseText, parseText, whole, rest]
    exact moved

/-! ## Many texts -/

/-- The program of several texts that stand one behind the other, with a line feed between them.
Each is as far down as the texts in front of it reach. -/
def stacked : List (String × Program) → Program
  | [] => Program.empty
  | (text, program) :: rest =>
      program.append ((stacked rest).relocate (Position.down (text.toList.count '\n' + 1)))

theorem parseText_intercalate {sources : List (String × Program)}
    (parsed : ∀ source ∈ sources, parseText source.1 = .ok source.2) :
    parseText ("\n".intercalate (sources.map Prod.fst)) = .ok (stacked sources) := by
  match sources with
  | [] => rfl
  | [(text, program)] =>
      have alone := parsed (text, program) List.mem_cons_self
      have same : stacked [(text, program)] = program := by
        simp [stacked, Program.append, Program.relocate, Program.empty]
      rw [same, List.map_singleton, String.intercalate_singleton]
      exact alone
  | (text, program) :: next :: rest =>
      have first := parsed (text, program) List.mem_cons_self
      have others := parseText_intercalate fun source member =>
        parsed source (List.mem_cons_of_mem (text, program) member)
      rw [List.map_cons, List.map_cons, String.intercalate_cons_cons, ← List.map_cons,
        parseText_feed first, others]
      rfl

/-! ## Directories -/

namespace Disk

variable {disk : Disk}

/-- Whether a file holds a text that makes a program. -/
def Holds (disk : Disk) (path : String) (source : String × Program) : Prop :=
  disk.read path = .ok source.1 ∧ parseText source.1 = .ok source.2

theorem parseText_of_holds {files : List String} {sources : List (String × Program)}
    (holds : List.Forall₂ disk.Holds files sources) :
    ∀ source ∈ sources, parseText source.1 = .ok source.2 := by
  induction holds with
  | nil => exact nofun
  | cons first _ ih =>
      intro source member
      rcases List.mem_cons.mp member with rfl | member
      · exact first.2
      · exact ih source member

theorem exists_sources {files : List String}
    (parse : ∀ file ∈ files, ∃ program, disk.parseFile file = .ok program) :
    ∃ sources, List.Forall₂ disk.Holds files sources := by
  induction files with
  | nil => exact ⟨[], .nil⟩
  | cons file rest ih =>
      obtain ⟨program, parsed⟩ := parse file List.mem_cons_self
      obtain ⟨text, content, made⟩ := exists_source parsed
      obtain ⟨sources, others⟩ := ih fun other member =>
        parse other (List.mem_cons_of_mem file member)
      exact ⟨(text, program) :: sources, .cons ⟨content, made⟩ others⟩

theorem parsed_of_sources {files : List String} {sources : List (String × Program)}
    (holds : List.Forall₂ disk.Holds files sources) :
    disk.Parsed files (sources.map Prod.snd) := by
  refine List.forall₂_map_right_iff.mpr (holds.imp fun file source holds => ?_)
  rw [parseFile, holds.1]
  simp only [holds.2]
  rfl

theorem parseFiles_of_sources {files : List String} {sources : List (String × Program)}
    (holds : List.Forall₂ disk.Holds files sources) (before : Program) :
    disk.parseFiles files before =
      .ok ⟨before.declarations ++ sources.flatMap fun source => source.2.declarations⟩ := by
  have whole := parseFiles_append (parsed_of_sources holds) [] before
  rw [List.append_nil, List.flatMap_map] at whole
  exact whole

end Disk

/-- A text behind a program and a line feed makes what it makes alone, only further down, with the
program in front of it.  And a directory whose schema files all parse makes the program of the texts
of these files, put one behind the other in the order of their names, up to how far down each is. -/
theorem parseText_joined :
    (∀ (first second : String) (program : Program), parseText first = .ok program →
      let down := Position.down (first.toList.count '\n' + 1)
      parseText (first ++ "\n" ++ second) =
        match parseText second with
        | .ok other => .ok (program.append (other.relocate down))
        | .error error => .error (error.relocate down)) ∧
    ∀ (disk : Disk) (directory : String) (entries : List Entry),
      disk.list directory = .ok entries →
      (∀ entry ∈ entries, entry.isSource = true →
        ∃ program, disk.parseFile (entryPath directory entry.name) = .ok program) →
      ∃ (listed : List Entry) (sources : List (String × Program)),
        listed.Perm (entries.filter Entry.isSource) ∧
        listed.Pairwise (fun first second => first.name ≤ second.name) ∧
        List.Forall₂ (fun entry source => disk.Holds (entryPath directory entry.name) source)
          listed sources ∧
        disk.parseDirectory directory =
          .ok ⟨sources.flatMap fun source => source.2.declarations⟩ ∧
        parseText ("\n".intercalate (sources.map Prod.fst)) = .ok (stacked sources) := by
  refine ⟨fun first second program parsed => ?_, fun disk directory entries found parse => ?_⟩
  · have joined := parseText_feed parsed second
    simp only at joined ⊢
    rw [joined]
    cases parseText second <;> rfl
  · have listed := sourceEntries_perm entries
    have all : ∀ file ∈ (sourceEntries entries).map fun entry => entryPath directory entry.name,
        ∃ program, disk.parseFile file = .ok program := by
      intro file member
      obtain ⟨entry, inside, rfl⟩ := List.mem_map.mp member
      obtain ⟨there, isSource⟩ := List.mem_filter.mp (listed.mem_iff.mp inside)
      exact parse entry there isSource
    obtain ⟨sources, holds⟩ := Disk.exists_sources all
    refine ⟨_, sources, listed, sourceEntries_sorted entries, ?_, ?_, ?_⟩
    · exact List.forall₂_map_left_iff.mp holds
    · rw [Disk.parseDirectory, Disk.sourceFiles, found]
      exact Disk.parseFiles_of_sources holds Program.empty
    · exact parseText_intercalate fun source member =>
        Disk.parseText_of_holds holds source member

/-- A semicolon on the line behind a collection is refused there, and two files with a collection in
each make a directory. -/
theorem parseText_joined_of_two_files :
    let disk : Disk := ⟨fun path =>
      if path = "d" then .directory [⟨"b.polylang", false⟩, ⟨"a.polylang", false⟩]
      else if path = "d/a.polylang" then .file "collection A \x7b\x7d".toUTF8
      else .file "collection B \x7b\x7d".toUTF8⟩
    parseText ("collection A \x7b\x7d" ++ "\n" ++ ";") =
      .error ⟨.grammar, "expected collection or function declaration, found ';'", ⟨2, 1⟩,
        some "program", none⟩ ∧
    ∃ (listed : List Entry) (sources : List (String × Program)),
      listed.Perm [⟨"b.polylang", false⟩, ⟨"a.polylang", false⟩] ∧
      listed.Pairwise (fun first second => first.name ≤ second.name) ∧
      List.Forall₂ (fun entry source => disk.Holds (entryPath "d" entry.name) source)
        listed sources ∧
      disk.parseDirectory "d" = .ok ⟨sources.flatMap fun source => source.2.declarations⟩ ∧
      parseText ("\n".intercalate (sources.map Prod.fst)) = .ok (stacked sources) := by
  intro disk
  have first : tokenize "collection A \x7b\x7d" = .ok [⟨.identifier, "collection", ⟨1, 1⟩⟩,
      ⟨.identifier, "A", ⟨1, 12⟩⟩, ⟨.symbol, "\x7b", ⟨1, 14⟩⟩, ⟨.symbol, "\x7d", ⟨1, 15⟩⟩,
      Token.endAt ⟨1, 16⟩] := by
    decide +kernel
  have second : tokenize "collection B \x7b\x7d" = .ok [⟨.identifier, "collection", ⟨1, 1⟩⟩,
      ⟨.identifier, "B", ⟨1, 12⟩⟩, ⟨.symbol, "\x7b", ⟨1, 14⟩⟩, ⟨.symbol, "\x7d", ⟨1, 15⟩⟩,
      Token.endAt ⟨1, 16⟩] := by
    decide +kernel
  have semicolon : tokenize ";" = .ok [⟨.symbol, ";", ⟨1, 1⟩⟩, Token.endAt ⟨1, 2⟩] := by
    decide +kernel
  have parsed : parseText "collection A \x7b\x7d" = .ok ⟨[.collection ⟨⟨1, 1⟩, [], "A", []⟩]⟩ := by
    rw [parseText, first]
    rfl
  constructor
  · rw [parseText_joined.1 "collection A \x7b\x7d" ";" _ parsed, parseText, semicolon]
    rfl
  · refine parseText_joined.2 disk "d" _ rfl fun entry member _ => ?_
    simp only [List.mem_cons, List.not_mem_nil, or_false] at member
    rcases member with rfl | rfl
    · have content : disk.read (entryPath "d" "b.polylang") = .ok "collection B \x7b\x7d" := by
        decide +kernel
      refine ⟨⟨[.collection ⟨⟨1, 1⟩, [], "B", []⟩]⟩, ?_⟩
      simp only [Disk.parseFile, content, parseText, second]
      rfl
    · have content : disk.read (entryPath "d" "a.polylang") = .ok "collection A \x7b\x7d" := by
        decide +kernel
      refine ⟨⟨[.collection ⟨⟨1, 1⟩, [], "A", []⟩]⟩, ?_⟩
      simp only [Disk.parseFile, content, parsed]
      rfl

end CollectionSchema
