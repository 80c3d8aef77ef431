import CollectionSchema.CommandLine.Run
import CollectionSchema.Proofs.Files.Directory

/-!
# What a run says when parsing fails

The exit code tells whether the path was parsed, and when it was not nothing is
shown.  A syntax error is shown against the file it was found in.  The report reads
that file a second time, by the path that the error carries, so the point is that
this path is the one under which the tokens were read: the path of the run, or the
path of the first schema file of the directory that fails (`Disk.Culprit`).
-/

set_option autoImplicit false

namespace CollectionSchema

/-! ## The file that fails -/

namespace Disk

variable {disk : Disk}

/-- The file that makes a path fail: the file at the path, or the schema file of the directory at
the path in front of which, in the order of the names, every schema file parses. -/
inductive Culprit (disk : Disk) (path : String) : String → Prop
  | file {content : ByteArray} (found : disk.find path = .file content) : Culprit disk path path
  | inside {entries : List Entry} {failed : Entry} (found : disk.find path = .directory entries)
      (member : failed ∈ entries) (isSchemaFile : failed.IsSchemaFile)
      (earlier : ∀ entry ∈ entries, entry.IsSchemaFile →
        Text.bytes entry.name < Text.bytes failed.name →
          ∃ program, disk.parseFile (entryPath path entry.name) = .ok program) :
      Culprit disk path (entryPath path failed.name)

/-- A syntax error of a file names the file and is the error of its text. -/
theorem syntaxError?_of_parseFile {path : String} {error : SchemaError} {found : SyntaxError}
    (fails : disk.parseFile path = .error error) (root : error.syntaxError? = some found) :
    error.file? = some path ∧ ∃ source, disk.read path = .ok source ∧
      parseText source = .error found := by
  rcases parseFile_eq_error_iff.mp fails with
    ⟨problem, _, rfl⟩ | ⟨source, same, content, result, rfl⟩
  · cases root
  · cases root
    exact ⟨rfl, source, content, result⟩

/-- Everything with a smaller name stands in front. -/
theorem mem_before_of_sourceEntries {entries before after : List Entry} {failed entry : Entry}
    (split : sourceEntries entries = before ++ failed :: after) (member : entry ∈ entries)
    (isSchemaFile : entry.IsSchemaFile) (less : Text.bytes entry.name < Text.bytes failed.name) :
    entry ∈ before := by
  have inside : entry ∈ before ++ failed :: after := by
    rw [← split, (sourceEntries_perm entries).mem_iff, List.mem_filter, Entry.isSource_iff]
    exact ⟨member, isSchemaFile⟩
  have sorted := sourceEntries_sorted entries
  rw [split, List.pairwise_append, List.pairwise_cons] at sorted
  rw [Text.bytes_lt_iff] at less
  rcases List.mem_append.mp inside with front | here
  · exact front
  · rcases List.mem_cons.mp here with rfl | behind
    · exact absurd less (String.lt_irrefl _)
    · exact absurd less (String.not_lt.mpr (sorted.2.1.1 entry behind))

/-- A directory fails with the error of a file in it, and with the path of that file. -/
theorem exists_culprit_of_directory {path : String} {entries : List Entry} {error : SchemaError}
    (found : disk.find path = .directory entries)
    (fails : disk.parseDirectory path = .error error) :
    ∃ file inner program, disk.Culprit path file ∧ disk.parseFile file = .error inner ∧
      error = .directory file inner program := by
  have listed : disk.list path = .ok entries := by
    rw [list, found]
  rw [parseDirectory_of_list listed] at fails
  have reading := disk.parseFiles_reading
    ((sourceEntries entries).map fun entry => entryPath path entry.name)
  rw [fails] at reading
  generalize paths : (sourceEntries entries).map (fun entry => entryPath path entry.name) = files
    at reading
  cases reading with
  | @stopped before after programs failed inner parsed stops =>
    obtain ⟨front, rest, split, rfl, behind⟩ := List.map_eq_append_iff.mp paths
    obtain ⟨entry, later, rfl, rfl, rfl⟩ := List.map_eq_cons_iff.mp behind
    have inside : entry ∈ entries.filter Entry.isSource := by
      rw [← (sourceEntries_perm entries).mem_iff, split]
      simp
    rw [List.mem_filter, Entry.isSource_iff] at inside
    refine ⟨_, inner, _, .inside found inside.1 inside.2 ?_, stops, rfl⟩
    intro earlier member isSchemaFile less
    have passed := mem_before_of_sourceEntries split member isSchemaFile less
    exact parsed.exists_program _ (List.mem_map_of_mem passed)

/-- A syntax error at the root of a failure is the error of the text of the file that fails, and the
failure names this file. -/
theorem exists_culprit {path : String} {error : SchemaError} {found : SyntaxError}
    (fails : disk.parsePath path = .error error) (root : error.syntaxError? = some found) :
    ∃ file source, disk.Culprit path file ∧ error.file? = some file ∧
      disk.read file = .ok source ∧ parseText source = .error found := by
  rw [parsePath] at fails
  split at fails
  case h_1 problem missing =>
    cases fails
    cases root
  case h_2 entries there =>
    obtain ⟨file, inner, program, culprit, stops, rfl⟩ := exists_culprit_of_directory there fails
    obtain ⟨named, source, content, result⟩ := syntaxError?_of_parseFile stops root
    refine ⟨file, source, culprit, ?_, content, result⟩
    rw [SchemaError.file?, named]
    rfl
  case h_3 content there =>
    obtain ⟨named, source, content, result⟩ := syntaxError?_of_parseFile fails root
    exact ⟨path, source, .file there, named, content, result⟩

/-- At most one file makes a path fail. -/
theorem Culprit.unique {path file other : String} {error problem : SchemaError}
    (culprit : disk.Culprit path file) (again : disk.Culprit path other)
    (fails : disk.parseFile file = .error error)
    (alsoFails : disk.parseFile other = .error problem) : file = other := by
  cases culprit with
  | file found =>
      cases again with
      | file _ => rfl
      | inside there _ _ _ =>
          rw [found] at there
          cases there
  | @inside entries first found member isSchemaFile earlier =>
      cases again with
      | file there =>
          rw [found] at there
          cases there
      | @inside _ second there member' isSchemaFile' earlier' =>
          rw [found] at there
          cases there
          -- The one with the smaller name would have been passed on the way to the other one.
          have notLess : ¬ Text.bytes first.name < Text.bytes second.name := by
            intro less
            obtain ⟨program, parsed⟩ := earlier' first member isSchemaFile less
            rw [fails] at parsed
            cases parsed
          have notMore : ¬ Text.bytes second.name < Text.bytes first.name := by
            intro more
            obtain ⟨program, parsed⟩ := earlier second member' isSchemaFile' more
            rw [alsoFails] at parsed
            cases parsed
          rw [Text.bytes_lt_iff, String.not_lt] at notLess notMore
          rw [String.le_antisymm notMore notLess]

/-- When the text of the file that makes a path fail has a syntax error, this error is at the root
of the failure, and the failure names this file. -/
theorem root_of_culprit {path file source : String} {error : SchemaError} {found : SyntaxError}
    (culprit : disk.Culprit path file) (content : disk.read file = .ok source)
    (result : parseText source = .error found) (fails : disk.parsePath path = .error error) :
    error.syntaxError? = some found ∧ error.file? = some file := by
  have stops : disk.parseFile file = .error (.source (some file) found) :=
    parseFile_eq_error_iff.mpr (.inr ⟨source, found, content, result, rfl⟩)
  have whole := culprit
  cases whole with
  | file there =>
      rw [parsePath, there] at fails
      cases stops.symm.trans fails
      exact ⟨rfl, rfl⟩
  | inside there _ _ _ =>
      rw [parsePath, there] at fails
      obtain ⟨other, inner, program, again, alsoStops, rfl⟩ :=
        exists_culprit_of_directory there fails
      obtain rfl := culprit.unique again stops alsoStops
      cases stops.symm.trans alsoStops
      exact ⟨rfl, rfl⟩

end Disk

/-- A filter without directives lets nothing through. -/
theorem LogFilter.lines_silent (events : List LogEvent) : LogFilter.lines ⟨[]⟩ events = "" := by
  have nothing : (⟨[]⟩ : LogFilter).allows = fun _ => false := rfl
  rw [LogFilter.lines, nothing, List.filter_false]
  rfl

namespace CommandLine

/-! ## Asking for something -/

/-- The name of a format. -/
def OutputFormat.name : OutputFormat → String
  | .debug => "debug"
  | .json => "json"
  | .summary => "summary"

/-- Arguments that ask for something, with the path behind two dashes, where it may be any text. -/
def Arguments.toList (arguments : Arguments) : List String :=
  ["--format", arguments.format.name] ++ (if arguments.pretty then ["--pretty"] else []) ++
    ["--", arguments.path]

/-- Every path but the empty one can be asked for, in every format, with and without the switch. -/
theorem Arguments.ofList_toList (arguments : Arguments) (named : arguments.path ≠ "") :
    Arguments.ofList arguments.toList = .ok arguments := by
  obtain ⟨path, format, pretty⟩ := arguments
  have added : ∀ progress : Progress, progress.path = none →
      progress.addPath path = .ok { progress with path := some path } := by
    intro progress none
    rw [Progress.addPath, none]
    simpa using named
  cases format <;> cases pretty <;>
    simp [Arguments.toList, Arguments.ofList, readArguments, readSingle, Progress.start,
      Progress.addFormat, Progress.addPretty, OutputFormat.name, OutputFormat.ofName?, added,
      Progress.finish]

/-! ## The report -/

variable {disk : Disk} {filter : LogFilter}

/-- A syntax error is shown against the text of the file that the failure names. -/
theorem report_of_syntaxError {error : SchemaError} {found : SyntaxError} {file source : String}
    (root : error.syntaxError? = some found) (named : error.file? = some file)
    (content : disk.read file = .ok source) :
    report disk filter error = Diagnostic.render file source found := by
  simp only [report, root, named, content]

theorem runWith_of_ok {arguments : Arguments} {program : Program}
    (parsed : disk.parsePath arguments.path = .ok program) :
    (runWith disk filter arguments).code = 0 := by
  rw [runWith, parsed]

theorem runWith_of_error {arguments : Arguments} {error : SchemaError}
    (fails : disk.parsePath arguments.path = .error error) :
    runWith disk filter arguments =
      ⟨1, "", filter.lines (disk.logPath arguments.path) ++ report disk filter error⟩ := by
  rw [runWith, fails]

/-- A run whose arguments fit ends with the exit code 0 exactly when its path is parsed.  Otherwise
it ends with 1 and shows nothing.  A syntax error is at the root of the failure just when it is the
error of the text of the file that makes the path fail.  What is said besides the log is then the
diagnostic of this error against that text. -/
theorem run_of_accepted {arguments : List String} {known : Arguments}
    (accepted : Arguments.ofList arguments = .ok known) :
    ((run disk filter arguments).code = 0 ↔
      ∃ program, disk.parsePath known.path = .ok program) ∧
    ∀ error, disk.parsePath known.path = .error error →
      (run disk filter arguments).code = 1 ∧ (run disk filter arguments).output = "" ∧
      (∀ found, error.syntaxError? = some found ↔
        ∃ file source, disk.Culprit known.path file ∧ disk.read file = .ok source ∧
          parseText source = .error found) ∧
      ∀ file source found, disk.Culprit known.path file → disk.read file = .ok source →
        parseText source = .error found →
        (run disk filter arguments).errors =
          filter.lines (disk.logPath known.path) ++ Diagnostic.render file source found := by
  have started : run disk filter arguments = runWith disk filter known := by
    rw [run, accepted]
  rw [started]
  refine ⟨⟨?_, fun ⟨program, parsed⟩ => runWith_of_ok parsed⟩, ?_⟩
  · intro succeeds
    rcases result : disk.parsePath known.path with error | program
    · rw [runWith_of_error result] at succeeds
      cases succeeds
    · exact ⟨program, rfl⟩
  · intro error fails
    rw [runWith_of_error fails]
    refine ⟨rfl, rfl, fun found => ⟨?_, ?_⟩, ?_⟩
    · intro root
      obtain ⟨file, source, culprit, _, content, result⟩ := Disk.exists_culprit fails root
      exact ⟨file, source, culprit, content, result⟩
    · rintro ⟨file, source, culprit, content, result⟩
      exact (Disk.root_of_culprit culprit content result fails).1
    · intro file source found culprit content result
      obtain ⟨root, named⟩ := Disk.root_of_culprit culprit content result fails
      rw [report_of_syntaxError root named content]

/-- A directory listed out of order, in which the first file is a program and the second one is not
even made of tokens. -/
theorem run_of_accepted_second_file :
    let entries : List Entry := [⟨"b.polylang", false⟩, ⟨"a.polylang", false⟩]
    let disk : Disk := ⟨fun path => if path = "d" then .directory entries
      else if path = "d/a.polylang" then .file "".toUTF8 else .file "#".toUTF8⟩
    let found := SyntaxError.unexpectedCharacter '#' ⟨1, 1⟩
    let outcome := run disk ⟨[]⟩ ["--format", "json", "--pretty", "--", "d"]
    outcome.code = 1 ∧ outcome.output = "" ∧
      outcome.errors = Diagnostic.render "d/b.polylang" "#" found := by
  intro entries disk found outcome
  have parsed : disk.parseFile "d/a.polylang" = .ok ⟨[]⟩ := by
    have content : disk.read "d/a.polylang" = .ok "" := by decide +kernel
    have tokens : tokenize "" = .ok [Token.endAt ⟨1, 1⟩] := by decide +kernel
    simp only [Disk.parseFile, content, parseText, tokens]
    rfl
  have content : disk.read "d/b.polylang" = .ok "#" := by decide +kernel
  have result : parseText "#" = .error found := by
    have tokens : tokenize "#" = .error found := by decide +kernel
    rw [parseText, tokens]
    rfl
  have refused : disk.parseFile "d/b.polylang" = .error (.source (some "d/b.polylang") found) := by
    simp only [Disk.parseFile, content, result]
    rfl
  have first : entryPath "d" "a.polylang" = "d/a.polylang" := by decide
  have second : entryPath "d" "b.polylang" = "d/b.polylang" := by decide
  have order : ReadingOrder entries [⟨"a.polylang", false⟩, ⟨"b.polylang", false⟩] :=
    .of_perm (by decide) (by decide)
  have fails : disk.parsePath "d" = .error (.directory "d/b.polylang"
      (.source (some "d/b.polylang") found) ⟨[]⟩) := by
    have sources := (ReadingOrder.sorted (by decide)).unique order
    have listed : disk.list "d" = .ok entries := rfl
    have here : disk.parsePath "d" = disk.parseDirectory "d" := rfl
    rw [here, Disk.parseDirectory_of_list listed, sources]
    simp only [List.map_cons, List.map_nil, first, second, Disk.parseFiles, parsed, refused]
    rfl
  have accepted := Arguments.ofList_toList ⟨"d", .json, true⟩ (by decide)
  obtain ⟨code, output, _, shows⟩ := (run_of_accepted accepted).2 _ fails
  refine ⟨code, output, ?_⟩
  have culprit : disk.Culprit "d" "d/b.polylang" := by
    have isSchemaFile : Entry.IsSchemaFile ⟨"b.polylang", false⟩ :=
      ⟨rfl, "b", by decide, by decide⟩
    rw [← second]
    refine .inside rfl List.mem_cons_self isSchemaFile ?_
    intro entry member _ less
    rcases List.mem_pair.mp member with rfl | rfl
    · exact absurd less (List.lt_irrefl _)
    · rw [first]
      exact ⟨⟨[]⟩, parsed⟩
  have errors := shows "d/b.polylang" "#" found culprit content result
  rw [LogFilter.lines_silent, String.empty_append] at errors
  exact errors

end CommandLine

end CollectionSchema
