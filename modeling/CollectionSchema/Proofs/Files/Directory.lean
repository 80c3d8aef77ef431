import CollectionSchema.Proofs.Text.Order
import CollectionSchema.Source
import Mathlib.Data.List.Forall2
import Mathlib.Data.List.Sort
import Mathlib.Data.List.TakeWhile

/-!
# Reading a directory

Of a directory the schema files are read, in the order of their names, up to the
first one that fails (`Disk.Reading`).  The names decide which files these are and in
which order they come, so neither the order of the listing nor any other entry has an
influence, and nothing is asked of the files behind the first one that fails.
-/

set_option autoImplicit false

namespace CollectionSchema

/-! ## Schema files -/

/-- A name has an extension when it ends with a dot and the extension, there is no other dot in the
extension, and something stands in front of that dot. -/
theorem extension?_eq_some_iff {name extension : String} :
    extension? name = some extension ↔
      '.' ∉ extension.toList ∧ ∃ stem, stem ≠ "" ∧ name = stem ++ "." ++ extension := by
  constructor
  · intro found
    simp only [extension?] at found
    split at found
    case h_2 => cases found
    case h_1 dot last more behind =>
      cases found
      have isDot : dot = '.' := by
        have stops := List.head?_dropWhile_not (· ≠ '.') name.toList.reverse
        rw [behind] at stops
        simpa using stops
      have whole := List.takeWhile_append_dropWhile (p := (· ≠ '.')) (l := name.toList.reverse)
      have noDot : ∀ character ∈ name.toList.reverse.takeWhile (· ≠ '.'), character ≠ '.' :=
        fun character member => by simpa using List.mem_takeWhile_imp member
      rw [behind, isDot] at whole
      generalize name.toList.reverse.takeWhile (· ≠ '.') = front at whole noDot
      refine ⟨?_, String.ofList (last :: more).reverse, by simp, ?_⟩
      · intro inside
        rw [String.toList_ofList, List.mem_reverse] at inside
        exact noDot '.' inside rfl
      · rw [← String.toList_inj, ← List.reverse_inj, ← whole]
        simp
  · rintro ⟨noDot, stem, some, rfl⟩
    have passes : ∀ character ∈ extension.toList.reverse,
        decide (character ≠ '.') = true := by
      intro character member
      apply decide_eq_true
      intro isDot
      apply noDot
      rwa [isDot, List.mem_reverse] at member
    have backwards : (stem ++ "." ++ extension).toList.reverse =
        extension.toList.reverse ++ '.' :: stem.toList.reverse := by
      simp
    obtain ⟨last, more, same⟩ : ∃ last more, stem.toList.reverse = last :: more := by
      refine List.exists_cons_of_ne_nil fun none => some ?_
      simpa using none
    simp only [extension?, backwards, List.dropWhile_append_of_pos passes,
      List.takeWhile_append_of_pos passes, same]
    simp

/-- A schema file is no directory, and its name is something with the extension of schema files
behind it. -/
def Entry.IsSchemaFile (entry : Entry) : Prop :=
  entry.isDirectory = false ∧ ∃ stem, stem ≠ "" ∧ entry.name = stem ++ ".polylang"

theorem Entry.isSource_iff {entry : Entry} : entry.isSource = true ↔ entry.IsSchemaFile := by
  have noDot : '.' ∉ sourceExtension.toList := by decide
  have named : ∀ stem : String, stem ++ "." ++ sourceExtension = stem ++ ".polylang" :=
    fun stem => String.append_assoc
  simp only [Entry.isSource, Entry.IsSchemaFile, Bool.and_eq_true, Bool.not_eq_true', beq_iff_eq,
    extension?_eq_some_iff, noDot, not_false_eq_true, true_and, named]

/-! ## The order of reading -/

theorem sourceEntries_perm (entries : List Entry) :
    (sourceEntries entries).Perm (entries.filter Entry.isSource) :=
  List.mergeSort_perm _ _

theorem sourceEntries_sorted (entries : List Entry) :
    (sourceEntries entries).Pairwise fun first second => first.name ≤ second.name := by
  have sorted : (sourceEntries entries).Pairwise fun first second =>
      decide (first.name ≤ second.name) = true := by
    refine List.pairwise_mergeSort ?_ ?_ _
    · intro first second third before after
      exact decide_eq_true (String.le_trans (of_decide_eq_true before) (of_decide_eq_true after))
    · intro first second
      simp [String.le_total]
  exact sorted.imp of_decide_eq_true

/-- The schema files of a directory in the order in which they are read: by the bytes of their
names. -/
structure ReadingOrder (entries files : List Entry) : Prop where
  mem_iff : ∀ entry, entry ∈ files ↔ entry ∈ entries ∧ entry.IsSchemaFile
  increasing : files.Pairwise fun first second => Text.bytes first.name < Text.bytes second.name

namespace ReadingOrder

variable {entries others files again : List Entry}

theorem of_perm (perm : files.Perm (entries.filter Entry.isSource))
    (increasing : files.Pairwise fun first second =>
      Text.bytes first.name < Text.bytes second.name) : ReadingOrder entries files where
  mem_iff entry := by rw [perm.mem_iff, List.mem_filter, Entry.isSource_iff]
  increasing := increasing

/-- The schema files of a directory in which no name stands twice, as they are sorted. -/
theorem sorted (distinct : (entries.map Entry.name).Nodup) :
    ReadingOrder entries (sourceEntries entries) := by
  have different : (sourceEntries entries).Pairwise fun first second =>
      first.name ≠ second.name := by
    have listed := List.pairwise_map.mp distinct
    exact (sourceEntries_perm entries).symm.pairwise (listed.sublist List.filter_sublist) Ne.symm
  refine .of_perm (sourceEntries_perm entries) ?_
  refine (sourceEntries_sorted entries).imp₂ ?_ different
  intro first second le ne
  rw [Text.bytes_lt_iff]
  exact String.not_le.mp fun ge => ne (String.le_antisymm le ge)

/-- There is one order of reading only. -/
theorem unique (order : ReadingOrder entries files) (other : ReadingOrder entries again) :
    files = again := by
  have irrefl : ∀ entry : Entry, ¬ Text.bytes entry.name < Text.bytes entry.name :=
    fun _ => List.lt_irrefl _
  have nodup : ∀ {list : List Entry}, ReadingOrder entries list → list.Nodup :=
    fun order => order.increasing.imp fun less => by
      rintro rfl
      exact irrefl _ less
  refine List.Perm.eq_of_pairwise ?_ order.increasing other.increasing ?_
  · intro first second _ _ less more
    exact absurd more (List.lt_asymm less)
  · apply (List.perm_ext_iff_of_nodup (nodup order) (nodup other)).mpr
    intro entry
    rw [order.mem_iff, other.mem_iff]

/-- Only the schema files among the entries count. -/
theorem congr (order : ReadingOrder entries files)
    (same : ∀ entry, entry.IsSchemaFile → (entry ∈ others ↔ entry ∈ entries)) :
    ReadingOrder others files where
  mem_iff entry := by
    rw [order.mem_iff]
    exact and_congr_left fun isSchemaFile => (same entry isSchemaFile).symm
  increasing := order.increasing

end ReadingOrder

/-! ## One file after the other -/

namespace Disk

variable {disk other : Disk}

/-- A file fails when it cannot be read or when its text is no program. -/
theorem parseFile_eq_error_iff {path : String} {error : SchemaError} :
    disk.parseFile path = .error error ↔
      (∃ problem, disk.read path = .error problem ∧ error = .unreadable path problem) ∨
      ∃ text found, disk.read path = .ok text ∧ parseText text = .error found ∧
        error = .source (some path) found := by
  rw [parseFile]
  rcases content : disk.read path with problem | text
  · simp [eq_comm]
  · rcases result : parseText text with found | program
    · simp [result, Except.mapError, eq_comm]
    · simp [result, Except.mapError]

/-- A file that parses has a text, and its program is the program of the text. -/
theorem exists_source {path : String} {program : Program}
    (parsed : disk.parseFile path = .ok program) :
    ∃ text, disk.read path = .ok text ∧ parseText text = .ok program := by
  rw [parseFile] at parsed
  rcases content : disk.read path with _ | text
  · rw [content] at parsed
    cases parsed
  · rcases result : parseText text with _ | other
    · simp only [content, result] at parsed
      cases parsed
    · simp only [content, result] at parsed
      cases parsed
      exact ⟨text, rfl, result⟩

theorem parseFile_congr {path : String} (same : other.read path = disk.read path) :
    other.parseFile path = disk.parseFile path := by
  rw [parseFile, parseFile, same]

/-- Files that parse, with their programs. -/
def Parsed (disk : Disk) : List String → List Program → Prop :=
  List.Forall₂ fun file program => disk.parseFile file = .ok program

theorem Parsed.exists_program {files : List String} {programs : List Program}
    (parsed : disk.Parsed files programs) :
    ∀ file ∈ files, ∃ program, disk.parseFile file = .ok program := by
  induction parsed with
  | nil =>
      intro file member
      cases member
  | cons here _ ih =>
      intro file member
      rcases List.mem_cons.mp member with rfl | later
      · exact ⟨_, here⟩
      · exact ih file later

/-- What reading files one after the other comes to: the declarations of all of them when they
parse; and otherwise the error of the first one that does not, with its path and with the
declarations of those in front of it. -/
inductive Reading (disk : Disk) : List String → Except SchemaError Program → Prop
  | finished {files : List String} {programs : List Program} (parsed : disk.Parsed files programs) :
      Reading disk files (.ok ⟨programs.flatMap Program.declarations⟩)
  | stopped {before after : List String} {programs : List Program} {failed : String}
      {error : SchemaError} (parsed : disk.Parsed before programs)
      (fails : disk.parseFile failed = .error error) :
      Reading disk (before ++ failed :: after)
        (.error (.directory failed error ⟨programs.flatMap Program.declarations⟩))

/-- All files parse, or one of them is the first that does not. -/
theorem exists_parsed (disk : Disk) (files : List String) :
    (∃ programs, disk.Parsed files programs) ∨
      ∃ before failed after programs error, files = before ++ failed :: after ∧
        disk.Parsed before programs ∧ disk.parseFile failed = .error error := by
  induction files with
  | nil => exact .inl ⟨[], .nil⟩
  | cons file rest ih =>
      rcases here : disk.parseFile file with error | program
      · exact .inr ⟨[], file, rest, [], error, rfl, .nil, here⟩
      · rcases ih with
          ⟨programs, parsed⟩ | ⟨before, failed, after, programs, error, rfl, parsed, fails⟩
        · exact .inl ⟨program :: programs, .cons here parsed⟩
        · exact .inr ⟨file :: before, failed, after, program :: programs, error, rfl,
            .cons here parsed, fails⟩

/-- Files that parse are passed, and their declarations are kept. -/
theorem parseFiles_append {files : List String} {programs : List Program}
    (parsed : disk.Parsed files programs) (rest : List String) (start : Program) :
    disk.parseFiles (files ++ rest) start =
      disk.parseFiles rest ⟨start.declarations ++ programs.flatMap Program.declarations⟩ := by
  induction parsed generalizing start with
  | nil => simp
  | @cons file program files programs here _ ih =>
      rw [List.cons_append, parseFiles, here]
      simp only
      rw [ih, Program.append, List.flatMap_cons, List.append_assoc]

theorem parseFiles_reading (files : List String) :
    disk.Reading files (disk.parseFiles files Program.empty) := by
  rcases disk.exists_parsed files with
    ⟨programs, parsed⟩ | ⟨before, failed, after, programs, error, rfl, parsed, fails⟩
  · have whole := parseFiles_append parsed [] Program.empty
    rw [List.append_nil] at whole
    rw [whole]
    exact .finished parsed
  · rw [parseFiles_append parsed, parseFiles, fails]
    exact .stopped parsed fails

/-- Reading looks at no file behind the first one that fails. -/
theorem parseFiles_congr {files : List String}
    (same : ∀ before file after, files = before ++ file :: after →
      (∀ earlier ∈ before, ∃ program, disk.parseFile earlier = .ok program) →
        other.read file = disk.read file) (start : Program) :
    other.parseFiles files start = disk.parseFiles files start := by
  induction files generalizing start with
  | nil => rfl
  | cons file rest ih =>
      have here := parseFile_congr (same [] file rest rfl nofun)
      rw [parseFiles, parseFiles, here]
      rcases result : disk.parseFile file with error | program
      · rfl
      · apply ih
        intro before later after split parsed
        apply same (file :: before) later after (by rw [split]; rfl)
        intro earlier member
        rcases List.mem_cons.mp member with rfl | member
        · exact ⟨program, result⟩
        · exact parsed earlier member

/-! ## Directories -/

theorem parseDirectory_of_list {directory : String} {entries : List Entry}
    (listed : disk.list directory = .ok entries) :
    disk.parseDirectory directory =
      disk.parseFiles ((sourceEntries entries).map fun entry => entryPath directory entry.name)
        Program.empty := by
  rw [parseDirectory, sourceFiles, listed]

/-- A directory that can be listed and has no name twice is read file by file: just its schema
files, in the order of the bytes of their names, up to the first one that cannot be read or is no
program.  Another disk gives the same result when its directory has the same schema files, whatever
the order of its listing and whatever else is in it, and when those files are the same up to the
first one that fails. -/
theorem parseDirectory_in_order {directory : String} {entries : List Entry}
    (listed : disk.list directory = .ok entries) (distinct : (entries.map Entry.name).Nodup) :
    ∃ files, ReadingOrder entries files ∧
      let paths := files.map fun file => entryPath directory file.name
      disk.Reading paths (disk.parseDirectory directory) ∧
      (∀ path ∈ paths, ∀ error, disk.parseFile path = .error error ↔
        (∃ problem, disk.read path = .error problem ∧ error = .unreadable path problem) ∨
        ∃ text found, disk.read path = .ok text ∧ parseText text = .error found ∧
          error = .source (some path) found) ∧
      ∀ (other : Disk) (others : List Entry), other.list directory = .ok others →
        (others.map Entry.name).Nodup →
        (∀ entry, entry.IsSchemaFile → (entry ∈ others ↔ entry ∈ entries)) →
        (∀ before path after, paths = before ++ path :: after →
          (∀ earlier ∈ before, ∃ program, disk.parseFile earlier = .ok program) →
            other.read path = disk.read path) →
        other.parseDirectory directory = disk.parseDirectory directory := by
  have order := ReadingOrder.sorted distinct
  refine ⟨sourceEntries entries, order, ?_, fun _ _ _ => parseFile_eq_error_iff, ?_⟩
  · rw [parseDirectory_of_list listed]
    exact parseFiles_reading _
  · intro other others otherListed otherDistinct sameFiles sameTexts
    have sameOrder : sourceEntries others = sourceEntries entries :=
      (ReadingOrder.sorted otherDistinct).unique (order.congr sameFiles)
    rw [parseDirectory_of_list listed, parseDirectory_of_list otherListed, sameOrder]
    exact parseFiles_congr sameTexts _

/-- A directory listed out of order, with a directory, a file without a stem and a file of another
kind in it.  The second of its schema files is gone, so the third one is not read, and the directory
gives the same as another one in which only the third file differs. -/
theorem parseDirectory_in_order_of_missing_file :
    let entries : List Entry := [⟨"c.polylang", false⟩, ⟨"b.polylang", false⟩,
      ⟨"old.polylang", true⟩, ⟨".polylang", false⟩, ⟨"a.txt", false⟩, ⟨"a.polylang", false⟩]
    let others : List Entry := [⟨"a.polylang", false⟩, ⟨"c.polylang", false⟩,
      ⟨"b.polylang", false⟩, ⟨"more", true⟩]
    let text := "collection A \x7b\x7d"
    let disk : Disk := ⟨fun path => if path = "d" then .directory entries
      else if path = "d/a.polylang" then .file text.toUTF8 else .missing .notFound⟩
    let other : Disk := ⟨fun path => if path = "d" then .directory others
      else if path = "d/b.polylang" then .missing .notFound else .file text.toUTF8⟩
    disk.Reading ["d/a.polylang", "d/b.polylang", "d/c.polylang"] (disk.parseDirectory "d") ∧
      other.parseDirectory "d" = disk.parseDirectory "d" := by
  intro entries others text disk other
  let files : List Entry := [⟨"a.polylang", false⟩, ⟨"b.polylang", false⟩, ⟨"c.polylang", false⟩]
  have order : ReadingOrder entries files := .of_perm (by decide) (by decide)
  have otherOrder : ReadingOrder others files := .of_perm (by decide) (by decide)
  obtain ⟨found, foundOrder, reading, _, determined⟩ :=
    @parseDirectory_in_order disk "d" entries rfl (by decide)
  obtain rfl := foundOrder.unique order
  refine ⟨reading, determined other others rfl (by decide) ?_ ?_⟩
  · intro entry isSchemaFile
    have first := order.mem_iff entry
    have second := otherOrder.mem_iff entry
    tauto
  · intro before path after split parsed
    -- The third file stands behind the second one, which does not parse.
    rcases before with _ | ⟨first, _ | ⟨second, before⟩⟩
    · cases split
      rfl
    · cases split
      rfl
    · obtain ⟨program, found⟩ := parsed second (by simp)
      have same : some "d/b.polylang" = some second :=
        congrArg (fun paths : List String => paths[1]?) split
      cases same
      cases found

end Disk

end CollectionSchema
