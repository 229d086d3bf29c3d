import Mathlib.Data.List.Forall2
import PatchLoop.Intelligence.Index
import PatchLoop.Lib.Fallible
import PatchLoop.Lib.Sequences

/-!
# Files that cannot be read

A file that cannot be parsed is indexed by its module alone, so that it is to the others what an empty file is.
A file that cannot be decoded is not caught, nor is what the parser raises beside a syntax error: then there is
no index at all.
-/

namespace PatchLoop

open Interpreter

variable [Interpreter]

/-! ### What is said of a file -/

namespace RepositoryEntry

/-- The file cannot be decoded, or cannot be parsed. -/
def Bad (entry : RepositoryEntry) : Prop :=
  match openPython entry.bytes with
  | .error _ => True
  | .ok text =>
      match parse text with
      | .error _ => True
      | .ok _ => False

/-- The file is decoded, the parser raises nothing but a syntax error, and the tree can be visited. -/
def Readable (entry : RepositoryEntry) : Prop :=
  match openPython entry.bytes with
  | .error _ => False
  | .ok text =>
      match parse text with
      | .error (.syntaxError _ _) => True
      | .error _ => False
      | .ok tree => visits tree = true

/-- The file without its content. -/
def emptied (entry : RepositoryEntry) : RepositoryEntry := { entry with bytes := [] }

end RepositoryEntry

/-- The repository in which one file is empty. -/
def Repository.emptied (repository : Repository) (bad : RepositoryEntry) : Repository :=
  { repository with entries := repository.entries.set bad.emptied }

/-- What is said of a file: of one that cannot be decoded or parsed only that, and its module. -/
structure IndexesEntry (entry : RepositoryEntry) (file : IndexedFile) : Prop where
  path : file.path = entry.relative
  parseError : file.parseError ≠ none ↔ entry.Bad
  bad : entry.Bad → file.imports = [] ∧ file.references = []
    ∧ ∃ lineCount, file.symbols = [moduleSymbol entry entry.moduleName lineCount]

/-- What an index should be: it has each file once, a file that cannot be read is to the others as if it were
empty, and the index is current. -/
structure Repository.IsolatedBy (repository : Repository) (snapshot : RepositorySnapshot) : Prop where
  files : List.Forall₂ IndexesEntry repository.pythonFiles snapshot.files
  isolated : ∀ bad ∈ repository.pythonFiles, bad.Bad →
    ∃ without, (repository.emptied bad).build = .ok without
      ∧ List.Forall₂ (fun file other => file.path = other.path ∧ (file.path ≠ bad.relative → file = other))
        snapshot.files without.files
      ∧ snapshot.testMappings = without.testMappings
  current : repository.isCurrent snapshot = true

/-! ### One file -/

section OneFile

variable {entry : RepositoryEntry}

theorem indexFile_readable {file : IndexedFile} (hindexed : indexFile entry = .ok file) : entry.Readable := by
  unfold indexFile at hindexed
  obtain ⟨text, hopen, hparsed⟩ := Except.bind_eq_ok_iff.mp hindexed
  rw [RepositoryEntry.Readable, hopen]
  dsimp only at hparsed ⊢
  cases hparse : parse text with
  | error raised =>
      rw [hparse] at hparsed
      cases raised with
      | syntaxError message line => exact True.intro
      | _ => cases hparsed
  | ok tree =>
      rw [hparse] at hparsed
      dsimp only at hparsed ⊢
      split at hparsed
      · assumption
      · cases hparsed

/-- A file that can be read is indexed with all that is found in it, or by its module alone. -/
theorem exists_indexFile (hreadable : entry.Readable) :
    ∃ file, indexFile entry = .ok file ∧ IndexesEntry entry file ∧ file.digest = sha256 entry.bytes
      ∧ (entry.Bad → ∃ lineCount message line, file = unparsed entry lineCount message line) := by
  unfold RepositoryEntry.Readable at hreadable
  cases hopen : openPython entry.bytes with
  | error raised =>
      rw [hopen] at hreadable
      exact hreadable.elim
  | ok text =>
      rw [hopen] at hreadable
      dsimp only at hreadable
      split at hreadable
      · rename_i message line hparse
        have hbad : entry.Bad := by
          rw [RepositoryEntry.Bad, hopen]
          dsimp only
          rw [hparse]
          exact True.intro
        have hindexed : indexFile entry
            = .ok (unparsed entry (splitLines text).length message line) := by
          refine Except.bind_eq_ok_iff.mpr ⟨text, hopen, ?_⟩
          dsimp only
          rw [hparse]
          rfl
        exact ⟨_, hindexed, ⟨rfl, iff_of_true (Option.some_ne_none _) hbad, fun _ => ⟨rfl, rfl, _, rfl⟩⟩, rfl,
          fun _ => ⟨_, message, line, rfl⟩⟩
      · exact hreadable.elim
      · rename_i tree hparse
        have hgood : ¬ entry.Bad := by
          rw [RepositoryEntry.Bad, hopen]
          dsimp only
          rw [hparse]
          exact not_false
        have hindexed : indexFile entry = .ok (visited entry (splitLines text).length tree) := by
          refine Except.bind_eq_ok_iff.mpr ⟨text, hopen, ?_⟩
          dsimp only
          rw [hparse]
          dsimp only
          rw [if_pos hreadable]
          rfl
        exact ⟨_, hindexed, ⟨rfl, iff_of_false (fun hsome => hsome rfl) hgood, fun hbad => absurd hbad hgood⟩,
          rfl, fun hbad => absurd hbad hgood⟩

theorem RepositoryEntry.readable_emptied (entry : RepositoryEntry) : entry.emptied.Readable := by
  rw [RepositoryEntry.Readable, emptied, open_empty]
  dsimp only
  rw [parse_empty]
  exact visits_empty

/-- An empty file is indexed by its module alone. -/
theorem indexFile_emptied (entry : RepositoryEntry) :
    indexFile entry.emptied = .ok (visited entry.emptied 0 (.other [])) := by
  refine Except.bind_eq_ok_iff.mpr ⟨"", open_empty, ?_⟩
  dsimp only
  rw [parse_empty]
  dsimp only
  rw [if_pos visits_empty]
  rfl

end OneFile

/-! ### What the files see of each other -/

/-- Two files in which the same is found, but perhaps that their symbols end elsewhere. -/
structure Alike (file other : IndexedFile) : Prop where
  path : file.path = other.path
  module : file.module = other.module
  isTest : file.isTest = other.isTest
  imports : file.imports = other.imports
  references : file.references = other.references
  symbols : file.symbols.map ({ · with endLine := 0 }) = other.symbols.map ({ · with endLine := 0 })

section Seeing

omit [Interpreter]

variable {files others : List IndexedFile} {file other : IndexedFile}

theorem Alike.refl (file : IndexedFile) : Alike file file := ⟨rfl, rfl, rfl, rfl, rfl, rfl⟩

/-- What does not depend on the ends of symbols is the same for both. -/
theorem Alike.map_symbols {α : Type} (halike : Alike file other) (column : CodeSymbol → α)
    (hcolumn : ∀ symbol : CodeSymbol, column { symbol with endLine := 0 } = column symbol) :
    file.symbols.map column = other.symbols.map column := by
  have hstrip : ∀ symbols : List CodeSymbol,
      symbols.map column = (symbols.map ({ · with endLine := 0 })).map column := fun symbols => by
    rw [List.map_map]
    exact List.map_congr_left fun symbol _ => (hcolumn symbol).symm
  rw [hstrip, halike.symbols, ← hstrip]

theorem symbolsByName_congr (halike : List.Forall₂ Alike files others) :
    symbolsByName files = symbolsByName others := by
  induction halike with
  | nil => rfl
  | @cons file other files others hfirst _ ih =>
      have hsymbols := hfirst.map_symbols (fun symbol => (symbol.name, symbol.path, symbol.id)) fun _ => rfl
      calc symbolsByName (file :: files)
          = file.symbols.map (fun symbol => (symbol.name, symbol.path, symbol.id)) ++ symbolsByName files := by
            rw [symbolsByName, symbolsByName, List.flatMap_cons]
        _ = other.symbols.map (fun symbol => (symbol.name, symbol.path, symbol.id)) ++ symbolsByName others := by
            rw [hsymbols, ih]
        _ = symbolsByName (other :: others) := by
            rw [symbolsByName, symbolsByName, List.flatMap_cons]

theorem testMapping_congr {test test' source source' : IndexedFile} (htest : Alike test test')
    (hsource : Alike source source') : testMapping test source = testMapping test' source' := by
  rw [testMapping, testMapping, htest.path, htest.imports, htest.references, hsource.path, hsource.module,
    hsource.map_symbols _ fun _ => rfl]

theorem mappings_congr {tests tests' sources sources' : List IndexedFile}
    (htests : List.Forall₂ Alike tests tests') (hsources : List.Forall₂ Alike sources sources') :
    tests.flatMap (fun test => sources.filterMap (testMapping test))
      = tests'.flatMap fun test => sources'.filterMap (testMapping test) := by
  have hmappings : ∀ {test test'}, Alike test test' →
      sources.filterMap (testMapping test) = sources'.filterMap (testMapping test') := by
    intro test test' htest
    induction hsources with
    | nil => rfl
    | cons hfirst _ ih => rw [List.filterMap_cons, List.filterMap_cons, testMapping_congr htest hfirst, ih]
  induction htests with
  | nil => rfl
  | cons hfirst _ ih => rw [List.flatMap_cons, List.flatMap_cons, hmappings hfirst, ih]

theorem mapTests_congr (halike : List.Forall₂ Alike files others) : mapTests files = mapTests others := by
  have hfilter : ∀ keeps : Bool → Bool, List.Forall₂ Alike (files.filter fun file => keeps file.isTest)
      (others.filter fun file => keeps file.isTest) := fun keeps =>
    List.rel_filter (fun file other hsame => iff_of_eq (congrArg (keeps · = true) hsame.isTest)) halike
  exact mappings_congr (hfilter id) (hfilter not)

/-- The references of alike files are resolved alike. -/
theorem resolveReferences_congr {Same : IndexedFile → Prop}
    (halike : List.Forall₂ (fun file other => Alike file other ∧ (Same file → file = other)) files others)
    (hsame : ∀ file references, Same { file with references } → Same file) :
    List.Forall₂ (fun file other => Alike file other ∧ (Same file → file = other))
      (resolveReferences files) (resolveReferences others) := by
  have hsymbols := symbolsByName_congr (halike.imp fun _ _ hboth => hboth.1)
  unfold resolveReferences
  rw [hsymbols]
  refine List.rel_map (fun file other hboth => ?_) halike
  obtain ⟨hfile, heq⟩ := hboth
  refine ⟨⟨hfile.path, hfile.module, hfile.isTest, hfile.imports, ?_, hfile.symbols⟩, fun hkept => ?_⟩
  · dsimp only
    rw [hfile.references, hfile.path]
  · rw [heq (hsame file _ hkept)]

end Seeing

/-! ### The repository -/

section Building

variable {repository : Repository} {bad : RepositoryEntry}

omit [Interpreter] in
theorem mem_pythonFiles {entry : RepositoryEntry} :
    entry ∈ repository.pythonFiles ↔ entry ∈ repository.entries.rows ∧ entry.IsPython := by
  rw [Repository.pythonFiles, List.mem_insertionSort, List.mem_filter, decide_eq_true_eq]

omit [Interpreter] in
theorem eq_of_parts {entry : RepositoryEntry} (hentry : entry ∈ repository.pythonFiles)
    (hbad : bad ∈ repository.pythonFiles) (hparts : entry.parts = bad.parts) : entry = bad :=
  List.inj_on_of_nodup_map repository.entries.nodup (mem_pythonFiles.mp hentry).1 (mem_pythonFiles.mp hbad).1
    hparts

/-- An entry, in the repository in which one of them is empty. -/
def emptying (bad entry : RepositoryEntry) : RepositoryEntry := if entry.parts = bad.parts then bad.emptied else entry

omit [Interpreter] in
theorem parts_unless (bad entry : RepositoryEntry) : (emptying bad entry).parts = entry.parts := by
  rw [emptying]
  split
  · rename_i hparts
    exact hparts.symm
  · rfl

omit [Interpreter] in
/-- The same files are found where one of them is empty. -/
theorem pythonFiles_emptied (hbad : bad ∈ repository.pythonFiles) :
    (repository.emptied bad).pythonFiles = repository.pythonFiles.map (emptying bad) := by
  have hrows : (repository.emptied bad).entries.rows = repository.entries.rows.map (emptying bad) := rfl
  have hkept : ∀ entry ∈ repository.entries.rows, (emptying bad entry).IsPython ↔ entry.IsPython := by
    intro entry hentry
    rw [emptying]
    split
    · rename_i hparts
      obtain rfl := List.inj_on_of_nodup_map repository.entries.nodup hentry (mem_pythonFiles.mp hbad).1 hparts
      exact Iff.rfl
    · exact Iff.rfl
  have hfilter : (repository.entries.rows.map (emptying bad)).filter (fun entry => entry.IsPython)
      = (repository.entries.rows.filter fun entry => entry.IsPython).map (emptying bad) := by
    rw [List.filter_map]
    refine congrArg (List.map (emptying bad)) (List.filter_congr fun entry hentry => ?_)
    exact decide_eq_decide.mpr (hkept entry hentry)
  rw [Repository.pythonFiles, hrows, hfilter, Repository.pythonFiles]
  refine (List.map_insertionSort _ _ (emptying bad) _ fun first _ second _ => ?_).symm
  rw [parts_unless, parts_unless]

/-- A bad file and an empty one are alike. -/
theorem alike_emptied (lineCount : Nat) (message : String) (line : Option Nat) :
    Alike (unparsed bad lineCount message line) (visited bad.emptied 0 (.other [])) :=
  ⟨rfl, rfl, rfl, rfl, rfl, rfl⟩

/-- The files of the two repositories, before their references are resolved. -/
theorem alike_files (hbad : bad ∈ repository.pythonFiles) (hcontent : bad.Bad)
    {files others : List IndexedFile} (hfiles : repository.pythonFiles.mapM indexFile = .ok files)
    (hothers : (repository.emptied bad).pythonFiles.mapM indexFile = .ok others) :
    List.Forall₂ (fun file other => Alike file other ∧ (file.path ≠ bad.relative → file = other))
      files others := by
  rw [pythonFiles_emptied hbad] at hothers
  have hfirst := Sequence.forall₂_of_mapM_ok hfiles
  have hsecond := List.forall₂_map_left_iff.mp (Sequence.forall₂_of_mapM_ok hothers)
  refine Sequence.forall₂_join hfirst hsecond fun entry hentry file other hfile hother => ?_
  rw [emptying] at hother
  split at hother
  · rename_i hparts
    obtain rfl := eq_of_parts hentry hbad hparts
    obtain ⟨found, hfound, hindexes, -, hunparsed⟩ := exists_indexFile (indexFile_readable hfile)
    cases hfile.symm.trans hfound
    obtain ⟨lineCount, message, line, rfl⟩ := hunparsed hcontent
    cases hother.symm.trans (indexFile_emptied entry)
    exact ⟨alike_emptied lineCount message line, fun hne => absurd rfl hne⟩
  · cases hother.symm.trans hfile
    exact ⟨Alike.refl _, fun _ => rfl⟩

theorem exists_files (hreadable : ∀ entry ∈ repository.pythonFiles, entry.Readable) :
    ∃ files, repository.pythonFiles.mapM indexFile = .ok files :=
  Sequence.exists_mapM_ok fun entry hentry =>
    (exists_indexFile (hreadable entry hentry)).imp fun _ hindexed => hindexed.1

theorem readable_of_build {snapshot : RepositorySnapshot} (hbuild : repository.build = .ok snapshot) :
    ∀ entry ∈ repository.pythonFiles, entry.Readable := by
  obtain ⟨files, hfiles, -⟩ := Except.bind_eq_ok_iff.mp hbuild
  intro entry hentry
  obtain ⟨file, -, hfile⟩ := Sequence.exists_of_forall₂ (Sequence.forall₂_of_mapM_ok hfiles) hentry
  exact indexFile_readable hfile

theorem build_of_files {files : List IndexedFile} (hfiles : repository.pythonFiles.mapM indexFile = .ok files) :
    repository.build = .ok {
      repository := repository.root
      files := resolveReferences files
      testMappings := mapTests (resolveReferences files) } :=
  Except.bind_eq_ok_iff.mpr ⟨files, hfiles, rfl⟩

/-- What was indexed is still said of the files when their references are resolved. -/
theorem indexes_resolved {files : List IndexedFile}
    (hfiles : repository.pythonFiles.mapM indexFile = .ok files) :
    List.Forall₂ (fun entry file => IndexesEntry entry file ∧ file.digest = sha256 entry.bytes)
      repository.pythonFiles (resolveReferences files) := by
  refine List.forall₂_map_right_iff.mpr ((Sequence.forall₂_of_mapM_ok hfiles).imp fun entry file hfile => ?_)
  obtain ⟨found, hfound, ⟨hpath, herror, hbad⟩, hdigest, -⟩ := exists_indexFile (indexFile_readable hfile)
  cases hfile.symm.trans hfound
  refine ⟨⟨hpath, herror, fun hcontent => ?_⟩, hdigest⟩
  obtain ⟨himports, hreferences, hsymbols⟩ := hbad hcontent
  refine ⟨himports, ?_, hsymbols⟩
  dsimp only
  rw [hreferences]
  rfl

theorem isCurrent_of_indexes {snapshot : RepositorySnapshot} (hroot : snapshot.repository = repository.root)
    (hfiles : List.Forall₂ (fun entry file => IndexesEntry entry file ∧ file.digest = sha256 entry.bytes)
      repository.pythonFiles snapshot.files) : repository.isCurrent snapshot = true := by
  have hsame : ∀ {entries files}, List.Forall₂ (fun entry file => IndexesEntry entry file
      ∧ file.digest = sha256 entry.bytes) entries files →
      entries.map (fun entry => (entry.relative, sha256 entry.bytes))
        = files.map fun file => (file.path, file.digest) := by
    intro entries files hboth
    induction hboth with
    | nil => rfl
    | cons hfirst _ ih => rw [List.map_cons, List.map_cons, ih, hfirst.1.path, hfirst.2]
  rw [Repository.isCurrent, hsame hfiles]
  simp [hroot]

/-- An index isolates the files that cannot be read exactly if each file can be decoded and parsed but for a
syntax error, and the tree can be visited: no other one is caught. -/
theorem isolates_iff (repository : Repository) :
    (∃ snapshot, repository.build = .ok snapshot ∧ repository.IsolatedBy snapshot)
      ↔ ∀ entry ∈ repository.pythonFiles, entry.Readable := by
  constructor
  · rintro ⟨snapshot, hbuild, -⟩
    exact readable_of_build hbuild
  · intro hreadable
    obtain ⟨files, hfiles⟩ := exists_files hreadable
    have hindexes := indexes_resolved hfiles
    refine ⟨_, build_of_files hfiles, hindexes.imp fun _ _ hboth => hboth.1, fun bad hbad hcontent => ?_,
      isCurrent_of_indexes rfl hindexes⟩
    have hwithout : ∀ entry ∈ (repository.emptied bad).pythonFiles, entry.Readable := by
      intro entry hentry
      rw [pythonFiles_emptied hbad] at hentry
      obtain ⟨original, horiginal, rfl⟩ := List.mem_map.mp hentry
      rw [emptying]
      split
      · exact bad.readable_emptied
      · exact hreadable original horiginal
    obtain ⟨others, hothers⟩ := exists_files hwithout
    have halike := resolveReferences_congr (alike_files hbad hcontent hfiles hothers)
      fun _ _ hkept => hkept
    exact ⟨_, build_of_files hothers, halike.imp fun _ _ hboth => ⟨hboth.1.path, hboth.2⟩,
      mapTests_congr (halike.imp fun _ _ hboth => hboth.1)⟩

end Building

/-! ### A file that cannot be decoded -/

namespace Sample

/-- Python, of files in ASCII that have no statement. -/
abbrev asciiPython : Interpreter where
  openPython bytes :=
    if bytes.all (· < 128) then .ok (String.ofList (bytes.map fun byte => Char.ofNat byte.toNat))
    else .error (.syntaxError "invalid or missing encoding declaration" none)
  parse _ := .ok (.other [])
  visits _ := true
  sha256 bytes := toString bytes
  open_empty := rfl
  parse_empty := rfl
  visits_empty := rfl

/-- A file of a byte with which no text begins, beside an empty one. -/
def undecodable : Repository where
  root := "/repository"
  entries := (Table.empty.insert { parts := ["a.py"], bytes := [255] }).insert { parts := ["b.py"], bytes := [] }

end Sample

omit [Interpreter] in
/-- One file that cannot be decoded is enough for there to be no index. -/
theorem undecodable_not_isolated : ¬ ∃ snapshot, @Repository.build Sample.asciiPython Sample.undecodable = .ok snapshot
    ∧ @Repository.IsolatedBy Sample.asciiPython Sample.undecodable snapshot := by
  have hbuild : @Repository.build Sample.asciiPython Sample.undecodable
      = .error (.syntaxError "invalid or missing encoding declaration" none) := by
    decide
  rintro ⟨snapshot, hok, -⟩
  rw [hbuild] at hok
  cases hok

end PatchLoop
