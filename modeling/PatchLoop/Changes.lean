import PatchLoop.Lib.Difflib
import PatchLoop.Lines
import PatchLoop.Tools.Gateway

/-!
# Changes of the workspace

`FileChangeTracker`: the texts that files had when they were first touched, and a diff of each one that has
another text now. A file is known here by its path in the repository, and a text is `none` where there is no
file.
-/

namespace PatchLoop

structure FileChangeTracker where
  original : List (String × Option String) := []
  nodup : (original.map Prod.fst).Nodup := by exact List.nodup_nil

/-- A file that has another text than before. -/
structure ChangedFile where
  path : String
  before : Option String
  after : Option String
deriving DecidableEq

theorem nodup_captureOriginal {changes : List (String × Option String)}
    (hnodup : (changes.map Prod.fst).Nodup) (path : String) (content : Option String) :
    ((captureOriginal changes path content).map Prod.fst).Nodup := by
  unfold captureOriginal
  split
  · exact hnodup
  · rename_i hunknown
    rw [List.map_append]
    refine List.nodup_append'.mpr ⟨hnodup, List.nodup_singleton _, ?_⟩
    intro known hmem hsame
    rw [List.mem_singleton.mp hsame] at hmem
    obtain ⟨entry, hentry, hpath⟩ := List.mem_map.mp hmem
    exact hunknown (List.any_eq_true.mpr ⟨entry, hentry, decide_eq_true hpath⟩)

namespace FileChangeTracker

variable (current : Files)

/-- `capture_original`, of a path in the repository -/
def captureOriginal (tracker : FileChangeTracker) (path : String) (content : Option String) :
    FileChangeTracker where
  original := PatchLoop.captureOriginal tracker.original path content
  nodup := nodup_captureOriginal tracker.nodup path content

/-- `capture` -/
def capture (tracker : FileChangeTracker) (path : String) : FileChangeTracker :=
  tracker.captureOriginal path (current path)

/-- `changed_paths` -/
def changedPaths (tracker : FileChangeTracker) : List String :=
  (tracker.original.filter fun (path, before) => current path ≠ before).map Prod.fst

/-- What paths are sorted by. -/
def sortKey (path : String) : List (List Char) := path.toList.splitOn '/'

/-- The files that `diff` does not pass over, in the order of their paths. -/
def changedFiles (tracker : FileChangeTracker) : List ChangedFile :=
  (tracker.original.insertionSort fun x y => sortKey x.1 ≤ sortKey y.1).filterMap fun (path, before) =>
    let after := current path
    if before = after then none else some { path, before, after }

/-- There is a section for each of the changed paths. -/
theorem changedFiles_perm (tracker : FileChangeTracker) :
    ((tracker.changedFiles current).map ChangedFile.path).Perm (tracker.changedPaths current) := by
  have hpaths : ∀ entries : List (String × Option String),
      (entries.filterMap fun (path, before) =>
        if before = current path then none
        else some ({ path, before, after := current path } : ChangedFile)).map ChangedFile.path
        = (entries.filter fun (path, before) => current path ≠ before).map Prod.fst := by
    intro entries
    induction entries with
    | nil => rfl
    | cons entry rest ih =>
        obtain ⟨path, before⟩ := entry
        by_cases hsame : before = current path
        · simpa [hsame] using ih
        · simpa [hsame, Ne.symm hsame] using ih
  unfold changedFiles changedPaths
  rw [hpaths]
  exact ((List.perm_insertionSort _ _).filter _).map _

end FileChangeTracker

/-! ### Diffs -/

/-- The lines of a text with their ends, of which there are none without a text. -/
def linesOf : Option String → List (List Char)
  | none => []
  | some text => keepLines text

namespace ChangedFile

/-- The lines of a file's diff after its headers. -/
def diffLines (file : ChangedFile) : List Difflib.DiffLine :=
  Difflib.diffLines (linesOf file.before) (linesOf file.after)

/-- The part of a diff that is about the file. -/
def diffSection (file : ChangedFile) : List Char :=
  Difflib.unifiedDiff (linesOf file.before) (linesOf file.after) s!"a/{file.path}" s!"b/{file.path}"

end ChangedFile

/-- `FileChangeTracker.diff` -/
def FileChangeTracker.diff (tracker : FileChangeTracker) (current : Files) : String :=
  String.ofList ((tracker.changedFiles current).flatMap ChangedFile.diffSection)

end PatchLoop
