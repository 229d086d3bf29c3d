import PatchLoop.Tools.Write

/-!
# What an edit does to a file

An edit is counted and made in the text that `read_text` gives, where each carriage return has become a
line feed, and that text is written back. So the file outside the edited places stays as it was exactly
if there was no carriage return in it.
-/

namespace PatchLoop

open Occurrences

/-! ### Reading -/

theorem not_mem_universalNewlines (text : List Char) : '\r' ∉ universalNewlines text := by
  fun_induction universalNewlines text with
  | case1 => exact List.not_mem_nil
  | case2 rest ih => simpa using ih
  | case3 rest _ ih => simpa using ih
  | case4 c rest _ hc ih =>
      rw [List.mem_cons, not_or]
      exact ⟨fun heq => hc heq.symm, ih⟩

theorem universalNewlines_eq {text : List Char} (hnone : '\r' ∉ text) :
    universalNewlines text = text := by
  fun_induction universalNewlines text with
  | case1 => rfl
  | case2 rest ih => simp at hnone
  | case3 rest _ ih => simp at hnone
  | case4 c rest _ hc ih =>
      rw [List.mem_cons, not_or] at hnone
      rw [ih hnone.2]

/-! ### Edits -/

/-- The text with the edits made in it, one after the other: each finds its text as often as it says, and
replaces just that. -/
def Edited : List TextEdit → String → String → Prop
  | [], before, after => after = before
  | edit :: rest, before, after =>
      occurrences edit.oldText.toList before.toList = edit.expectedOccurrences
        ∧ Edited rest (String.ofList (replaceUpTo edit.oldText.toList edit.newText.toList
            edit.expectedOccurrences before.toList)) after

/-- The edits of a change. -/
def FileChange.edits : FileChange → List TextEdit
  | .create _ | .write _ => []
  | .replace edit => [edit]
  | .patch edits => edits

theorem TextEdit.apply_eq_ok {edit : TextEdit} {label before after : String} :
    edit.apply label before = .ok after
      ↔ occurrences edit.oldText.toList before.toList = edit.expectedOccurrences
        ∧ after = String.ofList (replaceUpTo edit.oldText.toList edit.newText.toList
            edit.expectedOccurrences before.toList) := by
  unfold TextEdit.apply
  dsimp only
  split
  · rename_i hother
    exact ⟨fun hok => (by cases hok), fun hboth => absurd hboth.1 hother⟩
  · rename_i hsame
    rw [Except.ok.injEq, eq_comm]
    exact ⟨fun hafter => ⟨not_not.mp hsame, hafter⟩, And.right⟩

theorem applyEdits_eq_ok {edits : List TextEdit} {index : Nat} {before after : String} :
    applyEdits index edits before = .ok after ↔ Edited edits before after := by
  induction edits generalizing index before with
  | nil => exact ⟨fun hok => (Except.ok.inj hok).symm, fun hsame => congrArg Except.ok hsame.symm⟩
  | cons edit rest ih =>
      rw [applyEdits, Except.bind_eq_ok_iff, Edited]
      constructor
      · rintro ⟨next, hnext, hrest⟩
        obtain ⟨hfound, rfl⟩ := TextEdit.apply_eq_ok.mp hnext
        exact ⟨hfound, ih.mp hrest⟩
      · rintro ⟨hfound, hrest⟩
        exact ⟨_, TextEdit.apply_eq_ok.mpr ⟨hfound, rfl⟩, ih.mpr hrest⟩

theorem FileChange.apply_eq_ok {change : FileChange} {before after : String}
    (hedits : (∃ edit, change = .replace edit) ∨ ∃ edits, change = .patch edits) :
    change.apply before = .ok after ↔ Edited change.edits before after := by
  rcases hedits with ⟨edit, rfl⟩ | ⟨edits, rfl⟩
  · have happly : edit.apply "" before = .ok after ↔ _ := TextEdit.apply_eq_ok
    exact happly
  · exact applyEdits_eq_ok

/-- What edits do to the number of a character depends on them alone. -/
def charDelta (a : Char) : List TextEdit → Int
  | [] => 0
  | edit :: rest =>
      edit.expectedOccurrences * ((edit.newText.toList.count a : Int) - edit.oldText.toList.count a)
        + charDelta a rest

theorem Edited.count {edits : List TextEdit} {before after : String} (hedited : Edited edits before after)
    (a : Char) :
    (after.toList.count a : Int) = before.toList.count a + charDelta a edits := by
  induction edits generalizing before with
  | nil =>
      rw [hedited, charDelta]
      omega
  | cons edit rest ih =>
      obtain ⟨hfound, hrest⟩ := hedited
      have hpattern : edit.oldText.toList ≠ [] := by
        intro hnone
        exact edit.nonempty (String.toList_eq_nil_iff.mp hnone)
      have hcount : (replaceUpTo edit.oldText.toList edit.newText.toList
            (occurrences edit.oldText.toList before.toList) before.toList).count a
          + occurrences edit.oldText.toList before.toList * edit.oldText.toList.count a
        = before.toList.count a
          + occurrences edit.oldText.toList before.toList * edit.newText.toList.count a :=
        count_replaceUpTo hpattern a
      rw [hfound] at hcount
      have hnext := ih hrest
      rw [String.toList_ofList] at hnext
      rw [hnext, charDelta, Int.mul_sub]
      push_cast [← Int.natCast_inj] at hcount
      omega

/-! ### Runs -/

section Runs

variable [InputModels] {surroundings : FileSurroundings} {resolvePath : String → Except String String}
  {stored stored' : Files} {context context' : ToolContext} {tool : MutationTool} {arguments : Json}
  {mutation : FileMutation} {path output : String}

theorem FileMutation.edits_of_read (hread : FileMutation.read tool arguments = some mutation)
    (htool : tool = .replaceText ∨ tool = .applyPatch) :
    (∃ edit, mutation.change = .replace edit) ∨ ∃ edits, mutation.change = .patch edits := by
  obtain ⟨change, hchange, hread⟩ := Option.bind_eq_some_iff.mp hread
  obtain ⟨asked, -, hread⟩ := Option.bind_eq_some_iff.mp hread
  split at hread
  · cases hread
    rcases htool with rfl | rfl
    · obtain ⟨-, -, hchange⟩ := Option.bind_eq_some_iff.mp hchange
      obtain ⟨edit, -, hchange⟩ := Option.bind_eq_some_iff.mp hchange
      cases hchange
      exact Or.inl ⟨edit, rfl⟩
    · obtain ⟨-, -, hchange⟩ := Option.bind_eq_some_iff.mp hchange
      split at hchange
      · obtain ⟨-, -, hchange⟩ := Option.bind_eq_some_iff.mp hchange
        obtain ⟨edits, -, hchange⟩ := Option.bind_eq_some_iff.mp hchange
        cases hchange
        exact Or.inr ⟨edits, rfl⟩
      · cases hchange
  · cases hread

/-- A run that succeeds writes the text that its preview has found, and no other file. -/
theorem MutationTool.run_eq_ok
    (hrun : tool.run surroundings resolvePath stored context arguments = (.ok output, context', stored')) :
    ∃ preview, previewFileMutation surroundings resolvePath tool (readText stored) none arguments
        = .ok preview ∧ stored' = stored.write preview.path preview.targetContent := by
  unfold MutationTool.run at hrun
  split at hrun
  · cases hrun
  · rename_i preview hpreview
    cases hrun
    exact ⟨preview, hpreview, rfl⟩

/-- The preview of an edit makes it in what is read of the file. -/
theorem previewFileMutation_edits {preview : FileMutationPreview} {text : String}
    (hread : FileMutation.read tool arguments = some mutation)
    (hedits : (∃ edit, mutation.change = .replace edit) ∨ ∃ edits, mutation.change = .patch edits)
    (hpath : resolvePath mutation.path = .ok path) {files : Files} (hfile : files path = some text)
    (hpreview : previewFileMutation surroundings resolvePath tool files none arguments = .ok preview) :
    preview.path = path ∧ preview.originalContent = some text
      ∧ Edited mutation.change.edits text preview.targetContent := by
  unfold previewFileMutation at hpreview
  rw [hread] at hpreview
  dsimp only at hpreview
  rw [hpath] at hpreview
  have hrest : (do
      let original ← surroundings.baseline files none path mutation.path
      let target ← mutation.change.apply original
      return ({ path, originalContent := some original, targetContent := target } :
        FileMutationPreview)) = Except.ok preview := by
    rcases hedits with ⟨edit, hchange⟩ | ⟨edits, hchange⟩ <;> rw [hchange] at hpreview ⊢ <;>
      exact hpreview
  have horiginal : surroundings.baseline files none path mutation.path = .ok text := by
    unfold FileSurroundings.baseline FileSurroundings.read
    rw [hfile]
  obtain ⟨original, hsame, hrest⟩ := Except.bind_eq_ok_iff.mp hrest
  cases horiginal.symm.trans hsame
  obtain ⟨target, htarget, hrest⟩ := Except.bind_eq_ok_iff.mp hrest
  cases hrest
  exact ⟨rfl, rfl, (FileChange.apply_eq_ok hedits).mp htarget⟩

/-- A successful edit of a file replaces in it just what it counted, and changes nothing else, if and
only if the file held no carriage return. -/
theorem edited_in_place_iff (hread : FileMutation.read tool arguments = some mutation)
    (htool : tool = .replaceText ∨ tool = .applyPatch) (hpath : resolvePath mutation.path = .ok path)
    {old : String} (hfile : stored path = some old)
    (hrun : tool.run surroundings resolvePath stored context arguments = (.ok output, context', stored')) :
    (∃ new, stored' = stored.write path new ∧ Edited mutation.change.edits old new)
      ↔ '\r' ∉ old.toList := by
  obtain ⟨preview, hpreview, rfl⟩ := MutationTool.run_eq_ok hrun
  have hseen : readText stored path = some (String.ofList (universalNewlines old.toList)) := by
    unfold readText
    rw [hfile]
    rfl
  obtain ⟨hwritten, -, hedited⟩ := previewFileMutation_edits hread
    (FileMutation.edits_of_read hread htool) hpath hseen hpreview
  constructor
  · rintro ⟨new, hnew, hraw⟩
    have hsame : preview.targetContent = new := by
      have hat := congrFun hnew path
      rw [hwritten] at hat
      simpa [Files.write] using hat
    have hcount := hraw.count '\r'
    have hread := hedited.count '\r'
    rw [String.toList_ofList, List.count_eq_zero_of_not_mem (not_mem_universalNewlines _)] at hread
    rw [← hsame] at hcount
    exact List.count_eq_zero.mp (by omega)
  · intro hnone
    rw [universalNewlines_eq hnone, String.ofList_toList] at hedited
    exact ⟨preview.targetContent, by rw [hwritten], hedited⟩

end Runs

/-! ### A file with carriage returns -/

section Samples

namespace Sample

@[reducible] def inputModels : InputModels where
  readInt
    | .int n => some n
    | _ => none
  readInt_int _ := rfl
  errorText toolName _ := toolName

def surroundings : FileSurroundings where
  obstacle _ := none
  hasParent _ := true
  missingText path := path
  undecodableText path := path

/-- One file with the text. -/
def oneFile (text : String) : Files := fun path => if path = "a.py" then some text else none

def replaceB : Json :=
  .obj [("new_text", .str "c"), ("old_text", .str "b"), ("path", .str "a.py")]

theorem editB_nonempty : "b" ≠ "" := by decide

theorem editB_atLeast : 1 ≤ 1 := by decide

theorem editB_atMost : 1 ≤ 1000 := by decide

def editB : TextEdit where
  oldText := "b"
  newText := "c"
  nonempty := editB_nonempty
  atLeast := editB_atLeast
  atMost := editB_atMost

theorem mutationB_named : "a.py" ≠ "" := by decide

def mutationB : FileMutation where
  path := "a.py"
  change := .replace editB
  named := mutationB_named

/-- The run of the edit on the file. -/
def runB [InputModels] (text : String) : Except ToolError String × ToolContext × Files :=
  MutationTool.replaceText.run surroundings .ok (oneFile text) {} replaceB

end Sample

local instance editedFilesInputs : InputModels := Sample.inputModels

theorem edited_in_place_unix :
    ∃ new, (Sample.runB "a\nb\n").2.2 = (Sample.oneFile "a\nb\n").write "a.py" new
      ∧ Edited [Sample.editB] "a\nb\n" new := by
  obtain ⟨output, context, stored, hrun⟩ : ∃ output context stored,
      Sample.runB "a\nb\n" = (.ok output, context, stored) := ⟨_, _, _, rfl⟩
  have hread : FileMutation.read .replaceText Sample.replaceB = some Sample.mutationB := rfl
  have hfile : Sample.oneFile "a\nb\n" "a.py" = some "a\nb\n" := rfl
  rw [hrun]
  exact (edited_in_place_iff hread (Or.inl rfl) rfl hfile hrun).mpr (by decide)

/-- The edit of one letter also takes the carriage returns out of the file. -/
theorem edited_file_loses_returns :
    (Sample.runB "a\r\nb\r\n").1 = .ok "updated a.py (1 replacement(s))"
      ∧ (Sample.runB "a\r\nb\r\n").2.2 "a.py" = some "a\nc\n"
      ∧ ¬ ∃ new, (Sample.runB "a\r\nb\r\n").2.2 = (Sample.oneFile "a\r\nb\r\n").write "a.py" new
        ∧ Edited [Sample.editB] "a\r\nb\r\n" new := by
  have hafter : (Sample.runB "a\r\nb\r\n").2.2 "a.py" = some "a\nc\n" := by decide +kernel
  refine ⟨by decide +kernel, hafter, ?_⟩
  rintro ⟨new, hnew, -, hedited⟩
  rw [hnew] at hafter
  have hsame : some new = some "a\nc\n" := hafter
  rw [Option.some.inj hsame] at hedited
  have hkept : "a\nc\n" = String.ofList (replaceUpTo "b".toList "c".toList 1 "a\r\nb\r\n".toList) :=
    hedited
  exact absurd hkept (by decide +kernel)

end Samples

end PatchLoop
