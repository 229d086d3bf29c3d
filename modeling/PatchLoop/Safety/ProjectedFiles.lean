import PatchLoop.Runtime.Effects
import PatchLoop.Safety.EditedFiles

/-!
# Prepared mutations and their execution

A batch is prepared against the files as they are, where the target of an earlier call stands for its file.
As long as no target holds a carriage return, the calls find in turn just what was prepared for them. A
carriage return in a target is read back as a line feed, and the digest that was prepared is never seen.
-/

namespace PatchLoop

section Previews

variable [InputModels] {surroundings : FileSurroundings}
  {resolvePath : String → Except String String} {tool : MutationTool} {files : Files}
  {current : Option String} {arguments : Json} {preview : FileMutationPreview}

/-- The change makes a new file. -/
def FileChange.Creates : FileChange → Prop
  | .create _ => True
  | _ => False

/-- What a preview found. -/
structure Previews (surroundings : FileSurroundings) (files : Files) (current : Option String)
    (mutation : FileMutation) (preview : FileMutationPreview) : Prop where
  created : mutation.change.Creates → current = none ∧ ¬ surroundings.Exists files preview.path
    ∧ surroundings.hasParent preview.path = true ∧ preview.originalContent = none
    ∧ mutation.change.apply "" = .ok preview.targetContent
  changed : ¬ mutation.change.Creates → ∃ original,
    surroundings.baseline files current preview.path mutation.path = .ok original
      ∧ preview.originalContent = some original
      ∧ mutation.change.apply original = .ok preview.targetContent

theorem previewFileMutation_eq_ok :
    previewFileMutation surroundings resolvePath tool files current arguments = .ok preview
      ↔ ∃ mutation, FileMutation.read tool arguments = some mutation
        ∧ resolvePath mutation.path = .ok preview.path
        ∧ Previews surroundings files current mutation preview := by
  unfold previewFileMutation
  cases hread : FileMutation.read tool arguments with
  | none => exact ⟨fun hok => (by cases hok), fun ⟨_, hsome, _⟩ => (by cases hsome)⟩
  | some mutation =>
      simp only [Option.some.injEq, exists_eq_left', Except.bind_eq_ok_iff, Except.mapError_eq_ok_iff]
      constructor
      · rintro ⟨path, hpath, hrest⟩
        split at hrest
        · rename_i content hchange
          split at hrest
          · cases hrest
          rename_i hfree
          split at hrest
          · cases hrest
          rename_i hparent
          cases hrest
          rw [not_or, not_and] at hfree
          have hnone : current = none := Option.not_isSome_iff_eq_none.mp hfree.1
          refine ⟨hpath, fun _ => ⟨hnone, hfree.2 hnone, by simpa using hparent, rfl, ?_⟩, ?_⟩
          · rw [hchange]
            rfl
          · intro hnot
            rw [hchange] at hnot
            exact absurd trivial hnot
        · rename_i hchange
          obtain ⟨original, hbaseline, hrest⟩ := Except.bind_eq_ok_iff.mp hrest
          obtain ⟨target, htarget, hrest⟩ := Except.bind_eq_ok_iff.mp hrest
          cases hrest
          refine ⟨hpath, fun hcreates => ?_, fun _ => ⟨original, hbaseline, rfl, htarget⟩⟩
          cases hkind : mutation.change with
          | create content => exact absurd hkind (hchange content)
          | write content =>
              rw [hkind] at hcreates
              cases hcreates
          | replace edit =>
              rw [hkind] at hcreates
              cases hcreates
          | patch edits =>
              rw [hkind] at hcreates
              cases hcreates
      · rintro ⟨hpath, hfound⟩
        refine ⟨preview.path, hpath, ?_⟩
        have hrest (hnot : ¬ mutation.change.Creates) : (do
            let original ← surroundings.baseline files current preview.path mutation.path
            let target ← mutation.change.apply original
            return ({ path := preview.path, originalContent := some original,
                      targetContent := target } : FileMutationPreview)) = Except.ok preview := by
          obtain ⟨original, hbaseline, horiginal, htarget⟩ := hfound.changed hnot
          rw [hbaseline]
          refine Except.bind_eq_ok_iff.mpr ⟨original, rfl, ?_⟩
          rw [htarget]
          refine Except.bind_eq_ok_iff.mpr ⟨_, rfl, ?_⟩
          rw [← horiginal]
          rfl
        cases hkind : mutation.change with
        | create content =>
            obtain ⟨hnone, hfree, hparent, horiginal, htarget⟩ := hfound.created
              (by rw [hkind]; trivial)
            rw [hkind] at htarget
            cases htarget
            have hopen : ¬ (current.isSome = true
                ∨ current = none ∧ surroundings.Exists files preview.path) := by
              rw [hnone]
              simpa using hfree
            dsimp only
            rw [if_neg hopen, if_neg (by simp [hparent]), ← horiginal]
            rfl
        | write content =>
            rw [hkind] at hrest
            exact hrest id
        | replace edit =>
            rw [hkind] at hrest
            exact hrest id
        | patch edits =>
            rw [hkind] at hrest
            exact hrest id

omit [InputModels] in
theorem FileSurroundings.read_eq_ok {path asked text : String} :
    surroundings.read files path asked = .ok text ↔ files path = some text := by
  unfold FileSurroundings.read
  cases hfile : files path with
  | some found => exact ⟨fun hok => congrArg some (Except.ok.inj hok),
      fun hsome => congrArg Except.ok (Option.some.inj hsome)⟩
  | none =>
      refine ⟨fun hok => ?_, fun hsome => (by cases hsome)⟩
      cases hobstacle : surroundings.obstacle path with
      | none =>
          rw [hobstacle] at hok
          cases hok
      | some obstacle =>
          rw [hobstacle] at hok
          cases obstacle <;> cases hok

/-- What was previewed for a projected content is found again once the files hold it. -/
theorem previewFileMutation_again {later : Files}
    (hpreview : previewFileMutation surroundings resolvePath tool files current arguments = .ok preview)
    (hsame : later preview.path = (current.orElse fun _ => files preview.path)) :
    previewFileMutation surroundings resolvePath tool later none arguments = .ok preview := by
  obtain ⟨mutation, hread, hpath, hfound⟩ := previewFileMutation_eq_ok.mp hpreview
  refine previewFileMutation_eq_ok.mpr ⟨mutation, hread, hpath, fun hcreates => ?_, fun hnot => ?_⟩
  · obtain ⟨rfl, hfree, hrest⟩ := hfound.created hcreates
    refine ⟨rfl, fun hexists => hfree ?_, hrest⟩
    unfold FileSurroundings.Exists at hexists ⊢
    rwa [hsame] at hexists
  · obtain ⟨original, hbaseline, hrest⟩ := hfound.changed hnot
    refine ⟨original, ?_, hrest⟩
    cases current with
    | some content =>
        have hcontent : later preview.path = some original :=
          hsame.trans (congrArg some (Except.ok.inj hbaseline))
        exact FileSurroundings.read_eq_ok.mpr hcontent
    | none =>
        have hfile : files preview.path = some original := FileSurroundings.read_eq_ok.mp hbaseline
        exact FileSurroundings.read_eq_ok.mpr (hsame.trans hfile)

/-- Without a projected content, the content that is found is the file's. -/
theorem originalContent_of_preview
    (hpreview : previewFileMutation surroundings resolvePath tool files none arguments = .ok preview) :
    preview.originalContent = files preview.path := by
  obtain ⟨mutation, -, -, hfound⟩ := previewFileMutation_eq_ok.mp hpreview
  by_cases hcreates : mutation.change.Creates
  · obtain ⟨-, hfree, -, horiginal, -⟩ := hfound.created hcreates
    rw [horiginal]
    cases hfile : files preview.path with
    | none => rfl
    | some text => exact absurd (Or.inl (by rw [hfile]; rfl)) hfree
  · obtain ⟨original, hbaseline, horiginal, -⟩ := hfound.changed hcreates
    rw [horiginal]
    exact (FileSurroundings.read_eq_ok.mp hbaseline).symm

/-- The carriage returns that a change leaves in a text that had none. -/
def FileChange.returns : FileChange → Int
  | .create content | .write content => content.toList.count '\r'
  | .replace edit => charDelta '\r' [edit]
  | .patch edits => charDelta '\r' edits

omit [InputModels] in
theorem FileChange.count_returns {change : FileChange} {before after : String}
    (happly : change.apply before = .ok after) (hnone : '\r' ∉ before.toList) :
    (after.toList.count '\r' : Int) = change.returns := by
  have hzero := List.count_eq_zero_of_not_mem hnone
  cases change with
  | create content =>
      cases happly
      rfl
  | write content =>
      cases happly
      rfl
  | replace edit =>
      have hcount := ((FileChange.apply_eq_ok (Or.inl ⟨edit, rfl⟩)).mp happly).count '\r'
      rw [hcount, hzero]
      exact Int.zero_add _
  | patch edits =>
      have hcount := ((FileChange.apply_eq_ok (Or.inr ⟨edits, rfl⟩)).mp happly).count '\r'
      rw [hcount, hzero]
      exact Int.zero_add _

/-- Whether a target holds a carriage return is seen from the arguments. -/
theorem not_mem_target_iff {mutation : FileMutation}
    (hread : FileMutation.read tool arguments = some mutation)
    (hpreview : previewFileMutation surroundings resolvePath tool files none arguments = .ok preview)
    (hclean : ∀ text ∈ files preview.path, '\r' ∉ text.toList) :
    '\r' ∉ preview.targetContent.toList ↔ mutation.change.returns = 0 := by
  obtain ⟨found, hfound, -, hpreviews⟩ := previewFileMutation_eq_ok.mp hpreview
  cases hread.symm.trans hfound
  have hcount : (preview.targetContent.toList.count '\r' : Int) = mutation.change.returns := by
    by_cases hcreates : mutation.change.Creates
    · obtain ⟨-, -, -, -, htarget⟩ := hpreviews.created hcreates
      exact FileChange.count_returns htarget List.not_mem_nil
    · obtain ⟨original, hbaseline, -, htarget⟩ := hpreviews.changed hcreates
      exact FileChange.count_returns htarget
        (hclean original (FileSurroundings.read_eq_ok.mp hbaseline))
  rw [← List.count_eq_zero, ← hcount]
  omega

end Previews

/-! ### Executing a batch -/

section Batches

variable [InputModels]

def MutationTool.ofName? (name : String) : Option MutationTool :=
  [MutationTool.createFile, .writeFile, .replaceText, .applyPatch].find? (·.name = name)

omit [InputModels] in
theorem MutationTool.ofName?_name (tool : MutationTool) :
    MutationTool.ofName? tool.name = some tool := by
  cases tool <;> rfl

/-- The files after the call of an effect, with the arguments that were prepared. -/
def runEffect (gateway : ToolGateway) (surroundings : FileSurroundings) (stored : Files)
    (effect : Effect) : Files :=
  match MutationTool.ofName? effect.toolName with
  | some tool =>
      (tool.run surroundings gateway.resolvePath stored {} effect.argumentsSummary).2.2
  | none => stored

/-- The effects without preparation error, executed in order, each with the files before and after it. -/
def executeAll (gateway : ToolGateway) (surroundings : FileSurroundings) :
    Files → List Effect → List (Effect × Files × Files)
  | _, [] => []
  | stored, effect :: rest =>
      if effect.preparationError = none then
        (effect, stored, runEffect gateway surroundings stored effect)
          :: executeAll gateway surroundings (runEffect gateway surroundings stored effect) rest
      else executeAll gateway surroundings stored rest

/-- The carriage returns that the call of an effect leaves. -/
def Effect.returns (effect : Effect) : Int :=
  match (MutationTool.ofName? effect.toolName).bind fun tool =>
      FileMutation.read tool effect.argumentsSummary with
  | some mutation => mutation.change.returns
  | none => 0

/-- The execution of an effect goes as it was prepared. -/
structure Effect.Confirmed [Sha256] (gateway : ToolGateway) (effect : Effect) (before after : Files) :
    Prop where
  asserted : assertFilePreconditions gateway (readText before) effect = .ok ()
  observed : ∀ precondition ∈ effect.filePreconditions, ∃ path,
    gateway.resolvePath precondition.path = .ok path
      ∧ (readText after path).map contentDigest = some precondition.targetSha256
  reconciled : ∃ evidence result, reconcileEffect gateway (readText after) effect none
    = .ok (.confirmedResult evidence result)

/-! ### What a batch prepares -/

variable [Sha256] {gateway : ToolGateway} {surroundings : FileSurroundings} {files : Files}
  {projected : List (String × String)} {effects : List Effect}

/-- An effect prepared with a preview against the projected files, and that preview. -/
structure Effect.PreparedWith (gateway : ToolGateway) (surroundings : FileSurroundings) (files : Files)
    (projected : List (String × String)) (effect : Effect) (tool : MutationTool)
    (preview : FileMutationPreview) : Prop where
  named : effect.toolName = tool.name
  previewed : previewFileMutation surroundings gateway.resolvePath tool files
    (projected.lookup preview.path) effect.argumentsSummary = .ok preview
  expected : effect.filePreconditions = [preview.precondition]

/-- The effects follow from the projected files, and each target is projected for the rest. -/
inductive Projects (gateway : ToolGateway) (surroundings : FileSurroundings) (files : Files) :
    List (String × String) → List Effect → Prop where
  | nil (projected : List (String × String)) : Projects gateway surroundings files projected []
  | failed (projected : List (String × String)) (effect : Effect) (rest : List Effect)
      (herror : effect.preparationError ≠ none)
      (hrest : Projects gateway surroundings files projected rest) :
      Projects gateway surroundings files projected (effect :: rest)
  | prepared (projected : List (String × String)) (effect : Effect) (rest : List Effect)
      (tool : MutationTool) (preview : FileMutationPreview) (hnone : effect.preparationError = none)
      (hprepared : effect.PreparedWith gateway surroundings files projected tool preview)
      (hrest : Projects gateway surroundings files
        ((preview.path, preview.targetContent) :: projected) rest) :
      Projects gateway surroundings files projected (effect :: rest)

variable [Uuid5] {context : ToolContext} {taskId : String} {step : AgentStep} {call : ToolCall}
  {batch : Batch}

/-- The call is one of a write tool. -/
def ToolGateway.Writes (gateway : ToolGateway) (surroundings : FileSurroundings) (call : ToolCall) :
    Prop :=
  ∃ tool : MutationTool,
    gateway.tool? call.name = some (tool.tool surroundings gateway.resolvePath)

omit [Sha256] [Uuid5] in
theorem textField_of_read {tool : MutationTool} {arguments : Json} {mutation : FileMutation}
    (hread : FileMutation.read tool arguments = some mutation) :
    arguments.get? "path" = some (.str mutation.path) := by
  obtain ⟨change, -, hread⟩ := Option.bind_eq_some_iff.mp hread
  obtain ⟨path, hfield, hread⟩ := Option.bind_eq_some_iff.mp hread
  split at hread
  · cases hread
    unfold Json.textField at hfield
    split at hfield
    · rename_i text htext
      cases hfield
      exact htext
    · cases hfield
  · cases hread

omit [Sha256] [Uuid5] in
theorem previewMutation_writes {tool : MutationTool} {normalized : Json}
    {found : Option FileMutationPreview}
    (htool : gateway.tool? call.name = some (tool.tool surroundings gateway.resolvePath))
    (hmutation : gateway.previewMutation files projected call normalized = .ok found) :
    ∃ preview, found = some preview ∧ previewFileMutation surroundings gateway.resolvePath tool files
      (projected.lookup preview.path) normalized = .ok preview := by
  unfold ToolGateway.previewMutation at hmutation
  rw [htool] at hmutation
  dsimp only [Option.map_some, MutationTool.tool] at hmutation
  split at hmutation
  · rename_i rawPath hraw
    obtain ⟨path, hpath, hmutation⟩ := Except.bind_eq_ok_iff.mp hmutation
    split at hmutation
    · rename_i preview hpreview
      cases hmutation
      obtain ⟨mutation, hread, hresolved, -⟩ := previewFileMutation_eq_ok.mp hpreview
      have hsame : mutation.path = rawPath := by
        have hboth := (textField_of_read hread).symm.trans hraw
        injection hboth with hstr
        injection hstr
      rw [hsame] at hresolved
      cases hpath.symm.trans hresolved
      exact ⟨preview, rfl, hpreview⟩
    · cases hmutation
  · cases hmutation

/-- One more effect: one with an error, or one prepared against the projected files. -/
def Batch.Adds (gateway : ToolGateway) (surroundings : FileSurroundings) (files : Files)
    (batch next : Batch) : Prop :=
  ∃ effect, next.effects = batch.effects ++ [effect]
    ∧ ((effect.preparationError ≠ none ∧ next.projected = batch.projected)
      ∨ effect.preparationError = none ∧ ∃ tool preview,
        effect.PreparedWith gateway surroundings files batch.projected tool preview
          ∧ next.projected = (preview.path, preview.targetContent) :: batch.projected)

theorem prepareEffect_adds (hwrites : gateway.Writes surroundings call) :
    batch.Adds gateway surroundings files
      (prepareEffect gateway context files taskId step batch call) := by
  obtain ⟨tool, htool⟩ := hwrites
  have hname : call.name = tool.name := by
    have hfound := List.find?_some htool
    exact (of_decide_eq_true hfound).symm
  unfold Batch.Adds prepareEffect
  dsimp only
  cases herror : (gateway.prepareCall context call).error with
  | some text =>
      rw [if_neg (fun hboth => by cases hboth.2)]
      exact ⟨_, rfl, Or.inl ⟨Option.some_ne_none text, rfl⟩⟩
  | none =>
      have hkind : (gateway.prepareCall context call).actionKind = "write" := by
        unfold ToolGateway.prepareCall
        rw [htool]
        dsimp only
        split
        · rfl
        · split <;> rfl
      rw [if_pos ⟨hkind, rfl⟩]
      cases hmutation : gateway.previewMutation files batch.projected call
          (gateway.prepareCall context call).normalizedArguments with
      | error text => exact ⟨_, rfl, Or.inl ⟨Option.some_ne_none text, rfl⟩⟩
      | ok found =>
          obtain ⟨preview, rfl, hpreview⟩ := previewMutation_writes htool hmutation
          exact ⟨_, rfl, Or.inr ⟨rfl, tool, preview, ⟨hname, hpreview, rfl⟩, rfl⟩⟩

/-- The calls of a response, prepared in order. -/
theorem prepareEffects_project {calls : List ToolCall}
    (hwrites : ∀ call ∈ calls, gateway.Writes surroundings call) :
    ∃ effects, (calls.foldl (prepareEffect gateway context files taskId step) batch).effects
        = batch.effects ++ effects
      ∧ Projects gateway surroundings files batch.projected effects := by
  induction calls generalizing batch with
  | nil => exact ⟨[], (List.append_nil _).symm, .nil _⟩
  | cons call rest ih =>
      have hadds : batch.Adds gateway surroundings files
          (prepareEffect gateway context files taskId step batch call) :=
        prepareEffect_adds (hwrites call List.mem_cons_self)
      obtain ⟨effect, heffects, hcases⟩ := hadds
      obtain ⟨later, hlater, hprojects⟩ := @ih
        (prepareEffect gateway context files taskId step batch call)
        (fun call hcall => hwrites call (List.mem_cons_of_mem _ hcall))
      refine ⟨effect :: later, ?_, ?_⟩
      · rw [List.foldl_cons, hlater, heffects, List.append_assoc, List.singleton_append]
      · rcases hcases with ⟨herror, hsame⟩ | ⟨hnone, tool, preview, hprepared, hsame⟩
        · rw [hsame] at hprojects
          exact .failed _ _ _ herror hprojects
        · rw [hsame] at hprojects
          exact .prepared _ _ _ tool preview hnone hprepared hprojects

/-! ### The execution of a prepared effect -/

/-- Paths that were resolved resolve to themselves. -/
def ToolGateway.ResolvesAgain (gateway : ToolGateway) : Prop :=
  ∀ asked path, gateway.resolvePath asked = .ok path → gateway.resolvePath path = .ok path

/-- The digest of a text tells it from what is read back of it. -/
def TellsReturns : Prop :=
  ∀ text : String, contentDigest (String.ofList (universalNewlines text.toList)) = contentDigest text →
    universalNewlines text.toList = text.toList

variable {stored : Files} {effect : Effect} {tool : MutationTool} {preview : FileMutationPreview}

omit [InputModels] [Sha256] [Uuid5] in
theorem readText_write (path target : String) (other : String) :
    readText (stored.write path target) other = if other = path then
      some (String.ofList (universalNewlines target.toList)) else readText stored other := by
  unfold readText Files.write
  split <;> rfl

omit [InputModels] [Uuid5] in
theorem readBack_iff (htells : TellsReturns) (path target : String) :
    (readText (stored.write path target) path).map contentDigest = some (contentDigest target)
      ↔ '\r' ∉ target.toList := by
  rw [readText_write, if_pos rfl, Option.map_some, Option.some.injEq]
  constructor
  · intro hsame
    rw [← htells target hsame]
    exact not_mem_universalNewlines _
  · intro hnone
    rw [universalNewlines_eq hnone, String.ofList_toList]

omit [Uuid5] in
/-- The execution goes as prepared exactly if the target holds no carriage return. -/
theorem confirmed_iff (htells : TellsReturns) (hagain : gateway.ResolvesAgain)
    (hpreview : previewFileMutation surroundings gateway.resolvePath tool (readText stored) none
      effect.argumentsSummary = .ok preview)
    (hexpected : effect.filePreconditions = [preview.precondition]) :
    effect.Confirmed gateway stored (stored.write preview.path preview.targetContent)
      ↔ '\r' ∉ preview.targetContent.toList := by
  obtain ⟨mutation, -, hpath, -⟩ := previewFileMutation_eq_ok.mp hpreview
  have hresolved := hagain _ _ hpath
  have hback : (readText (stored.write preview.path preview.targetContent) preview.path).map
      contentDigest = some (contentDigest preview.targetContent) ↔ _ :=
    readBack_iff htells preview.path preview.targetContent
  constructor
  · intro hconfirmed
    obtain ⟨path, hsame, hobserved⟩ := hconfirmed.observed preview.precondition
      (by rw [hexpected]; exact List.mem_singleton_self _)
    cases hresolved.symm.trans hsame
    exact hback.mp hobserved
  · intro hnone
    have hobserved := hback.mpr hnone
    refine ⟨?_, ?_, ?_⟩
    · have horiginal := originalContent_of_preview hpreview
      unfold assertFilePreconditions
      rw [hexpected]
      have hcheck : preview.precondition.check gateway (readText stored) = .ok () := by
        unfold FileEffectPrecondition.check
        refine Except.bind_eq_ok_iff.mpr ⟨preview.path, hresolved, if_neg ?_⟩
        rw [not_or, not_and]
        exact ⟨not_not.mpr (congrArg Option.isSome horiginal.symm),
          fun _ => not_not.mpr (congrArg (Option.map contentDigest) horiginal.symm)⟩
      exact Except.bind_eq_ok_iff.mpr ⟨(), hcheck, rfl⟩
    · intro precondition hmem
      rw [hexpected, List.mem_singleton] at hmem
      rw [hmem]
      exact ⟨preview.path, hresolved, hobserved⟩
    · unfold reconcileEffect
      rw [hexpected]
      dsimp only
      rw [if_neg (List.cons_ne_nil _ _)]
      have hobserve : ∃ evidence, preview.precondition.observe gateway
          (readText (stored.write preview.path preview.targetContent)) = .ok (evidence, true) := by
        unfold FileEffectPrecondition.observe
        have hpath : gateway.resolvePath preview.precondition.path = .ok preview.path := hresolved
        rw [hpath]
        exact ⟨_, congrArg Except.ok (Prod.ext rfl (decide_eq_true hobserved))⟩
      obtain ⟨evidence, hobserve⟩ := hobserve
      refine ⟨_, _, Except.bind_eq_ok_iff.mpr ⟨[(evidence, true)], ?_, rfl⟩⟩
      rw [List.mapM_cons, hobserve]
      rfl

omit [Sha256] [Uuid5] in
theorem runEffect_eq (hnamed : effect.toolName = tool.name)
    (hpreview : previewFileMutation surroundings gateway.resolvePath tool (readText stored) none
      effect.argumentsSummary = .ok preview) :
    runEffect gateway surroundings stored effect
      = stored.write preview.path preview.targetContent := by
  unfold runEffect
  rw [hnamed, MutationTool.ofName?_name]
  dsimp only
  unfold MutationTool.run
  rw [hpreview]

omit [InputModels] [Sha256] [Uuid5] in
/-- A target without carriage returns is read as it was projected. -/
theorem projected_written {path target : String}
    (hseen : ∀ path, readText stored path = (projected.lookup path).orElse fun _ => files path)
    (hnone : '\r' ∉ target.toList) (other : String) :
    readText (stored.write path target) other
      = (((path, target) :: projected).lookup other).orElse fun _ => files other := by
  rw [readText_write, List.lookup_cons]
  by_cases hother : other = path
  · rw [if_pos hother, universalNewlines_eq hnone, String.ofList_toList, hother, beq_self_eq_true]
    rfl
  · rw [if_neg hother, hseen, beq_eq_false_iff_ne.mpr hother]

omit [Uuid5] in
/-- Along the effects, the projected files are what is read until a first effect leaves a carriage
return, and there the execution does not go as prepared. -/
theorem executed_confirmed_iff (htells : TellsReturns) (hagain : gateway.ResolvesAgain)
    (hprojects : Projects gateway surroundings files projected effects)
    (hseen : ∀ path, readText stored path = (projected.lookup path).orElse fun _ => files path) :
    (∀ run ∈ executeAll gateway surroundings stored effects,
        run.1.Confirmed gateway run.2.1 run.2.2)
      ↔ ∀ effect ∈ effects, effect.preparationError = none → effect.returns = 0 := by
  induction hprojects generalizing stored with
  | nil projected => simp [executeAll]
  | failed projected effect rest herror hrest ih =>
      rw [executeAll, if_neg herror, ih hseen, List.forall_mem_cons]
      exact ⟨fun hall => ⟨fun hnone => absurd hnone herror, hall⟩, And.right⟩
  | prepared projected effect rest tool preview hnone hprepared hrest ih =>
      obtain ⟨hnamed, hpreviewed, hexpected⟩ := hprepared
      have hpreview := previewFileMutation_again hpreviewed (hseen preview.path)
      have hclean : ∀ text ∈ readText stored preview.path, '\r' ∉ text.toList := by
        intro text htext
        obtain ⟨raw, -, rfl⟩ := Option.map_eq_some_iff.mp htext
        rw [String.toList_ofList]
        exact not_mem_universalNewlines _
      have hreturns : '\r' ∉ preview.targetContent.toList ↔ effect.returns = 0 := by
        obtain ⟨mutation, hread, -, -⟩ := previewFileMutation_eq_ok.mp hpreview
        have hsame : effect.returns = mutation.change.returns := by
          unfold Effect.returns
          rw [hnamed, MutationTool.ofName?_name, Option.bind_some, hread]
        rw [hsame]
        exact not_mem_target_iff hread hpreview hclean
      rw [executeAll, if_pos hnone, runEffect_eq hnamed hpreview, List.forall_mem_cons,
        List.forall_mem_cons, confirmed_iff htells hagain hpreview hexpected, hreturns]
      constructor
      · rintro ⟨hzero, hlater⟩
        refine ⟨fun _ => hzero, (ih ?_).mp hlater⟩
        exact projected_written hseen (hreturns.mpr hzero)
      · rintro ⟨hzero, hlater⟩
        refine ⟨hzero hnone, (ih ?_).mpr hlater⟩
        exact projected_written hseen (hreturns.mpr (hzero hnone))

/-- Executed in order, the effects of a batch of write calls are asserted, observed and reconciled as
they were prepared, if and only if none of them leaves a carriage return in its file. -/
theorem batch_confirmed_iff (htells : TellsReturns) (hagain : gateway.ResolvesAgain)
    {response : ModelResponse}
    (hwrites : ∀ call ∈ response.toolCalls, gateway.Writes surroundings call)
    (heffects : effects = (persistModelResponseBatch gateway context (readText stored) taskId step
      response).2.1) :
    (∀ run ∈ executeAll gateway surroundings stored effects,
        run.1.Confirmed gateway run.2.1 run.2.2)
      ↔ ∀ effect ∈ effects, effect.preparationError = none → effect.returns = 0 := by
  obtain ⟨prepared, hprepared, hprojects⟩ : ∃ effects,
      (response.toolCalls.foldl (prepareEffect gateway context (readText stored) taskId step)
        { changes := context.changes }).effects = [] ++ effects
      ∧ Projects gateway surroundings (readText stored) [] effects :=
    prepareEffects_project hwrites
  have hsame : effects = prepared := heffects.trans hprepared
  rw [hsame]
  exact executed_confirmed_iff htells hagain hprojects fun path => rfl

end Batches

/-! ### A new file and an edit of it -/

section Samples

namespace Sample

@[reducible] def writtenDigest : Sha256 := ⟨fun text => "sha256:" ++ text⟩

@[reducible] def writtenUuid5 : Uuid5 := ⟨fun name => "uuid5:" ++ name⟩

/-- A gateway with the write tools. -/
def writeTools [InputModels] : ToolGateway where
  tools := [MutationTool.createFile, .writeFile, .replaceText, .applyPatch].map fun tool =>
    tool.tool surroundings .ok
  policy := { allowedPermissions := [.read, .write], requirePlanForMutations := false }
  resolvePath := .ok

def created (content : String) : ToolCall where
  id := "call-1"
  name := "create_file"
  arguments := .obj [("content", .str content), ("path", .str "a.py")]

def edited : ToolCall where
  id := "call-2"
  name := "replace_text"
  arguments := replaceB

/-- The effects of calls on an empty repository. -/
def prepared [InputModels] [Sha256] [Uuid5] (calls : List ToolCall) : List Effect :=
  (persistModelResponseBatch writeTools {} (readText fun _ => none) "task"
    { id := "step", taskId := "task", index := 0 } { toolCalls := calls }).2.1

end Sample

local instance projectedFilesInputs : InputModels := Sample.inputModels
local instance projectedFilesDigest : Sha256 := Sample.writtenDigest
local instance projectedFilesUuid5 : Uuid5 := Sample.writtenUuid5

theorem batch_confirmed_edited :
    (executeAll Sample.writeTools Sample.surroundings (fun _ => none)
        (Sample.prepared [Sample.created "a\nb\n", Sample.edited])).Forall
      fun run => run.1.Confirmed Sample.writeTools run.2.1 run.2.2 := by
  have htells : TellsReturns := by
    intro text hsame
    have htext := (String.append_right_inj "sha256:").mp hsame
    rw [← String.toList_inj, String.toList_ofList] at htext
    exact htext
  have hwrites : ∀ call ∈ [Sample.created "a\nb\n", Sample.edited],
      Sample.writeTools.Writes Sample.surroundings call := by
    rw [List.forall_mem_cons, List.forall_mem_singleton]
    exact ⟨⟨.createFile, rfl⟩, ⟨.replaceText, rfl⟩⟩
  rw [List.forall_iff_forall_mem]
  exact (batch_confirmed_iff htells (fun _ path _ => rfl) hwrites rfl).mpr (by decide +kernel)

/-- A file that is created with a carriage return never shows the digest that was prepared for it. -/
theorem created_return_not_confirmed :
    ∃ run ∈ executeAll Sample.writeTools Sample.surroundings (fun _ => none)
        (Sample.prepared [Sample.created "a\r\n"]),
      run.1.preparationError = none ∧ ¬ run.1.Confirmed Sample.writeTools run.2.1 run.2.2 := by
  refine ⟨_, List.mem_cons_self, by decide +kernel, fun hconfirmed => ?_⟩
  obtain ⟨path, hpath, hobserved⟩ := hconfirmed.observed _ List.mem_cons_self
  cases hpath
  exact absurd hobserved (by decide +kernel)

end Samples

end PatchLoop
