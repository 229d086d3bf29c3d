import PatchLoop.Context.TaskMemory
import Mathlib.Logic.Relation

/-!
# Fitting the task memory

The loop of `_fit_memory`, round by round. Every round that goes on makes the memory smaller, so that the loop
ends; what it ends with has the entries that the memory began with, as far as they are kept.
-/

namespace PatchLoop

namespace TaskMemory

/-- A round of the loop: it goes on with a smaller memory, or returns. -/
def fitRound (memory : TaskMemory) (tokenLimit : Int) (role : MessageRole) :
    TaskMemory ⊕ Option (TaskMemory × ModelMessage) :=
  if estimateMessages [memory.message role] ≤ tokenLimit then .inr (some (memory, memory.message role))
  else
    match memory.shrink with
    | some smaller => .inl smaller
    | none =>
        .inr (if estimateMessages [memory.minimal.message role] ≤ tokenLimit then
          some (memory.minimal, memory.minimal.message role) else none)

/-- `_fit_memory`: what it returns, if it does in that many rounds. -/
def fitMemory (tokenLimit : Int) (role : MessageRole) :
    Nat → TaskMemory → Option (Option (TaskMemory × ModelMessage))
  | 0, _ => none
  | rounds + 1, memory =>
      match memory.fitRound tokenLimit role with
      | .inl smaller => fitMemory tokenLimit role rounds smaller
      | .inr result => some result

/-! ### What is kept -/

/-- One text is a longer one that has been truncated. -/
def Truncates (text short : String) : Prop := 100 < text.length ∧ short = truncateText text 100

/-- What becomes of a text that is truncated until it is short enough. -/
def Shortened (short text : String) : Prop := Relation.ReflTransGen Truncates text short

theorem Truncates.length_lt {text short : String} (htruncates : Truncates text short) :
    short.length < text.length := by
  obtain ⟨hlong, rfl⟩ := htruncates
  exact length_truncateText hlong (by decide)

theorem Shortened.length_le {short text : String} (hshort : Shortened short text) :
    short.length ≤ text.length := by
  induction hshort with
  | refl => exact Nat.le_refl _
  | tail _ hlast ih => exact Nat.le_trans (Nat.le_of_lt hlast.length_lt) ih

/-- The evidence with a shortened summary. -/
def SummaryShortened (short evidence : MemoryEvidence) : Prop :=
  short = { evidence with summary := short.summary } ∧ Shortened short.summary evidence.summary

/-- A prefix, but that its first entry may have been shortened. -/
def PrefixButFirst {α : Type} (Short : α → α → Prop) : List α → List α → Prop
  | [], _ => True
  | _ :: _, [] => False
  | short :: kept, first :: rest => Short short first ∧ kept <+: rest

/-- The lists of a memory are those of another, cut down. -/
structure CutFrom (cut memory : TaskMemory) : Prop where
  omittedStepCount : cut.omittedStepCount = memory.omittedStepCount
  omittedStepIndices : cut.omittedStepIndices = memory.omittedStepIndices
  unfinishedItems : PrefixButFirst Shortened cut.unfinishedItems memory.unfinishedItems
  keyEvidence : PrefixButFirst SummaryShortened cut.keyEvidence memory.keyEvidence
  decisions : cut.decisions <+: memory.decisions
  failures : PrefixButFirst Shortened cut.failures memory.failures

section Prefixes

variable {α : Type} {Short : α → α → Prop} {cut kept items : List α}

theorem PrefixButFirst.refl (hrefl : ∀ item, Short item item) (items : List α) :
    PrefixButFirst Short items items := by
  cases items with
  | nil => exact True.intro
  | cons first rest => exact ⟨hrefl first, List.prefix_refl rest⟩

/-- A prefix of what was kept is kept. -/
theorem PrefixButFirst.shorten (hstart : cut <+: kept) (hkept : PrefixButFirst Short kept items) :
    PrefixButFirst Short cut items := by
  cases cut with
  | nil => exact True.intro
  | cons first rest =>
      obtain ⟨more, rfl⟩ := hstart
      cases items with
      | nil => exact hkept.elim
      | cons item others =>
          obtain ⟨hfirst, hrest⟩ := hkept
          exact ⟨hfirst, (List.prefix_append rest more).trans hrest⟩

theorem PrefixButFirst.cons {short first : α} (hkept : PrefixButFirst Short (first :: kept) items)
    (hshort : ∀ item, Short first item → Short short item) : PrefixButFirst Short (short :: kept) items := by
  cases items with
  | nil => exact hkept.elim
  | cons item others => exact ⟨hshort item hkept.1, hkept.2⟩

end Prefixes

theorem Shortened.refl (text : String) : Shortened text text := Relation.ReflTransGen.refl

theorem SummaryShortened.refl (evidence : MemoryEvidence) : SummaryShortened evidence evidence :=
  ⟨rfl, Shortened.refl evidence.summary⟩

theorem CutFrom.refl (memory : TaskMemory) : memory.CutFrom memory where
  omittedStepCount := rfl
  omittedStepIndices := rfl
  unfinishedItems := .refl Shortened.refl _
  keyEvidence := .refl SummaryShortened.refl _
  decisions := List.prefix_refl _
  failures := .refl Shortened.refl _

/-! ### What a round does -/

section Rounds

variable {memory smaller original : TaskMemory} {texts shorter items : List String}

theorem prefixButFirst_truncateFirst (hcut : truncateFirst texts = some shorter)
    (hkept : PrefixButFirst Shortened texts items) : PrefixButFirst Shortened shorter items := by
  cases texts with
  | nil => cases hcut
  | cons first rest =>
      rw [truncateFirst] at hcut
      split at hcut
      · rename_i hlong
        cases hcut
        exact hkept.cons fun item hitem => hitem.tail ⟨hlong, rfl⟩
      · cases hcut

theorem prefixButFirst_truncateSummary {evidence shorter items : List MemoryEvidence}
    (hcut : truncateSummary evidence = some shorter)
    (hkept : PrefixButFirst SummaryShortened evidence items) :
    PrefixButFirst SummaryShortened shorter items := by
  cases evidence with
  | nil => cases hcut
  | cons first rest =>
      rw [truncateSummary] at hcut
      split at hcut
      · rename_i hlong
        cases hcut
        refine hkept.cons fun item hitem => ⟨?_, hitem.2.tail ⟨hlong, rfl⟩⟩
        rw [hitem.1]
      · cases hcut

/-- What a round cuts is cut from what the memory began with. -/
theorem CutFrom.shrink (hcut : memory.CutFrom original) (hshrink : memory.shrink = some smaller) :
    smaller.CutFrom original := by
  unfold TaskMemory.shrink at hshrink
  split at hshrink
  · cases hshrink
    exact { hcut with decisions := (List.dropLast_prefix _).trans hcut.decisions }
  split at hshrink
  · cases hshrink
    exact { hcut with keyEvidence := .shorten (List.dropLast_prefix _) hcut.keyEvidence }
  split at hshrink
  · cases hshrink
    exact { hcut with failures := .shorten (List.dropLast_prefix _) hcut.failures }
  split at hshrink
  · cases hshrink
    exact { hcut with unfinishedItems := .shorten (List.dropLast_prefix _) hcut.unfinishedItems }
  cases hsummary : truncateSummary memory.keyEvidence with
  | some shorter =>
      rw [hsummary] at hshrink
      cases hshrink
      exact { hcut with keyEvidence := prefixButFirst_truncateSummary hsummary hcut.keyEvidence }
  | none =>
      cases hitem : truncateFirst memory.unfinishedItems with
      | some shorter =>
          rw [hsummary, hitem] at hshrink
          cases hshrink
          exact { hcut with unfinishedItems := prefixButFirst_truncateFirst hitem hcut.unfinishedItems }
      | none =>
          cases hfailure : truncateFirst memory.failures with
          | some shorter =>
              rw [hsummary, hitem, hfailure] at hshrink
              cases hshrink
              exact { hcut with failures := prefixButFirst_truncateFirst hfailure hcut.failures }
          | none =>
              rw [hsummary, hitem, hfailure] at hshrink
              cases hshrink

theorem CutFrom.minimal (hcut : memory.CutFrom original) : memory.minimal.CutFrom original where
  omittedStepCount := hcut.omittedStepCount
  omittedStepIndices := hcut.omittedStepIndices
  unfinishedItems := .shorten (List.take_prefix 1 _) hcut.unfinishedItems
  keyEvidence := True.intro
  decisions := List.nil_prefix
  failures := True.intro

/-- What a round that returns has found. -/
theorem fitRound_returns {tokenLimit : Int} {role : MessageRole} {fitted : TaskMemory}
    {message : ModelMessage} (hround : memory.fitRound tokenLimit role = .inr (some (fitted, message)))
    (hcut : memory.CutFrom original) :
    message = fitted.message role ∧ estimateMessages [message] ≤ tokenLimit ∧ fitted.CutFrom original := by
  unfold fitRound at hround
  split at hround
  · rename_i hfits
    cases hround
    exact ⟨rfl, hfits, hcut⟩
  · split at hround
    · cases hround
    · split at hround
      · rename_i hfits
        cases hround
        exact ⟨rfl, hfits, hcut.minimal⟩
      · cases hround

/-- A round that goes on has shrunk the memory. -/
theorem fitRound_goes_on {tokenLimit : Int} {role : MessageRole}
    (hround : memory.fitRound tokenLimit role = .inl smaller) : memory.shrink = some smaller := by
  unfold fitRound at hround
  split at hround
  · cases hround
  · split at hround
    · rename_i hshrink
      cases hround
      exact hshrink
    · cases hround

end Rounds

/-! ### The loop -/

/-- What the loop returns fits, and is cut from what the memory began with. -/
theorem fitMemory_returns {tokenLimit : Int} {role : MessageRole} {rounds : Nat}
    {memory original fitted : TaskMemory} {message : ModelMessage}
    (hfit : fitMemory tokenLimit role rounds memory = some (some (fitted, message)))
    (hcut : memory.CutFrom original) :
    message = fitted.message role ∧ estimateMessages [message] ≤ tokenLimit ∧ fitted.CutFrom original := by
  induction rounds generalizing memory with
  | zero => cases hfit
  | succ rounds ih =>
      rw [fitMemory] at hfit
      cases hround : memory.fitRound tokenLimit role with
      | inl smaller =>
          rw [hround] at hfit
          exact ih hfit (hcut.shrink (fitRound_goes_on hround))
      | inr result =>
          rw [hround] at hfit
          cases hfit
          exact fitRound_returns hround hcut

/-- The rounds that the loop needs are bounded by what can be cut. -/
theorem exists_fitMemory (tokenLimit : Int) (role : MessageRole) (memory : TaskMemory) :
    ∃ result, ∀ rounds, memory.size < rounds → fitMemory tokenLimit role rounds memory = some result := by
  induction hsize : memory.size using Nat.strongRecOn generalizing memory with
  | ind size ih =>
      cases hround : memory.fitRound tokenLimit role with
      | inl smaller =>
          have hless := size_shrink (fitRound_goes_on hround)
          obtain ⟨result, hresult⟩ := ih smaller.size (hsize ▸ hless) smaller rfl
          refine ⟨result, fun rounds hrounds => ?_⟩
          cases rounds with
          | zero => exact absurd hrounds (Nat.not_lt_zero _)
          | succ rounds =>
              rw [fitMemory, hround]
              exact hresult rounds (by omega)
      | inr result =>
          refine ⟨result, fun rounds hrounds => ?_⟩
          cases rounds with
          | zero => exact absurd hrounds (Nat.not_lt_zero _)
          | succ rounds => rw [fitMemory, hround]

theorem estimateMessages_singleton (message : ModelMessage) :
    estimateMessages [message] = estimateMessage message := List.sum_singleton

/-- The message that the engine takes is the one with which the loop ends. -/
theorem fit_eq_of_fitMemory {tokenLimit rounds : Nat} {role : MessageRole} {memory : TaskMemory}
    {result : Option (TaskMemory × ModelMessage)}
    (hfit : fitMemory tokenLimit role rounds memory = some result) :
    memory.fit tokenLimit role = result.map Prod.snd := by
  induction rounds generalizing memory with
  | zero => cases hfit
  | succ rounds ih =>
      rw [fitMemory] at hfit
      rw [fit]
      unfold fitRound at hfit
      simp only [estimateMessages_singleton, Nat.cast_le] at hfit
      by_cases hfits : estimateMessage (memory.message role) ≤ tokenLimit
      · rw [if_pos hfits] at hfit
        rw [if_pos hfits]
        cases hfit
        rfl
      · rw [if_neg hfits] at hfit
        rw [if_neg hfits]
        cases hshrink : memory.shrink with
        | some smaller =>
            rw [hshrink] at hfit
            exact ih hfit
        | none =>
            rw [hshrink] at hfit
            cases hfit
            dsimp only
            split <;> rfl

/-- The loop ends, and with a memory that fits or with none. -/
theorem fitMemory_fits (memory : TaskMemory) (tokenLimit : Int) (role : MessageRole) :
    ∃ result, (∀ rounds, memory.size < rounds → fitMemory tokenLimit role rounds memory = some result)
      ∧ ∀ fitted message, result = some (fitted, message) →
        message = fitted.message role ∧ estimateMessages [message] ≤ tokenLimit ∧ fitted.CutFrom memory := by
  obtain ⟨result, hresult⟩ := exists_fitMemory tokenLimit role memory
  refine ⟨result, hresult, ?_⟩
  rintro fitted message rfl
  exact fitMemory_returns (hresult (memory.size + 1) (Nat.lt_succ_self _)) (CutFrom.refl memory)

end TaskMemory

end PatchLoop
