import Mathlib.Data.List.Basic
import Mathlib.Tactic.Common

/-!
# Runs of a machine

A machine takes one input after the other. A property of its runs comes from what one step
preserves: an invariant, a condition that every step meets, a clock that never goes back, a rank that
never falls.
-/

namespace Run

variable {σ ι : Type} (step : σ → ι → σ)

/-- The state after a list of inputs. -/
def after (s : σ) (inputs : List ι) : σ := inputs.foldl step s

@[simp] theorem after_nil (s : σ) : after step s [] = s := rfl

@[simp] theorem after_cons (s : σ) (i : ι) (rest : List ι) :
    after step s (i :: rest) = after step (step s i) rest := rfl

theorem after_append (s : σ) (first second : List ι) :
    after step s (first ++ second) = after step (after step s first) second :=
  List.foldl_append

/-! ### Conditions on steps -/

/-- A condition on the state before each step and on its input. -/
def EveryStep (P : σ → ι → Prop) : σ → List ι → Prop
  | _, [] => True
  | s, i :: rest => P s i ∧ EveryStep P (step s i) rest

instance decidableEveryStep (P : σ → ι → Prop) [∀ s i, Decidable (P s i)] :
    ∀ (s : σ) (inputs : List ι), Decidable (EveryStep step P s inputs)
  | _, [] => inferInstanceAs (Decidable True)
  | s, i :: rest =>
      have := decidableEveryStep P (step s i) rest
      inferInstanceAs (Decidable (P s i ∧ EveryStep step P (step s i) rest))

section Conditions

variable {step} {P : σ → ι → Prop} {s : σ}

theorem everyStep_append {first second : List ι} :
    EveryStep step P s (first ++ second)
      ↔ EveryStep step P s first ∧ EveryStep step P (after step s first) second := by
  induction first generalizing s with
  | nil => simp [EveryStep]
  | cons i rest ih => simp [EveryStep, ih, and_assoc]

/-- The condition holds at a step in the middle of a run. -/
theorem EveryStep.at {first second : List ι} {i : ι}
    (hrun : EveryStep step P s (first ++ i :: second)) : P (after step s first) i :=
  (everyStep_append.mp hrun).2.1

/-- The condition holds at every step where it holds after each beginning of the run. -/
theorem everyStep_of_splits {inputs : List ι}
    (hsplits : ∀ earlier i later, inputs = earlier ++ i :: later → P (after step s earlier) i) :
    EveryStep step P s inputs := by
  induction inputs generalizing s with
  | nil => trivial
  | cons i rest ih =>
      refine ⟨hsplits [] i rest rfl, ih fun earlier j later heq => ?_⟩
      exact hsplits (i :: earlier) j later (congrArg (i :: ·) heq)

theorem EveryStep.and {Q : σ → ι → Prop} {inputs : List ι} (hP : EveryStep step P s inputs)
    (hQ : EveryStep step Q s inputs) : EveryStep step (fun s i => P s i ∧ Q s i) s inputs := by
  induction inputs generalizing s with
  | nil => trivial
  | cons i rest ih => exact ⟨⟨hP.1, hQ.1⟩, ih hP.2 hQ.2⟩

theorem everyStep_true (s : σ) (inputs : List ι) : EveryStep step (fun _ _ => True) s inputs := by
  induction inputs generalizing s with
  | nil => trivial
  | cons i rest ih => exact ⟨trivial, ih _⟩

/-- A condition on the inputs alone. -/
theorem everyStep_of_forall {inputs : List ι} (hinputs : ∀ i ∈ inputs, ∀ s, P s i) :
    EveryStep step P s inputs := by
  induction inputs generalizing s with
  | nil => trivial
  | cons i rest ih =>
      exact ⟨hinputs i List.mem_cons_self s, ih fun j hj => hinputs j (List.mem_cons_of_mem i hj)⟩

/-- What one step preserves, a run preserves. -/
theorem invariant_after (Inv : σ → Prop) (hstep : ∀ s i, Inv s → P s i → Inv (step s i))
    {inputs : List ι} (hrun : EveryStep step P s inputs) (hstart : Inv s) :
    Inv (after step s inputs) := by
  induction inputs generalizing s with
  | nil => exact hstart
  | cons i rest ih => exact ih hrun.2 (hstep s i hstart hrun.1)

/-- What every step preserves. -/
theorem preserved_after (Inv : σ → Prop) (hstep : ∀ s i, Inv s → Inv (step s i)) (inputs : List ι)
    (hstart : Inv s) : Inv (after step s inputs) :=
  invariant_after Inv (fun s i hinv _ => hstep s i hinv) (everyStep_true s inputs) hstart

/-- Where a step keeps the invariant exactly when it meets the condition, every state of a run has the
invariant exactly when every step meets the condition. -/
theorem everyStep_iff (Inv : σ → Prop) (hstep : ∀ s i, Inv s → (P s i ↔ Inv (step s i)))
    {inputs : List ι} (hstart : Inv s) :
    EveryStep step P s inputs
      ↔ ∀ earlier later, inputs = earlier ++ later → Inv (after step s earlier) := by
  constructor
  · rintro hrun earlier later rfl
    exact invariant_after Inv (fun s i hinv hP => (hstep s i hinv).mp hP)
      (everyStep_append.mp hrun).1 hstart
  · intro hstates
    induction inputs generalizing s with
    | nil => trivial
    | cons i rest ih =>
        have hnext : Inv (step s i) := hstates [i] rest rfl
        refine ⟨(hstep s i hstart).mpr hnext, ih hnext fun earlier later heq => ?_⟩
        exact hstates (i :: earlier) later (congrArg (i :: ·) heq)

end Conditions

/-! ### Clocks -/

/-- The times of the inputs do not go back, from `start` to `stop`. -/
def Clocked (time : ι → Nat) : Nat → List ι → Nat → Prop
  | start, [], stop => start ≤ stop
  | start, i :: rest, stop => start ≤ time i ∧ Clocked time (time i) rest stop

section Clocks

variable {step} {time : ι → Nat} {P : σ → ι → Prop} {s : σ}

instance decidableClocked : ∀ (start : Nat) (inputs : List ι) (stop : Nat),
    Decidable (Clocked time start inputs stop)
  | start, [], stop => inferInstanceAs (Decidable (start ≤ stop))
  | start, i :: rest, stop =>
      have := decidableClocked (time i) rest stop
      inferInstanceAs (Decidable (start ≤ time i ∧ Clocked time (time i) rest stop))

theorem Clocked.append {first second : List ι} {start middle stop : Nat}
    (hfirst : Clocked time start first middle) (hsecond : Clocked time middle second stop) :
    Clocked time start (first ++ second) stop := by
  induction first generalizing start with
  | nil =>
      cases second with
      | nil => exact Nat.le_trans hfirst hsecond
      | cons i rest => exact ⟨Nat.le_trans hfirst hsecond.1, hsecond.2⟩
  | cons i rest ih => exact ⟨hfirst.1, ih hfirst.2⟩

theorem Clocked.le {inputs : List ι} {start stop : Nat}
    (hclock : Clocked time start inputs stop) : start ≤ stop := by
  induction inputs generalizing start with
  | nil => exact hclock
  | cons i rest ih => exact Nat.le_trans hclock.1 (ih hclock.2)

/-- The clock of a run, up to an input and from it on. -/
theorem Clocked.split {first second : List ι} {i : ι} {start stop : Nat}
    (hclock : Clocked time start (first ++ i :: second) stop) :
    Clocked time start first (time i) ∧ Clocked time (time i) second stop := by
  induction first generalizing start with
  | nil => exact hclock
  | cons j rest ih => exact ⟨⟨hclock.1, (ih hclock.2).1⟩, (ih hclock.2).2⟩

/-- An invariant that may speak about the time: it holds on when time passes, and a step preserves it
at the time of the step. -/
theorem invariant_clocked (Inv : Nat → σ → Prop)
    (hmono : ∀ t t' s, t ≤ t' → Inv t s → Inv t' s)
    (hstep : ∀ s i, Inv (time i) s → P s i → Inv (time i) (step s i))
    {inputs : List ι} {start stop : Nat} (hclock : Clocked time start inputs stop)
    (hrun : EveryStep step P s inputs) (hstart : Inv start s) :
    Inv stop (after step s inputs) := by
  induction inputs generalizing s start with
  | nil => exact hmono start stop s hclock hstart
  | cons i rest ih =>
      have hnow : Inv (time i) s := hmono start (time i) s hclock.1 hstart
      exact ih hclock.2 hrun.2 (hstep s i hnow hrun.1)

theorem preserved_clocked (Inv : Nat → σ → Prop)
    (hmono : ∀ t t' s, t ≤ t' → Inv t s → Inv t' s)
    (hstep : ∀ s i, Inv (time i) s → Inv (time i) (step s i)) {inputs : List ι} {start stop : Nat}
    (hclock : Clocked time start inputs stop) (hstart : Inv start s) :
    Inv stop (after step s inputs) :=
  invariant_clocked Inv hmono (fun s i hinv _ => hstep s i hinv) hclock (everyStep_true s inputs)
    hstart

end Clocks

/-! ### Counting -/

/-- How often a run makes a step of a kind. -/
def count (kind : σ → σ → Prop) [DecidableRel kind] : σ → List ι → Nat
  | _, [] => 0
  | s, i :: rest => (if kind s (step s i) then 1 else 0) + count kind (step s i) rest

section Counting

variable {step} {P : σ → ι → Prop} {kind : σ → σ → Prop} [DecidableRel kind] {s : σ}
  {rank : σ → Nat} {level : Nat}

theorem count_append {first second : List ι} :
    count step kind s (first ++ second)
      = count step kind s first + count step kind (after step s first) second := by
  induction first generalizing s with
  | nil => simp [count]
  | cons i rest ih => simp [count, ih, Nat.add_assoc]

/-- Steps of the kind start below the level, so above it there is none. -/
theorem count_eq_zero (hmono : ∀ s i, P s i → rank s ≤ rank (step s i))
    (hkind : ∀ s i, P s i → kind s (step s i) → rank s < level) {inputs : List ι}
    (hrun : EveryStep step P s inputs) (hlevel : level ≤ rank s) :
    count step kind s inputs = 0 := by
  induction inputs generalizing s with
  | nil => rfl
  | cons i rest ih =>
      have hnot : ¬ kind s (step s i) := fun h => Nat.not_lt.mpr hlevel (hkind s i hrun.1 h)
      rw [count, if_neg hnot, ih hrun.2 (Nat.le_trans hlevel (hmono s i hrun.1))]

/-- A step of the kind lifts the rank over the level, and no step lowers the rank: a run makes at most
one. -/
theorem count_le_one (rank : σ → Nat) (level : Nat)
    (hmono : ∀ s i, P s i → rank s ≤ rank (step s i))
    (hkind : ∀ s i, P s i → kind s (step s i) → rank s < level ∧ level ≤ rank (step s i))
    {inputs : List ι} (hrun : EveryStep step P s inputs) : count step kind s inputs ≤ 1 := by
  induction inputs generalizing s with
  | nil => exact Nat.zero_le 1
  | cons i rest ih =>
      rw [count]
      by_cases hstep : kind s (step s i)
      · have hrest := count_eq_zero hmono (fun s i hp h => (hkind s i hp h).1) hrun.2
          (hkind s i hrun.1 hstep).2
        have hone : (if kind s (step s i) then 1 else 0) = 1 := if_pos hstep
        omega
      · rw [if_neg hstep, Nat.zero_add]
        exact ih hrun.2

end Counting

end Run
