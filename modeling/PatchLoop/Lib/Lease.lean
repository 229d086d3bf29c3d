import Mathlib.Tactic.Common

/-!
# Fenced leases

A lease is written by its holder only while the holder's guard passes. When it has run out or has
been closed, it changes hands by a row of a higher generation. A guard that was issued and no longer
passes is dead: no later step revives it.
-/

namespace Lease

/-- What a lease row says about its holder. -/
structure Cell (γ : Type) where
  guard : γ
  expires : Nat
  isOpen : Prop

variable {γ : Type} {generation : γ → Nat} {now next : Nat} {c c' : Cell γ} {g : γ}

/-- The guard is the holder's, and the lease still runs. -/
structure Cell.Passes (c : Cell γ) (now : Nat) (g : γ) : Prop where
  holds : c.guard = g
  unexpired : now < c.expires
  isOpen : c.isOpen

/-- What a step at a time may do to a lease. -/
inductive Step (generation : γ → Nat) (now : Nat) (c c' : Cell γ) : Prop where
  | kept (hsame : c' = c)
  | renewed (hholder : c.Passes now c.guard) (hguard : c'.guard = c.guard)
  | ended (hguard : c'.guard = c.guard) (hended : ¬ c'.Passes now c'.guard)
  | replaced (hgeneration : generation c.guard < generation c'.guard)

/-- A guard of this generation or an earlier one. -/
def Issued (generation : γ → Nat) (c : Cell γ) (g : γ) : Prop := generation g ≤ generation c.guard

/-- An issued guard that does not pass. -/
structure Dead (generation : γ → Nat) (now : Nat) (c : Cell γ) (g : γ) : Prop where
  issued : Issued generation c g
  fails : ¬ c.Passes now g

theorem Cell.Passes.issued (hpasses : c.Passes now g) : Issued generation c g :=
  Nat.le_of_eq (congrArg generation hpasses.holds.symm)

theorem Cell.Passes.earlier (hpasses : c.Passes next g) (hle : now ≤ next) : c.Passes now g :=
  ⟨hpasses.holds, Nat.lt_of_le_of_lt hle hpasses.unexpired, hpasses.isOpen⟩

/-- One lease has one holder. -/
theorem Cell.Passes.unique {g' : γ} (hpasses : c.Passes now g) (hpasses' : c.Passes next g') :
    g = g' :=
  hpasses.holds.symm.trans hpasses'.holds

/-- Generations never go back. -/
theorem Step.generation_le (hstep : Step generation now c c') :
    generation c.guard ≤ generation c'.guard := by
  cases hstep with
  | kept hsame => exact Nat.le_of_eq (congrArg (fun cell => generation cell.guard) hsame.symm)
  | renewed hholder hguard => exact Nat.le_of_eq (congrArg generation hguard.symm)
  | ended hguard hended => exact Nat.le_of_eq (congrArg generation hguard.symm)
  | replaced hgeneration => exact Nat.le_of_lt hgeneration

/-- Without a new generation, the holder whose guard passes after a step passed before it. -/
theorem Step.passes_before (hstep : Step generation now c c')
    (hsame : generation c'.guard ≤ generation c.guard) (hpasses : c'.Passes now c'.guard) :
    c'.guard = c.guard ∧ c.Passes now c.guard := by
  cases hstep with
  | kept heq =>
      rw [heq] at hpasses ⊢
      exact ⟨rfl, hpasses⟩
  | renewed hholder hguard => exact ⟨hguard, hholder⟩
  | ended hguard hended => exact absurd hpasses hended
  | replaced hgeneration => exact absurd hgeneration (Nat.not_lt.mpr hsame)

theorem Issued.step (hissued : Issued generation c g) (hstep : Step generation now c c') :
    Issued generation c' g :=
  Nat.le_trans hissued hstep.generation_le

theorem Dead.later (hdead : Dead generation now c g) (hle : now ≤ next) :
    Dead generation next c g :=
  ⟨hdead.issued, fun hpasses => hdead.fails (hpasses.earlier hle)⟩

/-- No step revives a dead guard: the holder alone renews, and a new holder has a new generation. -/
theorem Dead.step (hdead : Dead generation now c g) (hstep : Step generation now c c') :
    Dead generation now c' g := by
  refine ⟨hdead.issued.step hstep, fun hpasses => ?_⟩
  cases hstep with
  | kept hsame =>
      rw [hsame] at hpasses
      exact hdead.fails hpasses
  | renewed hholder hguard =>
      have hg : c.guard = g := hguard.symm.trans hpasses.holds
      rw [hg] at hholder
      exact hdead.fails hholder
  | ended hguard hended =>
      have hg : c'.guard = g := hpasses.holds
      rw [hg] at hended
      exact hended hpasses
  | replaced hgeneration =>
      have hissued : generation g ≤ generation c.guard := hdead.issued
      rw [hpasses.holds] at hgeneration
      exact absurd hgeneration (Nat.not_lt.mpr hissued)

end Lease
