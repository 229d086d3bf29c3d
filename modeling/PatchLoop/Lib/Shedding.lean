import Mathlib.Data.List.Sort
import Mathlib.Order.MinMax
import Mathlib.Tactic.Common

/-!
# Shedding

A state that does not fit gives up what it can, the least choice first, until it fits. What it has given up
then is the shortest beginning of its choices, in their order, after which it fits; where it never fits, it
has given up all of them.
-/

namespace Shedding

variable {σ κ : Type} [LinearOrder κ]

/-- Gives up the least choice as long as the state does not fit, as often as it is allowed to; what is
left where nothing fits is the error. -/
def shed (fits : σ → Bool) (choices : σ → List κ) (evict : σ → κ → σ) : Nat → σ → Except σ σ
  | 0, s => if fits s then .ok s else .error s
  | fuel + 1, s =>
      if fits s then .ok s
      else match (choices s).min? with
        | none => .error s
        | some c => shed fits choices evict fuel (evict s c)

/-- The choices in their order. -/
def ordered (choices : σ → List κ) (s : σ) : List κ := (choices s).insertionSort (· ≤ ·)

/-- The state without the first choices. -/
def stage (choices : σ → List κ) (evict : σ → κ → σ) (s : σ) (count : Nat) : σ :=
  ((ordered choices s).take count).foldl evict s

/-- To give up a choice takes it away from the choices, and nothing else. -/
def Evicts (choices : σ → List κ) (evict : σ → κ → σ) : Prop :=
  ∀ s c, c ∈ choices s → (choices s).Perm (c :: choices (evict s c))

variable {fits : σ → Bool} {choices : σ → List κ} {evict : σ → κ → σ}

/-- The least choice is the first one. -/
theorem ordered_eq_cons (hevicts : Evicts choices evict) {s : σ} {c : κ}
    (hmin : (choices s).min? = some c) : ordered choices s = c :: ordered choices (evict s c) := by
  obtain ⟨hmem, hle⟩ := List.min?_eq_some_iff.mp hmin
  have hperm : (choices s).Perm (c :: choices (evict s c)) := hevicts s c hmem
  have hsorted : (c :: ordered choices (evict s c)).Pairwise (· ≤ ·) := by
    refine List.pairwise_cons.mpr ⟨fun d hd => ?_, List.pairwise_insertionSort _ _⟩
    have hd' : d ∈ choices (evict s c) := (List.mem_insertionSort _).mp hd
    exact hle d (hperm.mem_iff.mpr (List.mem_cons_of_mem c hd'))
  refine List.Perm.eq_of_pairwise' ?_ hsorted ?_
  · exact List.pairwise_insertionSort _ _
  · calc (ordered choices s).Perm (choices s) := List.perm_insertionSort _ _
      _ |>.Perm (c :: choices (evict s c)) := hperm
      _ |>.Perm (c :: ordered choices (evict s c)) :=
          (List.perm_insertionSort _ _).symm.cons c

theorem stage_zero (s : σ) : stage choices evict s 0 = s := rfl

theorem stage_succ (hevicts : Evicts choices evict) {s : σ} {c : κ}
    (hmin : (choices s).min? = some c) (count : Nat) :
    stage choices evict s (count + 1) = stage choices evict (evict s c) count := by
  rw [stage, ordered_eq_cons hevicts hmin, List.take_succ_cons, List.foldl_cons, stage]

omit [LinearOrder κ] in
theorem length_evict (hevicts : Evicts choices evict) {s : σ} {c : κ} (hmem : c ∈ choices s) :
    (choices (evict s c)).length + 1 = (choices s).length := by
  rw [(hevicts s c hmem).length_eq, List.length_cons]

/-- A state gives up the fewest of its first choices, or all of them in vain. -/
theorem shed_cases (hevicts : Evicts choices evict) {fuel : Nat} {s : σ}
    (hfuel : (choices s).length ≤ fuel) :
    (∃ k ≤ (choices s).length, shed fits choices evict fuel s = .ok (stage choices evict s k)
        ∧ fits (stage choices evict s k) = true
        ∧ ∀ j < k, fits (stage choices evict s j) = false)
      ∨ shed fits choices evict fuel s = .error (stage choices evict s (choices s).length)
        ∧ ∀ j ≤ (choices s).length, fits (stage choices evict s j) = false := by
  induction fuel generalizing s with
  | zero =>
      have hnone : (choices s).length = 0 := Nat.le_zero.mp hfuel
      rw [hnone]
      by_cases hfits : fits s = true
      · refine Or.inl ⟨0, Nat.le_refl 0, ?_, hfits, fun j hj => absurd hj (Nat.not_lt_zero j)⟩
        rw [shed, if_pos hfits, stage_zero]
      · refine Or.inr ⟨?_, fun j hj => ?_⟩
        · rw [shed, if_neg hfits, stage_zero]
        · rw [Nat.le_zero.mp hj, stage_zero]
          exact Bool.not_eq_true _ ▸ hfits
  | succ fuel ih =>
      by_cases hfits : fits s = true
      · refine Or.inl ⟨0, Nat.zero_le _, ?_, hfits, fun j hj => absurd hj (Nat.not_lt_zero j)⟩
        rw [shed, if_pos hfits, stage_zero]
      have hfalse : fits s = false := Bool.not_eq_true _ ▸ hfits
      cases hmin : (choices s).min? with
      | none =>
          have hnil : choices s = [] := List.min?_eq_none_iff.mp hmin
          refine Or.inr ⟨?_, fun j hj => ?_⟩
          · rw [shed, if_neg hfits, hmin, hnil]
            rfl
          · rw [hnil] at hj
            rw [Nat.le_zero.mp hj]
            exact hfalse
      | some c =>
          have hmem : c ∈ choices s := (List.min?_eq_some_iff.mp hmin).1
          have hlength := length_evict hevicts hmem
          have hshed : shed fits choices evict (fuel + 1) s
              = shed fits choices evict fuel (evict s c) := by
            rw [shed, if_neg hfits, hmin]
          rw [hshed, ← hlength]
          rcases ih (s := evict s c) (by omega) with ⟨k, hk, hok, hfit, hbefore⟩ | ⟨herror, hnever⟩
          · refine Or.inl ⟨k + 1, by omega, ?_, ?_, fun j hj => ?_⟩
            · rw [hok, stage_succ hevicts hmin]
            · rw [stage_succ hevicts hmin]
              exact hfit
            · cases j with
              | zero => exact hfalse
              | succ j =>
                  rw [stage_succ hevicts hmin]
                  exact hbefore j (by omega)
          · refine Or.inr ⟨?_, fun j hj => ?_⟩
            · rw [herror, stage_succ hevicts hmin]
            · cases j with
              | zero => exact hfalse
              | succ j =>
                  rw [stage_succ hevicts hmin]
                  exact hnever j (by omega)

/-- What no eviction breaks still holds afterwards. -/
theorem shed_preserves {P : σ → Prop} (hevict : ∀ s, ∀ c ∈ choices s, P s → P (evict s c)) {fuel : Nat}
    {s t : σ}
    (hstart : P s) (hshed : shed fits choices evict fuel s = .ok t) : P t := by
  induction fuel generalizing s with
  | zero =>
      rw [shed] at hshed
      split at hshed
      · cases hshed
        exact hstart
      · cases hshed
  | succ fuel ih =>
      rw [shed] at hshed
      split at hshed
      · cases hshed
        exact hstart
      · split at hshed
        · cases hshed
        · rename_i c hmin
          have hmem : c ∈ choices s := (List.min?_eq_some_iff.mp hmin).1
          exact ih (hevict s c hmem hstart) hshed

theorem fits_of_shed {fuel : Nat} {s t : σ} (hshed : shed fits choices evict fuel s = .ok t) :
    fits t = true := by
  induction fuel generalizing s with
  | zero =>
      rw [shed] at hshed
      split at hshed
      · cases hshed
        assumption
      · cases hshed
  | succ fuel ih =>
      rw [shed] at hshed
      split at hshed
      · cases hshed
        assumption
      · split at hshed
        · cases hshed
        · exact ih hshed

/-- Two states with the same choices, in any order, give up the same ones. -/
theorem shed_alike {R : σ → σ → Prop} (hfits : ∀ s s', R s s' → fits s = fits s')
    (hchoices : ∀ s s', R s s' → (choices s).Perm (choices s'))
    (hevict : ∀ s s' c, R s s' → R (evict s c) (evict s' c)) {fuel : Nat} {s s' : σ} (halike : R s s') :
    (∃ t t', shed fits choices evict fuel s = .ok t ∧ shed fits choices evict fuel s' = .ok t' ∧ R t t')
      ∨ ∃ t t', shed fits choices evict fuel s = .error t
        ∧ shed fits choices evict fuel s' = .error t' ∧ R t t' := by
  have hmin : ∀ {l l' : List κ}, l.Perm l' → l.min? = l'.min? := by
    intro l l' hperm
    apply Option.ext
    intro c
    rw [List.min?_eq_some_iff, List.min?_eq_some_iff, hperm.mem_iff]
    exact and_congr_right fun _ => forall_congr' fun d => by rw [hperm.mem_iff]
  induction fuel generalizing s s' with
  | zero =>
      rw [shed, shed, ← hfits s s' halike]
      split
      · exact Or.inl ⟨s, s', rfl, rfl, halike⟩
      · exact Or.inr ⟨s, s', rfl, rfl, halike⟩
  | succ fuel ih =>
      rw [shed, shed, ← hfits s s' halike, ← hmin (hchoices s s' halike)]
      split
      · exact Or.inl ⟨s, s', rfl, rfl, halike⟩
      · split
        · exact Or.inr ⟨s, s', rfl, rfl, halike⟩
        · exact ih (hevict s s' _ halike)

end Shedding
