import Mathlib.Algebra.Order.BigOperators.Group.List
import Mathlib.Algebra.Order.Group.Nat
import Mathlib.Data.List.Count
import Mathlib.Data.List.Induction
import Mathlib.Tactic.Common

/-!
# Selections

Three ways to take a part of a list: one element after the other, each of which may be passed over; at most
so many of a key, the first ones of an order; and by giving up elements until the rest fits. None of them
loses an element: what is not kept is passed over.
-/

namespace Selection

variable {α κ : Type} [DecidableEq α]

/-- Takes the element that is chosen from what remains, and accepts it or passes it over, until enough are
picked or nothing remains. -/
def pick (choose : List α → List α → Option α) (enough : List α → Bool) (accepts : List α → α → Bool) :
    Nat → List α → List α → List α → List α × List α
  | 0, remaining, picked, passed => (picked, passed ++ remaining)
  | fuel + 1, remaining, picked, passed =>
      if enough picked then (picked, passed ++ remaining)
      else match choose picked remaining with
        | none => (picked, passed ++ remaining)
        | some a =>
            if accepts picked a then
              pick choose enough accepts fuel (remaining.erase a) (picked ++ [a]) passed
            else pick choose enough accepts fuel (remaining.erase a) picked (passed ++ [a])

/-- Gives up the element that is chosen until the rest fits or nothing is left. -/
def giveUp (fits : List α → Bool) (choose : List α → Option α) :
    Nat → List α → List α → List α × List α
  | 0, kept, given => (kept, given)
  | fuel + 1, kept, given =>
      if fits kept then (kept, given)
      else match choose kept with
        | none => (kept, given)
        | some a => giveUp fits choose fuel (kept.erase a) (given ++ [a])

/-- The elements of which fewer than so many with the same key come before. -/
def capped [DecidableEq κ] (key : α → κ) (cap : Nat) (items : List α) : List α :=
  items.foldl (fun taken a => if cap ≤ taken.countP (key · = key a) then taken else taken ++ [a]) []

/-! ### Picking -/

section Pick

variable {choose : List α → List α → Option α} {enough : List α → Bool} {accepts : List α → α → Bool}

/-- Each element is picked or passed over. -/
theorem pick_perm (hchoose : ∀ picked remaining a, choose picked remaining = some a → a ∈ remaining)
    (fuel : Nat) (remaining picked passed : List α) :
    ((pick choose enough accepts fuel remaining picked passed).1
      ++ (pick choose enough accepts fuel remaining picked passed).2).Perm
        (picked ++ passed ++ remaining) := by
  induction fuel generalizing remaining picked passed with
  | zero =>
      rw [pick, List.append_assoc]
  | succ fuel ih =>
      rw [pick]
      split
      · rw [List.append_assoc]
      · split
        · rw [List.append_assoc]
        · rename_i a ha
          have hremaining : remaining.Perm (a :: remaining.erase a) :=
            List.perm_cons_erase (hchoose picked remaining a ha)
          split
          · calc List.Perm _ (picked ++ [a] ++ passed ++ remaining.erase a) := ih _ _ _
              _ |>.Perm (picked ++ passed ++ (a :: remaining.erase a)) := by
                  rw [List.append_assoc picked, List.append_assoc, List.append_assoc,
                    List.append_assoc]
                  exact (List.perm_middle.symm : (a :: (passed ++ remaining.erase a)).Perm _).append_left
                    picked
              _ |>.Perm (picked ++ passed ++ remaining) := hremaining.symm.append_left _
          · calc List.Perm _ (picked ++ (passed ++ [a]) ++ remaining.erase a) := ih _ _ _
              _ |>.Perm (picked ++ passed ++ (a :: remaining.erase a)) := by
                  rw [← List.append_assoc, List.append_assoc, List.singleton_append]
              _ |>.Perm (picked ++ passed ++ remaining) := hremaining.symm.append_left _

/-- What every step preserves holds of what is picked. -/
theorem pick_preserves {P : List α → Prop}
    (hstep : ∀ picked a, enough picked = false → accepts picked a = true → P picked →
      P (picked ++ [a]))
    (fuel : Nat) (remaining passed : List α) {picked : List α} (hstart : P picked) :
    P (pick choose enough accepts fuel remaining picked passed).1 := by
  induction fuel generalizing remaining picked passed with
  | zero => exact hstart
  | succ fuel ih =>
      rw [pick]
      split
      · exact hstart
      · rename_i hmore
        split
        · exact hstart
        · split
          · rename_i haccepts
            exact ih _ _ (hstep picked _ (Bool.not_eq_true _ ▸ hmore) haccepts hstart)
          · exact ih _ _ hstart

/-- Where what is not picked once is never picked later, nothing that was passed over could still be
added. -/
theorem pick_maximal
    (hchoose : ∀ picked remaining, remaining ≠ [] → ∃ a ∈ remaining, choose picked remaining = some a)
    (hstay : ∀ picked a b, accepts picked a = false → accepts (picked ++ [b]) a = false)
    {fuel : Nat} {remaining picked passed : List α} (hfuel : remaining.length ≤ fuel)
    (hpassed : ∀ a ∈ passed, accepts picked a = false) :
    enough (pick choose enough accepts fuel remaining picked passed).1 = true
      ∨ ∀ a ∈ (pick choose enough accepts fuel remaining picked passed).2,
          accepts (pick choose enough accepts fuel remaining picked passed).1 a = false := by
  induction fuel generalizing remaining picked passed with
  | zero =>
      rw [pick, List.length_eq_zero_iff.mp (Nat.le_zero.mp hfuel), List.append_nil]
      exact Or.inr hpassed
  | succ fuel ih =>
      rw [pick]
      split
      · rename_i henough
        exact Or.inl henough
      · by_cases hnil : remaining = []
        · subst hnil
          split
          · rw [List.append_nil]
            exact Or.inr hpassed
          · split
            · refine ih (Nat.zero_le _) fun a ha => hstay picked a _ (hpassed a ha)
            · rename_i b _ hb
              refine ih (Nat.zero_le _) fun a ha => ?_
              rcases List.mem_append.mp ha with hold | hnew
              · exact hpassed a hold
              · rw [List.mem_singleton.mp hnew]
                exact Bool.eq_false_of_not_eq_true hb
        · obtain ⟨b, hb, hsome⟩ := hchoose picked remaining hnil
          have hless : (remaining.erase b).length ≤ fuel := by
            rw [List.length_erase_of_mem hb]
            omega
          rw [hsome]
          dsimp only
          split
          · exact ih hless fun a ha => hstay picked a b (hpassed a ha)
          · rename_i haccepts
            refine ih hless fun a ha => ?_
            rcases List.mem_append.mp ha with hold | hnew
            · exact hpassed a hold
            · rw [List.mem_singleton.mp hnew]
              exact Bool.eq_false_of_not_eq_true haccepts

end Pick

/-! ### Giving up -/

section GiveUp

variable {fits : List α → Bool} {choose : List α → Option α}

theorem giveUp_perm (hchoose : ∀ kept a, choose kept = some a → a ∈ kept) (fuel : Nat)
    (kept given : List α) :
    ((giveUp fits choose fuel kept given).1 ++ (giveUp fits choose fuel kept given).2).Perm
      (kept ++ given) := by
  induction fuel generalizing kept given with
  | zero => exact .refl _
  | succ fuel ih =>
      rw [giveUp]
      split
      · exact .refl _
      · split
        · exact .refl _
        · rename_i a ha
          calc List.Perm _ (kept.erase a ++ (given ++ [a])) := ih _ _
            _ |>.Perm (a :: kept.erase a ++ given) := by
                rw [← List.append_assoc]
                exact List.perm_append_singleton a _
            _ |>.Perm (kept ++ given) := (List.perm_cons_erase (hchoose kept a ha)).symm.append_right _

theorem giveUp_sublist (fuel : Nat) (kept given : List α) :
    (giveUp fits choose fuel kept given).1.Sublist kept := by
  induction fuel generalizing kept given with
  | zero => exact .refl _
  | succ fuel ih =>
      rw [giveUp]
      split
      · exact .refl _
      · split
        · exact .refl _
        · exact (ih _ _).trans List.erase_sublist

/-- What is left fits, or it is nothing. -/
theorem giveUp_fits (hchoose : ∀ kept, kept ≠ [] → ∃ a ∈ kept, choose kept = some a) {fuel : Nat}
    {kept : List α} (given : List α) (hfuel : kept.length ≤ fuel) :
    (giveUp fits choose fuel kept given).1 = []
      ∨ fits (giveUp fits choose fuel kept given).1 = true := by
  induction fuel generalizing kept given with
  | zero => exact Or.inl (List.length_eq_zero_iff.mp (Nat.le_zero.mp hfuel))
  | succ fuel ih =>
      rw [giveUp]
      split
      · rename_i hfits
        exact Or.inr hfits
      · by_cases hnil : kept = []
        · refine Or.inl ?_
          subst hnil
          split
          · rfl
          · exact List.sublist_nil.mp (giveUp_sublist fuel [] _)
        · obtain ⟨a, ha, hsome⟩ := hchoose kept hnil
          rw [hsome]
          refine ih _ ?_
          rw [List.length_erase_of_mem ha]
          omega

/-- Where elements with a property are chosen first, one without it is only given up after all of them. -/
theorem giveUp_first {p : α → Bool}
    (hfirst : ∀ kept a, choose kept = some a → p a = false → ∀ b ∈ kept, p b = false) (fuel : Nat)
    (kept : List α) {given : List α}
    (hgiven : ∀ a ∈ given, p a = false → ∀ b ∈ kept, p b = false) :
    ∀ a ∈ (giveUp fits choose fuel kept given).2, p a = false →
      ∀ b ∈ (giveUp fits choose fuel kept given).1, p b = false := by
  induction fuel generalizing kept given with
  | zero => exact hgiven
  | succ fuel ih =>
      rw [giveUp]
      split
      · exact hgiven
      · split
        · exact hgiven
        · rename_i c hc
          refine ih _ ?_
          intro a ha hpa b hb
          have hb' : b ∈ kept := List.mem_of_mem_erase hb
          rcases List.mem_append.mp ha with hold | hnew
          · exact hgiven a hold hpa b hb'
          · rw [List.mem_singleton] at hnew
            subst hnew
            exact hfirst kept a hc hpa b hb'

/-- Where everything fits, nothing is given up. -/
theorem giveUp_of_fits {kept : List α} (hfits : fits kept = true) (fuel : Nat) (given : List α) :
    giveUp fits choose fuel kept given = (kept, given) := by
  cases fuel with
  | zero => rfl
  | succ fuel => rw [giveUp, if_pos hfits]

end GiveUp

/-! ### Caps -/

section Capped

variable [DecidableEq κ] {key : α → κ} {cap : Nat}

omit [DecidableEq α] in
theorem capped_append (items : List α) (a : α) : capped key cap (items ++ [a])
    = if cap ≤ (capped key cap items).countP (key · = key a) then capped key cap items
      else capped key cap items ++ [a] := by
  rw [capped, List.foldl_append]
  rfl

omit [DecidableEq α] in
theorem capped_sublist (items : List α) : (capped key cap items).Sublist items := by
  induction items using List.reverseRecOn with
  | nil => exact .refl _
  | append_singleton items a ih =>
      rw [capped_append]
      split
      · exact ih.trans (List.sublist_append_left _ _)
      · exact ih.append_right [a]

omit [DecidableEq α] in
/-- No key is taken more often than the cap allows. -/
theorem countP_capped_le (items : List α) (k : κ) : (capped key cap items).countP (key · = k) ≤ cap := by
  induction items using List.reverseRecOn with
  | nil => exact Nat.zero_le _
  | append_singleton items a ih =>
      rw [capped_append]
      split
      · exact ih
      · rename_i hroom
        rw [List.countP_append, List.countP_singleton]
        by_cases hkey : key a = k
        · subst hkey
          rw [if_pos (decide_eq_true rfl)]
          omega
        · rw [if_neg (by simpa using hkey)]
          exact ih

omit [DecidableEq α] in
/-- What is not taken has a key that was taken as often as the cap allows. -/
theorem capped_maximal {items : List α} {a : α} (ha : a ∈ items) (hout : a ∉ capped key cap items) :
    cap ≤ (capped key cap items).countP (key · = key a) := by
  induction items using List.reverseRecOn with
  | nil => cases ha
  | append_singleton items b ih =>
      rw [capped_append] at hout ⊢
      split at hout
      · rename_i hfull
        rw [if_pos hfull]
        rcases List.mem_append.mp ha with hold | hnew
        · exact ih hold hout
        · rw [List.mem_singleton.mp hnew]
          exact hfull
      · rename_i hroom
        rw [if_neg hroom]
        have hne : a ∈ items := by
          rcases List.mem_append.mp ha with hold | hnew
          · exact hold
          · exact absurd (List.mem_append_right _ hnew) hout
        calc cap ≤ (capped key cap items).countP (key · = key a) :=
              ih hne fun hmem => hout (List.mem_append_left _ hmem)
          _ ≤ (capped key cap items ++ [b]).countP (key · = key a) :=
              (List.sublist_append_left _ _).countP_le

end Capped

end Selection
