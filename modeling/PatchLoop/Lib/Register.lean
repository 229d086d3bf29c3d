import Mathlib.Data.List.Basic
import Mathlib.Data.List.Induction
import Mathlib.Order.Lattice
import Mathlib.Tactic.Common

/-!
# Registers with authorities

A register holds the last of the writes that no other write outranks. A writer that leaves out what it has
written before gives the same result exactly when the last of these writes is the one that is new last.
-/

namespace Register

variable {α ρ : Type}

/-- A value, and with which authority it is written. -/
structure Write (α ρ : Type) where
  value : α
  authority : ρ
deriving DecidableEq

section Offers

variable [LinearOrder ρ]

/-- A write replaces what is held, unless that has more authority. -/
def offer (held : Option (Write α ρ)) (write : Write α ρ) : Option (Write α ρ) :=
  match held with
  | none => some write
  | some current => if current.authority ≤ write.authority then some write else some current

def offered (held : Option (Write α ρ)) (writes : List (Write α ρ)) : Option (Write α ρ) :=
  writes.foldl offer held

/-- No write and nothing held has more authority. -/
def Unranked (held : Option (Write α ρ)) (writes : List (Write α ρ)) (write : Write α ρ) : Prop :=
  (∀ current ∈ held, current.authority ≤ write.authority)
    ∧ ∀ other ∈ writes, other.authority ≤ write.authority

instance (held : Option (Write α ρ)) (writes : List (Write α ρ)) (write : Write α ρ) :
    Decidable (Unranked held writes write) :=
  inferInstanceAs (Decidable (_ ∧ _))

/-- The writes that no other outranks. -/
def tops (held : Option (Write α ρ)) (writes : List (Write α ρ)) : List (Write α ρ) :=
  writes.filter fun write => Unranked held writes write

theorem offered_append (held : Option (Write α ρ)) (first second : List (Write α ρ)) :
    offered held (first ++ second) = offered (offered held first) second :=
  List.foldl_append

/-- What is held in the end outranks everything before, and is one of the writes or was held. -/
theorem offered_outranks (held : Option (Write α ρ)) (writes : List (Write α ρ)) :
    (∀ current ∈ held, ∃ last ∈ offered held writes, current.authority ≤ last.authority)
      ∧ (∀ write ∈ writes, ∃ last ∈ offered held writes, write.authority ≤ last.authority)
      ∧ ∀ last ∈ offered held writes, last ∈ held ∨ last ∈ writes := by
  induction writes generalizing held with
  | nil =>
      refine ⟨fun current hcurrent => ⟨current, hcurrent, le_rfl⟩, ?_, ?_⟩
      · intro write hwrite
        cases hwrite
      · exact fun last hlast => Or.inl hlast
  | cons write rest ih =>
      obtain ⟨hheld, hrest, hfrom⟩ := ih (offer held write)
      have hoffer : (∃ next ∈ offer held write, write.authority ≤ next.authority)
          ∧ (∀ current ∈ held, ∃ next ∈ offer held write, current.authority ≤ next.authority)
          ∧ ∀ next ∈ offer held write, next ∈ held ∨ next = write := by
        cases held with
        | none => simp [offer]
        | some current =>
            by_cases hle : current.authority ≤ write.authority
            · simp [offer, hle]
            · simp [offer, hle, le_of_not_ge hle]
      obtain ⟨⟨next, hnext, hwrite⟩, hcurrents, hone⟩ := hoffer
      refine ⟨?_, ?_, ?_⟩
      · intro current hcurrent
        obtain ⟨middle, hmiddle, hle⟩ := hcurrents current hcurrent
        obtain ⟨last, hlast, hle'⟩ := hheld middle hmiddle
        exact ⟨last, hlast, hle.trans hle'⟩
      · intro other hother
        rcases List.mem_cons.mp hother with rfl | hother
        · obtain ⟨last, hlast, hle⟩ := hheld next hnext
          exact ⟨last, hlast, hwrite.trans hle⟩
        · exact hrest other hother
      · intro last hlast
        rcases hfrom last hlast with hnow | hlater
        · rcases hone last hnow with hheld | rfl
          · exact Or.inl hheld
          · exact Or.inr List.mem_cons_self
        · exact Or.inr (List.mem_cons_of_mem _ hlater)

/-- A register holds the last write that nothing outranks, or what it held before. -/
theorem offered_eq (held : Option (Write α ρ)) (writes : List (Write α ρ)) :
    offered held writes = (tops held writes).getLast?.or held := by
  induction writes using List.reverseRecOn with
  | nil => rfl
  | append_singleton writes write ih =>
      rw [offered_append]
      obtain ⟨hheld, hwrites, hfrom⟩ := offered_outranks held writes
      by_cases htop : Unranked held writes write
      · -- The new write is the last one that nothing outranks.
        have hlast : (tops held (writes ++ [write])).getLast? = some write := by
          have hnew : Unranked held (writes ++ [write]) write :=
            ⟨htop.1, fun other hother => by
              rcases List.mem_append.mp hother with hother | hother
              · exact htop.2 other hother
              · rw [List.mem_singleton.mp hother]⟩
          rw [tops, List.filter_append, List.filter_singleton, decide_eq_true hnew,
            cond_true]
          exact List.getLast?_concat
        rw [hlast, Option.some_or]
        change offer (offered held writes) write = some write
        cases hoffered : offered held writes with
        | none => rfl
        | some current =>
            have hle : current.authority ≤ write.authority := by
              rcases hfrom current hoffered with hold | hmem
              · exact htop.1 current hold
              · exact htop.2 current hmem
            exact if_pos hle
      · -- Something outranks the new write, and then what is held does.
        obtain ⟨current, hcurrent, hlt⟩ : ∃ current ∈ offered held writes,
            write.authority < current.authority := by
          rw [Unranked, not_and_or] at htop
          rcases htop with htop | htop
          · push Not at htop
            obtain ⟨old, hold, hlt⟩ := htop
            obtain ⟨last, hlast, hle⟩ := hheld old hold
            exact ⟨last, hlast, hlt.trans_le hle⟩
          · push Not at htop
            obtain ⟨other, hother, hlt⟩ := htop
            obtain ⟨last, hlast, hle⟩ := hwrites other hother
            exact ⟨last, hlast, hlt.trans_le hle⟩
        have hsame : tops held (writes ++ [write]) = tops held writes := by
          have hnot : ¬ Unranked held (writes ++ [write]) write := fun hnew =>
            htop ⟨hnew.1, fun other hother => hnew.2 other (List.mem_append_left _ hother)⟩
          have hiff : ∀ other ∈ writes,
              Unranked held (writes ++ [write]) other ↔ Unranked held writes other := by
            intro other hother
            constructor
            · exact fun hnew => ⟨hnew.1, fun w hw => hnew.2 w (List.mem_append_left _ hw)⟩
            · intro hold
              refine ⟨hold.1, fun w hw => ?_⟩
              rcases List.mem_append.mp hw with hw | hw
              · exact hold.2 w hw
              · rw [List.mem_singleton.mp hw]
                rcases hfrom current hcurrent with hold' | hmem
                · exact hlt.le.trans (hold.1 current hold')
                · exact hlt.le.trans (hold.2 current hmem)
          rw [tops, List.filter_append, List.filter_singleton, decide_eq_false hnot, cond_false,
            List.append_nil]
          exact List.filter_congr fun other hother => decide_eq_decide.mpr (hiff other hother)
        rw [hsame, ← ih]
        change offer (offered held writes) write = offered held writes
        rw [Option.mem_def.mp hcurrent]
        exact if_neg (not_le_of_gt hlt)

end Offers

/-! ### Writing once -/

section Once

variable {β : Type} [DecidableEq β]

/-- The items that were not seen before, each once. -/
def firsts : List β → List β → List β
  | _, [] => []
  | seen, item :: rest => if item ∈ seen then firsts seen rest else item :: firsts (item :: seen) rest

theorem firsts_concat (seen items : List β) (item : β) :
    firsts seen (items ++ [item])
      = firsts seen items ++ if item ∈ seen ∨ item ∈ items then [] else [item] := by
  induction items generalizing seen with
  | nil => by_cases hseen : item ∈ seen <;> simp [firsts, hseen]
  | cons first rest ih =>
      rw [List.cons_append, firsts, firsts]
      by_cases hfirst : first ∈ seen
      · rw [if_pos hfirst, if_pos hfirst, ih]
        have hiff : item ∈ seen ∨ item ∈ rest ↔ item ∈ seen ∨ item ∈ first :: rest := by
          constructor
          · exact Or.imp_right (List.mem_cons_of_mem first)
          · rintro (hseen | hmem)
            · exact Or.inl hseen
            · rcases List.mem_cons.mp hmem with rfl | hmem
              · exact Or.inl hfirst
              · exact Or.inr hmem
        simp only [hiff]
      · rw [if_neg hfirst, if_neg hfirst, ih, List.cons_append]
        have hiff : item ∈ first :: seen ∨ item ∈ rest ↔ item ∈ seen ∨ item ∈ first :: rest := by
          simp only [List.mem_cons]
          tauto
        simp only [hiff]

theorem mem_firsts {items : List β} {item : β} : item ∈ firsts [] items ↔ item ∈ items := by
  induction items using List.reverseRecOn with
  | nil => rfl
  | append_singleton items last ih =>
      rw [firsts_concat]
      by_cases hlast : last ∈ items
      · have hsame : item ∈ items ++ [last] ↔ item ∈ items := by
          simp only [List.mem_append, List.mem_singleton]
          exact ⟨fun hmem => hmem.elim id (fun heq => heq ▸ hlast), Or.inl⟩
        simp [hlast, ih]
        exact fun heq => heq ▸ hlast
      · simp [hlast, ih]

theorem filter_firsts (keep : β → Bool) (items : List β) :
    (firsts [] items).filter keep = firsts [] (items.filter keep) := by
  induction items using List.reverseRecOn with
  | nil => rfl
  | append_singleton items last ih =>
      rw [firsts_concat, List.filter_append, ih, List.filter_append, List.filter_singleton]
      cases hkeep : keep last with
      | true =>
          have hiff : last ∈ items.filter keep ↔ last ∈ items := by simp [hkeep]
          simp only [cond_true, firsts_concat, hiff]
          by_cases hlast : last ∈ items <;> simp [hlast, hkeep]
      | false =>
          by_cases hlast : last ∈ items <;> simp [hlast, hkeep]

/-- No item appears for the first time after the last one did. -/
def EndsNew (items : List β) : Prop :=
  ∀ last ∈ items.getLast?, ∀ item ∈ items, items.idxOf item ≤ items.idxOf last

instance (items : List β) : Decidable (EndsNew items) :=
  inferInstanceAs (Decidable (∀ last ∈ items.getLast?, _))

/-- The last of the first occurrences is the item that appears last. -/
theorem idxOf_le_getLast?_firsts {items : List β} {newest : β}
    (hnewest : newest ∈ (firsts [] items).getLast?) :
    ∀ item ∈ items, items.idxOf item ≤ items.idxOf newest := by
  induction items using List.reverseRecOn with
  | nil =>
      intro item hitem
      cases hitem
  | append_singleton items last ih =>
      rw [firsts_concat] at hnewest
      by_cases hlast : last ∈ items
      · rw [if_pos (Or.inr hlast), List.append_nil] at hnewest
        have hmem : newest ∈ items := mem_firsts.mp (List.mem_of_getLast? hnewest)
        intro item hitem
        have hitem : item ∈ items := by
          rcases List.mem_append.mp hitem with hitem | hitem
          · exact hitem
          · rwa [List.mem_singleton.mp hitem]
        rw [List.idxOf_append_of_mem hitem, List.idxOf_append_of_mem hmem]
        exact ih hnewest item hitem
      · have hnew : ¬ (last ∈ ([] : List β) ∨ last ∈ items) := by simp [hlast]
        rw [if_neg hnew, List.getLast?_concat] at hnewest
        obtain rfl := Option.some.inj hnewest
        intro item hitem
        have hbound : (items ++ [last]).idxOf item < (items ++ [last]).length :=
          List.idxOf_lt_length_iff.mpr hitem
        rw [List.idxOf_append_of_notMem hlast]
        simp only [List.length_append, List.length_singleton, List.idxOf_cons_self] at hbound ⊢
        omega

theorem getLast?_firsts_eq_iff {items : List β} :
    (firsts [] items).getLast? = items.getLast? ↔ EndsNew items := by
  constructor
  · intro hsame last hlast
    rw [← hsame] at hlast
    exact idxOf_le_getLast?_firsts hlast
  · intro hnew
    cases hlast : items.getLast? with
    | none =>
        rw [List.getLast?_eq_none_iff] at hlast
        rw [hlast]
        rfl
    | some last =>
        have hmem : last ∈ items := List.mem_of_getLast? hlast
        obtain ⟨newest, hnewest⟩ : ∃ newest, (firsts [] items).getLast? = some newest := by
          cases hfirsts : (firsts [] items).getLast? with
          | none =>
              rw [List.getLast?_eq_none_iff] at hfirsts
              have hnone := mem_firsts.mpr hmem
              rw [hfirsts] at hnone
              cases hnone
          | some newest => exact ⟨newest, rfl⟩
        have hle := idxOf_le_getLast?_firsts hnewest last hmem
        have hge := hnew last hlast newest (mem_firsts.mp (List.mem_of_getLast? hnewest))
        rw [hnewest, Option.some_inj]
        exact ((List.idxOf_inj hmem).mp (Nat.le_antisymm hle hge)).symm

end Once

section Offers

variable [LinearOrder ρ] [DecidableEq α]

/-- Leaving out repeated writes does not change the result exactly when, among the writes that nothing
outranks, the last one is the one that is new last. -/
theorem offered_firsts_eq_iff (held : Option (Write α ρ)) (writes : List (Write α ρ)) :
    offered held (firsts [] writes) = offered held writes ↔ EndsNew (tops held writes) := by
  have htops : tops held (firsts [] writes) = firsts [] (tops held writes) := by
    rw [tops, tops, ← filter_firsts]
    refine List.filter_congr fun write _ => decide_eq_decide.mpr (and_congr_right fun _ => ?_)
    simp only [mem_firsts]
  rw [offered_eq, offered_eq, htops, ← getLast?_firsts_eq_iff]
  cases hlast : (tops held writes).getLast? with
  | none =>
      rw [List.getLast?_eq_none_iff] at hlast
      simp [hlast, firsts]
  | some last =>
      have hmem : last ∈ firsts [] (tops held writes) :=
        mem_firsts.mpr (List.mem_of_getLast? hlast)
      cases hfirsts : (firsts [] (tops held writes)).getLast? with
      | none =>
          rw [List.getLast?_eq_none_iff] at hfirsts
          rw [hfirsts] at hmem
          cases hmem
      | some newest => simp

omit [DecidableEq α] in
/-- More writes give no less authority. -/
theorem offered_le {held : Option (Write α ρ)} {writes others : List (Write α ρ)}
    (hsubset : writes ⊆ others) {last : Write α ρ} (hlast : last ∈ offered held writes) :
    ∃ other ∈ offered held others, last.authority ≤ other.authority := by
  obtain ⟨hheld, hwrites, -⟩ := offered_outranks held others
  rcases (offered_outranks held writes).2.2 last hlast with hold | hmem
  · exact hheld last hold
  · exact hwrites last (hsubset hmem)

/-- The same holds of the values alone, as both results have the same authority. -/
theorem offered_firsts_value_eq_iff (held : Option (Write α ρ)) (writes : List (Write α ρ)) :
    (offered held (firsts [] writes)).map Write.value = (offered held writes).map Write.value
      ↔ EndsNew (tops held writes) := by
  rw [← offered_firsts_eq_iff]
  constructor
  · intro hvalues
    cases honce : offered held (firsts [] writes) with
    | none =>
        rw [honce, Option.map_none] at hvalues
        exact (Option.map_eq_none_iff.mp hvalues.symm).symm
    | some last =>
        obtain ⟨other, hother, hle⟩ := offered_le (fun _ => mem_firsts.mp) honce
        obtain ⟨last', hlast', hge⟩ := offered_le (fun _ => mem_firsts.mpr) hother
        rw [honce, Option.mem_def, Option.some_inj] at hlast'
        subst hlast'
        rw [honce, hother] at hvalues
        rw [hother]
        have hvalue : last.value = other.value := Option.some.inj hvalues
        have hauthority : last.authority = other.authority := le_antisymm hle hge
        cases last
        cases other
        simp_all
  · exact fun hsame => by rw [hsame]

end Offers

end Register
