import Mathlib.Data.List.Nodup
import Mathlib.Data.List.Range
import Mathlib.Tactic.Common

/-!
# Numbered logs

A log that only grows, whose items carry the numbers one, two, three and so on. The next number is one
above the greatest, no number is there twice, and a reader who has seen the first items and asks for
those above the last number it saw gets every later item once.
-/

/-- The items carry the numbers from one to the length of the log. -/
def Numbered {α : Type} (number : α → Nat) (log : List α) : Prop :=
  log.map number = List.range' 1 log.length

namespace Numbered

variable {α : Type} {number : α → Nat} {log : List α}

theorem nil : Numbered number ([] : List α) := rfl

theorem append {item : α} (hlog : Numbered number log) (hitem : number item = log.length + 1) :
    Numbered number (log ++ [item]) := by
  unfold Numbered at hlog ⊢
  rw [List.map_append, hlog, List.length_append, List.length_singleton, List.range'_concat]
  simp [hitem, Nat.add_comm]

theorem nodup (hlog : Numbered number log) : (log.map number).Nodup := by
  rw [hlog]
  exact List.nodup_range'

theorem pairwise_lt (hlog : Numbered number log) :
    log.Pairwise fun left right => number left < number right := by
  rw [← List.pairwise_map (f := number) (R := (· < ·)), hlog]
  exact List.pairwise_lt_range'

/-- The greatest number is the length of the log. -/
theorem foldr_max (hlog : Numbered number log) : (log.map number).foldr max 0 = log.length := by
  rw [hlog]
  have hrange : ∀ start count, 0 < start →
      (List.range' start count).foldr max 0 = if count = 0 then 0 else start + count - 1 := by
    intro start count hstart
    induction count generalizing start with
    | zero => rfl
    | succ count ih =>
        rw [List.range'_succ, List.foldr_cons, ih (start + 1) (by omega)]
        by_cases hzero : count = 0
        · simp [hzero]
        · simp [hzero]
  rw [hrange 1 log.length Nat.one_pos]
  split <;> omega

/-- The items above a number are the log without its first items. -/
theorem filter_above (hlog : Numbered number log) (seen : Nat) :
    (log.filter fun item => seen < number item) = log.drop seen := by
  have hshift : ∀ (items : List α) (start : Nat), items.map number = List.range' start items.length →
      (items.filter fun item => seen < number item) = items.drop (seen + 1 - start) := by
    intro items
    induction items with
    | nil =>
        intro start _
        simp
    | cons item rest ih =>
        intro start hitems
        rw [List.map_cons, List.length_cons, List.range'_succ, List.cons.injEq] at hitems
        obtain ⟨hitem, hrest⟩ := hitems
        rw [List.filter_cons, ih (start + 1) hrest, hitem]
        by_cases hseen : seen < start
        · have hnone : seen + 1 - start = 0 := by omega
          have hnext : seen + 1 - (start + 1) = 0 := by omega
          simp [hseen, hnone, hnext]
        · have hsucc : seen + 1 - start = seen + 1 - (start + 1) + 1 := by omega
          simp [hseen, hsucc]
  have hfilter := hshift log 1 hlog
  rwa [Nat.add_sub_cancel] at hfilter

/-- A reader gets the items above a number, and later those above the last one there was: together
these are all items above the number. -/
theorem drop_append_drop {earlier later : List α} (hearlier : earlier <+: later) (seen : Nat) :
    earlier.drop seen ++ later.drop (max seen earlier.length) = later.drop seen := by
  obtain ⟨rest, rfl⟩ := hearlier
  rw [List.drop_append, List.drop_append, List.drop_eq_nil_of_le (Nat.le_max_right _ _)]
  rw [List.nil_append]
  refine congrArg (earlier.drop seen ++ ·) (congrArg (rest.drop ·) ?_)
  omega

end Numbered
