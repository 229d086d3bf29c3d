import Mathlib.Data.List.Basic
import Mathlib.Data.List.Nodup

/-!
# Keyed tables

A relational table is a list of rows, in insertion order, in which no primary key occurs twice.
The key constraint is a field, so a table that violates it cannot be built. A row is looked up by
its key; the other reads of a query language are the list functions on `rows`.
-/

/-- The primary key of a row type. -/
class Keyed (α : Type) (κ : outParam Type) where
  key : α → κ

open Keyed (key)

/-- Rows in insertion order, with distinct primary keys. -/
structure Table (α : Type) {κ : Type} [Keyed α κ] where
  rows : List α
  nodup : (rows.map key).Nodup

namespace Table

variable {α κ : Type} [DecidableEq κ] [Keyed α κ]

def empty : Table α := ⟨[], List.nodup_nil⟩

instance : Inhabited (Table α) := ⟨empty⟩

omit [DecidableEq κ] in
@[ext] theorem ext {first second : Table α} (hrows : first.rows = second.rows) : first = second := by
  cases first
  cases second
  congr

/-- `SELECT ... WHERE id = ?` -/
def get? (table : Table α) (k : κ) : Option α :=
  table.rows.find? fun row => key row = k

/-- `INSERT`, on a table in which the key is free; otherwise the table is left alone. -/
def insert (table : Table α) (row : α) : Table α :=
  if hfree : key row ∈ table.rows.map key then table
  else ⟨table.rows ++ [row], by
    rw [List.map_append, List.nodup_append]
    refine ⟨table.nodup, List.nodup_singleton _, ?_⟩
    intro k hk k' hk' heq
    rw [List.map_singleton, List.mem_singleton] at hk'
    exact hfree (hk' ▸ heq ▸ hk)⟩

/-- `UPDATE ... WHERE id = ?`, which touches no row when the key is absent. -/
def set (table : Table α) (row : α) : Table α :=
  ⟨table.rows.map fun old => if key old = key row then row else old, by
    have hkeys : (table.rows.map fun old => if key old = key row then row else old).map key
        = table.rows.map key := by
      rw [List.map_map]
      refine List.map_congr_left fun old _ => ?_
      by_cases heq : key old = key row
      · simp [heq]
      · simp [heq]
    rw [hkeys]
    exact table.nodup⟩

/-- `INSERT ... ON CONFLICT(id) DO UPDATE` -/
def upsert (table : Table α) (row : α) : Table α :=
  if (table.get? (key row)).isSome then table.set row else table.insert row

/-- `DELETE`, of the rows without the property. -/
def filter (table : Table α) (keep : α → Bool) : Table α :=
  ⟨table.rows.filter keep, table.nodup.sublist (List.filter_sublist.map key)⟩

/-- The last rows. -/
def last (table : Table α) (count : Nat) : Table α :=
  ⟨table.rows.drop (table.rows.length - count),
    table.nodup.sublist ((List.drop_sublist _ _).map key)⟩

/-! ### Lookup -/

theorem key_of_get? {table : Table α} {k : κ} {row : α} (hget : table.get? k = some row) :
    key row = k := by
  simpa using List.find?_some hget

theorem mem_of_get? {table : Table α} {k : κ} {row : α} (hget : table.get? k = some row) :
    row ∈ table.rows :=
  List.mem_of_find?_eq_some hget

theorem get?_of_mem {table : Table α} {row : α} (hmem : row ∈ table.rows) :
    table.get? (key row) = some row := by
  cases hfind : table.get? (key row) with
  | none =>
      have hnone := List.find?_eq_none.mp hfind row hmem
      simp at hnone
  | some found =>
      have hinj := List.inj_on_of_nodup_map table.nodup (mem_of_get? hfind) hmem
        (key_of_get? hfind)
      rw [hinj]

/-- The rows of a table are exactly what its lookups return. -/
theorem mem_rows_iff {table : Table α} {row : α} :
    row ∈ table.rows ↔ table.get? (key row) = some row :=
  ⟨get?_of_mem, mem_of_get?⟩

theorem get?_eq_none_iff {table : Table α} {k : κ} :
    table.get? k = none ↔ k ∉ table.rows.map key := by
  simp [get?, List.find?_eq_none]

@[simp] theorem get?_empty (k : κ) : (empty : Table α).get? k = none := rfl

omit [DecidableEq κ] in
@[simp] theorem rows_empty : (empty : Table α).rows = [] := rfl

omit [DecidableEq κ] in
theorem mem_last {table : Table α} {count : Nat} {row : α} (hmem : row ∈ (table.last count).rows) :
    row ∈ table.rows :=
  List.mem_of_mem_drop hmem

/-! ### Insertion -/

theorem rows_insert {table : Table α} {row : α} (hfree : table.get? (key row) = none) :
    (table.insert row).rows = table.rows ++ [row] := by
  rw [insert, dif_neg (get?_eq_none_iff.mp hfree)]

theorem get?_insert_self {table : Table α} {row : α} (hfree : table.get? (key row) = none) :
    (table.insert row).get? (key row) = some row := by
  have hrows := rows_insert hfree
  exact get?_of_mem (by rw [hrows]; simp)

theorem get?_insert_of_ne (table : Table α) {row : α} {k : κ} (hne : k ≠ key row) :
    (table.insert row).get? k = table.get? k := by
  unfold insert
  split
  · rfl
  · simp [get?, List.find?_append, Ne.symm hne]

theorem get?_insert {table : Table α} (row : α) (hfree : table.get? (key row) = none) (k : κ) :
    (table.insert row).get? k = if k = key row then some row else table.get? k := by
  by_cases heq : k = key row
  · rw [if_pos heq, heq, get?_insert_self hfree]
  · rw [if_neg heq, get?_insert_of_ne table heq]

/-- A row that was there before an insertion is there after it. -/
theorem get?_insert_mono (table : Table α) (row : α) {k : κ} {old : α}
    (hget : table.get? k = some old) : (table.insert row).get? k = some old := by
  by_cases heq : k = key row
  · have hmem : key row ∈ table.rows.map key := by
      rw [← heq, ← key_of_get? hget]
      exact List.mem_map_of_mem (mem_of_get? hget)
    rw [insert, dif_pos hmem]
    exact hget
  · rw [get?_insert_of_ne table heq]
    exact hget

/-! ### Update -/

theorem rows_set (table : Table α) (row : α) :
    (table.set row).rows = table.rows.map fun old => if key old = key row then row else old := rfl

theorem get?_set_of_ne (table : Table α) {row : α} {k : κ} (hne : k ≠ key row) :
    (table.set row).get? k = table.get? k := by
  simp only [get?, rows_set]
  induction table.rows with
  | nil => rfl
  | cons old rest ih =>
      rw [List.map_cons, List.find?_cons, List.find?_cons, ih]
      by_cases heq : key old = key row
      · have hold : ¬ key old = k := fun h => hne (h.symm.trans heq)
        simp [heq, Ne.symm hne]
      · simp [heq]

theorem get?_set_self {table : Table α} {row old : α} (hget : table.get? (key row) = some old) :
    (table.set row).get? (key row) = some row := by
  refine get?_of_mem ?_
  rw [rows_set]
  exact List.mem_map.mpr ⟨old, mem_of_get? hget, by simp [key_of_get? hget]⟩

theorem get?_set (table : Table α) (row : α) (k : κ) :
    (table.set row).get? k
      = if k = key row then (table.get? k).map (fun _ => row) else table.get? k := by
  by_cases heq : k = key row
  · rw [if_pos heq]
    cases hget : table.get? k with
    | none =>
        rw [Option.map_none, get?_eq_none_iff]
        rw [get?_eq_none_iff] at hget
        intro hmem
        refine hget ?_
        rw [rows_set, List.map_map] at hmem
        obtain ⟨old, hold, hkey⟩ := List.mem_map.mp hmem
        by_cases hrow : key old = key row
        · exact List.mem_map.mpr ⟨old, hold, hrow.trans heq.symm⟩
        · simp only [Function.comp_apply, hrow, if_false] at hkey
          exact List.mem_map.mpr ⟨old, hold, hkey⟩
    | some old =>
        rw [heq] at hget ⊢
        rw [get?_set_self hget]
        rfl
  · rw [if_neg heq, get?_set_of_ne table heq]

/-- An update of a row that is there. -/
theorem get?_set_row {table : Table α} {row old : α} {k : κ} (hget : table.get? k = some old)
    (k' : κ) (hkey : key row = k) :
    (table.set row).get? k' = if k' = k then some row else table.get? k' := by
  rw [get?_set, hkey]
  by_cases heq : k' = k
  · rw [if_pos heq, if_pos heq, heq, hget]
    rfl
  · rw [if_neg heq, if_neg heq]

/-- The first row with a property, after an update of it that keeps the property. -/
theorem find?_rows_set {table : Table α} {row old : α} {keep : α → Bool}
    (hfind : table.rows.find? keep = some old) (hkey : key old = key row) (hkeep : keep row = true) :
    (table.set row).rows.find? keep = some row := by
  rw [rows_set]
  have hnodup := table.nodup
  generalize table.rows = rows at hfind hnodup
  induction rows with
  | nil => cases hfind
  | cons first rest ih =>
      rw [List.map_cons, List.nodup_cons] at hnodup
      rw [List.find?_cons] at hfind
      rw [List.map_cons, List.find?_cons]
      cases hfirst : keep first with
      | true =>
          rw [hfirst] at hfind
          obtain rfl := Option.some.inj hfind
          rw [if_pos hkey, hkeep]
      | false =>
          rw [hfirst] at hfind
          have hother : key first ≠ key row := by
            intro heq
            refine hnodup.1 ?_
            rw [heq, ← hkey]
            exact List.mem_map_of_mem (List.mem_of_find?_eq_some hfind)
          rw [if_neg hother, hfirst]
          exact ih hfind hnodup.2

/-- Writing back the row that is there changes nothing. -/
theorem set_eq_self {table : Table α} {row : α} (hget : table.get? (key row) = some row) :
    table.set row = table := by
  have hrows : (table.set row).rows = table.rows := by
    rw [rows_set]
    refine (List.map_congr_left fun old hold => ?_).trans (List.map_id _)
    by_cases heq : key old = key row
    · have hold := get?_of_mem hold
      rw [heq, hget] at hold
      simp [Option.some.inj hold]
    · simp [heq]
  cases table
  cases hset : Table.set _ row
  simpa [hset] using hrows

/-- An update keeps every key, and a query that reads a column the update keeps sees no change. -/
theorem map_rows_set {β : Type} (table : Table α) (row : α) (column : α → β)
    (hsame : ∀ old, table.get? (key row) = some old → column old = column row) :
    (table.set row).rows.map column = table.rows.map column := by
  rw [rows_set, List.map_map]
  refine List.map_congr_left fun old hold => ?_
  by_cases heq : key old = key row
  · have hget := get?_of_mem hold
    rw [heq] at hget
    simp [heq, hsame old hget]
  · simp [heq]

/-- An insert that is updated at once is the insert of the new row. -/
theorem set_insert {table : Table α} {first second : α} (hfree : table.get? (key first) = none)
    (hkey : key first = key second) : (table.insert first).set second = table.insert second := by
  have hrows : ((table.insert first).set second).rows = (table.insert second).rows := by
    have hothers : (table.rows.map fun old => if key old = key second then second else old)
        = table.rows := by
      refine (List.map_congr_left fun old hold => ?_).trans (List.map_id _)
      have hne : key old ≠ key second := by
        intro heq
        rw [hkey, get?_eq_none_iff] at hfree
        exact hfree (heq ▸ List.mem_map_of_mem hold)
      exact if_neg hne
    rw [rows_set, rows_insert hfree, rows_insert (hkey ▸ hfree), List.map_append, hothers]
    simp [hkey]
  cases hset : (table.insert first).set second
  cases hinsert : table.insert second
  simpa [hset, hinsert] using hrows

/-- Updating some of the rows, one after the other, maps them in place: the rows to update are read
before the first update, and no two have one key. -/
theorem rows_foldl_set [DecidableEq α] {f : α → α} (hkey : ∀ a, key (f a) = key a) {rows : List α} :
    ∀ {table : Table α}, (∀ a ∈ rows, table.get? (key a) = some a) → (rows.map key).Nodup →
      (rows.foldl (fun t a => t.set (f a)) table).rows
        = table.rows.map fun a => if a ∈ rows then f a else a := by
  induction rows with
  | nil =>
      intro table _ _
      simp
  | cons a rest ih =>
      intro table hrows hnodup
      rw [List.map_cons, List.nodup_cons] at hnodup
      obtain ⟨hfirst, hrest⟩ := hnodup
      have hother : ∀ b ∈ rest, key b ≠ key (f a) := by
        intro b hb heq
        exact hfirst (by rw [← hkey a, ← heq]; exact List.mem_map_of_mem hb)
      have hset : ∀ b ∈ rest, (table.set (f a)).get? (key b) = some b := by
        intro b hb
        rw [get?_set_of_ne table (hother b hb)]
        exact hrows b (List.mem_cons_of_mem _ hb)
      rw [List.foldl_cons, ih hset hrest, rows_set, List.map_map]
      refine List.map_congr_left fun old hold => ?_
      by_cases heq : key old = key (f a)
      · have hsame : old = a := by
          have hget := get?_of_mem hold
          rw [heq, hkey a, hrows a List.mem_cons_self] at hget
          exact (Option.some.inj hget).symm
        have hnot : f a ∉ rest := fun hmem => hother _ hmem rfl
        simp [hsame, hkey, hnot]
      · have hne : old ≠ a := fun h => heq (by rw [h, hkey])
        simp [heq, hne]

/-- An update of every row that keeps the keys. -/
theorem get?_of_rows_map {table table' : Table α} {f : α → α}
    (hrows : table'.rows = table.rows.map f) (hkey : ∀ a, key (f a) = key a) (k : κ) :
    table'.get? k = (table.get? k).map f := by
  rw [get?, get?, hrows, List.find?_map]
  refine congrArg (Option.map f) ?_
  refine congrArg (fun p => table.rows.find? p) (funext fun row => ?_)
  simp [hkey]

/-! ### Upsert -/

theorem get?_upsert_self (table : Table α) (row : α) :
    (table.upsert row).get? (key row) = some row := by
  unfold upsert
  cases hget : table.get? (key row) with
  | none => simpa using get?_insert_self hget
  | some old => simpa using get?_set_self hget

theorem get?_upsert (table : Table α) (row : α) (k : κ) :
    (table.upsert row).get? k = if k = key row then some row else table.get? k := by
  by_cases heq : k = key row
  · rw [if_pos heq, heq, get?_upsert_self]
  · rw [if_neg heq]
    unfold upsert
    split
    · exact get?_set_of_ne table heq
    · exact get?_insert_of_ne table heq

theorem get?_upsert_of_ne (table : Table α) {row : α} {k : κ} (hne : k ≠ key row) :
    (table.upsert row).get? k = table.get? k := by
  unfold upsert
  split
  · exact get?_set_of_ne table hne
  · exact get?_insert_of_ne table hne

theorem rows_upsert_new {table : Table α} {row : α} (hnew : table.get? (key row) = none) :
    (table.upsert row).rows = table.rows ++ [row] := by
  unfold upsert
  rw [hnew]
  exact rows_insert hnew

theorem rows_upsert_old {table : Table α} {row old : α} (hold : table.get? (key row) = some old) :
    (table.upsert row).rows = table.rows.map fun old => if key old = key row then row else old := by
  unfold upsert
  rw [hold]
  exact rows_set table row

/-- A row after an upsert is the one that was written, or it was there. -/
theorem mem_upsert {table : Table α} {row other : α} (hmem : other ∈ (table.upsert row).rows) :
    other = row ∨ other ∈ table.rows := by
  have hget := get?_of_mem hmem
  rw [get?_upsert] at hget
  by_cases hkey : key other = key row
  · rw [if_pos hkey] at hget
    exact Or.inl (Option.some.inj hget).symm
  · rw [if_neg hkey] at hget
    exact Or.inr (mem_of_get? hget)

/-! ### Delete -/

omit [DecidableEq κ] in
theorem mem_filter {table : Table α} {keep : α → Bool} {row : α} :
    row ∈ (table.filter keep).rows ↔ row ∈ table.rows ∧ keep row = true :=
  List.mem_filter

theorem get?_filter {table : Table α} {keep : α → Bool} {k : κ} {row : α} :
    (table.filter keep).get? k = some row ↔ table.get? k = some row ∧ keep row = true := by
  constructor
  · intro hget
    obtain ⟨hmem, hkeep⟩ := mem_filter.mp (mem_of_get? hget)
    have hrow : table.get? (key row) = some row := get?_of_mem hmem
    rw [key_of_get? hget] at hrow
    exact ⟨hrow, hkeep⟩
  · rintro ⟨hget, hkeep⟩
    have hmem : row ∈ (table.filter keep).rows := mem_filter.mpr ⟨mem_of_get? hget, hkeep⟩
    have hrow := get?_of_mem hmem
    rw [key_of_get? hget] at hrow
    exact hrow

/-! ### Order -/

theorem get?_of_perm {first second : Table α} (hperm : first.rows.Perm second.rows) (k : κ) :
    first.get? k = second.get? k := by
  apply Option.ext
  intro row
  constructor
  · intro hget
    rw [← key_of_get? hget]
    exact get?_of_mem (hperm.mem_iff.mp (mem_of_get? hget))
  · intro hget
    rw [← key_of_get? hget]
    exact get?_of_mem (hperm.mem_iff.mpr (mem_of_get? hget))

/-- The order of the rows does not matter to what an upsert leaves. -/
theorem upsert_perm {first second : Table α} (hperm : first.rows.Perm second.rows) (row : α) :
    (first.upsert row).rows.Perm (second.upsert row).rows := by
  cases hget : first.get? (key row) with
  | none =>
      rw [rows_upsert_new hget, rows_upsert_new ((get?_of_perm hperm _).symm.trans hget)]
      exact hperm.append_right [row]
  | some old =>
      rw [rows_upsert_old hget, rows_upsert_old ((get?_of_perm hperm _).symm.trans hget)]
      exact hperm.map _

/-- Rows with keys of their own follow each other. -/
theorem rows_foldl_upsert {rows : List α} {table : Table α}
    (hnodup : ((table.rows ++ rows).map key).Nodup) :
    (rows.foldl upsert table).rows = table.rows ++ rows := by
  induction rows generalizing table with
  | nil => rw [List.foldl_nil, List.append_nil]
  | cons row rest ih =>
      have hnew : table.get? (key row) = none := by
        rw [get?_eq_none_iff]
        intro hmem
        rw [List.map_append, List.nodup_append] at hnodup
        exact hnodup.2.2 _ hmem _ (List.mem_map_of_mem List.mem_cons_self) rfl
      rw [List.foldl_cons, ih, rows_upsert_new hnew, List.append_assoc, List.singleton_append]
      rwa [rows_upsert_new hnew, List.append_assoc, List.singleton_append]

end Table
