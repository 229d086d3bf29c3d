import Mathlib.Data.List.Basic
import Mathlib.Data.List.Find
import PatchLoop.Lib.Table

/-!
# Items that are held once

Items have a key, which names them, and a tag, which says what they are. A table that interns them holds one
item of each tag: another item of a tag that is there stands for the one that is held, whatever its key is.
Which item is held depends on the order of the items alone, so that interning them once more changes nothing.
-/

open Keyed (key)

namespace Interning

variable {α κ τ ε : Type} [DecidableEq κ] [DecidableEq τ] [Keyed α κ]

/-- The first item of a tag. -/
def holder (tag : α → τ) (items : List α) (t : τ) : Option α := items.find? fun a => tag a = t

/-- The key under which an item is held: that of the first item of its tag. -/
def heldAs (tag : α → τ) (items : List α) (a : α) : κ := (holder tag items (tag a)).elim (key a) key

section Holders

variable {tag : α → τ} {items others : List α} {a b : α} {t : τ}

omit [DecidableEq κ] [Keyed α κ] in
theorem tag_of_holder (hheld : holder tag items t = some a) : tag a = t := by
  simpa using List.find?_some hheld

omit [DecidableEq κ] [Keyed α κ] in
theorem mem_of_holder (hheld : holder tag items t = some a) : a ∈ items := List.mem_of_find?_eq_some hheld

omit [DecidableEq κ] [Keyed α κ] in
theorem holder_cons_self : holder tag (a :: items) (tag a) = some a := by
  simp [holder]

omit [DecidableEq κ] [Keyed α κ] in
theorem holder_append : holder tag (items ++ others) t = (holder tag items t).or (holder tag others t) :=
  List.find?_append

omit [DecidableEq κ] [Keyed α κ] in
theorem holder_eq_none_iff : holder tag items t = none ↔ ∀ a ∈ items, tag a ≠ t := by
  simp [holder]

omit [DecidableEq κ] [Keyed α κ] in
theorem exists_holder (tag : α → τ) (hmem : a ∈ items) : ∃ held, holder tag items (tag a) = some held := by
  cases hheld : holder tag items (tag a) with
  | none => exact absurd rfl (holder_eq_none_iff.mp hheld a hmem)
  | some held => exact ⟨held, rfl⟩

omit [DecidableEq κ] [Keyed α κ] in
/-- An item of a tag that is held already is not the holder of any. -/
theorem holder_concat_of_mem (hmem : b ∈ items) (htag : tag b = tag a) :
    holder tag (items ++ [a]) t = holder tag items t := by
  rw [holder_append]
  by_cases ht : tag a = t
  · obtain ⟨held, hheld⟩ := exists_holder tag hmem
    rw [← ht, ← htag, hheld]
    rfl
  · have hnone : holder tag [a] t = none := holder_eq_none_iff.mpr fun other hother => by
      rwa [List.mem_singleton.mp hother]
    rw [hnone, Option.or_none]

omit [DecidableEq κ] in
theorem heldAs_of_holder {held : α} (hheld : holder tag items (tag a) = some held) :
    heldAs tag items a = key held := by
  rw [heldAs, hheld]
  rfl

omit [DecidableEq κ] in
/-- Where items are held already, they are held as they were when they came. -/
theorem heldAs_again {held : List α} (hmem : a ∈ others)
    (hsame : (holder tag held (tag a)).map key = (holder tag (items ++ others) (tag a)).map key) :
    heldAs tag (held ++ others) a = heldAs tag (items ++ others) a := by
  obtain ⟨first, hfirst⟩ := exists_holder tag (List.mem_append_right items hmem)
  rw [hfirst] at hsame
  obtain ⟨second, hsecond, hkey⟩ := Option.map_eq_some_iff.mp hsame
  rw [heldAs_of_holder hfirst, ← hkey, heldAs, holder_append, hsecond]
  rfl

end Holders

/-! ### Keeping the first item of a tag -/

/-- The item of a table that has the tag of an item: where there is none, the item is inserted. -/
def keepFirst (tag : α → τ) (collision : ε) (table : Table α) (a : α) : Except ε (α × Table α) :=
  match holder tag table.rows (tag a) with
  | some held => .ok (held, table)
  | none => if (table.get? (key a)).isSome then .error collision else .ok (a, table.insert a)

section Keeping

variable {tag : α → τ} {collision : ε} {table table' : Table α} {a kept : α}

/-- What keeping an item does: nothing where its tag is there. -/
theorem keepFirst_eq_ok (hkept : keepFirst tag collision table a = .ok (kept, table')) :
    (holder tag table.rows (tag a) = some kept ∧ table' = table)
      ∨ (holder tag table.rows (tag a) = none ∧ kept = a ∧ table'.rows = table.rows ++ [a]) := by
  unfold keepFirst at hkept
  split at hkept
  · rename_i held hheld
    cases hkept
    exact Or.inl ⟨hheld, rfl⟩
  · rename_i hnone
    split at hkept
    · cases hkept
    · rename_i hfree
      cases hkept
      exact Or.inr ⟨hnone, rfl, Table.rows_insert (by simpa using hfree)⟩

theorem keepFirst_of_holder (hheld : holder tag table.rows (tag a) = some kept) :
    keepFirst tag collision table a = .ok (kept, table) := by
  rw [keepFirst, hheld]

/-- The holders of a table that has kept an item are those of its rows and of the item after them. -/
theorem holder_keepFirst (hkept : keepFirst tag collision table a = .ok (kept, table')) (t : τ) :
    holder tag table'.rows t = holder tag (table.rows ++ [a]) t := by
  rcases keepFirst_eq_ok hkept with ⟨hheld, rfl⟩ | ⟨-, rfl, hrows⟩
  · exact (holder_concat_of_mem (mem_of_holder hheld) (tag_of_holder hheld)).symm
  · rw [hrows]

theorem keepFirst_holder (hkept : keepFirst tag collision table a = .ok (kept, table')) :
    holder tag table'.rows (tag a) = some kept := by
  rcases keepFirst_eq_ok hkept with ⟨hheld, rfl⟩ | ⟨hnone, rfl, hrows⟩
  · exact hheld
  · rw [hrows, holder_append, hnone, Option.none_or, holder_cons_self]

end Keeping

/-! ### Overwriting -/

/-- Items that overwrite those of their keys, one after the other. -/
def upserts (table : Table α) (items : List α) : Table α := items.foldl Table.upsert table

/-- The last item of a key. -/
def latestWith (items : List α) (k : κ) : Option α := items.reverse.find? fun a => key a = k

section Overwriting

variable {table : Table α} {items : List α} {a : α} {k : κ}

theorem get?_upserts (table : Table α) (items : List α) (k : κ) :
    (upserts table items).get? k = (latestWith items k).or (table.get? k) := by
  induction items generalizing table with
  | nil => rfl
  | cons a rest ih =>
      have hlast : latestWith (a :: rest) k = (latestWith rest k).or (latestWith [a] k) := by
        rw [latestWith, List.reverse_cons, List.find?_append]
        rfl
      rw [upserts, List.foldl_cons, ← upserts, ih, hlast, Option.or_assoc, Table.get?_upsert]
      refine congrArg (Option.or _) ?_
      by_cases hk : k = key a
      · simp [latestWith, hk]
      · simp [latestWith, hk, Ne.symm hk]

omit [DecidableEq κ] in
theorem keys_set [DecidableEq κ] (table : Table α) (a : α) :
    (table.set a).rows.map key = table.rows.map key :=
  Table.map_rows_set table a key fun _ hold => Table.key_of_get? hold

/-- The keys of items that are there already stay in their order. -/
theorem keys_upserts (hitems : ∀ a ∈ items, (table.get? (key a)).isSome) :
    (upserts table items).rows.map key = table.rows.map key := by
  induction items generalizing table with
  | nil => rfl
  | cons a rest ih =>
      obtain ⟨ha, hrest⟩ := List.forall_mem_cons.mp hitems
      have hset : table.upsert a = table.set a := if_pos ha
      rw [upserts, List.foldl_cons, ← upserts, hset, ih, keys_set]
      intro b hb
      rw [Table.get?_set]
      split
      · simpa using hrest b hb
      · exact hrest b hb

/-- A table is what is found in it under its keys, in their order. -/
theorem rows_eq_filterMap (table : Table α) : table.rows = (table.rows.map key).filterMap table.get? := by
  rw [List.filterMap_map]
  calc table.rows = table.rows.filterMap some := List.filterMap_some.symm
    _ = table.rows.filterMap (table.get? ∘ key) :=
        List.filterMap_congr fun row hrow => (Table.get?_of_mem hrow).symm

theorem table_eq {first second : Table α} (hkeys : first.rows.map key = second.rows.map key)
    (hget : ∀ k, first.get? k = second.get? k) : first = second := by
  have hrows : first.rows = second.rows := by
    rw [rows_eq_filterMap first, rows_eq_filterMap second, hkeys, funext hget]
  cases first
  cases second
  cases hrows
  rfl

/-- Overwriting once more by the same items changes nothing. -/
theorem upserts_upserts (table : Table α) (items : List α) :
    upserts (upserts table items) items = upserts table items := by
  have hthere : ∀ a ∈ items, ((upserts table items).get? (key a)).isSome := by
    intro a ha
    have hsome : (latestWith items (key a)).isSome := by
      rw [latestWith, List.find?_isSome]
      exact ⟨a, List.mem_reverse.mpr ha, decide_eq_true rfl⟩
    rw [get?_upserts, Option.isSome_or, hsome, Bool.true_or]
  refine table_eq (keys_upserts hthere) fun k => ?_
  rw [get?_upserts, get?_upserts, ← Option.or_assoc, Option.or_self]

/-- An item that overwrites one of its tag is held as it is after the rows. -/
theorem holder_upsert {tag : α → τ} (hsame : ∀ old, table.get? (key a) = some old → tag old = tag a) (t : τ) :
    (holder tag (table.upsert a).rows t).map key = (holder tag (table.rows ++ [a]) t).map key := by
  cases hget : table.get? (key a) with
  | none => rw [Table.rows_upsert_new hget]
  | some old =>
      have htag : ∀ row ∈ table.rows, tag (if key row = key a then a else row) = tag row := by
        intro row hrow
        split
        · rename_i hkey
          have hfound := Table.get?_of_mem hrow
          rw [hkey] at hfound
          exact (hsame row hfound).symm
        · rfl
      have hfind : holder tag (table.upsert a).rows t
          = (holder tag table.rows t).map fun row => if key row = key a then a else row := by
        rw [Table.rows_upsert_old hget, holder, List.find?_map]
        refine congrArg (Option.map _) (List.find?_congr fun row hrow => ?_)
        simp [htag row hrow]
      rw [holder_concat_of_mem (Table.mem_of_get? hget) (hsame old hget), hfind, Option.map_map]
      refine congrArg (Option.map · _) (funext fun row => ?_)
      rw [Function.comp_apply]
      split
      · rename_i hkey
        exact hkey.symm
      · rfl

theorem latestWith_append (first second : List α) (k : κ) :
    latestWith (first ++ second) k = (latestWith second k).or (latestWith first k) := by
  rw [latestWith, List.reverse_append, List.find?_append]
  rfl

theorem latestWith_eq_none_iff : latestWith items k = none ↔ ∀ a ∈ items, key a ≠ k := by
  simp [latestWith]

theorem mem_of_latestWith (hlast : latestWith items k = some a) : a ∈ items ∧ key a = k :=
  ⟨List.mem_reverse.mp (List.mem_of_find?_eq_some hlast), by simpa using List.find?_some hlast⟩

end Overwriting

end Interning
