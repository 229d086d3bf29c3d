import PatchLoop.Lib.Table
import Mathlib.Data.List.Dedup
import Mathlib.Data.List.Flatten
import Mathlib.Data.List.Induction
import Mathlib.Data.List.Pairwise
import Mathlib.Data.List.Sort
import Mathlib.Tactic.Common

/-!
# Buckets

The elements of a list that share a key, in the order in which the keys come up first; lists in the order
of a rank; chunks of a size; and the last element for each key. Where the parts into which a list is
divided are removed whole, the other parts are found again.
-/

namespace Buckets

variable {α κ ρ : Type} [DecidableEq κ]

/-- The keys of the elements, in the order in which they come up. -/
def keysOf (key : α → κ) (items : List α) : List κ := ((items.map key).reverse.dedup).reverse

/-- The elements of each key. -/
def buckets (key : α → κ) (items : List α) : List (List α) :=
  (keysOf key items).map fun k => items.filter fun a => key a = k

/-- The elements in the order of their rank. -/
def sortBy [LinearOrder ρ] (rank : α → ρ) (items : List α) : List α :=
  items.insertionSort fun a b => rank a ≤ rank b

/-- `[items[i : i + size] for i in range(0, len(items), size)]` -/
def chunks (size : Nat) (items : List α) : List (List α) :=
  (List.range ((items.length + size - 1) / size)).map fun i => (items.drop (i * size)).take size

local instance entryKey (α κ : Type) : Keyed (κ × α) κ := ⟨Prod.fst⟩

/-- Remembers an element for its key, if its rank is above that of the one that was remembered. -/
def remember [LinearOrder ρ] (key : α → κ) (rank : α → ρ) (found : Table (κ × α)) (a : α) :
    Table (κ × α) :=
  match found.get? (key a) with
  | none => found.upsert (key a, a)
  | some (_, current) => if rank current < rank a then found.upsert (key a, a) else found

/-- For each key the element of the highest rank, the first one of that rank. -/
def latest [LinearOrder ρ] (key : α → κ) (rank : α → ρ) (items : List α) : List α :=
  (items.foldl (remember key rank) Table.empty).rows.map Prod.snd

/-! ### Buckets -/

section Keys

variable {key : α → κ} {items : List α}

theorem mem_keysOf {k : κ} : k ∈ keysOf key items ↔ ∃ a ∈ items, key a = k := by
  simp [keysOf]

theorem keysOf_nodup : (keysOf key items).Nodup :=
  List.nodup_reverse.mpr (List.nodup_dedup _)

theorem mem_buckets {bucket : List α} :
    bucket ∈ buckets key items
      ↔ ∃ a ∈ items, bucket = items.filter fun b => key b = key a := by
  rw [buckets, List.mem_map]
  constructor
  · rintro ⟨k, hk, rfl⟩
    obtain ⟨a, ha, rfl⟩ := mem_keysOf.mp hk
    exact ⟨a, ha, rfl⟩
  · rintro ⟨a, ha, rfl⟩
    exact ⟨key a, mem_keysOf.mpr ⟨a, ha, rfl⟩, rfl⟩

/-- The buckets have the elements, each of them once. -/
theorem buckets_perm (hitems : items.Nodup) : (buckets key items).flatten.Perm items := by
  have hdisjoint : (buckets key items).Pairwise List.Disjoint := by
    rw [buckets, List.pairwise_map]
    refine keysOf_nodup.imp fun hne a hfirst hsecond => hne ?_
    rw [← of_decide_eq_true (List.mem_filter.mp hfirst).2,
      of_decide_eq_true (List.mem_filter.mp hsecond).2]
  have hnodup : (buckets key items).flatten.Nodup := by
    refine List.nodup_flatten.mpr ⟨fun bucket hbucket => ?_, hdisjoint⟩
    obtain ⟨a, -, rfl⟩ := mem_buckets.mp hbucket
    exact hitems.filter _
  refine (List.perm_ext_iff_of_nodup hnodup hitems).mpr fun a => ?_
  rw [List.mem_flatten]
  constructor
  · rintro ⟨bucket, hbucket, ha⟩
    obtain ⟨b, -, rfl⟩ := mem_buckets.mp hbucket
    exact (List.mem_filter.mp ha).1
  · intro ha
    exact ⟨_, mem_buckets.mpr ⟨a, ha, rfl⟩, List.mem_filter.mpr ⟨ha, decide_eq_true rfl⟩⟩

end Keys

/-! ### Sorting -/

section Sorting

variable [LinearOrder ρ] {rank : α → ρ} {items others : List α}

theorem sortBy_perm : (sortBy rank items).Perm items := List.perm_insertionSort _ _

theorem mem_sortBy {a : α} : a ∈ sortBy rank items ↔ a ∈ items := sortBy_perm.mem_iff

theorem sortBy_pairwise : (sortBy rank items).Pairwise fun a b => rank a ≤ rank b := by
  have : Std.Total fun a b : α => rank a ≤ rank b := ⟨fun a b => le_total _ _⟩
  have : IsTrans α fun a b : α => rank a ≤ rank b := ⟨fun a b c => le_trans⟩
  exact List.pairwise_insertionSort _ _

/-- A list in the order of a rank that tells its elements apart is what sorting makes of its elements. -/
theorem sortBy_eq (hrank : ∀ a ∈ items, ∀ b ∈ items, rank a = rank b → a = b)
    (hperm : others.Perm items) (hsorted : others.Pairwise fun a b => rank a ≤ rank b) :
    sortBy rank items = others := by
  refine List.Perm.eq_of_pairwise ?_ sortBy_pairwise hsorted (sortBy_perm.trans hperm.symm)
  intro a b ha hb hab hba
  exact hrank a (mem_sortBy.mp ha) b (hperm.mem_iff.mp hb) (le_antisymm hab hba)

/-- A rank that tells the elements apart sorts them alike from any order. -/
theorem sortBy_congr (hrank : ∀ a ∈ items, ∀ b ∈ items, rank a = rank b → a = b)
    (hperm : others.Perm items) : sortBy rank others = sortBy rank items :=
  (sortBy_eq hrank (sortBy_perm.trans hperm) sortBy_pairwise).symm

end Sorting

/-! ### Chunks -/

section Chunks

variable {size : Nat} {items : List α}

omit [DecidableEq κ]

/-- Parts of a size, of which only the last one may be smaller. -/
def Uniform (size : Nat) : List (List α) → Prop
  | [] => True
  | [last] => last ≠ [] ∧ last.length ≤ size
  | part :: rest => part.length = size ∧ Uniform size rest

@[simp] theorem chunks_nil (hsize : 0 < size) : chunks size ([] : List α) = [] := by
  have hcount : (0 + size - 1) / size = 0 := Nat.div_eq_of_lt (by omega)
  rw [chunks, List.length_nil, hcount]
  rfl

theorem chunks_append (hsize : 0 < size) {first rest : List α} (hfirst : first.length = size) :
    chunks size (first ++ rest) = first :: chunks size rest := by
  have hcount : ((first ++ rest).length + size - 1) / size
      = (rest.length + size - 1) / size + 1 := by
    rw [List.length_append, hfirst, ← Nat.add_div_right _ hsize]
    congr 1
    omega
  rw [chunks, hcount, List.range_succ_eq_map, List.map_cons, List.map_map, chunks]
  congr 1
  · rw [Nat.zero_mul, List.drop_zero, List.take_left' hfirst]
  · refine List.map_congr_left fun i _ => ?_
    have hskip : (i + 1) * size = first.length + i * size := by
      rw [hfirst, Nat.add_mul, Nat.one_mul, Nat.add_comm]
    rw [Function.comp_apply, Nat.succ_eq_add_one, hskip, ← List.drop_drop, List.drop_left]

theorem chunks_of_le (hnil : items ≠ []) (hsize : items.length ≤ size) :
    chunks size items = [items] := by
  have hlength : 0 < items.length := List.length_pos_iff.mpr hnil
  have hcount : (items.length + size - 1) / size = 1 := by
    rw [Nat.div_eq_iff (by omega)]
    omega
  rw [chunks, hcount]
  simp [List.take_of_length_le hsize]

/-- Uniform parts are the chunks of what they hold. -/
theorem chunks_flatten (hsize : 0 < size) {parts : List (List α)} (hparts : Uniform size parts) :
    chunks size parts.flatten = parts := by
  induction parts with
  | nil => exact chunks_nil hsize
  | cons part rest ih =>
      cases rest with
      | nil =>
          rw [List.flatten_singleton, chunks_of_le hparts.1 hparts.2]
      | cons next rest => rw [List.flatten_cons, chunks_append hsize hparts.1, ih hparts.2]

theorem exists_uniform (hsize : 0 < size) (items : List α) :
    ∃ parts, Uniform size parts ∧ parts.flatten = items := by
  induction hlength : items.length using Nat.strong_induction_on generalizing items with
  | _ n ih =>
      by_cases hnil : items = []
      · exact ⟨[], trivial, hnil.symm⟩
      by_cases hshort : items.length ≤ size
      · exact ⟨[items], ⟨hnil, hshort⟩, List.flatten_singleton⟩
      obtain ⟨parts, hparts, hflatten⟩ := ih (items.drop size).length
        (by rw [List.length_drop]; omega) (items.drop size) rfl
      refine ⟨items.take size :: parts, ?_, ?_⟩
      · cases parts with
        | nil =>
            have hdrop := congrArg List.length hflatten
            rw [List.flatten_nil, List.length_nil, List.length_drop] at hdrop
            omega
        | cons part rest => exact ⟨List.length_take_of_le (by omega), hparts⟩
      · rw [List.flatten_cons, hflatten, List.take_append_drop]

theorem uniform_chunks (hsize : 0 < size) (items : List α) : Uniform size (chunks size items) := by
  obtain ⟨parts, hparts, rfl⟩ := exists_uniform hsize items
  rw [chunks_flatten hsize hparts]
  exact hparts

theorem flatten_chunks (hsize : 0 < size) (items : List α) : (chunks size items).flatten = items := by
  obtain ⟨parts, hparts, rfl⟩ := exists_uniform hsize items
  rw [chunks_flatten hsize hparts]

theorem Uniform.tail {part : List α} {rest : List (List α)} (hparts : Uniform size (part :: rest)) :
    Uniform size rest := by
  cases rest with
  | nil => trivial
  | cons next rest => exact hparts.2

theorem Uniform.ne_nil (hsize : 0 < size) {parts : List (List α)} (hparts : Uniform size parts)
    {part : List α} (hpart : part ∈ parts) : part ≠ [] := by
  induction parts with
  | nil => cases hpart
  | cons first rest ih =>
      rcases List.mem_cons.mp hpart with rfl | hpart
      · cases rest with
        | nil => exact hparts.1
        | cons next rest =>
            intro hnil
            have hlength := hparts.1
            rw [hnil, List.length_nil] at hlength
            omega
      · exact ih hparts.tail hpart

/-- Where some of the parts are left out, the others are still uniform. -/
theorem Uniform.sublist (hsize : 0 < size) {parts others : List (List α)}
    (hparts : Uniform size parts) (hsub : others.Sublist parts) : Uniform size others := by
  induction hsub with
  | slnil => trivial
  | cons part _ ih => exact ih hparts.tail
  | @cons_cons others parts part hsub ih =>
      cases others with
      | nil =>
          cases parts with
          | nil => exact hparts
          | cons next rest => exact ⟨hparts.ne_nil hsize List.mem_cons_self, hparts.1.le⟩
      | cons other others =>
          cases parts with
          | nil => cases hsub
          | cons next rest => exact ⟨hparts.1, ih hparts.2⟩

end Chunks

/-! ### Divisions -/

/-- A way to cut a list into parts, by which the parts that are left are found again when others are
taken away. -/
structure Cuts (cut : List α → List (List α)) : Prop where
  flatten : ∀ items, (cut items).flatten = items
  ne_nil : ∀ items, ∀ part ∈ cut items, part ≠ []
  again : ∀ items parts, parts.Sublist (cut items) → cut parts.flatten = parts

/-- A list that is not cut. -/
def whole (items : List α) : List (List α) :=
  match items with
  | [] => []
  | a :: rest => [a :: rest]

omit [DecidableEq κ] in
theorem cuts_whole : Cuts (whole : List α → List (List α)) where
  flatten items := by
    cases items with
    | nil => rfl
    | cons a rest => exact List.flatten_singleton
  ne_nil items part hpart := by
    cases items with
    | nil => cases hpart
    | cons a rest => exact List.mem_singleton.mp hpart ▸ List.cons_ne_nil a rest
  again items parts hsub := by
    cases items with
    | nil =>
        rw [List.sublist_nil.mp hsub]
        rfl
    | cons a rest =>
        cases hsub with
        | cons _ hsub =>
            rw [List.sublist_nil.mp hsub]
            rfl
        | cons_cons _ hsub =>
            rw [List.sublist_nil.mp hsub, List.flatten_singleton]
            rfl

theorem cuts_chunks {size : Nat} (hsize : 0 < size) : Cuts (chunks size : List α → List (List α)) where
  flatten := flatten_chunks hsize
  ne_nil items _ hpart := (uniform_chunks hsize items).ne_nil hsize hpart
  again items _ hsub := chunks_flatten hsize ((uniform_chunks hsize items).sublist hsize hsub)

section Divisions

variable [LinearOrder ρ] {key : α → κ} {rank : α → ρ} {cut : List α → List (List α)}
  {items remaining : List α}

/-- The parts into which the elements of each key are cut, in the order of their rank. -/
def divide (key : α → κ) (rank : α → ρ) (cut : List α → List (List α)) (items : List α) :
    List (List α) :=
  (buckets key items).flatMap fun bucket => cut (sortBy rank bucket)

theorem mem_divide (hcut : Cuts cut) {part : List α} :
    part ∈ divide key rank cut items
      ↔ ∃ k, part ∈ cut (sortBy rank (items.filter fun a => key a = k)) := by
  rw [divide, List.mem_flatMap]
  constructor
  · rintro ⟨bucket, hbucket, hpart⟩
    obtain ⟨a, -, rfl⟩ := mem_buckets.mp hbucket
    exact ⟨key a, hpart⟩
  · rintro ⟨k, hpart⟩
    by_cases hkey : ∃ a ∈ items, key a = k
    · obtain ⟨a, ha, rfl⟩ := hkey
      exact ⟨_, mem_buckets.mpr ⟨a, ha, rfl⟩, hpart⟩
    · exfalso
      have hempty : items.filter (fun a => key a = k) = [] := by
        refine List.filter_eq_nil_iff.mpr fun a ha hk => hkey ⟨a, ha, of_decide_eq_true hk⟩
      rw [hempty] at hpart
      have hflatten := hcut.flatten (sortBy rank ([] : List α))
      have hnil : part = [] := by
        refine List.eq_nil_iff_forall_not_mem.mpr fun a ha => ?_
        have hmem : a ∈ sortBy rank ([] : List α) := by
          rw [← hflatten]
          exact List.mem_flatten_of_mem hpart ha
        exact absurd (mem_sortBy.mp hmem) List.not_mem_nil
      exact hcut.ne_nil _ _ hpart hnil

theorem mem_of_mem_divide (hcut : Cuts cut) {part : List α} (hpart : part ∈ divide key rank cut items)
    {a : α} (ha : a ∈ part) : a ∈ items := by
  obtain ⟨k, hpart⟩ := (mem_divide hcut).mp hpart
  have hmem := List.mem_flatten_of_mem hpart ha
  rw [hcut.flatten, mem_sortBy] at hmem
  exact (List.mem_filter.mp hmem).1

/-- The parts of a division have the elements, each of them once. -/
theorem divide_perm (hcut : Cuts cut) (hitems : items.Nodup) :
    (divide key rank cut items).flatten.Perm items := by
  have hbuckets : (divide key rank cut items).flatten
      = ((buckets key items).map (sortBy rank)).flatten := by
    rw [divide]
    induction buckets key items with
    | nil => rfl
    | cons bucket rest ih =>
        rw [List.flatMap_cons, List.flatten_append, hcut.flatten, List.map_cons, List.flatten_cons, ih]
  rw [hbuckets]
  have hall : (buckets key items).flatten.Perm items := buckets_perm hitems
  refine List.Perm.trans ?_ hall
  induction buckets key items with
  | nil => exact List.Perm.refl _
  | cons bucket rest ih => exact sortBy_perm.append ih

/-- Parts of a division that share an element are the same. -/
theorem divide_disjoint (hcut : Cuts cut) (hitems : items.Nodup) {part other : List α}
    (hpart : part ∈ divide key rank cut items) (hother : other ∈ divide key rank cut items) {a : α}
    (ha : a ∈ part) (ha' : a ∈ other) : part = other := by
  have hperm : (divide key rank cut items).flatten.Perm items := divide_perm hcut hitems
  have hnodup := hperm.nodup_iff.mpr hitems
  have : Std.Symm (List.Disjoint (α := α)) := ⟨fun _ _ hdisjoint => hdisjoint.symm⟩
  by_contra hne
  exact (List.nodup_flatten.mp hnodup).2.forall hpart hother hne ha ha'

/-- Where some parts were taken away, the others are the parts of what is left. -/
theorem mem_divide_remaining (hcut : Cuts cut) (hitems : items.Nodup) (hremaining : remaining.Nodup)
    (hrank : ∀ a ∈ items, ∀ b ∈ items, rank a = rank b → a = b) (removed : List α → Prop)
    (hleft : ∀ a, a ∈ remaining
      ↔ a ∈ items ∧ ∀ part ∈ divide key rank cut items, removed part → a ∉ part) {part : List α} :
    part ∈ divide key rank cut remaining
      ↔ part ∈ divide key rank cut items ∧ ¬ removed part := by
  classical
  -- the parts of one key that are left are those that are not removed
  have hkey : ∀ k, cut (sortBy rank (remaining.filter fun a => key a = k))
      = (cut (sortBy rank (items.filter fun a => key a = k))).filter fun part => ¬ removed part := by
    intro k
    have hsub : ((cut (sortBy rank (items.filter fun a => key a = k))).filter
        fun part => ¬ removed part).Sublist (cut (sortBy rank (items.filter fun a => key a = k))) :=
      List.filter_sublist
    have hflatten := hsub.flatten
    rw [hcut.flatten] at hflatten
    have hnodup : (sortBy rank (items.filter fun a => key a = k)).Nodup :=
      sortBy_perm.nodup_iff.mpr (hitems.filter _)
    have hsorted : sortBy rank (remaining.filter fun a => key a = k)
        = ((cut (sortBy rank (items.filter fun a => key a = k))).filter
          fun part => ¬ removed part).flatten := by
      refine sortBy_eq ?_ ((List.perm_ext_iff_of_nodup (hnodup.sublist hflatten)
        (hremaining.filter _)).mpr fun a => ?_) (sortBy_pairwise.sublist hflatten)
      · intro a ha b hb
        exact hrank a ((hleft a).mp (List.mem_filter.mp ha).1).1 b
          ((hleft b).mp (List.mem_filter.mp hb).1).1
      · rw [List.mem_filter, hleft, List.mem_flatten]
        constructor
        · rintro ⟨found, hfound, ha⟩
          obtain ⟨hfound, hkept⟩ := List.mem_filter.mp hfound
          have hdivide : found ∈ divide key rank cut items := (mem_divide hcut).mpr ⟨k, hfound⟩
          have hmem : a ∈ sortBy rank (items.filter fun a => key a = k) := by
            rw [← hcut.flatten (sortBy rank (items.filter fun a => key a = k))]
            exact List.mem_flatten_of_mem hfound ha
          refine ⟨⟨mem_of_mem_divide hcut hdivide ha, fun other hother hgone ha' => ?_⟩,
            (List.mem_filter.mp (mem_sortBy.mp hmem)).2⟩
          cases divide_disjoint hcut hitems hdivide hother ha ha'
          exact of_decide_eq_true hkept hgone
        · rintro ⟨⟨ha, hkept⟩, hk⟩
          have hmem : a ∈ sortBy rank (items.filter fun a => key a = k) :=
            mem_sortBy.mpr (List.mem_filter.mpr ⟨ha, hk⟩)
          rw [← hcut.flatten (sortBy rank (items.filter fun a => key a = k))] at hmem
          obtain ⟨found, hfound, hafound⟩ := List.mem_flatten.mp hmem
          refine ⟨found, List.mem_filter.mpr ⟨hfound, decide_eq_true fun hgone => ?_⟩, hafound⟩
          exact hkept found ((mem_divide hcut).mpr ⟨k, hfound⟩) hgone hafound
    rw [hsorted, hcut.again _ _ hsub]
  rw [mem_divide hcut, mem_divide hcut]
  constructor
  · rintro ⟨k, hpart⟩
    rw [hkey] at hpart
    obtain ⟨hpart, hkept⟩ := List.mem_filter.mp hpart
    exact ⟨⟨k, hpart⟩, of_decide_eq_true hkept⟩
  · rintro ⟨⟨k, hpart⟩, hkept⟩
    refine ⟨k, ?_⟩
    rw [hkey]
    exact List.mem_filter.mpr ⟨hpart, decide_eq_true hkept⟩

end Divisions

/-! ### Latest elements -/

section Latest

variable [LinearOrder ρ] {key : α → κ} {rank : α → ρ} {items : List α}

/-- Whether a table remembers the right element of each key. -/
def Remembers (key : α → κ) (rank : α → ρ) (items : List α) (found : Table (κ × α)) : Prop :=
  (∀ entry ∈ found.rows, entry.2 ∈ items ∧ key entry.2 = entry.1
      ∧ ∀ b ∈ items, key b = entry.1 → rank b ≤ rank entry.2)
    ∧ ∀ b ∈ items, ∃ a, found.get? (key b) = some (key b, a)

omit [LinearOrder ρ] in
theorem get?_upsert_entry (found : Table (κ × α)) (k k' : κ) (a : α) :
    (found.upsert (k, a)).get? k' = if k' = k then some (k, a) else found.get? k' :=
  Table.get?_upsert found (k, a) k'

omit [LinearOrder ρ] in
theorem get?_of_mem_entry {found : Table (κ × α)} {entry : κ × α} (hentry : entry ∈ found.rows) :
    found.get? entry.1 = some entry :=
  Table.get?_of_mem hentry

theorem Remembers.remember {found : Table (κ × α)} (hfound : Remembers key rank items found) (a : α) :
    Remembers key rank (items ++ [a]) (remember key rank found a) := by
  -- the entries of other keys are kept, and hold as before
  have hother : ∀ entry ∈ found.rows, entry.1 ≠ key a → entry.2 ∈ items ++ [a]
      ∧ key entry.2 = entry.1 ∧ ∀ b ∈ items ++ [a], key b = entry.1 → rank b ≤ rank entry.2 := by
    intro entry hentry hne
    obtain ⟨hmem, hkey, hhighest⟩ := hfound.1 entry hentry
    refine ⟨List.mem_append_left _ hmem, hkey, fun b hb hb' => ?_⟩
    rcases List.mem_append.mp hb with hb | hb
    · exact hhighest b hb hb'
    · cases List.mem_singleton.mp hb
      exact absurd hb'.symm hne
  have hset : (∀ b ∈ items, key b = key a → rank b ≤ rank a) →
      Remembers key rank (items ++ [a]) (found.upsert (key a, a)) := by
    intro hhighest
    refine ⟨fun entry hentry => ?_, fun b hb => ?_⟩
    · by_cases hkey : entry.1 = key a
      · have hget := get?_of_mem_entry hentry
        rw [get?_upsert_entry, if_pos hkey] at hget
        cases hget
        refine ⟨List.mem_append_right _ (List.mem_singleton_self a), rfl, fun b hb hb' => ?_⟩
        rcases List.mem_append.mp hb with hb | hb
        · exact hhighest b hb hb'
        · cases List.mem_singleton.mp hb
          exact le_refl _
      · have hget := get?_of_mem_entry hentry
        rw [get?_upsert_entry, if_neg hkey] at hget
        exact hother entry (Table.mem_of_get? hget) hkey
    · rw [get?_upsert_entry]
      by_cases hkey : key b = key a
      · exact ⟨a, by rw [if_pos hkey, hkey]⟩
      · rcases List.mem_append.mp hb with hb | hb
        · obtain ⟨c, hc⟩ := hfound.2 b hb
          exact ⟨c, by rw [if_neg hkey, hc]⟩
        · cases List.mem_singleton.mp hb
          exact absurd rfl hkey
  unfold Buckets.remember
  cases hget : found.get? (key a) with
  | none =>
      refine hset fun b hb hb' => ?_
      obtain ⟨c, hc⟩ := hfound.2 b hb
      rw [hb', hget] at hc
      cases hc
  | some entry =>
      obtain ⟨k, current⟩ := entry
      obtain ⟨hmem, hkey, hhighest⟩ := hfound.1 _ (Table.mem_of_get? hget)
      have hk : k = key a := Table.key_of_get? hget
      dsimp only at hmem hkey hhighest ⊢
      split
      · rename_i hlower
        exact hset fun b hb hb' => (hhighest b hb (hb'.trans hk.symm)).trans hlower.le
      · rename_i hlower
        refine ⟨fun entry hentry => ?_, fun b hb => ?_⟩
        · by_cases hsame : entry.1 = key a
          · have hentry' := get?_of_mem_entry hentry
            rw [hsame, hget] at hentry'
            cases hentry'
            refine ⟨List.mem_append_left _ hmem, hkey, fun b hb hb' => ?_⟩
            rcases List.mem_append.mp hb with hb | hb
            · exact hhighest b hb hb'
            · cases List.mem_singleton.mp hb
              exact le_of_not_gt hlower
          · exact hother entry hentry hsame
        · rcases List.mem_append.mp hb with hb | hb
          · exact hfound.2 b hb
          · cases List.mem_singleton.mp hb
            exact ⟨current, by rw [hget, hk]⟩

theorem remembers_foldl (items : List α) :
    Remembers key rank items (items.foldl (remember key rank) Table.empty) := by
  induction items using List.reverseRecOn with
  | nil => exact ⟨fun entry hentry => absurd hentry List.not_mem_nil,
      fun b hb => absurd hb List.not_mem_nil⟩
  | append_singleton items a ih =>
      rw [List.foldl_append]
      exact ih.remember a

/-- The latest elements are those that none of the same key is above. -/
theorem mem_latest (hrank : ∀ a ∈ items, ∀ b ∈ items, rank a = rank b → a = b) {a : α} :
    a ∈ latest key rank items ↔ a ∈ items ∧ ∀ b ∈ items, key b = key a → rank b ≤ rank a := by
  have hremembers : Remembers key rank items _ := remembers_foldl items
  obtain ⟨hentries, hkeys⟩ := hremembers
  rw [latest, List.mem_map]
  constructor
  · rintro ⟨entry, hentry, rfl⟩
    obtain ⟨hmem, hkey, hhighest⟩ := hentries entry hentry
    exact ⟨hmem, fun b hb hb' => hhighest b hb (hb'.trans hkey)⟩
  · rintro ⟨ha, hhighest⟩
    obtain ⟨m, hm⟩ := hkeys a ha
    obtain ⟨hmem, hkey, habove⟩ := hentries _ (Table.mem_of_get? hm)
    refine ⟨_, Table.mem_of_get? hm, ?_⟩
    exact hrank m hmem a ha (le_antisymm (hhighest m hmem hkey) (habove a ha rfl))

theorem exists_latest {b : α} (hb : b ∈ items) :
    ∃ a ∈ latest key rank items, key a = key b ∧ rank b ≤ rank a := by
  have hremembers : Remembers key rank items _ := remembers_foldl items
  obtain ⟨hentries, hkeys⟩ := hremembers
  obtain ⟨m, hm⟩ := hkeys b hb
  obtain ⟨-, hkey, habove⟩ := hentries _ (Table.mem_of_get? hm)
  exact ⟨m, List.mem_map.mpr ⟨_, Table.mem_of_get? hm, rfl⟩, hkey, habove b hb rfl⟩

end Latest

end Buckets
