import Mathlib.Data.List.Chain
import Mathlib.Data.List.Lattice
import Mathlib.Data.List.Nodup
import Mathlib.Data.List.Pairwise
import Mathlib.Logic.Relation
import PatchLoop.Lib.Table

/-!
# Chains

Items that name the item before them and the item after them. Where each of two neighbours names the other
and no item comes before itself, the items are put together from chains, and the other way round. A walk from
an item to the ones before it that remembers where it has been finds out whether it ends.
-/

open Keyed (key)

namespace Chains

/-! ### Walks -/

section Walks

variable {α κ : Type} [DecidableEq κ] [Keyed α κ]

/-- Whether a walk ends before it comes to an item once more, if that is known after so many steps. -/
def walk (next : α → Option α) : Nat → List κ → Option α → Option Bool
  | _, _, none => some true
  | 0, _, some _ => none
  | steps + 1, visited, some a =>
      if key a ∈ visited then some false else walk next steps (key a :: visited) (next a)

variable {next : α → Option α} {items : List α} {visited : List κ} {steps : Nat}

/-- A walk among finitely many items is over after as many steps, and one more. -/
theorem exists_walk (hnext : ∀ a ∈ items, ∀ b ∈ next a, b ∈ items) (hvisited : visited.Nodup)
    (hsubset : visited ⊆ items.map key) (hsteps : items.length < visited.length + steps)
    {current : Option α} (hcurrent : ∀ a ∈ current, a ∈ items) :
    ∃ ends, walk next steps visited current = some ends := by
  induction steps generalizing visited current with
  | zero =>
      have hbound : visited.length ≤ items.length := by
        have hlength := hvisited.length_le_of_subset hsubset
        rwa [List.length_map] at hlength
      omega
  | succ steps ih =>
      cases current with
      | none => exact ⟨true, rfl⟩
      | some a =>
          have hmem := hcurrent a rfl
          by_cases hagain : key a ∈ visited
          · exact ⟨false, by rw [walk, if_pos hagain]⟩
          · rw [walk, if_neg hagain]
            refine ih (List.nodup_cons.mpr ⟨hagain, hvisited⟩) ?_ ?_ (hnext a hmem)
            · exact List.cons_subset.mpr ⟨List.mem_map_of_mem hmem, hsubset⟩
            · rw [List.length_cons]
              omega

/-- A walk that has ended went through items that all end. -/
theorem acc_of_walk {a : α} (hwalk : walk next steps visited (some a) = some true) :
    Acc (fun b a => next a = some b) a := by
  induction steps generalizing visited a with
  | zero => cases hwalk
  | succ steps ih =>
      rw [walk] at hwalk
      split at hwalk
      · cases hwalk
      · refine Acc.intro a fun b hb => ?_
        rw [hb] at hwalk
        exact ih hwalk

theorem not_of_acc {r : α → α → Prop} {a : α} (hacc : Acc r a) : ¬ r a a := by
  induction hacc with
  | intro a _ ih => exact fun hself => ih a hself hself

/-- A walk from an item that ends does not come to an item once more. -/
theorem walk_ne_false {a : α} (hacc : Acc (fun b a => next a = some b) a)
    (hkeys : ∀ a ∈ items, ∀ b ∈ items, key a = key b → a = b)
    (hnext : ∀ a ∈ items, ∀ b ∈ next a, b ∈ items) (hmem : a ∈ items)
    (hvisited : ∀ k ∈ visited, ∃ v ∈ items, key v = k ∧ Relation.TransGen (fun b a => next a = some b) a v) :
    walk next steps visited (some a) ≠ some false := by
  induction steps generalizing visited a with
  | zero => simp [walk]
  | succ steps ih =>
      have hnew : key a ∉ visited := by
        intro hagain
        obtain ⟨v, hv, hkey, hreach⟩ := hvisited _ hagain
        obtain rfl := hkeys v hv a hmem hkey
        exact not_of_acc hacc.transGen hreach
      rw [walk, if_neg hnew]
      cases hb : next a with
      | none =>
          rw [walk]
          simp
      | some b =>
          refine ih (hacc.inv hb) (hnext a hmem b hb) fun k hk => ?_
          rcases List.mem_cons.mp hk with rfl | hk
          · exact ⟨a, hmem, rfl, Relation.TransGen.single hb⟩
          · obtain ⟨v, hv, hkey, hreach⟩ := hvisited k hk
            exact ⟨v, hv, hkey, Relation.TransGen.head hb hreach⟩

end Walks

/-! ### Links -/

section Links

variable {α κ : Type} [Keyed α κ] (before after : α → Option κ)

/-- Two items that name each other. -/
def Linked (first second : α) : Prop := after first = some (key second) ∧ before second = some (key first)

/-- An item comes before another one, which names it. -/
def Back (items : List α) (p a : α) : Prop := p ∈ items ∧ before a = some (key p)

/-- Every item names items that name it. -/
structure Bidirectional (items : List α) : Prop where
  keys : (items.map key).Nodup
  back : ∀ a ∈ items, ∀ k, before a = some k → ∃ p ∈ items, key p = k ∧ after p = some (key a)
  forth : ∀ a ∈ items, ∀ k, after a = some k → ∃ n ∈ items, key n = k ∧ before n = some (key a)

/-- A chain, from an item with none before it to one with none after it. -/
structure IsChain (chain : List α) : Prop where
  nonempty : chain ≠ []
  first : ∀ a ∈ chain.head?, before a = none
  last : ∀ a ∈ chain.getLast?, after a = none
  linked : chain.IsChain (Linked before after)

/-- Chains that may go on. -/
structure Begun (items : List α) (chains : List (List α)) : Prop where
  nodup : chains.flatten.Nodup
  subset : chains.flatten ⊆ items
  nonempty : ∀ chain ∈ chains, chain ≠ []
  first : ∀ chain ∈ chains, ∀ a ∈ chain.head?, before a = none
  linked : ∀ chain ∈ chains, chain.IsChain (Linked before after)

variable {before after} {items : List α} {chains : List (List α)} {a b : α}

theorem Bidirectional.eq_of_key (hbidirectional : Bidirectional before after items) (ha : a ∈ items)
    (hb : b ∈ items) (hkey : key a = key b) : a = b :=
  List.inj_on_of_nodup_map hbidirectional.keys ha hb hkey

theorem Begun.nil (before after : α → Option κ) (items : List α) : Begun before after items [] where
  nodup := List.nodup_nil
  subset := List.nil_subset items
  nonempty := by simp
  first := by simp
  linked := by simp

/-- An item with none before it begins a chain. -/
theorem Begun.start (hbegun : Begun before after items chains) (hmem : a ∈ items)
    (hnew : a ∉ chains.flatten) (horigin : before a = none) : Begun before after items ([a] :: chains) where
  nodup := List.nodup_cons.mpr ⟨hnew, hbegun.nodup⟩
  subset := List.cons_subset.mpr ⟨hmem, hbegun.subset⟩
  nonempty := List.forall_mem_cons.mpr ⟨List.cons_ne_nil a [], hbegun.nonempty⟩
  first := List.forall_mem_cons.mpr ⟨by simpa using horigin, hbegun.first⟩
  linked := List.forall_mem_cons.mpr ⟨List.isChain_singleton a, hbegun.linked⟩

/-- An item goes on with the chain of the one before it, which is its last one. -/
theorem Begun.extend (hbegun : Begun before after items chains)
    (hbidirectional : Bidirectional before after items) (hmem : a ∈ items) (hnew : a ∉ chains.flatten)
    {p : α} (hp : p ∈ chains.flatten) (hlinked : Linked before after p a) :
    ∃ longer, Begun before after items longer ∧ longer.flatten.Perm (a :: chains.flatten) := by
  obtain ⟨chain, hchain, hpchain⟩ := List.mem_flatten.mp hp
  obtain ⟨left, right, rfl⟩ := List.append_of_mem hchain
  obtain ⟨earlier, later, rfl⟩ := List.append_of_mem hpchain
  have hchains := hbegun.linked _ hchain
  have hlast : later = [] := by
    cases later with
    | nil => rfl
    | cons n rest =>
        have hnext := (List.isChain_append_cons_cons.mp hchains).2.1
        have hn : n ∈ (left ++ (earlier ++ p :: n :: rest) :: right).flatten :=
          List.mem_flatten.mpr ⟨_, hchain, by simp⟩
        have hkey : key n = key a := Option.some.inj (hnext.1.symm.trans hlinked.1)
        exact absurd (hbidirectional.eq_of_key (hbegun.subset hn) hmem hkey ▸ hn) hnew
  subst hlast
  have hperm : (left ++ (earlier ++ [p, a]) :: right).flatten.Perm
      (a :: (left ++ (earlier ++ [p]) :: right).flatten) := by
    have hsplit : (left ++ (earlier ++ [p, a]) :: right).flatten
        = (left.flatten ++ (earlier ++ [p])) ++ a :: right.flatten := by simp
    have hjoin : (left ++ (earlier ++ [p]) :: right).flatten
        = (left.flatten ++ (earlier ++ [p])) ++ right.flatten := by simp
    rw [hsplit, hjoin]
    exact List.perm_middle
  have hothers : ∀ {P : List α → Prop}, (∀ chain ∈ left ++ (earlier ++ [p]) :: right, P chain) →
      P (earlier ++ [p, a]) → ∀ chain ∈ left ++ (earlier ++ [p, a]) :: right, P chain := by
    intro P hall hnow chain hchain'
    rcases List.mem_append.mp hchain' with hleft | hrest
    · exact hall chain (List.mem_append_left _ hleft)
    · rcases List.mem_cons.mp hrest with rfl | hright
      · exact hnow
      · exact hall chain (List.mem_append_right _ (List.mem_cons_of_mem _ hright))
  refine ⟨left ++ (earlier ++ [p, a]) :: right, ?_, hperm⟩
  constructor
  · exact hperm.nodup_iff.mpr (List.nodup_cons.mpr ⟨hnew, hbegun.nodup⟩)
  · intro b hb
    rcases List.mem_cons.mp (hperm.mem_iff.mp hb) with rfl | hold
    · exact hmem
    · exact hbegun.subset hold
  · exact hothers hbegun.nonempty (by simp)
  · refine hothers hbegun.first ?_
    have hfirst := hbegun.first _ hchain
    cases earlier with
    | nil => simpa using hfirst
    | cons b rest => simpa using hfirst
  · refine hothers hbegun.linked ?_
    exact List.isChain_append_cons_cons.mpr ⟨hchains, hlinked, List.isChain_singleton a⟩

/-- Every item that ends when one walks back can be reached by chains. -/
theorem Begun.reach (hbidirectional : Bidirectional before after items)
    (hacc : Acc (Back before items) a) (hmem : a ∈ items) (hbegun : Begun before after items chains) :
    ∃ longer, Begun before after items longer ∧ a ∈ longer.flatten ∧ chains.flatten ⊆ longer.flatten := by
  induction hacc generalizing chains with
  | intro a _ ih =>
      by_cases hthere : a ∈ chains.flatten
      · exact ⟨chains, hbegun, hthere, List.Subset.refl _⟩
      cases horigin : before a with
      | none =>
          exact ⟨[a] :: chains, hbegun.start hmem hthere horigin, List.mem_cons_self, List.subset_cons_self _ _⟩
      | some k =>
          obtain ⟨p, hp, rfl, hafter⟩ := hbidirectional.back a hmem k horigin
          obtain ⟨reached, hreached, hpthere, hsubset⟩ := ih p ⟨hp, horigin⟩ hp hbegun
          by_cases hnow : a ∈ reached.flatten
          · exact ⟨reached, hreached, hnow, hsubset⟩
          · obtain ⟨longer, hlonger, hperm⟩ :=
              hreached.extend hbidirectional hmem hnow hpthere ⟨hafter, horigin⟩
            refine ⟨longer, hlonger, hperm.mem_iff.mpr List.mem_cons_self, fun b hb => ?_⟩
            exact hperm.mem_iff.mpr (List.mem_cons_of_mem a (hsubset hb))

theorem exists_begun (hbidirectional : Bidirectional before after items)
    (hacyclic : ∀ a ∈ items, Acc (Back before items) a) {some : List α} (hsome : some ⊆ items) :
    ∃ chains, Begun before after items chains ∧ some ⊆ chains.flatten := by
  induction some with
  | nil => exact ⟨[], .nil before after items, List.nil_subset _⟩
  | cons a rest ih =>
      obtain ⟨hmem, hrest⟩ := List.cons_subset.mp hsome
      obtain ⟨chains, hbegun, hthere⟩ := ih hrest
      obtain ⟨longer, hlonger, hreached, hsubset⟩ := hbegun.reach hbidirectional (hacyclic a hmem) hmem
      exact ⟨longer, hlonger, List.cons_subset.mpr ⟨hreached, List.Subset.trans hthere hsubset⟩⟩

/-- The item that one names before it stands before it in its chain. -/
theorem Begun.stands_before (hbegun : Begun before after items chains)
    (hbidirectional : Bidirectional before after items) {earlier later : List α}
    (hchain : earlier ++ b :: later ∈ chains) (hmem : a ∈ items) (hback : before b = some (key a)) :
    ∃ start, earlier = start ++ [a] := by
  rcases List.eq_nil_or_concat earlier with rfl | ⟨start, m, rfl⟩
  · have hnone := hbegun.first _ hchain b (by simp)
    rw [hback] at hnone
    cases hnone
  · rw [List.concat_eq_append, List.append_assoc, List.singleton_append] at hchain
    have hlink := (List.isChain_append_cons_cons.mp (hbegun.linked _ hchain)).2.1
    have hm : m ∈ items := hbegun.subset (List.mem_flatten.mpr ⟨_, hchain, by simp⟩)
    have hkey : key m = key a := Option.some.inj (hlink.2.symm.trans hback)
    obtain rfl := hbidirectional.eq_of_key hm hmem hkey
    exact ⟨start, List.concat_eq_append⟩

/-- A chain that has all items to which it could go on has come to its last one. -/
theorem Begun.last (hbegun : Begun before after items chains)
    (hbidirectional : Bidirectional before after items) (hall : items ⊆ chains.flatten) :
    ∀ chain ∈ chains, ∀ a ∈ chain.getLast?, after a = none := by
  intro chain hchain a hlast
  cases hafter : after a with
  | none => rfl
  | some k =>
      have hmem : a ∈ chain := List.mem_of_getLast? hlast
      have hitem : a ∈ items := hbegun.subset (List.mem_flatten.mpr ⟨chain, hchain, hmem⟩)
      obtain ⟨n, hn, rfl, hback⟩ := hbidirectional.forth a hitem k hafter
      obtain ⟨other, hother, hnother⟩ := List.mem_flatten.mp (hall hn)
      obtain ⟨earlier, later, rfl⟩ := List.append_of_mem hnother
      obtain ⟨start, rfl⟩ := hbegun.stands_before hbidirectional hother hitem hback
      obtain ⟨hnodup, hdisjoint⟩ := List.nodup_flatten.mp hbegun.nodup
      -- the item is the last one of its chain, and another follows it in a chain
      by_cases hsame : chain = (start ++ [a]) ++ n :: later
      · have hend : (n :: later).getLast? = some a := by
          rwa [hsame, List.getLast?_append_of_ne_nil _ (List.cons_ne_nil n later)] at hlast
        have hagain : a ∈ n :: later := List.mem_of_getLast? hend
        exact absurd hagain (List.disjoint_of_nodup_append (hnodup _ hother) (by simp))
      · have : Std.Symm (@List.Disjoint α) := ⟨fun _ _ hapart => List.Disjoint.symm hapart⟩
        have hapart := hdisjoint.forall hchain hother hsame
        exact absurd (by simp : a ∈ (start ++ [a]) ++ n :: later) (hapart hmem)

/-- Items that name each other and never come back to themselves are put together from chains. -/
theorem exists_chains (hbidirectional : Bidirectional before after items)
    (hacyclic : ∀ a ∈ items, Acc (Back before items) a) :
    ∃ chains : List (List α), chains.flatten.Perm items ∧ ∀ chain ∈ chains, IsChain before after chain := by
  obtain ⟨chains, hbegun, hall⟩ := exists_begun hbidirectional hacyclic (List.Subset.refl items)
  have hlast := hbegun.last hbidirectional hall
  refine ⟨chains, ?_, fun chain hchain => ?_⟩
  · refine (List.perm_ext_iff_of_nodup hbegun.nodup (List.Nodup.of_map key hbidirectional.keys)).mpr fun a => ?_
    exact ⟨fun ha => hbegun.subset ha, fun ha => hall ha⟩
  · exact ⟨hbegun.nonempty chain hchain, hbegun.first chain hchain, hlast chain hchain,
      hbegun.linked chain hchain⟩

/-! ### From chains to links -/

section Neighbours

variable {chain : List α} {k : κ}

/-- The item that one of a chain names before it stands before it. -/
theorem IsChain.stands_before (hchain : IsChain before after chain) (hmem : a ∈ chain)
    (hback : before a = some k) :
    ∃ earlier p later, chain = earlier ++ p :: a :: later ∧ key p = k ∧ Linked before after p a := by
  obtain ⟨front, later, rfl⟩ := List.append_of_mem hmem
  rcases List.eq_nil_or_concat front with rfl | ⟨earlier, p, rfl⟩
  · rw [hchain.first a (by simp)] at hback
    cases hback
  · have hlinks := hchain.linked
    rw [List.concat_eq_append, List.append_assoc, List.singleton_append] at hlinks
    have hlink := (List.isChain_append_cons_cons.mp hlinks).2.1
    exact ⟨earlier, p, later, by simp, Option.some.inj (hlink.2.symm.trans hback), hlink⟩

/-- The item that one of a chain names after it stands after it. -/
theorem IsChain.stands_after (hchain : IsChain before after chain) (hmem : a ∈ chain)
    (hforth : after a = some k) :
    ∃ earlier n later, chain = earlier ++ a :: n :: later ∧ key n = k ∧ Linked before after a n := by
  obtain ⟨earlier, rest, rfl⟩ := List.append_of_mem hmem
  cases rest with
  | nil =>
      rw [hchain.last a (by simp)] at hforth
      cases hforth
  | cons n later =>
      have hlink := (List.isChain_append_cons_cons.mp hchain.linked).2.1
      exact ⟨earlier, n, later, rfl, Option.some.inj (hlink.1.symm.trans hforth), hlink⟩

/-- Items that are put together from chains name each other. -/
theorem bidirectional_of_chains (hkeys : (items.map key).Nodup) (hperm : chains.flatten.Perm items)
    (hchains : ∀ chain ∈ chains, IsChain before after chain) : Bidirectional before after items := by
  have hmem : ∀ {chain}, chain ∈ chains → ∀ a ∈ chain, a ∈ items := fun hchain a ha =>
    hperm.mem_iff.mp (List.mem_flatten.mpr ⟨_, hchain, ha⟩)
  refine ⟨hkeys, fun a ha k hback => ?_, fun a ha k hforth => ?_⟩
  · obtain ⟨chain, hchain, hachain⟩ := List.mem_flatten.mp (hperm.mem_iff.mpr ha)
    obtain ⟨earlier, p, later, rfl, hkey, hlink⟩ := (hchains chain hchain).stands_before hachain hback
    exact ⟨p, hmem hchain p (by simp), hkey, hlink.1⟩
  · obtain ⟨chain, hchain, hachain⟩ := List.mem_flatten.mp (hperm.mem_iff.mpr ha)
    obtain ⟨earlier, n, later, rfl, hkey, hlink⟩ := (hchains chain hchain).stands_after hachain hforth
    exact ⟨n, hmem hchain n (by simp), hkey, hlink.2⟩

end Neighbours

/-- A walk back in a chain ends. -/
theorem IsChain.acc {chain : List α} (hchain : IsChain before after chain)
    (hkeys : ∀ a ∈ items, ∀ b ∈ items, key a = key b → a = b) (hsubset : chain ⊆ items) :
    ∀ a ∈ chain, Acc (Back before items) a := by
  suffices hprefix : ∀ earlier later, chain = earlier ++ later → ∀ a ∈ earlier, Acc (Back before items) a from
    hprefix chain [] (by simp)
  intro earlier
  induction earlier using List.reverseRecOn with
  | nil => simp
  | append_singleton start a ih =>
      intro later heq
      have hstart := ih (a :: later) (by simpa using heq)
      intro b hb
      rcases List.mem_append.mp hb with hb | hb
      · exact hstart b hb
      · rw [List.mem_singleton.mp hb]
        refine Acc.intro a fun p hback => ?_
        rcases List.eq_nil_or_concat start with rfl | ⟨first, m, rfl⟩
        · have hnone := hchain.first a (by simp [heq])
          rw [hback.2] at hnone
          cases hnone
        · have hlinks := hchain.linked
          rw [heq, List.concat_eq_append, List.append_assoc, List.append_assoc, List.singleton_append,
            List.singleton_append] at hlinks
          have hlink := (List.isChain_append_cons_cons.mp hlinks).2.1
          have hm : m ∈ items := hsubset (by simp [heq])
          have hkey : key p = key m := Option.some.inj (hback.2.symm.trans hlink.2)
          rw [hkeys p hback.1 m hm hkey]
          exact hstart m (by simp)

end Links

end Chains
