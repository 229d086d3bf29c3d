import Mathlib.Data.Set.Basic

/-!
# Patches of a view

A view gives each category a set of items. A patch takes items out of it and puts others in. The patch
between two views turns the one into the other, so a stream that starts with a view and goes on with the
patches to its successors always replays to the latest of them.
-/

namespace Patches

variable {κ α : Type}

structure Patch (κ α : Type) where
  removed : κ → Set α
  added : κ → Set α

def Patch.apply (patch : Patch κ α) (view : κ → Set α) : κ → Set α :=
  fun category => view category \ patch.removed category ∪ patch.added category

/-- What leaves and what enters on the way from one view to another. -/
def between (view next : κ → Set α) : Patch κ α where
  removed category := view category \ next category
  added category := next category \ view category

theorem apply_between (view next : κ → Set α) : (between view next).apply view = next := by
  funext category
  ext item
  change (item ∈ view category ∧ ¬ (item ∈ view category ∧ item ∉ next category))
    ∨ item ∈ next category ∧ item ∉ view category ↔ item ∈ next category
  by_cases hitem : item ∈ view category
  · simp [hitem]
  · simp [hitem]

/-- A stream of patches on a view. -/
def replay (view : κ → Set α) (patches : List (Patch κ α)) : κ → Set α :=
  patches.foldl (fun view patch => patch.apply view) view

theorem replay_concat (view : κ → Set α) (patches : List (Patch κ α)) (patch : Patch κ α) :
    replay view (patches ++ [patch]) = patch.apply (replay view patches) := by
  rw [replay, List.foldl_append]
  rfl

/-- A stream that ends with the patch to the next view replays to it. -/
theorem replay_between {view current : κ → Set α} {patches : List (Patch κ α)}
    (hcurrent : replay view patches = current) (next : κ → Set α) :
    replay view (patches ++ [between current next]) = next := by
  rw [replay_concat, hcurrent, apply_between]

end Patches
