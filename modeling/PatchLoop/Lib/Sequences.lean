import Mathlib.Data.List.Forall2
import Mathlib.Data.List.Infix
import Mathlib.Tactic.Common

/-!
# Lists taken apart

Facts about lists that the libraries do not state: where an element of two lists in a row stands, and
what a computation on each element of a list has found where none of them failed.
-/

namespace Sequence

variable {α β ε : Type}

/-- An element of two lists in a row is one of the first or one of the second. -/
theorem append_eq_append_cons {first second earlier later : List α} {a : α}
    (hsplit : first ++ second = earlier ++ a :: later) :
    (∃ rest, first = earlier ++ a :: rest ∧ later = rest ++ second)
      ∨ ∃ before, earlier = first ++ before ∧ second = before ++ a :: later := by
  rcases List.append_eq_append_iff.mp hsplit with ⟨before, hearlier, hsecond⟩ | ⟨rest, hfirst, hrest⟩
  · exact Or.inr ⟨before, hearlier, hsecond⟩
  · cases rest with
    | nil =>
        rw [List.append_nil] at hfirst
        exact Or.inr ⟨[], by rw [List.append_nil, hfirst], hrest.symm⟩
    | cons b rest =>
        obtain ⟨rfl, rfl⟩ := List.cons.inj hrest
        exact Or.inl ⟨rest, hfirst, rfl⟩

theorem forall₂_of_mapM_some {f : α → Option β} {first : List α} {second : List β}
    (hmap : first.mapM f = some second) : List.Forall₂ (fun a b => f a = some b) first second := by
  induction first generalizing second with
  | nil =>
      cases hmap
      exact .nil
  | cons a rest ih =>
      rw [List.mapM_cons] at hmap
      obtain ⟨b, hb, hmap⟩ := Option.bind_eq_some_iff.mp hmap
      obtain ⟨bs, hbs, hmap⟩ := Option.bind_eq_some_iff.mp hmap
      cases hmap
      exact .cons hb (ih hbs)

/-- What is related to a member of the first sequence is in the second one. -/
theorem exists_of_forall₂ {R : α → β → Prop} {first : List α} {second : List β}
    (hrelated : List.Forall₂ R first second) {a : α} (hmem : a ∈ first) : ∃ b ∈ second, R a b := by
  induction hrelated with
  | nil => cases hmem
  | @cons x y xs ys hxy hrest ih =>
      rcases List.mem_cons.mp hmem with rfl | hmem
      · exact ⟨y, List.mem_cons_self, hxy⟩
      · obtain ⟨b, hb, hab⟩ := ih hmem
        exact ⟨b, List.mem_cons_of_mem y hb, hab⟩

theorem forall₂_of_mapM_ok {f : α → Except ε β} {first : List α} {second : List β}
    (hmap : first.mapM f = .ok second) : List.Forall₂ (fun a b => f a = .ok b) first second := by
  induction first generalizing second with
  | nil =>
      cases hmap
      exact .nil
  | cons a rest ih =>
      rw [List.mapM_cons] at hmap
      cases ha : f a with
      | error e =>
          rw [ha] at hmap
          cases hmap
      | ok b =>
          cases hrest : rest.mapM f with
          | error e =>
              rw [ha, hrest] at hmap
              cases hmap
          | ok bs =>
              rw [ha, hrest] at hmap
              cases hmap
              exact .cons ha (ih hrest)

theorem exists_mapM_ok {f : α → Except ε β} {first : List α} (hall : ∀ a ∈ first, ∃ b, f a = .ok b) :
    ∃ second, first.mapM f = .ok second := by
  induction first with
  | nil => exact ⟨[], rfl⟩
  | cons a rest ih =>
      obtain ⟨ha, hrest⟩ := List.forall_mem_cons.mp hall
      obtain ⟨b, hb⟩ := ha
      obtain ⟨bs, hbs⟩ := ih hrest
      exact ⟨b :: bs, by rw [List.mapM_cons, hb, hbs]; rfl⟩

/-- What is related to the same sequence, element by element, is related. -/
theorem forall₂_join {γ : Type} {R : α → β → Prop} {S : α → γ → Prop} {T : β → γ → Prop} {shared : List α}
    {first : List β} {second : List γ} (hfirst : List.Forall₂ R shared first)
    (hsecond : List.Forall₂ S shared second) (hjoin : ∀ a ∈ shared, ∀ b c, R a b → S a c → T b c) :
    List.Forall₂ T first second := by
  induction hfirst generalizing second with
  | nil =>
      cases hsecond
      exact .nil
  | @cons a b shared first hab _ ih =>
      cases hsecond with
      | cons hac hrest =>
          obtain ⟨hhead, htail⟩ := List.forall_mem_cons.mp hjoin
          exact .cons (hhead _ _ hab hac) (ih hrest htail)

/-! ### All but the last -/

/-- What all members of the first list have and all but the last one of the second list, all but the last
one of both have. -/
theorem forall_dropLast_append {p : α → Prop} {first second : List α} (hfirst : ∀ a ∈ first, p a)
    (hsecond : ∀ a ∈ second.dropLast, p a) : ∀ a ∈ (first ++ second).dropLast, p a := by
  intro a hmem
  by_cases hempty : second = []
  · rw [hempty, List.append_nil] at hmem
    exact hfirst a (List.mem_of_mem_dropLast hmem)
  · rw [List.dropLast_append_of_ne_nil hempty] at hmem
    exact (List.mem_append.mp hmem).elim (hfirst a) (hsecond a)

theorem forall_dropLast_flatMap {f : α → List β} {p : α → Prop} {q : β → Prop} {l : List α}
    (hall : ∀ a, p a → ∀ b ∈ f a, q b) (heach : ∀ a ∈ l, ∀ b ∈ (f a).dropLast, q b)
    (hlast : ∀ a ∈ l.dropLast, p a) : ∀ b ∈ (l.flatMap f).dropLast, q b := by
  induction l with
  | nil => exact fun b hb => absurd hb List.not_mem_nil
  | cons a rest ih =>
      rw [List.flatMap_cons]
      by_cases hempty : rest = []
      · rw [hempty, List.flatMap_nil, List.append_nil]
        exact heach a List.mem_cons_self
      · rw [List.dropLast_cons_of_ne_nil hempty] at hlast
        exact forall_dropLast_append (hall a (hlast a List.mem_cons_self))
          (ih (fun b hb => heach b (List.mem_cons_of_mem a hb))
            fun b hb => hlast b (List.mem_cons_of_mem a hb))

end Sequence
