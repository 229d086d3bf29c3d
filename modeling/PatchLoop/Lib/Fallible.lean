import Mathlib.Tactic.Common

/-!
# Computations that may fail

When a computation that is put together from others returns, each of them has returned.
-/

namespace Except

variable {ε δ α β : Type}

theorem bind_eq_ok_iff {first : Except ε α} {rest : α → Except ε β} {b : β} :
    (first >>= rest) = .ok b ↔ ∃ a, first = .ok a ∧ rest a = .ok b := by
  cases first with
  | error e =>
      constructor
      · intro hbind
        cases hbind
      · rintro ⟨a, hfirst, -⟩
        cases hfirst
  | ok a =>
      constructor
      · exact fun hrest => ⟨a, rfl, hrest⟩
      · rintro ⟨a', hfirst, hrest⟩
        cases hfirst
        exact hrest

theorem pure_eq_ok_iff {a b : α} : (pure a : Except ε α) = .ok b ↔ a = b := by
  change Except.ok a = .ok b ↔ a = b
  rw [Except.ok.injEq]

theorem toOption_eq_some {result : Except ε α} {a : α} : result.toOption = some a ↔ result = .ok a := by
  cases result with
  | error e =>
      constructor <;>
        · intro hsome
          cases hsome
  | ok found =>
      change some found = some a ↔ Except.ok found = .ok a
      rw [Option.some.injEq, Except.ok.injEq]

theorem mapError_eq_ok_iff {result : Except ε α} {f : ε → δ} {a : α} :
    result.mapError f = .ok a ↔ result = .ok a := by
  cases result with
  | error e =>
      constructor <;>
        · intro hok
          cases hok
  | ok a' =>
      change Except.ok a' = .ok a ↔ Except.ok a' = .ok a
      rw [Except.ok.injEq, Except.ok.injEq]

theorem map_eq_ok_iff {result : Except ε α} {f : α → β} {b : β} :
    result.map f = .ok b ↔ ∃ a, result = .ok a ∧ f a = b := by
  cases result with
  | error e =>
      constructor
      · intro hok
        cases hok
      · rintro ⟨a, hok, -⟩
        cases hok
  | ok a =>
      constructor
      · intro hok
        cases hok
        exact ⟨a, rfl, rfl⟩
      · rintro ⟨a', hok, rfl⟩
        cases hok
        rfl

theorem isOk_eq_true_iff {result : Except ε α} : result.isOk = true ↔ ∃ a, result = .ok a := by
  cases result with
  | error e => simp [Except.isOk, Except.toBool]
  | ok a => simp [Except.isOk, Except.toBool]

/-- A check of every item returns exactly if the check of each one does. -/
theorem forM_eq_ok_iff {items : List α} {check : α → Except ε Unit} :
    items.forM check = .ok () ↔ ∀ item ∈ items, check item = .ok () := by
  induction items with
  | nil => exact iff_of_true rfl fun item hitem => by cases hitem
  | cons item rest ih =>
      change (check item >>= fun _ => rest.forM check) = .ok () ↔ _
      rw [bind_eq_ok_iff, List.forall_mem_cons, ← ih]
      exact ⟨fun ⟨_, hfirst, hrest⟩ => ⟨hfirst, hrest⟩, fun ⟨hfirst, hrest⟩ => ⟨_, hfirst, hrest⟩⟩

/-! ### What a result satisfies -/

/-- If the computation returns, then a value with the property. -/
def All (P : α → Prop) (result : Except ε α) : Prop := ∀ a, result = .ok a → P a

theorem All.ok {P : α → Prop} {a : α} (ha : P a) : All P (.ok a : Except ε α) := by
  rintro _ ⟨⟩
  exact ha

theorem All.error {P : α → Prop} (e : ε) : All P (.error e : Except ε α) := by
  rintro _ ⟨⟩

theorem All.mono {P Q : α → Prop} {result : Except ε α} (hall : All P result)
    (himp : ∀ a, P a → Q a) : All Q result :=
  fun a ha => himp a (hall a ha)

theorem All.bind {P : α → Prop} {Q : β → Prop} {first : Except ε α} {rest : α → Except ε β}
    (hfirst : All P first) (hrest : ∀ a, P a → All Q (rest a)) : All Q (first >>= rest) := by
  intro b hb
  obtain ⟨a, ha, hrun⟩ := bind_eq_ok_iff.mp hb
  exact hrest a (hfirst a ha) b hrun

theorem All.foldlM {P : α → Prop} {step : α → β → Except ε α} {items : List β} {start : α}
    (hstart : P start) (hstep : ∀ a, ∀ item ∈ items, P a → All P (step a item)) :
    All P (items.foldlM step start) := by
  induction items generalizing start with
  | nil => exact .ok hstart
  | cons item rest ih =>
      rw [List.foldlM_cons]
      refine .bind (hstep start item List.mem_cons_self hstart) fun a ha => ih ha ?_
      exact fun a' item' hitem' => hstep a' item' (List.mem_cons_of_mem item hitem')

/-- What one item brings about, and no item undoes, holds after all of them. -/
theorem All.foldlM_of_mem {P : α → Prop} {step : α → β → Except ε α} {items : List β} {item : β}
    (hmem : item ∈ items) (hitem : ∀ a, All P (step a item))
    (hstep : ∀ a other, P a → All P (step a other)) (start : α) :
    All P (items.foldlM step start) := by
  induction items generalizing start with
  | nil => cases hmem
  | cons first rest ih =>
      rw [List.foldlM_cons]
      rcases List.mem_cons.mp hmem with rfl | hrest
      · exact (hitem start).bind fun a ha => .foldlM ha fun a' other _ => hstep a' other
      · exact bind (P := fun _ => True) (fun _ _ => trivial) fun a _ => ih hrest a

/-! ### Two computations side by side -/

/-- Both fail with the same error, or return values that are related. -/
inductive Alike (R : α → β → Prop) : Except ε α → Except ε β → Prop
  | ok {a : α} {b : β} (hrelated : R a b) : Alike R (.ok a) (.ok b)
  | error (e : ε) : Alike R (.error e) (.error e)

variable {γ : Type}

theorem Alike.bind {R : α → β → Prop} {S : γ → δ → Prop} {first : Except ε α} {second : Except ε β}
    {rest : α → Except ε γ} {other : β → Except ε δ} (hfirst : Alike R first second)
    (hrest : ∀ a b, R a b → Alike S (rest a) (other b)) : Alike S (first >>= rest) (second >>= other) := by
  cases hfirst with
  | ok hrelated => exact hrest _ _ hrelated
  | error e => exact .error e

theorem Alike.of_eq (result : Except ε α) : Alike (· = ·) result result := by
  cases result with
  | ok a => exact .ok rfl
  | error e => exact .error e

/-- What the first one satisfies may be used of it. -/
theorem Alike.with_all {R : α → β → Prop} {P : α → Prop} {first : Except ε α} {second : Except ε β}
    (halike : Alike R first second) (hall : All P first) :
    Alike (fun a b => P a ∧ R a b) first second := by
  cases halike with
  | ok hrelated => exact .ok ⟨hall _ rfl, hrelated⟩
  | error e => exact .error e

theorem Alike.foldlM {R : α → α → Prop} {step : α → β → Except ε α} {items : List β} {start other : α}
    (hstart : R start other) (hstep : ∀ a b item, R a b → Alike R (step a item) (step b item)) :
    Alike R (items.foldlM step start) (items.foldlM step other) := by
  induction items generalizing start other with
  | nil => exact .ok hstart
  | cons item rest ih =>
      rw [List.foldlM_cons, List.foldlM_cons]
      exact (hstep start other item hstart).bind fun a b hrelated => ih hrelated

theorem Alike.map_eq {R : α → β → Prop} {first : Except ε α} {second : Except ε β} {f : α → γ}
    {g : β → γ} (halike : Alike R first second) (heq : ∀ a b, R a b → f a = g b) :
    first.map f = second.map g := by
  cases halike with
  | ok hrelated => exact congrArg Except.ok (heq _ _ hrelated)
  | error e => rfl

end Except
