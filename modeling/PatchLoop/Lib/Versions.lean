import PatchLoop.Lib.Run
import PatchLoop.Lib.Table

/-!
# Rows with versions

A row that is either left alone or written with a higher version is known by its version: two readings
of one version, at any two moments of a run, are readings of one row.
-/

namespace Run

variable {ρ : Type} {version : ρ → Nat}

/-- The row that was there is there, or one with a higher version has taken its place. -/
def Rises (version : ρ → Nat) (before after : Option ρ) : Prop :=
  ∀ old ∈ before, ∃ new ∈ after, new = old ∨ version old < version new

theorem Rises.refl (row : Option ρ) : Rises version row row :=
  fun old hold => ⟨old, hold, Or.inl rfl⟩

theorem Rises.of_none (row : Option ρ) : Rises version none row := by
  intro old hold
  cases hold

theorem Rises.write {before after : Option ρ} {old new : ρ} (hbefore : before = some old)
    (hafter : after = some new) (hgrows : new = old ∨ version old < version new) :
    Rises version before after := by
  subst hbefore hafter
  intro row hrow
  cases hrow
  exact ⟨new, rfl, hgrows⟩

theorem Rises.trans {first second third : Option ρ} (hfirst : Rises version first second)
    (hsecond : Rises version second third) : Rises version first third := by
  intro old hold
  obtain ⟨middle, hmiddle, hearlier⟩ := hfirst old hold
  obtain ⟨new, hnew, hlater⟩ := hsecond middle hmiddle
  refine ⟨new, hnew, ?_⟩
  rcases hearlier with rfl | hearlier
  · exact hlater
  · rcases hlater with rfl | hlater
    · exact Or.inr hearlier
    · exact Or.inr (Nat.lt_trans hearlier hlater)

theorem Rises.map {σ : Type} {f : σ → ρ} {before after : Option σ}
    (hrises : ∀ old ∈ before, ∃ new ∈ after, f new = f old ∨ version (f old) < version (f new)) :
    Rises version (before.map f) (after.map f) := by
  intro old hold
  obtain ⟨row, hrow, rfl⟩ := Option.map_eq_some_iff.mp hold
  obtain ⟨new, hnew, hgrows⟩ := hrises row hrow
  exact ⟨f new, Option.map_eq_some_iff.mpr ⟨new, hnew, rfl⟩, hgrows⟩

/-- Two readings of one version are readings of one row. -/
theorem Rises.eq {before after : Option ρ} (hrises : Rises version before after) {old new : ρ}
    (hold : old ∈ before) (hnew : new ∈ after) (hversion : version new = version old) :
    new = old := by
  obtain ⟨row, hrow, hgrows⟩ := hrises old hold
  cases Option.mem_unique hnew hrow
  rcases hgrows with hsame | hlt
  · exact hsame
  · omega

/-- What every step does to the row, a run does. -/
theorem rises_after {σ ι : Type} {step : σ → ι → σ} {row : σ → Option ρ}
    (hstep : ∀ s i, Rises version (row s) (row (step s i))) (s : σ) (inputs : List ι) :
    Rises version (row s) (row (after step s inputs)) := by
  induction inputs generalizing s with
  | nil => exact .refl (row s)
  | cons i rest ih => exact (hstep s i).trans (ih (step s i))

end Run
