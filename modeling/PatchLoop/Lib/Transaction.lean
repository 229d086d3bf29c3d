import Mathlib.Logic.Basic
import Mathlib.Tactic.Common

/-!
# Transactions

A transaction reads and writes a state and may raise. When it raises, the state it had reached is
gone: that is the rollback. `Returns` says with which value and in which state a transaction ends;
the equivalences below unfold it step by step, so that a caller never unfolds the monad.
-/

/-- A transaction over `σ` that returns `α` or raises `ε`. -/
abbrev Transaction (ε σ α : Type) := StateT σ (Except ε) α

namespace Transaction

variable {ε σ α β : Type}

/-- `if condition: raise error` -/
def raiseIf (condition : Prop) [Decidable condition] (error : ε) : Transaction ε σ Unit :=
  if condition then throw error else pure ()

/-- The value of an optional read, or the error raised when there is none. -/
def orRaise (value : Option α) (error : ε) : Transaction ε σ α :=
  match value with
  | some a => pure a
  | none => throw error

/-- What a query returns in the current state. -/
def query (read : σ → α) : Transaction ε σ α := do
  return read (← get)

/-- `if condition: ...` -/
def doIf (condition : Prop) [Decidable condition] (action : Transaction ε σ Unit) :
    Transaction ε σ Unit :=
  if condition then action else pure ()

/-- The state after a transaction: what it committed, or what was there before it. -/
def commit (action : Transaction ε σ α) (s : σ) : σ :=
  match action.run s with
  | .ok (_, s') => s'
  | .error _ => s

/-- From `s` the transaction returns `a` and commits `s'`. -/
def Returns (action : Transaction ε σ α) (s : σ) (a : α) (s' : σ) : Prop :=
  action.run s = .ok (a, s')

/-- From `s` the transaction raises `e`. -/
def Raises (action : Transaction ε σ α) (s : σ) (e : ε) : Prop :=
  action.run s = .error e

/-! ### What a returning transaction did -/

@[simp] theorem bind_returns {action : Transaction ε σ α} {next : α → Transaction ε σ β}
    {s s' : σ} {b : β} :
    Returns (action >>= next) s b s'
      ↔ ∃ a t, Returns action s a t ∧ Returns (next a) t b s' := by
  unfold Returns
  rw [StateT.run_bind]
  cases hrun : action.run s with
  | error e => simp [bind, Except.bind]
  | ok p =>
      obtain ⟨a, t⟩ := p
      simp only [bind, Except.bind, Except.ok.injEq, Prod.mk.injEq]
      constructor
      · exact fun hnext => ⟨a, t, ⟨rfl, rfl⟩, hnext⟩
      · rintro ⟨_, _, ⟨rfl, rfl⟩, hnext⟩
        exact hnext

@[simp] theorem pure_returns {a b : α} {s s' : σ} :
    Returns (pure a : Transaction ε σ α) s b s' ↔ b = a ∧ s' = s := by
  change (Except.ok (a, s) : Except ε (α × σ)) = .ok (b, s') ↔ _
  rw [Except.ok.injEq, Prod.mk.injEq]
  exact and_congr eq_comm eq_comm

@[simp] theorem map_returns {action : Transaction ε σ α} {f : α → β} {s s' : σ} {b : β} :
    Returns (f <$> action) s b s' ↔ ∃ a, Returns action s a s' ∧ b = f a := by
  rw [← bind_pure_comp, bind_returns]
  constructor
  · rintro ⟨a, t, haction, hpure⟩
    obtain ⟨rfl, rfl⟩ := pure_returns.mp hpure
    exact ⟨a, haction, rfl⟩
  · rintro ⟨a, haction, rfl⟩
    exact ⟨a, s', haction, pure_returns.mpr ⟨rfl, rfl⟩⟩

@[simp] theorem throw_returns {e : ε} {s s' : σ} {a : α} :
    ¬ Returns (throw e : Transaction ε σ α) s a s' := by
  intro h
  cases h

@[simp] theorem raiseIf_returns {condition : Prop} [Decidable condition] {e : ε} {u : Unit}
    {s s' : σ} :
    Returns (raiseIf condition e : Transaction ε σ Unit) s u s' ↔ ¬ condition ∧ s' = s := by
  unfold raiseIf
  by_cases hcondition : condition
  · rw [if_pos hcondition]
    exact iff_of_false throw_returns fun h => h.1 hcondition
  · rw [if_neg hcondition, pure_returns]
    simp [hcondition]

@[simp] theorem orRaise_returns {value : Option α} {e : ε} {a : α} {s s' : σ} :
    Returns (orRaise value e : Transaction ε σ α) s a s' ↔ value = some a ∧ s' = s := by
  cases value with
  | none => exact iff_of_false throw_returns (by simp)
  | some b =>
      simp only [orRaise, pure_returns, Option.some.injEq]
      exact and_congr_left' eq_comm

@[simp] theorem get_returns {s t s' : σ} :
    Returns (get : Transaction ε σ σ) s t s' ↔ t = s ∧ s' = s := by
  change (Except.ok (s, s) : Except ε (σ × σ)) = .ok (t, s') ↔ _
  rw [Except.ok.injEq, Prod.mk.injEq]
  exact and_congr eq_comm eq_comm

@[simp] theorem set_returns {t s s' : σ} {u : PUnit} :
    Returns (set t : Transaction ε σ PUnit) s u s' ↔ s' = t := by
  change (Except.ok (PUnit.unit, t) : Except ε (PUnit × σ)) = .ok (u, s') ↔ _
  rw [Except.ok.injEq, Prod.mk.injEq]
  exact ⟨fun h => h.2.symm, fun h => ⟨rfl, h.symm⟩⟩

@[simp] theorem modify_returns {f : σ → σ} {u : PUnit} {s s' : σ} :
    Returns (modify f : Transaction ε σ PUnit) s u s' ↔ s' = f s := by
  change (Except.ok (PUnit.unit, f s) : Except ε (PUnit × σ)) = .ok (u, s') ↔ _
  rw [Except.ok.injEq, Prod.mk.injEq]
  exact ⟨fun h => h.2.symm, fun h => ⟨rfl, h.symm⟩⟩

@[simp] theorem query_returns {read : σ → α} {a : α} {s s' : σ} :
    Returns (query read : Transaction ε σ α) s a s' ↔ read s = a ∧ s' = s := by
  rw [query, bind_pure_comp, map_returns]
  simp [and_comm, eq_comm]

@[simp] theorem ite_returns {condition : Prop} [Decidable condition] {x y : Transaction ε σ α}
    {s s' : σ} {a : α} :
    Returns (if condition then x else y) s a s'
      ↔ (condition ∧ Returns x s a s') ∨ (¬ condition ∧ Returns y s a s') := by
  by_cases hcondition : condition
  · simp [hcondition]
  · simp [hcondition]

@[simp] theorem doIf_returns {condition : Prop} [Decidable condition]
    {action : Transaction ε σ Unit} {s s' : σ} {u : Unit} :
    Returns (doIf condition action) s u s'
      ↔ (condition ∧ Returns action s u s') ∨ (¬ condition ∧ s' = s) := by
  unfold doIf
  simp

/-- A transaction run on an optional value. -/
@[simp] theorem forM_option_returns {value : Option α} {action : α → Transaction ε σ PUnit}
    {s s' : σ} {u : PUnit} :
    Returns (value.forM action) s u s'
      ↔ (value = none ∧ s' = s) ∨ (∃ a, value = some a ∧ Returns (action a) s u s') := by
  cases value with
  | none => simp [Option.forM]
  | some a => simp [Option.forM]

/-! ### Why a transaction raises -/

@[simp] theorem bind_raises {action : Transaction ε σ α} {next : α → Transaction ε σ β} {s : σ}
    {e : ε} :
    Raises (action >>= next) s e
      ↔ Raises action s e ∨ ∃ a t, Returns action s a t ∧ Raises (next a) t e := by
  unfold Raises Returns
  rw [StateT.run_bind]
  cases hrun : action.run s with
  | error e' => simp [bind, Except.bind]
  | ok p =>
      obtain ⟨a, t⟩ := p
      simp [bind, Except.bind]

@[simp] theorem pure_raises {a : α} {s : σ} {e : ε} :
    ¬ Raises (pure a : Transaction ε σ α) s e := by
  intro h
  cases h

@[simp] theorem map_raises {action : Transaction ε σ α} {f : α → β} {s : σ} {e : ε} :
    Raises (f <$> action) s e ↔ Raises action s e := by
  rw [← bind_pure_comp, bind_raises]
  simp

@[simp] theorem throw_raises {e e' : ε} {s : σ} :
    Raises (throw e : Transaction ε σ α) s e' ↔ e' = e := by
  change (Except.error e : Except ε (α × σ)) = .error e' ↔ _
  rw [Except.error.injEq, eq_comm]

@[simp] theorem raiseIf_raises {condition : Prop} [Decidable condition] {e e' : ε} {s : σ} :
    Raises (raiseIf condition e : Transaction ε σ Unit) s e' ↔ condition ∧ e' = e := by
  unfold raiseIf
  by_cases hcondition : condition
  · rw [if_pos hcondition, throw_raises]
    simp [hcondition]
  · rw [if_neg hcondition]
    exact iff_of_false pure_raises fun h => hcondition h.1

@[simp] theorem orRaise_raises {value : Option α} {e e' : ε} {s : σ} :
    Raises (orRaise value e : Transaction ε σ α) s e' ↔ value = none ∧ e' = e := by
  cases value with
  | none => simp [orRaise]
  | some b => simp [orRaise]

@[simp] theorem get_raises {s : σ} {e : ε} : ¬ Raises (get : Transaction ε σ σ) s e := by
  intro h
  cases h

@[simp] theorem set_raises {t s : σ} {e : ε} :
    ¬ Raises (set t : Transaction ε σ PUnit) s e := by
  intro h
  cases h

@[simp] theorem modify_raises {f : σ → σ} {s : σ} {e : ε} :
    ¬ Raises (modify f : Transaction ε σ PUnit) s e := by
  intro h
  cases h

@[simp] theorem query_raises {read : σ → α} {s : σ} {e : ε} :
    ¬ Raises (query read : Transaction ε σ α) s e := by
  intro h
  cases h

@[simp] theorem ite_raises {condition : Prop} [Decidable condition] {x y : Transaction ε σ α}
    {s : σ} {e : ε} :
    Raises (if condition then x else y) s e
      ↔ (condition ∧ Raises x s e) ∨ (¬ condition ∧ Raises y s e) := by
  by_cases hcondition : condition
  · simp [hcondition]
  · simp [hcondition]

@[simp] theorem doIf_raises {condition : Prop} [Decidable condition]
    {action : Transaction ε σ Unit} {s : σ} {e : ε} :
    Raises (doIf condition action) s e ↔ condition ∧ Raises action s e := by
  unfold doIf
  simp

/-! ### Commit or roll back -/

theorem commit_of_returns {action : Transaction ε σ α} {s s' : σ} {a : α}
    (hreturns : Returns action s a s') : action.commit s = s' := by
  rw [commit, hreturns]

/-- A transaction that raises changes nothing. -/
theorem commit_cases (action : Transaction ε σ α) (s : σ) :
    action.commit s = s ∨ ∃ a, Returns action s a (action.commit s) := by
  unfold Returns
  cases hrun : action.run s with
  | error e => exact Or.inl (by rw [commit, hrun])
  | ok p => exact Or.inr ⟨p.1, by rw [commit, hrun]⟩

/-- A transaction that does not raise returns. -/
theorem isOk_iff {action : Transaction ε σ α} {s : σ} :
    (action.run s).isOk = true ↔ ∃ a, Returns action s a (action.commit s) := by
  unfold Returns
  cases hrun : action.run s with
  | error e => simp [Except.isOk, Except.toBool]
  | ok p =>
      have hcommit : action.commit s = p.2 := by rw [commit, hrun]
      simp only [Except.isOk, Except.toBool, hcommit, true_iff]
      exact ⟨p.1, rfl⟩

end Transaction
