import PatchLoop.Lib.Run
import PatchLoop.Lib.Transaction

/-!
# Clients of a shared state

A client runs transactions on a state that it shares with others, who make calls of their own before
each of its transactions. An error ends the client or is handled by it; what it has committed stays.
-/

/-- What a client shares: the state, and how many transactions the client has run. -/
structure SharedState (σ : Type) where
  state : σ
  turn : Nat := 0

/-- A client over `σ` that returns `α` or raises `ε`. -/
abbrev Client (ε σ α : Type) := ExceptT ε (StateM (SharedState σ)) α

namespace Client

variable {ε σ ι α β : Type}

/-- The client returns `a`. -/
def Returns (client : Client ε σ α) (w : SharedState σ) (a : α) (w' : SharedState σ) : Prop :=
  client.run w = (.ok a, w')

/-- The client raises `e`. -/
def Raises (client : Client ε σ α) (w : SharedState σ) (e : ε) (w' : SharedState σ) : Prop :=
  client.run w = (.error e, w')

/-! ### Composition -/

section Composition

variable {client : Client ε σ α} {w w' : SharedState σ} {a b : α} {e : ε}

@[simp] theorem pure_returns :
    Returns (pure a : Client ε σ α) w b w' ↔ b = a ∧ w' = w := by
  change ((Except.ok a, w) : Except ε α × SharedState σ) = (.ok b, w') ↔ _
  rw [Prod.mk.injEq, Except.ok.injEq]
  exact and_congr eq_comm eq_comm

@[simp] theorem pure_raises : ¬ Raises (pure a : Client ε σ α) w e w' := by
  intro h
  cases h

@[simp] theorem throw_returns : ¬ Returns (throw e : Client ε σ α) w a w' := by
  intro h
  cases h

@[simp] theorem throw_raises {e' : ε} :
    Raises (throw e : Client ε σ α) w e' w' ↔ e' = e ∧ w' = w := by
  change ((Except.error e, w) : Except ε α × SharedState σ) = (.error e', w') ↔ _
  rw [Prod.mk.injEq, Except.error.injEq]
  exact and_congr eq_comm eq_comm

theorem run_bind (next : α → Client ε σ β) :
    (client >>= next).run w = match client.run w with
      | (.ok a, w₁) => (next a).run w₁
      | (.error e, w₁) => (.error e, w₁) := by
  change (ExceptT.bind client next).run w = _
  simp only [ExceptT.bind, ExceptT.mk, ExceptT.run, bind, StateT.bind, ExceptT.bindCont]
  generalize client w = p
  obtain ⟨r, w₁⟩ := p
  cases r <;> rfl

@[simp] theorem bind_returns {next : α → Client ε σ β} {b : β} :
    Returns (client >>= next) w b w' ↔ ∃ a w₁, Returns client w a w₁ ∧ Returns (next a) w₁ b w' := by
  unfold Returns
  rw [run_bind]
  generalize client.run w = p
  obtain ⟨r, w₁⟩ := p
  cases r with
  | ok a =>
      constructor
      · exact fun hnext => ⟨a, w₁, rfl, hnext⟩
      · rintro ⟨_, _, heq, hnext⟩
        cases heq
        exact hnext
  | error e =>
      constructor
      · intro heq
        cases heq
      · rintro ⟨_, _, heq, -⟩
        cases heq

@[simp] theorem bind_raises {next : α → Client ε σ β} :
    Raises (client >>= next) w e w'
      ↔ Raises client w e w' ∨ ∃ a w₁, Returns client w a w₁ ∧ Raises (next a) w₁ e w' := by
  unfold Raises Returns
  rw [run_bind]
  generalize client.run w = p
  obtain ⟨r, w₁⟩ := p
  cases r with
  | ok a =>
      constructor
      · exact fun hnext => Or.inr ⟨a, w₁, rfl, hnext⟩
      · rintro (heq | ⟨_, _, heq, hnext⟩)
        · cases heq
        · cases heq
          exact hnext
  | error e =>
      constructor
      · intro heq
        cases heq
        exact Or.inl rfl
      · rintro (heq | ⟨_, _, heq, -⟩)
        · cases heq
          rfl
        · cases heq

theorem run_tryCatch (handler : ε → Client ε σ α) :
    (tryCatch client handler).run w = match client.run w with
      | (.ok a, w₁) => (.ok a, w₁)
      | (.error e, w₁) => (handler e).run w₁ := by
  change (ExceptT.tryCatch client handler).run w = _
  simp only [ExceptT.tryCatch, ExceptT.mk, ExceptT.run, bind, StateT.bind]
  generalize client w = p
  obtain ⟨r, w₁⟩ := p
  cases r <;> rfl

/-- `try: ... except: ...` -/
@[simp] theorem tryCatch_returns {handler : ε → Client ε σ α} :
    Returns (tryCatch client handler) w a w'
      ↔ Returns client w a w' ∨ ∃ e w₁, Raises client w e w₁ ∧ Returns (handler e) w₁ a w' := by
  unfold Returns Raises
  rw [run_tryCatch]
  generalize client.run w = p
  obtain ⟨r, w₁⟩ := p
  cases r with
  | ok b =>
      constructor
      · exact Or.inl
      · rintro (heq | ⟨_, _, heq, -⟩)
        · exact heq
        · cases heq
  | error e =>
      constructor
      · exact fun hhandler => Or.inr ⟨e, w₁, rfl, hhandler⟩
      · rintro (heq | ⟨_, _, heq, hhandler⟩)
        · cases heq
        · cases heq
          exact hhandler

@[simp] theorem tryCatch_raises {handler : ε → Client ε σ α} :
    Raises (tryCatch client handler) w e w'
      ↔ ∃ e₁ w₁, Raises client w e₁ w₁ ∧ Raises (handler e₁) w₁ e w' := by
  unfold Raises
  rw [run_tryCatch]
  generalize client.run w = p
  obtain ⟨r, w₁⟩ := p
  cases r with
  | ok b =>
      constructor
      · intro heq
        cases heq
      · rintro ⟨_, _, heq, -⟩
        cases heq
  | error e =>
      constructor
      · exact fun hhandler => ⟨e, w₁, rfl, hhandler⟩
      · rintro ⟨_, _, heq, hhandler⟩
        cases heq
        exact hhandler

theorem returns_of_isOk (hok : (client.run w).1.isOk = true) :
    ∃ a, Returns client w a (client.run w).2 := by
  unfold Returns
  generalize client.run w = p at hok ⊢
  obtain ⟨r, w₁⟩ := p
  cases r with
  | ok a => exact ⟨a, rfl⟩
  | error e => cases hok

theorem raises_of_error (herror : (client.run w).1 = .error e) :
    Raises client w e (client.run w).2 := by
  unfold Raises
  rw [← herror]
  rfl

end Composition

/-! ### Transactions of a client -/

section Calls

variable (step : σ → ι → σ) (others : Nat → List ι)

/-- The state in which the next transaction of the client runs. -/
def arrival (w : SharedState σ) : σ := Run.after step w.state (others w.turn)

/-- The others make their calls, then the transaction runs. -/
def call (action : Transaction ε σ α) : Client ε σ α :=
  ExceptT.mk fun w =>
    match action.run (arrival step others w) with
    | .ok (a, s) => (.ok a, { state := s, turn := w.turn + 1 })
    | .error e => (.error e, { state := arrival step others w, turn := w.turn + 1 })

variable {step others} {action : Transaction ε σ α} {w w' : SharedState σ} {a : α} {e : ε}

@[simp] theorem call_returns :
    Returns (call step others action) w a w'
      ↔ action.Returns (arrival step others w) a w'.state ∧ w'.turn = w.turn + 1 := by
  obtain ⟨s', turn⟩ := w'
  unfold Returns Transaction.Returns call
  simp only [ExceptT.run_mk]
  change (match action.run (arrival step others w) with
    | .ok (a, s) => (Except.ok a, ({ state := s, turn := w.turn + 1 } : SharedState σ))
    | .error e => (.error e, { state := arrival step others w, turn := w.turn + 1 }))
      = (.ok a, { state := s', turn := turn }) ↔ _
  cases hrun : action.run (arrival step others w) with
  | error e => simp
  | ok p =>
      obtain ⟨b, s⟩ := p
      simp only [Prod.mk.injEq, Except.ok.injEq, SharedState.mk.injEq]
      constructor
      · rintro ⟨rfl, rfl, rfl⟩
        exact ⟨⟨rfl, rfl⟩, rfl⟩
      · rintro ⟨⟨rfl, rfl⟩, rfl⟩
        exact ⟨rfl, rfl, rfl⟩

/-- A transaction that raises leaves what the others have done. -/
@[simp] theorem call_raises :
    Raises (call step others action) w e w'
      ↔ action.Raises (arrival step others w) e ∧ w'.state = arrival step others w
        ∧ w'.turn = w.turn + 1 := by
  obtain ⟨s', turn⟩ := w'
  unfold Raises Transaction.Raises call
  simp only [ExceptT.run_mk]
  change (match action.run (arrival step others w) with
    | .ok (a, s) => (Except.ok a, ({ state := s, turn := w.turn + 1 } : SharedState σ))
    | .error e => (.error e, { state := arrival step others w, turn := w.turn + 1 }))
      = (.error e, { state := s', turn := turn }) ↔ _
  cases hrun : action.run (arrival step others w) with
  | error e' =>
      simp only [Prod.mk.injEq, Except.error.injEq, SharedState.mk.injEq]
      constructor
      · rintro ⟨rfl, rfl, rfl⟩
        exact ⟨rfl, rfl, rfl⟩
      · rintro ⟨rfl, rfl, rfl⟩
        exact ⟨rfl, rfl, rfl⟩
  | ok p => simp

/-- What the calls of the others preserve holds when the next transaction runs. -/
theorem inv_arrival {Inv : σ → Prop} (hothers : ∀ n, ∀ i ∈ others n, ∀ s, Inv s → Inv (step s i))
    (hstart : Inv w.state) : Inv (arrival step others w) := by
  have hrun : Run.EveryStep step (fun _ i => i ∈ others w.turn) w.state (others w.turn) :=
    Run.everyStep_of_forall fun i hi _ => hi
  exact Run.invariant_after Inv (fun s i hinv hi => hothers w.turn i hi s hinv) hrun hstart

end Calls

end Client
