import PatchLoop.Lib.Client

/-!
# Processes that can be stopped

A process is a client that can be stopped before any of its actions, and that leaves a trace of what
it did. Being stopped is not an error: no handler runs, and what was committed stays. The rules below
derive what holds of a process from what holds of its parts, whatever the others do in between.
-/

/-- How a process ends. -/
inductive Ending (ε α : Type) where
  | returned (a : α)
  | raised (e : ε)
  | stopped
deriving DecidableEq

/-- What a process leaves: how it ended, the state, and the trace of what it did. -/
structure Ran (τ ε σ α : Type) where
  ending : Ending ε α
  world : SharedState σ
  trace : List τ

/-- A process over `σ` with trace entries `τ`. -/
def Process (τ ε σ α : Type) := SharedState σ → Ran τ ε σ α

namespace Process

variable {τ ε σ ι α β : Type}

protected def pure (a : α) : Process τ ε σ α := fun w => ⟨.returned a, w, []⟩

protected def bind (p : Process τ ε σ α) (next : α → Process τ ε σ β) : Process τ ε σ β := fun w =>
  match p w with
  | ⟨.returned a, w₁, first⟩ =>
      match next a w₁ with
      | ⟨ending, w₂, second⟩ => ⟨ending, w₂, first ++ second⟩
  | ⟨.raised e, w₁, first⟩ => ⟨.raised e, w₁, first⟩
  | ⟨.stopped, w₁, first⟩ => ⟨.stopped, w₁, first⟩

instance : Monad (Process τ ε σ) where
  pure := Process.pure
  bind := Process.bind

protected def throw (e : ε) : Process τ ε σ α := fun w => ⟨.raised e, w, []⟩

protected def tryCatch (p : Process τ ε σ α) (handler : ε → Process τ ε σ α) : Process τ ε σ α :=
  fun w =>
    match p w with
    | ⟨.raised e, w₁, first⟩ =>
        match handler e w₁ with
        | ⟨ending, w₂, second⟩ => ⟨ending, w₂, first ++ second⟩
    | ⟨.returned a, w₁, first⟩ => ⟨.returned a, w₁, first⟩
    | ⟨.stopped, w₁, first⟩ => ⟨.stopped, w₁, first⟩

instance : MonadExceptOf ε (Process τ ε σ) where
  throw := Process.throw
  tryCatch := Process.tryCatch

/-- The process is stopped here. -/
def stop : Process τ ε σ α := fun w => ⟨.stopped, w, []⟩

/-- Adds an entry to the trace. -/
def note (entry : τ) : Process τ ε σ Unit := fun w => ⟨.returned (), w, [entry]⟩

/-- What a reader finds in the state. -/
def read (reader : σ → α) : Process τ ε σ α := fun w => ⟨.returned (reader w.state), w, []⟩

/-- Changes the part of the state that no one else sees. -/
def update (change : σ → σ) : Process τ ε σ Unit := fun w =>
  ⟨.returned (), { w with state := change w.state }, []⟩

/-! ### Actions among others -/

/-- What surrounds a process: what the others do before its `n`-th action, what an entry of theirs in
the trace is, and before which of its actions it is stopped. -/
structure Among (τ σ ι : Type) where
  step : σ → ι → σ × List τ
  others : Nat → List ι
  stops : Nat → Bool

/-- The state and the trace after the steps of the others. -/
def arrive (step : σ → ι → σ × List τ) : σ → List ι → σ × List τ
  | s, [] => (s, [])
  | s, i :: rest =>
      let (s₁, first) := step s i
      let (s₂, second) := arrive step s₁ rest
      (s₂, first ++ second)

/-- The others make their steps, then the action runs, unless the process is stopped before. An action
that raises keeps the state as it found it. -/
def act (among : Among τ σ ι) (action : Nat → σ → Except ε (α × σ)) : Process τ ε σ α := fun w =>
  if among.stops w.turn then ⟨.stopped, w, []⟩
  else
    match arrive among.step w.state (among.others w.turn) with
    | (s, entries) =>
        match action w.turn s with
        | .ok (a, s') => ⟨.returned a, ⟨s', w.turn + 1⟩, entries⟩
        | .error e => ⟨.raised e, ⟨s, w.turn + 1⟩, entries⟩

/-! ### What holds of a process -/

/-- Assertions speak of the state and of the trace so far. -/
abbrev Assertion (τ σ : Type) := σ → List τ → Prop

/-- From a state with `P`, the process returns with `Q`, raises with `E`, or is stopped with `S`. -/
def Ensures (P : Assertion τ σ) (p : Process τ ε σ α) (Q : α → Assertion τ σ)
    (E : ε → Assertion τ σ) (S : Assertion τ σ) : Prop :=
  ∀ w past, P w.state past →
    match (p w).ending with
    | .returned a => Q a (p w).world.state (past ++ (p w).trace)
    | .raised e => E e (p w).world.state (past ++ (p w).trace)
    | .stopped => S (p w).world.state (past ++ (p w).trace)

/-- The process keeps the assertion, however it ends. -/
abbrev Keeps (I : Assertion τ σ) (p : Process τ ε σ α) : Prop :=
  Ensures I p (fun _ => I) (fun _ => I) I

section Rules

variable {P B : Assertion τ σ} {Q V : α → Assertion τ σ} {R : β → Assertion τ σ}
  {E F : ε → Assertion τ σ} {S T : Assertion τ σ}

theorem Ensures.weaken {p : Process τ ε σ α} (hp : Ensures B p V F T)
    (hbefore : ∀ s past, P s past → B s past)
    (hreturned : ∀ a s past, V a s past → Q a s past)
    (hraised : ∀ e s past, F e s past → E e s past)
    (hstopped : ∀ s past, T s past → S s past) : Ensures P p Q E S := by
  intro w past hP
  have hends := hp w past (hbefore _ _ hP)
  revert hends
  cases (p w).ending with
  | returned a => exact hreturned a _ _
  | raised e => exact hraised e _ _
  | stopped => exact hstopped _ _

/-- A stronger assertion before. -/
theorem Ensures.before {p : Process τ ε σ α} (hp : Ensures B p Q E S)
    (hbefore : ∀ s past, P s past → B s past) : Ensures P p Q E S :=
  fun w past hP => hp w past (hbefore _ _ hP)

/-- What is known of the state before may be used to verify the process. -/
theorem Ensures.of_fact {p : Process τ ε σ α} {fact : Prop}
    (hfact : ∀ s past, P s past → fact) (hp : fact → Ensures P p Q E S) : Ensures P p Q E S :=
  fun w past hP => hp (hfact _ _ hP) w past hP

theorem ensures_pure {a : α} (hQ : ∀ s past, P s past → Q a s past) :
    Ensures P (pure a : Process τ ε σ α) Q E S := by
  intro w past hP
  change Q a w.state (past ++ [])
  rw [List.append_nil]
  exact hQ _ _ hP

theorem ensures_throw {e : ε} (hE : ∀ s past, P s past → E e s past) :
    Ensures P (throw e : Process τ ε σ α) Q E S := by
  intro w past hP
  change E e w.state (past ++ [])
  rw [List.append_nil]
  exact hE _ _ hP

theorem ensures_stop (hS : ∀ s past, P s past → S s past) :
    Ensures P (stop : Process τ ε σ α) Q E S := by
  intro w past hP
  change S w.state (past ++ [])
  rw [List.append_nil]
  exact hS _ _ hP

theorem ensures_bind {p : Process τ ε σ α} {next : α → Process τ ε σ β}
    (hp : Ensures P p Q E S) (hnext : ∀ a, Ensures (Q a) (next a) R E S) :
    Ensures P (p >>= next) R E S := by
  intro w past hP
  have hfirst := hp w past hP
  change match (Process.bind p next w).ending with
    | .returned b => R b (Process.bind p next w).world.state (past ++ (Process.bind p next w).trace)
    | .raised e => E e (Process.bind p next w).world.state (past ++ (Process.bind p next w).trace)
    | .stopped => S (Process.bind p next w).world.state (past ++ (Process.bind p next w).trace)
  unfold Process.bind
  revert hfirst
  rcases p w with ⟨ending, w₁, first⟩
  cases ending with
  | returned a =>
      intro hQ
      have hsecond := hnext a w₁ (past ++ first) hQ
      revert hsecond
      dsimp only
      rcases next a w₁ with ⟨ending, w₂, second⟩
      rw [← List.append_assoc]
      exact id
  | raised e => exact id
  | stopped => exact id

theorem ensures_map {p : Process τ ε σ α} {f : α → β}
    (hp : Ensures P p (fun a => R (f a)) E S) : Ensures P (f <$> p) R E S :=
  ensures_bind hp fun _ => ensures_pure fun _ _ hR => hR

/-- `try: ... except: ...` -/
theorem ensures_tryCatch {p : Process τ ε σ α} {handler : ε → Process τ ε σ α}
    (hp : Ensures P p Q F S) (hhandler : ∀ e, Ensures (F e) (handler e) Q E S) :
    Ensures P (tryCatch p handler) Q E S := by
  intro w past hP
  have hfirst := hp w past hP
  change match (Process.tryCatch p handler w).ending with
    | .returned b =>
        Q b (Process.tryCatch p handler w).world.state
          (past ++ (Process.tryCatch p handler w).trace)
    | .raised e =>
        E e (Process.tryCatch p handler w).world.state
          (past ++ (Process.tryCatch p handler w).trace)
    | .stopped =>
        S (Process.tryCatch p handler w).world.state
          (past ++ (Process.tryCatch p handler w).trace)
  unfold Process.tryCatch
  revert hfirst
  rcases p w with ⟨ending, w₁, first⟩
  cases ending with
  | returned a => exact id
  | raised e =>
      intro hE
      have hsecond := hhandler e w₁ (past ++ first) hE
      revert hsecond
      dsimp only
      rcases handler e w₁ with ⟨ending, w₂, second⟩
      rw [← List.append_assoc]
      exact id
  | stopped => exact id

theorem ensures_note {entry : τ} {Q : Unit → Assertion τ σ}
    (hQ : ∀ s past, P s past → Q () s (past ++ [entry])) :
    Ensures P (note entry : Process τ ε σ Unit) Q E S :=
  fun _ _ hP => hQ _ _ hP

theorem ensures_read {reader : σ → α} (hQ : ∀ s past, P s past → Q (reader s) s past) :
    Ensures P (read reader : Process τ ε σ α) Q E S := by
  intro w past hP
  change Q (reader w.state) w.state (past ++ [])
  rw [List.append_nil]
  exact hQ _ _ hP

theorem ensures_update {change : σ → σ} {Q : Unit → Assertion τ σ}
    (hQ : ∀ s past, P s past → Q () (change s) past) :
    Ensures P (update change : Process τ ε σ Unit) Q E S := by
  intro w past hP
  change Q () (change w.state) (past ++ [])
  rw [List.append_nil]
  exact hQ _ _ hP

/-- What a process returns satisfies may be used by what follows it. -/
theorem ensures_bind_of {p : Process τ ε σ α} {next : α → Process τ ε σ β} {H : α → Prop}
    (hp : Ensures P p (fun a s past => B s past ∧ H a) E S)
    (hnext : ∀ a, H a → Ensures B (next a) R E S) : Ensures P (p >>= next) R E S :=
  ensures_bind hp fun a =>
    Ensures.of_fact (fun _ _ hQ => hQ.2) fun hholds =>
      (hnext a hholds).before fun _ _ hQ => hQ.1

section Keeping

variable {I : Assertion τ σ}

theorem keeps_pure {a : α} : Keeps I (pure a : Process τ ε σ α) := ensures_pure fun _ _ hI => hI

theorem keeps_throw {e : ε} : Keeps I (throw e : Process τ ε σ α) := ensures_throw fun _ _ hI => hI

theorem keeps_stop : Keeps I (stop : Process τ ε σ α) := ensures_stop fun _ _ hI => hI

theorem keeps_read {reader : σ → α} : Keeps I (read reader : Process τ ε σ α) :=
  ensures_read fun _ _ hI => hI

theorem keeps_bind {p : Process τ ε σ α} {next : α → Process τ ε σ β} (hp : Keeps I p)
    (hnext : ∀ a, Keeps I (next a)) : Keeps I (p >>= next) :=
  ensures_bind hp hnext

theorem keeps_tryCatch {p : Process τ ε σ α} {handler : ε → Process τ ε σ α} (hp : Keeps I p)
    (hhandler : ∀ e, Keeps I (handler e)) : Keeps I (tryCatch p handler) :=
  ensures_tryCatch hp hhandler

end Keeping

/-! ### Others -/

section Others

variable {step : σ → ι → σ × List τ}

/-- No step of the others breaks the assertion. -/
def Stable (among : Among τ σ ι) (P : Assertion τ σ) : Prop :=
  ∀ n, ∀ i ∈ among.others n, ∀ s past, P s past →
    P (among.step s i).1 (past ++ (among.step s i).2)

theorem arrive_keeps {inputs : List ι}
    (hstep : ∀ i ∈ inputs, ∀ s past, P s past → P (step s i).1 (past ++ (step s i).2))
    {s : σ} {past : List τ} (hP : P s past) :
    P (arrive step s inputs).1 (past ++ (arrive step s inputs).2) := by
  induction inputs generalizing s past with
  | nil =>
      rw [arrive, List.append_nil]
      exact hP
  | cons i rest ih =>
      have hfirst := hstep i List.mem_cons_self s past hP
      have hrest := ih (fun j hj => hstep j (List.mem_cons_of_mem i hj)) hfirst
      rw [List.append_assoc] at hrest
      exact hrest

/-- An action: the others keep the assertion before it. -/
theorem ensures_act {among : Among τ σ ι} {action : Nat → σ → Except ε (α × σ)}
    (hstable : Stable among P) (hS : ∀ s past, P s past → S s past)
    (hok : ∀ n s past a s', P s past → action n s = .ok (a, s') → Q a s' past)
    (herror : ∀ n s past e, P s past → action n s = .error e → E e s past) :
    Ensures P (act among action) Q E S := by
  intro w past hP
  unfold act
  by_cases hstops : among.stops w.turn = true
  · rw [if_pos hstops]
    dsimp only
    rw [List.append_nil]
    exact hS _ _ hP
  · rw [if_neg hstops]
    have harrived := arrive_keeps (hstable w.turn) hP
    revert harrived
    rcases arrive among.step w.state (among.others w.turn) with ⟨s, entries⟩
    intro harrived
    dsimp only at harrived ⊢
    cases haction : action w.turn s with
    | ok result => exact hok _ _ _ _ _ harrived haction
    | error e => exact herror _ _ _ _ harrived haction

end Others

/-! ### As long as the trace is fine -/

section Fine

variable {fine : τ → Prop}

/-- The assertion holds as long as every entry of the trace is fine. -/
def While (fine : τ → Prop) (P : Assertion τ σ) : Assertion τ σ := fun s past =>
  (∀ entry ∈ past, fine entry) → P s past

theorem while_and {P B : Assertion τ σ} {s : σ} {past : List τ} (hP : While fine P s past)
    (hP' : While fine B s past) : While fine (fun s past => P s past ∧ B s past) s past :=
  fun hfine => ⟨hP hfine, hP' hfine⟩

theorem While.mono {P B : Assertion τ σ} (himp : ∀ s past, P s past → B s past) {s : σ}
    {past : List τ} (hP : While fine P s past) : While fine B s past :=
  fun hfine => himp s past (hP hfine)

/-- Once an entry of the trace is not fine, nothing is left to verify. -/
theorem ensures_of_not_fine {p : Process τ ε σ α} :
    Ensures (fun _ past => ¬ ∀ entry ∈ past, fine entry) p (fun a => While fine (Q a))
      (fun e => While fine (E e)) (While fine S) := by
  intro w past hnot
  have hall : ∀ {P : Assertion τ σ}, While fine P (p w).world.state (past ++ (p w).trace) :=
    fun hfine => absurd (fun entry hentry => hfine entry (List.mem_append_left _ hentry)) hnot
  cases (p w).ending with
  | returned a => exact hall
  | raised e => exact hall
  | stopped => exact hall

/-- A fact that holds as long as the trace is fine may be used. -/
theorem Ensures.of_while {p : Process τ ε σ α} {H : Prop}
    (hp : H → Ensures (While fine P) p (fun a => While fine (Q a))
      (fun e => While fine (E e)) (While fine S)) :
    Ensures (While fine fun s past => P s past ∧ H) p (fun a => While fine (Q a))
      (fun e => While fine (E e)) (While fine S) := by
  intro w past hP
  by_cases hholds : H
  · exact hp hholds w past fun hfine => (hP hfine).1
  · exact ensures_of_not_fine w past fun hfine => hholds (hP hfine).2

theorem ensures_bind_while {p : Process τ ε σ α} {next : α → Process τ ε σ β} {H : α → Prop}
    (hp : Ensures P p (fun a => While fine fun s past => B s past ∧ H a)
      (fun e => While fine (E e)) (While fine S))
    (hnext : ∀ a, H a → Ensures (While fine B) (next a) (fun b => While fine (R b))
      (fun e => While fine (E e)) (While fine S)) :
    Ensures P (p >>= next) (fun b => While fine (R b)) (fun e => While fine (E e)) (While fine S) :=
  ensures_bind hp fun a => Ensures.of_while (hnext a)

theorem ensures_note_while {entry : τ} :
    Ensures (While fine P) (note entry : Process τ ε σ Unit)
      (fun _ => While fine fun s _ => (∃ past, P s past) ∧ fine entry) E S :=
  ensures_note fun _ past hP hfine =>
    ⟨⟨past, hP fun other hother => hfine other (List.mem_append_left _ hother)⟩,
      hfine entry (List.mem_append_right _ (List.mem_singleton.mpr rfl))⟩

end Fine

end Rules

end Process
