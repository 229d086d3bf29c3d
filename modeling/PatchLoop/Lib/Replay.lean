import PatchLoop.Lib.Buckets
import PatchLoop.Lib.Fallible
import PatchLoop.Lib.Run

/-!
# Replaying a log

A machine writes an entry or nothing at each step. Whoever replays the entries in their order comes to the
state of the machine, where every entry takes it as far as the step went that wrote it. The order of the
entries comes back from a rank that grows along the log, also where the entries are kept in another order and
among others that say nothing of the machine.
-/

namespace Replay

open Buckets

variable {σ ι ε ξ : Type}

/-- The state after a step. -/
def advance (step : σ → ι → σ × Option ε) (s : σ) (i : ι) : σ := (step s i).1

/-- What a machine writes over a list of inputs. -/
def log (step : σ → ι → σ × Option ε) : σ → List ι → List ε
  | _, [] => []
  | s, i :: rest => (step s i).2.toList ++ log step (advance step s i) rest

/-- A step whose entry takes a replay as far as the step goes: one without an entry stays where it is. -/
def Faithful (step : σ → ι → σ × Option ε) (replay : σ → ε → Except ξ σ) (s : σ) (i : ι) : Prop :=
  match (step s i).2 with
  | none => advance step s i = s
  | some entry => replay s entry = .ok (advance step s i)

section Runs

variable {step : σ → ι → σ × Option ε} {replay : σ → ε → Except ξ σ} {s : σ}

theorem log_append (first second : List ι) :
    log step s (first ++ second) = log step s first ++ log step (Run.after (advance step) s first) second := by
  induction first generalizing s with
  | nil => rfl
  | cons i rest ih => rw [List.cons_append, log, log, ih, List.append_assoc, Run.after_cons]

theorem foldlM_log {inputs : List ι}
    (hrun : Run.EveryStep (advance step) (Faithful step replay) s inputs) :
    (log step s inputs).foldlM replay s = .ok (Run.after (advance step) s inputs) := by
  induction inputs generalizing s with
  | nil => rfl
  | cons i rest ih =>
      obtain ⟨hfirst, hrest⟩ := hrun
      specialize ih hrest
      unfold Faithful at hfirst
      rw [log, Run.after_cons]
      cases hentry : (step s i).2 with
      | none =>
          rw [hentry] at hfirst
          rw [Option.toList_none, List.nil_append]
          rwa [show advance step s i = s from hfirst] at ih ⊢
      | some entry =>
          rw [hentry] at hfirst
          rw [Option.toList_some, List.cons_append, List.foldlM_cons,
            show replay s entry = .ok (advance step s i) from hfirst]
          exact ih

/-- A property of the state and of what has been written. -/
theorem invariant_log (step : σ → ι → σ × Option ε) {s : σ} (Inv : List ε → σ → Prop)
    (hstep : ∀ written s i, Inv written s → Inv (written ++ (step s i).2.toList) (advance step s i))
    (inputs : List ι) (written : List ε) (hstart : Inv written s) :
    Inv (written ++ log step s inputs) (Run.after (advance step) s inputs) := by
  induction inputs generalizing s written with
  | nil => simpa [log] using hstart
  | cons i rest ih =>
      have hnext := ih _ (hstep written s i hstart)
      rwa [List.append_assoc] at hnext

/-- What an entry preserves, a replay does. -/
theorem invariant_foldlM (replay : σ → ε → Except ξ σ) {s : σ} (Inv : List ε → σ → Prop)
    (hstep : ∀ done s entry s', Inv done s → replay s entry = .ok s' → Inv (done ++ [entry]) s')
    {entries : List ε} (done : List ε) {s' : σ} (hstart : Inv done s) (hok : entries.foldlM replay s = .ok s') :
    Inv (done ++ entries) s' := by
  induction entries generalizing s done with
  | nil =>
      cases hok
      simpa using hstart
  | cons entry rest ih =>
      rw [List.foldlM_cons] at hok
      obtain ⟨next, hnext, hrest⟩ := Except.bind_eq_ok_iff.mp hok
      have hlast := ih _ (hstep done s entry next hstart hnext) hrest
      rwa [List.append_assoc] at hlast

/-- Entries that leave every state as it is may be left out. -/
theorem foldlM_filter {p : ε → Prop} [DecidablePred p]
    (hskip : ∀ s entry, ¬ p entry → replay s entry = .ok s) (entries : List ε) :
    (entries.filter p).foldlM replay s = entries.foldlM replay s := by
  induction entries generalizing s with
  | nil => rfl
  | cons entry rest ih =>
      rw [List.foldlM_cons]
      by_cases hp : p entry
      · rw [List.filter_cons_of_pos (by simpa using hp), List.foldlM_cons]
        exact congrArg (replay s entry >>= ·) (funext fun next => ih)
      · rw [List.filter_cons_of_neg (by simpa using hp), hskip s entry hp]
        exact ih

/-- Entries that do the same to every state may take each other's place. -/
theorem foldlM_congr {same : ε → ε → Prop} {entries others : List ε}
    (hall : List.Forall₂ same entries others)
    (hsame : ∀ s first second, same first second → replay s first = replay s second) :
    entries.foldlM replay s = others.foldlM replay s := by
  induction hall generalizing s with
  | nil => rfl
  | cons hfirst _ ih =>
      rw [List.foldlM_cons, List.foldlM_cons, hsame s _ _ hfirst]
      exact congrArg (_ >>= ·) (funext fun next => ih)

end Runs

/-! ### The order of a log -/

/-- Entries that have their ranks from the inputs stand in the order of these. -/
theorem log_map_sublist {ρ : Type} {step : σ → ι → σ × Option ε} {time : ι → ρ} {rank : ε → ρ}
    (hrank : ∀ s i entry, (step s i).2 = some entry → rank entry = time i) (s : σ) (inputs : List ι) :
    ((log step s inputs).map rank).Sublist (inputs.map time) := by
  induction inputs generalizing s with
  | nil => exact .slnil
  | cons i rest ih =>
      have hrest := ih (advance step s i)
      rw [log, List.map_append, List.map_cons]
      cases hentry : (step s i).2 with
      | none => exact hrest.cons _
      | some entry =>
          rw [Option.toList_some, List.map_singleton, hrank s i entry hentry]
          exact hrest.cons_cons _

section Order

variable {ρ : Type} [LinearOrder ρ] {rank : ε → ρ} {p : ε → Prop} [DecidablePred p]

/-- Of entries that are kept in any order among others, sorting makes the log. -/
theorem filter_sortBy {stored entries others : List ε} (hperm : stored.Perm (entries ++ others))
    (hentries : ∀ entry ∈ entries, p entry) (hothers : ∀ entry ∈ others, ¬ p entry)
    (hsorted : entries.Pairwise fun first second => rank first < rank second) :
    (sortBy rank stored).filter p = entries := by
  have hkept : ((sortBy rank stored).filter p).Perm entries := by
    have hfirst : entries.filter p = entries :=
      List.filter_eq_self.mpr fun entry hentry => decide_eq_true (hentries entry hentry)
    have hsecond : others.filter p = [] :=
      List.filter_eq_nil_iff.mpr fun entry hentry => by simpa using hothers entry hentry
    have hall : (sortBy rank stored).Perm (entries ++ others) := sortBy_perm.trans hperm
    have hboth := hall.filter (p ·)
    rwa [List.filter_append, hfirst, hsecond, List.append_nil] at hboth
  have hdistinct : ∀ first ∈ entries, ∀ second ∈ entries, rank first = rank second → first = second := by
    have : Std.Symm fun first second : ε => rank first = rank second → first = second :=
      ⟨fun _ _ h heq => (h heq.symm).symm⟩
    have hne : entries.Pairwise fun first second => rank first = rank second → first = second :=
      hsorted.imp fun hlt heq => absurd heq hlt.ne
    intro first hfirst second hsecond
    exact hne.forall_of_forall (fun _ _ _ => rfl) hfirst hsecond
  refine hkept.eq_of_pairwise ?_ (sortBy_pairwise.filter _) (hsorted.imp le_of_lt)
  intro first second hfirst hsecond hle hge
  exact hdistinct first (hkept.mem_iff.mp hfirst) second hsecond (le_antisymm hle hge)

end Order

end Replay
