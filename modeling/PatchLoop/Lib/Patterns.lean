import Mathlib.Algebra.GroupWithZero.Nat
import Mathlib.Data.List.Basic
import Mathlib.Data.List.Forall2
import Mathlib.Data.List.TakeWhile
import Mathlib.Tactic.Common

/-!
# Patterns of runs

A pattern is a sequence of runs, each of which takes as many elements of a class as it can. Where no run
can take what may follow it there is just one way to match, and a matcher never has to give back what a
run took. A text is rewritten from the left: of each match the middle is replaced, and the search goes on
after it.
-/

namespace Patterns

variable {α : Type}

/-- So many elements of a class. -/
structure Run (α : Type) where
  accepts : α → Bool
  least : Nat
  most : Option Nat

namespace Run

def one (accepts : α → Bool) : Run α := ⟨accepts, 1, some 1⟩
def optional (accepts : α → Bool) : Run α := ⟨accepts, 0, some 1⟩
def atLeast (least : Nat) (accepts : α → Bool) : Run α := ⟨accepts, least, none⟩

/-- What the run takes of a text. -/
def take (run : Run α) (text : List α) : List α :=
  (match run.most with
    | none => text
    | some most => text.take most).takeWhile run.accepts

structure Admits (run : Run α) (part : List α) : Prop where
  accepted : ∀ a ∈ part, run.accepts a = true
  least : run.least ≤ part.length
  most : ∀ most ∈ run.most, part.length ≤ most

/-- The run takes one number of elements only. -/
def Exact (run : Run α) : Prop := run.most = some run.least

end Run

/-- What the runs take of a text, one after the other, and what they leave. -/
def takeRuns : List (Run α) → List α → Option (List α × List α)
  | [], text => some ([], text)
  | run :: runs, text =>
      if run.least ≤ (run.take text).length then
        (takeRuns runs (text.drop (run.take text).length)).map fun found =>
          (run.take text ++ found.1, found.2)
      else none

/-- The runs match all of the text, in some way. -/
def Fits : List (Run α) → List α → Prop
  | [], text => text = []
  | run :: runs, text => ∃ part rest, text = part ++ rest ∧ run.Admits part ∧ Fits runs rest

/-- An element with which a text that the runs match can begin. -/
def Begins : List (Run α) → α → Prop
  | [], _ => False
  | run :: runs, a => run.accepts a = true ∨ (run.least = 0 ∧ Begins runs a)

/-- No run can take what may follow it. -/
def Deterministic : List (Run α) → Prop
  | [] => True
  | run :: runs => (run.Exact ∨ ∀ a, run.accepts a = true → ¬ Begins runs a) ∧ Deterministic runs

section Runs

variable {run : Run α} {runs later : List (Run α)} {text part rest whole : List α}

theorem Run.take_eq (run : Run α) (text : List α) :
    ∃ rest, text = run.take text ++ rest
      ∧ ((∃ a ∈ rest.head?, run.accepts a = false) ∨ rest = []
        ∨ ∃ most ∈ run.most, (run.take text).length = most) := by
  cases hmost : run.most with
  | none =>
      have htake : run.take text = text.takeWhile run.accepts := by
        rw [take, hmost]
      rw [htake]
      refine ⟨text.dropWhile run.accepts, List.takeWhile_append_dropWhile.symm, ?_⟩
      cases hrest : text.dropWhile run.accepts with
      | nil => exact Or.inr (Or.inl rfl)
      | cons a later =>
          have hne : text.dropWhile run.accepts ≠ [] := by
            rw [hrest]
            exact List.cons_ne_nil _ _
          have hhead := List.head_dropWhile_not run.accepts hne
          refine Or.inl ⟨a, rfl, ?_⟩
          rw [← hhead]
          simp [hrest]
  | some most =>
      have htake : run.take text = (text.take most).takeWhile run.accepts := by
        rw [take, hmost]
      rw [htake]
      refine ⟨(text.take most).dropWhile run.accepts ++ text.drop most, ?_, ?_⟩
      · rw [← List.append_assoc, List.takeWhile_append_dropWhile, List.take_append_drop]
      · cases hrest : (text.take most).dropWhile run.accepts with
        | nil =>
            have hall : (text.take most).takeWhile run.accepts = text.take most := by
              have hsplit := List.takeWhile_append_dropWhile (p := run.accepts) (l := text.take most)
              rwa [hrest, List.append_nil] at hsplit
            rw [hall, List.nil_append]
            by_cases hlong : most ≤ text.length
            · exact Or.inr (Or.inr ⟨most, rfl, by rw [List.length_take, Nat.min_eq_left hlong]⟩)
            · exact Or.inr (Or.inl (List.drop_eq_nil_of_le (by omega)))
        | cons a later =>
            have hne : (text.take most).dropWhile run.accepts ≠ [] := by
              rw [hrest]
              exact List.cons_ne_nil _ _
            have hhead := List.head_dropWhile_not run.accepts hne
            refine Or.inl ⟨a, rfl, ?_⟩
            rw [← hhead]
            simp [hrest]

theorem Run.accepts_of_mem_take {a : α} (ha : a ∈ run.take text) : run.accepts a = true := by
  unfold take at ha
  exact List.mem_takeWhile_imp ha

theorem Run.length_take_le : ∀ most ∈ run.most, (run.take text).length ≤ most := by
  intro most hmost
  unfold take
  rw [Option.mem_def.mp hmost]
  dsimp only
  have hsub := (List.takeWhile_prefix (l := text.take most) run.accepts).length_le
  rw [List.length_take] at hsub
  omega

/-- A run takes a part that it admits if it does not take what follows. -/
theorem Run.take_append (hadmits : run.Admits part)
    (hapart : run.most = some part.length ∨ ∀ a ∈ rest.head?, run.accepts a = false) :
    run.take (part ++ rest) = part := by
  have hnone : ∀ later : List α, (∀ a ∈ later.head?, run.accepts a = false) →
      (part ++ later).takeWhile run.accepts = part := by
    intro later hlater
    rw [List.takeWhile_append_of_pos hadmits.accepted]
    cases later with
    | nil => rw [List.takeWhile_nil, List.append_nil]
    | cons a later =>
        have ha := hlater a rfl
        rw [List.takeWhile_cons, ha]
        exact List.append_nil part
  unfold take
  rcases hapart with hfull | hapart
  · rw [hfull]
    dsimp only
    rw [List.take_left]
    have hall := hnone [] (fun _ ha => by cases ha)
    rwa [List.append_nil] at hall
  · cases hmost : run.most with
    | none => exact hnone rest hapart
    | some most =>
        have hle := hadmits.most most hmost
        dsimp only
        rw [List.take_append, List.take_of_length_le hle]
        refine hnone _ fun a ha => ?_
        cases rest with
        | nil =>
            rw [List.take_nil] at ha
            cases ha
        | cons b later =>
            cases hroom : most - part.length with
            | zero =>
                rw [hroom, List.take_zero] at ha
                cases ha
            | succ room =>
                rw [hroom, List.take_succ_cons] at ha
                exact hapart a ha

theorem Run.take_append_drop (run : Run α) (text : List α) :
    text = run.take text ++ text.drop (run.take text).length := by
  obtain ⟨rest, htext, -⟩ := run.take_eq text
  have hinitial : run.take text <+: text := ⟨rest, htext.symm⟩
  exact (List.prefix_iff_eq_append.mp hinitial).symm

/-- A run stops where it must: at an element that it does not take, or when it is full. -/
theorem Run.take_stops (run : Run α) (text : List α) :
    (∀ a ∈ (text.drop (run.take text).length).head?, run.accepts a = false)
      ∨ ∃ most ∈ run.most, (run.take text).length = most := by
  obtain ⟨rest, htext, hstops⟩ := run.take_eq text
  have hrest : text.drop (run.take text).length = rest :=
    List.append_cancel_left ((run.take_append_drop text).symm.trans htext)
  rw [hrest]
  rcases hstops with ⟨a, ha, hrefused⟩ | rfl | hfull
  · refine Or.inl fun b hb => ?_
    rw [Option.mem_unique hb ha]
    exact hrefused
  · exact Or.inl fun a ha => by cases ha
  · exact Or.inr hfull

theorem Run.length_le_take (hadmits : run.Admits part) :
    part.length ≤ (run.take (part ++ rest)).length := by
  unfold take
  cases hmost : run.most with
  | none =>
      dsimp only
      rw [List.takeWhile_append_of_pos hadmits.accepted, List.length_append]
      exact Nat.le_add_right _ _
  | some most =>
      dsimp only
      rw [List.take_append, List.take_of_length_le (hadmits.most most hmost),
        List.takeWhile_append_of_pos hadmits.accepted, List.length_append]
      exact Nat.le_add_right _ _

theorem fits_of_takeRuns (htake : takeRuns runs text = some (part, rest)) :
    text = part ++ rest ∧ Fits runs part := by
  induction runs generalizing text part with
  | nil =>
      cases htake
      exact ⟨rfl, rfl⟩
  | cons run runs ih =>
      rw [takeRuns] at htake
      split at htake
      · rename_i hleast
        obtain ⟨found, hfound, heq⟩ := Option.map_eq_some_iff.mp htake
        cases heq
        obtain ⟨hdrop, hfits⟩ := ih hfound
        refine ⟨?_, run.take text, found.1, rfl, ⟨fun _ => Run.accepts_of_mem_take, hleast,
          Run.length_take_le⟩, hfits⟩
        rw [List.append_assoc, ← hdrop]
        exact run.take_append_drop text
      · cases htake

theorem takeRuns_append (first second : List (Run α)) (text : List α) :
    takeRuns (first ++ second) text
      = (takeRuns first text).bind fun found =>
          (takeRuns second found.2).map fun next => (found.1 ++ next.1, next.2) := by
  induction first generalizing text with
  | nil =>
      rw [List.nil_append, takeRuns, Option.bind_some]
      cases takeRuns second text <;> rfl
  | cons run first ih =>
      rw [List.cons_append, takeRuns, takeRuns]
      split
      · rw [ih]
        cases takeRuns first (text.drop (run.take text).length) with
        | none => rfl
        | some found =>
            simp only [Option.bind_some, Option.map_some, Option.map_map]
            congr 1
            funext next
            simp
      · rfl

/-- What follows a match is not taken by its last run, if that takes any number. -/
theorem stops_of_takeRuns (hopen : run.most = none)
    (htake : takeRuns (runs ++ [run]) text = some (part, rest)) :
    ∀ a ∈ rest.head?, run.accepts a = false := by
  rw [takeRuns_append] at htake
  obtain ⟨found, -, htake⟩ := Option.bind_eq_some_iff.mp htake
  obtain ⟨next, hnext, heq⟩ := Option.map_eq_some_iff.mp htake
  cases heq
  rw [takeRuns] at hnext
  split at hnext
  · cases hnext
    rcases run.take_stops found.2 with hstops | ⟨most, hmost, -⟩
    · exact hstops
    · rw [hopen] at hmost
      cases hmost
  · cases hnext

theorem begins_of_fits {a : α} (hfits : Fits runs (a :: part)) : Begins runs a := by
  induction runs with
  | nil => cases hfits
  | cons run runs ih =>
      obtain ⟨first, rest, hsplit, hadmits, hrest⟩ := hfits
      cases first with
      | nil =>
          rw [List.nil_append] at hsplit
          subst hsplit
          exact Or.inr ⟨Nat.le_zero.mp hadmits.least, ih hrest⟩
      | cons b first =>
          cases hsplit
          exact Or.inl (hadmits.accepted a (List.mem_cons_self))

theorem fits_nil_iff : Fits runs [] ↔ ∀ run ∈ runs, run.least = 0 := by
  induction runs with
  | nil => exact ⟨fun _ _ hrun => absurd hrun List.not_mem_nil, fun _ => rfl⟩
  | cons run runs ih =>
      rw [List.forall_mem_cons, ← ih]
      constructor
      · rintro ⟨first, rest, hsplit, hadmits, hrest⟩
        obtain ⟨rfl, rfl⟩ := List.append_eq_nil_iff.mp hsplit.symm
        exact ⟨Nat.le_zero.mp hadmits.least, hrest⟩
      · rintro ⟨hleast, hrest⟩
        refine ⟨[], [], rfl, ⟨fun _ ha => absurd ha List.not_mem_nil, ?_, fun _ _ => Nat.zero_le _⟩,
          hrest⟩
        rw [hleast]
        exact Nat.zero_le _

theorem takeRuns_of_fits_nil (hfits : Fits runs []) (text : List α) :
    ∃ found, takeRuns runs text = some found := by
  induction runs generalizing text with
  | nil => exact ⟨_, rfl⟩
  | cons run runs ih =>
      obtain ⟨first, rest, hsplit, hadmits, hrest⟩ := hfits
      obtain ⟨rfl, rfl⟩ := List.append_eq_nil_iff.mp hsplit.symm
      obtain ⟨found, hfound⟩ := ih hrest (text.drop (run.take text).length)
      rw [takeRuns, if_pos (Nat.le_trans hadmits.least (Nat.zero_le _)), hfound]
      exact ⟨_, rfl⟩

theorem fits_append {first second : List (Run α)} (hfirst : Fits first part)
    (hsecond : Fits second rest) : Fits (first ++ second) (part ++ rest) := by
  induction first generalizing part with
  | nil =>
      cases hfirst
      exact hsecond
  | cons run first ih =>
      obtain ⟨taken, later, rfl, hadmits, hlater⟩ := hfirst
      exact ⟨taken, later ++ rest, List.append_assoc .., hadmits, ih hlater⟩

theorem split_of_fits {first second : List (Run α)} (hfits : Fits (first ++ second) whole) :
    ∃ part rest, whole = part ++ rest ∧ Fits first part ∧ Fits second rest := by
  induction first generalizing whole with
  | nil => exact ⟨[], whole, rfl, rfl, hfits⟩
  | cons run first ih =>
      obtain ⟨taken, later, rfl, hadmits, hlater⟩ := hfits
      obtain ⟨part, rest, rfl, hpart, hrest⟩ := ih hlater
      exact ⟨taken ++ part, rest, (List.append_assoc ..).symm, ⟨taken, part, rfl, hadmits, hpart⟩, hrest⟩

/-- The last element of a match is of the class of the last run, if that takes any. -/
theorem last_of_fits (hleast : run.least ≠ 0) (hfits : Fits (runs ++ [run]) whole) :
    ∃ a, whole.getLast? = some a ∧ run.accepts a = true := by
  obtain ⟨part, rest, rfl, -, last, none, rfl, hadmits, rfl⟩ := split_of_fits hfits
  rw [List.append_nil]
  cases hlast : last.getLast? with
  | none =>
      rw [List.getLast?_eq_none_iff.mp hlast] at hadmits
      exact absurd (Nat.le_zero.mp hadmits.least) hleast
  | some a =>
      exact ⟨a, by rw [List.getLast?_append, hlast, Option.some_or],
        hadmits.accepted a (List.mem_of_getLast? hlast)⟩

/-- The least number of elements of a match. -/
theorem length_of_fits (hfits : Fits runs whole) : (runs.map Run.least).sum ≤ whole.length := by
  induction runs generalizing whole with
  | nil => exact Nat.zero_le _
  | cons run runs ih =>
      obtain ⟨first, rest, rfl, hadmits, hrest⟩ := hfits
      have hleast := hadmits.least
      have hrest := ih hrest
      rw [List.map_cons, List.sum_cons, List.length_append]
      omega

theorem Begins.append_left {a : α} (hbegins : Begins runs a) : Begins (runs ++ later) a := by
  induction runs with
  | nil => exact hbegins.elim
  | cons run runs ih =>
      rcases hbegins with haccepts | ⟨hleast, hbegins⟩
      · exact Or.inl haccepts
      · exact Or.inr ⟨hleast, ih hbegins⟩

theorem Run.accepted_of_alike {R : α → α → Prop} {word : List α}
    (halike : ∀ a b, R a b → run.accepts b = true → run.accepts a = true)
    (hword : List.Forall₂ R part word) (hall : ∀ b ∈ word, run.accepts b = true) :
    ∀ a ∈ part, run.accepts a = true := by
  induction hword with
  | nil => exact fun _ ha => absurd ha List.not_mem_nil
  | cons hab _ ih =>
      obtain ⟨hb, hall⟩ := List.forall_mem_cons.mp hall
      exact List.forall_mem_cons.mpr ⟨halike _ _ hab hb, ih hall⟩

/-- Runs fit what is alike to what they fit. -/
theorem fits_of_alike {R : α → α → Prop} {word : List α}
    (halike : ∀ run ∈ runs, ∀ a b, R a b → run.accepts b = true → run.accepts a = true)
    (hword : List.Forall₂ R part word) (hfits : Fits runs word) : Fits runs part := by
  induction runs generalizing part word with
  | nil =>
      cases hfits
      cases hword
      rfl
  | cons run runs ih =>
      obtain ⟨hrun, hruns⟩ := List.forall_mem_cons.mp halike
      obtain ⟨first, rest, rfl, hadmits, hrest⟩ := hfits
      have htaken := List.forall₂_take_append _ _ _ hword
      have hlater := List.forall₂_drop_append _ _ _ hword
      refine ⟨part.take first.length, part.drop first.length, (List.take_append_drop _ _).symm,
        ⟨Run.accepted_of_alike hrun htaken hadmits.accepted, ?_, ?_⟩, ih hruns hlater hrest⟩
      · rw [htaken.length_eq]
        exact hadmits.least
      · rw [htaken.length_eq]
        exact hadmits.most

/-- Where a text begins with a match the runs find one. -/
theorem takeRuns_of_fits (hdeterministic : Deterministic runs) (hfits : Fits runs part)
    (rest : List α) : ∃ found, takeRuns runs (part ++ rest) = some found := by
  induction runs generalizing part with
  | nil => exact ⟨_, rfl⟩
  | cons run runs ih =>
      obtain ⟨hapart, hdeterministic⟩ := hdeterministic
      obtain ⟨first, later, rfl, hadmits, hlater⟩ := hfits
      rw [takeRuns]
      by_cases htake : run.take (first ++ (later ++ rest)) = first
      · rw [List.append_assoc, htake, if_pos hadmits.least, List.drop_left]
        obtain ⟨found, hfound⟩ := ih hdeterministic hlater
        rw [hfound]
        exact ⟨_, rfl⟩
      · -- The run goes on beyond its part, so nothing is left that another run must match.
        have hnone : later = [] := by
          by_contra hsome
          obtain ⟨a, after, rfl⟩ := List.exists_cons_of_ne_nil hsome
          refine htake (Run.take_append hadmits ?_)
          rcases hapart with hexact | hapart
          · have hmost : first.length = run.least :=
              Nat.le_antisymm (hadmits.most _ hexact) hadmits.least
            exact Or.inl (hmost ▸ hexact)
          · refine Or.inr fun b hb => ?_
            cases hb
            by_contra hnot
            exact hapart a (Bool.not_eq_false _ |>.mp hnot) (begins_of_fits hlater)
        subst hnone
        have hleast : run.least ≤ (run.take (first ++ [] ++ rest)).length := by
          rw [List.append_nil]
          exact Nat.le_trans hadmits.least (Run.length_le_take hadmits)
        rw [if_pos hleast]
        obtain ⟨found, hfound⟩ := takeRuns_of_fits_nil hlater
          ((first ++ [] ++ rest).drop (run.take (first ++ [] ++ rest)).length)
        rw [hfound]
        exact ⟨_, rfl⟩

/-- What the runs match is what they take, where they do not take what follows. -/
theorem takeRuns_eq_of_fits (hdeterministic : Deterministic runs) (hfits : Fits runs part)
    (hapart : ∀ run ∈ runs, run.Exact ∨ ∀ a ∈ rest.head?, run.accepts a = false) :
    takeRuns runs (part ++ rest) = some (part, rest) := by
  induction runs generalizing part with
  | nil =>
      cases hfits
      rfl
  | cons run runs ih =>
      obtain ⟨hfirst, hdeterministic⟩ := hdeterministic
      obtain ⟨first, later, rfl, hadmits, hlater⟩ := hfits
      obtain ⟨hrun, hruns⟩ := List.forall_mem_cons.mp hapart
      have htake : run.take (first ++ (later ++ rest)) = first := by
        refine Run.take_append hadmits ?_
        have hfull : run.Exact → run.most = some first.length := by
          intro hexact
          have hmost : first.length = run.least :=
            Nat.le_antisymm (hadmits.most _ hexact) hadmits.least
          exact hmost ▸ hexact
        rcases hfirst with hexact | hfirst
        · exact Or.inl (hfull hexact)
        · rcases hrun with hexact | hrun
          · exact Or.inl (hfull hexact)
          · refine Or.inr fun a ha => ?_
            cases later with
            | nil => exact hrun a ha
            | cons b later =>
                cases ha
                by_contra hnot
                exact hfirst a (Bool.not_eq_false _ |>.mp hnot) (begins_of_fits hlater)
      rw [List.append_assoc, takeRuns, htake, if_pos hadmits.least, List.drop_left,
        ih hdeterministic hlater hruns]
      rfl

/-- What the runs take depends only on the first element of what they leave. -/
theorem takeRuns_congr (htake : takeRuns runs (part ++ rest) = some (part, rest))
    (hhead : rest.head? = whole.head?) : takeRuns runs (part ++ whole) = some (part, whole) := by
  induction runs generalizing part with
  | nil =>
      obtain ⟨rfl, -⟩ := Prod.mk.inj (Option.some.inj htake)
      rfl
  | cons run runs ih =>
      rw [takeRuns] at htake
      split at htake
      · rename_i hleast
        obtain ⟨⟨later, left⟩, hfound, heq⟩ := Option.map_eq_some_iff.mp htake
        obtain ⟨hpart, rfl⟩ := Prod.mk.inj heq
        obtain ⟨hdrop, -⟩ := fits_of_takeRuns hfound
        have hstops := run.take_stops (part ++ left)
        have haccepts : ∀ a ∈ run.take (part ++ left), run.accepts a = true :=
          fun _ => Run.accepts_of_mem_take
        have hmost : ∀ most ∈ run.most, (run.take (part ++ left)).length ≤ most := Run.length_take_le
        rw [hdrop] at hfound hstops
        generalize run.take (part ++ left) = first at hleast hpart hstops haccepts hmost
        dsimp only at hpart
        subst hpart
        have hfirst : run.take (first ++ (later ++ whole)) = first := by
          refine Run.take_append ⟨haccepts, hleast, hmost⟩ ?_
          rcases hstops with hstops | ⟨most, hfull, hlength⟩
          · refine Or.inr fun a ha => hstops a ?_
            cases later with
            | nil => exact hhead ▸ ha
            | cons b later => exact ha
          · exact Or.inl (hlength ▸ hfull)
        rw [List.append_assoc, takeRuns, hfirst, if_pos hleast, List.drop_left, ih hfound]
        rfl
      · cases htake

theorem Deterministic.left (hdeterministic : Deterministic (runs ++ later)) : Deterministic runs := by
  induction runs with
  | nil => trivial
  | cons run runs ih =>
      obtain ⟨hrun, hruns⟩ := hdeterministic
      refine ⟨hrun.imp_right fun happart a ha hbegins => happart a ha hbegins.append_left, ih hruns⟩

end Runs

/-! ### Rewriting -/

/-- What is kept of a match is normalised, the middle of it is replaced, and the end stays. -/
structure Pattern (α : Type) where
  /-- The elements of words: a match begins at the edge of one. -/
  word : α → Bool
  before : List (List (Run α))
  middle : List (Run α)
  after : List (Run α)
  normal : List α → List α
  mark : List α

structure Found (α : Type) where
  kept : List α
  lost : List α
  tail : List α
  rest : List α

namespace Pattern

/-- The edge of a word is between an element, if there is one, and what follows. -/
def edge (pattern : Pattern α) (last : Option α) (text : List α) : Bool :=
  last.any pattern.word != text.head?.any pattern.word

/-- The match with one of the beginnings. -/
def matchWith (pattern : Pattern α) (text : List α) (before : List (Run α)) : Option (Found α) :=
  (takeRuns before text).bind fun kept =>
    (takeRuns pattern.middle kept.2).bind fun lost =>
      (takeRuns pattern.after lost.2).map fun tail => ⟨kept.1, lost.1, tail.1, tail.2⟩

/-- The match at the beginning of a text, after some element. -/
def find (pattern : Pattern α) (last : Option α) (text : List α) : Option (Found α) :=
  if pattern.edge last text then pattern.before.findSome? (pattern.matchWith text) else none

/-- The text rewritten, where as many elements as it says still belong to a match. -/
def rewriteFrom (pattern : Pattern α) : Nat → Option α → List α → List α
  | _, _, [] => []
  | skip + 1, _, a :: rest => pattern.rewriteFrom skip (some a) rest
  | 0, last, a :: rest =>
      match pattern.find last (a :: rest) with
      | none => a :: pattern.rewriteFrom 0 (some a) rest
      | some found =>
          pattern.normal found.kept ++ pattern.mark ++ found.tail
            ++ pattern.rewriteFrom ((found.kept ++ found.lost ++ found.tail).length - 1) (some a) rest

/-- `re.sub` -/
def rewrite (pattern : Pattern α) (text : List α) : List α := pattern.rewriteFrom 0 none text

/-- The last element of a match, or what was before it. -/
def lastOf (last : Option α) (part : List α) : Option α := part.getLast?.or last

/-- A text and what becomes of it. -/
inductive Rewritten (pattern : Pattern α) : Option α → List α → List α → Prop
  | nil (last : Option α) : Rewritten pattern last [] []
  | keep {last : Option α} {a : α} {rest out : List α} (hnone : pattern.find last (a :: rest) = none)
      (hrest : Rewritten pattern (some a) rest out) :
      Rewritten pattern last (a :: rest) (a :: out)
  | swap {last : Option α} {kept lost tail rest out : List α}
      (hfound : pattern.find last (kept ++ lost ++ tail ++ rest) = some { kept, lost, tail, rest })
      (hsome : lost ≠ [])
      (hrest : Rewritten pattern (lastOf last (kept ++ lost ++ tail)) rest out) :
      Rewritten pattern last (kept ++ lost ++ tail ++ rest)
        (pattern.normal kept ++ pattern.mark ++ tail ++ out)

/-- Every match can be found from the left, and none is empty. -/
structure Lawful (pattern : Pattern α) : Prop where
  deterministic : ∀ before ∈ pattern.before, Deterministic (before ++ pattern.middle)
  skippable : ∀ run ∈ pattern.after, run.least = 0
  nonempty : ∃ run ∈ pattern.middle, run.least ≠ 0

theorem lastOf_cons (last : Option α) (a : α) (part : List α) :
    lastOf last (a :: part) = lastOf (some a) part := by
  cases part with
  | nil => rfl
  | cons b part =>
      unfold lastOf
      rw [List.getLast?_cons_cons, List.getLast?_eq_getLast_of_ne_nil (List.cons_ne_nil b part)]
      rfl

section Rewriting

variable {pattern : Pattern α} {last : Option α} {text out : List α} {found : Found α}

theorem matchWith_eq_some_iff {before : List (Run α)} :
    pattern.matchWith text before = some found
      ↔ ∃ first second, takeRuns before text = some (found.kept, first)
        ∧ takeRuns pattern.middle first = some (found.lost, second)
        ∧ takeRuns pattern.after second = some (found.tail, found.rest) := by
  unfold matchWith
  simp only [Option.bind_eq_some_iff, Option.map_eq_some_iff, Prod.exists]
  constructor
  · rintro ⟨kept, first, hbefore, lost, second, hmiddle, tail, rest, hafter, rfl⟩
    exact ⟨first, second, hbefore, hmiddle, hafter⟩
  · rintro ⟨first, second, hbefore, hmiddle, hafter⟩
    exact ⟨_, _, hbefore, _, _, hmiddle, _, _, hafter, rfl⟩

theorem find_eq_some_iff :
    pattern.find last text = some found
      ↔ pattern.edge last text = true
        ∧ ∃ earlier before later, pattern.before = earlier ++ before :: later
          ∧ pattern.matchWith text before = some found
          ∧ ∀ other ∈ earlier, pattern.matchWith text other = none := by
  unfold find
  by_cases hedge : pattern.edge last text = true
  · rw [if_pos hedge, List.findSome?_eq_some_iff]
    exact (and_iff_right hedge).symm
  · rw [if_neg hedge]
    exact ⟨nofun, fun hfound => absurd hfound.1 hedge⟩

theorem find_eq_none_iff :
    pattern.find last text = none
      ↔ pattern.edge last text = true →
        ∀ before ∈ pattern.before, pattern.matchWith text before = none := by
  unfold find
  by_cases hedge : pattern.edge last text = true
  · rw [if_pos hedge, List.findSome?_eq_none_iff]
    exact ⟨fun hnone _ => hnone, fun hnone => hnone hedge⟩
  · rw [if_neg hedge]
    exact ⟨fun _ hfound => absurd hfound hedge, fun _ => rfl⟩

/-- What is found is fitted by the runs of one of the beginnings, and of the middle and the end. -/
theorem fits_of_find (hfound : pattern.find last text = some found) :
    text = found.kept ++ found.lost ++ found.tail ++ found.rest
      ∧ (∃ before ∈ pattern.before, Fits before found.kept) ∧ Fits pattern.middle found.lost
      ∧ Fits pattern.after found.tail := by
  obtain ⟨-, earlier, before, later, hpattern, hmatch, -⟩ := find_eq_some_iff.mp hfound
  obtain ⟨first, second, hbefore, hmiddle, hafter⟩ := matchWith_eq_some_iff.mp hmatch
  obtain ⟨htext, hkept⟩ := fits_of_takeRuns hbefore
  obtain ⟨hfirst, hlost⟩ := fits_of_takeRuns hmiddle
  obtain ⟨hsecond, htail⟩ := fits_of_takeRuns hafter
  refine ⟨?_, ⟨before, ?_, hkept⟩, hlost, htail⟩
  · rw [htext, hfirst, hsecond, List.append_assoc, List.append_assoc]
  · rw [hpattern]
    exact List.mem_append_right _ List.mem_cons_self

theorem rewriteFrom_skip (part rest : List α) :
    pattern.rewriteFrom part.length last (part ++ rest)
      = pattern.rewriteFrom 0 (lastOf last part) rest := by
  induction part generalizing last with
  | nil => rfl
  | cons a part ih => rw [List.cons_append, List.length_cons, rewriteFrom, ih, lastOf_cons]

theorem rewriteFrom_found {kept lost tail rest : List α}
    (hfound : pattern.find last (kept ++ lost ++ tail ++ rest) = some { kept, lost, tail, rest })
    (hsome : lost ≠ []) :
    pattern.rewriteFrom 0 last (kept ++ lost ++ tail ++ rest)
      = pattern.normal kept ++ pattern.mark ++ tail
        ++ pattern.rewriteFrom 0 (lastOf last (kept ++ lost ++ tail)) rest := by
  have hskip : pattern.rewriteFrom (kept ++ lost ++ tail).length last (kept ++ lost ++ tail ++ rest)
      = pattern.rewriteFrom 0 (lastOf last (kept ++ lost ++ tail)) rest := rewriteFrom_skip _ rest
  obtain ⟨a, part, hpart⟩ : ∃ a part, kept ++ lost ++ tail = a :: part :=
    List.exists_cons_of_ne_nil fun hnil => hsome
      (List.append_eq_nil_iff.mp (List.append_eq_nil_iff.mp hnil).1).2
  have hlength : (kept ++ lost ++ tail).length = part.length + 1 := by
    rw [hpart, List.length_cons]
  rw [hlength, hpart, List.cons_append, rewriteFrom] at hskip
  rw [hpart] at hfound ⊢
  rw [List.cons_append] at hfound ⊢
  rw [rewriteFrom, hfound]
  dsimp only
  rw [hlength, Nat.add_sub_cancel, hskip]

/-- A text is rewritten step by step if no match is without a middle. -/
theorem rewritten_rewriteFrom (hlawful : pattern.Lawful) (last : Option α) (text : List α) :
    Rewritten pattern last text (pattern.rewriteFrom 0 last text) := by
  induction hlength : text.length using Nat.strong_induction_on generalizing last text with
  | _ length ih =>
      subst hlength
      cases text with
      | nil => exact .nil last
      | cons a rest =>
          cases hfind : pattern.find last (a :: rest) with
          | none =>
              rw [rewriteFrom, hfind]
              exact .keep hfind (ih _ (Nat.lt_succ_self _) _ _ rfl)
          | some found =>
              obtain ⟨kept, lost, tail, later⟩ := found
              obtain ⟨htext, -, hlost, -⟩ := fits_of_find hfind
              dsimp only at htext hlost
              have hsome : lost ≠ [] := by
                rintro rfl
                obtain ⟨run, hrun, hleast⟩ := hlawful.nonempty
                exact hleast (fits_nil_iff.mp hlost run hrun)
              have hpos := List.length_pos_iff.mpr hsome
              rw [htext] at hfind ih ⊢
              rw [rewriteFrom_found hfind hsome]
              refine .swap hfind hsome (ih _ ?_ _ _ rfl)
              simp only [List.length_append]
              omega

theorem Rewritten.eq_rewriteFrom (hout : Rewritten pattern last text out) :
    pattern.rewriteFrom 0 last text = out := by
  induction hout with
  | nil last => rfl
  | keep hnone hrest ih => rw [rewriteFrom, hnone, ih]
  | swap hfound hsome hrest ih => rw [rewriteFrom_found hfound hsome, ih]

/-- A text that changes holds the mark afterwards. -/
theorem Rewritten.eq_or_mark (hrewritten : Rewritten pattern last text out) :
    out = text ∨ pattern.mark <:+: out := by
  induction hrewritten with
  | nil last => exact Or.inl rfl
  | keep hnone hrest ih =>
      rcases ih with rfl | hmark
      · exact Or.inl rfl
      · exact Or.inr (List.infix_cons hmark)
  | @swap last kept lost tail rest out hfound hsome hrest ih =>
      refine Or.inr ⟨pattern.normal kept, tail ++ out, ?_⟩
      rw [List.append_assoc (pattern.normal kept ++ pattern.mark)]

end Rewriting

/-! ### Texts without matches -/

/-- No match begins in the text. -/
def Clean (pattern : Pattern α) : Option α → List α → Prop
  | _, [] => True
  | last, a :: rest => pattern.find last (a :: rest) = none ∧ pattern.Clean (some a) rest

/-- An element with which a match can begin. -/
def Starts (pattern : Pattern α) (a : α) : Prop :=
  ∃ before ∈ pattern.before, Begins (before ++ pattern.middle) a

section Cleaning

variable {pattern other : Pattern α} {last : Option α} {text out rest word : List α} {a : α}

theorem rewriteFrom_of_clean (hclean : pattern.Clean last text) :
    pattern.rewriteFrom 0 last text = text := by
  induction text generalizing last with
  | nil => rfl
  | cons a rest ih =>
      obtain ⟨hnone, hrest⟩ := hclean
      rw [rewriteFrom, hnone]
      exact congrArg (a :: ·) (ih hrest)

theorem matchWith_of_fits (hlawful : pattern.Lawful) {before : List (Run α)}
    (hbefore : before ∈ pattern.before) (hfits : Fits (before ++ pattern.middle) word)
    (rest : List α) : pattern.matchWith (word ++ rest) before ≠ none := by
  obtain ⟨found, hfound⟩ := takeRuns_of_fits (hlawful.deterministic before hbefore) hfits rest
  rw [takeRuns_append] at hfound
  obtain ⟨kept, hkept, hfound⟩ := Option.bind_eq_some_iff.mp hfound
  obtain ⟨lost, hlost, -⟩ := Option.map_eq_some_iff.mp hfound
  obtain ⟨tail, htail⟩ := takeRuns_of_fits_nil (fits_nil_iff.mpr hlawful.skippable) lost.2
  unfold matchWith
  rw [hkept, Option.bind_some, hlost, Option.bind_some, htail]
  exact Option.some_ne_none _

theorem rewrite_of_clean (hclean : pattern.Clean none text) : pattern.rewrite text = text :=
  rewriteFrom_of_clean hclean

/-- There is a match wherever there is a text that it fits. -/
theorem find_of_fits (hlawful : pattern.Lawful) {before : List (Run α)}
    (hbefore : before ∈ pattern.before) (hfits : Fits (before ++ pattern.middle) word)
    (hedge : pattern.edge last (word ++ rest) = true) : pattern.find last (word ++ rest) ≠ none :=
  fun hnone => matchWith_of_fits hlawful hbefore hfits rest (find_eq_none_iff.mp hnone hedge before hbefore)

theorem word_of_find (hsome : pattern.find last text ≠ none) :
    pattern.edge last text = true ∧ ∃ before ∈ pattern.before, ∃ word rest,
      text = word ++ rest ∧ Fits (before ++ pattern.middle) word := by
  obtain ⟨found, hfound⟩ := Option.ne_none_iff_exists'.mp hsome
  obtain ⟨htext, ⟨before, hbefore, hkept⟩, hlost, -⟩ := fits_of_find hfound
  refine ⟨(find_eq_some_iff.mp hfound).1, before, hbefore, found.kept ++ found.lost,
    found.tail ++ found.rest, ?_, fits_append hkept hlost⟩
  rw [htext, List.append_assoc]

theorem prefix_of_stop {stop : α} {kept more : List α} (hword : word <+: kept ++ stop :: more)
    (hunstopped : stop ∉ word) : word <+: kept := by
  rcases List.prefix_or_prefix_of_prefix hword (List.prefix_append kept _) with hshort | ⟨later, rfl⟩
  · exact hshort
  · rw [List.prefix_append_right_inj] at hword
    cases later with
    | nil => exact ⟨[], by simp⟩
    | cons a later =>
        obtain ⟨rfl, -⟩ := List.cons_prefix_cons.mp hword
        exact absurd (List.mem_append_right _ List.mem_cons_self) hunstopped

theorem word_ne_nil (hlawful : pattern.Lawful) {before : List (Run α)}
    (hfits : Fits (before ++ pattern.middle) word) : ∃ a later, word = a :: later := by
  cases word with
  | nil =>
      obtain ⟨run, hrun, hleast⟩ := hlawful.nonempty
      exact absurd (fits_nil_iff.mp hfits run (List.mem_append_right _ hrun)) hleast
  | cons a later => exact ⟨a, later, rfl⟩

theorem find_eq_none_of_quiet (hlawful : pattern.Lawful)
    (hquiet : ∀ a ∈ text.head?, ¬ pattern.Starts a) : pattern.find last text = none := by
  by_contra hsome
  obtain ⟨-, before, hbefore, word, rest, rfl, hfits⟩ := word_of_find hsome
  obtain ⟨a, later, rfl⟩ := word_ne_nil hlawful hfits
  exact hquiet a rfl ⟨before, hbefore, begins_of_fits hfits⟩

theorem Rewritten.after (hlawful : pattern.Lawful) (hout : Rewritten pattern last text out)
    (hquiet : ∀ a ∈ text.head?, ¬ pattern.Starts a) (other : Option α) :
    Rewritten pattern other text out := by
  cases hout with
  | nil last => exact .nil other
  | keep hnone hrest => exact .keep (find_eq_none_of_quiet hlawful hquiet) hrest
  | swap hfound hsome hrest =>
      rw [find_eq_none_of_quiet hlawful hquiet] at hfound
      cases hfound

theorem clean_of_quiet (hlawful : pattern.Lawful) {part : List α}
    (hquiet : ∀ a ∈ part, ¬ pattern.Starts a)
    (hrest : pattern.Clean (lastOf last part) rest) : pattern.Clean last (part ++ rest) := by
  induction part generalizing last with
  | nil => exact hrest
  | cons a part ih =>
      obtain ⟨ha, hquiet⟩ := List.forall_mem_cons.mp hquiet
      refine ⟨find_eq_none_of_quiet hlawful fun b hb => ?_, ih hquiet ?_⟩
      · cases hb
        exact ha
      · rwa [lastOf_cons] at hrest

theorem clean_append {part : List α} (hclean : pattern.Clean last (part ++ rest)) :
    pattern.Clean (lastOf last part) rest := by
  induction part generalizing last with
  | nil => exact hclean
  | cons a part ih =>
      rw [lastOf_cons]
      exact ih hclean.2

/-- A match begins nowhere in the text, whatever follows: an element begins none, or is within a word. -/
def Still (pattern : Pattern α) : Option α → List α → Prop
  | _, [] => True
  | last, a :: rest =>
      (¬ pattern.Starts a ∨ (last.any pattern.word = true ∧ pattern.word a = true))
        ∧ pattern.Still (some a) rest

theorem still_of_quiet {part : List α} (hquiet : ∀ a ∈ part, ¬ pattern.Starts a) :
    pattern.Still last part := by
  induction part generalizing last with
  | nil => trivial
  | cons a part ih =>
      obtain ⟨ha, hpart⟩ := List.forall_mem_cons.mp hquiet
      exact ⟨Or.inl ha, ih hpart⟩

theorem still_append {part : List α} (hpart : pattern.Still last part)
    (hrest : pattern.Still (lastOf last part) rest) : pattern.Still last (part ++ rest) := by
  induction part generalizing last with
  | nil => exact hrest
  | cons a part ih =>
      rw [lastOf_cons] at hrest
      exact ⟨hpart.1, ih hpart.2 hrest⟩

theorem rewriteFrom_still (hlawful : pattern.Lawful) {part : List α} (hstill : pattern.Still last part)
    (rest : List α) :
    pattern.rewriteFrom 0 last (part ++ rest)
      = part ++ pattern.rewriteFrom 0 (lastOf last part) rest := by
  induction part generalizing last with
  | nil => rfl
  | cons a part ih =>
      obtain ⟨ha, hpart⟩ := hstill
      have hnone : pattern.find last (a :: (part ++ rest)) = none := by
        rcases ha with hquiet | ⟨hlast, hword⟩
        · refine find_eq_none_of_quiet hlawful fun b hb => ?_
          cases hb
          exact hquiet
        · refine find_eq_none_iff.mpr fun hedge => ?_
          unfold edge at hedge
          rw [hlast, List.head?_cons, Option.any_some, hword] at hedge
          cases hedge
      rw [List.cons_append, rewriteFrom, hnone, lastOf_cons]
      exact congrArg (a :: ·) (ih hpart)

/-- What was before the text does not matter if no match begins with its first element. -/
theorem Clean.after (hlawful : pattern.Lawful) (hclean : pattern.Clean last text)
    (hquiet : ∀ a ∈ text.head?, ¬ pattern.Starts a) (other : Option α) : pattern.Clean other text := by
  cases text with
  | nil => trivial
  | cons a rest => exact ⟨find_eq_none_of_quiet hlawful hquiet, hclean.2⟩

end Cleaning

/-! ### Rewriting by another pattern -/

/-- What is read in a rewritten text could be read in the text, up to a likeness of elements. -/
structure Reflects (pattern : Pattern α) (R : α → α → Prop) (Good : List α → Prop) : Prop where
  refl : ∀ a, R a a
  suffix : ∀ a word, Good (a :: word) → Good word
  swap : ∀ {last kept lost tail rest word more},
    pattern.find last (kept ++ lost ++ tail ++ rest) = some { kept, lost, tail, rest } →
    Good word → word <+: pattern.normal kept ++ pattern.mark ++ more →
    ∃ old, old <+: kept ++ lost ∧ List.Forall₂ R old word

/-- Rewriting by the pattern makes no match of the other one. -/
structure Harmless (pattern other : Pattern α) (R : α → α → Prop) (Good : List α → Prop) : Prop
    extends pattern.Reflects R Good where
  lawful : other.Lawful
  alike : ∀ before ∈ other.before, ∀ run ∈ before ++ other.middle, ∀ a b, R a b →
    run.accepts b = true → run.accepts a = true
  good : ∀ before ∈ other.before, ∀ a word, Fits (before ++ other.middle) (a :: word) → Good word
  marked : pattern.mark ≠ []
  quiet_mark : ∀ a ∈ pattern.mark, ¬ other.Starts a
  quiet_tail : ∀ {tail}, Fits pattern.after tail → ∀ a ∈ tail, ¬ other.Starts a
  quiet_rest : ∀ {last text found}, pattern.find last text = some found → found.tail = [] →
    ∀ a ∈ found.rest.head?, ¬ other.Starts a
  quiet_head : ∀ {last text found}, pattern.find last text = some found →
    ∀ a ∈ (pattern.normal found.kept ++ pattern.mark).head?, other.Starts a →
    ∃ b ∈ text.head?, other.Starts b

section Harmless

variable {pattern other : Pattern α} {R : α → α → Prop} {Good : List α → Prop} {last : Option α}
  {text out rest word : List α} {a : α}

theorem Reflects.reflect (hreflects : pattern.Reflects R Good) (hout : Rewritten pattern last text out)
    (hgood : Good word) (hword : word <+: out) : ∃ old, old <+: text ∧ List.Forall₂ R old word := by
  induction hout generalizing word with
  | nil last =>
      rw [List.prefix_nil.mp hword]
      exact ⟨[], List.nil_prefix, .nil⟩
  | @keep last a rest out hnone hrest ih =>
      cases word with
      | nil => exact ⟨[], List.nil_prefix, .nil⟩
      | cons b word =>
          obtain ⟨rfl, hlater⟩ := List.cons_prefix_cons.mp hword
          obtain ⟨old, hold, hlike⟩ := ih (hreflects.suffix _ _ hgood) hlater
          exact ⟨b :: old, List.cons_prefix_cons.mpr ⟨rfl, hold⟩, .cons (hreflects.refl b) hlike⟩
  | @swap last kept lost tail rest out hfound hsome hrest ih =>
      rw [List.append_assoc (pattern.normal kept ++ pattern.mark)] at hword
      obtain ⟨old, hold, hlike⟩ := hreflects.swap hfound hgood hword
      refine ⟨old, hold.trans ?_, hlike⟩
      rw [List.append_assoc (kept ++ lost)]
      exact List.prefix_append _ _

variable (hharmless : Harmless pattern other R Good)
include hharmless

theorem Harmless.find_keep (hrest : Rewritten pattern (some a) rest out)
    (hnone : other.find last (a :: rest) = none) : other.find last (a :: out) = none := by
  by_contra hsome
  obtain ⟨hedge, before, hbefore, word, later, htext, hfits⟩ := word_of_find hsome
  obtain ⟨b, word, rfl⟩ := word_ne_nil hharmless.lawful hfits
  obtain ⟨rfl, rfl⟩ := List.cons.inj htext
  obtain ⟨old, ⟨after, rfl⟩, hlike⟩ :=
    hharmless.reflect hrest (hharmless.good before hbefore _ _ hfits) (List.prefix_append word later)
  exact find_of_fits hharmless.lawful hbefore
    (fits_of_alike (hharmless.alike before hbefore) (.cons (hharmless.refl a) hlike) hfits) hedge hnone

theorem Harmless.quiet_out (hout : Rewritten pattern last text out)
    (hquiet : ∀ a ∈ text.head?, ¬ other.Starts a) : ∀ a ∈ out.head?, ¬ other.Starts a := by
  intro a ha hstarts
  cases hout with
  | nil last => cases ha
  | keep hnone hrest => exact hquiet a ha hstarts
  | @swap last kept lost tail rest out hfound hsome hrest =>
      have hne : pattern.normal kept ++ pattern.mark ≠ [] :=
        fun hnil => hharmless.marked (List.append_eq_nil_iff.mp hnil).2
      rw [List.append_assoc (pattern.normal kept ++ pattern.mark),
        List.head?_append_of_ne_nil _ hne] at ha
      obtain ⟨b, hb, hbegins⟩ := hharmless.quiet_head hfound a ha hstarts
      exact hquiet b hb hbegins

/-- The end of a swap, and what comes after it. -/
theorem Harmless.clean_swap {kept lost tail : List α}
    (hfound : pattern.find last (kept ++ lost ++ tail ++ rest) = some { kept, lost, tail, rest })
    (hrest : Rewritten pattern (lastOf last (kept ++ lost ++ tail)) rest out)
    (hclean : other.Clean (lastOf last (kept ++ lost ++ tail)) out) (before : Option α) :
    other.Clean before (pattern.mark ++ (tail ++ out)) := by
  obtain ⟨-, -, -, htail⟩ := fits_of_find hfound
  have hquiet : ∀ a ∈ pattern.mark ++ tail, ¬ other.Starts a := by
    intro a ha
    rcases List.mem_append.mp ha with ha | ha
    · exact hharmless.quiet_mark a ha
    · exact hharmless.quiet_tail htail a ha
  rw [← List.append_assoc]
  refine clean_of_quiet hharmless.lawful hquiet ?_
  cases tail with
  | nil =>
      have hout := hharmless.quiet_out hrest (hharmless.quiet_rest hfound rfl)
      exact hclean.after hharmless.lawful hout _
  | cons b tail =>
      unfold lastOf at hclean ⊢
      rw [List.getLast?_append_of_ne_nil _ (List.cons_ne_nil b tail)] at hclean ⊢
      rw [List.getLast?_eq_getLast_of_ne_nil (List.cons_ne_nil b tail)] at hclean ⊢
      exact hclean

/-- No match begins in what a match keeps, before an element that is in no match. -/
theorem Harmless.clean_kept {stop : α} {kept more : List α}
    (hgood : ∀ word, Good word → stop ∉ word) (hclean : other.Clean last (kept ++ rest))
    (hmore : ∀ before, other.Clean before (stop :: more)) :
    other.Clean last (kept ++ stop :: more) := by
  induction kept generalizing last with
  | nil => exact hmore last
  | cons a kept ih =>
      obtain ⟨hnone, hclean⟩ := hclean
      refine ⟨?_, ih hclean⟩
      by_contra hsome
      obtain ⟨hedge, before, hbefore, word, later, htext, hfits⟩ := word_of_find hsome
      obtain ⟨b, word, rfl⟩ := word_ne_nil hharmless.lawful hfits
      obtain ⟨rfl, hkept⟩ := List.cons.inj htext
      have hunstopped := hgood word (hharmless.good before hbefore _ _ hfits)
      obtain ⟨after, rfl⟩ : word <+: kept := prefix_of_stop ⟨later, hkept.symm⟩ hunstopped
      have hedge : other.edge last (a :: word ++ (after ++ rest)) = true := hedge
      refine find_of_fits hharmless.lawful hbefore hfits hedge ?_
      rw [List.cons_append, ← List.append_assoc]
      exact hnone

/-- A text without matches has none after it was rewritten by another pattern that keeps what it
finds. -/
theorem Harmless.clean_other {stop : α} {more : List α} (hmark : pattern.mark = stop :: more)
    (hgood : ∀ word, Good word → stop ∉ word) (hnormal : ∀ kept, pattern.normal kept = kept)
    (hout : Rewritten pattern last text out) (hclean : other.Clean last text) :
    other.Clean last out := by
  induction hout with
  | nil last => trivial
  | keep hnone hrest ih => exact ⟨hharmless.find_keep hrest hclean.1, ih hclean.2⟩
  | @swap last kept lost tail rest out hfound hsome hrest ih =>
      have hout := hharmless.clean_swap hfound hrest (ih (clean_append hclean))
      rw [List.append_assoc (kept ++ lost), List.append_assoc] at hclean
      rw [hnormal, List.append_assoc (kept ++ pattern.mark), List.append_assoc, hmark]
      rw [hmark] at hout
      exact hharmless.clean_kept hgood hclean hout

omit hharmless in
/-- A pattern leaves no match of its own. -/
theorem Harmless.clean_own (hharmless : Harmless pattern pattern R Good)
    (hnormal : ∀ {last kept lost tail rest}, pattern.find last (kept ++ lost ++ tail ++ rest)
        = some { kept, lost, tail, rest } → ∀ later,
      (∀ before, pattern.Clean before (pattern.mark ++ later)) →
      pattern.Clean last (pattern.normal kept ++ (pattern.mark ++ later)))
    (hout : Rewritten pattern last text out) : pattern.Clean last out := by
  induction hout with
  | nil last => trivial
  | keep hnone hrest ih => exact ⟨hharmless.find_keep hrest hnone, ih⟩
  | @swap last kept lost tail rest out hfound hsome hrest ih =>
      rw [List.append_assoc (pattern.normal kept ++ pattern.mark), List.append_assoc]
      exact hnormal hfound _ (hharmless.clean_swap hfound hrest ih)

end Harmless

/-! ### Marks that are replaced by themselves -/

/-- The middle is any number of elements of a class, and the mark is of that class itself. -/
structure Stable (pattern : Pattern α) (value : α → Bool) (stop : α) (more : List α) : Prop
    extends pattern.Lawful where
  normal : ∀ kept, pattern.normal kept = kept
  middle : pattern.middle = [Run.atLeast 1 value]
  mark : pattern.mark = stop :: more
  accepted : ∀ a ∈ pattern.mark, value a = true
  unstopped : ∀ before ∈ pattern.before, ∀ run ∈ before, run.accepts stop = false
  begun : ∀ before ∈ pattern.before, ∃ run ∈ before, run.least ≠ 0
  apart : ∀ a, Begins pattern.after a → value a = false
  starts : ∀ a, pattern.Starts a → value a = true

section Stable

variable {pattern : Pattern α} {value : α → Bool} {stop : α} {more : List α} {last : Option α}
  {text out rest kept part : List α} {a : α} {before : List (Run α)}

theorem not_mem_of_fits {runs : List (Run α)} (hrefused : ∀ run ∈ runs, run.accepts a = false)
    (hfits : Fits runs part) : a ∉ part := by
  induction runs generalizing part with
  | nil =>
      cases hfits
      exact List.not_mem_nil
  | cons run runs ih =>
      obtain ⟨hrun, hruns⟩ := List.forall_mem_cons.mp hrefused
      obtain ⟨first, later, rfl, hadmits, hlater⟩ := hfits
      intro ha
      rcases List.mem_append.mp ha with ha | ha
      · rw [hadmits.accepted a ha] at hrun
        cases hrun
      · exact ih hruns hlater ha

variable (hstable : pattern.Stable value stop more)
include hstable

/-- A match begins with what it keeps and one element of the class. -/
theorem Stable.split_of_match (hbefore : before ∈ pattern.before)
    (hmatch : pattern.matchWith text before ≠ none) :
    ∃ a kept b later, text = a :: kept ++ b :: later ∧ Fits before (a :: kept) ∧ stop ∉ a :: kept
      ∧ value b = true := by
  obtain ⟨found, hfound⟩ := Option.ne_none_iff_exists'.mp hmatch
  obtain ⟨first, second, htake, hmiddle, -⟩ := matchWith_eq_some_iff.mp hfound
  obtain ⟨rfl, hkept⟩ := fits_of_takeRuns htake
  obtain ⟨rfl, hlost⟩ := fits_of_takeRuns hmiddle
  rw [hstable.middle] at hlost
  obtain ⟨lost, none, hlost, hadmits, rfl⟩ := hlost
  rw [List.append_nil] at hlost
  rw [hlost]
  have hunstopped := not_mem_of_fits (hstable.unstopped before hbefore) hkept
  obtain ⟨a, kept, hsome⟩ : ∃ a kept, found.kept = a :: kept := by
    cases hnil : found.kept with
    | nil =>
        obtain ⟨run, hrun, hleast⟩ := hstable.begun before hbefore
        rw [hnil] at hkept
        exact absurd (fits_nil_iff.mp hkept run hrun) hleast
    | cons a kept => exact ⟨a, kept, rfl⟩
  rw [hsome] at hkept hunstopped ⊢
  cases lost with
  | nil => exact absurd hadmits.least (Nat.not_succ_le_zero 0)
  | cons b lost =>
      exact ⟨a, kept, b, lost ++ second, rfl, hkept, hunstopped, hadmits.accepted b List.mem_cons_self⟩

theorem Stable.match_of_split {b : α} {later : List α} (hbefore : before ∈ pattern.before)
    (hkept : Fits before kept) (hb : value b = true) :
    pattern.matchWith (kept ++ b :: later) before ≠ none := by
  have hmiddle : Fits pattern.middle [b] := by
    rw [hstable.middle]
    refine ⟨[b], [], rfl, ⟨List.forall_mem_singleton.mpr hb, Nat.le_refl 1, ?_⟩, rfl⟩
    exact fun _ hmost => by cases hmost
  have hmatch := matchWith_of_fits hstable.toLawful hbefore (fits_append hkept hmiddle) later
  rwa [List.append_assoc] at hmatch

theorem Stable.lost_eq_cons {found : Found α} (hfound : pattern.find last text = some found) :
    ∃ b lost, found.lost = b :: lost ∧ value b = true := by
  obtain ⟨-, -, hlost, -⟩ := fits_of_find hfound
  rw [hstable.middle] at hlost
  obtain ⟨lost, none, hlost, hadmits, rfl⟩ := hlost
  rw [List.append_nil] at hlost
  cases lost with
  | nil => exact absurd hadmits.least (Nat.not_succ_le_zero 0)
  | cons b lost => exact ⟨b, lost, hlost, hadmits.accepted b List.mem_cons_self⟩

/-- Up to an element of the class, the text is as it was if the mark does not begin there. -/
theorem Stable.reflect {b : α} {later : List α} (hout : Rewritten pattern last text out)
    (hsplit : out = kept ++ b :: later) (hkept : stop ∉ kept) (hb : value b = true) :
    ∃ c after, text = kept ++ c :: after ∧ value c = true := by
  induction hout generalizing kept with
  | nil last => exact absurd hsplit.symm (List.append_ne_nil_of_right_ne_nil _ (List.cons_ne_nil _ _))
  | @keep last a rest out hnone hrest ih =>
      cases kept with
      | nil =>
          obtain ⟨rfl, -⟩ := List.cons.inj hsplit
          exact ⟨a, rest, rfl, hb⟩
      | cons d kept =>
          obtain ⟨rfl, hout⟩ := List.cons.inj hsplit
          obtain ⟨c, after, rfl, hc⟩ := ih hout fun hmem => hkept (List.mem_cons_of_mem _ hmem)
          exact ⟨c, after, rfl, hc⟩
  | @swap last found lost tail rest out hfound hsome hrest ih =>
      obtain ⟨c, lost, rfl, hc⟩ := hstable.lost_eq_cons hfound
      rw [hstable.normal, hstable.mark, List.append_assoc, List.append_assoc, List.cons_append] at hsplit
      obtain ⟨short, rfl⟩ : kept <+: found := prefix_of_stop ⟨b :: later, hsplit.symm⟩ hkept
      cases short with
      | nil =>
          refine ⟨c, lost ++ tail ++ rest, ?_, hc⟩
          simp
      | cons d short =>
          rw [List.append_assoc, List.append_cancel_left_eq, List.cons_append] at hsplit
          obtain ⟨rfl, -⟩ := List.cons.inj hsplit
          refine ⟨d, short ++ (c :: lost) ++ tail ++ rest, ?_, hb⟩
          simp

theorem Stable.head_eq (hout : Rewritten pattern last text out) : out.head? = text.head? := by
  cases hout with
  | nil last => rfl
  | keep hnone hrest => rfl
  | @swap last kept lost tail rest out hfound hsome hrest =>
      obtain ⟨-, ⟨before, hbefore, hkept⟩, -, -⟩ := fits_of_find hfound
      rw [hstable.normal]
      cases kept with
      | nil =>
          obtain ⟨run, hrun, hleast⟩ := hstable.begun before hbefore
          exact absurd (fits_nil_iff.mp hkept run hrun) hleast
      | cons a kept => rfl

/-- The value ends where the end of the match begins, or something else that is not of the class. -/
theorem Stable.value_ends {found : Found α} (hfound : pattern.find last text = some found)
    (hhead : out.head? = found.rest.head?) : ∀ a ∈ (found.tail ++ out).head?, value a = false := by
  obtain ⟨-, earlier, before, later, -, hmatch, -⟩ := find_eq_some_iff.mp hfound
  obtain ⟨first, second, -, hmiddle, hafter⟩ := matchWith_eq_some_iff.mp hmatch
  obtain ⟨rfl, htail⟩ := fits_of_takeRuns hafter
  rw [hstable.middle] at hmiddle
  have hstops : ∀ a ∈ (found.tail ++ found.rest).head?, (Run.atLeast 1 value).accepts a = false :=
    stops_of_takeRuns rfl (List.nil_append [Run.atLeast 1 value] ▸ hmiddle)
  cases hend : found.tail with
  | nil =>
      rw [hend, List.nil_append] at hstops
      rw [List.nil_append, hhead]
      exact hstops
  | cons b tail =>
      rw [hend] at htail
      intro a ha
      cases ha
      exact hstable.apart b (begins_of_fits htail)

/-- The same match is found again with the mark in its middle. -/
theorem Stable.find_again {lost tail : List α}
    (hfound : pattern.find last (kept ++ lost ++ tail ++ rest) = some { kept, lost, tail, rest })
    (hhead : out.head? = rest.head?)
    (hout : Rewritten pattern last (kept ++ lost ++ tail ++ rest) (kept ++ pattern.mark ++ tail ++ out)) :
    pattern.find last (kept ++ pattern.mark ++ tail ++ out)
      = some { kept, lost := pattern.mark, tail, rest := out } := by
  have hends := hstable.value_ends hfound hhead
  obtain ⟨hedge, earlier, before, later, hpattern, hmatch, hearlier⟩ := find_eq_some_iff.mp hfound
  have hbefore : before ∈ pattern.before := by
    rw [hpattern]
    exact List.mem_append_right _ List.mem_cons_self
  refine find_eq_some_iff.mpr ⟨?_, earlier, before, later, hpattern, ?_, ?_⟩
  · unfold edge at hedge ⊢
    rw [hstable.head_eq hout]
    exact hedge
  · obtain ⟨first, second, htake, hmiddle, hafter⟩ := matchWith_eq_some_iff.mp hmatch
    obtain ⟨-, hkept⟩ := fits_of_takeRuns htake
    obtain ⟨hsecond, -⟩ := fits_of_takeRuns hafter
    dsimp only at htake hmiddle hafter hkept hsecond hends
    refine matchWith_eq_some_iff.mpr ⟨pattern.mark ++ (tail ++ out), tail ++ out, ?_, ?_, ?_⟩
    · rw [List.append_assoc, List.append_assoc]
      refine takeRuns_eq_of_fits (hstable.deterministic before hbefore).left hkept fun run hrun => ?_
      refine Or.inr fun a ha => ?_
      rw [hstable.mark] at ha
      cases ha
      exact hstable.unstopped before hbefore run hrun
    · have hfits : Fits [Run.atLeast 1 value] pattern.mark := by
        refine ⟨pattern.mark, [], (List.append_nil _).symm, ⟨hstable.accepted, ?_, nofun⟩, rfl⟩
        rw [hstable.mark]
        exact Nat.succ_le_succ (Nat.zero_le _)
      rw [hstable.middle]
      exact takeRuns_eq_of_fits ⟨Or.inr fun _ _ hbegins => hbegins, trivial⟩ hfits
        (List.forall_mem_singleton.mpr (Or.inr hends))
    · rw [hsecond] at hafter
      exact takeRuns_congr hafter hhead.symm
  · intro other hother
    by_contra hsome
    have hmember : other ∈ pattern.before := by
      rw [hpattern]
      exact List.mem_append_left _ hother
    obtain ⟨a, start, b, more, hsplit, hstart, hunstopped, hb⟩ := hstable.split_of_match hmember hsome
    obtain ⟨c, after, htext, hc⟩ := hstable.reflect hout hsplit hunstopped hb
    have hmatch : pattern.matchWith (a :: start ++ c :: after) other ≠ none :=
      hstable.match_of_split hmember hstart hc
    refine hmatch ?_
    rw [← htext]
    exact hearlier other hother

/-- A text that was rewritten is rewritten to itself. -/
theorem Stable.rewritten_again (hout : Rewritten pattern last text out) :
    Rewritten pattern last out out := by
  induction hout with
  | nil last => exact .nil last
  | @keep last a rest out hnone hrest ih =>
      refine .keep ?_ ih
      refine find_eq_none_iff.mpr fun hedge before hbefore => ?_
      by_contra hsome
      obtain ⟨b, start, c, later, hsplit, hstart, hunstopped, hc⟩ := hstable.split_of_match hbefore hsome
      obtain ⟨d, after, htext, hd⟩ :=
        hstable.reflect (Rewritten.keep hnone hrest) hsplit hunstopped hc
      have hmatch : pattern.matchWith (b :: start ++ d :: after) before ≠ none :=
        hstable.match_of_split hbefore hstart hd
      refine hmatch ?_
      rw [← htext]
      exact find_eq_none_iff.mp hnone hedge before hbefore
  | @swap last kept lost tail rest out hfound hsome hrest ih =>
      have hout := Rewritten.swap hfound hsome hrest
      have hhead := hstable.head_eq hrest
      have hends := hstable.value_ends hfound hhead
      rw [hstable.normal] at hout ⊢
      have hagain := hstable.find_again hfound hhead hout
      have hmark : pattern.mark ≠ [] := by
        rw [hstable.mark]
        exact List.cons_ne_nil _ _
      have hafter : Rewritten pattern (lastOf last (kept ++ pattern.mark ++ tail)) out out := by
        cases tail with
        | nil =>
            refine ih.after hstable.toLawful ?_ _
            intro a ha hstarts
            have hvalue := hends a ha
            rw [hstable.starts a hstarts] at hvalue
            cases hvalue
        | cons b tail =>
            unfold lastOf at ih ⊢
            rw [List.getLast?_append_of_ne_nil _ (List.cons_ne_nil b tail)] at ih ⊢
            rw [List.getLast?_eq_getLast_of_ne_nil (List.cons_ne_nil b tail)] at ih ⊢
            exact ih
      have hrewritten := Rewritten.swap hagain hmark hafter
      rwa [hstable.normal] at hrewritten

end Stable

end Pattern

end Patterns
