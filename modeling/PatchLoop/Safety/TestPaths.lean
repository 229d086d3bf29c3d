import PatchLoop.Lib.Fallible
import PatchLoop.Tools.Execute

/-!
# Paths of test commands

One text is checked of each argument of a test command: what follows its first `=`, or else the argument
itself if it is no option. What is checked is held to have no component `..` and to be not absolute. That is
less than to stay inside the repository, and it is not all that an argument may be taken for.
-/

namespace PatchLoop

open Paths

/-! ### Arguments -/

theorem eq_of_afterEquals {argument value : List Char} (hvalue : afterEquals argument = some value) :
    argument = beforeEquals argument ++ '=' :: value := by
  unfold afterEquals at hvalue
  split at hvalue
  · cases hvalue
  · rename_i first rest hdrop
    cases hvalue
    have hhead := List.head?_dropWhile_not (· ≠ '=') argument
    rw [hdrop] at hhead
    have hfirst : first = '=' := by simpa using hhead
    have hsplit := List.takeWhile_append_dropWhile (p := (· ≠ '=')) (l := argument)
    rw [hdrop, hfirst] at hsplit
    exact hsplit.symm

namespace RunTestsTool

theorem candidateOf_eq_self_iff {argument : List Char} :
    candidateOf argument = argument ↔ afterEquals argument = none := by
  unfold candidateOf
  cases hvalue : afterEquals argument with
  | none => exact iff_of_true rfl rfl
  | some value =>
      refine iff_of_false (fun hsame => ?_) (Option.some_ne_none value)
      have hlength := congrArg List.length (eq_of_afterEquals hvalue)
      rw [← show value = argument from hsame, List.length_append, List.length_cons] at hlength
      omega

/-- An argument that passes is an option without a value, or what is checked of it does not escape. -/
theorem checkArgument_eq_ok_iff {argument : String} :
    checkArgument argument = .ok () ↔
      (isOption argument.toList = true ∧ afterEquals argument.toList = none)
        ∨ escapesRepository (candidateOf argument.toList) = false := by
  unfold checkArgument
  dsimp only
  rw [← candidateOf_eq_self_iff]
  split
  · rename_i hskipped
    rw [Bool.and_eq_true, decide_eq_true_eq] at hskipped
    exact iff_of_true rfl (Or.inl hskipped)
  · rename_i hchecked
    rw [Bool.and_eq_true, decide_eq_true_eq] at hchecked
    rw [or_iff_right hchecked]
    split
    · rename_i hescapes
      refine iff_of_false (fun hok => by cases hok) ?_
      rw [Bool.not_eq_false]
      exact hescapes
    · rename_i hinside
      exact iff_of_true rfl (Bool.eq_false_iff.mpr hinside)

end RunTestsTool

/-! ### Texts that do not escape -/

section Accepted

variable {text : List Char} (haccepted : escapesRepository text = false)
include haccepted

theorem parts_of_accepted :
    ((windows text).drive = [] ∨ (windows text).root = []) ∧ parent ∉ (windows text).parts := by
  unfold escapesRepository at haccepted
  rw [Bool.or_eq_false_iff, Bool.or_eq_false_iff, Bool.or_eq_false_iff, decide_eq_false_iff_not] at haccepted
  obtain ⟨⟨⟨habsolute, -⟩, hparts⟩, -⟩ := haccepted
  refine ⟨?_, hparts⟩
  by_contra hboth
  rw [not_or] at hboth
  unfold Platform.isAbsolute at habsolute
  rw [Bool.and_eq_false_iff, Bool.or_eq_false_iff, decide_eq_false_iff_not] at habsolute
  rcases habsolute with hroot | ⟨-, hdrive⟩
  · exact hroot hboth.2
  · exact (decide_eq_false_iff_not.mp hdrive) hboth.1

theorem parent_of_accepted (hrelative : anchored text = false) :
    parent ∉ text.splitOnP isEitherSlash := by
  have hparts := (parts_of_accepted haccepted).2
  rwa [Parsed.parts_of_isRelative (windows_isRelative_iff.mpr hrelative), windows_tail hrelative,
    parent_mem_components, splitOnP_backslashed] at hparts

theorem staysInside_iff_of_accepted : StaysInside text ↔ anchored text = false := by
  rw [staysInside_iff]
  exact and_iff_left_of_imp (parent_of_accepted haccepted)

theorem parent_tail_of_accepted (hshare : (backslashed text).take 2 ≠ ['\\', '\\']) :
    parent ∉ (text.splitOnP isEitherSlash).tail := by
  obtain ⟨hhalf, hparts⟩ := parts_of_accepted haccepted
  intro hparent
  exact hparts (List.mem_append_right _ (parent_mem_windows_tail hshare hhalf hparent))

end Accepted

/-- A path that has a `=` in its first part that is not known to be harmless. -/
theorem parent_mem_around {before after : List Char} :
    parent ∈ (before ++ '=' :: after).splitOnP isEitherSlash
      ↔ parent ∈ (before.splitOnP isEitherSlash).dropLast ∨ parent ∈ (after.splitOnP isEitherSlash).tail :=
  mem_splitOnP_around (by decide) (by decide) before after

namespace RunTestsTool

/-! ### What is asked of an argument, and when it holds -/

/-- `argument.startswith("--")` -/
def isLongOption (argument : List Char) : Bool := ['-', '-'].isPrefixOf argument

/-- An argument that is no option stays inside the repository as a whole, the value of an option does, and
for `--name=key=value` the inner value does. -/
structure StaysInRepository (argument : List Char) : Prop where
  whole : isOption argument = false → StaysInside argument
  value : isOption argument = true → ∀ value ∈ afterEquals argument, StaysInside value
  inner : isLongOption argument = true → ∀ value ∈ afterEquals argument, ∀ inner ∈ afterEquals value,
    StaysInside inner

/-- What an argument must not be beside what is checked: its text that is checked begins with neither a
drive nor a root, what precedes the `=` of a plain argument does not lead upwards, and an inner value
does not begin with a drive, a root or `..`. -/
structure IsHarmless (argument : List Char) : Prop where
  plain : isOption argument = false → anchored argument = false
  named : isOption argument = false → ∀ value ∈ afterEquals argument,
    parent ∉ ((beforeEquals argument).splitOnP isEitherSlash).dropLast
      ∧ ((backslashed value).take 2 = ['\\', '\\'] → parent ∉ (value.splitOnP isEitherSlash).tail)
  value : isOption argument = true → ∀ value ∈ afterEquals argument, anchored value = false
  inner : isLongOption argument = true → ∀ value ∈ afterEquals argument, ∀ inner ∈ afterEquals value,
    anchored inner = false ∧ (inner.splitOnP isEitherSlash).head? ≠ some parent

instance (argument : List Char) : Decidable (IsHarmless argument) :=
  decidable_of_iff
    ((isOption argument = false → anchored argument = false)
      ∧ (isOption argument = false → ∀ value ∈ afterEquals argument,
        parent ∉ ((beforeEquals argument).splitOnP isEitherSlash).dropLast
          ∧ ((backslashed value).take 2 = ['\\', '\\'] → parent ∉ (value.splitOnP isEitherSlash).tail))
      ∧ (isOption argument = true → ∀ value ∈ afterEquals argument, anchored value = false)
      ∧ (isLongOption argument = true → ∀ value ∈ afterEquals argument, ∀ inner ∈ afterEquals value,
        anchored inner = false ∧ (inner.splitOnP isEitherSlash).head? ≠ some parent))
    ⟨fun ⟨plain, named, value, inner⟩ => ⟨plain, named, value, inner⟩,
      fun ⟨plain, named, value, inner⟩ => ⟨plain, named, value, inner⟩⟩

theorem isOption_of_isLongOption {argument : List Char} (hlong : isLongOption argument = true) :
    isOption argument = true := by
  obtain ⟨rest, rfl⟩ := List.isPrefixOf_iff_prefix.mp hlong
  rfl

/-- The inner value of a value that does not escape. -/
theorem staysInside_inner_iff {value inner : List Char} (haccepted : escapesRepository value = false)
    (hvalue : anchored value = false) (hinner : afterEquals value = some inner) :
    StaysInside inner
      ↔ anchored inner = false ∧ (inner.splitOnP isEitherSlash).head? ≠ some parent := by
  have hparent := parent_of_accepted haccepted hvalue
  rw [eq_of_afterEquals hinner, parent_mem_around, not_or] at hparent
  rw [staysInside_iff]
  refine and_congr_right fun _ => not_congr ?_
  obtain ⟨head, tail, hsplit⟩ := List.exists_cons_of_ne_nil (List.splitOnP_ne_nil isEitherSlash inner)
  rw [hsplit, List.tail_cons] at hparent
  rw [hsplit]
  rw [List.mem_cons, or_iff_left hparent.2, List.head?_cons, Option.some.injEq]
  exact eq_comm

/-- A plain argument whose value does not escape. -/
theorem staysInside_named_iff {argument value : List Char} (haccepted : escapesRepository value = false)
    (hvalue : afterEquals argument = some value) :
    StaysInside argument ↔ anchored argument = false
      ∧ parent ∉ ((beforeEquals argument).splitOnP isEitherSlash).dropLast
      ∧ ((backslashed value).take 2 = ['\\', '\\'] → parent ∉ (value.splitOnP isEitherSlash).tail) := by
  have haround : parent ∈ argument.splitOnP isEitherSlash
      ↔ parent ∈ ((beforeEquals argument).splitOnP isEitherSlash).dropLast
        ∨ parent ∈ (value.splitOnP isEitherSlash).tail := by
    rw [← parent_mem_around, ← eq_of_afterEquals hvalue]
  rw [staysInside_iff, haround, not_or]
  refine and_congr_right fun _ => and_congr_right fun _ => ?_
  constructor
  · exact fun hparent _ => hparent
  · intro hparent
    by_cases hshare : (backslashed value).take 2 = ['\\', '\\']
    · exact hparent hshare
    · exact parent_tail_of_accepted haccepted hshare

/-- An argument that passes the check stays inside the repository exactly if it is harmless. -/
theorem staysInRepository_iff {argument : String} (hok : checkArgument argument = .ok ()) :
    StaysInRepository argument.toList ↔ IsHarmless argument.toList := by
  rw [checkArgument_eq_ok_iff] at hok
  generalize argument.toList = argument at *
  cases hvalue : afterEquals argument with
  | none =>
      have hcandidate := candidateOf_eq_self_iff.mpr hvalue
      have hnone : ∀ {P : List Char → Prop}, ∀ value ∈ afterEquals argument, P value := by
        intro P value hmem
        rw [hvalue] at hmem
        cases hmem
      have hwhole : isOption argument = false → (StaysInside argument ↔ anchored argument = false) := by
        intro hplain
        have haccepted := hok.resolve_left fun hoption => by
          rw [hplain] at hoption
          exact Bool.false_ne_true hoption.1
        rw [hcandidate] at haccepted
        exact staysInside_iff_of_accepted haccepted
      constructor
      · exact fun hstays =>
          ⟨fun hplain => (hwhole hplain).mp (hstays.whole hplain), fun _ => hnone, fun _ => hnone,
            fun _ => hnone⟩
      · exact fun hharmless =>
          ⟨fun hplain => (hwhole hplain).mpr (hharmless.plain hplain), fun _ => hnone, fun _ => hnone⟩
  | some value =>
      have haccepted : escapesRepository value = false := by
        have haccepted := hok.resolve_left fun hoption => by
          rw [hvalue] at hoption
          exact Option.some_ne_none value hoption.2
        rwa [candidateOf, hvalue] at haccepted
      have hsome : ∀ {P : List Char → Prop}, (∀ found ∈ afterEquals argument, P found) ↔ P value := by
        intro P
        rw [hvalue]
        exact ⟨fun hall => hall value rfl, fun hP found hfound => by cases hfound; exact hP⟩
      constructor
      · intro hstays
        have hinside : isOption argument = true → anchored value = false := fun hoption =>
          (staysInside_iff_of_accepted haccepted).mp (hsome.mp (hstays.value hoption))
        refine ⟨fun hplain => ?_, fun hplain => ?_, fun hoption => ?_, fun hlong => ?_⟩
        · exact ((staysInside_named_iff haccepted hvalue).mp (hstays.whole hplain)).1
        · exact hsome.mpr ((staysInside_named_iff haccepted hvalue).mp (hstays.whole hplain)).2
        · exact hsome.mpr (hinside hoption)
        · refine hsome.mpr fun inner hinner => ?_
          have hvalueInside := hinside (isOption_of_isLongOption hlong)
          exact (staysInside_inner_iff haccepted hvalueInside hinner).mp
            (hsome.mp (hstays.inner hlong) inner hinner)
      · intro hharmless
        refine ⟨fun hplain => ?_, fun hoption => ?_, fun hlong => ?_⟩
        · exact (staysInside_named_iff haccepted hvalue).mpr
            ⟨hharmless.plain hplain, hsome.mp (hharmless.named hplain)⟩
        · exact hsome.mpr ((staysInside_iff_of_accepted haccepted).mpr
            (hsome.mp (hharmless.value hoption)))
        · refine hsome.mpr fun inner hinner => ?_
          have hvalueInside := hsome.mp (hharmless.value (isOption_of_isLongOption hlong))
          exact (staysInside_inner_iff haccepted hvalueInside hinner).mpr
            (hsome.mp (hharmless.inner hlong) inner hinner)

/-! ### Commands -/

/-- The arguments that name the test runner are not checked, and need not be. -/
theorem staysInRepository_runner {argument : String} (hargument : argument ∈ ["-m", "pytest", "unittest"]) :
    StaysInRepository argument.toList ↔ IsHarmless argument.toList := by
  have hrunners : ∀ runner ∈ ["-m", "pytest", "unittest"], afterEquals runner.toList = none
      ∧ (isOption runner.toList = true ∨ StaysInside runner.toList) := by
    decide
  obtain ⟨hempty, hinside⟩ := hrunners argument hargument
  have hnone : ∀ {P : List Char → Prop}, ∀ value ∈ afterEquals argument.toList, P value := by
    intro P value hmem
    rw [hempty] at hmem
    cases hmem
  have hrelative := hinside.imp_right fun hstays => (staysInside_iff.mp hstays).1
  refine iff_of_true ⟨fun hplain => ?_, fun _ => hnone, fun _ => hnone⟩
    ⟨fun hplain => ?_, fun _ => hnone, fun _ => hnone, fun _ => hnone⟩
  · exact hinside.resolve_left (by rw [hplain]; exact Bool.false_ne_true)
  · exact hrelative.resolve_left (by rw [hplain]; exact Bool.false_ne_true)

section Commands

variable [UnicodeForms] {host : CommandHost} {command normalized : List String}

/-- The arguments of an accepted command are checked, but for those that name the test runner. -/
theorem checked_of_accepted (hok : normalizeCommand host command = .ok normalized) :
    ∀ argument ∈ command.tail, checkArgument argument = .ok ()
      ∨ argument ∈ ["-m", "pytest", "unittest"] := by
  obtain ⟨runnable, hrunnable, hok⟩ := Except.bind_eq_ok_iff.mp hok
  obtain ⟨_, hchecks, -⟩ := Except.bind_eq_ok_iff.mp hok
  have hchecks := Except.forM_eq_ok_iff.mp hchecks
  unfold RunTestsTool.runnable at hrunnable
  split at hrunnable
  · cases hrunnable
  rename_i first arguments
  dsimp only at hrunnable
  split at hrunnable
  · split at hrunnable
    · cases hrunnable
    · rename_i hmodule
      cases hrunnable
      intro argument hargument
      rw [List.tail_cons, ← List.take_append_drop 2 arguments, List.mem_append] at hargument
      rcases hargument with hnamed | hrest
      · right
        rw [not_not, List.mem_pair] at hmodule
        rcases hmodule with hmodule | hmodule <;> rw [hmodule, List.mem_pair] at hnamed <;>
          rcases hnamed with rfl | rfl <;> decide
      · exact Or.inl (hchecks argument hrest)
  · split at hrunnable
    · cases hrunnable
      exact fun argument hargument => Or.inl (hchecks argument hargument)
    · cases hrunnable

/-- The arguments of an accepted test command stay inside the repository exactly if they are harmless. -/
theorem paths_stay_inside_iff (hok : normalizeCommand host command = .ok normalized) :
    (∀ argument ∈ command.tail, StaysInRepository argument.toList)
      ↔ ∀ argument ∈ command.tail, IsHarmless argument.toList := by
  refine forall₂_congr fun argument hargument => ?_
  rcases checked_of_accepted hok argument hargument with hchecked | hrunner
  · exact staysInRepository_iff hchecked
  · exact staysInRepository_runner hrunner

end Commands

section Samples

local instance testPathsForms : UnicodeForms where
  nfkc text := text
  casefold text := String.ofList (text.toList.map Char.toLower)

def Sample.linux : CommandHost where
  platform := .posix
  executable := "/usr/bin/python3"

theorem paths_stay_inside_quiet :
    StaysInRepository "--rootdir=tests".toList ∧ StaysInRepository "tests/test_a.py".toList := by
  have hok : normalizeCommand Sample.linux ["pytest", "--rootdir=tests", "tests/test_a.py"]
      = .ok ["/usr/bin/python3", "-m", "pytest", "--rootdir=tests", "tests/test_a.py"] := by
    decide +kernel
  have hstays := (paths_stay_inside_iff hok).mpr (by decide +kernel)
  exact ⟨hstays _ List.mem_cons_self, hstays _ (List.mem_cons_of_mem _ List.mem_cons_self)⟩

/-- Three commands that are accepted: an argument that leads out before its `=`, one that begins with a
drive, and an option whose inner value leads out. -/
theorem paths_lead_outside :
    (normalizeCommand Sample.linux ["pytest", "../outside=x/test_a.py"]
        = .ok ["/usr/bin/python3", "-m", "pytest", "../outside=x/test_a.py"]
      ∧ ¬ StaysInRepository "../outside=x/test_a.py".toList)
    ∧ (normalizeCommand Sample.linux ["pytest", "C:outside"]
        = .ok ["/usr/bin/python3", "-m", "pytest", "C:outside"]
      ∧ ¬ StaysInRepository "C:outside".toList)
    ∧ normalizeCommand Sample.linux ["pytest", "--override-ini=cache_dir=/outside"]
        = .ok ["/usr/bin/python3", "-m", "pytest", "--override-ini=cache_dir=/outside"]
      ∧ ¬ StaysInRepository "--override-ini=cache_dir=/outside".toList := by
  refine ⟨⟨by decide +kernel, fun hstays => ?_⟩, ⟨by decide +kernel, fun hstays => ?_⟩,
    by decide +kernel, fun hstays => ?_⟩
  · exact absurd (hstays.whole rfl) (by decide +kernel)
  · exact absurd (hstays.whole rfl) (by decide +kernel)
  · exact absurd (hstays.inner rfl _ rfl _ rfl) (by decide +kernel)

end Samples

end RunTestsTool

end PatchLoop
