import PatchLoop.Json.Places
import PatchLoop.Security

/-!
# JSON pointers

The parts of a pointer lead to a place of a value, which depends on what they pass: a part is the name of a
field or the index of an item. Setting a pointer puts a value into the place.
-/

namespace PatchLoop

namespace Json

/-- The step that a part of a pointer takes. -/
def step? (value : Json) (part : String) : Option Step :=
  match value with
  | .obj _ => some (.name part)
  | .arr items => (indexOfPart part items).map .index
  | _ => none

/-- The place to which the parts of a pointer lead. -/
def locate : Json → List String → Option (List Step)
  | _, [] => some []
  | value, part :: rest =>
      (value.step? part).bind fun step => (value.part? step).bind fun inner => (inner.locate rest).map (step :: ·)

section Pointers

variable {value new : Json} {part : String} {rest parts : List String} {step : Step} {place : List Step}
  {places : List Step → Option Json}

theorem locate_cons : value.locate (part :: rest) = some place
    ↔ ∃ step inner later, value.step? part = some step ∧ value.part? step = some inner
      ∧ inner.locate rest = some later ∧ place = step :: later := by
  rw [locate, Option.bind_eq_some_iff]
  constructor
  · rintro ⟨step, hstep, hplace⟩
    obtain ⟨inner, hinner, hplace⟩ := Option.bind_eq_some_iff.mp hplace
    obtain ⟨later, hlater, rfl⟩ := Option.map_eq_some_iff.mp hplace
    exact ⟨step, inner, later, hstep, hinner, hlater, rfl⟩
  · rintro ⟨step, inner, later, hstep, hinner, hlater, rfl⟩
    refine ⟨step, hstep, ?_⟩
    rw [hinner, Option.bind_some, hlater, Option.map_some]

theorem step?_mapParts (change : Step → Json → Json) : (value.mapParts change).step? part = value.step? part := by
  cases value with
  | arr items =>
      refine congrArg (Option.map Step.index) ?_
      rw [indexOfPart, indexOfPart, List.length_mapIdx]
  | _ => rfl

/-- What is put elsewhere, or into the place itself, leaves the place where it is. -/
theorem locate_overlay (hplace : value.locate parts = some place)
    (habove : ∀ front, front <+: place → front ≠ place → places front = none) :
    (value.overlay places).locate parts = some place := by
  induction parts generalizing value place places with
  | nil => exact hplace
  | cons part rest ih =>
      obtain ⟨step, inner, later, hstep, hinner, hlater, rfl⟩ := locate_cons.mp hplace
      rw [overlay_of_none (habove [] List.nil_prefix (List.cons_ne_nil step later).symm)]
      refine locate_cons.mpr ⟨step, inner.overlay (placesAfter places step), later, ?_, ?_, ?_, rfl⟩
      · rw [step?_mapParts, hstep]
      · rw [part?_mapParts, hinner, Option.map_some]
      · refine ih hlater fun front hfront hne => habove (step :: front) ?_ fun heq => hne (List.cons.inj heq).2
        exact List.cons_prefix_cons.mpr ⟨rfl, hfront⟩

theorem at?_of_locate (hplace : value.locate parts = some place) : (value.at? place).isSome := by
  induction parts generalizing value place with
  | nil =>
      cases hplace
      rfl
  | cons part rest ih =>
      obtain ⟨step, inner, later, -, hinner, hlater, rfl⟩ := locate_cons.mp hplace
      rw [at?, hinner, Option.bind_some]
      exact ih hlater

theorem locate_ne_nil (hplace : value.locate (part :: rest) = some place) : place ≠ [] := by
  obtain ⟨step, inner, later, -, -, -, rfl⟩ := locate_cons.mp hplace
  exact List.cons_ne_nil step later

/-! ### Setting -/

theorem mapM_some {α β : Type} {items : List α} {f : α → Option β} {g : α → β}
    (hsame : ∀ a ∈ items, f a = some (g a)) : items.mapM f = some (items.map g) := by
  induction items with
  | nil => rfl
  | cons a rest ih =>
      obtain ⟨ha, hrest⟩ := List.forall_mem_cons.mp hsame
      rw [List.mapM_cons, ha, ih hrest]
      rfl

/-- What setting a pointer does to the part that its first step leads to. -/
def setPart (new : Json) (rest : List String) (inner : Json) : Option Json :=
  if rest = [] then some new else setPointer new rest inner

theorem setPointer_cons (hdistinct : value.Distinct) {inner changed : Json} (hstep : value.step? part = some step)
    (hinner : value.part? step = some inner) (hchanged : setPart new rest inner = some changed) :
    setPointer new (part :: rest) value
      = some (value.mapParts fun other old => if other = step then changed else old) := by
  cases value with
  | obj fields =>
      cases hstep
      have hnodup := (distinct_iff.mp hdistinct).1 fields rfl
      have hmem : (part, inner) ∈ fields := hasPart_of_part? hinner
      have hany : fields.any (fun field => field.1 = part) = true :=
        List.any_eq_true.mpr ⟨_, hmem, decide_eq_true rfl⟩
      have hmap : fields.mapM (fun field =>
            if field.1 = part then (setPart new rest field.2).map (field.1, ·) else some field)
          = some (fields.map fun field => (field.1, if Step.name field.1 = .name part then changed else field.2)) := by
        refine mapM_some fun field hfield => ?_
        by_cases hname : field.1 = part
        · have hfound := find?_of_nodup hnodup hfield
          have hsame : field = (part, inner) := by
            rw [hname, find?_of_nodup hnodup hmem] at hfound
            exact (Option.some.inj hfound).symm
          rw [if_pos hname, if_pos (congrArg Step.name hname), hsame, hchanged]
          rfl
        · rw [if_neg hname, if_neg fun heq => hname (Step.name.inj heq)]
      rw [setPointer, if_pos hany]
      unfold setPart at hmap
      rw [hmap]
      rfl
  | arr items =>
      obtain ⟨index, hindex, rfl⟩ := Option.map_eq_some_iff.mp hstep
      have hitem : items[index]? = some inner := hinner
      have hset : items.set index changed
          = items.mapIdx fun other old => if Step.index other = .index index then changed else old := by
        refine List.ext_getElem? fun other => ?_
        rw [List.getElem?_set, List.getElem?_mapIdx]
        by_cases heq : index = other
        · rw [if_pos heq, ← heq, hitem]
          have hlt : index < items.length := (List.getElem?_eq_some_iff.mp hitem).1
          simp [hlt]
        · rw [if_neg heq]
          have hne : ¬ Step.index other = .index index := fun hsame => heq (Step.index.inj hsame).symm
          simp [hne]
      unfold setPart at hchanged
      rw [setPointer, hindex, mapParts, ← hset]
      by_cases hrest : rest = []
      · rw [if_pos hrest] at hchanged
        simp [hitem, hrest, Option.some.inj hchanged]
      · rw [if_neg hrest] at hchanged
        simp [hitem, hrest, hchanged]
  | _ => cases hstep

/-- Setting a pointer puts the value into its place. -/
theorem setPointer_eq (hdistinct : value.Distinct) (hplace : value.locate parts = some place) (hsome : place ≠ []) :
    setPointer new parts value = some (value.overlay (only place new)) := by
  induction parts generalizing value place with
  | nil =>
      cases hplace
      exact absurd rfl hsome
  | cons part rest ih =>
      obtain ⟨step, inner, later, hstep, hinner, hlater, rfl⟩ := locate_cons.mp hplace
      have hparts := (distinct_iff.mp hdistinct).2 step inner (hasPart_of_part? hinner)
      have hchanged : setPart new rest inner = some (inner.overlay (only later new)) := by
        rw [setPart]
        cases rest with
        | nil =>
            cases hlater
            rw [if_pos rfl, overlay_of_some (if_pos rfl)]
        | cons next more =>
            rw [if_neg (List.cons_ne_nil next more)]
            exact ih hparts hlater (locate_ne_nil hlater)
      rw [setPointer_cons hdistinct hstep hinner hchanged, overlay_only_cons]
      refine congrArg some (mapParts_congr fun other old hold => ?_)
      by_cases heq : other = step
      · have hsame := part?_of_hasPart hdistinct hold
        rw [heq, hinner] at hsame
        rw [if_pos heq, if_pos heq, Option.some.inj hsame]
      · rw [if_neg heq, if_neg heq]

end Pointers

end Json

end PatchLoop
