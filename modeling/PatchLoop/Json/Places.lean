import PatchLoop.Json.RoundTrip

/-!
# Places in a JSON value

A step leads to a part of a value, and a place is a list of steps. An overlay puts other values into places,
all at once: the outermost of them wherever one is in another.
-/

namespace PatchLoop

namespace Json

inductive Step where
  | name (name : String)
  | index (index : Nat)
deriving DecidableEq

/-- The part to which a step leads. -/
def part? (value : Json) (step : Step) : Option Json :=
  match value, step with
  | .obj fields, .name name => (fields.find? fun field => field.1 = name).map Prod.snd
  | .arr items, .index index => items[index]?
  | _, _ => none

/-- A part of a value, also where an earlier field has its name. -/
def HasPart (value : Json) (step : Step) (part : Json) : Prop :=
  match value, step with
  | .obj fields, .name name => (name, part) ∈ fields
  | .arr items, .index index => items[index]? = some part
  | _, _ => False

/-- What is at a place. -/
def at? : Json → List Step → Option Json
  | value, [] => some value
  | value, step :: rest => (value.part? step).bind fun part => part.at? rest

/-- The value with its parts changed. -/
def mapParts (value : Json) (change : Step → Json → Json) : Json :=
  match value with
  | .arr items => .arr (items.mapIdx fun index item => change (.index index) item)
  | .obj fields => .obj (fields.map fun field => (field.1, change (.name field.1) field.2))
  | value => value

/-! ### Parts -/

section Parts

variable {value part : Json} {step : Step} {change other : Step → Json → Json}

theorem hasPart_of_part? (hpart : value.part? step = some part) : value.HasPart step part := by
  cases value with
  | obj fields =>
      cases step with
      | name name =>
          obtain ⟨field, hfield, rfl⟩ := Option.map_eq_some_iff.mp hpart
          have hname : field.1 = name := by simpa using List.find?_some hfield
          have hmem := List.mem_of_find?_eq_some hfield
          rw [← hname]
          exact hmem
      | index index => cases hpart
  | arr items =>
      cases step with
      | name name => cases hpart
      | index index => exact hpart
  | _ => cases hpart

/-- Values by their parts. -/
theorem parts_induct {motive : Json → Prop}
    (hparts : ∀ value, (∀ step part, value.HasPart step part → motive part) → motive value) (value : Json) :
    motive value := by
  induction value using Json.induct with
  | harr items ih =>
      refine hparts _ fun step part hpart => ?_
      cases step with
      | name name => cases hpart
      | index index => exact ih part (List.mem_of_getElem? hpart)
  | hobj fields ih =>
      refine hparts _ fun step part hpart => ?_
      cases step with
      | name name => exact ih (name, part) hpart
      | index index => cases hpart
  | hnull => exact hparts _ fun step part hpart => by cases hpart
  | hbool value => exact hparts _ fun step part hpart => by cases hpart
  | hint value => exact hparts _ fun step part hpart => by cases hpart
  | hfloat text => exact hparts _ fun step part hpart => by cases hpart
  | hstr text => exact hparts _ fun step part hpart => by cases hpart

theorem mapParts_congr (hsame : ∀ step part, value.HasPart step part → change step part = other step part) :
    value.mapParts change = value.mapParts other := by
  cases value with
  | arr items =>
      refine congrArg Json.arr (List.ext_getElem? fun index => ?_)
      rw [List.getElem?_mapIdx, List.getElem?_mapIdx]
      cases hitem : items[index]? with
      | none => rfl
      | some item => exact congrArg some (hsame (.index index) item hitem)
  | obj fields =>
      refine congrArg Json.obj (List.map_congr_left fun field hfield => ?_)
      exact congrArg (Prod.mk field.1) (hsame (.name field.1) field.2 hfield)
  | _ => rfl

theorem hasPart_mapParts (hpart : value.HasPart step part) :
    (value.mapParts change).HasPart step (change step part) := by
  cases value with
  | arr items =>
      cases step with
      | name name => cases hpart
      | index index =>
          have hitem : items[index]? = some part := hpart
          change (items.mapIdx fun index item => change (.index index) item)[index]? = _
          rw [List.getElem?_mapIdx, hitem]
          rfl
  | obj fields =>
      cases step with
      | name name => exact List.mem_map.mpr ⟨(name, part), hpart, rfl⟩
      | index index => cases hpart
  | _ => cases hpart

theorem mapParts_mapParts :
    (value.mapParts change).mapParts other = value.mapParts fun step part => other step (change step part) := by
  cases value with
  | arr items => exact congrArg Json.arr (List.mapIdx_mapIdx ..)
  | obj fields => exact congrArg Json.obj (List.map_map ..)
  | _ => rfl

theorem mapParts_id (hsame : ∀ step part, value.HasPart step part → change step part = part) :
    value.mapParts change = value := by
  have hid : value.mapParts change = value.mapParts fun _ part => part := mapParts_congr hsame
  rw [hid]
  cases value with
  | arr items =>
      refine congrArg Json.arr (List.ext_getElem? fun index => ?_)
      simp [List.getElem?_mapIdx]
  | obj fields => simp [mapParts]
  | _ => rfl

theorem part?_mapParts : (value.mapParts change).part? step = (value.part? step).map (change step) := by
  cases value with
  | arr items =>
      cases step with
      | name name => rfl
      | index index => exact List.getElem?_mapIdx
  | obj fields =>
      cases step with
      | name name =>
          rw [mapParts, part?, part?, List.find?_map, Option.map_map, Option.map_map]
          refine Option.map_congr fun field hfield => ?_
          have hname : field.1 = name := by simpa using List.find?_some hfield
          rw [← hname]
          rfl
      | index index => rfl
  | _ => cases step <;> rfl

end Parts

/-! ### Overlays -/

/-- What is put into the places after a step. -/
def placesAfter (places : List Step → Option Json) (step : Step) : List Step → Option Json :=
  fun rest => places (step :: rest)

mutual

/-- The value with other values in its places. -/
def overlay : Json → (List Step → Option Json) → Json
  | .arr items, places => (places []).getD (.arr (overlayItems items 0 places))
  | .obj fields, places => (places []).getD (.obj (overlayFields fields places))
  | .null, places => (places []).getD .null
  | .bool value, places => (places []).getD (.bool value)
  | .int value, places => (places []).getD (.int value)
  | .float text, places => (places []).getD (.float text)
  | .str text, places => (places []).getD (.str text)

def overlayItems : List Json → Nat → (List Step → Option Json) → List Json
  | [], _, _ => []
  | item :: rest, index, places =>
      item.overlay (placesAfter places (.index index)) :: overlayItems rest (index + 1) places

def overlayFields : List (String × Json) → (List Step → Option Json) → List (String × Json)
  | [], _ => []
  | (name, value) :: rest, places => (name, value.overlay (placesAfter places (.name name))) :: overlayFields rest places

end

section Overlays

variable {value new : Json} {place : List Step} {places others : List Step → Option Json}

theorem overlayItems_eq (items : List Json) (start : Nat) (places : List Step → Option Json) :
    overlayItems items start places
      = items.mapIdx fun index item => item.overlay (placesAfter places (.index (start + index))) := by
  induction items generalizing start with
  | nil => rfl
  | cons item rest ih =>
      rw [overlayItems, ih, List.mapIdx_cons]
      refine congrArg _ (congrArg (List.mapIdx · rest) ?_)
      funext index item
      rw [Nat.add_right_comm, Nat.add_assoc]

theorem overlayFields_eq (fields : List (String × Json)) (places : List Step → Option Json) :
    overlayFields fields places
      = fields.map fun field => (field.1, field.2.overlay (placesAfter places (.name field.1))) := by
  induction fields with
  | nil => rfl
  | cons field rest ih => rw [overlayFields, ih, List.map_cons]

theorem overlay_eq (value : Json) (places : List Step → Option Json) :
    value.overlay places = (places []).getD (value.mapParts fun step part => part.overlay (placesAfter places step)) := by
  cases value with
  | arr items =>
      rw [overlay, overlayItems_eq]
      simp [mapParts]
  | obj fields => rw [overlay, overlayFields_eq, mapParts]
  | _ =>
      rw [overlay]
      rfl

theorem overlay_of_some (hnew : places [] = some new) : value.overlay places = new := by
  rw [overlay_eq, hnew, Option.getD_some]

theorem overlay_of_none (hnone : places [] = none) :
    value.overlay places = value.mapParts fun step part => part.overlay (placesAfter places step) := by
  rw [overlay_eq, hnone, Option.getD_none]

theorem overlay_id (hnone : ∀ place, places place = none) : value.overlay places = value := by
  induction value using parts_induct generalizing places with
  | hparts value ih =>
      rw [overlay_of_none (hnone [])]
      exact mapParts_id fun step part hpart => ih step part hpart fun place => hnone (step :: place)

/-- An overlay of an overlay that puts nothing inside what the first one put. -/
theorem overlay_overlay (houtside : ∀ place rest, (places place).isSome → rest ≠ [] → others (place ++ rest) = none) :
    (value.overlay places).overlay others = value.overlay fun place => (others place).or (places place) := by
  induction value using parts_induct generalizing places others with
  | hparts value ih =>
      cases hother : others [] with
      | some new =>
          rw [overlay_of_some hother, overlay_of_some (by rw [hother, Option.some_or])]
      | none =>
          cases hplace : places [] with
          | some new =>
              have hboth : (others []).or (places []) = some new := by rw [hother, hplace, Option.none_or]
              have hright : (value.overlay fun place => (others place).or (places place)) = new :=
                overlay_of_some hboth
              rw [overlay_of_some hplace, hright]
              refine overlay_id fun place => ?_
              by_cases hnil : place = []
              · rw [hnil, hother]
              · exact houtside [] place (by rw [hplace]; rfl) hnil
          | none =>
              have hneither : (others []).or (places []) = none := by rw [hother, hplace, Option.none_or]
              have hright : (value.overlay fun place => (others place).or (places place))
                  = value.mapParts fun step part =>
                    part.overlay (placesAfter (fun place => (others place).or (places place)) step) :=
                overlay_of_none hneither
              rw [overlay_of_none hplace, overlay_of_none hother, mapParts_mapParts, hright]
              exact mapParts_congr fun step part hpart =>
                ih step part hpart fun place rest hsome hrest => houtside (step :: place) rest hsome hrest

theorem at?_append (value : Json) (front rest : List Step) :
    value.at? (front ++ rest) = (value.at? front).bind fun part => part.at? rest := by
  induction front generalizing value with
  | nil => rfl
  | cons step front ih =>
      rw [List.cons_append, at?, at?]
      cases value.part? step with
      | none => rfl
      | some part => exact ih part

/-- Below none of the places there is what was there, with what is put further below. -/
theorem at?_overlay (hnone : ∀ front, front <+: place → places front = none) :
    (value.overlay places).at? place
      = (value.at? place).map fun part => part.overlay fun rest => places (place ++ rest) := by
  induction place generalizing value places with
  | nil => rfl
  | cons step place ih =>
      rw [overlay_of_none (hnone [] List.nil_prefix), at?, at?, part?_mapParts]
      cases value.part? step with
      | none => rfl
      | some part =>
          exact ih fun front hfront => hnone (step :: front) (List.cons_prefix_cons.mpr ⟨rfl, hfront⟩)

/-- At a place there is what is put there, unless a place above it is taken. -/
theorem at?_overlay_of_some {rest : List Step} (hnew : places place = some new)
    (habove : ∀ front, front <+: place → front ≠ place → places front = none) (hthere : (value.at? place).isSome) :
    (value.overlay places).at? (place ++ rest) = new.at? rest := by
  induction place generalizing value places with
  | nil => rw [overlay_of_some hnew, List.nil_append]
  | cons step place ih =>
      have hnone : places [] = none := habove [] List.nil_prefix (List.cons_ne_nil step place).symm
      rw [at?] at hthere
      rw [overlay_of_none hnone, List.cons_append, at?, part?_mapParts]
      cases hpart : value.part? step with
      | none =>
          rw [hpart] at hthere
          cases hthere
      | some part =>
          rw [hpart] at hthere
          refine ih hnew (fun front hfront hne => ?_) hthere
          exact habove (step :: front) (List.cons_prefix_cons.mpr ⟨rfl, hfront⟩) fun heq =>
            hne (List.cons.inj heq).2

/-- One value in one place. -/
def only (place : List Step) (new : Json) : List Step → Option Json :=
  fun other => if other = place then some new else none

theorem overlay_only_cons (value : Json) (step : Step) (place : List Step) (new : Json) :
    value.overlay (only (step :: place) new)
      = value.mapParts fun other part => if other = step then part.overlay (only place new) else part := by
  have hnone : only (step :: place) new [] = none := if_neg (List.cons_ne_nil step place).symm
  rw [overlay_of_none hnone]
  refine mapParts_congr fun other part _ => ?_
  by_cases heq : other = step
  · rw [if_pos heq, heq]
    refine congrArg (overlay part) (funext fun rest => ?_)
    simp [placesAfter, only]
  · rw [if_neg heq]
    exact overlay_id fun rest => if_neg fun hcons => heq (List.cons.inj hcons).1

end Overlays

/-! ### Distinct names -/

mutual

/-- The names of every object are distinct, as the keys of a dictionary are. -/
def Distinct : Json → Prop
  | .arr items => DistinctItems items
  | .obj fields => DistinctFields fields ∧ (fields.map Prod.fst).Nodup
  | _ => True

def DistinctItems : List Json → Prop
  | [] => True
  | item :: rest => item.Distinct ∧ DistinctItems rest

def DistinctFields : List (String × Json) → Prop
  | [] => True
  | (_, value) :: rest => value.Distinct ∧ DistinctFields rest

end

section Distinct

variable {value part : Json} {step : Step}

theorem distinctItems_iff {items : List Json} : DistinctItems items ↔ ∀ item ∈ items, item.Distinct := by
  induction items with
  | nil => simp [DistinctItems]
  | cons item rest ih => rw [DistinctItems, ih, List.forall_mem_cons]

theorem distinctFields_iff {fields : List (String × Json)} :
    DistinctFields fields ↔ ∀ field ∈ fields, field.2.Distinct := by
  induction fields with
  | nil => simp [DistinctFields]
  | cons field rest ih => rw [DistinctFields, ih, List.forall_mem_cons]

theorem distinct_iff : value.Distinct
    ↔ (∀ fields, value = .obj fields → (fields.map Prod.fst).Nodup)
      ∧ ∀ step part, value.HasPart step part → part.Distinct := by
  cases value with
  | arr items =>
      rw [Distinct, distinctItems_iff]
      constructor
      · intro hitems
        refine ⟨(fun fields heq => nomatch heq), fun step part hpart => ?_⟩
        cases step with
        | name name => cases hpart
        | index index => exact hitems part (List.mem_of_getElem? hpart)
      · rintro ⟨-, hparts⟩ item hitem
        obtain ⟨index, hindex⟩ := List.mem_iff_getElem?.mp hitem
        exact hparts (.index index) item hindex
  | obj fields =>
      rw [Distinct, distinctFields_iff]
      constructor
      · rintro ⟨hfields, hnodup⟩
        refine ⟨fun others heq => Json.obj.inj heq ▸ hnodup, fun step part hpart => ?_⟩
        cases step with
        | name name => exact hfields (name, part) hpart
        | index index => cases hpart
      · rintro ⟨hnodup, hparts⟩
        exact ⟨fun field hfield => hparts (.name field.1) field.2 hfield, hnodup fields rfl⟩
  | _ => exact iff_of_true True.intro ⟨(fun fields heq => nomatch heq), fun step part hpart => hpart.elim⟩

theorem find?_of_nodup {fields : List (String × Json)} (hnodup : (fields.map Prod.fst).Nodup)
    {field : String × Json} (hmem : field ∈ fields) :
    fields.find? (fun other => other.1 = field.1) = some field := by
  induction fields with
  | nil => cases hmem
  | cons first rest ih =>
      obtain ⟨hfresh, hnodup⟩ := List.nodup_cons.mp hnodup
      rcases List.mem_cons.mp hmem with rfl | hmem
      · exact List.find?_cons_of_pos (decide_eq_true rfl)
      · have hne : first.1 ≠ field.1 := fun heq => hfresh (heq ▸ List.mem_map_of_mem hmem)
        rw [List.find?_cons_of_neg (by simpa using hne), ih hnodup hmem]

theorem part?_of_hasPart (hdistinct : value.Distinct) (hpart : value.HasPart step part) :
    value.part? step = some part := by
  cases value with
  | arr items =>
      cases step with
      | name name => cases hpart
      | index index => exact hpart
  | obj fields =>
      cases step with
      | name name =>
          have hnodup := (distinct_iff.mp hdistinct).1 fields rfl
          exact congrArg (Option.map Prod.snd) (find?_of_nodup hnodup hpart)
      | index index => cases hpart
  | _ => cases hpart

theorem distinct_mapParts {change : Step → Json → Json} (hdistinct : value.Distinct)
    (hparts : ∀ step part, value.HasPart step part → (change step part).Distinct) :
    (value.mapParts change).Distinct := by
  cases value with
  | arr items =>
      refine distinctItems_iff.mpr fun item hitem => ?_
      obtain ⟨index, hindex⟩ := List.mem_iff_getElem?.mp hitem
      rw [List.getElem?_mapIdx] at hindex
      obtain ⟨part, hpart, rfl⟩ := Option.map_eq_some_iff.mp hindex
      exact hparts (.index index) part hpart
  | obj fields =>
      refine ⟨distinctFields_iff.mpr fun field hfield => ?_, ?_⟩
      · obtain ⟨part, hpart, rfl⟩ := List.mem_map.mp hfield
        exact hparts (.name part.1) part.2 hpart
      · rw [List.map_map]
        exact (distinct_iff.mp hdistinct).1 fields rfl
  | _ => exact True.intro

theorem distinct_overlay {places : List Step → Option Json} (hdistinct : value.Distinct)
    (hnew : ∀ place new, places place = some new → new.Distinct) : (value.overlay places).Distinct := by
  induction value using parts_induct generalizing places with
  | hparts value ih =>
      cases hplace : places [] with
      | some new =>
          rw [overlay_of_some hplace]
          exact hnew [] new hplace
      | none =>
          rw [overlay_of_none hplace]
          exact distinct_mapParts hdistinct fun step part hpart =>
            ih step part hpart ((distinct_iff.mp hdistinct).2 step part hpart) fun place => hnew (step :: place)

end Distinct

end Json

end PatchLoop
