import Mathlib.Data.List.Find
import Mathlib.Data.List.Pairwise
import PatchLoop.Json.Pointers
import PatchLoop.Lib.Fallible
import PatchLoop.Safety.RepeatedContent

/-!
# Credential bindings

Arguments are redacted before the references are put into the places that are bound. What is persisted holds
nothing of the values there, and the values of a resolver in these places give back the arguments, unless
redaction took something else.
-/

namespace PatchLoop

/-! ### Redaction by parts -/

namespace Json

/-- A value that stands anywhere in a value. -/
inductive Inside (inner : Json) : Json → Prop
  | refl : Inside inner inner
  | part {value part : Json} {step : Step} (hpart : value.HasPart step part) (hinside : Inside inner part) :
      Inside inner value

/-- Some text of the value carries the mark of redaction. -/
def Carries (value : Json) : Prop := ∃ text, Inside (.str text) value ∧ occursIn redactedMark text = true

/-- Some object of the value has the name of a credential reference. -/
def Refers (value : Json) : Prop := ∃ fields, Inside (.obj fields) value ∧ "$credential_ref" ∈ fields.map Prod.fst

theorem Carries.part {value part : Json} {step : Step} (hpart : value.HasPart step part) (hcarries : part.Carries) :
    value.Carries := by
  obtain ⟨text, hinside, hmark⟩ := hcarries
  exact ⟨text, .part hpart hinside, hmark⟩

theorem Refers.part {value part : Json} {step : Step} (hpart : value.HasPart step part) (hrefers : part.Refers) :
    value.Refers := by
  obtain ⟨fields, hinside, hname⟩ := hrefers
  exact ⟨fields, .part hpart hinside, hname⟩

/-! ### What can be executed -/

theorem assertExecutableItems_iff {items : List Json} :
    assertExecutableItems items = .ok () ↔ ∀ item ∈ items, item.assertExecutable = .ok () := by
  induction items with
  | nil => exact iff_of_true rfl fun _ hitem => absurd hitem List.not_mem_nil
  | cons item rest ih =>
      rw [assertExecutableItems, List.forall_mem_cons, ← ih, Except.bind_eq_ok_iff]
      exact ⟨fun ⟨_, hok⟩ => hok, fun hok => ⟨(), hok⟩⟩

theorem assertExecutableFields_iff {fields : List (String × Json)} :
    assertExecutableFields fields = .ok () ↔ ∀ field ∈ fields, field.2.assertExecutable = .ok () := by
  induction fields with
  | nil => exact iff_of_true rfl fun _ hfield => absurd hfield List.not_mem_nil
  | cons field rest ih =>
      rw [assertExecutableFields, List.forall_mem_cons, ← ih, Except.bind_eq_ok_iff]
      exact ⟨fun ⟨_, hok⟩ => hok, fun hok => ⟨(), hok⟩⟩

/-- A value that is no reference and no text with the mark. -/
def Clear : Json → Prop
  | .str text => occursIn redactedMark text = false
  | .obj fields => "$credential_ref" ∉ fields.map Prod.fst
  | _ => True

theorem assertExecutable_parts (value : Json) :
    value.assertExecutable = .ok () ↔ value.Clear ∧ ∀ step part, value.HasPart step part → part.assertExecutable = .ok () := by
  cases value with
  | arr items =>
      rw [assertExecutable, assertExecutableItems_iff]
      constructor
      · intro hitems
        refine ⟨True.intro, fun step part hpart => ?_⟩
        cases step with
        | name name => cases hpart
        | index index => exact hitems part (List.mem_of_getElem? hpart)
      · rintro ⟨-, hparts⟩ item hitem
        obtain ⟨index, hindex⟩ := List.mem_iff_getElem?.mp hitem
        exact hparts (.index index) item hindex
  | obj fields =>
      have hname : fields.any (fun field => field.1 = "$credential_ref") = true
          ↔ "$credential_ref" ∈ fields.map Prod.fst := by
        simp
      rw [assertExecutable]
      by_cases hreference : fields.any (fun field => field.1 = "$credential_ref") = true
      · rw [if_pos hreference]
        exact iff_of_false (fun herror => nomatch herror) fun hclear => hclear.1 (hname.mp hreference)
      · rw [if_neg hreference, assertExecutableFields_iff]
        constructor
        · intro hfields
          refine ⟨fun hmem => hreference (hname.mpr hmem), fun step part hpart => ?_⟩
          cases step with
          | name name => exact hfields (name, part) hpart
          | index index => cases hpart
        · rintro ⟨-, hparts⟩ field hfield
          exact hparts (.name field.1) field.2 hfield
  | str text =>
      rw [assertExecutable]
      by_cases hmark : occursIn redactedMark text = true
      · rw [if_pos hmark]
        exact iff_of_false (fun herror => nomatch herror) fun hclear => Bool.false_ne_true (hclear.1.symm.trans hmark)
      · rw [if_neg hmark]
        exact iff_of_true rfl ⟨Bool.eq_false_iff.mpr hmark, fun step part hpart => hpart.elim⟩
  | _ => exact iff_of_true rfl ⟨True.intro, fun step part hpart => hpart.elim⟩

theorem not_carries_iff (value : Json) : ¬ value.Carries ↔ (∀ text, value = .str text → occursIn redactedMark text = false)
    ∧ ∀ step part, value.HasPart step part → ¬ part.Carries := by
  constructor
  · intro hclear
    refine ⟨fun text heq => ?_, fun step part hpart hcarries => hclear (hcarries.part hpart)⟩
    rw [← Bool.not_eq_true]
    exact fun hmark => hclear ⟨text, heq ▸ .refl, hmark⟩
  · rintro ⟨htext, hparts⟩ ⟨text, hinside, hmark⟩
    cases hinside with
    | refl => exact Bool.false_ne_true ((htext text rfl).symm.trans hmark)
    | part hpart hinner => exact hparts _ _ hpart ⟨text, hinner, hmark⟩

theorem not_refers_iff (value : Json) : ¬ value.Refers
    ↔ (∀ fields, value = .obj fields → "$credential_ref" ∉ fields.map Prod.fst)
      ∧ ∀ step part, value.HasPart step part → ¬ part.Refers := by
  constructor
  · intro hclear
    exact ⟨fun fields heq hname => hclear ⟨fields, heq ▸ .refl, hname⟩,
      fun step part hpart hrefers => hclear (hrefers.part hpart)⟩
  · rintro ⟨hfields, hparts⟩ ⟨fields, hinside, hname⟩
    cases hinside with
    | refl => exact hfields fields rfl hname
    | part hpart hinner => exact hparts _ _ hpart ⟨fields, hinner, hname⟩

/-- Arguments can be executed when no text carries the mark and no object has the name of a reference. -/
theorem assertExecutable_iff (value : Json) : value.assertExecutable = .ok () ↔ ¬ value.Carries ∧ ¬ value.Refers := by
  induction value using parts_induct with
  | hparts value ih =>
      have hclear : value.Clear ↔ (∀ text, value = .str text → occursIn redactedMark text = false)
          ∧ ∀ fields, value = .obj fields → "$credential_ref" ∉ fields.map Prod.fst := by
        cases value <;> simp [Clear]
      have hparts : (∀ step part, value.HasPart step part → part.assertExecutable = .ok ())
          ↔ (∀ step part, value.HasPart step part → ¬ part.Carries)
            ∧ ∀ step part, value.HasPart step part → ¬ part.Refers := by
        constructor
        · intro hok
          exact ⟨fun step part hpart => ((ih step part hpart).mp (hok step part hpart)).1,
            fun step part hpart => ((ih step part hpart).mp (hok step part hpart)).2⟩
        · rintro ⟨hcarries, hrefers⟩ step part hpart
          exact (ih step part hpart).mpr ⟨hcarries step part hpart, hrefers step part hpart⟩
      rw [assertExecutable_parts, hclear, hparts, not_carries_iff, not_refers_iff]
      exact and_and_and_comm

/-! ### Redaction by parts -/

section Redacted

variable [Redactor] {value : Json} {place : List Step} {places others : List Step → Option Json}

/-- What redaction makes of a part. -/
def redactPart (step : Step) (part : Json) : Json :=
  match step with
  | .name name =>
      if Redactor.sensitiveName name && !isCredentialMarker part then .str redactedMark else part.redact
  | .index _ => part.redact

theorem redactFields_eq (fields : List (String × Json)) :
    redactFields fields = fields.map fun field => (field.1, redactPart (.name field.1) field.2) := by
  induction fields with
  | nil => rfl
  | cons field rest ih => rw [redactFields, ih, List.map_cons, redactPart]

theorem redact_of_not_str (hstr : ∀ text, value ≠ .str text) : value.redact = value.mapParts redactPart := by
  cases value with
  | str text => exact absurd rfl (hstr text)
  | arr items =>
      rw [redact, redactItems_eq, mapParts]
      exact congrArg Json.arr (List.ext_getElem? fun index => by simp [redactPart])
  | obj fields => rw [redact, redactFields_eq, mapParts]
  | _ => rfl

theorem distinct_redact (hdistinct : value.Distinct) : value.redact.Distinct := by
  induction value using parts_induct with
  | hparts value ih =>
      by_cases hstr : ∃ text, value = .str text
      · obtain ⟨text, rfl⟩ := hstr
        exact True.intro
      · rw [redact_of_not_str fun text heq => hstr ⟨text, heq⟩]
        refine distinct_mapParts hdistinct fun step part hpart => ?_
        have hredacted := ih step part hpart ((distinct_iff.mp hdistinct).2 step part hpart)
        cases step with
        | index index => exact hredacted
        | name name =>
            rw [redactPart]
            split
            · exact True.intro
            · exact hredacted

/-- A place to which no sensitive name leads before the last step. -/
def Open (place : List Step) : Prop := ∀ name, Step.name name ∈ place.dropLast → Redactor.sensitiveName name = false

theorem Open.tail {step : Step} (hopen : Open (step :: place)) : Open place := by
  intro name hname
  refine hopen name ?_
  cases place with
  | nil => cases hname
  | cons next rest => exact List.mem_cons_of_mem step hname

theorem Open.head {name : String} (hopen : Open (.name name :: place)) (hsome : place ≠ []) :
    Redactor.sensitiveName name = false := by
  obtain ⟨next, rest, rfl⟩ := List.exists_cons_of_ne_nil hsome
  exact hopen name List.mem_cons_self

/-- Redaction leaves an open place where it is. -/
theorem locate_redact {parts : List String} (hplace : value.locate parts = some place) (hopen : Open place) :
    value.redact.locate parts = some place := by
  induction parts generalizing value place with
  | nil => exact hplace
  | cons part rest ih =>
      obtain ⟨step, inner, later, hstep, hinner, hlater, rfl⟩ := locate_cons.mp hplace
      have hstr : ∀ text, value ≠ .str text := by
        rintro text rfl
        cases hstep
      rw [redact_of_not_str hstr]
      refine locate_cons.mpr ⟨step, redactPart step inner, later, ?_, ?_, ?_, rfl⟩
      · rw [step?_mapParts, hstep]
      · rw [part?_mapParts, hinner, Option.map_some]
      · cases rest with
        | nil => exact hlater
        | cons next more =>
            have hsame : redactPart step inner = inner.redact := by
              cases step with
              | index index => rfl
              | name name => rw [redactPart, hopen.head (locate_ne_nil hlater), Bool.false_and, if_neg Bool.false_ne_true]
            rw [hsame]
            exact ih hlater hopen.tail

/-- What is in open places that are taken afterwards does not matter to what redaction leaves. -/
theorem redact_overlay (hsame : ∀ place, (places place).isSome → (others place).isSome)
    (hopen : ∀ place, (others place).isSome → Open place) :
    (value.overlay places).redact.overlay others = value.redact.overlay others := by
  induction value using parts_induct generalizing places others with
  | hparts value ih =>
      cases hother : others [] with
      | some new => rw [overlay_of_some hother, overlay_of_some hother]
      | none =>
          have hplace : places [] = none := by
            by_contra hne
            have hsome := hsame [] (Option.isSome_iff_ne_none.mpr hne)
            rw [hother] at hsome
            cases hsome
          rw [overlay_of_none hplace]
          by_cases hstr : ∃ text, value = .str text
          · obtain ⟨text, rfl⟩ := hstr
            rfl
          · have hnot : ∀ text, value ≠ .str text := fun text heq => hstr ⟨text, heq⟩
            have hnot' : ∀ text, value.mapParts (fun step part => part.overlay (placesAfter places step)) ≠ .str text := by
              intro text heq
              cases value with
              | str other => exact hnot other rfl
              | _ => cases heq
            rw [redact_of_not_str hnot, redact_of_not_str hnot', overlay_of_none hother, overlay_of_none hother,
              mapParts_mapParts, mapParts_mapParts, mapParts_mapParts]
            refine mapParts_congr fun step part hpart => ?_
            have hafter : ∀ place, (placesAfter places step place).isSome → (placesAfter others step place).isSome :=
              fun place => hsame (step :: place)
            have hinner := ih step part hpart hafter fun place hsome => (hopen (step :: place) hsome).tail
            cases step with
            | index index => exact hinner
            | name name =>
                cases hnew : placesAfter others (.name name) [] with
                | some new => rw [overlay_of_some hnew, overlay_of_some hnew]
                | none =>
                    by_cases hsensitive : Redactor.sensitiveName name = true
                    · -- Nothing is put below a sensitive name, nor into its place.
                      have hnone : ∀ place, placesAfter places (.name name) place = none := by
                        intro place
                        by_contra hne
                        have hsome := hafter place (Option.isSome_iff_ne_none.mpr hne)
                        by_cases hnil : place = []
                        · rw [hnil, hnew] at hsome
                          cases hsome
                        · rw [(hopen (.name name :: place) hsome).head hnil] at hsensitive
                          cases hsensitive
                      rw [overlay_id hnone]
                    · rw [Bool.not_eq_true] at hsensitive
                      rw [redactPart, redactPart, hsensitive, Bool.false_and, Bool.false_and,
                        if_neg Bool.false_ne_true, if_neg Bool.false_ne_true]
                      exact hinner

/-- Where nothing carries the mark, redaction has taken nothing but what is in the places. -/
theorem redact_overlay_of_clear
    (htexts : ∀ text, Redactor.redactText text = text ∨ occursIn redactedMark (Redactor.redactText text) = true)
    (hclear : ¬ (value.redact.overlay places).Carries) : value.redact.overlay places = value.overlay places := by
  induction value using parts_induct generalizing places with
  | hparts value ih =>
      cases hplace : places [] with
      | some new => rw [overlay_of_some hplace, overlay_of_some hplace]
      | none =>
          by_cases hstr : ∃ text, value = .str text
          · obtain ⟨text, rfl⟩ := hstr
            rw [redact, overlay_of_none hplace] at hclear ⊢
            rcases htexts text with hsame | hmark
            · rw [hsame, overlay_of_none hplace]
            · exact absurd ⟨_, .refl, hmark⟩ hclear
          · have hnot : ∀ text, value ≠ .str text := fun text heq => hstr ⟨text, heq⟩
            rw [redact_of_not_str hnot, overlay_of_none hplace, mapParts_mapParts] at hclear ⊢
            rw [overlay_of_none hplace]
            refine mapParts_congr fun step part hpart => ?_
            have hinner : ¬ ((redactPart step part).overlay (placesAfter places step)).Carries :=
              fun hcarries => hclear (hcarries.part (hasPart_mapParts hpart))
            cases step with
            | index index => exact ih _ part hpart hinner
            | name name =>
                rw [redactPart] at hinner ⊢
                split
                · rename_i hreplaced
                  rw [if_pos hreplaced] at hinner
                  cases hnew : placesAfter places (.name name) [] with
                  | some new => rw [overlay_of_some hnew, overlay_of_some hnew]
                  | none =>
                      rw [overlay_of_none hnew] at hinner
                      exact absurd ⟨redactedMark, .refl, by decide⟩ hinner
                · rename_i hkept
                  rw [if_neg hkept] at hinner
                  exact ih _ part hpart hinner

end Redacted

end Json

/-! ### Bindings -/

open Json

/-- The place that a binding names in arguments: none of its steps is there where its path does not exist. -/
def CredentialBinding.place (binding : CredentialBinding) (arguments : Json) : List Step :=
  (arguments.locate (pointerParts binding.path)).getD []

/-- `{"$credential_ref": reference}` -/
def CredentialBinding.marker (binding : CredentialBinding) : Json := .obj [("$credential_ref", .str binding.reference)]

/-- Places of which none is in the other. -/
def Parted (first second : List Step) : Prop := ¬ first <+: second ∧ ¬ second <+: first

theorem Parted.symm {first second : List Step} (hparted : Parted first second) : Parted second first :=
  And.symm hparted

/-- The paths of the bindings exist in the arguments, and none is in another. -/
structure Binds (arguments : Json) (bindings : List CredentialBinding) : Prop where
  there : ∀ binding ∈ bindings, binding.place arguments ≠ []
  parted : bindings.Pairwise fun first second => Parted (first.place arguments) (second.place arguments)

theorem Binds.parted_of_ne {arguments : Json} {bindings : List CredentialBinding} (hbinds : Binds arguments bindings)
    {first second : CredentialBinding} (hfirst : first ∈ bindings) (hsecond : second ∈ bindings)
    (hne : first ≠ second) : Parted (first.place arguments) (second.place arguments) := by
  have hsymm : Std.Symm fun first second : CredentialBinding =>
      Parted (first.place arguments) (second.place arguments) := ⟨fun _ _ hparted => hparted.symm⟩
  exact hbinds.parted.forall hfirst hsecond hne

/-- A value for each binding, put into its place one after the other. -/
def putAll (put : CredentialBinding → Json) (bindings : List CredentialBinding) (value : Json) : Option Json :=
  bindings.foldlM (fun value binding => setPointer (put binding) (pointerParts binding.path) value) value

/-- What is put into the places of bindings. -/
def bound (put : CredentialBinding → Json) (arguments : Json) (bindings : List CredentialBinding) :
    List Step → Option Json :=
  fun place => (bindings.find? fun binding => binding.place arguments = place).map put

section Bound

variable {arguments base : Json} {bindings : List CredentialBinding} {binding : CredentialBinding}
  {put : CredentialBinding → Json} {place : List Step}

theorem locate_of_there (hthere : binding.place arguments ≠ []) :
    arguments.locate (pointerParts binding.path) = some (binding.place arguments) := by
  unfold CredentialBinding.place at hthere ⊢
  cases hplace : arguments.locate (pointerParts binding.path) with
  | none => exact absurd (by rw [hplace]; rfl) hthere
  | some place => rfl

theorem place_of_locate (hplace : base.locate (pointerParts binding.path) = some place) : binding.place base = place := by
  rw [CredentialBinding.place, hplace, Option.getD_some]

theorem bound_eq_none_iff : bound put arguments bindings place = none
    ↔ ∀ binding ∈ bindings, binding.place arguments ≠ place := by
  rw [bound, Option.map_eq_none_iff, List.find?_eq_none]
  simp

theorem exists_of_bound {new : Json} (hbound : bound put arguments bindings place = some new) :
    ∃ binding ∈ bindings, binding.place arguments = place ∧ put binding = new := by
  obtain ⟨binding, hfind, rfl⟩ := Option.map_eq_some_iff.mp hbound
  exact ⟨binding, List.mem_of_find?_eq_some hfind, by simpa using List.find?_some hfind, rfl⟩

theorem isSome_bound_iff : (bound put arguments bindings place).isSome
    ↔ ∃ binding ∈ bindings, binding.place arguments = place := by
  rw [← not_iff_not, Bool.not_eq_true, Option.isSome_eq_false_iff, Option.isNone_iff_eq_none, bound_eq_none_iff]
  simp

/-- Nothing is put above the place of a binding. -/
theorem bound_above (hbinds : Binds arguments bindings) (hmem : binding ∈ bindings) {front : List Step}
    (hfront : front <+: binding.place arguments) (hne : front ≠ binding.place arguments) :
    bound put arguments bindings front = none := by
  refine bound_eq_none_iff.mpr fun other hother heq => ?_
  by_cases hsame : other = binding
  · exact hne (hsame ▸ heq.symm)
  · exact (hbinds.parted_of_ne hother hmem hsame).1 (heq ▸ hfront)

theorem bound_append_self (hparted : ∀ other ∈ bindings, Parted (other.place arguments) (binding.place arguments)) :
    (fun place => (only (binding.place arguments) (put binding) place).or (bound put arguments bindings place))
      = bound put arguments (bindings ++ [binding]) := by
  funext place
  unfold bound only
  rw [List.find?_append]
  by_cases hplace : place = binding.place arguments
  · have hnone : (bindings.find? fun other => other.place arguments = place) = none := by
      refine List.find?_eq_none.mpr fun other hother heq => ?_
      have hsame : other.place arguments = binding.place arguments := (of_decide_eq_true heq).trans hplace
      exact (hparted other hother).1 (hsame ▸ List.prefix_refl _)
    rw [hnone, if_pos hplace, Option.none_or, Option.some_or]
    simp [hplace]
  · have hlast : ([binding].find? fun other => other.place arguments = place) = none := by
      simpa using fun heq => hplace heq.symm
    rw [hlast, if_neg hplace, Option.none_or, Option.or_none]

variable (put) in
/-- Values that are put into parted places lie over the value all at once. -/
theorem putAll_eq (hbinds : Binds arguments bindings)
    (hbase : ∀ binding ∈ bindings, base.locate (pointerParts binding.path) = some (binding.place arguments))
    (hdistinct : base.Distinct) (hput : ∀ binding ∈ bindings, (put binding).Distinct) :
    putAll put bindings base = some (base.overlay (bound put arguments bindings)) := by
  induction bindings using List.reverseRecOn with
  | nil =>
      have hid : base.overlay (bound put arguments []) = base := overlay_id fun place => rfl
      rw [hid]
      rfl
  | append_singleton front binding ih =>
      obtain ⟨hfront, -, hlast⟩ := List.pairwise_append.mp hbinds.parted
      have hparted : ∀ other ∈ front, Parted (other.place arguments) (binding.place arguments) :=
        fun other hother => hlast other hother binding (List.mem_singleton_self binding)
      have hfrontBinds : Binds arguments front :=
        ⟨fun other hother => hbinds.there other (List.mem_append_left _ hother), hfront⟩
      have hmem : binding ∈ front ++ [binding] := List.mem_append_right _ (List.mem_singleton_self binding)
      have hstart := ih hfrontBinds (fun other hother => hbase other (List.mem_append_left _ hother))
        fun other hother => hput other (List.mem_append_left _ hother)
      have hplace : (base.overlay (bound put arguments front)).locate (pointerParts binding.path)
          = some (binding.place arguments) := by
        refine locate_overlay (hbase binding hmem) fun above habove _ => ?_
        exact bound_eq_none_iff.mpr fun other hother heq => (hparted other hother).1 (heq ▸ habove)
      have hinner : (base.overlay (bound put arguments front)).Distinct :=
        distinct_overlay hdistinct fun place new hnew => by
          obtain ⟨other, hother, -, rfl⟩ := exists_of_bound hnew
          exact hput other (List.mem_append_left _ hother)
      have houtside : ∀ place rest, (bound put arguments front place).isSome → rest ≠ [] →
          only (binding.place arguments) (put binding) (place ++ rest) = none := by
        intro place rest hsome _
        obtain ⟨other, hother, rfl⟩ := isSome_bound_iff.mp hsome
        exact if_neg fun heq => (hparted other hother).1 ⟨rest, heq⟩
      unfold putAll at hstart ⊢
      rw [List.foldlM_append, hstart]
      change setPointer (put binding) (pointerParts binding.path) (base.overlay (bound put arguments front)) >>= pure = _
      rw [setPointer_eq hinner hplace (hbinds.there binding hmem), overlay_overlay houtside, bound_append_self hparted]
      rfl

theorem distinct_marker (binding : CredentialBinding) : binding.marker.Distinct :=
  ⟨⟨True.intro, True.intro⟩, List.nodup_singleton _⟩

theorem locate_of_binds (hbinds : Binds arguments bindings) :
    ∀ binding ∈ bindings, arguments.locate (pointerParts binding.path) = some (binding.place arguments) :=
  fun binding hmem => locate_of_there (hbinds.there binding hmem)

/-- What is put into the places moves none of them. -/
theorem locate_bound (hbinds : Binds arguments bindings)
    (hbase : ∀ binding ∈ bindings, base.locate (pointerParts binding.path) = some (binding.place arguments)) :
    ∀ binding ∈ bindings, (base.overlay (bound put arguments bindings)).locate (pointerParts binding.path)
      = some (binding.place arguments) :=
  fun binding hmem => locate_overlay (hbase binding hmem) fun _ hfront hne => bound_above hbinds hmem hfront hne

/-- Arguments in which the bindings have the same places. -/
theorem binds_of_locate {other : Json} (hbinds : Binds arguments bindings)
    (hother : ∀ binding ∈ bindings, other.locate (pointerParts binding.path) = some (binding.place arguments)) :
    Binds other bindings ∧ ∀ binding ∈ bindings, binding.place other = binding.place arguments := by
  have hplaces : ∀ binding ∈ bindings, binding.place other = binding.place arguments :=
    fun binding hmem => place_of_locate (hother binding hmem)
  refine ⟨⟨fun binding hmem => ?_, ?_⟩, hplaces⟩
  · rw [hplaces binding hmem]
    exact hbinds.there binding hmem
  · refine hbinds.parted.imp_of_mem fun hfirst hsecond hparted => ?_
    rw [hplaces _ hfirst, hplaces _ hsecond]
    exact hparted

theorem bound_congr {other : Json}
    (hplaces : ∀ binding ∈ bindings, binding.place other = binding.place arguments) :
    bound put other bindings = bound put arguments bindings := by
  funext place
  refine congrArg _ (List.find?_congr fun binding hmem => ?_)
  rw [hplaces binding hmem]

theorem bound_or_bound {other : CredentialBinding → Json} (place : List Step) :
    (bound put arguments bindings place).or (bound other arguments bindings place) = bound put arguments bindings place := by
  unfold bound
  cases bindings.find? fun binding => binding.place arguments = place <;> rfl

/-- At the place of a binding is what is put there. -/
theorem bound_self (hbinds : Binds arguments bindings) (hmem : binding ∈ bindings) :
    bound put arguments bindings (binding.place arguments) = some (put binding) := by
  unfold bound
  cases hfind : bindings.find? fun other => other.place arguments = binding.place arguments with
  | none => exact absurd (decide_eq_true rfl) (List.find?_eq_none.mp hfind binding hmem)
  | some other =>
      have hplace : other.place arguments = binding.place arguments := by simpa using List.find?_some hfind
      have hsame : other = binding := by
        by_contra hne
        have hparted := hbinds.parted_of_ne (List.mem_of_find?_eq_some hfind) hmem hne
        exact hparted.1 (hplace ▸ List.prefix_refl _)
      rw [Option.map_some, hsame]

variable (put) in
theorem at?_bound (hbinds : Binds arguments bindings) (hmem : binding ∈ bindings)
    (hbase : base.locate (pointerParts binding.path) = some (binding.place arguments)) (rest : List Step) :
    (base.overlay (bound put arguments bindings)).at? (binding.place arguments ++ rest) = (put binding).at? rest :=
  at?_overlay_of_some (bound_self hbinds hmem) (fun _ hfront hne => bound_above hbinds hmem hfront hne)
    (at?_of_locate hbase)

/-! ### Markers -/

/-- A credential marker stands at the place. -/
def Json.MarkedAt (value : Json) (place : List Step) : Prop :=
  ∃ marker, value.at? place = some marker ∧ marker.isCredentialMarker = true

theorem marker_isCredentialMarker (hreference : startsWith binding.reference "credential://" = true) :
    binding.marker.isCredentialMarker = true :=
  hreference

/-- In a marker there is no other. -/
theorem not_marker_in_marker {marker inner : Json} (hmarker : marker.isCredentialMarker = true) {rest : List Step}
    (hsome : rest ≠ []) (hinner : marker.at? rest = some inner) : inner.isCredentialMarker = false := by
  unfold isCredentialMarker at hmarker
  split at hmarker
  · rename_i reference
    obtain ⟨step, later, rfl⟩ := List.exists_cons_of_ne_nil hsome
    obtain ⟨part, hpart, hlater⟩ := Option.bind_eq_some_iff.mp hinner
    have hstr : part = .str reference := by
      cases step with
      | name name =>
          obtain ⟨field, hfield, rfl⟩ := Option.map_eq_some_iff.mp hpart
          rw [List.mem_singleton.mp (List.mem_of_find?_eq_some hfield)]
      | index index => cases hpart
    rw [hstr] at hlater
    cases later with
    | nil =>
        rw [← Option.some.inj hlater]
        rfl
    | cons next more => cases hlater
  · cases hmarker

/-- Markers stand at the bound places, and apart from these where they stood before. -/
theorem markedAt_bound (hbinds : Binds arguments bindings)
    (hbase : ∀ binding ∈ bindings, base.locate (pointerParts binding.path) = some (binding.place arguments))
    (hreferences : ∀ binding ∈ bindings, startsWith binding.reference "credential://" = true) :
    (base.overlay (bound CredentialBinding.marker arguments bindings)).MarkedAt place
      ↔ (∃ binding ∈ bindings, binding.place arguments = place)
        ∨ base.MarkedAt place ∧ ∀ binding ∈ bindings, Parted (binding.place arguments) place := by
  by_cases hplace : ∃ binding ∈ bindings, binding.place arguments = place
  · obtain ⟨binding, hmem, rfl⟩ := hplace
    refine iff_of_true ⟨binding.marker, ?_, marker_isCredentialMarker (hreferences binding hmem)⟩ (.inl ⟨binding, hmem, rfl⟩)
    have hat := at?_bound CredentialBinding.marker hbinds hmem (hbase binding hmem) []
    rw [List.append_nil] at hat
    exact hat
  rw [or_iff_right hplace]
  by_cases hbelow : ∃ binding ∈ bindings, binding.place arguments <+: place
  · -- Below a bound place there is only the text of its marker.
    obtain ⟨binding, hmem, rest, rfl⟩ := hbelow
    refine iff_of_false ?_ fun hparted => (hparted.2 binding hmem).1 (List.prefix_append _ _)
    rintro ⟨marker, hat, hmarker⟩
    rw [at?_bound _ hbinds hmem (hbase binding hmem)] at hat
    have hsome : rest ≠ [] := fun hnil => hplace ⟨binding, hmem, by rw [hnil, List.append_nil]⟩
    rw [not_marker_in_marker (marker_isCredentialMarker (hreferences binding hmem)) hsome hat] at hmarker
    cases hmarker
  by_cases habove : ∃ binding ∈ bindings, place <+: binding.place arguments
  · -- A marker has no bound place in it.
    obtain ⟨binding, hmem, rest, hrest⟩ := habove
    refine iff_of_false ?_ fun hparted => (hparted.2 binding hmem).2 ⟨rest, hrest⟩
    rintro ⟨marker, hat, hmarker⟩
    have hbound := at?_bound CredentialBinding.marker hbinds hmem (hbase binding hmem) []
    rw [List.append_nil, ← hrest, at?_append, hat] at hbound
    have hsome : rest ≠ [] := fun hnil => hplace ⟨binding, hmem, by rw [← hrest, hnil, List.append_nil]⟩
    have hnot := not_marker_in_marker hmarker hsome hbound
    rw [marker_isCredentialMarker (hreferences binding hmem)] at hnot
    cases hnot
  · have hnone : ∀ front, front <+: place → bound CredentialBinding.marker arguments bindings front = none :=
      fun front hfront => bound_eq_none_iff.mpr fun binding hmem heq => hbelow ⟨binding, hmem, heq ▸ hfront⟩
    have hinside : ∀ rest, bound CredentialBinding.marker arguments bindings (place ++ rest) = none :=
      fun rest => bound_eq_none_iff.mpr fun binding hmem heq => habove ⟨binding, hmem, rest, heq.symm⟩
    have hparted : ∀ binding ∈ bindings, Parted (binding.place arguments) place :=
      fun binding hmem => ⟨fun hfront => hbelow ⟨binding, hmem, hfront⟩, fun hfront => habove ⟨binding, hmem, hfront⟩⟩
    have hsame : (base.overlay (bound CredentialBinding.marker arguments bindings)).at? place = base.at? place := by
      rw [at?_overlay hnone]
      cases base.at? place with
      | none => rfl
      | some part => exact congrArg some (overlay_id hinside)
    unfold Json.MarkedAt
    rw [hsame]
    exact (and_iff_left hparted).symm

theorem persistedArguments_eq [Redactor] (arguments : Json) (bindings : List CredentialBinding) :
    persistedArguments arguments bindings.reverse = putAll CredentialBinding.marker bindings arguments.redact := by
  induction bindings using List.reverseRecOn with
  | nil => rfl
  | append_singleton front binding ih =>
      rw [List.reverse_append, List.reverse_singleton, List.singleton_append, persistedArguments, ih]
      unfold putAll
      rw [List.foldlM_append]
      refine congrArg _ (funext fun safe => ?_)
      rw [List.foldlM_cons]
      exact (bind_pure _).symm

theorem foldlM_ok {ε α β : Type} {step : β → α → Option β} {action : β → α → Except ε β} {items : List α}
    {start last : β} (hstep : ∀ value a next, step value a = some next → action value a = .ok next)
    (hsome : items.foldlM step start = some last) : items.foldlM action start = .ok last := by
  induction items generalizing start with
  | nil => exact congrArg Except.ok (Option.some.inj hsome)
  | cons a rest ih =>
      rw [List.foldlM_cons] at hsome ⊢
      obtain ⟨next, hnext, hrest⟩ := Option.bind_eq_some_iff.mp hsome
      rw [hstep start a next hnext]
      exact ih hrest

theorem materialize_eq {stored : PersistedToolArguments} {resolver : String → String} {value : Json}
    (hput : putAll (fun binding => .str (resolver binding.reference)) stored.credentialBindings stored.arguments
      = some value) :
    stored.materialize resolver
      = (value.assertExecutable.mapError ToolArgumentError.unresolvedToolArgument).map fun _ => value := by
  unfold PersistedToolArguments.materialize
  rw [foldlM_ok (fun value binding next hnext => by rw [hnext]) hput]
  change (value.assertExecutable.mapError ToolArgumentError.unresolvedToolArgument >>= fun _ => pure value) = _
  cases value.assertExecutable <;> rfl

end Bound

/-! ### What is persisted -/

/-- What persisted arguments keep of the arguments that are bound. -/
structure PersistedToolArguments.Keeps [Redactor] (stored : PersistedToolArguments) (arguments : Json)
    (bindings : List CredentialBinding) : Prop where
  marked : ∀ place, stored.arguments.MarkedAt place
    ↔ (∃ binding ∈ bindings, binding.place arguments = place)
      ∨ arguments.redact.MarkedAt place ∧ ∀ binding ∈ bindings, Parted (binding.place arguments) place
  hidden : ∀ values other, (∀ binding ∈ bindings, (values binding).Distinct) →
    putAll values bindings arguments = some other → persistToolArguments other bindings = some stored
  again : persistToolArguments stored.arguments bindings = some stored
  materialized : ∀ resolver, ∃ expected value,
    putAll (fun binding => .str (resolver binding.reference)) bindings arguments = some expected
    ∧ putAll (fun binding => .str (resolver binding.reference)) bindings stored.arguments = some value
    ∧ ((value.Carries ∨ value.Refers) → ∃ text, stored.materialize resolver = .error (.unresolvedToolArgument text))
    ∧ (¬ (value.Carries ∨ value.Refers) → stored.materialize resolver = .ok expected)

section Persisted

variable [Redactor] {arguments : Json} {bindings : List CredentialBinding}

/-- The arguments as they are persisted. -/
def safeArguments (arguments : Json) (bindings : List CredentialBinding) : Json :=
  arguments.redact.overlay (bound CredentialBinding.marker arguments bindings)

/-- What `persist_tool_arguments` returns. -/
def storedArguments (arguments : Json) (bindings : List CredentialBinding) : PersistedToolArguments where
  arguments := safeArguments arguments bindings
  credentialBindings := bindings
  redactedPaths := redactedPaths "" (safeArguments arguments bindings)

theorem locate_redact_of_binds (hbinds : Binds arguments bindings)
    (hopen : ∀ binding ∈ bindings, Open (binding.place arguments)) :
    ∀ binding ∈ bindings, arguments.redact.locate (pointerParts binding.path) = some (binding.place arguments) :=
  fun binding hmem => locate_redact (locate_of_binds hbinds binding hmem) (hopen binding hmem)

theorem persist_eq (hdistinct : arguments.Distinct) (hbinds : Binds arguments bindings)
    (hopen : ∀ binding ∈ bindings, Open (binding.place arguments)) :
    persistToolArguments arguments bindings = some (storedArguments arguments bindings) := by
  have hput := putAll_eq CredentialBinding.marker hbinds (locate_redact_of_binds hbinds hopen)
    (distinct_redact hdistinct) fun binding _ => distinct_marker binding
  unfold persistToolArguments
  rw [persistedArguments_eq, hput]
  rfl

/-- Arguments with the same places and, after redaction, the same rest are persisted alike. -/
theorem persist_congr {other : Json} (hdistinct : other.Distinct) (hbinds : Binds arguments bindings)
    (hopen : ∀ binding ∈ bindings, Open (binding.place arguments))
    (hother : ∀ binding ∈ bindings, other.locate (pointerParts binding.path) = some (binding.place arguments))
    (hrest : other.redact.overlay (bound CredentialBinding.marker arguments bindings) = safeArguments arguments bindings) :
    persistToolArguments other bindings = some (storedArguments arguments bindings) := by
  obtain ⟨hotherBinds, hplaces⟩ := binds_of_locate hbinds hother
  have hsame : safeArguments other bindings = safeArguments arguments bindings := by
    rw [← hrest, safeArguments, bound_congr hplaces]
  rw [persist_eq hdistinct hotherBinds fun binding hmem => hplaces binding hmem ▸ hopen binding hmem]
  unfold storedArguments
  rw [hsame]

/-- Nothing of what is in the bound places is persisted. -/
theorem persist_overlay {values : CredentialBinding → Json} (hdistinct : arguments.Distinct)
    (hbinds : Binds arguments bindings) (hopen : ∀ binding ∈ bindings, Open (binding.place arguments))
    (hvalues : ∀ binding ∈ bindings, (values binding).Distinct) :
    persistToolArguments (arguments.overlay (bound values arguments bindings)) bindings
      = some (storedArguments arguments bindings) := by
  refine persist_congr ?_ hbinds hopen (locate_bound hbinds (locate_of_binds hbinds)) ?_
  · refine distinct_overlay hdistinct fun place new hnew => ?_
    obtain ⟨binding, hmem, -, rfl⟩ := exists_of_bound hnew
    exact hvalues binding hmem
  · refine redact_overlay (fun place hsome => ?_) fun place hsome => ?_
    · exact isSome_bound_iff.mpr (isSome_bound_iff.mp hsome)
    · obtain ⟨binding, hmem, rfl⟩ := isSome_bound_iff.mp hsome
      exact hopen binding hmem

/-- What is persisted is persisted as it is. -/
theorem persist_stored (hdistinct : arguments.Distinct) (hbinds : Binds arguments bindings)
    (hopen : ∀ binding ∈ bindings, Open (binding.place arguments))
    (hagain : arguments.redact.redact = arguments.redact) :
    persistToolArguments (safeArguments arguments bindings) bindings = some (storedArguments arguments bindings) := by
  have hredacted := locate_redact_of_binds hbinds hopen
  refine persist_congr ?_ hbinds hopen (locate_bound hbinds hredacted) ?_
  · refine distinct_overlay (distinct_redact hdistinct) fun place new hnew => ?_
    obtain ⟨binding, -, -, rfl⟩ := exists_of_bound hnew
    exact distinct_marker binding
  · unfold safeArguments
    rw [redact_overlay (fun _ hsome => hsome) fun place hsome => ?_, hagain]
    obtain ⟨binding, hmem, rfl⟩ := isSome_bound_iff.mp hsome
    exact hopen binding hmem

/-- What the values of a resolver make of the persisted arguments. -/
theorem putAll_stored (put : CredentialBinding → Json) (hdistinct : arguments.Distinct)
    (hbinds : Binds arguments bindings) (hopen : ∀ binding ∈ bindings, Open (binding.place arguments))
    (hput : ∀ binding ∈ bindings, (put binding).Distinct) :
    putAll put bindings (safeArguments arguments bindings)
      = some (arguments.redact.overlay (bound put arguments bindings)) := by
  have hredacted := locate_redact_of_binds hbinds hopen
  have hsafe : (safeArguments arguments bindings).Distinct :=
    distinct_overlay (distinct_redact hdistinct) fun place new hnew => by
      obtain ⟨binding, -, -, rfl⟩ := exists_of_bound hnew
      exact distinct_marker binding
  unfold safeArguments at hsafe ⊢
  rw [putAll_eq _ hbinds (locate_bound hbinds hredacted) hsafe hput, overlay_overlay fun place rest hsome hrest => ?_]
  · exact congrArg some (congrArg _ (funext bound_or_bound))
  · obtain ⟨binding, hmem, rfl⟩ := isSome_bound_iff.mp hsome
    refine bound_eq_none_iff.mpr fun other hother heq => ?_
    by_cases hsame : other = binding
    · rw [hsame] at heq
      exact hrest (List.self_eq_append_right.mp heq)
    · exact (hbinds.parted_of_ne hother hmem hsame).2 (heq ▸ List.prefix_append _ _)

end Persisted

/-! ### The round trip -/

section RoundTrip

variable [Alphabet]

local instance credentialBindingsRedactor : Redactor := secretRedactor

/-- The arguments come back with the values of the resolver, unless redaction took something else or a reference is
left. -/
theorem materialize_stored {arguments : Json} {bindings : List CredentialBinding} (resolver : String → String)
    (hdistinct : arguments.Distinct) (hbinds : Binds arguments bindings)
    (hopen : ∀ binding ∈ bindings, Open (binding.place arguments)) :
    ∃ expected value, putAll (fun binding => .str (resolver binding.reference)) bindings arguments = some expected
      ∧ putAll (fun binding => .str (resolver binding.reference)) bindings (storedArguments arguments bindings).arguments
        = some value
      ∧ ((value.Carries ∨ value.Refers) →
        ∃ text, (storedArguments arguments bindings).materialize resolver = .error (.unresolvedToolArgument text))
      ∧ (¬ (value.Carries ∨ value.Refers) → (storedArguments arguments bindings).materialize resolver = .ok expected) := by
  have htexts : ∀ text : String, Redactor.redactText text = text
      ∨ occursIn redactedMark (Redactor.redactText text) = true := SecretRedactor.redactText_eq_or_mark
  have hvalues : ∀ binding ∈ bindings, (Json.str (resolver binding.reference)).Distinct := fun _ _ => True.intro
  have hexpected := putAll_eq (fun binding => .str (resolver binding.reference)) hbinds
    (locate_of_binds hbinds) hdistinct hvalues
  have hvalue := putAll_stored (fun binding => .str (resolver binding.reference)) hdistinct hbinds hopen hvalues
  have hresult : (storedArguments arguments bindings).materialize resolver = _ := materialize_eq hvalue
  refine ⟨_, _, hexpected, hvalue, fun hleft => ?_, fun hclear => ?_⟩
  · cases herror : (arguments.redact.overlay _).assertExecutable with
    | error text => exact ⟨text, by rw [hresult, herror]; rfl⟩
    | ok _ =>
        obtain ⟨hcarries, hrefers⟩ := (assertExecutable_iff _).mp herror
        exact absurd hleft fun hor => hor.elim hcarries hrefers
  · rw [not_or] at hclear
    rw [hresult, (assertExecutable_iff _).mpr hclear, redact_overlay_of_clear htexts hclear.1]
    rfl

/-- Arguments whose bound paths exist, are in none of each other and lead through no sensitive name are persisted, and
what is persisted keeps all of them but the values that are bound and what redaction takes. -/
theorem persisted_keeps {arguments : Json} {bindings : List CredentialBinding} (hdistinct : arguments.Distinct)
    (hbinds : Binds arguments bindings) (hopen : ∀ binding ∈ bindings, Open (binding.place arguments))
    (hreferences : ∀ binding ∈ bindings, startsWith binding.reference "credential://" = true) :
    ∃ stored, persistToolArguments arguments bindings = some stored ∧ stored.Keeps arguments bindings := by
  refine ⟨storedArguments arguments bindings, persist_eq hdistinct hbinds hopen, ?_⟩
  constructor
  · intro place
    exact markedAt_bound hbinds (locate_redact_of_binds hbinds hopen) hreferences
  · intro values other hvalues hother
    rw [putAll_eq _ hbinds (locate_of_binds hbinds) hdistinct hvalues] at hother
    rw [← Option.some.inj hother]
    exact persist_overlay hdistinct hbinds hopen hvalues
  · exact persist_stored hdistinct hbinds hopen (redact_redact arguments)
  · intro resolver
    exact materialize_stored resolver hdistinct hbinds hopen

end RoundTrip

/-! ### Arguments of a login -/

section Login

local instance credentialBindingsAlphabet : Alphabet := ⟨fun _ => false⟩

local instance loginRedactor : Redactor := secretRedactor

/-- `{"password": "hunter2", "user": "ann"}` -/
def loginArguments : Json := .obj [("password", .str "hunter2"), ("user", .str "ann")]

def loginBinding : CredentialBinding where
  path := "/password"
  reference := "credential://login"

theorem login_keeps : ∃ stored, persistToolArguments loginArguments [loginBinding] = some stored
    ∧ stored.Keeps loginArguments [loginBinding] := by
  have hplace : loginBinding.place loginArguments = [.name "password"] := by decide +kernel
  refine persisted_keeps ⟨⟨True.intro, True.intro, True.intro⟩, by decide⟩ ⟨?_, List.pairwise_singleton ..⟩ ?_ ?_
  · rw [List.forall_mem_singleton, hplace]
    exact List.cons_ne_nil _ _
  · rw [List.forall_mem_singleton, hplace]
    intro name hname
    cases hname
  · rw [List.forall_mem_singleton]
    decide

/-- `{"token": {"value": "hunter2"}}` -/
def tokenArguments : Json := .obj [("token", .obj [("value", .str "hunter2")])]

def tokenBinding : CredentialBinding where
  path := "/token/value"
  reference := "credential://token"

/-- `{"access": {"$credential_ref": "credential://token"}}` -/
def referenceArguments : Json := .obj [("access", tokenBinding.marker)]

/-- `{"password": "hunter2", "note": "hunter2"}` -/
def noteArguments : Json := .obj [("password", .str "hunter2"), ("note", .str "hunter2")]

def storedNote : PersistedToolArguments where
  arguments := .obj [("password", loginBinding.marker), ("note", .str "hunter2")]
  credentialBindings := [loginBinding]

theorem referenceArguments_clear : ¬ referenceArguments.Carries := by
  refine (not_carries_iff _).mpr ⟨(fun text heq => nomatch heq), fun step part hpart => ?_⟩
  cases step with
  | index index => cases hpart
  | name name =>
      rw [(Prod.mk.inj (List.mem_singleton.mp hpart)).2]
      refine (not_carries_iff _).mpr ⟨(fun text heq => nomatch heq), fun step part hpart => ?_⟩
      cases step with
      | index index => cases hpart
      | name name =>
          rw [(Prod.mk.inj (List.mem_singleton.mp hpart)).2]
          refine (not_carries_iff _).mpr ⟨fun text heq => ?_, fun step part hpart => hpart.elim⟩
          rw [← Json.str.inj heq]
          decide

/-- A path through a sensitive name exists but is redacted away, a reference that is not bound stays and
raises, and a text that is bound in one place stays in another. -/
theorem round_trip_not_every :
    (Binds tokenArguments [tokenBinding] ∧ persistToolArguments tokenArguments [tokenBinding] = none)
    ∧ (∃ stored, persistToolArguments referenceArguments [] = some stored
      ∧ stored.arguments.MarkedAt [.name "access"] ∧ ¬ stored.arguments.Carries
      ∧ ∀ resolver, ∃ text, stored.materialize resolver = .error (.unresolvedToolArgument text))
    ∧ (∃ stored, Binds noteArguments [loginBinding] ∧ persistToolArguments noteArguments [loginBinding] = some stored
      ∧ Inside (.str "hunter2") stored.arguments) := by
  have htoken : tokenBinding.place tokenArguments = [.name "token", .name "value"] := by decide +kernel
  have hnote : loginBinding.place noteArguments = [.name "password"] := by decide +kernel
  have hstored : persistToolArguments referenceArguments []
      = some { arguments := referenceArguments, credentialBindings := [], redactedPaths := [] } := by decide +kernel
  refine ⟨⟨⟨?_, List.pairwise_singleton ..⟩, by decide +kernel⟩, ⟨_, hstored, ?_, referenceArguments_clear, ?_⟩, ?_⟩
  · rw [List.forall_mem_singleton, htoken]
    exact List.cons_ne_nil _ _
  · exact ⟨tokenBinding.marker, by decide, by decide⟩
  · exact fun resolver => ⟨_, rfl⟩
  · refine ⟨storedNote, ⟨?_, List.pairwise_singleton ..⟩, by decide +kernel, ?_⟩
    · rw [List.forall_mem_singleton, hnote]
      exact List.cons_ne_nil _ _
    · have hnoted : storedNote.arguments.HasPart (.name "note") (.str "hunter2") :=
        List.mem_cons_of_mem _ List.mem_cons_self
      exact .part hnoted .refl

end Login

end PatchLoop
