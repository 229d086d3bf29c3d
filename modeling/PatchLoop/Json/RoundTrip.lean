import PatchLoop.Json.Tokens

/-!
# Values that are read back

A value whose objects have their keys in order and whose floats are written as `repr` writes them is read
back from its text, and every value that is read is of that kind.
-/

namespace PatchLoop

namespace Json

/-! ### Values are read back -/

mutual

/-- `json.dumps(value, ensure_ascii=False)`, with the space after commas and colons -/
def dumpsWith (space : String) : Json → String
  | .null => "null"
  | .bool value => if value then "true" else "false"
  | .int value => toString value
  | .float text => text
  | .str text => quote text
  | .arr items => "[" ++ ("," ++ space).intercalate (dumpsItemsWith space items) ++ "]"
  | .obj fields =>
      "\x7b" ++ ("," ++ space).intercalate (dumpsFieldsWith space fields) ++ "\x7d"

def dumpsItemsWith (space : String) : List Json → List String
  | [] => []
  | item :: rest => dumpsWith space item :: dumpsItemsWith space rest

def dumpsFieldsWith (space : String) : List (String × Json) → List String
  | [] => []
  | (name, value) :: rest =>
      (quote name ++ ":" ++ space ++ dumpsWith space value) :: dumpsFieldsWith space rest

end

mutual

theorem dumpsWith_empty (value : Json) : dumpsWith "" value = dumps value := by
  cases value with
  | null => rfl
  | bool value => rfl
  | int value => rfl
  | float text => rfl
  | str text => rfl
  | arr items => rw [dumpsWith, dumps, dumpsItemsWith_empty, String.append_empty]
  | obj fields => rw [dumpsWith, dumps, dumpsFieldsWith_empty, String.append_empty]

theorem dumpsItemsWith_empty (items : List Json) : dumpsItemsWith "" items = dumpsItems items := by
  cases items with
  | nil => rfl
  | cons item rest => rw [dumpsItemsWith, dumpsItems, dumpsWith_empty, dumpsItemsWith_empty]

theorem dumpsFieldsWith_empty (fields : List (String × Json)) :
    dumpsFieldsWith "" fields = dumpsFields fields := by
  cases fields with
  | nil => rfl
  | cons field rest =>
      rw [dumpsFieldsWith, dumpsFields, dumpsWith_empty, dumpsFieldsWith_empty,
        String.append_empty]

end

section Text

variable {space : String}

/-- The space is skipped. -/
def Blank (space : String) : Prop := ∀ c ∈ space.toList, isSpace c = true

def itemChars (space : String) (items : List Json) : List Char :=
  (("," ++ space).intercalate (dumpsItemsWith space items)).toList

def fieldChars (space : String) (fields : List (String × Json)) : List Char :=
  (("," ++ space).intercalate (dumpsFieldsWith space fields)).toList

theorem quote_toList (text : String) :
    (quote text).toList = '"' :: (text.toList.flatMap escapeChar ++ ['"']) := by
  simp [quote]

theorem dumps_arr (items : List Json) :
    (dumpsWith space (.arr items)).toList = '[' :: (itemChars space items ++ [']']) := by
  simp [dumpsWith, itemChars]

theorem dumps_obj (fields : List (String × Json)) :
    (dumpsWith space (.obj fields)).toList = '\x7b' :: (fieldChars space fields ++ ['\x7d']) := by
  simp [dumpsWith, fieldChars]

theorem itemChars_cons_cons (item other : Json) (rest : List Json) :
    itemChars space (item :: other :: rest) = (dumpsWith space item).toList
      ++ ',' :: (space.toList ++ itemChars space (other :: rest)) := by
  simp [itemChars, dumpsItemsWith, String.intercalate_cons_cons]

theorem itemChars_singleton (item : Json) :
    itemChars space [item] = (dumpsWith space item).toList := by
  simp [itemChars, dumpsItemsWith]

theorem fieldChars_singleton (name : String) (value : Json) :
    fieldChars space [(name, value)]
      = (quote name).toList ++ ':' :: (space.toList ++ (dumpsWith space value).toList) := by
  simp [fieldChars, dumpsFieldsWith]

theorem fieldChars_cons_cons (name : String) (value : Json) (other : String × Json)
    (rest : List (String × Json)) :
    fieldChars space ((name, value) :: other :: rest)
      = (quote name).toList ++ ':' :: (space.toList ++ ((dumpsWith space value).toList
        ++ ',' :: (space.toList ++ fieldChars space (other :: rest)))) := by
  simp [fieldChars, dumpsFieldsWith, String.intercalate_cons_cons]

theorem skipSpace_cons {c : Char} {cs : List Char} (hc : isSpace c = false) :
    skipSpace (c :: cs) = c :: cs := by
  simp [skipSpace, hc]

theorem skipSpace_blank (hblank : Blank space) (cs : List Char) :
    skipSpace (space.toList ++ cs) = skipSpace cs :=
  List.dropWhile_append_of_pos hblank

theorem skipSpace_quote (name : String) (rest : List Char) :
    skipSpace ((quote name).toList ++ rest) = (quote name).toList ++ rest := by
  rw [quote_toList]
  exact skipSpace_cons (by decide)

theorem skipSpace_fields (field : String × Json) (fields : List (String × Json)) (rest : List Char) :
    skipSpace (fieldChars space (field :: fields) ++ rest)
      = fieldChars space (field :: fields) ++ rest := by
  obtain ⟨name, value⟩ := field
  cases fields with
  | nil =>
      rw [fieldChars_singleton, List.append_assoc]
      exact skipSpace_quote name _
  | cons other more =>
      rw [fieldChars_cons_cons, List.append_assoc]
      exact skipSpace_quote name _

theorem afterWord_fields (field : String × Json) (fields : List (String × Json)) (rest : List Char) :
    afterWord ['\x7d'] (fieldChars space (field :: fields) ++ rest) = none := by
  obtain ⟨name, value⟩ := field
  cases fields with
  | nil =>
      rw [fieldChars_singleton, quote_toList]
      rfl
  | cons other more =>
      rw [fieldChars_cons_cons, quote_toList]
      rfl

theorem scanString_quoted (text : String) (rest : List Char) :
    afterWord ['"'] ((quote text).toList ++ rest) = some (text.toList.flatMap escapeChar ++ '"' :: rest)
      ∧ scanString (text.toList.flatMap escapeChar ++ '"' :: rest) = some (text.toList, rest) := by
  refine ⟨?_, scanString_quote _ _⟩
  rw [quote_toList, List.cons_append, List.append_assoc]
  rfl

/-! ### Objects keep their keys in order -/

theorem setField_append {name : String} {value : Json} {fields : List (String × Json)}
    (hlast : ∀ field ∈ fields, field.1 < name) :
    setField name value fields = fields ++ [(name, value)] := by
  induction fields with
  | nil => rfl
  | cons field rest ih =>
      obtain ⟨hfield, hrest⟩ := List.forall_mem_cons.mp hlast
      rw [setField, if_neg (ne_of_gt hfield), if_neg (not_lt_of_gt hfield), ih hrest]
      rfl

/-- A dictionary of pairs that are in order is the list of them. -/
theorem dictOf_eq {pairs : List (String × Json)}
    (hsorted : pairs.Pairwise fun field later => field.1 < later.1) : dictOf pairs = pairs := by
  have hfold : ∀ (rest fields : List (String × Json)),
      (fields ++ rest).Pairwise (fun field later => field.1 < later.1) →
        rest.foldl (fun fields pair => setField pair.1 pair.2 fields) fields = fields ++ rest := by
    intro rest
    induction rest with
    | nil => simp
    | cons pair rest ih =>
        intro fields hsorted
        have hlast : ∀ field ∈ fields, field.1 < pair.1 := fun field hmem =>
          (List.pairwise_append.mp hsorted).2.2 field hmem pair List.mem_cons_self
        rw [List.foldl_cons, setField_append hlast, ih]
        · simp
        · simpa using hsorted
  exact hfold pairs [] hsorted

/-- How a number starts. -/
def StartsNumber (cs : List Char) : Prop :=
  ∃ c rest, cs = c :: rest
    ∧ (c.isDigit = true ∨ c = '-' ∧ ∃ d digits, rest = d :: digits ∧ d.isDigit = true)

theorem head_of_scanNat {digits : List Char} (hscan : scanNat digits = some (digits, [])) :
    ∃ c rest, digits = c :: rest ∧ c.isDigit = true := by
  cases digits with
  | nil => cases hscan
  | cons c cs =>
      refine ⟨c, cs, rfl, ?_⟩
      rw [scanNat] at hscan
      split at hscan
      · rename_i hzero
        rw [hzero]
        decide
      · split at hscan
        · assumption
        · cases hscan

theorem startsNumber_of_scanWhole {whole : List Char} (hscan : scanWhole whole = some (whole, []))
    (rest : List Char) : StartsNumber (whole ++ rest) := by
  cases whole with
  | nil => cases hscan
  | cons c cs =>
      rw [scanWhole] at hscan
      split at hscan
      · rename_i hminus
        obtain ⟨found, hfound, heq⟩ := Option.map_eq_some_iff.mp hscan
        simp only [Prod.mk.injEq, List.cons.injEq, true_and] at heq
        obtain ⟨rfl, hrest⟩ := heq
        have hnat : scanNat found.1 = some (found.1, []) := by rw [hfound, ← hrest]
        obtain ⟨d, digits, hdigits, hd⟩ := head_of_scanNat hnat
        exact ⟨c, found.1 ++ rest, rfl, Or.inr ⟨hminus, d, digits ++ rest, by rw [hdigits]; rfl, hd⟩⟩
      · obtain ⟨d, digits, hdigits, hd⟩ := head_of_scanNat hscan
        cases hdigits
        exact ⟨c, cs ++ rest, rfl, Or.inl hd⟩

theorem scanConstant_number {cs : List Char} (hstarts : StartsNumber cs) : scanConstant cs = none := by
  obtain ⟨c, rest, rfl, hdigit | ⟨rfl, d, digits, rfl, hdigit⟩⟩ := hstarts
  · have hne : ∀ w : Char, w.isDigit = false → w ≠ c := by
      rintro w hw rfl
      rw [hw] at hdigit
      cases hdigit
    simp [scanConstant, constants, afterWord, hne 'n' (by decide), hne 't' (by decide),
      hne 'f' (by decide), hne 'N' (by decide), hne 'I' (by decide), hne '-' (by decide)]
  · have hd : 'I' ≠ d := by
      rintro rfl
      cases hdigit
    simp [scanConstant, constants, afterWord, hd]

/-- Values by what they are made of. -/
theorem induct {motive : Json → Prop} (hnull : motive .null) (hbool : ∀ value, motive (.bool value))
    (hint : ∀ value, motive (.int value)) (hfloat : ∀ text, motive (.float text))
    (hstr : ∀ text, motive (.str text))
    (harr : ∀ items, (∀ item ∈ items, motive item) → motive (.arr items))
    (hobj : ∀ fields, (∀ field ∈ fields, motive field.2) → motive (.obj fields)) (value : Json) :
    motive value := by
  refine @Json.rec motive (fun items => ∀ item ∈ items, motive item)
    (fun fields => ∀ field ∈ fields, motive field.2) (fun field => motive field.2) hnull hbool hint hfloat hstr harr hobj ?_ ?_ ?_ ?_ ?_ value
  · simp
  · exact fun item rest hitem hrest => List.forall_mem_cons.mpr ⟨hitem, hrest⟩
  · simp
  · exact fun field rest hfield hrest => List.forall_mem_cons.mpr ⟨hfield, hrest⟩
  · exact fun name value hvalue => hvalue

section Values

variable [FloatRepr]

mutual

/-- Objects have their keys in order, and floats are written as `repr` writes them. -/
def Normal : Json → Prop
  | .float text =>
      text ∈ ["NaN", "Infinity", "-Infinity"] ∨ FloatRepr.repr text = text
  | .arr items => NormalItems items
  | .obj fields => NormalFields fields ∧ fields.Pairwise fun field later => field.1 < later.1
  | _ => True

def NormalItems : List Json → Prop
  | [] => True
  | item :: rest => item.Normal ∧ NormalItems rest

def NormalFields : List (String × Json) → Prop
  | [] => True
  | (_, value) :: rest => value.Normal ∧ NormalFields rest

end

theorem scanValue_number {fuel : Nat} {cs : List Char} (hstarts : StartsNumber cs) :
    scanValue (fuel + 1) cs = scanNumber cs := by
  have hconstant := scanConstant_number hstarts
  obtain ⟨c, rest, rfl, hc⟩ := hstarts
  have hne : ∀ w : Char, w.isDigit = false → w ≠ '-' → c ≠ w := by
    rintro w hw hminus rfl
    rcases hc with hdigit | ⟨rfl, -⟩
    · rw [hw] at hdigit
      cases hdigit
    · exact hminus rfl
  rw [scanValue, if_neg (hne '"' (by decide) (by decide)), if_neg (hne '[' (by decide) (by decide)),
    if_neg (hne '\x7b' (by decide) (by decide)), hconstant]

theorem scanValue_int (value : Int) {rest : List Char} (hstops : Stops numberChar rest) {fuel : Nat} :
    scanValue (fuel + 1) ((toString value).toList ++ rest) = some (.int value, rest) := by
  have hwhole := scanWhole_toString value
  have hempty : (toString value).toList = (toString value).toList ++ ([] ++ []) := by simp
  rw [scanValue_number (startsNumber_of_scanWhole hwhole rest), hempty,
    scanNumber_append hwhole rfl rfl hstops, intOf_toString]
  rfl

theorem scanValue_float {text : String} (hnormal : (Json.float text).Normal) {rest : List Char}
    (hstops : Stops numberChar rest) {fuel : Nat} :
    scanValue (fuel + 1) (text.toList ++ rest) = some (.float text, rest) := by
  rcases hnormal with hname | hrepr
  · simp only [List.mem_cons, List.not_mem_nil, or_false] at hname
    rcases hname with rfl | rfl | rfl <;> rfl
  · have hfloat := FloatRepr.isFloat text
    rw [hrepr] at hfloat
    obtain rfl | rfl | ⟨whole, fraction, exponent, hliteral, htext⟩ := hfloat
    · rfl
    · rfl
    · have hfloat : ¬ (fraction = [] ∧ exponent = []) := by
        rintro ⟨rfl, rfl⟩
        rcases hliteral.nonempty with hne | hne <;> exact hne rfl
      have hstarts := startsNumber_of_scanWhole hliteral.scansWhole (fraction ++ exponent ++ rest)
      rw [← List.append_assoc, ← htext] at hstarts
      rw [scanValue_number hstarts, htext, scanNumber_append hliteral.scansWhole hliteral.scansFraction
        hliteral.scansExponent hstops, if_neg hfloat, ← htext, String.ofList_toList, hrepr]

/-- A text of a value starts neither with a space nor with a bracket that closes. -/
theorem head_dumps {value : Json} (hnormal : value.Normal) :
    ∃ c cs, (dumpsWith space value).toList = c :: cs ∧ isSpace c = false ∧ c ≠ ']' := by
  have hnumber : ∀ {cs}, StartsNumber cs → ∃ c rest, cs = c :: rest ∧ isSpace c = false ∧ c ≠ ']' := by
    rintro cs ⟨c, rest, rfl, hc⟩
    have hne : ∀ w : Char, w.isDigit = false → w ≠ '-' → c ≠ w := by
      rintro w hw hminus rfl
      rcases hc with hdigit | ⟨rfl, -⟩
      · rw [hw] at hdigit
        cases hdigit
      · exact hminus rfl
    refine ⟨c, rest, rfl, ?_, hne ']' (by decide) (by decide)⟩
    simp [isSpace, hne ' ' (by decide) (by decide), hne '\t' (by decide) (by decide),
      hne '\n' (by decide) (by decide), hne '\r' (by decide) (by decide)]
  cases value with
  | null =>
      rw [dumpsWith]
      exact ⟨'n', _, rfl, by decide, by decide⟩
  | bool value =>
      rw [dumpsWith]
      cases value with
      | false => exact ⟨'f', _, rfl, by decide, by decide⟩
      | true => exact ⟨'t', _, rfl, by decide, by decide⟩
  | int value =>
      rw [dumpsWith]
      have hstarts := startsNumber_of_scanWhole (scanWhole_toString value) []
      rw [List.append_nil] at hstarts
      exact hnumber hstarts
  | float text =>
      rw [dumpsWith]
      rcases hnormal with hname | hrepr
      · simp only [List.mem_cons, List.not_mem_nil, or_false] at hname
        rcases hname with rfl | rfl | rfl
        · exact ⟨'N', _, rfl, by decide, by decide⟩
        · exact ⟨'I', _, rfl, by decide, by decide⟩
        · exact ⟨'-', _, rfl, by decide, by decide⟩
      · have hfloat := FloatRepr.isFloat text
        rw [hrepr] at hfloat
        obtain rfl | rfl | ⟨whole, fraction, exponent, hliteral, htext⟩ := hfloat
        · exact ⟨'I', _, rfl, by decide, by decide⟩
        · exact ⟨'-', _, rfl, by decide, by decide⟩
        · have hstarts := startsNumber_of_scanWhole hliteral.scansWhole (fraction ++ exponent)
          rw [← htext] at hstarts
          exact hnumber hstarts
  | str text => exact ⟨'"', _, quote_toList text, by decide, by decide⟩
  | arr items => exact ⟨'[', _, dumps_arr items, by decide, by decide⟩
  | obj fields => exact ⟨'\x7b', _, dumps_obj fields, by decide, by decide⟩

theorem skipSpace_dumps {value : Json} (hnormal : value.Normal) (rest : List Char) :
    skipSpace ((dumpsWith space value).toList ++ rest)
      = (dumpsWith space value).toList ++ rest := by
  obtain ⟨c, cs, htext, hspace, -⟩ := head_dumps hnormal
  rw [htext]
  exact skipSpace_cons hspace

theorem skipSpace_items {item : Json} (hnormal : item.Normal) (items : List Json) (rest : List Char) :
    skipSpace (itemChars space (item :: items) ++ rest)
      = itemChars space (item :: items) ++ rest := by
  cases items with
  | nil =>
      rw [itemChars_singleton]
      exact skipSpace_dumps hnormal rest
  | cons other more =>
      rw [itemChars_cons_cons, List.append_assoc]
      exact skipSpace_dumps hnormal _

theorem afterWord_items {item : Json} (hnormal : item.Normal) (items : List Json)
    (rest : List Char) : afterWord [']'] (itemChars space (item :: items) ++ rest) = none := by
  obtain ⟨c, cs, htext, -, hclose⟩ := head_dumps hnormal
  have hhead : ∃ more, itemChars space (item :: items) ++ rest = c :: more := by
    cases items with
    | nil =>
        exact ⟨cs ++ rest, by rw [itemChars_singleton, htext]; rfl⟩
    | cons other more => exact ⟨_, by rw [itemChars_cons_cons, htext]; rfl⟩
  obtain ⟨more, hmore⟩ := hhead
  rw [hmore, afterWord, if_neg (Ne.symm hclose)]

theorem length_dumps_pos {value : Json} (hnormal : value.Normal) :
    0 < (dumpsWith space value).toList.length := by
  obtain ⟨c, cs, htext, -, -⟩ := head_dumps hnormal
  rw [htext]
  exact Nat.succ_pos _

/-- What a reader of values has to do with the text of a value. -/
def ReadBack (space : String) (value : Json) : Prop :=
  ∀ rest, Stops numberChar rest → ∀ fuel, (dumpsWith space value).toList.length ≤ fuel →
    scanValue fuel ((dumpsWith space value).toList ++ rest) = some (value, rest)

theorem ReadBack.of_succ {value : Json} (hnormal : value.Normal)
    (hread : ∀ rest, Stops numberChar rest →
      ∀ fuel, (dumpsWith space value).toList.length ≤ fuel + 1 →
        scanValue (fuel + 1) ((dumpsWith space value).toList ++ rest) = some (value, rest)) :
    ReadBack space value := by
  intro rest hstops fuel hfuel
  cases fuel with
  | zero => exact absurd hfuel (Nat.not_le_of_gt (length_dumps_pos hnormal))
  | succ fuel => exact hread rest hstops fuel hfuel

theorem scanItems_dumps (hblank : Blank space) {items : List Json} (hread : ∀ item ∈ items, ReadBack space item)
    (hnormal : ∀ item ∈ items, item.Normal) (hitems : items ≠ []) (rest : List Char) (fuel : Nat)
    (hfuel : (itemChars space items).length + 1 ≤ fuel) :
    scanItems fuel (itemChars space items ++ ']' :: rest) = some (items, rest) := by
  induction items generalizing fuel with
  | nil => exact absurd rfl hitems
  | cons item items ih =>
      obtain ⟨fuel, rfl⟩ := Nat.exists_eq_succ_of_ne_zero (Nat.ne_of_gt (Nat.lt_of_lt_of_le
        (Nat.succ_pos _) hfuel))
      obtain ⟨hitem, hrest⟩ := List.forall_mem_cons.mp hread
      obtain ⟨-, hmore⟩ := List.forall_mem_cons.mp hnormal
      cases items with
      | nil =>
          rw [itemChars_singleton] at hfuel ⊢
          rw [scanItems, hitem _ (stops_cons (by decide)) _ (Nat.le_of_succ_le_succ hfuel)]
          rfl
      | cons other more =>
          rw [itemChars_cons_cons] at hfuel ⊢
          rw [List.length_append, List.length_cons, List.length_append] at hfuel
          have hlater := ih hrest hmore (List.cons_ne_nil _ _) fuel (by omega)
          rw [List.append_assoc, List.cons_append, List.append_assoc, scanItems,
            hitem _ (stops_cons (by decide)) _ (by omega)]
          simp only [Option.bind_eq_bind, Option.bind_some, skipSpace_cons (show isSpace ',' = false by decide),
            if_neg (show ',' ≠ ']' by decide), if_true, skipSpace_blank hblank,
            skipSpace_items (hmore other List.mem_cons_self), hlater]
          rfl

theorem scanFields_dumps (hblank : Blank space) {fields : List (String × Json)}
    (hread : ∀ field ∈ fields, ReadBack space field.2)
    (hnormal : ∀ field ∈ fields, field.2.Normal) (hfields : fields ≠ []) (rest : List Char) (fuel : Nat)
    (hfuel : (fieldChars space fields).length + 1 ≤ fuel) :
    scanFields fuel (fieldChars space fields ++ '\x7d' :: rest) = some (fields, rest) := by
  induction fields generalizing fuel with
  | nil => exact absurd rfl hfields
  | cons field fields ih =>
      obtain ⟨fuel, rfl⟩ := Nat.exists_eq_succ_of_ne_zero (Nat.ne_of_gt (Nat.lt_of_lt_of_le
        (Nat.succ_pos _) hfuel))
      obtain ⟨hfield, hrest⟩ := List.forall_mem_cons.mp hread
      obtain ⟨hvalue, hmore⟩ := List.forall_mem_cons.mp hnormal
      obtain ⟨name, value⟩ := field
      change ReadBack space value at hfield
      cases fields with
      | nil =>
          rw [fieldChars_singleton] at hfuel ⊢
          rw [List.length_append, List.length_cons, List.length_append] at hfuel
          rw [List.append_assoc, List.cons_append, List.append_assoc, scanFields]
          simp only [scanString_quoted, Option.bind_eq_bind, Option.bind_some,
            skipSpace_cons (show isSpace ':' = false by decide), afterWord, if_true,
            skipSpace_blank hblank]
          rw [skipSpace_dumps hvalue, hfield _ (stops_cons (by decide)) _ (by omega)]
          simp only [Option.bind_some, skipSpace_cons (show isSpace '\x7d' = false by decide), if_true,
            String.ofList_toList]
          rfl
      | cons other more =>
          rw [fieldChars_cons_cons] at hfuel ⊢
          rw [List.length_append, List.length_cons, List.length_append, List.length_append,
            List.length_cons, List.length_append] at hfuel
          have hlater := ih hrest hmore (List.cons_ne_nil _ _) fuel (by omega)
          rw [List.append_assoc, List.cons_append, List.append_assoc, List.append_assoc,
            List.cons_append, List.append_assoc, scanFields]
          simp only [scanString_quoted, Option.bind_eq_bind, Option.bind_some,
            skipSpace_cons (show isSpace ':' = false by decide), afterWord, if_true,
            skipSpace_blank hblank]
          rw [skipSpace_dumps hvalue, hfield _ (stops_cons (by decide)) _ (by omega)]
          simp only [Option.bind_some, skipSpace_cons (show isSpace ',' = false by decide),
            if_neg (show ',' ≠ '\x7d' by decide), if_true, skipSpace_blank hblank, skipSpace_fields,
            hlater,
            String.ofList_toList]
          rfl

theorem normalItems_iff {items : List Json} : NormalItems items ↔ ∀ item ∈ items, item.Normal := by
  induction items with
  | nil => simp [NormalItems]
  | cons item rest ih => rw [NormalItems, ih, List.forall_mem_cons]

theorem normalFields_iff {fields : List (String × Json)} :
    NormalFields fields ↔ ∀ field ∈ fields, field.2.Normal := by
  induction fields with
  | nil => simp [NormalFields]
  | cons field rest ih => rw [NormalFields, ih, List.forall_mem_cons]

/-- A value is read back from its text, whatever follows that does not go on with a number. -/
theorem readBack (hblank : Blank space) (value : Json) : value.Normal → ReadBack space value := by
  induction value using Json.induct with
  | hnull =>
      intro hnormal
      refine .of_succ hnormal fun rest hstops fuel hfuel => ?_
      rw [dumpsWith]
      rfl
  | hbool value =>
      intro hnormal
      refine .of_succ hnormal fun rest hstops fuel hfuel => ?_
      rw [dumpsWith]
      cases value <;> rfl
  | hint value =>
      intro hnormal
      refine .of_succ hnormal fun rest hstops fuel hfuel => ?_
      exact scanValue_int value hstops
  | hfloat text =>
      intro hnormal
      refine .of_succ hnormal fun rest hstops fuel hfuel => ?_
      exact scanValue_float hnormal hstops
  | hstr text =>
      intro hnormal
      refine .of_succ hnormal fun rest hstops fuel hfuel => ?_
      rw [dumpsWith, quote_toList, List.cons_append, List.append_assoc, scanValue, if_pos rfl,
        List.singleton_append, scanString_quote]
      exact congrArg (fun text => some (Json.str text, rest)) String.ofList_toList
  | harr items ih =>
      intro hnormal
      refine .of_succ hnormal fun rest hstops fuel hfuel => ?_
      cases items with
      | nil =>
          rw [dumps_arr]
          rfl
      | cons item items =>
          rw [dumps_arr] at hfuel ⊢
          have hitems := normalItems_iff.mp hnormal
          have hscan := scanItems_dumps hblank (fun item hmem => ih item hmem (hitems item hmem)) hitems
            (List.cons_ne_nil _ _) rest fuel (by simpa using hfuel)
          rw [List.cons_append, List.append_assoc, List.singleton_append, scanValue,
            if_neg (by decide), if_pos rfl, skipSpace_items (hitems item List.mem_cons_self),
            afterWord_items (hitems item List.mem_cons_self), hscan]
          rfl
  | hobj fields ih =>
      intro hnormal
      refine .of_succ hnormal fun rest hstops fuel hfuel => ?_
      cases fields with
      | nil =>
          rw [dumps_obj]
          rfl
      | cons field fields =>
          rw [dumps_obj] at hfuel ⊢
          have hfields := normalFields_iff.mp hnormal.1
          have hscan := scanFields_dumps hblank (fun field hmem => ih field hmem (hfields field hmem)) hfields
            (List.cons_ne_nil _ _) rest fuel (by simpa using hfuel)
          rw [List.cons_append, List.append_assoc, List.singleton_append, scanValue,
            if_neg (by decide), if_neg (by decide), if_pos rfl, skipSpace_fields, afterWord_fields,
            hscan]
          exact congrArg (fun fields => some (Json.obj fields, rest)) (dictOf_eq hnormal.2)

/-- `json.loads(json.dumps(value)) == value` -/
theorem loads_dumpsWith (hblank : Blank space) {value : Json} (hnormal : value.Normal) :
    loads (dumpsWith space value) = some value := by
  have hspace : skipSpace ((dumpsWith space value).toList ++ []) = _ := skipSpace_dumps hnormal []
  have hread := readBack hblank value hnormal [] (by simp [Stops]) _ (Nat.le_refl _)
  rw [List.append_nil] at hspace hread
  rw [loads, hspace]
  simp only [hread, Option.bind_eq_bind, Option.bind_some]
  rfl

theorem loads_dumps {value : Json} (hnormal : value.Normal) : loads value.dumps = some value := by
  have hblank : Blank "" := fun c hmem => absurd hmem List.not_mem_nil
  rw [← dumpsWith_empty]
  exact loads_dumpsWith hblank hnormal


/-! ### What is read is normal -/

omit [FloatRepr] in
theorem mem_setField {name : String} {value : Json} {fields : List (String × Json)}
    {field : String × Json} (hmem : field ∈ setField name value fields) :
    field = (name, value) ∨ field ∈ fields := by
  induction fields with
  | nil => exact Or.inl (List.mem_singleton.mp hmem)
  | cons other rest ih =>
      rw [setField] at hmem
      split at hmem
      · rcases List.mem_cons.mp hmem with heq | hmem
        · exact Or.inl heq
        · exact Or.inr (List.mem_cons_of_mem _ hmem)
      · split at hmem
        · exact List.mem_cons.mp hmem
        · rcases List.mem_cons.mp hmem with rfl | hmem
          · exact Or.inr List.mem_cons_self
          · exact (ih hmem).imp_right (List.mem_cons_of_mem _)

omit [FloatRepr] in
theorem setField_sorted {name : String} {value : Json} {fields : List (String × Json)}
    (hsorted : fields.Pairwise fun field later => field.1 < later.1) :
    (setField name value fields).Pairwise fun field later => field.1 < later.1 := by
  induction fields with
  | nil => exact List.pairwise_singleton _ _
  | cons other rest ih =>
      obtain ⟨hfirst, hrest⟩ := List.pairwise_cons.mp hsorted
      rw [setField]
      split
      · rename_i hname
        refine List.pairwise_cons.mpr ⟨fun field hmem => ?_, hrest⟩
        rw [show name = other.1 from hname]
        exact hfirst field hmem
      · rename_i hname
        split
        · rename_i hlt
          refine List.pairwise_cons.mpr ⟨fun field hmem => ?_, hsorted⟩
          rcases List.mem_cons.mp hmem with rfl | hmem
          · exact hlt
          · exact lt_trans hlt (hfirst field hmem)
        · rename_i hge
          refine List.pairwise_cons.mpr ⟨fun field hmem => ?_, ih hrest⟩
          rcases mem_setField hmem with rfl | hmem
          · exact lt_of_le_of_ne (le_of_not_gt hge) (Ne.symm hname)
          · exact hfirst field hmem

theorem dictOf_normal {pairs : List (String × Json)} (hnormal : ∀ pair ∈ pairs, pair.2.Normal) :
    (Json.obj (dictOf pairs)).Normal := by
  have hfold : ∀ (pairs fields : List (String × Json)), (∀ pair ∈ pairs, pair.2.Normal) →
      (Json.obj fields).Normal →
        (Json.obj (pairs.foldl (fun fields pair => setField pair.1 pair.2 fields) fields)).Normal := by
    intro pairs
    induction pairs with
    | nil => exact fun fields _ hfields => hfields
    | cons pair rest ih =>
        intro fields hpairs hfields
        obtain ⟨hpair, hrest⟩ := List.forall_mem_cons.mp hpairs
        refine ih _ hrest ⟨normalFields_iff.mpr fun field hmem => ?_, setField_sorted hfields.2⟩
        rcases mem_setField hmem with rfl | hmem
        · exact hpair
        · exact normalFields_iff.mp hfields.1 field hmem
  exact hfold pairs [] hnormal ⟨trivial, List.Pairwise.nil⟩

theorem scanConstant_normal {cs : List Char} {found : Json × List Char}
    (hscan : scanConstant cs = some found) : found.1.Normal := by
  obtain ⟨word, hword, hfound⟩ := List.exists_of_findSome?_eq_some hscan
  obtain ⟨rest, -, rfl⟩ := Option.map_eq_some_iff.mp hfound
  simp only [constants, List.mem_cons, List.not_mem_nil, or_false] at hword
  rcases hword with rfl | rfl | rfl | rfl | rfl | rfl
  · exact trivial
  · exact trivial
  · exact trivial
  · exact Or.inl (by simp)
  · exact Or.inl (by simp)
  · exact Or.inl (by simp)

theorem scanNumber_normal {cs : List Char} {found : Json × List Char}
    (hscan : scanNumber cs = some found) : found.1.Normal := by
  rw [scanNumber] at hscan
  obtain ⟨⟨whole, rest⟩, -, hscan⟩ := Option.bind_eq_some_iff.mp hscan
  dsimp only at hscan
  split at hscan
  · cases hscan
    exact trivial
  · cases hscan
    exact Or.inr (FloatRepr.repr_repr _)

/-- What a scanner finds with this much fuel is normal. -/
theorem scan_normal (fuel : Nat) :
    (∀ cs found, scanValue fuel cs = some found → found.1.Normal)
      ∧ (∀ cs found, scanItems fuel cs = some found → ∀ item ∈ found.1, item.Normal)
      ∧ ∀ cs found, scanFields fuel cs = some found → ∀ pair ∈ found.1, pair.2.Normal := by
  induction fuel with
  | zero =>
      refine ⟨?_, ?_, ?_⟩
      · intro cs found hscan
        rw [scanValue] at hscan
        cases hscan
      · intro cs found hscan
        rw [scanItems] at hscan
        cases hscan
      · intro cs found hscan
        rw [scanFields] at hscan
        cases hscan
  | succ fuel ih =>
      obtain ⟨ihvalue, ihitems, ihfields⟩ := ih
      refine ⟨?_, ?_, ?_⟩
      · intro cs found hscan
        cases cs with
        | nil =>
            rw [scanValue] at hscan
            · cases hscan
            · simp
        | cons c cs =>
            rw [scanValue] at hscan
            split at hscan
            · obtain ⟨text, -, rfl⟩ := Option.map_eq_some_iff.mp hscan
              exact trivial
            split at hscan
            · split at hscan
              · cases hscan
                exact trivial
              · obtain ⟨items, hitems, rfl⟩ := Option.map_eq_some_iff.mp hscan
                exact normalItems_iff.mpr (ihitems _ _ hitems)
            split at hscan
            · split at hscan
              · cases hscan
                exact ⟨trivial, List.Pairwise.nil⟩
              · obtain ⟨pairs, hpairs, rfl⟩ := Option.map_eq_some_iff.mp hscan
                exact dictOf_normal (ihfields _ _ hpairs)
            split at hscan
            · rename_i hconstant
              cases hscan
              exact scanConstant_normal hconstant
            · exact scanNumber_normal hscan
      · intro cs found hscan
        rw [scanItems] at hscan
        obtain ⟨⟨item, rest⟩, hitem, hscan⟩ := Option.bind_eq_some_iff.mp hscan
        dsimp only at hscan
        have hnormal : item.Normal := ihvalue _ _ hitem
        split at hscan
        · cases hscan
        split at hscan
        · cases hscan
          exact List.forall_mem_cons.mpr ⟨hnormal, by simp⟩
        split at hscan
        · obtain ⟨⟨items, rest'⟩, hitems, hscan⟩ := Option.bind_eq_some_iff.mp hscan
          cases hscan
          exact List.forall_mem_cons.mpr ⟨hnormal, ihitems _ _ hitems⟩
        · cases hscan
      · intro cs found hscan
        rw [scanFields] at hscan
        obtain ⟨start, -, hscan⟩ := Option.bind_eq_some_iff.mp hscan
        obtain ⟨⟨name, rest⟩, -, hscan⟩ := Option.bind_eq_some_iff.mp hscan
        obtain ⟨afterColon, -, hscan⟩ := Option.bind_eq_some_iff.mp hscan
        obtain ⟨⟨value, rest'⟩, hvalue, hscan⟩ := Option.bind_eq_some_iff.mp hscan
        dsimp only at hscan
        have hnormal : value.Normal := ihvalue _ _ hvalue
        split at hscan
        · cases hscan
        split at hscan
        · cases hscan
          exact List.forall_mem_cons.mpr ⟨hnormal, by simp⟩
        split at hscan
        · obtain ⟨⟨pairs, rest⟩, hpairs, hscan⟩ := Option.bind_eq_some_iff.mp hscan
          cases hscan
          exact List.forall_mem_cons.mpr ⟨hnormal, ihfields _ _ hpairs⟩
        · cases hscan

theorem loads_normal {text : String} {value : Json} (hloads : loads text = some value) :
    value.Normal := by
  rw [loads] at hloads
  obtain ⟨⟨found, rest⟩, hfound, hloads⟩ := Option.bind_eq_some_iff.mp hloads
  dsimp only at hloads
  split at hloads
  · cases hloads
    exact (scan_normal _).1 _ _ hfound
  · cases hloads

end Values

end Text

end Json

end PatchLoop
