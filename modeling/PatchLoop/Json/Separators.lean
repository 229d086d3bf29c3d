import PatchLoop.Json.RoundTrip
import PatchLoop.Lines

/-!
# Separators in the text of a value

`json.dumps` escapes the control characters of a text, and with `ensure_ascii=False` nothing above them. So
of the characters that end a line just three may be in the text of a value, where a name or a text of the
value holds them.
-/

namespace PatchLoop

namespace Json

/-- The characters that end a line and are not escaped. -/
def separators : List Char := ['\u0085', '\u2028', '\u2029']

mutual

/-- The names and the texts in a value. -/
def texts : Json → List String
  | .str text => [text]
  | .arr items => itemTexts items
  | .obj fields => fieldTexts fields
  | .null | .bool _ | .int _ | .float _ => []

def itemTexts : List Json → List String
  | [] => []
  | item :: rest => texts item ++ itemTexts rest

def fieldTexts : List (String × Json) → List String
  | [] => []
  | (name, value) :: rest => name :: (texts value ++ fieldTexts rest)

end

/-! ### Numbers -/

/-- A character of a number. -/
def literalChar (c : Char) : Bool := c.isDigit || c ∈ ['-', '+', '.', 'e', 'E']

theorem literalChar_digit {c : Char} (hdigit : c.isDigit = true) : literalChar c = true := by
  simp [literalChar, hdigit]

theorem not_lineBreak_literal {c : Char} (hliteral : literalChar c = true) : isLineBreak c = false := by
  cases hbreak : isLineBreak c with
  | false => rfl
  | true =>
      simp only [isLineBreak, List.mem_cons, List.not_mem_nil, or_false, decide_eq_true_eq] at hbreak
      rcases hbreak with rfl | rfl | rfl | rfl | rfl | rfl | rfl | rfl | rfl | rfl <;> cases hliteral

theorem scanDigits_literal (cs : List Char) : ∀ c ∈ (scanDigits cs).1, literalChar c = true := by
  induction cs with
  | nil => exact fun c hc => absurd hc List.not_mem_nil
  | cons d cs ih =>
      rw [scanDigits]
      split
      · rename_i hdigit
        exact List.forall_mem_cons.mpr ⟨literalChar_digit hdigit, ih⟩
      · exact fun c hc => absurd hc List.not_mem_nil

theorem scanNat_literal {cs digits rest : List Char} (hscan : scanNat cs = some (digits, rest)) :
    ∀ c ∈ digits, literalChar c = true := by
  cases cs with
  | nil => cases hscan
  | cons d cs =>
      rw [scanNat] at hscan
      split at hscan
      · rename_i hzero
        cases hscan
        rw [List.forall_mem_singleton, hzero]
        rfl
      · split at hscan
        · rename_i hdigit
          cases hscan
          exact List.forall_mem_cons.mpr ⟨literalChar_digit hdigit, scanDigits_literal cs⟩
        · cases hscan

theorem scanWhole_literal {cs digits rest : List Char} (hscan : scanWhole cs = some (digits, rest)) :
    ∀ c ∈ digits, literalChar c = true := by
  cases cs with
  | nil => cases hscan
  | cons d cs =>
      rw [scanWhole] at hscan
      split at hscan
      · rename_i hminus
        obtain ⟨⟨found, other⟩, hfound, heq⟩ := Option.map_eq_some_iff.mp hscan
        cases heq
        refine List.forall_mem_cons.mpr ⟨?_, scanNat_literal hfound⟩
        rw [hminus]
        rfl
      · exact scanNat_literal hscan

theorem scanFraction_literal (cs : List Char) : ∀ c ∈ (scanFraction cs).1, literalChar c = true := by
  cases cs with
  | nil => exact fun c hc => absurd hc List.not_mem_nil
  | cons d cs =>
      rw [scanFraction]
      split
      · rename_i hpoint
        have hdigits := scanDigits_literal cs
        split
        · exact fun c hc => absurd hc List.not_mem_nil
        · rename_i digits rest hne hscan
          rw [hscan] at hdigits
          refine List.forall_mem_cons.mpr ⟨?_, hdigits⟩
          rw [hpoint]
          rfl
      · exact fun c hc => absurd hc List.not_mem_nil

theorem scanSign_literal (cs : List Char) : ∀ c ∈ (scanSign cs).1, literalChar c = true := by
  cases cs with
  | nil => exact fun c hc => absurd hc List.not_mem_nil
  | cons d cs =>
      rw [scanSign]
      split
      · rename_i hsign
        rw [List.forall_mem_singleton]
        rcases hsign with rfl | rfl <;> rfl
      · exact fun c hc => absurd hc List.not_mem_nil

theorem scanExponent_literal (cs : List Char) : ∀ c ∈ (scanExponent cs).1, literalChar c = true := by
  cases cs with
  | nil => exact fun c hc => absurd hc List.not_mem_nil
  | cons d cs =>
      rw [scanExponent]
      split
      · rename_i hmark
        dsimp only
        have hsign := scanSign_literal cs
        have hdigits := scanDigits_literal (scanSign cs).2
        split
        · exact fun c hc => absurd hc List.not_mem_nil
        · rename_i digits rest hne hscan
          rw [hscan] at hdigits
          refine List.forall_mem_cons.mpr ⟨?_, List.forall_mem_append.mpr ⟨hsign, hdigits⟩⟩
          rcases hmark with rfl | rfl <;> rfl
      · exact fun c hc => absurd hc List.not_mem_nil

theorem FloatLiteral.literal {whole fraction exponent : List Char}
    (hliteral : FloatLiteral whole fraction exponent) :
    ∀ c ∈ whole ++ (fraction ++ exponent), literalChar c = true := by
  have hfraction := scanFraction_literal fraction
  have hexponent := scanExponent_literal exponent
  rw [hliteral.scansFraction] at hfraction
  rw [hliteral.scansExponent] at hexponent
  exact List.forall_mem_append.mpr ⟨scanWhole_literal hliteral.scansWhole,
    List.forall_mem_append.mpr ⟨hfraction, hexponent⟩⟩

theorem float_unbroken [FloatRepr] {text : String} (hnormal : (Json.float text).Normal) :
    ∀ c ∈ text.toList, isLineBreak c = false := by
  rcases hnormal with hname | hrepr
  · simp only [List.mem_cons, List.not_mem_nil, or_false] at hname
    rcases hname with rfl | rfl | rfl <;> exact not_lineBreak rfl
  · have hfloat := FloatRepr.isFloat text
    rw [hrepr] at hfloat
    obtain rfl | rfl | ⟨whole, fraction, exponent, hliteral, htext⟩ := hfloat
    · exact not_lineBreak rfl
    · exact not_lineBreak rfl
    · intro c hc
      rw [htext] at hc
      exact not_lineBreak_literal (hliteral.literal c hc)

theorem int_unbroken (value : Int) : ∀ c ∈ (toString value).toList, isLineBreak c = false := fun c hc =>
  not_lineBreak_literal (scanWhole_literal (scanWhole_toString value) c hc)

/-! ### Texts -/

theorem hexDigit_unbroken (n : Nat) : isLineBreak (hexDigit n) = false := by
  have hdigits : ∀ c ∈ "0123456789abcdef".toList, isLineBreak c = false := not_lineBreak rfl
  rw [hexDigit, List.getD_eq_getElem?_getD]
  cases hfound : "0123456789abcdef".toList[n]? with
  | none => decide
  | some c => exact hdigits c (List.mem_of_getElem? hfound)

/-- A character that is escaped is no separator, and there is none in what it is escaped to. -/
theorem escapeChar_cases (d : Char) :
    escapeChar d = [d] ∧ 32 ≤ d.toNat
      ∨ d ∉ separators ∧ ∀ c ∈ escapeChar d, isLineBreak c = false := by
  have hlow : d.toNat < 32 → d ∉ separators := by
    intro hlow hmem
    simp only [separators, List.mem_cons, List.not_mem_nil, or_false] at hmem
    rcases hmem with rfl | rfl | rfl <;> exact absurd hlow (by decide)
  rw [escapeChar]
  split
  · rename_i hd
    exact Or.inr ⟨by rw [hd]; decide, not_lineBreak rfl⟩
  split
  · rename_i hd
    exact Or.inr ⟨by rw [hd]; decide, not_lineBreak rfl⟩
  split
  · rename_i hd
    exact Or.inr ⟨by rw [hd]; decide, not_lineBreak rfl⟩
  split
  · rename_i hd
    exact Or.inr ⟨by rw [hd]; decide, not_lineBreak rfl⟩
  split
  · rename_i hd
    exact Or.inr ⟨by rw [hd]; decide, not_lineBreak rfl⟩
  split
  · rename_i hd
    exact Or.inr ⟨hlow (by omega), not_lineBreak rfl⟩
  split
  · rename_i hd
    exact Or.inr ⟨hlow (by omega), not_lineBreak rfl⟩
  split
  · rename_i hd
    refine Or.inr ⟨hlow hd, ?_⟩
    have hstart : ∀ c ∈ ['\\', 'u', '0', '0'], isLineBreak c = false := not_lineBreak rfl
    have hcode : ∀ c ∈ [hexDigit (d.toNat / 16), hexDigit (d.toNat % 16)], isLineBreak c = false :=
      List.forall_mem_cons.mpr ⟨hexDigit_unbroken _, List.forall_mem_singleton.mpr (hexDigit_unbroken _)⟩
    exact List.forall_mem_append.mpr ⟨hstart, hcode⟩
  · rename_i hd
    exact Or.inl ⟨rfl, Nat.le_of_not_lt hd⟩

theorem mem_separators {c : Char} (hbreak : isLineBreak c = true) (hhigh : 32 ≤ c.toNat) :
    c ∈ separators := by
  simp only [isLineBreak, List.mem_cons, List.not_mem_nil, or_false, decide_eq_true_eq] at hbreak
  rcases hbreak with rfl | rfl | rfl | rfl | rfl | rfl | rfl | rfl | rfl | rfl <;>
    first | decide | exact absurd hhigh (by decide)

theorem lineBreak_mem_quote {c : Char} (hbreak : isLineBreak c = true) (text : String) :
    c ∈ (quote text).toList ↔ c ∈ text.toList ∧ c ∈ separators := by
  have hmark : c ≠ '"' := by
    rintro rfl
    cases hbreak
  rw [quote_toList, List.mem_cons, List.mem_append, List.mem_singleton, List.mem_flatMap]
  constructor
  · rintro (hquote | ⟨d, hd, hc⟩ | hquote)
    · exact absurd hquote hmark
    · rcases escapeChar_cases d with ⟨hsame, hhigh⟩ | ⟨-, hunbroken⟩
      · rw [hsame, List.mem_singleton] at hc
        rw [hc] at hbreak ⊢
        exact ⟨hd, mem_separators hbreak hhigh⟩
      · rw [hunbroken c hc] at hbreak
        cases hbreak
    · exact absurd hquote hmark
  · rintro ⟨hc, hseparator⟩
    rcases escapeChar_cases c with ⟨hsame, -⟩ | ⟨hother, -⟩
    · exact Or.inr (Or.inl ⟨c, hc, by rw [hsame]; exact List.mem_singleton_self c⟩)
    · exact absurd hseparator hother

/-! ### Values -/

section Values

variable [FloatRepr] {space : String}

omit [FloatRepr] in
theorem mem_itemTexts {items : List Json} {text : String} :
    text ∈ itemTexts items ↔ ∃ item ∈ items, text ∈ item.texts := by
  induction items with
  | nil => simp [itemTexts]
  | cons item rest ih => simp [itemTexts, ih]

omit [FloatRepr] in
theorem mem_fieldTexts {fields : List (String × Json)} {text : String} :
    text ∈ fieldTexts fields ↔ ∃ field ∈ fields, text = field.1 ∨ text ∈ field.2.texts := by
  induction fields with
  | nil => simp [fieldTexts]
  | cons field rest ih =>
      simp only [fieldTexts, List.mem_cons, List.mem_append, ih, exists_eq_or_imp, or_assoc]

omit [FloatRepr] in
theorem mem_itemChars {c : Char} (hspace : c ∉ space.toList) (hcomma : c ≠ ',') {items : List Json} :
    c ∈ itemChars space items ↔ ∃ item ∈ items, c ∈ (dumpsWith space item).toList := by
  induction items with
  | nil => simp [itemChars, dumpsItemsWith]
  | cons item rest ih =>
      cases rest with
      | nil => simp [itemChars_singleton]
      | cons other more =>
          rw [itemChars_cons_cons, List.mem_append, List.mem_cons, List.mem_append, ih]
          simp [hspace, hcomma]

omit [FloatRepr] in
theorem mem_fieldChars {c : Char} (hspace : c ∉ space.toList) (hcomma : c ≠ ',') (hcolon : c ≠ ':')
    {fields : List (String × Json)} :
    c ∈ fieldChars space fields
      ↔ ∃ field ∈ fields, c ∈ (quote field.1).toList ∨ c ∈ (dumpsWith space field.2).toList := by
  induction fields with
  | nil => simp [fieldChars, dumpsFieldsWith]
  | cons field rest ih =>
      obtain ⟨name, value⟩ := field
      cases rest with
      | nil =>
          rw [fieldChars_singleton]
          simp [hspace, hcolon]
      | cons other more =>
          rw [fieldChars_cons_cons, List.mem_append, List.mem_cons, List.mem_append, List.mem_append,
            List.mem_cons, List.mem_append, ih]
          simp [hspace, hcomma, hcolon, or_assoc]

/-- The characters at which the text of a value is split are the separators in its names and texts. -/
theorem lineBreak_mem_dumps (hspace : ∀ c ∈ space.toList, isLineBreak c = false) {c : Char}
    (hbreak : isLineBreak c = true) (value : Json) : value.Normal →
      (c ∈ (dumpsWith space value).toList
        ↔ ∃ text ∈ value.texts, c ∈ text.toList ∧ c ∈ separators) := by
  have hclean : c ∉ space.toList := by
    intro hc
    rw [hspace c hc] at hbreak
    cases hbreak
  have hmark : ∀ w, isLineBreak w = false → c ≠ w := by
    rintro w hw rfl
    rw [hw] at hbreak
    cases hbreak
  have hplain : ∀ cs : List Char, (∀ w ∈ cs, isLineBreak w = false) → c ∉ cs := fun cs hcs hc =>
    hmark c (hcs c hc) rfl
  induction value using Json.induct with
  | hnull =>
      intro _
      rw [dumpsWith]
      exact ⟨fun hc => absurd hc (hplain _ (not_lineBreak rfl)), fun ⟨_, hmem, _⟩ => (by cases hmem)⟩
  | hbool value =>
      intro _
      rw [dumpsWith]
      refine ⟨fun hc => absurd hc (hplain _ ?_), fun ⟨_, hmem, _⟩ => (by cases hmem)⟩
      cases value <;> exact not_lineBreak rfl
  | hint value =>
      intro _
      rw [dumpsWith]
      exact ⟨fun hc => absurd hc (hplain _ (int_unbroken value)), fun ⟨_, hmem, _⟩ => (by cases hmem)⟩
  | hfloat text =>
      intro hnormal
      rw [dumpsWith]
      exact ⟨fun hc => absurd hc (hplain _ (float_unbroken hnormal)),
        fun ⟨_, hmem, _⟩ => (by cases hmem)⟩
  | hstr text =>
      intro _
      rw [dumpsWith, lineBreak_mem_quote hbreak, texts]
      simp
  | harr items ih =>
      intro hnormal
      have hitems := normalItems_iff.mp hnormal
      rw [dumps_arr, List.mem_cons, List.mem_append, mem_itemChars hclean (hmark ',' rfl), texts]
      constructor
      · rintro (hopen | ⟨item, hitem, hc⟩ | hclose)
        · exact absurd hopen (hmark '[' rfl)
        · obtain ⟨text, htext, hboth⟩ := (ih item hitem (hitems item hitem)).mp hc
          exact ⟨text, mem_itemTexts.mpr ⟨item, hitem, htext⟩, hboth⟩
        · exact absurd (List.mem_singleton.mp hclose) (hmark ']' rfl)
      · rintro ⟨text, htext, hboth⟩
        obtain ⟨item, hitem, htext⟩ := mem_itemTexts.mp htext
        exact Or.inr (Or.inl ⟨item, hitem, (ih item hitem (hitems item hitem)).mpr ⟨text, htext, hboth⟩⟩)
  | hobj fields ih =>
      intro hnormal
      have hfields := normalFields_iff.mp hnormal.1
      rw [dumps_obj, List.mem_cons, List.mem_append,
        mem_fieldChars hclean (hmark ',' rfl) (hmark ':' rfl), texts]
      constructor
      · rintro (hopen | ⟨field, hfield, hname | hc⟩ | hclose)
        · exact absurd hopen (hmark '\x7b' rfl)
        · exact ⟨field.1, mem_fieldTexts.mpr ⟨field, hfield, Or.inl rfl⟩,
            (lineBreak_mem_quote hbreak _).mp hname⟩
        · obtain ⟨text, htext, hboth⟩ := (ih field hfield (hfields field hfield)).mp hc
          exact ⟨text, mem_fieldTexts.mpr ⟨field, hfield, Or.inr htext⟩, hboth⟩
        · exact absurd (List.mem_singleton.mp hclose) (hmark '\x7d' rfl)
      · rintro ⟨text, htext, hboth⟩
        obtain ⟨field, hfield, rfl | htext⟩ := mem_fieldTexts.mp htext
        · exact Or.inr (Or.inl ⟨field, hfield, Or.inl ((lineBreak_mem_quote hbreak _).mpr hboth)⟩)
        · exact Or.inr (Or.inl ⟨field, hfield, Or.inr
            ((ih field hfield (hfields field hfield)).mpr ⟨text, htext, hboth⟩)⟩)

/-- The other characters that end a line are escaped. -/
theorem not_mem_dumps (hspace : ∀ c ∈ space.toList, isLineBreak c = false) {c : Char}
    (hbreak : isLineBreak c = true) (hother : c ∉ separators) {value : Json} (hnormal : value.Normal) :
    c ∉ (dumpsWith space value).toList := fun hmem => by
  obtain ⟨-, -, -, hseparator⟩ := (lineBreak_mem_dumps hspace hbreak value hnormal).mp hmem
  exact hother hseparator

/-- The text of an object is a record of a log. -/
theorem isRecord_dumps (hspace : ∀ c ∈ space.toList, isLineBreak c = false)
    {fields : List (String × Json)} (hnormal : (Json.obj fields).Normal) :
    IsRecord (dumpsWith space (.obj fields)).toList where
  unreturned := not_mem_dumps hspace rfl (by decide) hnormal
  first := ⟨'\x7b', _, dumps_obj fields, by decide⟩
  last := ⟨'\x7d', '\x7b' :: fieldChars space fields, dumps_obj fields, by decide⟩

/-- There is no separator in a name or a text of the value. -/
def Unseparated (value : Json) : Prop := ∀ text ∈ value.texts, ∀ c ∈ text.toList, c ∉ separators

instance (value : Json) : Decidable value.Unseparated :=
  have (text : String) : Decidable (∀ c ∈ text.toList, c ∉ separators) := List.decidableBAll _ _
  List.decidableBAll _ _

theorem unseparated_iff (hspace : ∀ c ∈ space.toList, isLineBreak c = false) {value : Json}
    (hnormal : value.Normal) :
    value.Unseparated ↔ ∀ c ∈ (dumpsWith space value).toList, isLineBreak c = false := by
  constructor
  · intro hunseparated c hmem
    cases hbreak : isLineBreak c with
    | false => rfl
    | true =>
        obtain ⟨text, htext, hc, hseparator⟩ := (lineBreak_mem_dumps hspace hbreak value hnormal).mp hmem
        exact absurd hseparator (hunseparated text htext c hc)
  · intro hunbroken text htext c hc hseparator
    have hbreak : isLineBreak c = true := by
      simp only [separators, List.mem_cons, List.not_mem_nil, or_false] at hseparator
      rcases hseparator with rfl | rfl | rfl <;> rfl
    have hmem := (lineBreak_mem_dumps hspace hbreak value hnormal).mpr ⟨text, htext, hc, hseparator⟩
    rw [hunbroken c hmem] at hbreak
    cases hbreak

end Values

end Json

end PatchLoop
