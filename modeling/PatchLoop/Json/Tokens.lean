import PatchLoop.Json.Loads

/-!
# Numbers and strings that are read back

What the readers of numbers and strings find in what `json.dumps` has written, whatever text follows.
-/

namespace PatchLoop

namespace Json

/-! ### Numbers are read to their end -/

/-- The text does not go on with such a character. -/
def Stops (p : Char → Bool) (cs : List Char) : Prop := ∀ c ∈ cs.head?, p c = false

/-- The characters with which a number may go on after its digits, and after its fraction. -/
def pointChar (c : Char) : Bool := c.isDigit || c = '.'

def numberChar (c : Char) : Bool := pointChar c || c = 'e' || c = 'E'

theorem stops_cons {p : Char → Bool} {c : Char} {cs : List Char} (hc : p c = false) :
    Stops p (c :: cs) := by
  intro d hd
  cases hd
  exact hc

theorem Stops.mono {p q : Char → Bool} {cs : List Char} (hstops : Stops p cs)
    (hle : ∀ c, q c = true → p c = true) : Stops q cs := by
  intro c hc
  by_contra hq
  exact absurd (hle c (by simpa using hq)) (by simp [hstops c hc])

theorem Stops.append {p : Char → Bool} {first second : List Char} (hfirst : Stops p first)
    (hsecond : first = [] → Stops p second) : Stops p (first ++ second) := by
  cases first with
  | nil => exact hsecond rfl
  | cons c cs => exact stops_cons (hfirst c rfl)

theorem Stops.point {cs : List Char} (hstops : Stops numberChar cs) : Stops pointChar cs :=
  hstops.mono fun c hc => by simp [numberChar, hc]

theorem Stops.digit {cs : List Char} (hstops : Stops pointChar cs) : Stops Char.isDigit cs :=
  hstops.mono fun c hc => by simp [pointChar, hc]

theorem scanDigits_append {digits rest : List Char} (hdigits : ∀ c ∈ digits, c.isDigit = true)
    (hstops : Stops Char.isDigit rest) : scanDigits (digits ++ rest) = (digits, rest) := by
  induction digits with
  | nil =>
      cases rest with
      | nil => rfl
      | cons c cs => simp [scanDigits, hstops c rfl]
  | cons c cs ih =>
      obtain ⟨hc, hcs⟩ := List.forall_mem_cons.mp hdigits
      simp [scanDigits, hc, ih hcs]

/-- What was read to the end consists of digits. -/
theorem digits_of_scanDigits {cs : List Char} (hscan : scanDigits cs = (cs, [])) :
    ∀ c ∈ cs, c.isDigit = true := by
  induction cs with
  | nil => simp
  | cons c cs ih =>
      rw [scanDigits] at hscan
      split at hscan
      · rename_i hc
        simp only [Prod.mk.injEq, List.cons.injEq, true_and] at hscan
        exact List.forall_mem_cons.mpr ⟨hc, ih (Prod.ext hscan.1 hscan.2)⟩
      · cases hscan

theorem scanNat_append {digits rest : List Char} (hscan : scanNat digits = some (digits, []))
    (hstops : Stops Char.isDigit rest) : scanNat (digits ++ rest) = some (digits, rest) := by
  cases digits with
  | nil => cases hscan
  | cons c cs =>
      simp only [scanNat, List.cons_append] at hscan ⊢
      by_cases hzero : c = '0'
      · rw [if_pos hzero] at hscan ⊢
        cases hscan
        rfl
      · rw [if_neg hzero] at hscan ⊢
        split at hscan
        · rename_i hc
          rw [if_pos hc]
          simp only [Option.some.injEq, Prod.mk.injEq, List.cons.injEq, true_and] at hscan
          have hdigits := digits_of_scanDigits (Prod.ext hscan.1 hscan.2)
          rw [scanDigits_append hdigits hstops]
        · cases hscan

theorem scanWhole_append {whole rest : List Char} (hscan : scanWhole whole = some (whole, []))
    (hstops : Stops Char.isDigit rest) : scanWhole (whole ++ rest) = some (whole, rest) := by
  cases whole with
  | nil => cases hscan
  | cons c cs =>
      simp only [scanWhole, List.cons_append] at hscan ⊢
      split at hscan
      · rename_i hminus
        rw [if_pos hminus]
        obtain ⟨found, hfound, heq⟩ := Option.map_eq_some_iff.mp hscan
        simp only [Prod.mk.injEq, List.cons.injEq, true_and] at heq
        obtain ⟨rfl, hrest⟩ := heq
        have hnat : scanNat found.1 = some (found.1, []) := by rw [hfound, ← hrest]
        rw [scanNat_append hnat hstops]
        rfl
      · rename_i hminus
        rw [if_neg hminus]
        exact scanNat_append hscan hstops

/-- A fraction starts with a point. -/
theorem head_of_scanFraction {fraction : List Char} (hscan : scanFraction fraction = (fraction, [])) :
    ∀ c ∈ fraction.head?, c = '.' := by
  intro c hc
  cases fraction with
  | nil => cases hc
  | cons d cs =>
      cases hc
      by_contra hpoint
      rw [scanFraction, if_neg hpoint] at hscan
      cases hscan

theorem scanFraction_append {fraction rest : List Char}
    (hscan : scanFraction fraction = (fraction, [])) (hstops : Stops pointChar rest) :
    scanFraction (fraction ++ rest) = (fraction, rest) := by
  cases fraction with
  | nil =>
      cases rest with
      | nil => rfl
      | cons c cs =>
          have hc := hstops c rfl
          have hpoint : c ≠ '.' := by
            rintro rfl
            exact absurd hc (by decide)
          simp [scanFraction, hpoint]
  | cons c cs =>
      have hpoint := head_of_scanFraction hscan c rfl
      subst hpoint
      simp only [scanFraction, if_true, List.cons_append] at hscan ⊢
      split at hscan
      · cases hscan
      · rename_i digits rest' hne hfound
        simp only [Prod.mk.injEq, List.cons.injEq, true_and] at hscan
        obtain ⟨rfl, rfl⟩ := hscan
        have hdigits := digits_of_scanDigits hfound
        rw [scanDigits_append hdigits hstops.digit]
        cases digits with
        | nil => exact absurd rfl hne
        | cons d ds => rfl


/-- An exponent starts with its mark. -/
theorem head_of_scanExponent {exponent : List Char}
    (hscan : scanExponent exponent = (exponent, [])) :
    ∀ c ∈ exponent.head?, c = 'e' ∨ c = 'E' := by
  intro c hc
  cases exponent with
  | nil => cases hc
  | cons d cs =>
      cases hc
      by_contra hmark
      rw [scanExponent, if_neg hmark] at hscan
      cases hscan

theorem scanSign_append {cs rest : List Char} (hcs : cs ≠ []) :
    scanSign (cs ++ rest) = ((scanSign cs).1, (scanSign cs).2 ++ rest) := by
  cases cs with
  | nil => exact absurd rfl hcs
  | cons c cs =>
      simp only [scanSign, List.cons_append]
      split <;> rfl

theorem scanSign_eq (cs : List Char) : (scanSign cs).1 ++ (scanSign cs).2 = cs := by
  cases cs with
  | nil => rfl
  | cons c cs =>
      simp only [scanSign]
      split <;> rfl

theorem scanExponent_append {exponent rest : List Char}
    (hscan : scanExponent exponent = (exponent, [])) (hstops : Stops numberChar rest) :
    scanExponent (exponent ++ rest) = (exponent, rest) := by
  cases exponent with
  | nil =>
      cases rest with
      | nil => rfl
      | cons c cs =>
          have hc := hstops c rfl
          have hmark : ¬ (c = 'e' ∨ c = 'E') := by
            rintro (rfl | rfl) <;> exact absurd hc (by decide)
          simp [scanExponent, hmark]
  | cons c cs =>
      have hmark := head_of_scanExponent hscan c rfl
      simp only [scanExponent, List.cons_append, if_pos hmark] at hscan ⊢
      split at hscan
      · cases hscan
      · rename_i digits rest' hne hfound
        simp only [Prod.mk.injEq, List.cons.injEq, true_and] at hscan
        obtain ⟨hsplit, rfl⟩ := hscan
        have hdigits : (scanSign cs).2 = digits :=
          List.append_cancel_left ((scanSign_eq cs).trans hsplit.symm)
        have hcs : cs ≠ [] := by
          rintro rfl
          exact hne hdigits.symm
        rw [scanSign_append hcs]
        rw [hdigits] at hfound ⊢
        rw [scanDigits_append (digits_of_scanDigits hfound) hstops.point.digit]
        cases digits with
        | nil => exact absurd rfl hne
        | cons d ds => simp only [hsplit]

section Numbers

variable [FloatRepr]

theorem scanNumber_append {whole fraction exponent rest : List Char}
    (hwhole : scanWhole whole = some (whole, [])) (hfraction : scanFraction fraction = (fraction, []))
    (hexponent : scanExponent exponent = (exponent, [])) (hstops : Stops numberChar rest) :
    scanNumber (whole ++ (fraction ++ exponent) ++ rest)
      = some (if fraction = [] ∧ exponent = [] then .int (intOf whole)
          else .float (FloatRepr.repr (String.ofList (whole ++ (fraction ++ exponent)))), rest) := by
  have hpoint : Stops pointChar (exponent ++ rest) := by
    refine Stops.append ?_ fun _ => hstops.point
    intro c hc
    rcases head_of_scanExponent hexponent c hc with rfl | rfl <;> decide
  have hdigit : Stops Char.isDigit (fraction ++ (exponent ++ rest)) := by
    refine Stops.append ?_ fun _ => hpoint.digit
    intro c hc
    rw [head_of_scanFraction hfraction c hc]
    decide
  rw [scanNumber, List.append_assoc, List.append_assoc, scanWhole_append hwhole hdigit]
  simp only [Option.bind_eq_bind, Option.bind_some, scanFraction_append hfraction hpoint,
    scanExponent_append hexponent hstops]
  split <;> rfl

end Numbers

/-- Only zero is written with a zero first. -/
theorem eq_zero_of_head_toDigits {n : Nat} (hhead : (Nat.toDigits 10 n).head? = some '0') : n = 0 := by
  induction n using Nat.strong_induction_on with
  | _ n ih =>
      by_cases hsmall : n < 10
      · rw [Nat.toDigits_of_lt_base hsmall] at hhead
        have hzero : ∀ m, m < 10 → Nat.digitChar m = '0' → m = 0 := by decide
        exact hzero n hsmall (Option.some.inj hhead)
      · have htens : 10 ≤ n := Nat.le_of_not_lt hsmall
        rw [Nat.toDigits_of_base_le (by decide) htens,
          List.head?_append_of_ne_nil _ Nat.toDigits_ne_nil] at hhead
        have hdiv := ih (n / 10) (by omega) hhead
        omega

theorem scanNat_toDigits (n : Nat) :
    scanNat (Nat.toDigits 10 n) = some (Nat.toDigits 10 n, []) := by
  have hdigits : ∀ c ∈ Nat.toDigits 10 n, c.isDigit = true := fun c hc =>
    Nat.isDigit_of_mem_toDigits (by decide) (by decide) hc
  by_cases hzero : n = 0
  · subst hzero
    decide
  · cases htext : Nat.toDigits 10 n with
    | nil => exact absurd htext Nat.toDigits_ne_nil
    | cons c cs =>
        have hc : c ≠ '0' := by
          rintro rfl
          exact hzero (eq_zero_of_head_toDigits (by rw [htext]; rfl))
        rw [htext] at hdigits
        obtain ⟨hdigit, hrest⟩ := List.forall_mem_cons.mp hdigits
        have hscan := scanDigits_append hrest (show Stops Char.isDigit [] by simp [Stops])
        rw [List.append_nil] at hscan
        rw [scanNat, if_neg hc, if_pos hdigit, hscan]

theorem toList_toString (value : Int) :
    (toString value).toList = if 0 ≤ value then Nat.toDigits 10 value.toNat
      else '-' :: Nat.toDigits 10 (-value).toNat := by
  rw [Int.toString_eq_repr, Int.repr_eq_if]
  split
  · exact Nat.toList_repr
  · rw [String.toList_append, Nat.toList_repr]
    rfl

theorem minus_not_digit {cs : List Char} {n : Nat} (htext : Nat.toDigits 10 n = cs) :
    cs.head? ≠ some '-' := by
  intro hhead
  have hmem : '-' ∈ Nat.toDigits 10 n := htext ▸ List.mem_of_mem_head? hhead
  exact absurd (Nat.isDigit_of_mem_toDigits (by decide) (by decide) hmem) (by decide)

theorem scanWhole_toString (value : Int) :
    scanWhole (toString value).toList = some ((toString value).toList, []) := by
  rw [toList_toString]
  split
  · have hscan := scanNat_toDigits value.toNat
    cases htext : Nat.toDigits 10 value.toNat with
    | nil => exact absurd htext Nat.toDigits_ne_nil
    | cons c cs =>
        have hminus : c ≠ '-' := by
          rintro rfl
          exact minus_not_digit htext rfl
        rw [scanWhole, if_neg hminus, ← htext, hscan]
  · rw [scanWhole, if_pos rfl, scanNat_toDigits]
    rfl

theorem intOf_toString (value : Int) : intOf (toString value).toList = value := by
  rw [toList_toString]
  split
  · rename_i hsign
    have hvalue : natOf (Nat.toDigits 10 value.toNat) = value.toNat := Nat.ofDigitChars_ten_toDigits
    cases htext : Nat.toDigits 10 value.toNat with
    | nil => exact absurd htext Nat.toDigits_ne_nil
    | cons c cs =>
        have hminus : c ≠ '-' := by
          rintro rfl
          exact minus_not_digit htext rfl
        rw [intOf, if_neg hminus, ← htext, hvalue]
        exact Int.toNat_of_nonneg hsign
  · rename_i hsign
    have hvalue : natOf (Nat.toDigits 10 (-value).toNat) = (-value).toNat :=
      Nat.ofDigitChars_ten_toDigits
    rw [intOf, if_pos rfl, hvalue]
    omega

/-! ### Strings are read to their closing quote -/

theorem hexValue_hexDigit : ∀ n, n < 16 → hexValue (hexDigit n) = some n := by
  decide

theorem scanString_escape {e c : Char} (rest : List Char) (he : e ≠ 'u')
    (hfind : escapes.find? (fun pair => pair.1 = e) = some (e, c)) :
    scanString ('\\' :: e :: rest) = (scanString rest).map fun (text, rest) => (c :: text, rest) := by
  rw [scanString.eq_def]
  simp only [if_neg (show '\\' ≠ '"' by decide), if_true, if_neg he, hfind]

/-- A control character is written with its code. -/
theorem scanString_code {c : Char} (rest : List Char) (hcontrol : c.toNat < 32) :
    scanString ('\\' :: 'u' :: '0' :: '0' :: hexDigit (c.toNat / 16) :: hexDigit (c.toNat % 16) :: rest)
      = (scanString rest).map fun (text, rest) => (c :: text, rest) := by
  have hcode : scanHex '0' '0' (hexDigit (c.toNat / 16)) (hexDigit (c.toNat % 16))
      = some c.toNat := by
    have hhigh := hexValue_hexDigit (c.toNat / 16) (by omega)
    have hlow := hexValue_hexDigit (c.toNat % 16) (by omega)
    have hzero : hexValue '0' = some 0 := by decide
    simp only [scanHex, hzero, hhigh, hlow, Option.bind_eq_bind, Option.bind_some, Option.pure_def,
      Option.some.injEq]
    omega
  have hsmall : c.toNat < 0xD800 ∨ 0xE000 ≤ c.toNat := by omega
  rw [scanString.eq_def]
  simp only [if_neg (show '\\' ≠ '"' by decide), if_true, hcode, if_pos hsmall, Char.ofNat_toNat]

theorem scanString_escapeChar (c : Char) (rest : List Char) :
    scanString (escapeChar c ++ rest)
      = (scanString rest).map fun (text, rest) => (c :: text, rest) := by
  have hcodes : ∀ n, c.toNat = n → c = Char.ofNat n := by
    rintro n rfl
    exact (Char.ofNat_toNat c).symm
  unfold escapeChar
  split
  · rename_i hc
    subst hc
    exact scanString_escape rest (by decide) (by decide)
  split
  · rename_i hc
    subst hc
    exact scanString_escape rest (by decide) (by decide)
  split
  · rename_i hc
    subst hc
    exact scanString_escape rest (by decide) (by decide)
  split
  · rename_i hc
    subst hc
    exact scanString_escape rest (by decide) (by decide)
  split
  · rename_i hc
    subst hc
    exact scanString_escape rest (by decide) (by decide)
  split
  · rename_i hc
    rw [hcodes 8 hc]
    exact scanString_escape rest (by decide) (by decide)
  split
  · rename_i hc
    rw [hcodes 12 hc]
    exact scanString_escape rest (by decide) (by decide)
  split
  · rename_i hcontrol
    exact scanString_code rest hcontrol
  · rename_i hquote hslash _ _ _ _ _ hcontrol
    rw [List.singleton_append, scanString.eq_def]
    simp only [if_neg hquote, if_neg hslash, if_neg hcontrol]

theorem scanString_quote (text rest : List Char) :
    scanString (text.flatMap escapeChar ++ '"' :: rest) = some (text, rest) := by
  induction text with
  | nil =>
      rw [List.flatMap_nil, List.nil_append, scanString.eq_def]
      rfl
  | cons c cs ih =>
      rw [List.flatMap_cons, List.append_assoc, scanString_escapeChar, ih]
      rfl

end Json

end PatchLoop
