import PatchLoop.Redaction

/-!
# Redaction of redacted texts

A text that was redacted holds no bearer token and no key any more, and the values of its labels are the
marks that redaction itself puts there. So it is redacted to itself.
-/

namespace PatchLoop

open Patterns

namespace SecretRedactor

/-! ### Characters -/

section Characters

variable {c letter : Char}

theorem isSpace_cases (hspace : isSpace c = true) :
    c ∈ ['\t', '\n', '\x0b', '\x0c', '\r', '\x1c', '\x1d', '\x1e', '\x1f', ' ', '\u0085', '\u00a0',
      '\u1680', '\u2028', '\u2029', '\u202f', '\u205f', '\u3000'] ∨ 8192 ≤ c.toNat := by
  unfold isSpace at hspace
  rw [Bool.or_eq_true, decide_eq_true_eq, Bool.and_eq_true, decide_eq_true_eq] at hspace
  exact hspace.imp_right fun hrange => hrange.1

theorem toNat_of_isAlphanum (halnum : c.isAlphanum = true) :
    48 ≤ c.toNat ∧ c.toNat ≤ 122 := by
  unfold Char.isAlphanum Char.isAlpha Char.isUpper Char.isLower Char.isDigit at halnum
  simp only [ge_iff_le, Bool.or_eq_true, Bool.and_eq_true, decide_eq_true_eq,
    UInt32.le_iff_toNat_le] at halnum
  have hcode : c.toNat = c.val.toNat := rfl
  have hcodes : 'A'.val.toNat = 65 ∧ 'Z'.val.toNat = 90 ∧ 'a'.val.toNat = 97 ∧ 'z'.val.toNat = 122
      ∧ '0'.val.toNat = 48 ∧ '9'.val.toNat = 57 := ⟨rfl, rfl, rfl, rfl, rfl, rfl⟩
  omega

theorem not_isSpace_of_isAlphanum (halnum : c.isAlphanum = true) : isSpace c = false := by
  by_contra hspace
  rw [Bool.not_eq_false] at hspace
  have hrange := toNat_of_isAlphanum halnum
  rcases isSpace_cases hspace with hmem | hlarge
  · simp only [List.mem_cons, List.not_mem_nil, or_false] at hmem
    rcases hmem with rfl | rfl | rfl | rfl | rfl | rfl | rfl | rfl | rfl | rfl | rfl | rfl | rfl | rfl |
      rfl | rfl | rfl | rfl <;> cases halnum
  · omega

theorem isAlphanum_of_toLower (hlower : c.toLower = letter) (hletter : letter.isAlphanum = true) :
    c.isAlphanum = true := by
  by_cases hupper : c.isUpper = true
  · unfold Char.isAlphanum Char.isAlpha
    rw [hupper]
    rfl
  · have hsame : c.toLower = c := by
      unfold Char.toLower
      unfold Char.isUpper at hupper
      rw [decide_eq_true_eq] at hupper
      exact dif_neg hupper
    rw [← hsame, hlower]
    exact hletter

theorem isAlphanum_of_folds (hfolds : folds letter c = true) (hletter : letter.isAlphanum = true) :
    c.isAlphanum = true ∨ c ∈ caseVariants.map (·.2) := by
  unfold folds at hfolds
  rw [Bool.or_eq_true, decide_eq_true_eq, List.contains_iff_mem] at hfolds
  rcases hfolds with hlower | hvariant
  · exact Or.inl (isAlphanum_of_toLower hlower hletter)
  · exact Or.inr (List.mem_map.mpr ⟨_, hvariant, rfl⟩)

theorem isValue_of_isAlphanum (halnum : c.isAlphanum = true) : isValue c = true := by
  unfold isValue
  rw [not_isSpace_of_isAlphanum halnum, Bool.not_false, Bool.true_and, decide_eq_true_eq]
  intro hmem
  simp only [List.mem_cons, List.not_mem_nil, or_false] at hmem
  rcases hmem with rfl | rfl | rfl | rfl | rfl <;> cases halnum

theorem isValue_of_folds (hfolds : folds letter c = true) (hletter : letter.isAlphanum = true) :
    isValue c = true := by
  rcases isAlphanum_of_folds hfolds hletter with halnum | hvariant
  · exact isValue_of_isAlphanum halnum
  · simp only [caseVariants, List.map_cons, List.map_nil, List.mem_cons, List.not_mem_nil,
      or_false] at hvariant
    rcases hvariant with rfl | rfl | rfl | rfl <;> rfl

theorem isAlphanum_of_folds_b (hfolds : folds 'b' c = true) : c.isAlphanum = true := by
  unfold folds at hfolds
  rw [Bool.or_eq_true, decide_eq_true_eq, List.contains_iff_mem] at hfolds
  rcases hfolds with hlower | hvariant
  · exact isAlphanum_of_toLower hlower rfl
  · simp [caseVariants] at hvariant

theorem not_isToken_of_isSpace (hspace : isSpace c = true) : isToken c = false := by
  by_contra htoken
  rw [Bool.not_eq_false] at htoken
  unfold isToken at htoken
  rw [Bool.or_eq_true, Bool.or_eq_true, decide_eq_true_eq] at htoken
  rcases htoken with (halnum | hmem) | hvariant
  · rw [not_isSpace_of_isAlphanum halnum] at hspace
    cases hspace
  · simp only [List.mem_cons, List.not_mem_nil, or_false] at hmem
    rcases hmem with rfl | rfl | rfl | rfl | rfl | rfl | rfl <;> cases hspace
  · simp only [caseVariants, List.any_cons, List.any_nil, Bool.or_eq_true, decide_eq_true_eq,
      Bool.or_false] at hvariant
    rcases hvariant with rfl | rfl | rfl | rfl <;> cases hspace

theorem isToken_of_isAlphanum (halnum : c.isAlphanum = true) : isToken c = true := by
  unfold isToken
  rw [halnum]
  rfl

theorem isKeyChar_of_isAlphanum (halnum : c.isAlphanum = true) : isKeyChar c = true := by
  unfold isKeyChar
  rw [halnum]
  rfl

theorem not_isValue_of_isQuote (hquote : isQuote c = true) : isValue c = false := by
  unfold isQuote at hquote
  rw [decide_eq_true_eq] at hquote
  simp only [List.mem_cons, List.not_mem_nil, or_false] at hquote
  rcases hquote with rfl | rfl <;> rfl

theorem not_isValue_of_isSpace (hspace : isSpace c = true) : isValue c = false := by
  unfold isValue
  rw [hspace]
  rfl

theorem not_isQuote_of_isSpace (hspace : isSpace c = true) : isQuote c = false := by
  by_contra hquote
  rw [Bool.not_eq_false] at hquote
  unfold isQuote at hquote
  rw [decide_eq_true_eq] at hquote
  simp only [List.mem_cons, List.not_mem_nil, or_false] at hquote
  rcases hquote with rfl | rfl <;> cases hspace

end Characters

/-! ### The patterns -/

section Patterns

theorem deterministic_letters {runs : List (Run Char)} (text : String) (hruns : Deterministic runs) :
    Deterministic (letters text ++ runs) := by
  unfold letters
  induction text.toList with
  | nil => exact hruns
  | cons letter rest ih => exact ⟨Or.inl rfl, ih⟩

theorem deterministic_hyphen {runs : List (Run Char)} {letter : Char}
    (hruns : Deterministic (.one (folds letter) :: runs)) (hletter : letter.isAlphanum = true) :
    Deterministic (hyphen :: .one (folds letter) :: runs) := by
  refine ⟨Or.inr fun a ha hbegins => ?_, hruns⟩
  have hfolds : folds letter a = true := by
    rcases hbegins with hfolds | ⟨hleast, -⟩
    · exact hfolds
    · cases hleast
  have hmem : a = '_' ∨ a = '-' := by simpa [hyphen, Run.optional] using ha
  rcases isAlphanum_of_folds hfolds hletter with halnum | hvariant
  · rcases hmem with rfl | rfl <;> cases halnum
  · rcases hmem with rfl | rfl <;> simp [caseVariants] at hvariant

theorem deterministic_separator : Deterministic (separator ++ [Run.atLeast 1 isValue]) := by
  refine ⟨Or.inr fun a hspace hbegins => ?_, Or.inl rfl, Or.inr fun a hspace hbegins => ?_,
    Or.inr fun a hquote hbegins => ?_, Or.inr fun a _ hbegins => hbegins, trivial⟩
  · rcases hbegins with hsign | ⟨hleast, -⟩
    · have hmem : a = '=' ∨ a = ':' := by simpa [Run.one] using hsign
      rcases hmem with rfl | rfl <;> cases hspace
    · cases hleast
  · rcases hbegins with hquote | ⟨-, hvalue | ⟨hleast, -⟩⟩
    · have hnot := not_isQuote_of_isSpace hspace
      rw [show isQuote a = true from hquote] at hnot
      cases hnot
    · have hnot := not_isValue_of_isSpace hspace
      rw [show isValue a = true from hvalue] at hnot
      cases hnot
    · cases hleast
  · rcases hbegins with hvalue | ⟨hleast, -⟩
    · have hnot := not_isValue_of_isQuote hquote
      rw [show isValue a = true from hvalue] at hnot
      cases hnot
    · cases hleast

variable [Alphabet]

theorem deterministic_labelled :
    ∀ before ∈ labelled.before, Deterministic (before ++ labelled.middle) := by
  have hend := deterministic_separator
  have hkey := deterministic_letters "ey" hend
  have htoken := deterministic_letters "oken" hend
  have hlabels : ∀ label ∈ labels, Deterministic (label ++ (separator ++ [Run.atLeast 1 isValue])) := by
    unfold labels
    simp only [List.forall_mem_cons, List.append_assoc, List.cons_append]
    refine ⟨?_, ?_, ?_, ?_, ?_, ?_, fun _ hlabel => absurd hlabel List.not_mem_nil⟩
    · exact deterministic_letters "api" (deterministic_hyphen ⟨Or.inl rfl, hkey⟩ rfl)
    · exact deterministic_letters "access" (deterministic_hyphen ⟨Or.inl rfl, htoken⟩ rfl)
    · exact deterministic_letters "auth" (deterministic_hyphen ⟨Or.inl rfl, htoken⟩ rfl)
    · exact deterministic_letters "password" hend
    · exact deterministic_letters "passwd" hend
    · exact deterministic_letters "secret" hend
  intro before hbefore
  obtain ⟨label, hlabel, rfl⟩ := List.mem_map.mp hbefore
  rw [List.append_assoc]
  exact hlabels label hlabel

theorem lawful_bearer : bearer.Lawful where
  deterministic := by
    refine List.forall_mem_singleton.mpr ?_
    rw [List.append_assoc]
    refine deterministic_letters "bearer" ⟨Or.inr fun a hspace hbegins => ?_,
      Or.inr fun a _ hbegins => hbegins, trivial⟩
    rcases hbegins with htoken | ⟨hleast, -⟩
    · have hnot := not_isToken_of_isSpace hspace
      rw [show isToken a = true from htoken] at hnot
      cases hnot
    · cases hleast
  skippable _ hrun := absurd hrun List.not_mem_nil
  nonempty := ⟨_, List.mem_singleton_self _, by decide⟩

theorem lawful_secretKey : secretKey.Lawful where
  deterministic := List.forall_mem_singleton.mpr
    ⟨Or.inl rfl, Or.inl rfl, Or.inl rfl, Or.inr fun _ _ hbegins => hbegins, trivial⟩
  skippable _ hrun := absurd hrun List.not_mem_nil
  nonempty := ⟨_, List.mem_cons_self, by decide⟩

theorem lawful_labelled : labelled.Lawful where
  deterministic := deterministic_labelled
  skippable := List.forall_mem_singleton.mpr rfl
  nonempty := ⟨_, List.mem_singleton_self _, by decide⟩

theorem starts_bearer {a : Char} (hstarts : bearer.Starts a) : folds 'b' a = true := by
  obtain ⟨before, hbefore, hbegins⟩ := hstarts
  obtain rfl := List.mem_singleton.mp hbefore
  rcases hbegins with hfolds | ⟨hleast, -⟩
  · exact hfolds
  · cases hleast

theorem starts_secretKey {a : Char} (hstarts : secretKey.Starts a) : a = 's' := by
  obtain ⟨before, hbefore, hbegins⟩ := hstarts
  obtain rfl := List.mem_singleton.mp hbefore
  rcases hbegins with hsame | ⟨hleast, -⟩
  · exact of_decide_eq_true hsame
  · cases hleast

/-- A label begins with a letter. -/
theorem starts_labelled {a : Char} (hstarts : labelled.Starts a) :
    ∃ letter ∈ ['a', 'p', 's'], folds letter a = true := by
  obtain ⟨before, hbefore, hbegins⟩ := hstarts
  obtain ⟨label, hlabel, rfl⟩ := List.mem_map.mp hbefore
  have hfirst : ∀ {letter : Char} {runs : List (Run Char)}, Begins (.one (folds letter) :: runs) a →
      folds letter a = true := by
    rintro letter runs (hfolds | ⟨hleast, -⟩)
    · exact hfolds
    · cases hleast
  unfold labels at hlabel
  simp only [List.mem_cons, List.not_mem_nil, or_false] at hlabel
  rcases hlabel with rfl | rfl | rfl | rfl | rfl | rfl
  · exact ⟨'a', by decide, hfirst hbegins⟩
  · exact ⟨'a', by decide, hfirst hbegins⟩
  · exact ⟨'a', by decide, hfirst hbegins⟩
  · exact ⟨'p', by decide, hfirst hbegins⟩
  · exact ⟨'p', by decide, hfirst hbegins⟩
  · exact ⟨'s', by decide, hfirst hbegins⟩

omit [Alphabet] in
theorem mark_cons : redactedMark.toList = '[' :: "REDACTED]".toList := rfl

omit [Alphabet] in
/-- A pattern that keeps what it finds makes no match of one whose words hold no bracket. -/
theorem harmless_of_keeps {pattern other : Pattern Char} (hlawful : other.Lawful)
    (hnormal : ∀ kept, pattern.normal kept = kept) (hmark : pattern.mark = redactedMark.toList)
    (hrefused : ∀ before ∈ other.before, ∀ run ∈ before ++ other.middle, run.accepts '[' = false)
    (hquiet : ∀ a ∈ redactedMark.toList, ¬ other.Starts a)
    (htail : ∀ {tail}, Fits pattern.after tail → ∀ a ∈ tail, ¬ other.Starts a)
    (hrest : ∀ {last text found}, pattern.find last text = some found → found.tail = [] →
      ∀ a ∈ found.rest.head?, ¬ other.Starts a) :
    Pattern.Harmless pattern other (· = ·) ('[' ∉ ·) where
  refl _ := rfl
  suffix _ _ hgood hmem := hgood (List.mem_cons_of_mem _ hmem)
  swap {last kept lost tail rest word more} hfound hgood hword := by
    rw [hnormal, hmark, mark_cons, List.append_assoc, List.cons_append] at hword
    have hkept := Pattern.prefix_of_stop hword hgood
    exact ⟨word, hkept.trans (List.prefix_append _ _), List.forall₂_same.mpr fun _ _ => rfl⟩
  lawful := hlawful
  alike _ _ _ _ a b hsame haccepts := by rwa [hsame]
  good before hbefore a word hfits hmem :=
    Pattern.not_mem_of_fits (hrefused before hbefore) hfits (List.mem_cons_of_mem _ hmem)
  marked := by
    rw [hmark]
    exact List.cons_ne_nil _ _
  quiet_mark := by rwa [hmark]
  quiet_tail := htail
  quiet_rest := hrest
  quiet_head {last text found} hfound a ha hstarts := by
    obtain ⟨htext, -⟩ := Pattern.fits_of_find hfound
    rw [hnormal, hmark] at ha
    cases hkept : found.kept with
    | nil =>
        rw [hkept, mark_cons] at ha
        cases ha
        exact absurd hstarts (hquiet _ List.mem_cons_self)
    | cons b kept =>
        rw [hkept] at ha htext
        refine ⟨a, ?_, hstarts⟩
        rw [htext]
        exact ha

theorem stable_labelled : labelled.Stable isValue '[' "REDACTED]".toList where
  toLawful := lawful_labelled
  normal _ := rfl
  middle := rfl
  mark := rfl
  accepted := List.all_eq_true.mp (show redactedMark.toList.all isValue = true from rfl)
  unstopped := by
    have hall : (labels.map (· ++ separator)).all (fun before => before.all fun run =>
        !run.accepts '[') = true := by decide
    intro before hbefore run hrun
    have hrefused := List.all_eq_true.mp (List.all_eq_true.mp hall before hbefore) run hrun
    rwa [Bool.not_eq_true'] at hrefused
  begun := by
    have hall : (labels.map (· ++ separator)).all (fun before => before.any fun run =>
        run.least ≠ 0) = true := by decide
    intro before hbefore
    obtain ⟨run, hrun, hleast⟩ := List.any_eq_true.mp (List.all_eq_true.mp hall before hbefore)
    exact ⟨run, hrun, of_decide_eq_true hleast⟩
  apart a hbegins := by
    rcases hbegins with hquote | ⟨-, hnone⟩
    · exact not_isValue_of_isQuote hquote
    · exact hnone.elim
  starts a hstarts := by
    obtain ⟨letter, hletter, hfolds⟩ := starts_labelled hstarts
    have halnum : letter.isAlphanum = true := by
      simp only [List.mem_cons, List.not_mem_nil, or_false] at hletter
      rcases hletter with rfl | rfl | rfl <;> rfl
    exact isValue_of_folds hfolds halnum

/-- What follows a key is no part of it. -/
theorem rest_secretKey {last : Option Char} {text : List Char} {found : Found Char}
    (hfound : secretKey.find last text = some found) :
    ∀ a ∈ found.rest.head?, isKeyChar a = false := by
  obtain ⟨-, -, before, -, -, hmatch, -⟩ := Pattern.find_eq_some_iff.mp hfound
  obtain ⟨first, second, -, hmiddle, hafter⟩ := Pattern.matchWith_eq_some_iff.mp hmatch
  obtain ⟨-, hsecond⟩ := Prod.mk.inj (Option.some.inj hafter)
  subst hsecond
  have hruns : secretKey.middle
      = [.one (· = 's'), .one (· = 'k'), .one (· = '-')] ++ [.atLeast 16 isKeyChar] := rfl
  rw [hruns] at hmiddle
  exact stops_of_takeRuns rfl hmiddle

theorem rest_bearer {last : Option Char} {text : List Char} {found : Found Char}
    (hfound : bearer.find last text = some found) : ∀ a ∈ found.rest.head?, isToken a = false := by
  obtain ⟨-, -, before, -, -, hmatch, -⟩ := Pattern.find_eq_some_iff.mp hfound
  obtain ⟨first, second, -, hmiddle, hafter⟩ := Pattern.matchWith_eq_some_iff.mp hmatch
  obtain ⟨-, hsecond⟩ := Prod.mk.inj (Option.some.inj hafter)
  subst hsecond
  have hruns : bearer.middle = [] ++ [.atLeast 12 isToken] := rfl
  rw [hruns] at hmiddle
  exact stops_of_takeRuns rfl hmiddle

/-- No bearer token and no key begins in a mark, or with a quote. -/
theorem quiet_bearer : ∀ a ∈ '"' :: '\'' :: redactedMark.toList, ¬ bearer.Starts a := by
  have hall : ('"' :: '\'' :: redactedMark.toList).all (fun a => !folds 'b' a) = true := by decide
  intro a ha hstarts
  have hrefused := List.all_eq_true.mp hall a ha
  rw [starts_bearer hstarts] at hrefused
  cases hrefused

theorem quiet_secretKey : ∀ a ∈ '"' :: '\'' :: redactedMark.toList, ¬ secretKey.Starts a := by
  have hall : ('"' :: '\'' :: redactedMark.toList).all (fun a => a ≠ 's') = true := by decide
  intro a ha hstarts
  exact of_decide_eq_true (List.all_eq_true.mp hall a ha) (starts_secretKey hstarts)

theorem tail_labelled {tail : List Char} (hfits : Fits labelled.after tail) :
    ∀ a ∈ tail, a ∈ ['"', '\''] := by
  obtain ⟨first, rest, rfl, hadmits, rfl⟩ := hfits
  rw [List.append_nil]
  exact fun a ha => of_decide_eq_true (hadmits.accepted a ha)

theorem refused_bearer :
    ∀ before ∈ bearer.before, ∀ run ∈ before ++ bearer.middle, run.accepts '[' = false := by
  refine List.forall_mem_singleton.mpr fun run hrun => ?_
  have hall : (letters "bearer" ++ [Run.atLeast 1 isSpace] ++ [Run.atLeast 12 isToken]).all
      (fun run => !run.accepts '[') = true := by decide
  have hrefused := List.all_eq_true.mp hall run hrun
  rwa [Bool.not_eq_true'] at hrefused

theorem refused_secretKey :
    ∀ before ∈ secretKey.before, ∀ run ∈ before ++ secretKey.middle, run.accepts '[' = false := by
  refine List.forall_mem_singleton.mpr ?_
  simp only [List.nil_append, secretKey, List.forall_mem_cons]
  exact ⟨rfl, rfl, rfl, rfl, fun _ hrun => absurd hrun List.not_mem_nil⟩

theorem harmless_key_bearer : Pattern.Harmless secretKey bearer (· = ·) ('[' ∉ ·) := by
  refine harmless_of_keeps lawful_bearer (fun _ => rfl) rfl refused_bearer
    (fun a ha => quiet_bearer a (List.mem_cons_of_mem _ (List.mem_cons_of_mem _ ha))) ?_ ?_
  · rintro tail rfl a ha
    cases ha
  · intro last text found hfound _ a ha hstarts
    have hrefused := rest_secretKey hfound a ha
    rw [isKeyChar_of_isAlphanum (isAlphanum_of_folds_b (starts_bearer hstarts))] at hrefused
    cases hrefused

theorem harmless_key_key : Pattern.Harmless secretKey secretKey (· = ·) ('[' ∉ ·) := by
  refine harmless_of_keeps lawful_secretKey (fun _ => rfl) rfl refused_secretKey
    (fun a ha => quiet_secretKey a (List.mem_cons_of_mem _ (List.mem_cons_of_mem _ ha))) ?_ ?_
  · rintro tail rfl a ha
    cases ha
  · intro last text found hfound _ a ha hstarts
    have hrefused := rest_secretKey hfound a ha
    rw [starts_secretKey hstarts] at hrefused
    cases hrefused

theorem harmless_label_bearer : Pattern.Harmless labelled bearer (· = ·) ('[' ∉ ·) := by
  refine harmless_of_keeps lawful_bearer (fun _ => rfl) rfl refused_bearer
    (fun a ha => quiet_bearer a (List.mem_cons_of_mem _ (List.mem_cons_of_mem _ ha))) ?_ ?_
  · intro tail hfits a ha
    exact quiet_bearer a (List.mem_append_left redactedMark.toList (tail_labelled hfits a ha))
  · intro last text found hfound hnone a ha hstarts
    have hrefused := stable_labelled.value_ends hfound rfl a
    rw [hnone, List.nil_append] at hrefused
    have hvalue := isValue_of_isAlphanum (isAlphanum_of_folds_b (starts_bearer hstarts))
    rw [hrefused ha] at hvalue
    cases hvalue

theorem harmless_label_key : Pattern.Harmless labelled secretKey (· = ·) ('[' ∉ ·) := by
  refine harmless_of_keeps lawful_secretKey (fun _ => rfl) rfl refused_secretKey
    (fun a ha => quiet_secretKey a (List.mem_cons_of_mem _ (List.mem_cons_of_mem _ ha))) ?_ ?_
  · intro tail hfits a ha
    exact quiet_secretKey a (List.mem_append_left redactedMark.toList (tail_labelled hfits a ha))
  · intro last text found hfound hnone a ha hstarts
    have hrefused := stable_labelled.value_ends hfound rfl a
    rw [hnone, List.nil_append, starts_secretKey hstarts] at hrefused
    rw [starts_secretKey hstarts] at ha
    cases hrefused ha

/-- A letter of `bearer` in one case or the other. -/
def Alike (a b : Char) : Prop := a = b ∨ (a.toLower = b.toLower ∧ b.toLower ∈ "bearer".toList)

/-- No bracket, and no gap at the end. -/
def Solid (word : List Char) : Prop := '[' ∉ word ∧ word.getLast? ≠ some ' '

omit [Alphabet] in
theorem Solid.suffix {a : Char} {word : List Char} (hsolid : Solid (a :: word)) : Solid word := by
  refine ⟨fun hmem => hsolid.1 (List.mem_cons_of_mem _ hmem), fun hlast => hsolid.2 ?_⟩
  cases word with
  | nil => cases hlast
  | cons b word => rwa [List.getLast?_cons_cons]

theorem solid_of_fits {a : Char} {word : List Char}
    (hfits : Fits (letters "bearer" ++ [.atLeast 1 isSpace] ++ [.atLeast 12 isToken]) (a :: word)) :
    Solid word := by
  obtain ⟨b, hlast, htoken⟩ := last_of_fits (by decide) hfits
  refine Solid.suffix ⟨Pattern.not_mem_of_fits (fun run hrun => ?_) hfits, fun hgap => ?_⟩
  · exact refused_bearer _ (List.mem_singleton_self _) run hrun
  · rw [hlast] at hgap
    cases hgap
    cases htoken

omit [Alphabet] in
theorem folds_of_fits {part : List Char} (text : String) (hfits : Fits (letters text) part) :
    List.Forall₂ (fun letter c => folds letter c = true) text.toList part := by
  unfold letters at hfits
  generalize text.toList = chars at hfits ⊢
  induction chars generalizing part with
  | nil =>
      cases hfits
      exact .nil
  | cons letter rest ih =>
      obtain ⟨first, later, rfl, hadmits, hlater⟩ := hfits
      obtain ⟨c, rfl⟩ := List.length_eq_one_iff.mp (Nat.le_antisymm (hadmits.most 1 rfl) hadmits.least)
      exact .cons (hadmits.accepted c (List.mem_singleton_self c)) (ih hlater)

omit [Alphabet] in
theorem toLower_of_folds {letter c : Char} (hfolds : folds letter c = true)
    (hletter : letter ∈ "bearer".toList) : c.toLower = letter := by
  unfold folds at hfolds
  rw [Bool.or_eq_true, decide_eq_true_eq, List.contains_iff_mem] at hfolds
  rcases hfolds with hlower | hvariant
  · exact hlower
  · have hletters : letter = 'i' ∨ letter = 'k' ∨ letter = 's' := by
      simp only [caseVariants, List.mem_cons, Prod.mk.injEq, List.not_mem_nil, or_false] at hvariant
      rcases hvariant with h | h | h | h <;> simp [h.1]
    rcases hletters with rfl | rfl | rfl <;> exact absurd hletter (by decide)

omit [Alphabet] in
theorem alike_of_folds {text part word : List Char}
    (hfolds : List.Forall₂ (fun letter c => folds letter c = true) text part)
    (hword : word.map Char.toLower = text) (htext : ∀ letter ∈ text, letter ∈ "bearer".toList) :
    List.Forall₂ Alike part word := by
  induction hfolds generalizing word with
  | nil =>
      rw [List.map_eq_nil_iff.mp hword]
      exact .nil
  | @cons letter c text part hc hpart ih =>
      obtain ⟨d, word, rfl, hd, hword⟩ := List.map_eq_cons_iff.mp hword
      obtain ⟨hletter, htext⟩ := List.forall_mem_cons.mp htext
      refine .cons (Or.inr ⟨?_, ?_⟩) (ih hword htext)
      · rw [hd, toLower_of_folds hc hletter]
      · rwa [hd]

omit [Alphabet] in
theorem accepts_of_alike {run : Run Char}
    (hrun : run ∈ letters "bearer" ++ [.atLeast 1 isSpace] ++ [.atLeast 12 isToken]) {a b : Char}
    (halike : Alike a b) (haccepts : run.accepts b = true) : run.accepts a = true := by
  rcases halike with rfl | ⟨hlower, hletter⟩
  · exact haccepts
  · have halnum : b.toLower.isAlphanum = true :=
      List.all_eq_true.mp (show "bearer".toList.all Char.isAlphanum = true from rfl) _ hletter
    rw [List.append_assoc, List.mem_append] at hrun
    rcases hrun with hrun | hrun
    · obtain ⟨letter, hmem, rfl⟩ := List.mem_map.mp hrun
      have hb := toLower_of_folds haccepts hmem
      have ha : folds letter a = true := by
        unfold folds
        rw [hlower, hb, decide_eq_true rfl]
        rfl
      exact ha
    · simp only [List.cons_append, List.nil_append, List.mem_cons, List.not_mem_nil, or_false] at hrun
      rcases hrun with rfl | rfl
      · have hnot := not_isSpace_of_isAlphanum (isAlphanum_of_toLower rfl halnum)
        rw [show isSpace b = true from haccepts] at hnot
        cases hnot
      · exact isToken_of_isAlphanum (isAlphanum_of_toLower hlower halnum)

theorem harmless_bearer_bearer : Pattern.Harmless bearer bearer Alike Solid where
  refl a := Or.inl rfl
  suffix a word hgood := hgood.suffix
  swap {last kept lost tail rest word more} hfound hgood hword := by
    obtain ⟨-, ⟨before, hbefore, hkept⟩, -, -⟩ := Pattern.fits_of_find hfound
    obtain rfl := List.mem_singleton.mp hbefore
    dsimp only at hkept
    obtain ⟨first, gap, rfl, hfirst, -⟩ := split_of_fits hkept
    have hshort : word <+: "Bearer".toList := by
      have hnormal : word <+: "Bearer".toList ++ [' '] := by
        rw [List.append_assoc] at hword
        exact Pattern.prefix_of_stop hword hgood.1
      rcases List.prefix_concat_iff.mp hnormal with rfl | hshort
      · exact absurd rfl hgood.2
      · exact hshort
    have halike : List.Forall₂ Alike first "Bearer".toList :=
      alike_of_folds (folds_of_fits "bearer" hfirst) rfl fun _ hletter => hletter
    refine ⟨first.take word.length, ?_, ?_⟩
    · rw [List.append_assoc]
      exact (List.take_prefix _ _).trans (List.prefix_append _ _)
    · have htaken := List.forall₂_take word.length halike
      rwa [← List.prefix_iff_eq_take.mp hshort] at htaken
  lawful := lawful_bearer
  alike := List.forall_mem_singleton.mpr fun run hrun a b => accepts_of_alike hrun
  good := List.forall_mem_singleton.mpr fun a word hfits => solid_of_fits hfits
  marked := List.cons_ne_nil _ _
  quiet_mark a ha := quiet_bearer a (List.mem_cons_of_mem _ (List.mem_cons_of_mem _ ha))
  quiet_tail := by
    rintro tail rfl a ha
    cases ha
  quiet_rest hfound _ a ha hstarts := by
    have hrefused := rest_bearer hfound a ha
    rw [isToken_of_isAlphanum (isAlphanum_of_folds_b (starts_bearer hstarts))] at hrefused
    cases hrefused
  quiet_head {last text found} hfound a ha hstarts := by
    obtain ⟨-, before, hbefore, word, rest, rfl, hfits⟩ :=
      Pattern.word_of_find (Option.ne_none_iff_exists'.mpr ⟨found, hfound⟩)
    obtain ⟨b, later, rfl⟩ := Pattern.word_ne_nil lawful_bearer hfits
    exact ⟨b, rfl, before, hbefore, begins_of_fits hfits⟩

theorem clean_bearer_bearer {last : Option Char} {text out : List Char}
    (hout : Pattern.Rewritten bearer last text out) : bearer.Clean last out := by
  refine harmless_bearer_bearer.clean_own (fun {last kept _ _ _} _ later hlater => ?_) hout
  have hquiet : ∀ a ∈ "earer ".toList, ¬ bearer.Starts a := by
    have hall : "earer ".toList.all (fun a => !folds 'b' a) = true := by decide
    intro a ha hstarts
    have hrefused := List.all_eq_true.mp hall a ha
    rw [starts_bearer hstarts] at hrefused
    cases hrefused
  refine ⟨?_, Pattern.clean_of_quiet lawful_bearer hquiet (hlater _)⟩
  by_contra hsome
  obtain ⟨-, before, hbefore, word, rest, htext, hfits⟩ := Pattern.word_of_find hsome
  obtain rfl := List.mem_singleton.mp hbefore
  have hstop := Pattern.not_mem_of_fits (refused_bearer _ (List.mem_singleton_self _)) hfits
  have hshort : word <+: "Bearer ".toList := Pattern.prefix_of_stop ⟨rest, htext.symm⟩ hstop
  have hleast : 19 ≤ word.length := length_of_fits hfits
  have hmost : word.length ≤ 7 := hshort.length_le
  omega

end Patterns

section Redacting

variable [Alphabet]

theorem clean_redacted (text : List Char) :
    bearer.Clean none (labelled.rewrite (secretKey.rewrite (bearer.rewrite text)))
      ∧ secretKey.Clean none (labelled.rewrite (secretKey.rewrite (bearer.rewrite text))) := by
  have hbearer := Pattern.rewritten_rewriteFrom lawful_bearer none text
  have hkey := Pattern.rewritten_rewriteFrom lawful_secretKey none (bearer.rewrite text)
  have hlabel := Pattern.rewritten_rewriteFrom lawful_labelled none
    (secretKey.rewrite (bearer.rewrite text))
  constructor
  · refine harmless_label_bearer.clean_other mark_cons (fun _ hgood => hgood) (fun _ => rfl) hlabel ?_
    refine harmless_key_bearer.clean_other mark_cons (fun _ hgood => hgood) (fun _ => rfl) hkey ?_
    exact clean_bearer_bearer hbearer
  · refine harmless_label_key.clean_other mark_cons (fun _ hgood => hgood) (fun _ => rfl) hlabel ?_
    refine harmless_key_key.clean_own (fun hfound later hlater => ?_) hkey
    obtain ⟨-, ⟨before, hbefore, hkept⟩, -, -⟩ := Pattern.fits_of_find hfound
    obtain rfl := List.mem_singleton.mp hbefore
    obtain rfl := hkept
    exact hlater _

theorem redactText_redactText (text : String) : redactText (redactText text) = redactText text := by
  have hlabel := Pattern.rewritten_rewriteFrom lawful_labelled none
    (secretKey.rewrite (bearer.rewrite text.toList))
  obtain ⟨hbearer, hkey⟩ := clean_redacted text.toList
  unfold redactText
  rw [String.toList_ofList, Pattern.rewrite_of_clean hbearer, Pattern.rewrite_of_clean hkey]
  exact congrArg String.ofList (stable_labelled.rewritten_again hlabel).eq_rewriteFrom

/-- A text from which redaction takes something carries the mark afterwards. -/
theorem redactText_eq_or_mark (text : String) :
    redactText text = text ∨ occursIn redactedMark (redactText text) = true := by
  have hrewrites : ∀ (pattern : Pattern Char) (given : List Char), pattern.Lawful → pattern.mark = redactedMark.toList →
      pattern.rewrite given = given ∨ redactedMark.toList <:+: pattern.rewrite given :=
    fun pattern given hlawful hmark => hmark ▸ (Pattern.rewritten_rewriteFrom hlawful none given).eq_or_mark
  unfold redactText occursIn
  rw [decide_eq_true_eq, String.toList_ofList]
  rcases hrewrites labelled (secretKey.rewrite (bearer.rewrite text.toList)) lawful_labelled rfl with hlabel | hmark
  · rw [hlabel]
    rcases hrewrites secretKey (bearer.rewrite text.toList) lawful_secretKey rfl with hkey | hmark
    · rw [hkey]
      rcases hrewrites bearer text.toList lawful_bearer rfl with hbearer | hmark
      · rw [hbearer, String.ofList_toList]
        exact Or.inl rfl
      · exact Or.inr hmark
    · exact Or.inr hmark
  · exact Or.inr hmark

/-- No secret begins in the scheme of a credential reference. -/
theorem still_credential :
    bearer.Still none "credential://".toList ∧ secretKey.Still none "credential://".toList
      ∧ labelled.Still none "credential://".toList := by
  refine ⟨Pattern.still_of_quiet fun c hc hstarts => ?_, Pattern.still_of_quiet fun c hc hstarts => ?_, ?_⟩
  · have hall : "credential://".toList.all (fun c => !folds 'b' c) = true := by decide
    have hrefused := List.all_eq_true.mp hall c hc
    rw [starts_bearer hstarts] at hrefused
    cases hrefused
  · have hall : "credential://".toList.all (fun c => c ≠ 's') = true := by decide
    exact of_decide_eq_true (List.all_eq_true.mp hall c hc) (starts_secretKey hstarts)
  · have hquiet : ∀ c, ['a', 'p', 's'].all (fun letter => !folds letter c) = true →
        ¬ labelled.Starts c := by
      intro c hall hstarts
      obtain ⟨letter, hletter, hfolds⟩ := starts_labelled hstarts
      have hrefused := List.all_eq_true.mp hall letter hletter
      rw [hfolds] at hrefused
      cases hrefused
    have hfirst : ∀ c ∈ "credenti".toList, ¬ labelled.Starts c := by
      have hall : "credenti".toList.all (fun c =>
          ['a', 'p', 's'].all fun letter => !folds letter c) = true := by decide
      exact fun c hc => hquiet c (List.all_eq_true.mp hall c hc)
    have hlast : ∀ c ∈ "l://".toList, ¬ labelled.Starts c := by
      have hall : "l://".toList.all (fun c =>
          ['a', 'p', 's'].all fun letter => !folds letter c) = true := by decide
      exact fun c hc => hquiet c (List.all_eq_true.mp hall c hc)
    have hsplit : "credential://".toList = "credenti".toList ++ 'a' :: "l://".toList := rfl
    rw [hsplit]
    refine Pattern.still_append (Pattern.still_of_quiet hfirst) ?_
    exact ⟨Or.inr ⟨rfl, rfl⟩, Pattern.still_of_quiet hlast⟩

theorem startsWith_redactText {text : String} (hstarts : startsWith text "credential://" = true) :
    startsWith (redactText text) "credential://" = true := by
  obtain ⟨rest, hrest⟩ := List.isPrefixOf_iff_prefix.mp hstarts
  obtain ⟨hbearer, hkey, hlabel⟩ := still_credential
  unfold startsWith redactText
  rw [← hrest, Pattern.rewrite, Pattern.rewrite, Pattern.rewrite,
    Pattern.rewriteFrom_still lawful_bearer hbearer, Pattern.rewriteFrom_still lawful_secretKey hkey,
    Pattern.rewriteFrom_still lawful_labelled hlabel]
  rw [String.toList_ofList, String.toList_ofList]
  exact List.isPrefixOf_iff_prefix.mpr (List.prefix_append _ _)

end Redacting

end SecretRedactor

end PatchLoop
