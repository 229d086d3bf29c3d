import PatchLoop.Texts

/-!
# Lines of a text

`str.splitlines` ends a line at more characters than the writers of the program do, who end each record
with a line feed. A text of records has as many lines as records exactly if no record holds one of the
other separators.
-/

namespace PatchLoop

/-- The characters at which `str.splitlines` ends a line. -/
def isLineBreak (c : Char) : Bool :=
  c ∈ ['\n', '\r', '\x0b', '\x0c', '\x1c', '\x1d', '\x1e', '\u0085', '\u2028', '\u2029']

/-- `splitlines`, with the line so far in reverse. -/
def splitLinesFrom (line : List Char) : List Char → List (List Char)
  | [] => if line = [] then [] else [line.reverse]
  | c :: cs =>
      if c = '\r' then
        match cs with
        | [] => [line.reverse]
        | d :: rest =>
            if d = '\n' then line.reverse :: splitLinesFrom [] rest
            else line.reverse :: splitLinesFrom [] (d :: rest)
      else if isLineBreak c then line.reverse :: splitLinesFrom [] cs
      else splitLinesFrom (c :: line) cs

/-- `str.splitlines` -/
def splitLines (text : String) : List String := (splitLinesFrom [] text.toList).map String.ofList

theorem splitLinesFrom_cons {c : Char} (hc : c ≠ '\r') (line cs : List Char) :
    splitLinesFrom line (c :: cs)
      = if isLineBreak c then line.reverse :: splitLinesFrom [] cs
        else splitLinesFrom (c :: line) cs := by
  rw [splitLinesFrom.eq_def]
  simp only [if_neg hc]

theorem splitLinesFrom_line {line cs : List Char} (hbreaks : ∀ c ∈ cs, isLineBreak c = false)
    (hline : line ≠ [] ∨ cs ≠ []) : splitLinesFrom line cs = [line.reverse ++ cs] := by
  induction cs generalizing line with
  | nil =>
      have hne : line ≠ [] := hline.resolve_right fun hcs => hcs rfl
      rw [splitLinesFrom, if_neg hne, List.append_nil]
  | cons c cs ih =>
      obtain ⟨hc, hrest⟩ := List.forall_mem_cons.mp hbreaks
      have hreturn : c ≠ '\r' := by
        rintro rfl
        cases hc
      rw [splitLinesFrom_cons hreturn, hc, if_neg Bool.false_ne_true,
        ih hrest (Or.inl (List.cons_ne_nil _ _)), List.reverse_cons, List.append_assoc]
      rfl

theorem not_lineBreak {line : List Char} (hall : line.all (fun c => !isLineBreak c) = true) :
    ∀ c ∈ line, isLineBreak c = false := by
  intro c hc
  have hkept := List.all_eq_true.mp hall c hc
  rwa [Bool.not_eq_true'] at hkept

theorem splitLinesFrom_break {line first : List Char} {b : Char}
    (hbreaks : ∀ c ∈ first, isLineBreak c = false) (hb : isLineBreak b = true) (hreturn : b ≠ '\r')
    (rest : List Char) :
    splitLinesFrom line (first ++ b :: rest) = (line.reverse ++ first) :: splitLinesFrom [] rest := by
  induction first generalizing line with
  | nil => rw [List.nil_append, List.append_nil, splitLinesFrom_cons hreturn, if_pos hb]
  | cons c cs ih =>
      obtain ⟨hc, hrest⟩ := List.forall_mem_cons.mp hbreaks
      have hreturn : c ≠ '\r' := by
        rintro rfl
        cases hc
      rw [List.cons_append, splitLinesFrom_cons hreturn, hc, if_neg Bool.false_ne_true, ih hrest,
        List.reverse_cons, List.append_assoc]
      rfl

/-! ### Records -/

/-- The records, each with a line feed after it. -/
def unlines (records : List (List Char)) : List Char := records.flatMap (· ++ ['\n'])

/-- What a record is known to be: it has no carriage return, and there is no space at its ends. -/
structure IsRecord (record : List Char) : Prop where
  unreturned : '\r' ∉ record
  first : ∃ c rest, record = c :: rest ∧ isSpace c = false
  last : ∃ c init, record = init ++ [c] ∧ isSpace c = false

theorem isSpace_of_lineBreak {c : Char} (hbreak : isLineBreak c = true) : isSpace c = true := by
  simp only [isLineBreak, List.mem_cons, List.not_mem_nil, or_false, decide_eq_true_eq] at hbreak
  rcases hbreak with rfl | rfl | rfl | rfl | rfl | rfl | rfl | rfl | rfl | rfl <;> decide

/-- What is before a line feed and what is after it are split on their own. -/
theorem splitLinesFrom_append {line first : List Char} (hreturn : '\r' ∉ first) (rest : List Char) :
    splitLinesFrom line (first ++ '\n' :: rest)
      = splitLinesFrom line (first ++ ['\n']) ++ splitLinesFrom [] rest := by
  induction first generalizing line with
  | nil =>
      rw [List.nil_append, List.nil_append, splitLinesFrom_cons (by decide), if_pos (by decide),
        splitLinesFrom_cons (by decide), if_pos (by decide)]
      rfl
  | cons c cs ih =>
      rw [List.mem_cons, not_or] at hreturn
      have hc : c ≠ '\r' := Ne.symm hreturn.1
      rw [List.cons_append, List.cons_append, splitLinesFrom_cons hc, splitLinesFrom_cons hc]
      split
      · rw [ih hreturn.2]
        rfl
      · exact ih hreturn.2

/-- A character that is no space is on some line. -/
theorem exists_line {line cs : List Char} {c : Char} (hreturn : '\r' ∉ cs) (hspace : isSpace c = false)
    (hmem : c ∈ line ∨ c ∈ cs) : ∃ found ∈ splitLinesFrom line cs, c ∈ found := by
  induction cs generalizing line with
  | nil =>
      have hline : c ∈ line := hmem.resolve_right List.not_mem_nil
      rw [splitLinesFrom, if_neg (List.ne_nil_of_mem hline)]
      exact ⟨_, List.mem_singleton_self _, List.mem_reverse.mpr hline⟩
  | cons d cs ih =>
      rw [List.mem_cons, not_or] at hreturn
      rw [splitLinesFrom_cons (Ne.symm hreturn.1)]
      split
      · rename_i hbreak
        have hne : c ≠ d := by
          rintro rfl
          rw [isSpace_of_lineBreak hbreak] at hspace
          cases hspace
        rcases hmem with hline | hcs
        · exact ⟨_, List.mem_cons_self, List.mem_reverse.mpr hline⟩
        · have hcs : c ∈ cs := (List.mem_cons.mp hcs).resolve_left hne
          obtain ⟨found, hfound, hc⟩ := @ih [] hreturn.2 (Or.inr hcs)
          exact ⟨found, List.mem_cons_of_mem _ hfound, hc⟩
      · refine ih hreturn.2 ?_
        rcases hmem with hline | hcs
        · exact Or.inl (List.mem_cons_of_mem _ hline)
        · rcases List.mem_cons.mp hcs with rfl | hcs
          · exact Or.inl List.mem_cons_self
          · exact Or.inr hcs

section Counting

variable {p : List Char → Bool} (hp : ∀ line c, c ∈ line → isSpace c = false → p line = true)
include hp

/-- A record that holds a separator is read as two lines at least. -/
theorem countP_record {record : List Char} (hrecord : IsRecord record) :
    1 ≤ (splitLinesFrom [] (record ++ ['\n'])).countP p
      ∧ ((∃ c ∈ record, isLineBreak c = true) →
        2 ≤ (splitLinesFrom [] (record ++ ['\n'])).countP p) := by
  obtain ⟨w, init, hlast, hw⟩ := hrecord.last
  have hcounts : ∀ cs line, '\r' ∉ cs → w ∈ cs → 1 ≤ (splitLinesFrom line (cs ++ ['\n'])).countP p := by
    intro cs line hreturn hmem
    obtain ⟨found, hfound, hc⟩ := @exists_line line (cs ++ ['\n']) w
      (by simpa using hreturn) hw (Or.inr (List.mem_append_left _ hmem))
    exact List.one_le_countP_iff.mpr ⟨found, hfound, hp found w hc hw⟩
  refine ⟨hcounts record [] hrecord.unreturned (by rw [hlast]; simp), ?_⟩
  rintro ⟨b, hb, hbreak⟩
  -- the first separator ends a line, which starts with the first character of the record
  obtain ⟨b, hfind⟩ := Option.isSome_iff_exists.mp (List.find?_isSome.mpr ⟨b, hb, hbreak⟩)
  obtain ⟨hbreak, start, rest, rfl, hstart⟩ := List.find?_eq_some_iff_append.mp hfind
  have hstart : ∀ c ∈ start, isLineBreak c = false := fun c hc => by simpa using hstart c hc
  have hunreturned := hrecord.unreturned
  rw [List.mem_append, List.mem_cons, not_or, not_or] at hunreturned
  have hspace : isSpace b = true := isSpace_of_lineBreak hbreak
  have hfirst : p start = true := by
    obtain ⟨c, more, hcons, hc⟩ := hrecord.first
    cases start with
    | nil =>
        cases hcons
        rw [hspace] at hc
        cases hc
    | cons d cs =>
        cases hcons
        exact hp _ c List.mem_cons_self hc
  have hw : w ∈ rest := by
    rcases List.eq_nil_or_concat rest with rfl | ⟨more, x, rfl⟩
    · obtain ⟨-, hlast⟩ := List.append_inj' hlast rfl
      cases hlast
      rw [hspace] at hw
      cases hw
    · rw [List.concat_eq_append, ← List.cons_append, ← List.append_assoc] at hlast
      obtain ⟨-, hlast⟩ := List.append_inj' hlast rfl
      cases hlast
      rw [List.concat_eq_append]
      exact List.mem_append_right _ (List.mem_singleton_self _)
  rw [List.append_assoc, List.cons_append, splitLinesFrom_break hstart hbreak
    (Ne.symm hunreturned.2.1), List.reverse_nil, List.nil_append,
    List.countP_cons_of_pos hfirst]
  exact Nat.succ_le_succ (hcounts rest [] hunreturned.2.2 hw)

theorem countP_unlines {records : List (List Char)} (hrecords : ∀ record ∈ records, IsRecord record) :
    records.length ≤ (splitLinesFrom [] (unlines records)).countP p
      ∧ ((∃ record ∈ records, ∃ c ∈ record, isLineBreak c = true) →
        records.length < (splitLinesFrom [] (unlines records)).countP p) := by
  induction records with
  | nil => exact ⟨Nat.zero_le _, fun ⟨_, hmem, _⟩ => absurd hmem List.not_mem_nil⟩
  | cons record rest ih =>
      obtain ⟨hrecord, hrest⟩ := List.forall_mem_cons.mp hrecords
      obtain ⟨hone, htwo⟩ := countP_record hp hrecord
      obtain ⟨hat, hmore⟩ := ih hrest
      have hsplit : splitLinesFrom [] (unlines (record :: rest))
          = splitLinesFrom [] (record ++ ['\n']) ++ splitLinesFrom [] (unlines rest) := by
        rw [unlines, List.flatMap_cons, List.append_assoc, List.singleton_append]
        exact splitLinesFrom_append hrecord.unreturned _
      rw [hsplit, List.countP_append, List.length_cons]
      refine ⟨by omega, ?_⟩
      rintro ⟨found, hmem, hbreak⟩
      rcases List.mem_cons.mp hmem with rfl | hmem
      · have := htwo hbreak
        omega
      · have := hmore ⟨found, hmem, hbreak⟩
        omega

end Counting

/-- Records without separators are the lines of their text. -/
theorem splitLinesFrom_unlines {records : List (List Char)}
    (hbreaks : ∀ record ∈ records, ∀ c ∈ record, isLineBreak c = false) :
    splitLinesFrom [] (unlines records) = records := by
  induction records with
  | nil => rfl
  | cons record rest ih =>
      obtain ⟨hrecord, hrest⟩ := List.forall_mem_cons.mp hbreaks
      rw [unlines, List.flatMap_cons, List.append_assoc, List.singleton_append,
        splitLinesFrom_break hrecord (by decide) (by decide)]
      exact congrArg (record :: ·) (ih hrest)

/-! ### Lines with their ends -/

/-- `splitlines(keepends=True)`, with the line so far in reverse. -/
def keepLinesFrom (line : List Char) : List Char → List (List Char)
  | [] => if line = [] then [] else [line.reverse]
  | c :: cs =>
      if c = '\r' then
        match cs with
        | [] => [(c :: line).reverse]
        | d :: rest =>
            if d = '\n' then (d :: c :: line).reverse :: keepLinesFrom [] rest
            else (c :: line).reverse :: keepLinesFrom [] (d :: rest)
      else if isLineBreak c then (c :: line).reverse :: keepLinesFrom [] cs
      else keepLinesFrom (c :: line) cs

/-- `str.splitlines(keepends=True)` -/
def keepLines (text : String) : List (List Char) := keepLinesFrom [] text.toList

/-- A line without its end. -/
def lineText (line : List Char) : List Char := line.takeWhile fun c => !isLineBreak c

def isEnded (line : List Char) : Bool := line.any isLineBreak

/-- A text without line breaks, and at most one end of a line after it. -/
def IsLine (line : List Char) : Prop :=
  ∃ text ending, line = text ++ ending ∧ (∀ c ∈ text, isLineBreak c = false)
    ∧ (ending = [] ∨ ending = ['\r', '\n'] ∨ ∃ c, isLineBreak c = true ∧ ending = [c])

theorem IsLine.cons {line : List Char} (hline : IsLine line) {c : Char} (hc : isLineBreak c = false) :
    IsLine (c :: line) := by
  obtain ⟨text, ending, rfl, htext, hending⟩ := hline
  exact ⟨c :: text, ending, rfl, List.forall_mem_cons.mpr ⟨hc, htext⟩, hending⟩

theorem keepLinesFrom_isLine {line : List Char} (hline : ∀ c ∈ line, isLineBreak c = false)
    (cs : List Char) : ∀ found ∈ keepLinesFrom line cs, IsLine found := by
  have hreverse : ∀ {line : List Char}, (∀ c ∈ line, isLineBreak c = false) →
      ∀ c ∈ line.reverse, isLineBreak c = false :=
    fun hline c hc => hline c (List.mem_reverse.mp hc)
  fun_induction keepLinesFrom line cs with
  | case1 => exact fun found hfound => absurd hfound List.not_mem_nil
  | case2 line hne =>
      intro found hfound
      rw [List.mem_singleton.mp hfound]
      exact ⟨line.reverse, [], (List.append_nil _).symm, hreverse hline, Or.inl rfl⟩
  | case3 line =>
      intro found hfound
      rw [List.mem_singleton.mp hfound, List.reverse_cons]
      exact ⟨line.reverse, ['\r'], rfl, hreverse hline, Or.inr (Or.inr ⟨'\r', rfl, rfl⟩)⟩
  | case4 line rest ih =>
      intro found hfound
      rcases List.mem_cons.mp hfound with rfl | hfound
      · rw [List.reverse_cons, List.reverse_cons, List.append_assoc]
        exact ⟨line.reverse, ['\r', '\n'], rfl, hreverse hline, Or.inr (Or.inl rfl)⟩
      · exact ih (fun c hc => absurd hc List.not_mem_nil) found hfound
  | case5 line d rest hd ih =>
      intro found hfound
      rcases List.mem_cons.mp hfound with rfl | hfound
      · rw [List.reverse_cons]
        exact ⟨line.reverse, ['\r'], rfl, hreverse hline, Or.inr (Or.inr ⟨'\r', rfl, rfl⟩)⟩
      · exact ih (fun c hc => absurd hc List.not_mem_nil) found hfound
  | case6 line c cs hreturn hbreak ih =>
      intro found hfound
      rcases List.mem_cons.mp hfound with rfl | hfound
      · rw [List.reverse_cons]
        exact ⟨line.reverse, [c], rfl, hreverse hline, Or.inr (Or.inr ⟨c, hbreak, rfl⟩)⟩
      · exact ih (fun c hc => absurd hc List.not_mem_nil) found hfound
  | case7 line c cs hreturn hbreak ih =>
      exact ih (List.forall_mem_cons.mpr ⟨Bool.eq_false_iff.mpr hbreak, hline⟩)

/-- Only the last line may lack its end. -/
theorem keepLinesFrom_ended (line cs : List Char) :
    ∀ found ∈ (keepLinesFrom line cs).dropLast, isEnded found = true := by
  have hended : ∀ {c : Char} {line : List Char} {rest : List (List Char)}, isLineBreak c = true →
      (∀ found ∈ rest.dropLast, isEnded found = true) →
      ∀ found ∈ ((c :: line).reverse :: rest).dropLast, isEnded found = true := by
    intro c line rest hbreak hrest found hfound
    cases rest with
    | nil => cases hfound
    | cons next rest =>
        rcases List.mem_cons.mp hfound with rfl | hfound
        · exact List.any_eq_true.mpr ⟨c, List.mem_reverse.mpr List.mem_cons_self, hbreak⟩
        · exact hrest found hfound
  fun_induction keepLinesFrom line cs with
  | case1 => exact fun found hfound => absurd hfound List.not_mem_nil
  | case2 => exact fun found hfound => absurd hfound List.not_mem_nil
  | case3 => exact fun found hfound => absurd hfound List.not_mem_nil
  | case4 line rest ih => exact hended rfl ih
  | case5 line d rest hd ih => exact hended rfl ih
  | case6 line c cs hreturn hbreak ih => exact hended hbreak ih
  | case7 line c cs hreturn hbreak ih => exact ih

/-! ### Lines of a text that is made of several -/

theorem takeWhile_lineText {text ending : List Char} (htext : ∀ c ∈ text, isLineBreak c = false)
    (hending : ∀ c, ending.head? = some c → isLineBreak c = true) : lineText (text ++ ending) = text := by
  unfold lineText
  rw [List.takeWhile_append_of_pos fun c hc => by rw [htext c hc]; rfl]
  cases ending with
  | nil => rw [List.takeWhile_nil, List.append_nil]
  | cons c rest =>
      rw [List.takeWhile_cons_of_neg (by rw [hending c rfl]; exact Bool.false_ne_true), List.append_nil]

theorem splitLinesFrom_text {text : List Char} (htext : ∀ c ∈ text, isLineBreak c = false)
    (line rest : List Char) :
    splitLinesFrom line (text ++ rest) = splitLinesFrom (text.reverse ++ line) rest := by
  induction text generalizing line with
  | nil => rfl
  | cons c cs ih =>
      obtain ⟨hc, hcs⟩ := List.forall_mem_cons.mp htext
      have hreturn : c ≠ '\r' := by
        rintro rfl
        cases hc
      rw [List.cons_append, splitLinesFrom_cons hreturn, hc, if_neg Bool.false_ne_true, ih hcs,
        List.reverse_cons, List.append_assoc]
      rfl

/-- The next line of a text, where it is known to be one. -/
theorem splitLinesFrom_isLine {line : List Char} (hline : IsLine line) {rest : List Char}
    (hrest : rest.head? ≠ some '\n') (before : List Char) :
    splitLinesFrom before (line ++ rest)
      = if isEnded line then (before.reverse ++ lineText line) :: splitLinesFrom [] rest
        else splitLinesFrom (line.reverse ++ before) rest := by
  obtain ⟨text, ending, rfl, htext, hending⟩ := hline
  have hunbroken : text.any isLineBreak = false := by
    rw [List.any_eq_false]
    exact fun c hc => Bool.eq_false_iff.mp (htext c hc)
  unfold isEnded
  rw [List.any_append, hunbroken, Bool.false_or, List.append_assoc, splitLinesFrom_text htext]
  rcases hending with rfl | rfl | ⟨c, hbreak, rfl⟩
  · rw [if_neg (by decide), List.nil_append, List.append_nil]
  · rw [if_pos (by decide), takeWhile_lineText htext (by rintro c ⟨⟩; rfl)]
    simp [splitLinesFrom]
  · rw [if_pos (by simpa using hbreak), takeWhile_lineText htext (by rintro d ⟨⟩; exact hbreak)]
    by_cases hreturn : c = '\r'
    · subst hreturn
      cases rest with
      | nil => simp [splitLinesFrom]
      | cons d rest =>
          have hd : d ≠ '\n' := by simpa using hrest
          simp [splitLinesFrom, hd]
    · rw [List.singleton_append, splitLinesFrom_cons hreturn, if_pos hbreak, List.reverse_append,
        List.reverse_reverse]

/-- What is before a text becomes a part of its first line. -/
theorem exists_splitLinesFrom_eq_cons {cs : List Char} (hne : cs ≠ []) :
    ∃ first rest, ∀ line, splitLinesFrom line cs = (line.reverse ++ first) :: rest := by
  induction cs with
  | nil => contradiction
  | cons c cs ih =>
      by_cases hreturn : c = '\r'
      · subst hreturn
        cases cs with
        | nil => exact ⟨[], [], fun line => by simp [splitLinesFrom]⟩
        | cons d rest =>
            by_cases hd : d = '\n'
            · exact ⟨[], splitLinesFrom [] rest, fun line => by simp [splitLinesFrom, hd]⟩
            · exact ⟨[], splitLinesFrom [] (d :: rest), fun line => by simp [splitLinesFrom, hd]⟩
      · by_cases hbreak : isLineBreak c = true
        · refine ⟨[], splitLinesFrom [] cs, fun line => ?_⟩
          rw [splitLinesFrom_cons hreturn, if_pos hbreak, List.append_nil]
        · by_cases hempty : cs = []
          · refine ⟨[c], [], fun line => ?_⟩
            rw [splitLinesFrom_cons hreturn, if_neg hbreak, hempty, splitLinesFrom,
              if_neg (List.cons_ne_nil c line), List.reverse_cons]
          · obtain ⟨first, rest, hsplit⟩ := ih hempty
            refine ⟨c :: first, rest, fun line => ?_⟩
            rw [splitLinesFrom_cons hreturn, if_neg hbreak, hsplit, List.reverse_cons,
              List.append_assoc]
            rfl

/-- Whether a text is at the end of a line where it ends. -/
def endsLine (text : List Char) : Bool := text.getLast?.any isLineBreak

/-- A text is split into the lines that it ends, and what is left of it goes on in the next text. -/
theorem exists_splitLinesFrom_append (line first : List Char) :
    ∃ ended last, (first = [] → last = line) ∧ (first ≠ [] → (endsLine first = true ↔ last = []))
      ∧ ∀ rest : List Char, rest.head? ≠ some '\n' →
        splitLinesFrom line (first ++ rest) = ended ++ splitLinesFrom last rest := by
  have hlast : ∀ {c : Char} {cs last : List Char}, isLineBreak c = true → (cs = [] → last = []) →
      (cs ≠ [] → (endsLine cs = true ↔ last = [])) → (endsLine (c :: cs) = true ↔ last = []) := by
    intro c cs last hbreak hempty hmore
    cases cs with
    | nil => exact iff_of_true hbreak (hempty rfl)
    | cons d rest =>
        unfold endsLine at hmore ⊢
        rw [List.getLast?_cons_cons]
        exact hmore (List.cons_ne_nil d rest)
  fun_induction splitLinesFrom line first with
  | case1 => exact ⟨[], [], fun _ => rfl, fun hne => absurd rfl hne, fun rest _ => rfl⟩
  | case2 line hne => exact ⟨[], line, fun _ => rfl, fun hne => absurd rfl hne, fun rest _ => rfl⟩
  | case3 line =>
      refine ⟨[line.reverse], [], fun hnil => absurd hnil (List.cons_ne_nil _ _),
        fun _ => iff_of_true rfl rfl, fun rest hrest => ?_⟩
      cases rest with
      | nil => simp [splitLinesFrom]
      | cons d rest =>
          have hd : d ≠ '\n' := by simpa using hrest
          simp [splitLinesFrom, hd]
  | case4 line cs ih =>
      obtain ⟨ended, last, hempty, hmore, hsplit⟩ := ih
      refine ⟨line.reverse :: ended, last, fun hnil => absurd hnil (List.cons_ne_nil _ _),
        fun _ => ?_, fun rest hrest => ?_⟩
      · have hfeed := hlast (c := '\n') rfl hempty hmore
        exact hlast (c := '\r') rfl (fun hnil => absurd hnil (List.cons_ne_nil _ _)) fun _ => hfeed
      · have hstep : splitLinesFrom line ('\r' :: '\n' :: (cs ++ rest))
            = line.reverse :: splitLinesFrom [] (cs ++ rest) := by simp [splitLinesFrom]
        rw [List.cons_append, List.cons_append, hstep, hsplit rest hrest]
        rfl
  | case5 line d cs hd ih =>
      obtain ⟨ended, last, hempty, hmore, hsplit⟩ := ih
      refine ⟨line.reverse :: ended, last, fun hnil => absurd hnil (List.cons_ne_nil _ _),
        fun _ => hlast rfl (fun hnil => absurd hnil (List.cons_ne_nil _ _)) hmore,
        fun rest hrest => ?_⟩
      have hstep : splitLinesFrom line ('\r' :: d :: (cs ++ rest))
          = line.reverse :: splitLinesFrom [] (d :: (cs ++ rest)) := by simp [splitLinesFrom, hd]
      rw [List.cons_append, List.cons_append, hstep, ← List.cons_append, hsplit rest hrest]
      rfl
  | case6 line c cs hreturn hbreak ih =>
      obtain ⟨ended, last, hempty, hmore, hsplit⟩ := ih
      refine ⟨line.reverse :: ended, last, fun hnil => absurd hnil (List.cons_ne_nil _ _),
        fun _ => hlast hbreak hempty hmore, fun rest hrest => ?_⟩
      rw [List.cons_append, splitLinesFrom_cons hreturn, if_pos hbreak, hsplit rest hrest]
      rfl
  | case7 line c cs hreturn hbreak ih =>
      obtain ⟨ended, last, hempty, hmore, hsplit⟩ := ih
      refine ⟨ended, last, fun hnil => absurd hnil (List.cons_ne_nil _ _), fun _ => ?_,
        fun rest hrest => ?_⟩
      · cases cs with
        | nil =>
            rw [hempty rfl]
            exact iff_of_false hbreak (List.cons_ne_nil c line)
        | cons d rest =>
            unfold endsLine at hmore ⊢
            rw [List.getLast?_cons_cons]
            exact hmore (List.cons_ne_nil d rest)
      · rw [List.cons_append, splitLinesFrom_cons hreturn, if_neg hbreak, hsplit rest hrest]

/-- What is split where a line ends is split on its own. -/
theorem splitLinesFrom_append_of_endsLine {first rest : List Char} (hends : endsLine first = true)
    (hrest : rest.head? ≠ some '\n') :
    splitLinesFrom [] (first ++ rest) = splitLinesFrom [] first ++ splitLinesFrom [] rest := by
  have hne : first ≠ [] := by
    rintro rfl
    cases hends
  obtain ⟨ended, last, -, hlast, hsplit⟩ := exists_splitLinesFrom_append [] first
  have hfirst := hsplit [] (by simp)
  rw [List.append_nil, (hlast hne).mp hends] at hfirst
  rw [hsplit rest hrest, hfirst, (hlast hne).mp hends, splitLinesFrom, if_pos rfl, List.append_nil]

/-- What is split within a line makes one line of two. -/
theorem length_splitLinesFrom_append {first rest : List Char} (hends : endsLine first = false)
    (hfirst : first ≠ []) (hne : rest ≠ []) (hrest : rest.head? ≠ some '\n') :
    (splitLinesFrom [] (first ++ rest)).length + 1
      = (splitLinesFrom [] first).length + (splitLinesFrom [] rest).length := by
  obtain ⟨ended, last, -, hlast, hsplit⟩ := exists_splitLinesFrom_append [] first
  have hlast : last ≠ [] := fun hnil => Bool.eq_false_iff.mp hends ((hlast hfirst).mpr hnil)
  have halone := hsplit [] (by simp)
  rw [List.append_nil] at halone
  obtain ⟨line, lines, hlines⟩ := exists_splitLinesFrom_eq_cons hne
  rw [hsplit rest hrest, halone, hlines, hlines, splitLinesFrom, if_neg hlast]
  simp only [List.length_append, List.length_cons, List.length_nil]
  omega

theorem splitLinesFrom_unbroken {line : List Char} (hline : ∀ c ∈ line, isLineBreak c = false)
    (cs : List Char) : ∀ found ∈ splitLinesFrom line cs, ∀ c ∈ found, isLineBreak c = false := by
  have hreverse : ∀ {line : List Char}, (∀ c ∈ line, isLineBreak c = false) →
      ∀ c ∈ line.reverse, isLineBreak c = false :=
    fun hline c hc => hline c (List.mem_reverse.mp hc)
  have hnil : ∀ c ∈ ([] : List Char), isLineBreak c = false := fun c hc => absurd hc List.not_mem_nil
  fun_induction splitLinesFrom line cs with
  | case1 => exact fun found hfound => absurd hfound List.not_mem_nil
  | case2 => exact List.forall_mem_singleton.mpr (hreverse hline)
  | case3 => exact List.forall_mem_singleton.mpr (hreverse hline)
  | case4 line rest ih => exact List.forall_mem_cons.mpr ⟨hreverse hline, ih hnil⟩
  | case5 line d rest hd ih => exact List.forall_mem_cons.mpr ⟨hreverse hline, ih hnil⟩
  | case6 line c cs hreturn hbreak ih => exact List.forall_mem_cons.mpr ⟨hreverse hline, ih hnil⟩
  | case7 line c cs hreturn hbreak ih =>
      exact ih (List.forall_mem_cons.mpr ⟨Bool.eq_false_iff.mpr hbreak, hline⟩)

theorem head_flatten_ne {texts : List (List Char)} (hheads : ∀ text ∈ texts, text.head? ≠ some '\n') :
    texts.flatten.head? ≠ some '\n' := by
  induction texts with
  | nil => exact fun hnone => by cases hnone
  | cons text rest ih =>
      obtain ⟨htext, hrest⟩ := List.forall_mem_cons.mp hheads
      rw [List.flatten_cons]
      cases text with
      | nil => exact ih hrest
      | cons c cs => exact htext

theorem length_splitLinesFrom_flatten_le {texts : List (List Char)}
    (hheads : ∀ text ∈ texts, text.head? ≠ some '\n') :
    (splitLinesFrom [] texts.flatten).length ≤ (texts.flatMap (splitLinesFrom [])).length := by
  induction texts with
  | nil => exact Nat.le_refl _
  | cons text rest ih =>
      obtain ⟨-, hrest⟩ := List.forall_mem_cons.mp hheads
      have hmore := ih hrest
      rw [List.flatten_cons, List.flatMap_cons, List.length_append]
      by_cases htext : text = []
      · rw [htext, List.nil_append]
        omega
      · by_cases hempty : rest.flatten = []
        · rw [hempty, List.append_nil]
          omega
        · cases hends : endsLine text with
          | true =>
              rw [splitLinesFrom_append_of_endsLine hends (head_flatten_ne hrest), List.length_append]
              omega
          | false =>
              have hjoined := length_splitLinesFrom_append hends htext hempty (head_flatten_ne hrest)
              omega

/-- Texts in a row have the lines of each of them exactly if each that is followed by another one ends a
line. -/
theorem splitLinesFrom_flatten_iff {texts : List (List Char)}
    (hheads : ∀ text ∈ texts, text.head? ≠ some '\n') :
    splitLinesFrom [] texts.flatten = texts.flatMap (splitLinesFrom [])
      ↔ ∀ text ∈ (texts.filter (· ≠ [])).dropLast, endsLine text = true := by
  induction texts with
  | nil => exact iff_of_true rfl fun text htext => absurd htext List.not_mem_nil
  | cons text rest ih =>
      obtain ⟨-, hrest⟩ := List.forall_mem_cons.mp hheads
      have hmore := ih hrest
      rw [List.flatten_cons, List.flatMap_cons]
      by_cases htext : text = []
      · rw [List.filter_cons_of_neg (by simpa using htext), htext]
        exact hmore
      · rw [List.filter_cons_of_pos (by simpa using htext)]
        by_cases hempty : rest.flatten = []
        · have hall : ∀ other ∈ rest, other = [] := List.flatten_eq_nil_iff.mp hempty
          have hnone : rest.filter (· ≠ []) = [] := by
            rw [List.filter_eq_nil_iff]
            exact fun other hother => by simpa using hall other hother
          rw [hnone, hempty, List.append_nil]
          refine iff_of_true ?_ fun other hother => absurd hother List.not_mem_nil
          have hlines : rest.flatMap (splitLinesFrom []) = [] := by
            rw [List.flatMap_eq_nil_iff]
            exact fun other hother => by rw [hall other hother]; rfl
          rw [hlines, List.append_nil]
        · have hsome : rest.filter (· ≠ []) ≠ [] := by
            intro hnone
            rw [List.filter_eq_nil_iff] at hnone
            exact hempty (List.flatten_eq_nil_iff.mpr fun other hother => by
              simpa using hnone other hother)
          rw [List.dropLast_cons_of_ne_nil hsome, List.forall_mem_cons]
          cases hends : endsLine text with
          | true =>
              rw [splitLinesFrom_append_of_endsLine hends (head_flatten_ne hrest),
                List.append_cancel_left_eq, hmore]
              exact (and_iff_right rfl).symm
          | false =>
              refine iff_of_false (fun hsame => ?_) fun hall => Bool.false_ne_true hall.1
              -- the last line of the text and the first one of the others are one line
              have hjoined := length_splitLinesFrom_append hends htext hempty (head_flatten_ne hrest)
              have hlength := congrArg List.length hsame
              have hle := length_splitLinesFrom_flatten_le hrest
              rw [List.length_append] at hlength
              omega

end PatchLoop
