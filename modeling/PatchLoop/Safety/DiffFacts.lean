import Mathlib.Data.List.SplitBy
import Mathlib.Data.List.TakeWhile
import PatchLoop.Changes
import PatchLoop.Memory.Extraction

/-!
# Facts of a diff

The tracker puts the diffs of the files one after another, and the reader of facts goes over the lines of the
whole. Where a text does not end its last line, what follows it in the diff is on that line too. An added
line that begins with two plus signs looks like a header, and a path may have several lines itself.
-/

namespace PatchLoop

open Difflib

section Reading

variable [UnicodeForms]

/-! ### The reader -/

/-- The path that a reader of lines is at after them. -/
def pathAfter (path : Option String) (lines : List String) : Option String :=
  lines.foldl (fun path line => (afterStart? "+++ b/" line).or path) path

theorem addedLines_nil (path : Option String) : addedLines path [] = [] := by
  unfold addedLines
  rfl

/-- What a line adds to what is read, where it is no header. -/
def lineAdded (path : Option String) (line : String) : List (String × String) :=
  match path, afterStart? "+" line with
  | some known, some text =>
      if (afterStart? "+++" line).isSome || normalizeFact text = "" then []
      else [(known, normalizeFact text)]
  | _, _ => []

theorem addedLines_cons (path : Option String) (line : String) (rest : List String) :
    addedLines path (line :: rest)
      = (match afterStart? "+++ b/" line with
        | some _ => []
        | none => lineAdded path line) ++ addedLines ((afterStart? "+++ b/" line).or path) rest := by
  rw [addedLines.eq_def]
  cases hnext : afterStart? "+++ b/" line with
  | some next =>
      simp only [hnext]
      rfl
  | none =>
      unfold lineAdded
      cases path with
      | none =>
          simp only [hnext]
          rfl
      | some known =>
          simp only [hnext]
          cases afterStart? "+" line with
          | none => rfl
          | some text =>
              dsimp only
              split
              · rfl
              · rfl

theorem addedLines_append (path : Option String) (first second : List String) :
    addedLines path (first ++ second)
      = addedLines path first ++ addedLines (pathAfter path first) second := by
  induction first generalizing path with
  | nil => rfl
  | cons line rest ih =>
      rw [List.cons_append, addedLines_cons, addedLines_cons, ih, List.append_assoc]
      rfl

theorem addedLines_cons_congr {first second : List String}
    (hsame : ∀ path, addedLines path first = addedLines path second) (path : Option String) (line : String) :
    addedLines path (line :: first) = addedLines path (line :: second) := by
  rw [addedLines_cons, addedLines_cons, hsame]

section Lines

omit [UnicodeForms]

theorem afterStart?_of_ne {c : Char} (hc : c ≠ '+') (start cs : List Char) :
    afterStart? (String.ofList ('+' :: start)) (String.ofList (c :: cs)) = none := by
  unfold afterStart?
  rw [String.toList_ofList, String.toList_ofList, List.isPrefixOf?,
    if_neg (by simpa using Ne.symm hc)]
  rfl

theorem afterStart?_plus (start text : List Char) :
    afterStart? (String.ofList ('+' :: start)) (String.ofList ('+' :: text))
      = (start.isPrefixOf? text).map String.ofList := by
  unfold afterStart?
  rw [String.toList_ofList, String.toList_ofList, List.isPrefixOf?, if_pos (by decide)]

/-- A text whose line, with the plus sign before it, looks like a header. -/
def isMarkedTwice (text : List Char) : Bool := (['+', '+'].isPrefixOf? text).isSome

def nextPath? (text : List Char) : Option String :=
  (['+', '+', ' ', 'b', '/'].isPrefixOf? text).map String.ofList

theorem isMarkedTwice_of_nextPath {text : List Char} {next : String} (hnext : nextPath? text = some next) :
    isMarkedTwice text = true := by
  unfold nextPath? at hnext
  obtain ⟨rest, hrest, -⟩ := Option.map_eq_some_iff.mp hnext
  rw [List.isPrefixOf?_eq_some_iff_append_eq] at hrest
  rw [← hrest]
  rfl

end Lines

def isBlank (text : List Char) : Bool := normalizeFact (String.ofList text) = ""

/-- A line that begins with no plus sign is not read. -/
theorem addedLines_cons_of_ne {c : Char} (hc : c ≠ '+') (path : Option String) (cs : List Char)
    (rest : List String) :
    addedLines path (String.ofList (c :: cs) :: rest) = addedLines path rest := by
  have hnext : afterStart? "+++ b/" (String.ofList (c :: cs)) = none := afterStart?_of_ne hc _ cs
  have hadded : afterStart? "+" (String.ofList (c :: cs)) = none := afterStart?_of_ne hc [] cs
  rw [addedLines_cons, hnext]
  unfold lineAdded
  rw [hadded]
  cases path <;> rfl

theorem addedLines_cons_plus (known : String) (text : List Char) (rest : List String) :
    addedLines (some known) (String.ofList ('+' :: text) :: rest)
      = (if isMarkedTwice text || isBlank text then []
          else [(known, normalizeFact (String.ofList text))])
        ++ addedLines (some ((nextPath? text).getD known)) rest := by
  have hnext : afterStart? "+++ b/" (String.ofList ('+' :: text)) = nextPath? text :=
    afterStart?_plus _ text
  have htwice : (afterStart? "+++" (String.ofList ('+' :: text))).isSome = isMarkedTwice text := by
    rw [show afterStart? "+++" _ = _ from afterStart?_plus ['+', '+'] text, Option.isSome_map]
    rfl
  have hadded : afterStart? "+" (String.ofList ('+' :: text)) = some (String.ofList text) :=
    afterStart?_plus [] text
  rw [addedLines_cons, hnext]
  cases hpath : nextPath? text with
  | some next =>
      rw [isMarkedTwice_of_nextPath hpath]
      rfl
  | none =>
      unfold lineAdded
      rw [hadded]
      dsimp only
      rw [htwice]
      rfl

/-! ### The body of a file's diff -/

/-- The line of an added text, as the reader finds it. -/
def plusLine (text : List Char) : String := String.ofList ('+' :: lineText text)

/-- The texts that the reader finds in lines of their own; `joined` tells that the line before lacks its
end. -/
def foundTexts : Bool → List DiffLine → List (List Char)
  | _, [] => []
  | joined, line :: rest =>
      (if line.mark = .added ∧ joined = false then [line.text] else [])
        ++ foundTexts (!isEnded line.text) rest

def addedOf (lines : List DiffLine) : List (List Char) :=
  (lines.filter (·.mark = .added)).map DiffLine.text

/-- A line of a diff that is one line where it is written, and has a plus sign if it is added. -/
structure IsWritten (line : DiffLine) : Prop where
  isLine : IsLine line.written
  ended : isEnded line.written = isEnded line.text
  mark : ∃ c rest, line.written = c :: rest ∧ isLineBreak c = false ∧ (c = '+' ↔ line.mark = .added)

section Written

omit [UnicodeForms]

theorem isEnded_cons {c : Char} (hc : isLineBreak c = false) (line : List Char) :
    isEnded (c :: line) = isEnded line := by
  unfold isEnded
  rw [List.any_cons, hc, Bool.false_or]

theorem lineText_cons {c : Char} (hc : isLineBreak c = false) (line : List Char) :
    lineText (c :: line) = c :: lineText line := by
  unfold lineText
  rw [List.takeWhile_cons_of_pos (by rw [hc]; rfl)]

theorem lineText_of_not_ended {line : List Char} (hended : isEnded line = false) : lineText line = line := by
  unfold lineText isEnded at *
  rw [List.any_eq_false] at hended
  exact List.takeWhile_eq_self_iff.mpr fun c hc => by simpa using hended c hc

theorem isWritten_of_isLine {mark : Difflib.Mark} {text : List Char} (hmark : mark ≠ .range) (htext : IsLine text) :
    IsWritten ⟨mark, text⟩ := by
  have hcons : ∀ c : Char, isLineBreak c = false → (c = '+' ↔ mark = .added) →
      DiffLine.written ⟨mark, text⟩ = c :: text → IsWritten ⟨mark, text⟩ := by
    intro c hc hplus hwritten
    exact ⟨by rw [hwritten]; exact htext.cons hc, by rw [hwritten]; exact isEnded_cons hc text,
      c, text, hwritten, hc, hplus⟩
  cases mark with
  | range => contradiction
  | same => exact hcons ' ' (by decide) (by decide) rfl
  | removed => exact hcons '-' (by decide) (by decide) rfl
  | added => exact hcons '+' (by decide) (by decide) rfl

theorem toString_unbroken (n : Nat) : ∀ c ∈ (toString n).toList, isLineBreak c = false := by
  intro c hc
  rw [Nat.toString_eq_repr, Nat.toList_repr] at hc
  have hdigit : c.isDigit = true := Nat.isDigit_of_mem_toDigits (by decide) (by decide) hc
  by_contra hbreak
  rw [Bool.not_eq_false] at hbreak
  simp only [isLineBreak, List.mem_cons, List.not_mem_nil, or_false, decide_eq_true_eq] at hbreak
  rcases hbreak with rfl | rfl | rfl | rfl | rfl | rfl | rfl | rfl | rfl | rfl <;> cases hdigit

theorem unbroken_of_any {text : List Char} (hany : text.any isLineBreak = false) :
    ∀ c ∈ text, isLineBreak c = false :=
  fun c hc => Bool.eq_false_iff.mpr (List.any_eq_false.mp hany c hc)

theorem formatRange_unbroken (start stop : Nat) :
    ∀ c ∈ (formatRange start stop).toList, isLineBreak c = false := by
  unfold formatRange
  split
  · exact toString_unbroken _
  · split
    · rw [String.toList_append, List.forall_mem_append]
      exact ⟨toString_unbroken _, unbroken_of_any (by decide)⟩
    · rw [String.toList_append, String.toList_append, List.forall_mem_append, List.forall_mem_append]
      exact ⟨⟨toString_unbroken _, unbroken_of_any (by decide)⟩, toString_unbroken _⟩

theorem isWritten_rangeLine (first last : Opcode) : IsWritten (rangeLine first last) := by
  have htext : (rangeLine first last).text
      = '@' :: ("@ -".toList ++ (formatRange first.i1 last.i2).toList ++ " +".toList
          ++ (formatRange first.j1 last.j2).toList ++ " @@".toList) ++ ['\n'] := by
    unfold rangeLine
    simp [toString]
  have hunbroken : ∀ c ∈ '@' :: ("@ -".toList ++ (formatRange first.i1 last.i2).toList ++ " +".toList
      ++ (formatRange first.j1 last.j2).toList ++ " @@".toList), isLineBreak c = false := by
    simp only [List.forall_mem_cons, List.forall_mem_append]
    exact ⟨by decide, ⟨⟨⟨unbroken_of_any (by decide), formatRange_unbroken _ _⟩, unbroken_of_any (by decide)⟩,
      formatRange_unbroken _ _⟩, unbroken_of_any (by decide)⟩
  refine ⟨⟨_, _, htext, hunbroken, Or.inr (Or.inr ⟨'\n', rfl, rfl⟩)⟩, rfl, ?_⟩
  exact ⟨'@', _, htext, by decide, iff_of_false (by decide) Difflib.Mark.noConfusion⟩

end Written

/-- A line that goes on from one that lacks its end is not read, and no more is a line that is not added. -/
theorem addedLines_cons_joined {before : List Char} (hbefore : before.getLast? ≠ some '+') (hne : before ≠ [])
    (path : Option String) (cs : List Char) (rest : List String) :
    addedLines path (String.ofList (before.reverse ++ cs) :: rest) = addedLines path rest := by
  obtain ⟨init, c, rfl⟩ := (List.eq_nil_or_concat' before).resolve_left hne
  rw [List.reverse_append, List.reverse_singleton, List.singleton_append, List.cons_append]
  exact addedLines_cons_of_ne (by simpa using hbefore) path _ rest

/-- In the body of a diff just the added texts on lines of their own are read. -/
theorem addedLines_written {lines : List DiffLine} (hlines : ∀ line ∈ lines, IsWritten line)
    (hlast : ∀ line ∈ lines.dropLast, line.mark = .added → isEnded line.text = true)
    {before : List Char} (hbefore : before.getLast? ≠ some '+') (path : Option String) :
    addedLines path ((splitLinesFrom before (lines.flatMap DiffLine.written)).map String.ofList)
      = addedLines path ((foundTexts (!before.isEmpty) lines).map plusLine) := by
  induction lines generalizing before path with
  | nil =>
      rw [List.flatMap_nil, splitLinesFrom]
      split
      · rfl
      · rename_i hne
        have hskip := addedLines_cons_joined hbefore hne path [] []
        rwa [List.append_nil] at hskip
  | cons line rest ih =>
      obtain ⟨hline, hrest⟩ := List.forall_mem_cons.mp hlines
      obtain ⟨c, cs, hwritten, hc, hplus⟩ := hline.mark
      have hhead : (rest.flatMap DiffLine.written).head? ≠ some '\n' := by
        cases rest with
        | nil => exact fun hnone => by cases hnone
        | cons next rest =>
            obtain ⟨d, ds, hnext, hd, -⟩ := (hrest next List.mem_cons_self).mark
            rw [List.flatMap_cons, hnext]
            rintro ⟨⟩
            cases hd
      -- what is read of the line, whatever follows it
      have hread : ∀ (text : List Char), text = lineText line.written → ∀ tail : List String, ∀ path,
          addedLines path (String.ofList (before.reverse ++ text) :: tail)
            = addedLines path ((if line.mark = .added ∧ (!before.isEmpty) = false then
                [line.text] else []).map plusLine ++ tail) := by
        rintro text rfl tail path
        by_cases hempty : before = []
        · rw [hempty, hwritten, lineText_cons hc, List.reverse_nil, List.nil_append]
          by_cases hadded : line.mark = .added
          · have htext : c :: lineText cs = '+' :: lineText line.text := by
              have hsame : DiffLine.written line = '+' :: line.text := by
                unfold DiffLine.written
                rw [hadded]
              rw [hsame] at hwritten
              cases hwritten
              rfl
            rw [if_pos ⟨hadded, rfl⟩, htext]
            rfl
          · rw [if_neg fun hboth => hadded hboth.1]
            exact addedLines_cons_of_ne (fun h => hadded (hplus.mp h)) path _ tail
        · rw [if_neg (by simp [hempty])]
          exact addedLines_cons_joined hbefore hempty path _ tail
      have hmore : ∀ found ∈ rest.dropLast, found.mark = .added → isEnded found.text = true := by
        intro found hfound
        have hne : rest ≠ [] := by
          rintro rfl
          cases hfound
        rw [List.dropLast_cons_of_ne_nil hne] at hlast
        exact hlast found (List.mem_cons_of_mem line hfound)
      rw [List.flatMap_cons, splitLinesFrom_isLine hline.isLine hhead, hline.ended, foundTexts,
        List.map_append]
      cases hended : isEnded line.text with
      | true =>
          rw [if_pos rfl, List.map_cons, hread _ rfl, addedLines_append, addedLines_append]
          refine congrArg _ ?_
          exact ih hrest hmore (by simp) _
      | false =>
          rw [if_neg Bool.false_ne_true]
          by_cases hempty : rest = []
          · have hwhole : lineText line.written = line.written :=
              lineText_of_not_ended (hline.ended.trans hended)
            have hne : line.written.reverse ++ before ≠ [] := by simp [hwritten]
            rw [hempty, List.flatMap_nil, splitLinesFrom, if_neg hne, List.reverse_append,
              List.reverse_reverse, List.map_singleton, hread _ hwhole.symm]
            rfl
          · rw [List.dropLast_cons_of_ne_nil hempty] at hlast
            have hmark : line.mark ≠ .added := fun hadded => by
              rw [hlast line List.mem_cons_self hadded] at hended
              cases hended
            rw [if_neg fun hboth => hmark hboth.1, List.map_nil, List.nil_append]
            have hjoined : (line.written.reverse ++ before).getLast? ≠ some '+' := by
              rw [hwritten, List.getLast?_append]
              cases hbefore' : before.getLast? with
              | some d => rwa [hbefore'] at hbefore
              | none => simpa using fun h => hmark (hplus.mp h)
            have hgoes : (line.written.reverse ++ before).isEmpty = false := by
              rw [hwritten]
              simp
            rw [ih hrest hmore hjoined path, hgoes]

/-! ### What is added, and what is read of it -/

/-- Each text that is not blank, with a path. -/
def pairsOf (path : String) (texts : List (List Char)) : List (String × String) :=
  (texts.filter fun text => !isBlank (lineText text)).map fun text =>
    (path, normalizeFact (String.ofList (lineText text)))

theorem length_addedLines_plus (path : String) (texts : List (List Char)) :
    (addedLines (some path) (texts.map plusLine)).length
      = (texts.filter fun text => !isMarkedTwice (lineText text) && !isBlank (lineText text)).length := by
  induction texts generalizing path with
  | nil => rfl
  | cons text rest ih =>
      rw [List.map_cons, plusLine, addedLines_cons_plus, List.length_append, ih, List.filter_cons]
      cases isMarkedTwice (lineText text) <;> cases isBlank (lineText text) <;>
        simp [Nat.add_comm]

theorem addedLines_plus (path : String) {texts : List (List Char)}
    (honce : ∀ text ∈ texts, isMarkedTwice (lineText text) = false) :
    addedLines (some path) (texts.map plusLine) = pairsOf path texts := by
  induction texts with
  | nil => rfl
  | cons text rest ih =>
      obtain ⟨htext, hrest⟩ := List.forall_mem_cons.mp honce
      have hpath : nextPath? (lineText text) = none := by
        cases hnext : nextPath? (lineText text) with
        | none => rfl
        | some next =>
            rw [isMarkedTwice_of_nextPath hnext] at htext
            cases htext
      rw [List.map_cons, plusLine, addedLines_cons_plus, hpath, Option.getD_none, ih hrest, htext]
      unfold pairsOf
      cases hblank : isBlank (lineText text) with
      | true => rw [List.filter_cons_of_neg (by rw [hblank]; decide)]; rfl
      | false => rw [List.filter_cons_of_pos (by rw [hblank]; rfl)]; rfl

section Added

omit [UnicodeForms]

theorem addedOf_cons_of_added {line : DiffLine} (hadded : line.mark = .added) (rest : List DiffLine) :
    addedOf (line :: rest) = line.text :: addedOf rest := by
  unfold addedOf
  rw [List.filter_cons_of_pos (by simpa using hadded), List.map_cons]

theorem addedOf_cons_of_ne {line : DiffLine} (hadded : line.mark ≠ .added) (rest : List DiffLine) :
    addedOf (line :: rest) = addedOf rest := by
  unfold addedOf
  rw [List.filter_cons_of_neg (by simpa using hadded)]

theorem foundTexts_sublist (joined : Bool) (lines : List DiffLine) :
    (foundTexts joined lines).Sublist (addedOf lines) := by
  induction lines generalizing joined with
  | nil => exact List.Sublist.refl _
  | cons line rest ih =>
      rw [foundTexts]
      by_cases hadded : line.mark = .added
      · rw [addedOf_cons_of_added hadded]
        split
        · exact (ih _).cons_cons _
        · exact (ih _).cons _
      · rw [addedOf_cons_of_ne hadded, if_neg fun hboth => hadded hboth.1]
        exact ih _

/-- The added texts of one kind are all found exactly if none of them follows a line that lacks its end. -/
theorem filter_foundTexts_iff (q : List Char → Bool) (joined : Bool) (lines : List DiffLine) :
    (foundTexts joined lines).filter q = (addedOf lines).filter q
      ↔ (joined = true → ∀ line ∈ lines.head?, line.mark = .added → q line.text = false)
        ∧ lines.IsChain fun line next =>
          isEnded line.text = false → next.mark = .added → q next.text = false := by
  induction lines generalizing joined with
  | nil => simp [foundTexts, addedOf]
  | cons line rest ih =>
      have hmore := ih (!isEnded line.text)
      have hchain : ((!isEnded line.text) = true → ∀ next ∈ rest.head?, next.mark = .added →
            q next.text = false) ∧ (rest.IsChain fun line next =>
              isEnded line.text = false → next.mark = .added → q next.text = false)
          ↔ (line :: rest).IsChain fun line next =>
              isEnded line.text = false → next.mark = .added → q next.text = false := by
        rw [Bool.not_eq_true']
        cases rest with
        | nil => exact iff_of_true ⟨fun _ next hnext => (by cases hnext), .nil⟩ (.singleton line)
        | cons next rest =>
            rw [List.isChain_cons_cons]
            refine and_congr_left fun _ => ⟨fun h hended => h hended next rfl, ?_⟩
            rintro h hended _ ⟨⟩
            exact h hended
      rw [← hchain, ← hmore, foundTexts]
      have hsub := ((foundTexts_sublist (!isEnded line.text) rest).filter q)
      by_cases hadded : line.mark = .added
      · rw [addedOf_cons_of_added hadded]
        cases hq : q line.text with
        | false =>
            rw [List.filter_append, List.filter_cons_of_neg (by rw [hq]; decide)]
            have hnone : (if line.mark = .added ∧ joined = false then [line.text] else []).filter q = [] := by
              split
              · rw [List.filter_cons_of_neg (by rw [hq]; decide)]
                rfl
              · rfl
            rw [hnone, List.nil_append]
            refine (and_iff_right fun _ next hnext _ => ?_).symm
            cases hnext
            exact hq
        | true =>
            cases joined with
            | false =>
                rw [if_pos ⟨hadded, rfl⟩, List.singleton_append, List.filter_cons_of_pos hq,
                  List.filter_cons_of_pos hq, List.cons_inj_right]
                exact (and_iff_right fun hjoined => by cases hjoined).symm
            | true =>
                rw [if_neg (by simp), List.nil_append, List.filter_cons_of_pos hq]
                refine iff_of_false (fun hsame => ?_) fun hboth => ?_
                · have hlength := hsub.length_le
                  rw [hsame, List.length_cons] at hlength
                  omega
                · have := hboth.1 rfl line rfl hadded
                  rw [hq] at this
                  cases this
      · rw [addedOf_cons_of_ne hadded, if_neg fun hboth => hadded hboth.1, List.nil_append]
        refine (and_iff_right fun _ next hnext hmark => ?_).symm
        cases hnext
        exact absurd hmark hadded

end Added

section Body

variable (hplus : ∀ text, isMarkedTwice text = true → isBlank text = false)
include hplus

/-- What is read of the body of a diff is what it adds exactly if no added text looks like a header and none
that is not blank follows a line that lacks its end. -/
theorem addedLines_body_iff {lines : List DiffLine} (hlines : ∀ line ∈ lines, IsWritten line)
    (hlast : ∀ line ∈ lines.dropLast, line.mark = .added → isEnded line.text = true) (path : String) :
    addedLines (some path) ((splitLinesFrom [] (lines.flatMap DiffLine.written)).map String.ofList)
        = pairsOf path (addedOf lines)
      ↔ (∀ text ∈ addedOf lines, isMarkedTwice (lineText text) = false)
        ∧ lines.IsChain fun line next =>
          isEnded line.text = false → next.mark = .added → isBlank (lineText next.text) = true := by
  have hchain := filter_foundTexts_iff (fun text => !isBlank (lineText text)) false lines
  simp only [Bool.not_eq_false', Bool.false_eq_true, false_implies, true_and] at hchain
  rw [← hchain, addedLines_written hlines hlast (by simp), List.isEmpty_nil, Bool.not_true]
  have hsub := foundTexts_sublist false lines
  constructor
  · intro hread
    have hlength := congrArg List.length hread
    rw [length_addedLines_plus, pairsOf, List.length_map] at hlength
    have hinner : ((foundTexts false lines).filter fun text =>
        !isMarkedTwice (lineText text) && !isBlank (lineText text)).Sublist
          ((foundTexts false lines).filter fun text => !isBlank (lineText text)) :=
      List.monotone_filter_right _ fun text htext => (Bool.and_eq_true _ _ ▸ htext).2
    have houter := hsub.filter fun text => !isBlank (lineText text)
    have hall := (hinner.trans houter).eq_of_length hlength
    refine ⟨fun text htext => ?_, houter.antisymm (hall ▸ hinner)⟩
    by_contra htwice
    rw [Bool.not_eq_false] at htwice
    have hkept : text ∈ (addedOf lines).filter fun text => !isBlank (lineText text) :=
      List.mem_filter.mpr ⟨htext, by rw [hplus _ htwice]; rfl⟩
    rw [← hall, List.mem_filter, htwice] at hkept
    cases hkept.2
  · rintro ⟨honce, hfound⟩
    rw [addedLines_plus path fun text htext => honce text (hsub.subset htext)]
    unfold pairsOf
    rw [hfound]

end Body

/-! ### Lines that are read -/

section Unbroken

omit [UnicodeForms]

/-- A text of one line. -/
def Unbroken (text : List Char) : Prop := ∀ c ∈ text, isLineBreak c = false

theorem unbroken_of_afterStart {start line next : String} (hnext : afterStart? start line = some next)
    (hline : Unbroken line.toList) : Unbroken next.toList := by
  unfold afterStart? at hnext
  obtain ⟨rest, hrest, rfl⟩ := Option.map_eq_some_iff.mp hnext
  rw [List.isPrefixOf?_eq_some_iff_append_eq] at hrest
  rw [String.toList_ofList]
  exact fun c hc => hline c (by rw [← hrest]; exact List.mem_append_right _ hc)

theorem unbroken_pathAfter {path : Option String} (hpath : ∀ known ∈ path, Unbroken known.toList)
    {lines : List String} (hlines : ∀ line ∈ lines, Unbroken line.toList) :
    ∀ known ∈ pathAfter path lines, Unbroken known.toList := by
  induction lines generalizing path with
  | nil => exact hpath
  | cons line rest ih =>
      obtain ⟨hline, hrest⟩ := List.forall_mem_cons.mp hlines
      refine ih (fun known hknown => ?_) hrest
      dsimp only at hknown
      cases hnext : afterStart? "+++ b/" line with
      | none =>
          rw [hnext, Option.none_or] at hknown
          exact hpath known hknown
      | some next =>
          rw [hnext, Option.some_or] at hknown
          cases hknown
          exact unbroken_of_afterStart hnext hline

theorem exists_pathAfter (known : String) (lines : List String) :
    ∃ last, pathAfter (some known) lines = some last := by
  induction lines generalizing known with
  | nil => exact ⟨known, rfl⟩
  | cons line rest ih =>
      rw [pathAfter, List.foldl_cons]
      cases afterStart? "+++ b/" line with
      | none => exact ih known
      | some next => exact ih next

end Unbroken

/-- The paths of what is read have no line breaks, as the lines have none. -/
theorem unbroken_of_addedLines {path : Option String} (hpath : ∀ known ∈ path, Unbroken known.toList)
    {lines : List String} (hlines : ∀ line ∈ lines, Unbroken line.toList) :
    ∀ pair ∈ addedLines path lines, Unbroken pair.1.toList := by
  induction lines generalizing path with
  | nil => exact fun pair hpair => absurd hpair List.not_mem_nil
  | cons line rest ih =>
      obtain ⟨hline, hrest⟩ := List.forall_mem_cons.mp hlines
      have hlone : ∀ other ∈ [line], Unbroken other.toList := List.forall_mem_singleton.mpr hline
      have hnext := unbroken_pathAfter hpath hlone
      intro pair hpair
      rw [addedLines_cons] at hpair
      rcases List.mem_append.mp hpair with hpair | hpair
      · split at hpair
        · cases hpair
        · unfold lineAdded at hpair
          split at hpair
          · split at hpair
            · cases hpair
            · rw [List.mem_singleton.mp hpair]
              exact hpath _ rfl
          · cases hpair
      · exact ih hnext hrest pair hpair

/-- A line that is read as an added one. -/
def isReadLine : List Char → Bool
  | '+' :: text => !isMarkedTwice text && !isBlank text
  | _ => false

theorem addedLines_cons_none (line : String) (rest : List String) :
    ∃ next, addedLines none (line :: rest) = addedLines next rest := by
  rw [addedLines_cons]
  cases afterStart? "+++ b/" line with
  | none => exact ⟨none, rfl⟩
  | some next => exact ⟨some next, rfl⟩

theorem addedLines_cons_line (known : String) (line : List Char) (rest : List String) :
    ∃ next, addedLines (some known) (String.ofList line :: rest)
      = (if isReadLine line then [(known, normalizeFact (String.ofList line.tail))] else [])
        ++ addedLines (some next) rest := by
  cases line with
  | nil => exact ⟨known, by rw [addedLines_cons]; rfl⟩
  | cons c text =>
      by_cases hc : c = '+'
      · subst hc
        refine ⟨(nextPath? text).getD known, ?_⟩
        rw [addedLines_cons_plus, show isReadLine ('+' :: text) = (!isMarkedTwice text && !isBlank text) from rfl]
        cases isMarkedTwice text <;> cases isBlank text <;> rfl
      · refine ⟨known, ?_⟩
        have hunread : isReadLine (c :: text) = false := by
          unfold isReadLine
          split
          · rename_i heq
            cases heq
            contradiction
          · rfl
        rw [addedLines_cons_of_ne hc, hunread]
        rfl

theorem addedLines_of_unread {lines : List (List Char)} (hunread : ∀ line ∈ lines, isReadLine line = false)
    (path : Option String) : addedLines path (lines.map String.ofList) = [] := by
  induction lines generalizing path with
  | nil => rfl
  | cons line rest ih =>
      obtain ⟨hline, hrest⟩ := List.forall_mem_cons.mp hunread
      rw [List.map_cons]
      cases path with
      | none =>
          obtain ⟨next, hnext⟩ := addedLines_cons_none (String.ofList line) (rest.map String.ofList)
          rw [hnext, ih hrest]
      | some known =>
          obtain ⟨next, hnext⟩ := addedLines_cons_line known line (rest.map String.ofList)
          rw [hnext, ih hrest, hline]
          rfl

/-- Where a path is known, lines of which nothing is read have none that is read. -/
theorem addedLines_eq_nil_iff {lines : List (List Char)} (known : String) :
    addedLines (some known) (lines.map String.ofList) = [] ↔ ∀ line ∈ lines, isReadLine line = false := by
  refine ⟨fun hnone => ?_, fun hunread => addedLines_of_unread hunread _⟩
  induction lines generalizing known with
  | nil => exact fun line hline => absurd hline List.not_mem_nil
  | cons line rest ih =>
      obtain ⟨next, hnext⟩ := addedLines_cons_line known line (rest.map String.ofList)
      rw [List.map_cons, hnext, List.append_eq_nil_iff] at hnone
      refine List.forall_mem_cons.mpr ⟨?_, ih next hnone.2⟩
      by_contra hread
      rw [if_pos (Bool.not_eq_false _ ▸ hread)] at hnone
      cases hnone.1

/-! ### The lines of a file's diff -/

/-- The lines of a path that ends its line. -/
def pathLines (path : String) : List (List Char) := splitLinesFrom [] (path.toList ++ ['\n'])

section Header

omit [UnicodeForms]

theorem pathLines_of_unbroken {path : String} (hpath : Unbroken path.toList) :
    pathLines path = [path.toList] := by
  unfold pathLines
  rw [splitLinesFrom_break hpath rfl (by decide)]
  rfl

/-- A header has the lines of its path, the first of them after its marks. -/
theorem splitLinesFrom_header {start : List Char} (hstart : Unbroken start) (path : String)
    {rest : List Char} (hrest : rest.head? ≠ some '\n') :
    ∃ first others, pathLines path = first :: others
      ∧ splitLinesFrom [] (start ++ (path.toList ++ ['\n']) ++ rest)
        = (start ++ first) :: others ++ splitLinesFrom [] rest := by
  have hsome : path.toList ++ ['\n'] ≠ [] := by simp
  obtain ⟨first, others, hlines⟩ := exists_splitLinesFrom_eq_cons hsome
  refine ⟨first, others, hlines [], ?_⟩
  have hends : endsLine (start ++ (path.toList ++ ['\n'])) = true := by
    unfold endsLine
    rw [← List.append_assoc, List.getLast?_append]
    rfl
  rw [splitLinesFrom_append_of_endsLine hends hrest, splitLinesFrom_text hstart, hlines]
  simp

end Header

namespace ChangedFile

/-- The lines of the part of a diff that is about the file. -/
def sectionLines (file : ChangedFile) : List (List Char) := splitLinesFrom [] file.diffSection

/-- The pairs that a file's diff is made of: the path with each line that is added and not blank. -/
def addedPairs (file : ChangedFile) : List (String × String) :=
  pairsOf file.path (Difflib.addedTexts (linesOf file.before) (linesOf file.after))

/-- The condition under which the lines of a file's diff are taken for what they are. -/
structure IsReadable (file : ChangedFile) : Prop where
  -- no added line begins with two plus signs of its own
  single : ∀ text ∈ Difflib.addedTexts (linesOf file.before) (linesOf file.after),
    isMarkedTwice (lineText text) = false
  -- no line that lacks its end is followed by an added line that is not blank
  ended : file.diffLines.IsChain fun line next =>
    isEnded line.text = false → next.mark = .added → isBlank (lineText next.text) = true
  -- a path that lines are added to is on one line, and others have no line that is read
  path : file.diffLines ≠ [] → Unbroken file.path.toList
    ∨ (∀ text ∈ Difflib.addedTexts (linesOf file.before) (linesOf file.after),
        isBlank (lineText text) = true)
      ∧ ∀ line ∈ (pathLines file.path).tail, isReadLine line = false

section Lines

omit [UnicodeForms]

theorem isLine_of_mem {text : Option String} {line : List Char} (hline : line ∈ linesOf text) :
    IsLine line := by
  cases text with
  | none => cases hline
  | some text => exact keepLinesFrom_isLine (fun c hc => absurd hc List.not_mem_nil) _ line hline

theorem isEnded_of_mem {text : Option String} {line : List Char} (hline : line ∈ (linesOf text).dropLast) :
    isEnded line = true := by
  cases text with
  | none => cases hline
  | some text => exact keepLinesFrom_ended [] text.toList line hline

theorem isWritten_of_mem {file : ChangedFile} : ∀ line ∈ file.diffLines, IsWritten line := by
  intro line hline
  rcases diffLines_mem hline with ⟨first, last, rfl⟩ | ⟨hmark, hbefore | hafter⟩
  · exact isWritten_rangeLine first last
  · exact isWritten_of_isLine hmark (isLine_of_mem hbefore)
  · exact isWritten_of_isLine hmark (isLine_of_mem hafter)

theorem isEnded_of_added {file : ChangedFile} :
    ∀ line ∈ file.diffLines.dropLast, line.mark = .added → isEnded line.text = true :=
  fun line hline hadded => isEnded_of_mem (added_mem_dropLast _ _ line hline hadded)

theorem diffSection_eq {file : ChangedFile} (hsome : file.diffLines ≠ []) :
    file.diffSection = "--- a/".toList ++ (file.path.toList ++ ['\n'])
      ++ ("+++ b/".toList ++ (file.path.toList ++ ['\n']) ++ file.diffLines.flatMap DiffLine.written) := by
  unfold diffSection unifiedDiff
  change (if file.diffLines.isEmpty then _ else _ ++ file.diffLines.flatMap DiffLine.written) = _
  rw [if_neg (by simpa using hsome)]
  simp [toString]

theorem diffSection_eq_nil {file : ChangedFile} (hnone : file.diffLines = []) : file.diffSection = [] := by
  unfold diffSection unifiedDiff
  change (if file.diffLines.isEmpty then _ else _) = _
  rw [hnone]
  rfl

theorem head_written_ne {lines : List DiffLine} (hlines : ∀ line ∈ lines, IsWritten line) :
    (lines.flatMap DiffLine.written).head? ≠ some '\n' := by
  cases lines with
  | nil => exact fun hnone => by cases hnone
  | cons line rest =>
      obtain ⟨c, cs, hwritten, hc, -⟩ := (hlines line List.mem_cons_self).mark
      rw [List.flatMap_cons, hwritten]
      rintro ⟨⟩
      cases hc

theorem head_diffSection_ne (file : ChangedFile) : file.diffSection.head? ≠ some '\n' := by
  by_cases hnone : file.diffLines = []
  · rw [diffSection_eq_nil hnone]
    exact fun hnone => by cases hnone
  · rw [diffSection_eq hnone]
    rintro ⟨⟩

theorem sectionLines_eq {file : ChangedFile} (hsome : file.diffLines ≠ []) :
    ∃ first others, pathLines file.path = first :: others
      ∧ file.sectionLines = (("--- a/".toList ++ first) :: others)
        ++ ((("+++ b/".toList ++ first) :: others)
          ++ splitLinesFrom [] (file.diffLines.flatMap DiffLine.written)) := by
  have hnew : Unbroken "+++ b/".toList := unbroken_of_any (by decide)
  have hold : Unbroken "--- a/".toList := unbroken_of_any (by decide)
  have hnext : ("+++ b/".toList ++ (file.path.toList ++ ['\n'])
      ++ file.diffLines.flatMap DiffLine.written).head? ≠ some '\n' := by rintro ⟨⟩
  obtain ⟨first, others, hpath, hadded⟩ :=
    splitLinesFrom_header hnew file.path (head_written_ne isWritten_of_mem)
  obtain ⟨first', others', hpath', hremoved⟩ := splitLinesFrom_header hold file.path hnext
  rw [hpath] at hpath'
  cases hpath'
  refine ⟨first, others, hpath, ?_⟩
  unfold sectionLines
  rw [diffSection_eq hsome, hremoved, hadded]

theorem sectionLines_unbroken (file : ChangedFile) : ∀ line ∈ file.sectionLines, Unbroken line :=
  splitLinesFrom_unbroken (fun _ hc => absurd hc List.not_mem_nil) _

end Lines

/-- What is read of a file's diff: of the lines of its path, twice, and of its body. -/
theorem exists_addedLines_section {file : ChangedFile} (hsome : file.diffLines ≠ []) (path : Option String) :
    ∃ first others last, pathLines file.path = first :: others
      ∧ pathAfter (some (String.ofList first)) (others.map String.ofList) = some last
      ∧ addedLines path (file.sectionLines.map String.ofList)
        = addedLines path (others.map String.ofList)
          ++ (addedLines (some (String.ofList first)) (others.map String.ofList)
            ++ addedLines (some last)
              ((splitLinesFrom [] (file.diffLines.flatMap DiffLine.written)).map String.ofList)) := by
  obtain ⟨first, others, hpath, hlines⟩ := sectionLines_eq hsome
  obtain ⟨last, hlast⟩ := exists_pathAfter (String.ofList first) (others.map String.ofList)
  refine ⟨first, others, last, hpath, hlast, ?_⟩
  have hheader : ∀ path (rest : List String),
      addedLines path (String.ofList ("+++ b/".toList ++ first) :: rest)
        = addedLines (some (String.ofList first)) rest := by
    intro path rest
    have hnext : afterStart? "+++ b/" (String.ofList ("+++ b/".toList ++ first))
        = some (String.ofList first) := by
      have htext : (String.ofList ("+++ b/".toList ++ first)).toList = "+++ b/".toList ++ first :=
        String.toList_ofList
      unfold afterStart?
      rw [htext, List.isPrefixOf?_eq_some_iff_append_eq.mpr rfl, Option.map_some]
    rw [addedLines_cons, hnext]
    rfl
  have hskip : ∀ rest : List String, addedLines path (String.ofList ("--- a/".toList ++ first) :: rest)
      = addedLines path rest :=
    fun rest => addedLines_cons_of_ne (by decide) path _ rest
  rw [hlines, List.map_append, List.map_cons, List.cons_append, hskip, addedLines_append,
    List.map_append, List.map_cons, List.cons_append, hheader, addedLines_append, hlast]

theorem addedPairs_eq (file : ChangedFile) :
    file.addedPairs = pairsOf file.path (addedOf file.diffLines) := rfl

section Readable

variable (hplus : ∀ text, isMarkedTwice text = true → isBlank text = false)
include hplus

/-- From wherever the reader is, it reads of a file's diff what is added exactly if the diff is readable. -/
theorem addedLines_section_iff (file : ChangedFile) {path : Option String}
    (hpath : ∀ known ∈ path, Unbroken known.toList) :
    addedLines path (file.sectionLines.map String.ofList) = file.addedPairs ↔ file.IsReadable := by
  by_cases hnone : file.diffLines = []
  · have hadded : Difflib.addedTexts (linesOf file.before) (linesOf file.after) = [] := by
      change addedOf file.diffLines = []
      rw [hnone]
      rfl
    refine iff_of_true ?_ ⟨?_, ?_, fun hsome => absurd hnone hsome⟩
    · unfold sectionLines addedPairs
      rw [diffSection_eq_nil hnone, hadded]
      rfl
    · rw [hadded]
      exact fun text htext => absurd htext List.not_mem_nil
    · rw [hnone]
      exact .nil
  · obtain ⟨first, others, last, hlines, hlast, hread⟩ := exists_addedLines_section hnone path
    rw [hread]
    by_cases hline : Unbroken file.path.toList
    · rw [pathLines_of_unbroken hline] at hlines
      cases hlines
      rw [String.ofList_toList] at hlast hread ⊢
      cases hlast
      have hwritten : ∀ line ∈ file.diffLines, IsWritten line := isWritten_of_mem
      have hbody := addedLines_body_iff hplus hwritten isEnded_of_added file.path
      rw [List.map_nil, addedLines_nil, addedLines_nil, List.nil_append, List.nil_append,
        addedPairs_eq, hbody]
      exact ⟨fun hboth => ⟨hboth.1, hboth.2, fun _ => Or.inl hline⟩,
        fun hreadable => ⟨hreadable.single, hreadable.ended⟩⟩
    · constructor
      · intro hsame
        have hsection : ∀ line ∈ file.sectionLines.map String.ofList, Unbroken line.toList :=
          List.forall_mem_map.mpr fun line hmem => by
            rw [String.toList_ofList]
            exact file.sectionLines_unbroken line hmem
        have hpaths := unbroken_of_addedLines hpath hsection
        -- what is added has a path that no line of the diff has
        have hpairs : file.addedPairs = [] := by
          by_contra hsome
          obtain ⟨pair, hpair⟩ := List.exists_mem_of_ne_nil _ hsome
          have hbroken := hpaths pair (by rw [hread, hsame]; exact hpair)
          obtain ⟨text, -, rfl⟩ := List.mem_map.mp hpair
          exact hline hbroken
        have hblank : ∀ text ∈ Difflib.addedTexts (linesOf file.before) (linesOf file.after),
            isBlank (lineText text) = true := by
          intro text htext
          have hkept := List.filter_eq_nil_iff.mp (List.map_eq_nil_iff.mp hpairs) text htext
          simpa using hkept
        rw [hpairs, List.append_eq_nil_iff, List.append_eq_nil_iff, addedLines_eq_nil_iff] at hsame
        refine ⟨fun text htext => ?_, ?_, fun _ => Or.inr ⟨hblank, ?_⟩⟩
        · by_contra htwice
          rw [Bool.not_eq_false] at htwice
          have hnot := hplus _ htwice
          rw [hblank text htext] at hnot
          cases hnot
        · refine (List.pairwise_of_forall_mem_list fun line _ next hnext _ hadded => ?_).isChain
          exact hblank next.text (List.mem_map.mpr
            ⟨next, List.mem_filter.mpr ⟨hnext, decide_eq_true hadded⟩, rfl⟩)
        · rw [hlines]
          exact hsame.2.1
      · intro hreadable
        obtain ⟨hblank, hunread⟩ := (hreadable.path hnone).resolve_left hline
        rw [hlines, List.tail_cons] at hunread
        have hadded : ∀ path, pairsOf path (addedOf file.diffLines) = [] := by
          intro path
          unfold pairsOf
          rw [List.map_eq_nil_iff, List.filter_eq_nil_iff]
          intro text htext
          rw [hblank text htext]
          decide
        have hwritten : ∀ line ∈ file.diffLines, IsWritten line := isWritten_of_mem
        have hbody := (addedLines_body_iff hplus hwritten isEnded_of_added last).mpr
          ⟨hreadable.single, hreadable.ended⟩
        rw [addedLines_of_unread hunread, addedLines_of_unread hunread, hbody, hadded]
        exact (hadded file.path).symm

end Readable

end ChangedFile

/-! ### Diffs of all files -/

namespace FileChangeTracker

/-- What is read of the tracker's diff is what the diff of each changed file adds, with its path; the lines
of the whole are the lines of the files' diffs; and of each of them, in its place, just what it adds is
read. -/
structure Attributes (tracker : FileChangeTracker) (current : Files) : Prop where
  pairs : addedLines none (splitLines (tracker.diff current))
    = (tracker.changedFiles current).flatMap ChangedFile.addedPairs
  apart : splitLinesFrom [] (tracker.diff current).toList
    = (tracker.changedFiles current).flatMap ChangedFile.sectionLines
  own : ∀ earlier file later, tracker.changedFiles current = earlier ++ file :: later →
    addedLines (pathAfter none ((earlier.flatMap ChangedFile.sectionLines).map String.ofList))
      (file.sectionLines.map String.ofList) = file.addedPairs

/-- Each file's diff that is followed by another one ends its last line, and each is readable. -/
structure IsReadable (tracker : FileChangeTracker) (current : Files) : Prop where
  ended : ∀ text ∈ (((tracker.changedFiles current).map ChangedFile.diffSection).filter
    (· ≠ [])).dropLast, endsLine text = true
  files : ∀ file ∈ tracker.changedFiles current, file.IsReadable

omit [UnicodeForms] in
theorem apart_iff (files : List ChangedFile) :
    splitLinesFrom [] (files.flatMap ChangedFile.diffSection) = files.flatMap ChangedFile.sectionLines
      ↔ ∀ text ∈ ((files.map ChangedFile.diffSection).filter (· ≠ [])).dropLast, endsLine text = true := by
  rw [← splitLinesFrom_flatten_iff
    (List.forall_mem_map.mpr fun file _ => file.head_diffSection_ne), List.flatMap_map,
    ← List.flatMap_def]
  rfl

omit [UnicodeForms] in
theorem unbroken_sections (files : List ChangedFile) :
    ∀ line ∈ (files.flatMap ChangedFile.sectionLines).map String.ofList, Unbroken line.toList := by
  intro line hline
  obtain ⟨text, htext, rfl⟩ := List.mem_map.mp hline
  obtain ⟨file, -, htext⟩ := List.mem_flatMap.mp htext
  rw [String.toList_ofList]
  exact file.sectionLines_unbroken text htext

/-- The reader attributes the lines of a diff to their files if and only if the diff is readable. -/
theorem attributes_iff (hplus : ∀ text, isMarkedTwice text = true → isBlank text = false)
    (tracker : FileChangeTracker) (current : Files) :
    tracker.Attributes current ↔ tracker.IsReadable current := by
  have hdiff : (tracker.diff current).toList
      = (tracker.changedFiles current).flatMap ChangedFile.diffSection := String.toList_ofList
  have hpath : ∀ earlier : List ChangedFile, ∀ known ∈
      pathAfter none ((earlier.flatMap ChangedFile.sectionLines).map String.ofList),
        Unbroken known.toList :=
    fun earlier => unbroken_pathAfter (fun _ hknown => by cases hknown) (unbroken_sections earlier)
  constructor
  · intro hattributes
    refine ⟨(apart_iff _).mp (hdiff ▸ hattributes.apart), fun file hfile => ?_⟩
    obtain ⟨earlier, later, hsplit⟩ := List.append_of_mem hfile
    exact (file.addedLines_section_iff hplus (hpath earlier)).mp (hattributes.own earlier file later hsplit)
  · intro hreadable
    have happart := (apart_iff _).mpr hreadable.ended
    have hread : ∀ files : List ChangedFile, (∀ file ∈ files, file.IsReadable) →
        ∀ path : Option String, (∀ known ∈ path, Unbroken known.toList) →
          addedLines path ((files.flatMap ChangedFile.sectionLines).map String.ofList)
            = files.flatMap ChangedFile.addedPairs := by
      intro files
      induction files with
      | nil => exact fun _ path _ => addedLines_nil path
      | cons file rest ih =>
          intro hfiles path hknown
          obtain ⟨hfile, hrest⟩ := List.forall_mem_cons.mp hfiles
          rw [List.flatMap_cons, List.map_append, addedLines_append,
            (file.addedLines_section_iff hplus hknown).mpr hfile, List.flatMap_cons,
            ih hrest _ (unbroken_pathAfter hknown (List.forall_mem_map.mpr fun line hline => by
              rw [String.toList_ofList]
              exact file.sectionLines_unbroken line hline))]
    refine ⟨?_, hdiff ▸ happart, fun earlier file later hsplit => ?_⟩
    · unfold splitLines
      rw [hdiff, happart]
      exact hread _ hreadable.files none fun _ hknown => by cases hknown
    · have hfile : file ∈ tracker.changedFiles current := by
        rw [hsplit]
        exact List.mem_append_right _ List.mem_cons_self
      exact (file.addedLines_section_iff hplus (hpath earlier)).mpr (hreadable.files file hfile)

end FileChangeTracker

end Reading

/-! ### Samples -/

theorem isSpace_of_isChain {c : Char} {word : List Char}
    (hchain : (c :: word).IsChain fun c d => (isSpace c == isSpace d) = true) :
    ∀ d ∈ c :: word, isSpace d = isSpace c := by
  induction word generalizing c with
  | nil => exact List.forall_mem_singleton.mpr rfl
  | cons d rest ih =>
      obtain ⟨hsame, hrest⟩ := List.isChain_cons_cons.mp hchain
      refine List.forall_mem_cons.mpr ⟨rfl, fun e he => ?_⟩
      exact (ih hrest e he).trans (beq_iff_eq.mp hsame).symm

theorem mem_intercalate (separator : String) {word : String} {words : List String}
    (hword : word ∈ words) {c : Char} (hc : c ∈ word.toList) :
    c ∈ (separator.intercalate words).toList := by
  induction words with
  | nil => cases hword
  | cons first rest ih =>
      by_cases hrest : rest = []
      · rw [hrest] at hword ⊢
        rw [List.mem_singleton.mp hword] at hc
        rwa [String.intercalate_singleton]
      · rw [String.intercalate_cons_of_ne_nil hrest, String.toList_append, String.toList_append]
        rcases List.mem_cons.mp hword with rfl | hword
        · exact List.mem_append_left _ (List.mem_append_left _ hc)
        · exact List.mem_append_right _ (ih hword)

/-- What is not a space stays in a text of which the spaces are made one. -/
theorem squeeze_ne_empty {text : String} {c : Char} (hmem : c ∈ text.toList) (hspace : isSpace c = false) :
    squeeze text ≠ "" := by
  intro hempty
  unfold squeeze at hempty
  rw [← List.flatten_splitBy (fun c d => isSpace c == isSpace d) text.toList] at hmem
  obtain ⟨word, hword, hc⟩ := List.mem_flatten.mp hmem
  have halike : ∀ d ∈ word, isSpace d = false := by
    cases word with
    | nil => cases hc
    | cons d rest =>
        have hsame := isSpace_of_isChain (List.isChain_of_mem_splitBy hword)
        exact fun e he => (hsame e he).trans ((hsame c hc).symm.trans hspace)
  have hkept : word ∈ (text.toList.splitBy fun c d => isSpace c == isSpace d).filter
      fun word => !word.any isSpace := by
    refine List.mem_filter.mpr ⟨hword, ?_⟩
    rw [Bool.not_eq_true', List.any_eq_false]
    exact fun d hd => Bool.eq_false_iff.mp (halike d hd)
  have hmem : c ∈ (String.ofList word).toList := by rwa [String.toList_ofList]
  have hfound := mem_intercalate " " (List.mem_map_of_mem (f := String.ofList) hkept) hmem
  rw [hempty] at hfound
  cases hfound

section Samples

local instance diffFactsForms : UnicodeForms where
  nfkc text := text
  casefold text := text

theorem Sample.markedTwice_unblank (text : List Char) (htwice : isMarkedTwice text = true) :
    isBlank text = false := by
  obtain ⟨rest, hrest⟩ := Option.isSome_iff_exists.mp htwice
  rw [List.isPrefixOf?_eq_some_iff_append_eq] at hrest
  refine decide_eq_false (squeeze_ne_empty (c := '+') ?_ (by decide))
  rw [← hrest]
  change '+' ∈ (String.ofList _).toList
  rw [String.toList_ofList]
  exact List.mem_cons_self

/-- A file of one line without an end, which becomes another line with its end. -/
def Sample.endedFile : FileChangeTracker where
  original := [("a", some "x")]
  nodup := by decide

def Sample.endedFiles : Files := fun path => if path = "a" then some "y\n" else none

/-- The line that is added is taken for a part of the one that is removed. -/
theorem FileChangeTracker.attributes_unended :
    ¬ Sample.endedFile.Attributes Sample.endedFiles := by
  intro hattributes
  have hread : addedLines none (splitLines (Sample.endedFile.diff Sample.endedFiles)) = [] := by
    decide +kernel
  have hadded : (Sample.endedFile.changedFiles Sample.endedFiles).flatMap ChangedFile.addedPairs
      = [("a", "y")] := by
    decide +kernel
  have hpairs := hattributes.pairs
  rw [hread, hadded] at hpairs
  cases hpairs

theorem FileChangeTracker.attributes_sample :
    Sample.endedFile.Attributes Sample.endedFiles ↔ Sample.endedFile.IsReadable Sample.endedFiles :=
  FileChangeTracker.attributes_iff Sample.markedTwice_unblank Sample.endedFile Sample.endedFiles

end Samples

end PatchLoop
