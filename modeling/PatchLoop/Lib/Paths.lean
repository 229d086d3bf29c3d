import Mathlib.Data.List.Basic
import Mathlib.Tactic.Common

/-!
# Lexical paths

A path is read without a look at the file system, under one of two grammars. On POSIX it has a root and
components; on Windows it has a drive, too, and a second separator. A path that has neither a drive nor a
root nor a component `..` stays inside the directory that it is taken from.
-/

namespace Paths

/-- A path that is taken apart. -/
structure Parsed where
  drive : List Char
  root : List Char
  tail : List (List Char)
deriving DecidableEq

namespace Parsed

/-- All parts, the first of which is the anchor if there is one. -/
def parts (path : Parsed) : List (List Char) :=
  (if path.drive ++ path.root = [] then [] else [path.drive ++ path.root]) ++ path.tail

/-- A path without an anchor. -/
def IsRelative (path : Parsed) : Prop := path.drive = [] ∧ path.root = []

instance (path : Parsed) : Decidable path.IsRelative := inferInstanceAs (Decidable (_ ∧ _))

theorem parts_of_isRelative {path : Parsed} (hrelative : path.IsRelative) : path.parts = path.tail := by
  obtain ⟨hdrive, hroot⟩ := hrelative
  rw [parts, hdrive, hroot]
  rfl

end Parsed

def parent : List Char := ['.', '.']

instance decidableParentMem (parts : List (List Char)) : Decidable (parent ∈ parts) := inferInstance

/-- The pieces between the separators, without those that say nothing. -/
def components (isSeparator : Char → Bool) (text : List Char) : List (List Char) :=
  (text.splitOnP isSeparator).filter fun piece => piece ≠ [] ∧ piece ≠ ['.']

theorem parent_mem_components {isSeparator : Char → Bool} {text : List Char} :
    parent ∈ components isSeparator text ↔ parent ∈ text.splitOnP isSeparator := by
  rw [components, List.mem_filter]
  exact and_iff_left (by decide)

/-! ### POSIX -/

/-- `posixpath.splitroot`: two slashes are a root of their own, one slash or more than two are one. -/
def splitPosix (text : List Char) : List Char × List Char :=
  if text.take 1 ≠ ['/'] then ([], text)
  else if (text.drop 1).take 1 ≠ ['/'] ∨ (text.drop 2).take 1 = ['/'] then (['/'], text.drop 1)
  else (text.take 2, text.drop 2)

def isSlash (c : Char) : Bool := c = '/'

/-- `PurePosixPath(text)` -/
def posix (text : List Char) : Parsed where
  drive := []
  root := (splitPosix text).1
  tail := components isSlash (splitPosix text).2

/-! ### Windows -/

def isEitherSlash (c : Char) : Bool := c = '/' || c = '\\'

/-- `path.replace("/", "\\")` -/
def backslashed (text : List Char) : List Char := text.map fun c => if c = '/' then '\\' else c

/-- Where the name of the server or the device begins. -/
def shareStart (text : List Char) : Nat :=
  if (text.take 8).map Char.toUpper = "\\\\?\\UNC\\".toList then 8 else 2

/-- A drive on a server or of a device, the root after it, and the rest. -/
def splitShare (text : List Char) : List Char × List Char × List Char :=
  let start := shareStart text
  let server := (text.drop start).takeWhile (· ≠ '\\')
  let afterServer := (text.drop start).dropWhile (· ≠ '\\')
  let share := (afterServer.drop 1).takeWhile (· ≠ '\\')
  let afterShare := (afterServer.drop 1).dropWhile (· ≠ '\\')
  if afterServer = [] ∨ afterShare = [] then (text, [], [])
  else (text.take start ++ server ++ '\\' :: share, ['\\'], afterShare.drop 1)

/-- `ntpath.splitroot`, of a text with backslashes only -/
def splitWindows (text : List Char) : List Char × List Char × List Char :=
  if text.take 1 = ['\\'] then
    if (text.drop 1).take 1 = ['\\'] then splitShare text
    else ([], ['\\'], text.drop 1)
  else if (text.drop 1).take 1 = [':'] then
    if (text.drop 2).take 1 = ['\\'] then (text.take 2, ['\\'], text.drop 3)
    else (text.take 2, [], text.drop 2)
  else ([], [], text)

/-- The root that a drive on a server has without being followed by one. -/
def rootOf (drive root : List Char) : List Char :=
  let pieces := drive.splitOnP (· = '\\')
  if root = [] ∧ drive.take 1 = ['\\'] ∧ drive.getLast? ≠ some '\\' then
    if pieces.length = 4 then
      if (pieces.drop 2).take 1 ∈ [[[]], [['?']], [['.']], [['?', '.']]] then root else ['\\']
    else if pieces.length = 6 then ['\\']
    else root
  else root

/-- `PureWindowsPath(text)` -/
def windows (text : List Char) : Parsed :=
  let split := splitWindows (backslashed text)
  { drive := split.1
    root := rootOf split.1 split.2.1
    tail := components (· = '\\') split.2.2 }

/-! ### Anchors -/

/-- The text begins with a root or a drive of one of the grammars. -/
def anchored (text : List Char) : Bool :=
  text.take 1 = ['/'] || text.take 1 = ['\\'] || (text.drop 1).take 1 = [':']

theorem splitOnP_backslashed (text : List Char) :
    (backslashed text).splitOnP (· = '\\') = text.splitOnP isEitherSlash := by
  induction text with
  | nil => rfl
  | cons c rest ih =>
      have hcons : backslashed (c :: rest) = (if c = '/' then '\\' else c) :: backslashed rest := rfl
      rw [hcons, List.splitOnP_cons_eq_if_modifyHead, List.splitOnP_cons_eq_if_modifyHead, ih]
      by_cases hslash : c = '/'
      · subst hslash
        rfl
      · rw [if_neg hslash]
        simp [isEitherSlash, hslash]

theorem take_backslashed (text : List Char) (n : Nat) :
    (backslashed text).take n = backslashed (text.take n) := (List.map_take ..).symm

theorem drop_backslashed (text : List Char) (n : Nat) :
    (backslashed text).drop n = backslashed (text.drop n) := (List.map_drop ..).symm

theorem backslashed_eq_backslash {text : List Char} :
    backslashed text = ['\\'] ↔ text = ['/'] ∨ text = ['\\'] := by
  constructor
  · intro hback
    obtain ⟨c, rfl, hc⟩ := List.map_eq_singleton_iff.mp hback
    by_cases hslash : c = '/'
    · exact Or.inl (by rw [hslash])
    · rw [if_neg hslash] at hc
      exact Or.inr (by rw [hc])
  · rintro (rfl | rfl) <;> rfl

theorem backslashed_eq_colon {text : List Char} : backslashed text = [':'] ↔ text = [':'] := by
  constructor
  · intro hback
    obtain ⟨c, rfl, hc⟩ := List.map_eq_singleton_iff.mp hback
    by_cases hslash : c = '/'
    · rw [if_pos hslash] at hc
      exact absurd hc (by decide)
    · rw [if_neg hslash] at hc
      rw [hc]
  · rintro rfl
    rfl

theorem anchored_eq_false_iff {text : List Char} :
    anchored text = false ↔ (backslashed text).take 1 ≠ ['\\'] ∧ ((backslashed text).drop 1).take 1 ≠ [':'] := by
  rw [take_backslashed, drop_backslashed, take_backslashed, ne_eq, ne_eq, backslashed_eq_backslash,
    backslashed_eq_colon, anchored, Bool.or_eq_false_iff, Bool.or_eq_false_iff, decide_eq_false_iff_not,
    decide_eq_false_iff_not, decide_eq_false_iff_not, not_or]

theorem rootOf_of_ne_nil {drive root : List Char} (hroot : root ≠ []) : rootOf drive root = root := by
  unfold rootOf
  rw [if_neg fun hnone => hroot hnone.1]

theorem splitShare_drive {text : List Char} (hsome : text ≠ []) : (splitShare text).1 ≠ [] := by
  unfold splitShare
  dsimp only
  split
  · exact hsome
  · exact List.append_ne_nil_of_right_ne_nil _ (List.cons_ne_nil _ _)

/-- A Windows path has a drive or a root exactly if its text begins with one. -/
theorem windows_isRelative_iff {text : List Char} :
    (windows text).IsRelative ↔ anchored text = false := by
  rw [anchored_eq_false_iff]
  unfold Parsed.IsRelative windows
  generalize backslashed text = back
  dsimp only
  unfold splitWindows
  by_cases hfirst : back.take 1 = ['\\']
  · have hsome : back ≠ [] := by
      rintro rfl
      cases hfirst
    rw [if_pos hfirst]
    refine iff_of_false ?_ (fun hnone => hnone.1 hfirst)
    split
    · exact fun hnone => splitShare_drive hsome hnone.1
    · rw [rootOf_of_ne_nil (List.cons_ne_nil _ _)]
      exact fun hnone => List.cons_ne_nil _ _ hnone.2
  · rw [if_neg hfirst]
    by_cases hcolon : (back.drop 1).take 1 = [':']
    · have hdrive : back.take 2 ≠ [] := by
        intro hnone
        rcases List.take_eq_nil_iff.mp hnone with htwo | rfl
        · cases htwo
        · cases hcolon
      rw [if_pos hcolon]
      refine iff_of_false ?_ (fun hnone => hnone.2 hcolon)
      split
      · exact fun hnone => hdrive hnone.1
      · exact fun hnone => hdrive hnone.1
    · rw [if_neg hcolon]
      exact iff_of_true ⟨rfl, rfl⟩ ⟨hfirst, hcolon⟩

theorem windows_tail {text : List Char} (hrelative : anchored text = false) :
    (windows text).tail = components (· = '\\') (backslashed text) := by
  obtain ⟨hfirst, hcolon⟩ := anchored_eq_false_iff.mp hrelative
  unfold windows splitWindows
  dsimp only
  rw [if_neg hfirst, if_neg hcolon]

/-- A component `..` after the first separator is one of the path, unless the path begins with a drive on a
server or of a device, or is absolute. -/
theorem parent_mem_windows_tail {text : List Char} (hshare : (backslashed text).take 2 ≠ ['\\', '\\'])
    (hhalf : (windows text).drive = [] ∨ (windows text).root = [])
    (hparent : parent ∈ (text.splitOnP isEitherSlash).tail) : parent ∈ (windows text).tail := by
  rw [← splitOnP_backslashed] at hparent
  unfold windows at hhalf ⊢
  generalize backslashed text = back at *
  dsimp only at hhalf ⊢
  rw [parent_mem_components]
  unfold splitWindows at hhalf ⊢
  by_cases hfirst : back.take 1 = ['\\']
  · obtain ⟨rest, rfl⟩ : ∃ rest, back = '\\' :: rest := by
      cases back with
      | nil => cases hfirst
      | cons c rest => exact ⟨rest, by rw [(List.cons.inj hfirst).1]⟩
    have hsecond : rest.take 1 ≠ ['\\'] := fun hsecond => hshare (congrArg ('\\' :: ·) hsecond)
    rw [if_pos hfirst, List.drop_one, List.tail_cons, if_neg hsecond]
    rw [List.splitOnP_cons_eq_if_modifyHead] at hparent
    exact hparent
  · rw [if_neg hfirst] at hhalf ⊢
    by_cases hcolon : (back.drop 1).take 1 = [':']
    · rw [if_pos hcolon] at hhalf ⊢
      obtain ⟨letter, rest, rfl⟩ : ∃ letter rest, back = letter :: ':' :: rest := by
        match back, hcolon with
        | letter :: c :: rest, hcolon => exact ⟨letter, rest, by rw [(List.cons.inj hcolon).1]⟩
      have hletter : decide (letter = '\\') = false := by
        rw [decide_eq_false_iff_not]
        rintro rfl
        exact hfirst rfl
      have habsolute : rest.take 1 ≠ ['\\'] := by
        intro habsolute
        rw [if_pos (show ((letter :: ':' :: rest).drop 2).take 1 = ['\\'] from habsolute)] at hhalf
        rcases hhalf with hdrive | hroot
        · cases hdrive
        · rw [rootOf_of_ne_nil (List.cons_ne_nil _ _)] at hroot
          cases hroot
      rw [if_neg (show ((letter :: ':' :: rest).drop 2).take 1 ≠ ['\\'] from habsolute)]
      rw [List.splitOnP_cons_eq_if_modifyHead, hletter, List.splitOnP_cons_eq_if_modifyHead] at hparent
      obtain ⟨head, tail, hrest⟩ :=
        List.exists_cons_of_ne_nil (List.splitOnP_ne_nil (fun c => decide (c = '\\')) rest)
      rw [hrest] at hparent
      change parent ∈ rest.splitOnP fun c => decide (c = '\\')
      rw [hrest]
      exact List.mem_cons_of_mem head hparent
    · rw [if_neg hcolon]
      exact List.mem_of_mem_tail hparent

theorem posix_isRelative_iff {text : List Char} : (posix text).IsRelative ↔ text.take 1 ≠ ['/'] := by
  unfold Parsed.IsRelative posix splitPosix
  by_cases hfirst : text.take 1 = ['/']
  · rw [if_neg (not_not_intro hfirst)]
    refine iff_of_false (fun hnone => ?_) (fun hne => hne hfirst)
    split at hnone
    · exact List.cons_ne_nil _ _ hnone.2
    · have hempty : text.take 2 = [] := hnone.2
      rw [List.take_eq_nil_iff] at hempty
      rcases hempty with htwo | rfl
      · cases htwo
      · cases hfirst
  · rw [if_pos hfirst]
    exact iff_of_true ⟨rfl, rfl⟩ hfirst

theorem posix_tail {text : List Char} (hrelative : text.take 1 ≠ ['/']) :
    (posix text).tail = components isSlash text := by
  unfold posix splitPosix
  rw [if_pos hrelative]

/-! ### Pieces -/

section Pieces

variable {p q : Char → Bool} {text : List Char}

/-- With more separators, a piece without any of the new ones stays a piece. -/
theorem splitOnP_mono (hmono : ∀ c, p c = true → q c = true) :
    ∀ text : List Char, ∃ head tail finer rest, text.splitOnP p = head :: tail
      ∧ text.splitOnP q = finer :: rest ∧ ((∀ c ∈ head, q c = false) → finer = head)
      ∧ ∀ piece ∈ tail, (∀ c ∈ piece, q c = false) → piece ∈ rest
  | [] => ⟨[], [], [], [], rfl, rfl, fun _ => rfl, fun piece hpiece => by cases hpiece⟩
  | c :: text => by
      obtain ⟨head, tail, finer, rest, hp, hq, hhead, htail⟩ := splitOnP_mono hmono text
      rw [List.splitOnP_cons_eq_if_modifyHead, List.splitOnP_cons_eq_if_modifyHead, hp, hq]
      by_cases hcoarse : p c = true
      · rw [if_pos hcoarse, if_pos (hmono c hcoarse)]
        refine ⟨[], head :: tail, [], finer :: rest, rfl, rfl, fun _ => rfl, ?_⟩
        intro piece hpiece hclean
        rcases List.mem_cons.mp hpiece with rfl | hpiece
        · exact List.mem_cons.mpr (Or.inl (hhead hclean).symm)
        · exact List.mem_cons_of_mem _ (htail piece hpiece hclean)
      · rw [if_neg hcoarse]
        by_cases hfine : q c = true
        · rw [if_pos hfine]
          refine ⟨c :: head, tail, [], finer :: rest, rfl, rfl, ?_, ?_⟩
          · intro hclean
            rw [hclean c List.mem_cons_self] at hfine
            cases hfine
          · exact fun piece hpiece hclean => List.mem_cons_of_mem _ (htail piece hpiece hclean)
        · rw [if_neg hfine]
          refine ⟨c :: head, tail, c :: finer, rest, rfl, rfl, ?_, htail⟩
          intro hclean
          rw [hhead fun d hd => hclean d (List.mem_cons_of_mem c hd)]

theorem parent_of_slash (hparent : parent ∈ text.splitOnP isSlash) :
    parent ∈ text.splitOnP isEitherSlash := by
  have hclean : ∀ c ∈ parent, isEitherSlash c = false :=
    List.forall_mem_cons.mpr ⟨rfl, List.forall_mem_cons.mpr ⟨rfl, List.forall_mem_nil _⟩⟩
  obtain ⟨head, tail, finer, rest, hp, hq, hhead, htail⟩ :=
    splitOnP_mono (p := isSlash) (q := isEitherSlash)
      (fun c hc => by rw [isEitherSlash, Bool.or_eq_true]; exact Or.inl hc) text
  rw [hp] at hparent
  rw [hq]
  rcases List.mem_cons.mp hparent with rfl | hparent
  · exact List.mem_cons.mpr (Or.inl (hhead hclean).symm)
  · exact List.mem_cons_of_mem _ (htail parent hparent hclean)

/-- The pieces of a text with a character in the middle that is no separator: the one that holds it
joins the last piece before it with the first one after it. -/
theorem mem_splitOnP_around {c : Char} (hc : p c = false) {piece : List Char} (hpiece : c ∉ piece)
    (before after : List Char) :
    piece ∈ (before ++ c :: after).splitOnP p
      ↔ piece ∈ (before.splitOnP p).dropLast ∨ piece ∈ (after.splitOnP p).tail := by
  have hjoin : ∃ middle, c ∈ middle ∧ (before ++ c :: after).splitOnP p
      = (before.splitOnP p).dropLast ++ middle :: (after.splitOnP p).tail := by
    induction before with
    | nil =>
        obtain ⟨head, tail, hsplit⟩ := List.exists_cons_of_ne_nil (List.splitOnP_ne_nil p after)
        refine ⟨c :: head, List.mem_cons_self, ?_⟩
        rw [List.nil_append, List.splitOnP_cons_eq_if_modifyHead, hc, hsplit]
        rfl
    | cons d before ih =>
        obtain ⟨middle, hmiddle, hsplit⟩ := ih
        obtain ⟨head, tail, hbefore⟩ := List.exists_cons_of_ne_nil (List.splitOnP_ne_nil p before)
        rw [List.cons_append, List.splitOnP_cons_eq_if_modifyHead, List.splitOnP_cons_eq_if_modifyHead,
          hsplit, hbefore]
        cases hd : p d with
        | true => exact ⟨middle, hmiddle, rfl⟩
        | false =>
            cases tail with
            | nil => exact ⟨d :: middle, List.mem_cons_of_mem d hmiddle, rfl⟩
            | cons second tail => exact ⟨middle, hmiddle, rfl⟩
  obtain ⟨middle, hmiddle, hsplit⟩ := hjoin
  have hne : piece ≠ middle := by
    rintro rfl
    exact hpiece hmiddle
  rw [hsplit, List.mem_append, List.mem_cons, or_iff_right hne]

end Pieces

/-! ### Paths that stay inside -/

/-- Under both grammars the path has no anchor and no component `..`. -/
def StaysInside (text : List Char) : Prop :=
  ((posix text).IsRelative ∧ parent ∉ (posix text).parts)
    ∧ (windows text).IsRelative ∧ parent ∉ (windows text).parts

instance (text : List Char) : Decidable (StaysInside text) := inferInstanceAs (Decidable (_ ∧ _))

theorem take_ne_of_anchored {text : List Char} (hrelative : anchored text = false) :
    text.take 1 ≠ ['/'] := by
  intro hslash
  rw [anchored, hslash] at hrelative
  cases hrelative

theorem staysInside_iff {text : List Char} :
    StaysInside text ↔ anchored text = false ∧ parent ∉ text.splitOnP isEitherSlash := by
  constructor
  · rintro ⟨-, hrelative, hparts⟩
    have hanchored := windows_isRelative_iff.mp hrelative
    rw [Parsed.parts_of_isRelative hrelative, windows_tail hanchored, parent_mem_components,
      splitOnP_backslashed] at hparts
    exact ⟨hanchored, hparts⟩
  · rintro ⟨hanchored, hparts⟩
    have hwindows := windows_isRelative_iff.mpr hanchored
    have hslash := take_ne_of_anchored hanchored
    have hposix := posix_isRelative_iff.mpr hslash
    refine ⟨⟨hposix, ?_⟩, hwindows, ?_⟩
    · rw [Parsed.parts_of_isRelative hposix, posix_tail hslash, parent_mem_components]
      exact fun hparent => hparts (parent_of_slash hparent)
    · rw [Parsed.parts_of_isRelative hwindows, windows_tail hanchored, parent_mem_components,
        splitOnP_backslashed]
      exact hparts

end Paths
