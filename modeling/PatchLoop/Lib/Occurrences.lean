import Mathlib.Data.List.Basic
import Mathlib.Tactic.Common

/-!
# Occurrences of one list in another

A list is cut at the occurrences of a pattern, taken from the left so that no two overlap. Joined by the
pattern the pieces are the list again, and joined by another list they are the list with the occurrences
replaced.
-/

namespace Occurrences

variable {α : Type} [DecidableEq α]

/-- The pieces between the occurrences of a pattern, where as many elements as it says still belong to
the last occurrence. -/
def cutFrom (pattern : List α) : Nat → List α → List (List α)
  | _, [] => [[]]
  | skip + 1, _ :: rest => cutFrom pattern skip rest
  | 0, a :: rest =>
      if pattern.isPrefixOf (a :: rest) then [] :: cutFrom pattern (pattern.length - 1) rest
      else (cutFrom pattern 0 rest).modifyHead (a :: ·)

def cut (pattern text : List α) : List (List α) := cutFrom pattern 0 text

/-- The number of occurrences. -/
def occurrences (pattern text : List α) : Nat := (cut pattern text).length - 1

/-- The pieces joined again, the first places by the replacement and the others by the pattern. -/
def rejoin (pattern replacement : List α) : Nat → List (List α) → List α
  | _, [] => []
  | _, [piece] => piece
  | 0, piece :: next :: rest =>
      piece ++ (pattern ++ rejoin pattern replacement 0 (next :: rest))
  | limit + 1, piece :: next :: rest =>
      piece ++ (replacement ++ rejoin pattern replacement limit (next :: rest))

/-- The list with the first occurrences replaced. -/
def replaceUpTo (pattern replacement : List α) (limit : Nat) (text : List α) : List α :=
  rejoin pattern replacement limit (cut pattern text)

section Pieces

variable {pattern replacement text : List α} {skip limit : Nat} {pieces : List (List α)}

theorem cutFrom_ne_nil : cutFrom pattern skip text ≠ [] := by
  induction text generalizing skip with
  | nil =>
      unfold cutFrom
      exact List.cons_ne_nil _ _
  | cons a rest ih =>
      cases skip with
      | succ skip =>
          unfold cutFrom
          exact ih
      | zero =>
          unfold cutFrom
          split
          · exact List.cons_ne_nil _ _
          · intro hnone
            exact ih (List.modifyHead_eq_nil_iff.mp hnone)

omit [DecidableEq α] in
theorem intercalate_modifyHead (pattern : List α) (a : α) (hsome : pieces ≠ []) :
    pattern.intercalate (pieces.modifyHead (a :: ·)) = a :: pattern.intercalate pieces := by
  obtain ⟨first, rest, rfl⟩ := List.exists_cons_of_ne_nil hsome
  cases rest with
  | nil => simp
  | cons second later =>
      rw [List.modifyHead_cons, List.intercalate_cons_cons, List.intercalate_cons_cons]
      rfl

/-- Joined by the pattern the pieces are what was cut. -/
theorem intercalate_cutFrom (hpattern : pattern ≠ []) :
    pattern.intercalate (cutFrom pattern skip text) = text.drop skip := by
  induction text generalizing skip with
  | nil =>
      unfold cutFrom
      simp
  | cons a rest ih =>
      cases skip with
      | succ skip =>
          unfold cutFrom
          rw [ih, List.drop_succ_cons]
      | zero =>
          unfold cutFrom
          split
          · rename_i hstarts
            obtain ⟨tail, htail⟩ := List.isPrefixOf_iff_prefix.mp hstarts
            obtain ⟨head, more, rfl⟩ := List.exists_cons_of_ne_nil hpattern
            obtain ⟨rfl, hrest⟩ := List.cons.inj htail
            have hsome : cutFrom (head :: more) ((head :: more).length - 1) rest ≠ [] :=
              cutFrom_ne_nil
            have hjoined : (head :: more).intercalate
                (cutFrom (head :: more) ((head :: more).length - 1) rest)
                  = rest.drop ((head :: more).length - 1) := ih
            obtain ⟨next, later, hnext⟩ := List.exists_cons_of_ne_nil hsome
            rw [hnext] at hjoined ⊢
            rw [List.intercalate_cons_cons, hjoined, ← hrest]
            simp
          · rw [intercalate_modifyHead pattern a cutFrom_ne_nil, ih]
            rfl

theorem intercalate_cut (hpattern : pattern ≠ []) : pattern.intercalate (cut pattern text) = text :=
  intercalate_cutFrom hpattern

omit [DecidableEq α] in
/-- With enough replacements none of the places is joined by the pattern. -/
theorem rejoin_eq (henough : pieces.length ≤ limit + 1) :
    rejoin pattern replacement limit pieces = replacement.intercalate pieces := by
  induction pieces generalizing limit with
  | nil => cases limit <;> rfl
  | cons piece rest ih =>
      cases rest with
      | nil => cases limit <;> simp [rejoin]
      | cons next later =>
          cases limit with
          | zero => simp at henough
          | succ limit =>
              have hrest : (next :: later).length ≤ limit + 1 := by
                rw [List.length_cons] at henough
                omega
              rw [rejoin, ih hrest, List.intercalate_cons_cons, List.append_assoc]

theorem replaceUpTo_occurrences :
    replaceUpTo pattern replacement (occurrences pattern text) text
      = replacement.intercalate (cut pattern text) := by
  refine rejoin_eq ?_
  unfold occurrences
  omega

theorem count_intercalate (a : α) (separator : List α) (pieces : List (List α)) :
    (separator.intercalate pieces).count a
      = pieces.flatten.count a + (pieces.length - 1) * separator.count a := by
  induction pieces with
  | nil => simp
  | cons piece rest ih =>
      cases rest with
      | nil => simp
      | cons next later =>
          have hflatten : (piece :: next :: later).flatten.count a
              = piece.count a + (next :: later).flatten.count a := by
            rw [List.flatten_cons, List.count_append]
          rw [List.intercalate_cons_cons, List.count_append, List.count_append, ih, hflatten]
          simp only [List.length_cons, Nat.add_sub_cancel]
          rw [Nat.succ_mul]
          omega

/-- What the replacement of all occurrences does to the number of an element. -/
theorem count_replaceUpTo (hpattern : pattern ≠ []) (a : α) :
    (replaceUpTo pattern replacement (occurrences pattern text) text).count a
        + occurrences pattern text * pattern.count a
      = text.count a + occurrences pattern text * replacement.count a := by
  have htext := count_intercalate a pattern (cut pattern text)
  rw [intercalate_cut hpattern] at htext
  rw [replaceUpTo_occurrences, count_intercalate, htext]
  unfold occurrences
  omega

end Pieces

end Occurrences
