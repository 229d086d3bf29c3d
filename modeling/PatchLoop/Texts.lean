import Mathlib.Data.List.Dedup
import Mathlib.Data.List.Sort
import Mathlib.Data.Nat.Digits.Defs
import Mathlib.Data.String.Basic

/-!
# Texts

What several parts of the program do with a text.
-/

namespace PatchLoop

/-- `str.isspace`, of one character -/
def isSpace (c : Char) : Bool :=
  c ∈ ['\t', '\n', '\x0b', '\x0c', '\r', '\x1c', '\x1d', '\x1e', '\x1f', ' ', '\u0085', '\u00a0',
    '\u1680', '\u2028', '\u2029', '\u202f', '\u205f', '\u3000']
    || ('\u2000' ≤ c && c ≤ '\u200a')

/-- `" ".join(value.split())` -/
def squeeze (value : String) : String :=
  " ".intercalate (((value.toList.splitBy fun c d => isSpace c == isSpace d).filter
    fun word => !word.any isSpace).map String.ofList)

/-- `value.strip()` -/
def strip (value : String) : String :=
  String.ofList (((value.toList.dropWhile isSpace).reverse.dropWhile isSpace).reverse)

/-- `sorted(set(texts))` -/
def sortedTexts (texts : List String) : List String := texts.dedup.insertionSort (· ≤ ·)

/-- `_truncate_text`: the beginning and the end of a text, with a note about what was between them. -/
def truncateText (text : String) (maxChars : Nat) : String :=
  if text.length ≤ maxChars then text
  else
    let marker := s!"\n... [truncated {text.length - maxChars} chars] ...\n"
    let available := maxChars - marker.length
    let front := available * 2 / 3
    let back := available - front
    String.ofList (text.toList.take front) ++ marker
      ++ String.ofList (text.toList.drop (text.length - back))

/-- A number has no more digits than it counts. -/
theorem length_toString_le {n : Nat} (hpos : 0 < n) : (toString n).length ≤ n := by
  have hlength : (Nat.repr n).length ≤ n :=
    Nat.repr_length n n hpos (Nat.lt_pow_self (by decide))
  exact hlength

theorem length_truncateText {text : String} {maxChars : Nat} (hlong : maxChars < text.length)
    (hroom : 28 < maxChars) : (truncateText text maxChars).length < text.length := by
  have hdigits := length_toString_le (Nat.sub_pos_of_lt hlong)
  unfold truncateText
  rw [if_neg (Nat.not_le_of_lt hlong)]
  generalize hmarker : s!"\n... [truncated {text.length - maxChars} chars] ...\n" = marker
  have hlength : marker.length = 28 + (toString (text.length - maxChars)).length := by
    rw [← hmarker]
    simp only [String.length_append]
    rw [show (toString "\n... [truncated ").length = 16 from rfl,
      show (toString " chars] ...\n").length = 12 from rfl]
    omega
  simp only [String.length_append, String.length_ofList, List.length_take, List.length_drop,
    String.length_toList]
  omega

end PatchLoop
