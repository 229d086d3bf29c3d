import Mathlib.Data.List.Basic

/-!
# Texts as bytes

The bytes of a text in UTF-8, and what is left of a file of lines that was cut at some byte: the lines
before the cut, once the rest of the last one is dropped. The characters of an ASCII text are its bytes.
-/

namespace Bytes

/-- `encode("utf-8")` -/
def encode (cs : List Char) : List UInt8 := cs.flatMap String.utf8EncodeChar

/-- `decode("utf-8")`, unless it raises. -/
def decode (bytes : List UInt8) : Option String := String.fromUTF8? bytes.toByteArray

/-- `b"\n"` -/
def lineFeed : UInt8 := 10

/-- What is up to the last line feed. -/
def completeLines (bytes : List UInt8) : List UInt8 :=
  (bytes.reverse.dropWhile (· ≠ lineFeed)).reverse

theorem decode_encode (text : String) : decode (encode text.toList) = some text := by
  have hbytes : (encode text.toList).toByteArray = text.toByteArray := String.utf8Encode_toList
  rw [decode, hbytes, String.fromUTF8?, dif_pos text.isValidUTF8]
  rfl

theorem encode_append (first second : List Char) :
    encode (first ++ second) = encode first ++ encode second :=
  List.flatMap_append

/-- Just the line feed is encoded with its byte: the bytes of longer codes are above it. -/
theorem lineFeed_mem_char (c : Char) : lineFeed ∈ String.utf8EncodeChar c ↔ c = '\n' := by
  constructor
  · intro hmem
    unfold String.utf8EncodeChar lineFeed at hmem
    dsimp only at hmem
    have hvalue : c.val.toNat = c.toNat := rfl
    split at hmem
    · simp only [List.mem_singleton, ← UInt8.toNat_inj, UInt8.toNat_ofNat', UInt8.reduceToNat] at hmem
      apply Char.ext
      apply UInt32.toNat_inj.mp
      have hfeed : ('\n').val.toNat = 10 := rfl
      omega
    · split at hmem
      · simp only [List.mem_cons, List.not_mem_nil, or_false, ← UInt8.toNat_inj, UInt8.toNat_ofNat',
          UInt8.reduceToNat] at hmem
        omega
      · split at hmem
        · simp only [List.mem_cons, List.not_mem_nil, or_false, ← UInt8.toNat_inj,
            UInt8.toNat_ofNat', UInt8.reduceToNat] at hmem
          omega
        · simp only [List.mem_cons, List.not_mem_nil, or_false, ← UInt8.toNat_inj,
            UInt8.toNat_ofNat', UInt8.reduceToNat] at hmem
          omega
  · rintro rfl
    decide

theorem lineFeed_mem_encode {cs : List Char} : lineFeed ∈ encode cs ↔ '\n' ∈ cs := by
  rw [encode, List.mem_flatMap]
  constructor
  · rintro ⟨c, hc, hmem⟩
    rwa [(lineFeed_mem_char c).mp hmem] at hc
  · intro hmem
    exact ⟨'\n', hmem, (lineFeed_mem_char '\n').mpr rfl⟩

/-! ### ASCII texts -/

/-- The bytes of a text. -/
def ofText (text : String) : List UInt8 := text.toByteArray.data.toList

/-- The characters of a text. Those of an ASCII text are its bytes, with nothing to be decoded. -/
def characters (text : String) : List Char :=
  if (ofText text).all (· < 128) then (ofText text).map fun b => Char.ofNat b.toNat else text.toList

theorem ofText_eq (text : String) : ofText text = encode text.toList := by
  have hbytes : (encode text.toList).toByteArray = text.toByteArray := String.utf8Encode_toList
  rw [ofText, ← hbytes, List.data_toByteArray]

theorem encode_cons (c : Char) (cs : List Char) : encode (c :: cs) = String.utf8EncodeChar c ++ encode cs :=
  List.flatMap_cons

theorem utf8EncodeChar_of_ascii {c : Char} (hascii : ∀ b ∈ String.utf8EncodeChar c, b < 128) :
    String.utf8EncodeChar c = [UInt8.ofNat c.toNat] ∧ c.toNat < 128 := by
  have hvalue : c.val.toNat = c.toNat := rfl
  unfold String.utf8EncodeChar at hascii ⊢
  dsimp only at hascii ⊢
  split
  · rename_i hle
    exact ⟨rfl, by omega⟩
  · rename_i hgt
    rw [if_neg hgt] at hascii
    split at hascii
    · have hfirst := hascii _ List.mem_cons_self
      simp only [UInt8.lt_iff_toNat_lt, UInt8.toNat_ofNat', UInt8.reduceToNat] at hfirst
      omega
    · split at hascii
      · have hfirst := hascii _ List.mem_cons_self
        simp only [UInt8.lt_iff_toNat_lt, UInt8.toNat_ofNat', UInt8.reduceToNat] at hfirst
        omega
      · have hfirst := hascii _ List.mem_cons_self
        simp only [UInt8.lt_iff_toNat_lt, UInt8.toNat_ofNat', UInt8.reduceToNat] at hfirst
        omega

theorem map_encode_of_ascii {cs : List Char} (hascii : ∀ b ∈ encode cs, b < 128) :
    (encode cs).map (fun b => Char.ofNat b.toNat) = cs := by
  induction cs with
  | nil => rfl
  | cons c rest ih =>
      rw [encode_cons] at hascii ⊢
      obtain ⟨hbyte, hlt⟩ := utf8EncodeChar_of_ascii fun b hb => hascii b (List.mem_append_left _ hb)
      have hchar : (UInt8.ofNat c.toNat).toNat = c.toNat := by
        rw [UInt8.toNat_ofNat']
        omega
      rw [List.map_append, ih fun b hb => hascii b (List.mem_append_right _ hb), hbyte, List.map_singleton,
        hchar, Char.ofNat_toNat, List.singleton_append]

theorem characters_eq (text : String) : characters text = text.toList := by
  rw [characters]
  split
  · rename_i hascii
    rw [ofText_eq] at hascii ⊢
    exact map_encode_of_ascii fun b hb => of_decide_eq_true (List.all_eq_true.mp hascii b hb)
  · rfl

/-! ### Cut files -/

section Cuts

variable {bytes cut : List UInt8} {lines : List (List UInt8)}

theorem completeLines_none (hnone : lineFeed ∉ bytes) : completeLines bytes = [] := by
  have hall : ∀ b ∈ bytes.reverse, decide (b ≠ lineFeed) = true := by
    intro b hb
    have hne : b ≠ lineFeed := by
      rintro rfl
      exact hnone (List.mem_reverse.mp hb)
    exact decide_eq_true hne
  rw [completeLines, ← List.append_nil bytes.reverse, List.dropWhile_append_of_pos hall,
    List.dropWhile_nil, List.reverse_nil]

theorem completeLines_append (first rest : List UInt8) :
    completeLines (first ++ lineFeed :: rest) = first ++ lineFeed :: completeLines rest := by
  have hdrop : (rest.reverse ++ lineFeed :: first.reverse).dropWhile (· ≠ lineFeed)
      = rest.reverse.dropWhile (· ≠ lineFeed) ++ lineFeed :: first.reverse := by
    rw [List.dropWhile_append]
    split
    · rename_i hempty
      rw [List.isEmpty_iff.mp hempty]
      simp
    · rfl
  rw [completeLines, List.reverse_append, List.reverse_cons, List.append_assoc,
    List.singleton_append, hdrop, List.reverse_append, List.reverse_cons, List.reverse_reverse,
    List.append_assoc]
  rfl

/-- Of lines that are cut at some byte, the first ones are left. -/
theorem completeLines_of_cut (hlines : ∀ line ∈ lines, lineFeed ∉ line)
    (hcut : cut <+: lines.flatMap (· ++ [lineFeed])) :
    ∃ count ≤ lines.length,
      completeLines cut = (lines.take count).flatMap (· ++ [lineFeed]) := by
  induction lines generalizing cut with
  | nil =>
      rw [List.flatMap_nil, List.prefix_nil] at hcut
      rw [hcut]
      exact ⟨0, Nat.le_refl _, rfl⟩
  | cons line rest ih =>
      obtain ⟨hline, hrest⟩ := List.forall_mem_cons.mp hlines
      rw [List.flatMap_cons, List.append_assoc, List.singleton_append] at hcut
      by_cases hshort : cut.length ≤ line.length
      · have hwithin : cut <+: line :=
          List.prefix_of_prefix_length_le hcut (List.prefix_append _ _) hshort
        refine ⟨0, Nat.zero_le _, ?_⟩
        rw [List.take_zero, List.flatMap_nil]
        exact completeLines_none fun hmem => hline (hwithin.subset hmem)
      · have hbeyond : line ++ [lineFeed] <+: cut := by
          refine List.prefix_of_prefix_length_le ?_ hcut ?_
          · rw [List.prefix_append_right_inj, List.cons_prefix_cons]
            exact ⟨rfl, List.nil_prefix⟩
          · rw [List.length_append, List.length_singleton]
            omega
        obtain ⟨later, rfl⟩ := hbeyond
        rw [List.append_assoc, List.singleton_append, List.prefix_append_right_inj,
          List.cons_prefix_cons] at hcut
        obtain ⟨count, hcount, hlater⟩ := ih hrest hcut.2
        refine ⟨count + 1, Nat.succ_le_succ hcount, ?_⟩
        rw [List.append_assoc, List.singleton_append, completeLines_append, hlater, List.take_succ_cons,
          List.flatMap_cons, List.append_assoc, List.singleton_append]

/-- The bytes end with a line feed, unless there are none. -/
def Ended (bytes : List UInt8) : Prop := bytes = [] ∨ bytes.getLast? = some lineFeed

theorem ended_lines (lines : List (List UInt8)) : Ended (lines.flatMap (· ++ [lineFeed])) := by
  induction lines with
  | nil => exact Or.inl rfl
  | cons line rest ih =>
      rw [List.flatMap_cons]
      rcases ih with hnil | hlast
      · rw [hnil, List.append_nil]
        exact Or.inr List.getLast?_concat
      · exact Or.inr (by rw [List.getLast?_append, hlast, Option.some_or])

theorem completeLines_of_ended (hended : Ended bytes) : completeLines bytes = bytes := by
  rcases hended with rfl | hlast
  · rfl
  · obtain ⟨first, rfl⟩ := List.getLast?_eq_some_iff.mp hlast
    rw [completeLines_append]
    rfl

end Cuts

end Bytes
