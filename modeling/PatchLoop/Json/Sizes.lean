import Mathlib.Algebra.Order.BigOperators.Group.List
import Mathlib.Algebra.Order.Group.Nat
import Mathlib.Algebra.GroupWithZero.Nat
import PatchLoop.Json

/-!
# Sizes

The bytes of what a value is written as, counted item by item: neither the order of the items of an array
nor that of the fields of an object matters, and a value that lacks some of them is not larger.
-/

namespace PatchLoop

namespace Json

/-- The bytes of a value as it is written. -/
def size (value : Json) : Nat := value.dumps.utf8ByteSize

/-- Each text counts with its separator, and the last one has none. -/
theorem utf8ByteSize_intercalate (texts : List String) :
    (",".intercalate texts).utf8ByteSize = (texts.map (·.utf8ByteSize + 1)).sum - 1 := by
  have hcomma : ",".utf8ByteSize = 1 := rfl
  induction texts with
  | nil => rfl
  | cons text rest ih =>
      cases rest with
      | nil => simp
      | cons other rest =>
          rw [String.intercalate_cons_cons, String.utf8ByteSize_append, String.utf8ByteSize_append, ih,
            hcomma]
          simp only [List.map_cons, List.sum_cons]
          omega

theorem dumpsItems_eq_map (items : List Json) : dumpsItems items = items.map dumps := by
  induction items with
  | nil => rfl
  | cons item rest ih => rw [dumpsItems, ih, List.map_cons]

theorem dumpsFields_eq_map (fields : List (String × Json)) :
    dumpsFields fields = fields.map fun field => quote field.1 ++ ":" ++ dumps field.2 := by
  induction fields with
  | nil => rfl
  | cons field rest ih => rw [dumpsFields, ih, List.map_cons]

/-- What an item adds to an array. -/
def itemBytes (items : List Json) : Nat := (items.map (·.size + 1)).sum

/-- What a field adds to an object. -/
def fieldBytes (fields : List (String × Json)) : Nat :=
  (fields.map fun field => (quote field.1).utf8ByteSize + field.2.size + 2).sum

theorem size_arr (items : List Json) : (arr items).size = itemBytes items - 1 + 2 := by
  have hopen : "[".utf8ByteSize = 1 := rfl
  have hclose : "]".utf8ByteSize = 1 := rfl
  rw [size, dumps, String.utf8ByteSize_append, String.utf8ByteSize_append, utf8ByteSize_intercalate,
    dumpsItems_eq_map, List.map_map, hopen, hclose]
  change 1 + (itemBytes items - 1) + 1 = _
  omega

theorem size_obj (fields : List (String × Json)) : (obj fields).size = fieldBytes fields - 1 + 2 := by
  have hopen : "\x7b".utf8ByteSize = 1 := rfl
  have hclose : "\x7d".utf8ByteSize = 1 := rfl
  have hcolon : ":".utf8ByteSize = 1 := rfl
  have hfields : ((fields.map fun field => quote field.1 ++ ":" ++ dumps field.2).map
      (·.utf8ByteSize + 1)).sum = fieldBytes fields := by
    rw [List.map_map]
    refine congrArg List.sum (List.map_congr_left fun field _ => ?_)
    change (quote field.1 ++ ":" ++ dumps field.2).utf8ByteSize + 1 = _
    rw [String.utf8ByteSize_append, String.utf8ByteSize_append, hcolon]
    change _ + 1 + field.2.size + 1 = _
    omega
  rw [size, dumps, String.utf8ByteSize_append, String.utf8ByteSize_append, utf8ByteSize_intercalate,
    dumpsFields_eq_map, hfields, hopen, hclose]
  omega

theorem itemBytes_le {items others : List Json} (hsub : items.Subperm others) :
    itemBytes items ≤ itemBytes others := by
  obtain ⟨middle, hperm, hsublist⟩ := hsub
  calc itemBytes items = itemBytes middle := (hperm.map fun item : Json => item.size + 1).sum_eq.symm
    _ ≤ itemBytes others := (hsublist.map fun item : Json => item.size + 1).sum_le_sum fun _ _ => Nat.zero_le _

/-- An array that lacks some items is not larger. -/
theorem size_arr_le {items others : List Json} (hsub : items.Subperm others) :
    (arr items).size ≤ (arr others).size := by
  have hbytes := itemBytes_le hsub
  rw [size_arr, size_arr]
  omega

theorem fieldBytes_append (fields others : List (String × Json)) :
    fieldBytes (fields ++ others) = fieldBytes fields + fieldBytes others := by
  rw [fieldBytes, List.map_append, List.sum_append, fieldBytes, fieldBytes]

/-- Some values under the same name or none, each not larger. -/
theorem fieldBytes_filterMap_le {κ : Type} {keys : List κ} {make other : κ → Option (String × Json)}
    (hle : ∀ k ∈ keys, fieldBytes (make k).toList ≤ fieldBytes (other k).toList) :
    fieldBytes (keys.filterMap make) ≤ fieldBytes (keys.filterMap other) := by
  have hcons : ∀ (f : κ → Option (String × Json)) (k : κ) (rest : List κ),
      fieldBytes ((k :: rest).filterMap f) = fieldBytes (f k).toList + fieldBytes (rest.filterMap f) := by
    intro f k rest
    rw [← fieldBytes_append]
    cases hfield : f k with
    | none => rw [List.filterMap_cons_none hfield]; rfl
    | some field => rw [List.filterMap_cons_some hfield]; rfl
  induction keys with
  | nil => exact Nat.le_refl _
  | cons k rest ih =>
      rw [hcons, hcons]
      exact Nat.add_le_add (hle k List.mem_cons_self)
        (ih fun k' hk' => hle k' (List.mem_cons_of_mem k hk'))

/-- An object whose fields take no more bytes is not larger. -/
theorem size_obj_le {fields others : List (String × Json)} (hle : fieldBytes fields ≤ fieldBytes others) :
    (obj fields).size ≤ (obj others).size := by
  rw [size_obj, size_obj]
  omega

theorem fieldBytes_singleton_le {name : String} {value other : Json} (hle : value.size ≤ other.size) :
    fieldBytes [(name, value)] ≤ fieldBytes [(name, other)] := by
  simp only [fieldBytes, List.map_cons, List.map_nil, List.sum_cons, List.sum_nil]
  omega

end Json

end PatchLoop
