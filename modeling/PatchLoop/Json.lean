import Mathlib.Data.List.Sort

/-!
# JSON values and their digests

Tool arguments, policy results and evidence are JSON objects. An object is kept with its keys in
sorted order, which is the order `json.dumps(sort_keys=True)` writes and the order in which two
Python dictionaries compare.
-/

namespace PatchLoop

inductive Json where
  | null
  | bool (value : Bool)
  | int (value : Int)
  | float (text : String)
  | str (text : String)
  | arr (items : List Json)
  | obj (fields : List (String × Json))
deriving Inhabited

namespace Json

/-! ### Equality -/

mutual

def decideEq : (left right : Json) → Decidable (left = right)
  | .null, .null => .isTrue rfl
  | .bool a, .bool b => decidable_of_iff (a = b) (by rw [Json.bool.injEq])
  | .int a, .int b => decidable_of_iff (a = b) (by rw [Json.int.injEq])
  | .float a, .float b => decidable_of_iff (a = b) (by rw [Json.float.injEq])
  | .str a, .str b => decidable_of_iff (a = b) (by rw [Json.str.injEq])
  | .arr a, .arr b =>
      have := decideEqItems a b
      decidable_of_iff (a = b) (by rw [Json.arr.injEq])
  | .obj a, .obj b =>
      have := decideEqFields a b
      decidable_of_iff (a = b) (by rw [Json.obj.injEq])
  | .null, .bool _ | .null, .int _ | .null, .float _ | .null, .str _ | .null, .arr _
  | .null, .obj _ | .bool _, .null | .bool _, .int _ | .bool _, .float _ | .bool _, .str _
  | .bool _, .arr _ | .bool _, .obj _ | .int _, .null | .int _, .bool _ | .int _, .float _
  | .int _, .str _ | .int _, .arr _ | .int _, .obj _ | .float _, .null | .float _, .bool _
  | .float _, .int _ | .float _, .str _ | .float _, .arr _ | .float _, .obj _ | .str _, .null
  | .str _, .bool _ | .str _, .int _ | .str _, .float _ | .str _, .arr _ | .str _, .obj _
  | .arr _, .null | .arr _, .bool _ | .arr _, .int _ | .arr _, .float _ | .arr _, .str _
  | .arr _, .obj _ | .obj _, .null | .obj _, .bool _ | .obj _, .int _ | .obj _, .float _
  | .obj _, .str _ | .obj _, .arr _ => .isFalse (by intro h; cases h)

def decideEqItems : (left right : List Json) → Decidable (left = right)
  | [], [] => .isTrue rfl
  | a :: as, b :: bs =>
      have := decideEq a b
      have := decideEqItems as bs
      decidable_of_iff (a = b ∧ as = bs) (by rw [List.cons.injEq])
  | [], _ :: _ | _ :: _, [] => .isFalse (by intro h; cases h)

def decideEqFields : (left right : List (String × Json)) → Decidable (left = right)
  | [], [] => .isTrue rfl
  | (k, a) :: as, (l, b) :: bs =>
      have := decideEq a b
      have := decideEqFields as bs
      decidable_of_iff ((k = l ∧ a = b) ∧ as = bs) (by rw [List.cons.injEq, Prod.mk.injEq])
  | [], _ :: _ | _ :: _, [] => .isFalse (by intro h; cases h)

end

instance : DecidableEq Json := decideEq

/-! ### Reading -/

/-- `dict.get(name)` -/
def get? (name : String) : Json → Option Json
  | .obj fields => (fields.find? fun field => field.1 = name).map Prod.snd
  | _ => none

/-- `not value` for a dictionary -/
def isEmptyObject : Json → Bool
  | .obj [] => true
  | _ => false

/-! ### `json.dumps(value, ensure_ascii=False, sort_keys=True, separators=(",", ":"))` -/

def hexDigit (n : Nat) : Char := "0123456789abcdef".toList.getD n '0'

def escapeChar (c : Char) : List Char :=
  if c = '"' then ['\\', '"']
  else if c = '\\' then ['\\', '\\']
  else if c = '\n' then ['\\', 'n']
  else if c = '\r' then ['\\', 'r']
  else if c = '\t' then ['\\', 't']
  else if c.toNat = 8 then ['\\', 'b']
  else if c.toNat = 12 then ['\\', 'f']
  else if c.toNat < 32 then
    ['\\', 'u', '0', '0', hexDigit (c.toNat / 16), hexDigit (c.toNat % 16)]
  else [c]

def quote (text : String) : String :=
  "\"" ++ String.ofList (text.toList.flatMap escapeChar) ++ "\""

mutual

def dumps : Json → String
  | .null => "null"
  | .bool value => if value then "true" else "false"
  | .int value => toString value
  | .float text => text
  | .str text => quote text
  | .arr items => "[" ++ ",".intercalate (dumpsItems items) ++ "]"
  | .obj fields => "\x7b" ++ ",".intercalate (dumpsFields fields) ++ "\x7d"

def dumpsItems : List Json → List String
  | [] => []
  | item :: rest => dumps item :: dumpsItems rest

def dumpsFields : List (String × Json) → List String
  | [] => []
  | (name, value) :: rest => (quote name ++ ":" ++ dumps value) :: dumpsFields rest

end

end Json

/-- `hashlib.sha256(text.encode()).hexdigest()`. No result below looks inside a digest, so every
digest function is allowed; the ones about identities ask for the collision freeness they use. -/
class Sha256 where
  hexdigest : String → String

end PatchLoop
