import PatchLoop.Json
import Mathlib.Data.String.Basic

/-!
# Reading JSON

`json.loads`, on characters. A reader takes the characters it wants from the start of a text and leaves
the others.
-/

namespace PatchLoop

namespace Json

/-! ### Numbers -/

/-- The number of a text of digits. -/
def natOf (digits : List Char) : Nat := Nat.ofDigitChars 10 digits 0

/-- The characters at the start that are digits, and the others. -/
def scanDigits : List Char → List Char × List Char
  | c :: cs =>
      if c.isDigit then
        let (digits, rest) := scanDigits cs
        (c :: digits, rest)
      else ([], c :: cs)
  | [] => ([], [])

/-- `0|[1-9]\d*` -/
def scanNat : List Char → Option (List Char × List Char)
  | c :: cs =>
      if c = '0' then some ([c], cs)
      else if c.isDigit then
        let (digits, rest) := scanDigits cs
        some (c :: digits, rest)
      else none
  | [] => none

/-- `-?(?:0|[1-9]\d*)` -/
def scanWhole : List Char → Option (List Char × List Char)
  | c :: cs =>
      if c = '-' then (scanNat cs).map fun (digits, rest) => (c :: digits, rest)
      else scanNat (c :: cs)
  | [] => none

/-- `(\.\d+)?` -/
def scanFraction : List Char → List Char × List Char
  | c :: cs =>
      if c = '.' then
        match scanDigits cs with
        | ([], _) => ([], c :: cs)
        | (digits, rest) => (c :: digits, rest)
      else ([], c :: cs)
  | [] => ([], [])

/-- `[-+]?` -/
def scanSign : List Char → List Char × List Char
  | c :: cs => if c = '+' ∨ c = '-' then ([c], cs) else ([], c :: cs)
  | [] => ([], [])

/-- `([eE][-+]?\d+)?` -/
def scanExponent : List Char → List Char × List Char
  | c :: cs =>
      if c = 'e' ∨ c = 'E' then
        let (sign, cs') := scanSign cs
        match scanDigits cs' with
        | ([], _) => ([], c :: cs)
        | (digits, rest) => (c :: (sign ++ digits), rest)
      else ([], c :: cs)
  | [] => ([], [])

def intOf : List Char → Int
  | c :: digits => if c = '-' then -natOf digits else natOf (c :: digits)
  | [] => 0

/-- What a float is written as: a literal with a fraction or an exponent. -/
structure FloatLiteral (whole fraction exponent : List Char) : Prop where
  scansWhole : scanWhole whole = some (whole, [])
  scansFraction : scanFraction fraction = (fraction, [])
  scansExponent : scanExponent exponent = (exponent, [])
  nonempty : fraction ≠ [] ∨ exponent ≠ []

/-- A literal, or the name of an infinity. -/
def IsFloat (text : String) : Prop :=
  text = "Infinity" ∨ text = "-Infinity"
    ∨ ∃ whole fraction exponent, FloatLiteral whole fraction exponent
      ∧ text.toList = whole ++ (fraction ++ exponent)

end Json

/-- `float.__repr__` of the number that a literal denotes. What it writes reads as the same number. -/
class FloatRepr where
  repr : String → String
  isFloat : ∀ literal, Json.IsFloat (repr literal)
  repr_repr : ∀ literal, repr (repr literal) = repr literal

namespace Json

section Numbers

variable [FloatRepr]

/-- `_match_number` -/
def scanNumber (cs : List Char) : Option (Json × List Char) := do
  let (whole, rest) ← scanWhole cs
  let (fraction, rest) := scanFraction rest
  let (exponent, rest) := scanExponent rest
  if fraction = [] ∧ exponent = [] then
    return (.int (intOf whole), rest)
  else
    return (.float (FloatRepr.repr (String.ofList (whole ++ (fraction ++ exponent)))), rest)

end Numbers

/-! ### Strings -/

def hexValue (c : Char) : Option Nat :=
  if c.isDigit then some (c.toNat - '0'.toNat)
  else if 'a' ≤ c ∧ c ≤ 'f' then some (c.toNat - 'a'.toNat + 10)
  else if 'A' ≤ c ∧ c ≤ 'F' then some (c.toNat - 'A'.toNat + 10)
  else none

/-- `_decode_uXXXX` -/
def scanHex (a b c d : Char) : Option Nat := do
  return (((← hexValue a) * 16 + (← hexValue b)) * 16 + (← hexValue c)) * 16 + (← hexValue d)

/-- `BACKSLASH` -/
def escapes : List (Char × Char) :=
  [('"', '"'), ('\\', '\\'), ('/', '/'), ('b', Char.ofNat 8), ('f', Char.ofNat 12), ('n', '\n'),
    ('r', '\r'), ('t', '\t')]

/-- `scanstring`, after the opening quote. Half a surrogate pair has no character. -/
def scanString : List Char → Option (List Char × List Char)
  | [] => none
  | c :: cs =>
      if c = '"' then some ([], cs)
      else if c = '\\' then
        match cs with
        | [] => none
        | e :: cs =>
            if e = 'u' then
              match cs with
              | a :: b :: c :: d :: cs =>
                  match scanHex a b c d with
                  | none => none
                  | some code =>
                      if code < 0xD800 ∨ 0xE000 ≤ code then
                        (scanString cs).map fun (text, rest) => (Char.ofNat code :: text, rest)
                      else
                        match cs with
                        | x :: y :: a :: b :: c :: d :: cs =>
                            match scanHex a b c d with
                            | none => none
                            | some low =>
                                if x = '\\' ∧ y = 'u' ∧ code < 0xDC00 ∧ 0xDC00 ≤ low ∧ low < 0xE000 then
                                  (scanString cs).map fun (text, rest) =>
                                    (Char.ofNat (0x10000 + (code - 0xD800) * 0x400 + (low - 0xDC00))
                                      :: text, rest)
                                else none
                        | _ => none
              | _ => none
            else
              match escapes.find? fun pair => pair.1 = e with
              | none => none
              | some pair => (scanString cs).map fun (text, rest) => (pair.2 :: text, rest)
      else if c.toNat < 32 then none
      else (scanString cs).map fun (text, rest) => (c :: text, rest)

/-! ### Values -/

/-- `WHITESPACE` -/
def isSpace (c : Char) : Bool := c = ' ' ∨ c = '\t' ∨ c = '\n' ∨ c = '\r'

def skipSpace (cs : List Char) : List Char := cs.dropWhile isSpace

/-- What is after a word at the start. -/
def afterWord : List Char → List Char → Option (List Char)
  | [], cs => some cs
  | w :: word, c :: cs => if w = c then afterWord word cs else none
  | _ :: _, [] => none

def constants : List (String × Json) :=
  [("null", .null), ("true", .bool true), ("false", .bool false), ("NaN", .float "NaN"),
    ("Infinity", .float "Infinity"), ("-Infinity", .float "-Infinity")]

def scanConstant (cs : List Char) : Option (Json × List Char) :=
  constants.findSome? fun (word, value) => (afterWord word.toList cs).map fun rest => (value, rest)

/-- `fields[name] = value` -/
def setField (name : String) (value : Json) : List (String × Json) → List (String × Json)
  | [] => [(name, value)]
  | field :: rest =>
      if name = field.1 then (name, value) :: rest
      else if name < field.1 then (name, value) :: field :: rest
      else field :: setField name value rest

/-- `dict(pairs)` -/
def dictOf (pairs : List (String × Json)) : List (String × Json) :=
  pairs.foldl (fun fields pair => setField pair.1 pair.2 fields) []

section Scanner

variable [FloatRepr]

mutual

/-- `scan_once` -/
def scanValue : Nat → List Char → Option (Json × List Char)
  | 0, _ => none
  | _, [] => none
  | fuel + 1, c :: cs =>
      if c = '"' then (scanString cs).map fun (text, rest) => (.str (String.ofList text), rest)
      else if c = '[' then
        match afterWord [']'] (skipSpace cs) with
        | some rest => some (.arr [], rest)
        | none => (scanItems fuel (skipSpace cs)).map fun (items, rest) => (.arr items, rest)
      else if c = '\x7b' then
        match afterWord ['\x7d'] (skipSpace cs) with
        | some rest => some (.obj [], rest)
        | none => (scanFields fuel (skipSpace cs)).map fun (pairs, rest) => (.obj (dictOf pairs), rest)
      else
        match scanConstant (c :: cs) with
        | some found => some found
        | none => scanNumber (c :: cs)

/-- `JSONArray`, from an item on -/
def scanItems : Nat → List Char → Option (List Json × List Char)
  | 0, _ => none
  | fuel + 1, cs => do
      let (item, rest) ← scanValue fuel cs
      match skipSpace rest with
      | [] => none
      | c :: rest =>
          if c = ']' then return ([item], rest)
          else if c = ',' then
            let (items, rest) ← scanItems fuel (skipSpace rest)
            return (item :: items, rest)
          else none

/-- `JSONObject`, from a name on -/
def scanFields : Nat → List Char → Option (List (String × Json) × List Char)
  | 0, _ => none
  | fuel + 1, cs => do
      let (name, rest) ← scanString (← afterWord ['"'] cs)
      let rest ← afterWord [':'] (skipSpace rest)
      let (value, rest) ← scanValue fuel (skipSpace rest)
      match skipSpace rest with
      | [] => none
      | c :: rest =>
          if c = '\x7d' then return ([(String.ofList name, value)], rest)
          else if c = ',' then
            let (pairs, rest) ← scanFields fuel (skipSpace rest)
            return ((String.ofList name, value) :: pairs, rest)
          else none

end

/-- `json.loads`, unless it raises. -/
def loads (text : String) : Option Json := do
  let cs := skipSpace text.toList
  let (value, rest) ← scanValue cs.length cs
  if skipSpace rest = [] then return value else none

end Scanner

end Json

end PatchLoop
