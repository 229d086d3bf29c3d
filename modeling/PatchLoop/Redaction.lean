import PatchLoop.Lib.Patterns
import PatchLoop.Security
import PatchLoop.Texts

/-!
# The secret redactor

The patterns of `SecretRedactor` in `security.py`. Which characters beyond ASCII are letters or digits is
left open. No run of a pattern takes what may follow it, so that the matcher of `re` never gives back what
a run took. The edge of a word that a pattern asks for after a label is there by itself, before the white
space or the sign that must follow.
-/

namespace PatchLoop

open Patterns

/-- The letters and digits beyond ASCII. -/
class Alphabet where
  isAlnum : Char → Bool

namespace SecretRedactor

/-- The letters beyond ASCII that a pattern takes for a small letter if it ignores case. -/
def caseVariants : List (Char × Char) :=
  [('i', '\u0130'), ('i', '\u0131'), ('k', '\u212a'), ('s', '\u017f')]

/-- `\w` -/
def isWord [Alphabet] (c : Char) : Bool :=
  c.isAlphanum || c = '_' ||
    (127 < c.toNat && !isSpace c && (caseVariants.any (·.2 = c) || Alphabet.isAlnum c))

/-- A small letter in a pattern that ignores case. -/
def folds (letter c : Char) : Bool := c.toLower = letter || caseVariants.contains (letter, c)

/-- `[A-Za-z0-9._~+/=-]`, ignoring case -/
def isToken (c : Char) : Bool :=
  c.isAlphanum || c ∈ ['.', '_', '~', '+', '/', '=', '-'] || caseVariants.any (·.2 = c)

/-- `[A-Za-z0-9_-]` -/
def isKeyChar (c : Char) : Bool := c.isAlphanum || c ∈ ['_', '-']

def isQuote (c : Char) : Bool := c ∈ ['"', '\'']

/-- `[^\s,;"'}]` -/
def isValue (c : Char) : Bool := !isSpace c && c ∉ [',', ';', '"', '\'', '}']

/-- Letters, ignoring case. -/
def letters (text : String) : List (Run Char) := text.toList.map fun letter => .one (folds letter)

/-- `[_-]?` -/
def hyphen : Run Char := .optional fun c => c ∈ ['_', '-']

section Patterns

variable [Alphabet]

/-- `(?i)\bBearer\s+[A-Za-z0-9._~+/=-]{12,}`, replaced by `"Bearer " + replacement` -/
def bearer : Pattern Char where
  word := isWord
  before := [letters "bearer" ++ [.atLeast 1 isSpace]]
  middle := [.atLeast 12 isToken]
  after := []
  normal _ := "Bearer ".toList
  mark := redactedMark.toList

/-- `\bsk-[A-Za-z0-9_-]{16,}` -/
def secretKey : Pattern Char where
  word := isWord
  before := [[]]
  middle := [.one (· = 's'), .one (· = 'k'), .one (· = '-'), .atLeast 16 isKeyChar]
  after := []
  normal kept := kept
  mark := redactedMark.toList

/-- `api[_-]?key|access[_-]?token|auth[_-]?token|password|passwd|secret` -/
def labels : List (List (Run Char)) :=
  [letters "api" ++ hyphen :: letters "key", letters "access" ++ hyphen :: letters "token",
    letters "auth" ++ hyphen :: letters "token", letters "password", letters "passwd",
    letters "secret"]

/-- `\s*[=:]\s*` and `(["']?)` -/
def separator : List (Run Char) :=
  [.atLeast 0 isSpace, .one fun c => c ∈ ['=', ':'], .atLeast 0 isSpace, .optional isQuote]

/-- A label and its value, of which the value is replaced. -/
def labelled : Pattern Char where
  word := isWord
  before := labels.map (· ++ separator)
  middle := [.atLeast 1 isValue]
  after := [.optional isQuote]
  normal kept := kept
  mark := redactedMark.toList

def redactText (value : String) : String :=
  String.ofList (labelled.rewrite (secretKey.rewrite (bearer.rewrite value.toList)))

end Patterns

/-! ### Names -/

/-- The characters beyond ASCII whose `casefold` holds a letter from a to z, with these letters. -/
def foldedLetters : List (Char × String) :=
  [('\u00df', "ss"), ('\u0130', "i"), ('\u0149', "n"), ('\u017f', "s"), ('\u01f0', "j"),
    ('\u1e96', "h"), ('\u1e97', "t"), ('\u1e98', "w"), ('\u1e99', "y"), ('\u1e9a', "a"),
    ('\u1e9e', "ss"), ('\u212a', "k"), ('\ufb00', "ff"), ('\ufb01', "fi"), ('\ufb02', "fl"),
    ('\ufb03', "ffi"), ('\ufb04', "ffl"), ('\ufb05', "st"), ('\ufb06', "st")]

/-- `re.sub(r"[^a-z]", "", name.casefold())` -/
def plainName (name : String) : String :=
  String.ofList <| name.toList.flatMap fun c =>
    if c.isAlpha then [c.toLower]
    else ((foldedLetters.find? (·.1 = c)).map (·.2.toList)).getD []

/-- `_sensitive_names` -/
def sensitiveNames : List String :=
  ["apikey", "accesstoken", "authtoken", "authorization", "password", "passwd", "secret", "token"]

end SecretRedactor

/-- `SecretRedactor` -/
@[reducible] def secretRedactor [Alphabet] : Redactor where
  redactText := SecretRedactor.redactText
  sensitiveName name := SecretRedactor.plainName name ∈ SecretRedactor.sensitiveNames

end PatchLoop
