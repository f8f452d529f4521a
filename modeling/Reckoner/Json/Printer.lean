import Reckoner.Json.Basic
import Reckoner.Text.Digits

/-!
# Writing JSON

`Json.toText` writes a value without blanks. Strings keep all their characters but the quote, the
backslash and the control characters, which are escaped.
-/

namespace Reckoner.Json

def hexDigit (n : Nat) : Char := n.digitChar

/-- A character inside a string. -/
def escapeChar (c : Char) : List Char :=
  match c with
  | '"' => ['\\', '"']
  | '\\' => ['\\', '\\']
  | '\n' => ['\\', 'n']
  | '\r' => ['\\', 'r']
  | '\t' => ['\\', 't']
  | '\x08' => ['\\', 'b']
  | '\x0c' => ['\\', 'f']
  | c =>
    if c.toNat < 0x20 then
      ['\\', 'u', '0', '0', hexDigit (c.toNat / 16), hexDigit (c.toNat % 16)]
    else [c]

/-- A string with its quotes, in front of `rest`. -/
def writeString (s : String) (rest : List Char) : List Char :=
  '"' :: (s.toList.foldr (fun c rest => escapeChar c ++ rest) ('"' :: rest))

mutual

/-- A value, in front of `rest`. -/
def write : Json → (rest : List Char) → List Char
  | null, rest => "null".toList ++ rest
  | bool true, rest => "true".toList ++ rest
  | bool false, rest => "false".toList ++ rest
  | integer n, rest => (Text.decimalInt n).toList ++ rest
  | real m e, rest => (Text.decimalInt m).toList ++ 'e' :: (Text.decimalInt e).toList ++ rest
  | string s, rest => writeString s rest
  | array elements, rest => '[' :: writeElements elements rest
  | object members, rest => '\x7b' :: writeMembers members rest

/-- The elements of an array and its closing bracket. -/
def writeElements : List Json → (rest : List Char) → List Char
  | [], rest => ']' :: rest
  | [v], rest => write v (']' :: rest)
  | v :: w :: vs, rest => write v (',' :: writeElements (w :: vs) rest)

/-- The members of an object and its closing brace. -/
def writeMembers : List (String × Json) → (rest : List Char) → List Char
  | [], rest => '\x7d' :: rest
  | [(name, v)], rest => writeString name (':' :: write v ('\x7d' :: rest))
  | (name, v) :: m :: ms, rest =>
    writeString name (':' :: write v (',' :: writeMembers (m :: ms) rest))

end

/-- The text of a JSON value. -/
def toText (v : Json) : String := String.ofList (write v [])

end Reckoner.Json
