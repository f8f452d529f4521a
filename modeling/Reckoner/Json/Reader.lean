import Reckoner.Decimal.Binary
import Reckoner.Json.Basic
import Reckoner.Text.Digits

/-!
# Reading JSON

`Json.ofText?` reads a JSON text: one value with blanks around it. The reader is strict. It refuses
raw control characters and lone surrogates in strings, numbers that no double can hold, and values
that nest deeper than a given limit.

The functions take the characters left to read and return what they leave over. At most two calls
pass between one consumed character and the next, so twice the number of characters bounds the
recursion.
-/

namespace Reckoner.Json

/-- Drops the blanks that JSON allows between its tokens. -/
def skipBlanks (cs : List Char) : List Char :=
  cs.dropWhile fun c => c == ' ' || c == '\n' || c == '\r' || c == '\t'

def hexValue? (c : Char) : Option Nat :=
  if '0' ≤ c ∧ c ≤ '9' then some (c.toNat - 48)
  else if 'a' ≤ c ∧ c ≤ 'f' then some (c.toNat - 87)
  else if 'A' ≤ c ∧ c ≤ 'F' then some (c.toNat - 55)
  else none

/-- The code unit of four hexadecimal digits. -/
def hexUnit? (a b c d : Char) : Option Nat := do
  let a ← hexValue? a
  let b ← hexValue? b
  let c ← hexValue? c
  let d ← hexValue? d
  return ((a * 16 + b) * 16 + c) * 16 + d

def isHighSurrogate (n : Nat) : Bool := 0xD800 ≤ n && n < 0xDC00

def isLowSurrogate (n : Nat) : Bool := 0xDC00 ≤ n && n < 0xE000

/-- The character that a surrogate pair encodes. -/
def joinSurrogates (high low : Nat) : Char :=
  Char.ofNat (0x10000 + (high - 0xD800) * 0x400 + (low - 0xDC00))

/-- The character of an escape with a single letter. -/
def shortEscape? : Char → Option Char
  | '"' => some '"'
  | '\\' => some '\\'
  | '/' => some '/'
  | 'b' => some '\x08'
  | 'f' => some '\x0c'
  | 'n' => some '\n'
  | 'r' => some '\r'
  | 't' => some '\t'
  | _ => none

/-- The characters of a string up to its closing quote, put in front of `read` in reverse. -/
def readString? : (read : List Char) → List Char → Option (String × List Char)
  | _, [] => none
  | read, '"' :: cs => some (String.ofList read.reverse, cs)
  | read, '\\' :: 'u' :: a :: b :: c :: d :: '\\' :: 'u' :: e :: f :: g :: h :: cs =>
    match hexUnit? a b c d with
    | none => none
    | some high =>
      if isHighSurrogate high then
        match hexUnit? e f g h with
        | none => none
        | some low =>
          if isLowSurrogate low then readString? (joinSurrogates high low :: read) cs else none
      else if isLowSurrogate high then none
      else readString? (Char.ofNat high :: read) ('\\' :: 'u' :: e :: f :: g :: h :: cs)
  | read, '\\' :: 'u' :: a :: b :: c :: d :: cs =>
    match hexUnit? a b c d with
    | none => none
    | some unit =>
      if isHighSurrogate unit || isLowSurrogate unit then none
      else readString? (Char.ofNat unit :: read) cs
  | read, '\\' :: c :: cs => (shortEscape? c).bind fun c => readString? (c :: read) cs
  | read, c :: cs => if c.toNat < 0x20 then none else readString? (c :: read) cs
termination_by _ cs => cs.length

/-- The leading digits of a number that fit into 64 bits, and the count of digits cut off. -/
def leadingDigits (n : Nat) : Nat × Nat :=
  let excess := Text.digitCount n - 20
  let m := n / 10 ^ excess
  if m < 2 ^ 64 then (m, excess) else (m / 10, excess + 1)

/-- Whether `n * 10 ^ e` is infinite as a double. Its leading digits and the power of ten are
rounded to 53 bits each, and their product once more. -/
def exceedsDouble (n : Nat) (e : Int) : Bool :=
  let (m, excess) := leadingDigits n
  let e := e + excess
  if m = 0 ∨ e < 0 then false
  else if 308 < e then true
  else 2 ^ 1024 ≤ roundToBits 53 (roundToBits 53 m * roundToBits 53 (10 ^ e.toNat))

/-- The exponent part of a number, `0` if there is none, and whether there is one. -/
def readExponent? (cs : List Char) : Option (Bool × Int × List Char) :=
  match cs with
  | c :: rest =>
    if c == 'e' || c == 'E' then
      let (negative, rest) : Bool × List Char :=
        match rest with
        | '-' :: rest => (true, rest)
        | '+' :: rest => (false, rest)
        | rest => (false, rest)
      let digits := rest.takeWhile Char.isDigit
      if digits.isEmpty then none
      else
        let e : Int := Text.digitsValue digits
        some (true, if negative then -e else e, rest.dropWhile Char.isDigit)
    else some (false, 0, cs)
  | [] => some (false, 0, cs)

/-- The fraction part of a number: its digits, none if there is no point. -/
def readFraction? (cs : List Char) : Option (List Char × List Char) :=
  match cs with
  | '.' :: rest =>
    let digits := rest.takeWhile Char.isDigit
    if digits.isEmpty then none else some (digits, rest.dropWhile Char.isDigit)
  | _ => some ([], cs)

/-- A number without its sign. -/
def readUnsigned? (negative : Bool) (cs : List Char) : Option (Json × List Char) :=
  let whole := cs.takeWhile Char.isDigit
  if whole.isEmpty || (whole.head? == some '0' && 1 < whole.length) then none
  else
    match readFraction? (cs.dropWhile Char.isDigit) with
    | none => none
    | some (fraction, rest) =>
      match readExponent? rest with
      | none => none
      | some (hasExponent, e, rest) =>
        let n := Text.digitsValue (whole ++ fraction)
        let e := e - fraction.length
        let signed : Int := if negative then -n else n
        if exceedsDouble n e then none
        else if fraction.isEmpty && !hasExponent && !(negative && n == 0) then
          some (integer signed, rest)
        else some (real signed e, rest)

def readNumber? : List Char → Option (Json × List Char)
  | '-' :: cs => readUnsigned? true cs
  | cs => readUnsigned? false cs

mutual

/-- One value, behind any blanks, that nests at most `depth` deep. -/
def readValue? : (fuel depth : Nat) → List Char → Option (Json × List Char)
  | 0, _, _ => none
  | fuel + 1, depth, cs =>
    match skipBlanks cs with
    | 'n' :: 'u' :: 'l' :: 'l' :: rest => some (null, rest)
    | 't' :: 'r' :: 'u' :: 'e' :: rest => some (bool true, rest)
    | 'f' :: 'a' :: 'l' :: 's' :: 'e' :: rest => some (bool false, rest)
    | '"' :: rest => (readString? [] rest).map fun (s, rest) => (string s, rest)
    | '[' :: rest =>
      match depth with
      | 0 => none
      | depth + 1 =>
        match skipBlanks rest with
        | ']' :: rest => some (array [], rest)
        | rest => (readElements? fuel depth [] rest).map fun (vs, rest) => (array vs, rest)
    | '\x7b' :: rest =>
      match depth with
      | 0 => none
      | depth + 1 =>
        match skipBlanks rest with
        | '\x7d' :: rest => some (object [], rest)
        | rest => (readMembers? fuel depth [] rest).map fun (ms, rest) => (object ms, rest)
    | rest => readNumber? rest

/-- The elements of an array up to its closing bracket, behind those in `read`. -/
def readElements? :
    (fuel depth : Nat) → (read : List Json) → List Char → Option (List Json × List Char)
  | 0, _, _, _ => none
  | fuel + 1, depth, read, cs =>
    match readValue? fuel depth cs with
    | none => none
    | some (v, rest) =>
      match skipBlanks rest with
      | ',' :: rest => readElements? fuel depth (v :: read) rest
      | ']' :: rest => some ((v :: read).reverse, rest)
      | _ => none

/-- The members of an object up to its closing brace, behind those in `read`. -/
def readMembers? : (fuel depth : Nat) → (read : List (String × Json)) → List Char →
    Option (List (String × Json) × List Char)
  | 0, _, _, _ => none
  | fuel + 1, depth, read, cs =>
    match skipBlanks cs with
    | '"' :: rest =>
      match readString? [] rest with
      | none => none
      | some (name, rest) =>
        match skipBlanks rest with
        | ':' :: rest =>
          match readValue? fuel depth rest with
          | none => none
          | some (v, rest) =>
            match skipBlanks rest with
            | ',' :: rest => readMembers? fuel depth ((name, v) :: read) rest
            | '\x7d' :: rest => some (((name, v) :: read).reverse, rest)
            | _ => none
        | _ => none
    | _ => none

end

/-- The value of a JSON text whose arrays and objects nest at most `depth` deep. -/
def ofText? (depth : Nat) (text : String) : Option Json :=
  let cs := text.toList
  match readValue? (2 * cs.length + 2) depth cs with
  | some (v, rest) => if (skipBlanks rest).isEmpty then some v else none
  | none => none

/-- The value of a JSON text of any depth. -/
def ofDeepText? (text : String) : Option Json := ofText? text.length text

end Reckoner.Json
