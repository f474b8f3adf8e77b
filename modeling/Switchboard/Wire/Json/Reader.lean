import Switchboard.Wire.Nesting
import Switchboard.Decimal.Literal

/-!
# Reading JSON

A tree from JSON text, by the letter of RFC 8259: blanks may stand around any
token, and nothing may follow the value.

Two things are well formed and yet of no use to anybody, and the reader marks
them instead of refusing the whole text. A number beyond the largest double
becomes `unusable`. A string with half of a surrogate pair denotes no text; it
becomes the octets such a half would have, so that it can still serve where
bytes are wanted. As the name of a field it is unusable.

Control characters may not stand inside strings, with one exception: where
bytes are wanted they stand for themselves. So a string with one of them is
`crude`, which nothing but bytes can be made of.

Every function of the reader takes the characters that are left and returns
what it found together with what is left after it. The recursion is bounded by
a count that starts at twice the length of the text: each level of nesting
takes two calls and at least one character.

## Main definitions

* `Json.nesting`: How deep messages may be nested.
* `Json.readNumber?`, `Json.readString?`, `Json.readValue?`: The tokens.
* `Json.read?`: The tree of a text.
-/

namespace Switchboard.Wire.Json

/-- Every array and object is a level, but those that are skipped are free. -/
def nesting : Nesting := ⟨127, true, false⟩

/-- The characters that may stand between tokens. -/
def isBlank (c : Char) : Bool := c = ' ' || c = '\n' || c = '\t' || c = '\r'

/-- What is left after the blanks in front. -/
def skipBlanks (cs : List Char) : List Char := cs.dropWhile isBlank

/-- What is left after a word that has to stand in front. -/
def expect? : List Char → List Char → Option (List Char)
  | [], cs => some cs
  | w :: ws, c :: cs => if w = c then expect? ws cs else none
  | _ :: _, [] => none

/-- The value of a decimal digit. -/
def digitValue (c : Char) : Nat := c.toNat - 48

/-- The digits in front and what is left after them. -/
def readDigits (cs : List Char) : List Nat × List Char :=
  ((cs.takeWhile Char.isDigit).map digitValue, cs.dropWhile Char.isDigit)

/-- The digits in front, of which there has to be one. -/
def readDigits1? (cs : List Char) : Option (List Nat × List Char) :=
  match readDigits cs with
  | ([], _) => none
  | found => some found

/-- The digits before a point. Only a lone zero may begin with zero. -/
def readWhole? (cs : List Char) : Option (List Nat × List Char) :=
  match readDigits1? cs with
  | some (0 :: _ :: _, _) => none
  | found => found

/-- The digits after a point, if a point is in front. -/
def readFraction? : List Char → Option (Option (List Nat) × List Char)
  | '.' :: cs => do
    let (digits, rest) ← readDigits1? cs
    return (some digits, rest)
  | cs => some (none, cs)

/-- The number that decimal digits spell. -/
def digitsToNat (digits : List Nat) : Nat := digits.foldl (fun n d => n * 10 + d) 0

/-- The sign of an exponent and what is left after it. -/
def readSign : List Char → Bool × List Char
  | '+' :: cs => (false, cs)
  | '-' :: cs => (true, cs)
  | cs => (false, cs)

/-- The exponent, if one is in front. -/
def readExponent? : List Char → Option (Option Int × List Char)
  | c :: cs =>
    if c = 'e' ∨ c = 'E' then do
      let (negative, cs) := readSign cs
      let (digits, rest) ← readDigits1? cs
      let n : Int := digitsToNat digits
      return (some (if negative then -n else n), rest)
    else some (none, c :: cs)
  | [] => some (none, [])

/-- A number and what is left after it. -/
def readNumber? (cs : List Char) : Option (DecimalLiteral × List Char) := do
  let (negative, cs) :=
    match cs with
    | '-' :: cs => (true, cs)
    | cs => (false, cs)
  let (whole, cs) ← readWhole? cs
  let (fraction, cs) ← readFraction? cs
  let (exponent, cs) ← readExponent? cs
  return (⟨negative, whole, fraction, exponent⟩, cs)

/-- The tree of a number. -/
def numberNode (l : DecimalLiteral) : Node :=
  match l.read with
  | .integer n => .integer n
  | .real x => .double x
  | .outOfRange => .unusable

/-- The value of a hexadecimal digit of either case. -/
def hexValue? (c : Char) : Option Nat :=
  if '0' ≤ c ∧ c ≤ '9' then some (c.toNat - 48)
  else if 'a' ≤ c ∧ c ≤ 'f' then some (c.toNat - 87)
  else if 'A' ≤ c ∧ c ≤ 'F' then some (c.toNat - 55)
  else none

/-- The character that a letter after a backslash stands for. -/
def unescape? (c : Char) : Option Nat :=
  if c = '"' ∨ c = '\\' ∨ c = '/' then some c.toNat
  else if c = 'b' then some 8
  else if c = 'f' then some 12
  else if c = 'n' then some 10
  else if c = 'r' then some 13
  else if c = 't' then some 9
  else none

/-- What stands between the quotes of a string. -/
structure StringBody where
  /-- The characters as code points, surrogates as they are written. -/
  units : List Nat
  /-- Whether there is a control character that is not escaped. -/
  hasControl : Bool
  deriving DecidableEq, Repr, Inhabited

/-- What stands after one more character, which is escaped. -/
def StringBody.escaped (unit : Nat) (body : StringBody) : StringBody :=
  ⟨unit :: body.units, body.hasControl⟩

/-- What stands after one more character, which is not escaped. -/
def StringBody.literal (c : Char) (body : StringBody) : StringBody :=
  ⟨c.toNat :: body.units, c.toNat < 32 || body.hasControl⟩

/-- A string up to its closing quote and what is left after the quote. -/
def readString? : List Char → Option (StringBody × List Char)
  | [] => none
  | '"' :: rest => some (⟨[], false⟩, rest)
  | '\\' :: 'u' :: a :: b :: c :: d :: rest => do
    let a ← hexValue? a
    let b ← hexValue? b
    let c ← hexValue? c
    let d ← hexValue? d
    let (body, rest) ← readString? rest
    return (body.escaped (((a * 16 + b) * 16 + c) * 16 + d), rest)
  | '\\' :: c :: rest => do
    let unit ← unescape? c
    let (body, rest) ← readString? rest
    return (body.escaped unit, rest)
  | c :: rest => do
    if c = '\\' then none
    let (body, rest) ← readString? rest
    return (body.literal c, rest)

/-- The first half of a surrogate pair. -/
def isHighSurrogate (unit : Nat) : Bool := 0xD800 ≤ unit && unit < 0xDC00

/-- The second half of a surrogate pair. -/
def isLowSurrogate (unit : Nat) : Bool := 0xDC00 ≤ unit && unit < 0xE000

/-- Replaces each surrogate pair by the code point it stands for. -/
def joinPairs : List Nat → List Nat
  | high :: low :: rest =>
    if isHighSurrogate high && isLowSurrogate low then
      (0x10000 + (high - 0xD800) * 0x400 + (low - 0xDC00)) :: joinPairs rest
    else high :: joinPairs (low :: rest)
  | units => units

/-- The octets of a code point, surrogates written like any other code point
    of three octets. -/
def unitOctets (unit : Nat) : List UInt8 :=
  if isHighSurrogate unit || isLowSurrogate unit then
    [(0xE0 + unit / 0x1000).toUInt8, (0x80 + unit / 0x40 % 0x40).toUInt8,
      (0x80 + unit % 0x40).toUInt8]
  else encodeUtf8 (String.singleton (Char.ofNat unit))

/-- The tree of a string. -/
def stringNode (body : StringBody) : Node :=
  let points := joinPairs body.units
  if body.hasControl then .crude (points.flatMap unitOctets)
  else if points.any fun unit => isHighSurrogate unit || isLowSurrogate unit then
    .octets (points.flatMap unitOctets)
  else .text (String.ofList (points.map Char.ofNat))

/-- The tree of a string that is the key of an object. -/
def keyNode (body : StringBody) : Node :=
  match stringNode body with
  | .octets _ => .unusable
  | node => node

mutual

/-- A value and what is left after it, with at most so many calls. -/
def readValue? : Nat → List Char → Option (Node × List Char)
  | 0, _ => none
  | calls + 1, cs =>
    match skipBlanks cs with
    | '"' :: rest => do
      let (body, rest) ← readString? rest
      return (stringNode body, rest)
    | '[' :: rest =>
      match skipBlanks rest with
      | ']' :: rest => some (.array [], rest)
      | rest => do
        let (items, rest) ← readItems? calls rest
        return (.array items, rest)
    | '\x7b' :: rest =>
      match skipBlanks rest with
      | '\x7d' :: rest => some (.object [], rest)
      | rest => do
        let (entries, rest) ← readEntries? calls rest
        return (.object entries, rest)
    | 'n' :: rest => (expect? ['u', 'l', 'l'] rest).map fun rest => (.null, rest)
    | 't' :: rest => (expect? ['r', 'u', 'e'] rest).map fun rest => (.bool true, rest)
    | 'f' :: rest => (expect? ['a', 'l', 's', 'e'] rest).map fun rest => (.bool false, rest)
    | rest => do
      let (literal, rest) ← readNumber? rest
      return (numberNode literal, rest)

/-- The items of an array from the first on, up to and including the closing
    bracket. -/
def readItems? : Nat → List Char → Option (List Node × List Char)
  | 0, _ => none
  | calls + 1, cs => do
    let (item, rest) ← readValue? calls cs
    match skipBlanks rest with
    | ',' :: rest =>
      let (items, rest) ← readItems? calls rest
      return (item :: items, rest)
    | ']' :: rest => return ([item], rest)
    | _ => none

/-- The entries of an object from the first key on, up to and including the
    closing brace. -/
def readEntries? : Nat → List Char → Option (List (Node × Node) × List Char)
  | 0, _ => none
  | calls + 1, cs =>
    match skipBlanks cs with
    | '"' :: rest => do
      let (body, rest) ← readString? rest
      match skipBlanks rest with
      | ':' :: rest =>
        let (node, rest) ← readValue? calls rest
        let entry := (keyNode body, node)
        match skipBlanks rest with
        | ',' :: rest =>
          let (entries, rest) ← readEntries? calls rest
          return (entry :: entries, rest)
        | '\x7d' :: rest => return ([entry], rest)
        | _ => none
      | _ => none
    | _ => none

end

/-- The tree of a text, if the text is one value with nothing after it. -/
def read? (s : String) : Option Node := do
  let cs := s.toList
  let (node, rest) ← readValue? (2 * cs.length + 2) cs
  if (skipBlanks rest).isEmpty then some node else none

end Switchboard.Wire.Json
