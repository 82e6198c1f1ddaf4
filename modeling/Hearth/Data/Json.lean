import Hearth.Data.Draft
import Hearth.Number.Digits
import Hearth.Number.Text
import Hearth.Text.Quoted

/-!
# Hearth.Data.Json

Data written as JSON.

A number without a point and an exponent is a whole number as long as it fits into 64 bits, with or
without a sign. Any other number is read through a word of 64 bits: the leading digits that fit into
the word, without the digits after them, are scaled by the power of ten. A number too large for
that has no meaning; minus zero is the real number of that sign. Half a surrogate pair in a text has
no meaning either.

The reader works on the list of characters. `readValue?` takes fuel; every step of the reader uses
up a character, so the length of the text is fuel enough.
-/

namespace Hearth.Data.Json

open Hearth.Number

/-! ### Numbers -/

/-- A leading part of a run of digits as a number that fits into 64 bits, and the digits left. -/
def takeWord (word : Nat) : List Char → Nat × List Char
  | [] => (word, [])
  | c :: rest =>
    let next := 10 * word + digitValue c
    if maxWord64 < next then (word, c :: rest) else takeWord next rest

/-- Scales a number by a power of ten within the range of one factor. -/
def powerOfTen (k : Nat) : Float :=
  Float.ofScientific 1 false k

/-- `x · 10 ^ exponent`, in factors of at most `10 ^ 308`; an infinite result is none. `steps`
bounds the number of factors, and so many suffice that the number has become zero. -/
def scaled? (x : Float) (exponent : Int) : Nat → Option Float
  | 0 => some 0.0
  | steps + 1 =>
    if 0 ≤ exponent then
      -- Above this bound only zero stays finite, whatever its exponent.
      if exponent ≤ 308 then
        let y := x * powerOfTen exponent.toNat
        if y.isInf then none else some y
      else if x == 0.0 then some x
      else none
    else if -308 ≤ exponent then some (x / powerOfTen (-exponent).toNat)
    else if x == 0.0 then some x
    else scaled? (x / powerOfTen 308) (exponent + 308) steps

structure Literal where
  negative : Bool
  whole : List Char
  fraction : Option (List Char)
  exponent : Option (Bool × List Char)

namespace Literal

def signed (n : Literal) (x : Float) : Float :=
  if n.negative then -x else x

/-- The exponent is kept within 32 bits; beyond them the number is zero or too large. -/
def exponentValue (n : Literal) : Int :=
  match n.exponent with
  | none => 0
  | some (negative, ds) => if negative then -(ofDigits ds : Int) else ofDigits ds

def real? (n : Literal) : Option Float :=
  let (word, dropped) := takeWord 0 n.whole
  let (word, unread) :=
    match n.fraction with
    | none => (word, [])
    | some ds => takeWord word ds
  let taken := (n.fraction.getD []).length - unread.length
  let exponent := n.exponentValue + dropped.length - taken
  if word = 0 then some (n.signed 0.0)
  else (scaled? (UInt64.ofNat word).toFloat exponent 12).map n.signed

def numeral? (n : Literal) : Option Numeral :=
  if n.fraction.isNone && n.exponent.isNone then
    let value := ofDigits n.whole
    if n.negative then
      if value = 0 then some (.real (-0.0))
      else if value ≤ 9223372036854775808 then some (.whole (-(value : Int)))
      else n.real?.map Numeral.real
    else if value ≤ maxWord64 then some (.whole value)
    else n.real?.map Numeral.real
  else n.real?.map Numeral.real

end Literal

/-- Digits of which the first is zero only when it is the only one. -/
def readWhole? (cs : List Char) : Option (List Char × List Char) :=
  match spanDigits cs with
  | ([], _) => none
  | ('0' :: _ :: _, _) => none
  | (ds, rest) => some (ds, rest)

def readFraction? : List Char → Option (Option (List Char) × List Char)
  | '.' :: cs =>
    match spanDigits cs with
    | ([], _) => none
    | (ds, rest) => some (some ds, rest)
  | cs => some (none, cs)

def readExponent? : List Char → Option (Option (Bool × List Char) × List Char)
  | c :: cs =>
    if c = 'e' ∨ c = 'E' then
      let (negative, cs) :=
        match cs with
        | '-' :: cs => (true, cs)
        | '+' :: cs => (false, cs)
        | cs => (false, cs)
      match spanDigits cs with
      | ([], _) => none
      | (ds, rest) => some (some (negative, ds), rest)
    else some (none, c :: cs)
  | [] => some (none, [])

def readNumber? (negative : Bool) (cs : List Char) : Option (Draft × List Char) := do
  let (whole, cs) ← readWhole? cs
  let (fraction, cs) ← readFraction? cs
  let (exponent, cs) ← readExponent? cs
  return (.leaf ((Literal.mk negative whole fraction exponent).numeral?.map Data.number), cs)

/-! ### Texts -/

def hexValue? (c : Char) : Option Nat :=
  if '0' ≤ c ∧ c ≤ '9' then some (c.toNat - '0'.toNat)
  else if 'a' ≤ c ∧ c ≤ 'f' then some (c.toNat - 'a'.toNat + 10)
  else if 'A' ≤ c ∧ c ≤ 'F' then some (c.toNat - 'A'.toNat + 10)
  else none

def readHex4? : List Char → Option (Nat × List Char)
  | a :: b :: c :: d :: rest => do
    let a ← hexValue? a
    let b ← hexValue? b
    let c ← hexValue? c
    let d ← hexValue? d
    return (((a * 16 + b) * 16 + c) * 16 + d, rest)
  | _ => none

/-- The character of an escape with a code: one unit, or the two halves of a surrogate pair. Half a
pair alone is no character. -/
def readUnit? (cs : List Char) : Option (Option Char × List Char) := do
  let (high, rest) ← readHex4? cs
  if 0xD800 ≤ high ∧ high ≤ 0xDFFF then
    match rest with
    | '\\' :: 'u' :: after =>
      match readHex4? after with
      | some (low, after) =>
        if high < 0xDC00 ∧ 0xDC00 ≤ low ∧ low ≤ 0xDFFF then
          return (some (Char.ofNat (0x10000 + (high - 0xD800) * 0x400 + (low - 0xDC00))), after)
        else return (none, rest)
      | none => return (none, rest)
    | _ => return (none, rest)
  else return (some (Char.ofNat high), rest)

def readEscape? : List Char → Option (Option Char × List Char)
  | '"' :: rest => some (some '"', rest)
  | '\\' :: rest => some (some '\\', rest)
  | '/' :: rest => some (some '/', rest)
  | 'b' :: rest => some (some '\x08', rest)
  | 'f' :: rest => some (some '\x0c', rest)
  | 'n' :: rest => some (some '\n', rest)
  | 'r' :: rest => some (some '\r', rest)
  | 't' :: rest => some (some '\t', rest)
  | 'u' :: rest => readUnit? rest
  | _ => none

/-- The text up to the closing quote, if all of it has a meaning. The characters are collected from
the last to the first. -/
def readText? (collected : Option (List Char)) :
    Nat → List Char → Option (Option String × List Char)
  | 0, _ => none
  | _ + 1, [] => none
  | _ + 1, '"' :: rest => some (collected.map fun cs => String.ofList cs.reverse, rest)
  | fuel + 1, '\\' :: rest =>
    match readEscape? rest with
    | none => none
    | some (none, rest) => readText? none fuel rest
    | some (some c, rest) => readText? (collected.map (c :: ·)) fuel rest
  | fuel + 1, c :: rest =>
    if c.toNat < 0x20 then none else readText? (collected.map (c :: ·)) fuel rest

/-! ### Values -/

def isSpace (c : Char) : Bool :=
  c = ' ' || c = '\n' || c = '\t' || c = '\r'

def skipSpace (cs : List Char) : List Char :=
  cs.dropWhile isSpace

mutual

/-- A value, which may follow white space. -/
def readValue? : Nat → List Char → Option (Draft × List Char)
  | 0, _ => none
  | fuel + 1, cs =>
    match skipSpace cs with
    | 'n' :: 'u' :: 'l' :: 'l' :: rest => some (.leaf (some .null), rest)
    | 't' :: 'r' :: 'u' :: 'e' :: rest => some (.leaf (some (.bool true)), rest)
    | 'f' :: 'a' :: 'l' :: 's' :: 'e' :: rest => some (.leaf (some (.bool false)), rest)
    | '"' :: rest => (readText? (some []) fuel rest).map fun (s, rest) => (.leaf (s.map Data.text), rest)
    | '[' :: rest =>
      match skipSpace rest with
      | ']' :: rest => some (.list [], rest)
      | rest => readItems? [] fuel rest
    | '\x7b' :: rest =>
      match skipSpace rest with
      | '\x7d' :: rest => some (.record [], rest)
      | rest => readEntries? [] fuel rest
    | '-' :: rest => readNumber? true rest
    | rest => readNumber? false rest

/-- One item or more, and the closing bracket. -/
def readItems? (collected : List Draft) : Nat → List Char → Option (Draft × List Char)
  | 0, _ => none
  | fuel + 1, cs =>
    match readValue? fuel cs with
    | none => none
    | some (item, rest) =>
      match skipSpace rest with
      | ',' :: rest => readItems? (item :: collected) fuel rest
      | ']' :: rest => some (.list (item :: collected).reverse, rest)
      | _ => none

/-- One entry or more, and the closing brace. -/
def readEntries? (collected : List (Option String × Draft)) :
    Nat → List Char → Option (Draft × List Char)
  | 0, _ => none
  | fuel + 1, cs =>
    match skipSpace cs with
    | '"' :: rest =>
      match readText? (some []) fuel rest with
      | none => none
      | some (name, rest) =>
        match skipSpace rest with
        | ':' :: rest =>
          match readValue? fuel rest with
          | none => none
          | some (value, rest) =>
            match skipSpace rest with
            | ',' :: rest => readEntries? ((name, value) :: collected) fuel rest
            | '\x7d' :: rest => some (.record ((name, value) :: collected).reverse, rest)
            | _ => none
        | _ => none
    | _ => none

end

/-- Reads a text that holds one value and nothing else. -/
def draft? (s : String) : Option Draft :=
  let cs := s.toList
  match readValue? (2 * cs.length + 2) cs with
  | some (value, rest) => if (skipSpace rest).isEmpty then some value else none
  | none => none

/-- Reads a text that holds one value, all of which has a meaning. -/
def read? (s : String) : Option Data :=
  (draft? s).bind (Draft.data? .whole s.length)

/-! ### Writing -/

/-- Inside quotes only the quote, the backslash and the control characters are escaped. -/
def writeChar (c : Char) : List Char :=
  if c = '"' then ['\\', '"']
  else if c = '\\' then ['\\', '\\']
  else if c = '\x08' then ['\\', 'b']
  else if c = '\x0c' then ['\\', 'f']
  else if c = '\n' then ['\\', 'n']
  else if c = '\r' then ['\\', 'r']
  else if c = '\t' then ['\\', 't']
  else if c.toNat < 0x20 then
    ['\\', 'u', '0', '0', Nat.digitChar (c.toNat / 16), Nat.digitChar (c.toNat % 16)]
  else [c]

def writeText (s : String) : String :=
  String.ofList ('"' :: s.toList.flatMap writeChar ++ ['"'])

def writeNumeral : Numeral → String
  | .whole n => toString n
  | .real x => if x.isFinite then dataText x else "null"

mutual

/-- Without any white space, the entries of a record in their order. -/
def write : Data → String
  | .null => "null"
  | .bool true => "true"
  | .bool false => "false"
  | .number n => writeNumeral n
  | .text s => writeText s
  | .list items => "[" ++ ",".intercalate (writeItems items) ++ "]"
  | .record entries => "\x7b" ++ ",".intercalate (writeEntries entries) ++ "\x7d"

def writeItems : List Data → List String
  | [] => []
  | item :: rest => write item :: writeItems rest

def writeEntries : List (String × Data) → List String
  | [] => []
  | (name, value) :: rest => (writeText name ++ ":" ++ write value) :: writeEntries rest

end

end Hearth.Data.Json
