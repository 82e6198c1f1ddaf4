import Hearth.Data.Json
import Hearth.Number.Decimal
import Hearth.Time.Calendar

/-!
# Hearth.Data.Toml.Scalar

The texts, numbers, dates and times of TOML. A reader answers what it has read and the characters
after it.
-/

namespace Hearth.Data.Toml

open Hearth.Number
open Data.Json (hexValue?)

/-! ### Characters -/

def isBlank (c : Char) : Bool := c = ' ' || c = '\t'

/-- Tabs and all characters that are not control characters. -/
def isTextChar (c : Char) : Bool :=
  c = '\t' || (0x20 ≤ c.toNat && c.toNat ≠ 0x7F)

def skipBlanks (cs : List Char) : List Char := cs.dropWhile isBlank

def readNewline? : List Char → Option (List Char)
  | '\n' :: rest => some rest
  | '\r' :: '\n' :: rest => some rest
  | _ => none

/-- Skips blanks, line breaks and comments; the flag tells that the text starts within a comment. -/
def skipGap : Bool → List Char → List Char
  | _, [] => []
  | _, '\n' :: rest => skipGap false rest
  | _, '\r' :: '\n' :: rest => skipGap false rest
  | false, c :: rest =>
    if isBlank c then skipGap false rest
    else if c = '#' then skipGap true rest
    else c :: rest
  | true, c :: rest => if isTextChar c then skipGap true rest else c :: rest

/-- The end of a line, which a comment may precede. -/
def readLineEnd? (cs : List Char) : Option (List Char) :=
  let cs :=
    match skipBlanks cs with
    | '#' :: rest => rest.dropWhile isTextChar
    | cs => cs
  match cs with
  | [] => some []
  | cs => readNewline? cs

/-! ### Texts -/

/-- The character with a code of so many hexadecimal digits. -/
def readCode? (digits : Nat) (cs : List Char) : Option (Char × List Char) :=
  let code := cs.take digits
  if code.length = digits then
    match code.foldlM (fun n c => (hexValue? c).map fun digit => n * 16 + digit) 0 with
    | some n => if n.isValidChar then some (Char.ofNat n, cs.drop digits) else none
    | none => none
  else none

def readEscape? : List Char → Option (Char × List Char)
  | 'b' :: rest => some ('\x08', rest)
  | 't' :: rest => some ('\t', rest)
  | 'n' :: rest => some ('\n', rest)
  | 'f' :: rest => some ('\x0c', rest)
  | 'r' :: rest => some ('\r', rest)
  | '"' :: rest => some ('"', rest)
  | '\\' :: rest => some ('\\', rest)
  | 'u' :: rest => readCode? 4 rest
  | 'U' :: rest => readCode? 8 rest
  | _ => none

/-- A text on one line up to its closing quote; between single quotes nothing is escaped. -/
def readLineText? (quote : Char) (collected : List Char) :
    Nat → List Char → Option (String × List Char)
  | 0, _ => none
  | _ + 1, [] => none
  | fuel + 1, c :: rest =>
    if c = quote then some (String.ofList collected.reverse, rest)
    else if c = '\\' ∧ quote = '"' then
      match readEscape? rest with
      | some (c, rest) => readLineText? quote (c :: collected) fuel rest
      | none => none
    else if isTextChar c then readLineText? quote (c :: collected) fuel rest
    else none

def skipEmptyLines : List Char → List Char
  | '\n' :: rest => skipEmptyLines rest
  | '\r' :: '\n' :: rest => skipEmptyLines rest
  | c :: rest => if isBlank c then skipEmptyLines rest else c :: rest
  | [] => []

/-- What follows a backslash at the end of a line: the blanks and empty lines after it do not
count. -/
def readJoinedLine? (cs : List Char) : Option (List Char) :=
  (readNewline? (skipBlanks cs)).map skipEmptyLines

/-- A text on several lines up to three closing quotes, before which two more may stand. -/
def readLongText? (quote : Char) (collected : List Char) :
    Nat → List Char → Option (String × List Char)
  | 0, _ => none
  | _ + 1, [] => none
  | fuel + 1, c :: rest =>
    match readNewline? (c :: rest) with
    | some rest => readLongText? quote ('\n' :: collected) fuel rest
    | none =>
      if c = quote then
        let run := ((c :: rest).takeWhile (· = quote)).length
        if run < 3 then
          readLongText? quote (List.replicate run quote ++ collected) fuel ((c :: rest).drop run)
        else
          let inside := min (run - 3) 2
          some (String.ofList (List.replicate inside quote ++ collected).reverse,
            (c :: rest).drop (inside + 3))
      else if c = '\\' ∧ quote = '"' then
        match readJoinedLine? rest with
        | some rest => readLongText? quote collected fuel rest
        | none =>
          match readEscape? rest with
          | some (c, rest) => readLongText? quote (c :: collected) fuel rest
          | none => none
      else if isTextChar c then readLongText? quote (c :: collected) fuel rest
      else none

/-- A text that starts with the given quote, after that quote. A line break right after three
opening quotes does not belong to the text. -/
def readQuoted? (quote : Char) (cs : List Char) : Option (String × List Char) :=
  match cs with
  | a :: b :: rest =>
    if a = quote ∧ b = quote then
      readLongText? quote [] (rest.length + 1) ((readNewline? rest).getD rest)
    else readLineText? quote [] (cs.length + 1) cs
  | cs => readLineText? quote [] (cs.length + 1) cs

/-! ### Numbers -/

/-- Digits, between two of which an underscore may stand; the underscores are dropped. -/
def spanGrouped (ok : Char → Bool) : List Char → List Char × List Char
  | '_' :: c :: rest =>
    if ok c then
      let (ds, rest) := spanGrouped ok rest
      (c :: ds, rest)
    else ([], '_' :: c :: rest)
  | c :: rest =>
    if ok c then
      let (ds, rest) := spanGrouped ok rest
      (c :: ds, rest)
    else ([], c :: rest)
  | [] => ([], [])

/-- One digit or more, the first without an underscore before it. -/
def readGrouped? (ok : Char → Bool) : List Char → Option (List Char × List Char)
  | '_' :: _ => none
  | cs =>
    match spanGrouped ok cs with
    | ([], _) => none
    | (ds, rest) => some (ds, rest)

def maxWhole : Nat := 9223372036854775807

/-- A whole number in another base, without a sign. -/
def readBased? (base : Nat) (cs : List Char) : Option (Data × List Char) := do
  let digit? (c : Char) : Option Nat := (hexValue? c).filter (· < base)
  let (ds, rest) ← readGrouped? (fun c => (digit? c).isSome) cs
  let n := ds.foldl (fun n c => n * base + (digit? c).getD 0) 0
  if n ≤ maxWhole then return (Data.whole n, rest) else none

/-- The digits before the point; only a single digit may be zero. -/
def readLeading? : List Char → Option (List Char × List Char)
  | '0' :: rest => some (['0'], rest)
  | cs => readGrouped? isDigit cs

def readFraction? : List Char → Option (List Char × List Char)
  | '.' :: rest => readGrouped? isDigit rest
  | cs => some ([], cs)

def readExponent? : List Char → Option (Option Int × List Char)
  | c :: rest =>
    if c = 'e' ∨ c = 'E' then
      let (negative, rest) :=
        match rest with
        | '-' :: rest => (true, rest)
        | '+' :: rest => (false, rest)
        | rest => (false, rest)
      (readGrouped? isDigit rest).map fun (ds, rest) =>
        let n : Int := ofDigits ds
        (some (if negative then -n else n), rest)
    else some (none, c :: rest)
  | [] => some (none, [])

/-- A whole number of 64 bits with a sign, or with a fraction or an exponent a real number, which
may not be too large. -/
def readDecimal? (negative : Bool) (cs : List Char) : Option (Data × List Char) := do
  let (whole, rest) ← readLeading? cs
  let (fraction, rest) ← readFraction? rest
  let (exponent, rest) ← readExponent? rest
  if fraction.isEmpty && exponent.isNone then
    let n := ofDigits whole
    if negative then
      if n ≤ maxWhole + 1 then return (Data.whole (-(n : Int)), rest) else none
    else if n ≤ maxWhole then return (Data.whole n, rest) else none
  else
    let x := (Decimal.mk (ofDigits (whole ++ fraction)) (exponent.getD 0 - fraction.length)).toFloat
    if negative then return (Data.real (-x), rest)
    else if x.isInf then none else return (Data.real x, rest)

def readSigned? (negative : Bool) : List Char → Option (Data × List Char)
  | 'i' :: 'n' :: 'f' :: rest =>
    let infinite : Float := 1.0 / 0.0
    some (Data.real (if negative then -infinite else infinite), rest)
  | 'n' :: 'a' :: 'n' :: rest => some (Data.real (0.0 / 0.0), rest)
  | cs => readDecimal? negative cs

def readNumber? : List Char → Option (Data × List Char)
  | '0' :: 'x' :: rest => readBased? 16 rest
  | '0' :: 'o' :: rest => readBased? 8 rest
  | '0' :: 'b' :: rest => readBased? 2 rest
  | '+' :: rest => readSigned? false rest
  | '-' :: rest => readSigned? true rest
  | cs => readSigned? false cs

/-! ### Dates and times -/

def readDigits? (count : Nat) (cs : List Char) : Option (Nat × List Char) :=
  let ds := cs.take count
  if ds.length = count ∧ ds.all isDigit then some (ofDigits ds, cs.drop count) else none

def readMark? (mark : Char) : List Char → Option (List Char)
  | c :: rest => if c = mark then some rest else none
  | [] => none

/-- A date that is in the calendar. -/
def readDate? (cs : List Char) : Option (List Char) := do
  let (year, cs) ← readDigits? 4 cs
  let cs ← readMark? '-' cs
  let (month, cs) ← readDigits? 2 cs
  let cs ← readMark? '-' cs
  let (day, cs) ← readDigits? 2 cs
  let _ ← Date.ofCivil? ⟨year, month, day⟩
  return cs

def readHourMinute? (cs : List Char) : Option (List Char) := do
  let (hour, cs) ← readDigits? 2 cs
  let cs ← readMark? ':' cs
  let (minute, cs) ← readDigits? 2 cs
  if hour < 24 ∧ minute < 60 then return cs else none

/-- A time of day; the last minute may have a leap second. -/
def readTime? (cs : List Char) : Option (List Char) := do
  let cs ← readHourMinute? cs
  let cs ← readMark? ':' cs
  let (second, cs) ← readDigits? 2 cs
  guard (second ≤ 60)
  match cs with
  | '.' :: rest =>
    match spanDigits rest with
    | ([], _) => none
    | (_, rest) => return rest
  | cs => return cs

/-- The distance to universal time, if there is one. -/
def readZone? : List Char → Option (List Char)
  | 'Z' :: rest => some rest
  | 'z' :: rest => some rest
  | '+' :: rest => readHourMinute? rest
  | '-' :: rest => readHourMinute? rest
  | cs => some cs

/-- A date, a time, or both with or without a distance to universal time. -/
def readMoment? (cs : List Char) : Option (List Char) :=
  match readDate? cs with
  | none => readTime? cs
  | some rest =>
    match rest with
    | c :: after =>
      if c = 'T' ∨ c = 't' ∨ c = ' ' then
        match readTime? after with
        | some rest => readZone? rest
        | none => some rest
      else some rest
    | [] => some []

/-- Dates and times have no form of their own among data; they are records with one entry. -/
def momentKey : String := "$moment"

def readCounted? (cs : List Char) : Option (Data × List Char) :=
  match readMoment? cs with
  | some rest =>
    let written := cs.take (cs.length - rest.length)
    some (.record [(momentKey, .text (String.ofList written))], rest)
  | none => readNumber? cs

end Hearth.Data.Toml
