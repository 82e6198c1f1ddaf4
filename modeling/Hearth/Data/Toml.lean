import Hearth.Data.Toml.Scalar
import Hearth.Data.Toml.Table

/-!
# Hearth.Data.Toml

Data read from a TOML document: pairs of a key and a value, one on a line, under headers of tables.

The readers take fuel; every step uses up a character, so the length of the document is fuel
enough. Lists and tables within values nest to a limited depth.
-/

namespace Hearth.Data.Toml

/-- Neither values nor keys nest as deep as this. -/
def depthLimit : Nat := 80

/-! ### Keys -/

def isBareKeyChar (c : Char) : Bool := c.isAlphanum || c = '_' || c = '-'

/-- A part of a key: bare, or a quoted text on one line. -/
def readKeyPart? (cs : List Char) : Option (String × List Char) :=
  match cs with
  | '"' :: rest => readLineText? '"' [] (rest.length + 1) rest
  | '\x27' :: rest => readLineText? '\x27' [] (rest.length + 1) rest
  | cs =>
    match cs.takeWhile isBareKeyChar with
    | [] => none
    | part => some (String.ofList part, cs.dropWhile isBareKeyChar)

/-- The parts of a key with points between them. -/
def readKeyParts? : Nat → List Char → Option (List String × List Char)
  | 0, _ => none
  | fuel + 1, cs =>
    match readKeyPart? (skipBlanks cs) with
    | none => none
    | some (part, rest) =>
      match skipBlanks rest with
      | '.' :: rest => (readKeyParts? fuel rest).map fun (parts, rest) => (part :: parts, rest)
      | rest => some ([part], rest)

def readKey? (cs : List Char) : Option ((List String × String) × List Char) := do
  let (parts, rest) ← readKeyParts? depthLimit cs
  guard (parts.length < depthLimit)
  let last ← parts.getLast?
  return ((parts.dropLast, last), rest)

/-! ### Values -/

def inlineTable? (pairs : List Pair) : Option Data :=
  (addPairs [] pairs).map fun entries => .record (entriesToData entries)

mutual

def readValue? (depth : Nat) : Nat → List Char → Option (Data × List Char)
  | 0, _ => none
  | fuel + 1, cs =>
    match cs with
    | '"' :: rest => (readQuoted? '"' rest).map fun (s, rest) => (.text s, rest)
    | '\x27' :: rest => (readQuoted? '\x27' rest).map fun (s, rest) => (.text s, rest)
    | 't' :: 'r' :: 'u' :: 'e' :: rest => some (.bool true, rest)
    | 'f' :: 'a' :: 'l' :: 's' :: 'e' :: rest => some (.bool false, rest)
    | '[' :: rest => if depth + 1 < depthLimit then readItems? (depth + 1) [] fuel rest else none
    | '\x7b' :: rest =>
      if depth + 1 < depthLimit then
        match skipBlanks rest with
        | '\x7d' :: rest => some (.record [], rest)
        | rest => readPairs? (depth + 1) [] fuel rest
      else none
    | cs => readCounted? cs

/-- The items of a list and the closing bracket. A comma may follow the last item. -/
def readItems? (depth : Nat) (collected : List Data) :
    Nat → List Char → Option (Data × List Char)
  | 0, _ => none
  | fuel + 1, cs =>
    match skipGap false cs with
    | ']' :: rest => some (.list collected.reverse, rest)
    | cs =>
      match readValue? depth fuel cs with
      | none => none
      | some (item, rest) =>
        match skipGap false rest with
        | ',' :: rest => readItems? depth (item :: collected) fuel rest
        | ']' :: rest => some (.list (item :: collected).reverse, rest)
        | _ => none

/-- One pair of a table on one line or more, and the closing brace. -/
def readPairs? (depth : Nat) (collected : List Pair) :
    Nat → List Char → Option (Data × List Char)
  | 0, _ => none
  | fuel + 1, cs =>
    match readKey? cs with
    | none => none
    | some ((path, key), rest) =>
      match rest with
      | '=' :: rest =>
        match readValue? depth fuel (skipBlanks rest) with
        | none => none
        | some (value, rest) =>
          match skipBlanks rest with
          | ',' :: rest => readPairs? depth (⟨path, key, value⟩ :: collected) fuel rest
          | '\x7d' :: rest =>
            (inlineTable? (⟨path, key, value⟩ :: collected).reverse).map fun d => (d, rest)
          | _ => none
      | _ => none

end

/-! ### Documents -/

inductive Line
  | pair (p : Pair)
  | header (path : List String) (key : String) (isRow : Bool)

/-- A pair and the end of its line. -/
def readPairLine? (cs : List Char) : Option (Line × List Char) := do
  let ((path, key), rest) ← readKey? cs
  match rest with
  | '=' :: rest =>
    let (value, rest) ← readValue? 0 (2 * rest.length + 2) (skipBlanks rest)
    let rest ← readLineEnd? rest
    return (.pair ⟨path, key, value⟩, rest)
  | _ => none

/-- A header after its opening brackets, and the end of its line. -/
def readHeaderLine? (isRow : Bool) (cs : List Char) : Option (Line × List Char) := do
  let ((path, key), rest) ← readKey? cs
  let rest ←
    match isRow, rest with
    | true, ']' :: ']' :: rest => some rest
    | false, ']' :: rest => some rest
    | _, _ => none
  let rest ← readLineEnd? rest
  return (.header path key isRow, rest)

/-- The lines of a document, without those that are empty. -/
def readLines? : Nat → List Char → Option (List Line)
  | 0, _ => none
  | fuel + 1, cs =>
    match skipGap false cs with
    | [] => some []
    | '[' :: '[' :: rest => do
      let (line, rest) ← readHeaderLine? true rest
      return line :: (← readLines? fuel rest)
    | '[' :: rest => do
      let (line, rest) ← readHeaderLine? false rest
      return line :: (← readLines? fuel rest)
    | cs => do
      let (line, rest) ← readPairLine? cs
      return line :: (← readLines? fuel rest)

/-- The pairs before the first header, and the sections after it. -/
def sections : List Line → List Pair × List Section
  | [] => ([], [])
  | .pair p :: rest =>
    let (pairs, others) := sections rest
    (p :: pairs, others)
  | .header path key isRow :: rest =>
    let (pairs, others) := sections rest
    ([], { path, key, isRow, pairs } :: others)

/-- Reads a document; a mark of its byte order may precede it. -/
def read? (s : String) : Option Data := do
  let cs :=
    match s.toList with
    | '\uFEFF' :: rest => rest
    | cs => cs
  let lines ← readLines? (cs.length + 1) cs
  let (pairs, others) := sections lines
  let root ← addPairs [] pairs
  let entries ← others.foldlM addSection root
  return .record (entriesToData entries)

end Hearth.Data.Toml
