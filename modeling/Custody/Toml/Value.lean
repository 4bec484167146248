import Custody.Toml.Number
import Custody.Toml.Text

/-!
# Values and statements of TOML

A TOML text is a list of statements: headers, which name the table that is being filled, and
assignments to keys of that table.  A value is read whole; what tables come of the statements is
decided elsewhere.
-/

namespace Custody.Toml

/-- A value.  Numbers, dates and times are kept as they were written. -/
inductive Value where
  | text (s : String)
  | flag (b : Bool)
  | number (written : String)
  | moment (written : String)
  | array (items : List Value)
  | table (entries : List (String × Value))

/-- A key of several parts, the first of which cannot be missing. -/
structure Key where
  parts : List String
  last : String
  deriving DecidableEq, Repr

/-- One statement. -/
inductive Statement where
  /-- Fills a table. -/
  | header (key : Key)
  /-- Fills a new table of an array. -/
  | arrayHeader (key : Key)
  | assign (key : Key) (value : Value)

/-- A key, or an array in an array, may have fewer parts than this. -/
def depthLimit : Nat := 80

def isBare (c : Char) : Bool := c.isAlphanum || c = '_' || c = '-'

def keyPart? : List Char → Option (String × List Char)
  | '"' :: rest => (basicString? rest).map fun (text, after) => (String.ofList text, after)
  | '\'' :: rest => (literalString? rest).map fun (text, after) => (String.ofList text, after)
  | cs =>
    match cs.takeWhile isBare with
    | [] => none
    | text => some (String.ofList text, cs.dropWhile isBare)

/-- The parts of a key from one of them on, for at most `fuel` parts, and the text after the blanks
that follow. -/
def keyParts? : Nat → List Char → Option (List String × String × List Char)
  | 0, _ => none
  | fuel + 1, cs =>
    match keyPart? (skipBlanks cs) with
    | none => none
    | some (part, rest) =>
      match skipBlanks rest with
      | '.' :: rest => (keyParts? fuel rest).map fun (parts, last, rest) =>
          (part :: parts, last, rest)
      | rest => some ([], part, rest)

def key? (cs : List Char) : Option (Key × List Char) :=
  match keyParts? (depthLimit - 1) cs with
  | none => none
  | some (parts, last, rest) => some (⟨parts, last⟩, rest)

/-- What was read up to `rest`. -/
def written (cs rest : List Char) : String := String.ofList (cs.take (cs.length - rest.length))

def scalar? : List Char → Option (Value × List Char)
  | 't' :: 'r' :: 'u' :: 'e' :: rest => some (.flag true, rest)
  | 'f' :: 'a' :: 'l' :: 's' :: 'e' :: rest => some (.flag false, rest)
  | cs =>
    match string? cs with
    | some (text, rest) => some (.text (String.ofList text), rest)
    | none =>
      match moment? cs with
      | some rest => some (.moment (written cs rest), rest)
      | none => ((float? cs).or (integer? cs)).map fun rest => (.number (written cs rest), rest)

/-! ## Tables within values

An inline table is given by keys of several parts, each with a value.  Parts before the last make up
tables of their own, which further keys may add to; a table that was given as a value is closed. -/

/-- A value under construction. -/
inductive Cell where
  | closed (v : Value)
  /-- A table that came about through the parts of keys. -/
  | parts (cells : List (String × Cell))

/-- Changes what is under a key, or puts something there. -/
def alter {α : Type} (key : String) (f : Option α → Option α) :
    List (String × α) → Option (List (String × α))
  | [] => (f none).map fun value => [(key, value)]
  | (k, value) :: rest =>
    if k = key then (f (some value)).map fun value => (k, value) :: rest
    else (alter key f rest).map ((k, value) :: ·)

def Cell.assign (last : String) (v : Value) :
    List String → List (String × Cell) → Option (List (String × Cell))
  | [], cells => alter last (fun
      | none => some (.closed v)
      | some _ => none) cells
  | part :: rest, cells => alter part (fun
      | none => (Cell.assign last v rest []).map .parts
      | some (.parts inner) => (Cell.assign last v rest inner).map .parts
      | some (.closed _) => none) cells

mutual
def Cell.value : Cell → Value
  | .closed v => v
  | .parts cells => .table (Cell.entries cells)
def Cell.entries : List (String × Cell) → List (String × Value)
  | [] => []
  | (key, cell) :: rest => (key, cell.value) :: Cell.entries rest
end

/-- The table that a list of keys and values makes up, if no key is given twice. -/
def inlineTable? (pairs : List (Key × Value)) : Option Value :=
  let add (cells : List (String × Cell)) (pair : Key × Value) : Option (List (String × Cell)) :=
    Cell.assign pair.1.last pair.2 pair.1.parts cells
  (pairs.foldlM add []).map fun cells => .table (Cell.entries cells)

/-! ## Reading values -/

mutual
/-- A value that may hold arrays and tables, `room` of them inside one another. -/
def value? : Nat → Nat → List Char → Option (Value × List Char)
  | 0, _, _ => none
  | fuel + 1, room, cs =>
    match cs, room with
    | '[' :: _, 0 => none
    | '{' :: _, 0 => none
    | '[' :: rest, room + 1 =>
      match skipFiller false rest with
      | ']' :: rest => some (.array [], rest)
      | rest => (items? fuel room rest).map fun (items, rest) => (.array items, rest)
    | '{' :: rest, room + 1 =>
      match skipBlanks rest with
      | '}' :: rest => some (.table [], rest)
      | rest =>
        match pairs? fuel room rest with
        | none => none
        | some (pairs, rest) => (inlineTable? pairs).map fun v => (v, rest)
    | cs, _ => scalar? cs
/-- The items of an array from one of them on; the last may be followed by a comma. -/
def items? : Nat → Nat → List Char → Option (List Value × List Char)
  | 0, _, _ => none
  | fuel + 1, room, cs =>
    match value? fuel room cs with
    | none => none
    | some (item, rest) =>
      match skipFiller false rest with
      | ']' :: rest => some ([item], rest)
      | ',' :: rest =>
        match skipFiller false rest with
        | ']' :: rest => some ([item], rest)
        | rest => (items? fuel room rest).map fun (items, rest) => (item :: items, rest)
      | _ => none
def pairs? : Nat → Nat → List Char → Option (List (Key × Value) × List Char)
  | 0, _, _ => none
  | fuel + 1, room, cs =>
    match key? cs with
    | some (key, '=' :: rest) =>
      match value? fuel room (skipBlanks rest) with
      | none => none
      | some (v, rest) =>
        match skipBlanks rest with
        | '}' :: rest => some ([(key, v)], rest)
        | ',' :: rest => (pairs? fuel room rest).map fun (pairs, rest) => ((key, v) :: pairs, rest)
        | _ => none
    | _ => none
end

/-! ## Reading statements -/

def header? (close : List Char → Option (List Char)) (cs : List Char) :
    Option (Key × List Char) :=
  match key? cs with
  | none => none
  | some (key, rest) => ((close rest).bind endLine?).map fun rest => (key, rest)

def assignment? (cs : List Char) : Option (Statement × List Char) :=
  match key? cs with
  | some (key, '=' :: rest) =>
    match value? (2 * cs.length + 2) (depthLimit - 1) (skipBlanks rest) with
    | none => none
    | some (v, rest) => (endLine? rest).map fun rest => (.assign key v, rest)
  | _ => none

def closeHeader? : List Char → Option (List Char)
  | ']' :: rest => some rest
  | _ => none

def closeArrayHeader? : List Char → Option (List Char)
  | ']' :: ']' :: rest => some rest
  | _ => none

/-- All statements of a text, of which there are at most `fuel` lines. -/
def statements? : Nat → List Char → Option (List Statement)
  | 0, _ => none
  | fuel + 1, cs =>
    match skipBlanks cs with
    | [] => some []
    | '#' :: rest =>
      match endLine? ('#' :: rest) with
      | none => none
      | some rest => statements? fuel rest
    | '[' :: '[' :: rest =>
      match header? closeArrayHeader? rest with
      | none => none
      | some (key, rest) => (statements? fuel rest).map (.arrayHeader key :: ·)
    | '[' :: rest =>
      match header? closeHeader? rest with
      | none => none
      | some (key, rest) => (statements? fuel rest).map (.header key :: ·)
    | cs =>
      match newLine? cs with
      | some rest => statements? fuel rest
      | none =>
        match assignment? cs with
        | none => none
        | some (statement, rest) => (statements? fuel rest).map (statement :: ·)

end Custody.Toml
