import Custody.Json.Number
import Custody.Text.Hex

/-!
# Numbers and moments of TOML

Integers in four bases, floating point numbers, and dates and times.  What is read here is checked,
but nobody needs its value: each reader gives only the characters after it.
-/

namespace Custody.Toml

/-- The digits at the start of a text, a single underscore between two of them left out, and the
text after them. -/
def digitRun (isDigit : Char → Bool) : List Char → List Char × List Char
  | '_' :: c :: rest =>
    if isDigit c then
      let (digits, after) := digitRun isDigit rest
      (c :: digits, after)
    else ([], '_' :: c :: rest)
  | c :: rest =>
    if isDigit c then
      let (digits, after) := digitRun isDigit rest
      (c :: digits, after)
    else ([], c :: rest)
  | [] => ([], [])

/-- Digits, of which there must be one before any underscore. -/
def digits? (isDigit : Char → Bool) : List Char → Option (List Char × List Char)
  | c :: rest => if isDigit c then some (digitRun isDigit (c :: rest)) else none
  | [] => none

/-- The text after a sign, if there is one, and whether that is a minus. -/
def splitSign : List Char → Bool × List Char
  | '-' :: rest => (true, rest)
  | '+' :: rest => (false, rest)
  | rest => (false, rest)

/-- A whole number without a sign: a single zero, or digits that do not begin with one. -/
def whole? : List Char → Option (List Char × List Char)
  | '0' :: rest => some (['0'], rest)
  | cs => digits? Char.isDigit cs

def digitsValue (base : Nat) (digits : List Char) : Nat :=
  digits.foldl (fun n c => base * n + (Text.hexValue? c.toNat).getD 0) 0

/-- An integer in another base than ten, after the mark of its base. -/
def basedInteger? (base : Nat) (cs : List Char) : Option (List Char) :=
  let isDigit (c : Char) : Bool := (Text.hexValue? c.toNat).any (· < base)
  match digits? isDigit cs with
  | none => none
  | some (digits, rest) => if digitsValue base digits < 0x8000000000000000 then some rest else none

/-- An integer, which must fit a signed word. -/
def integer? : List Char → Option (List Char)
  | '0' :: 'x' :: rest => basedInteger? 16 rest
  | '0' :: 'o' :: rest => basedInteger? 8 rest
  | '0' :: 'b' :: rest => basedInteger? 2 rest
  | cs =>
    let (negative, cs) := splitSign cs
    match whole? cs with
    | none => none
    | some (digits, rest) =>
      let bound := 0x8000000000000000 + (if negative then 1 else 0)
      if digitsValue 10 digits < bound then some rest else none

def fraction? : List Char → Option (List Char × List Char)
  | '.' :: rest => digits? Char.isDigit rest
  | _ => none

def exponent? : List Char → Option (Int × List Char)
  | c :: rest =>
    if c = 'e' ∨ c = 'E' then
      let (negative, rest) := splitSign rest
      match digits? Char.isDigit rest with
      | none => none
      | some (digits, rest) =>
        let n : Int := digitsValue 10 digits
        some (if negative then -n else n, rest)
    else none
  | [] => none

/-- A number with a fraction or an exponent, which must not be too large unless it is negative. -/
def decimal? (cs : List Char) : Option (List Char) :=
  let (negative, cs) := splitSign cs
  match whole? cs with
  | none => none
  | some (whole, rest) =>
    let (fraction, rest, pointed) :=
      match fraction? rest with
      | some (digits, after) => (digits, after, true)
      | none => ([], rest, false)
    let (exponent, rest, scaled) :=
      match exponent? rest with
      | some (n, after) => (n, after, true)
      | none => (0, rest, false)
    let d : Decimal.Scientific := ⟨digitsValue 10 (whole ++ fraction), exponent - fraction.length⟩
    if (pointed || scaled) && (negative || d.nearest?.isSome) then some rest else none

/-- Infinity, or what is no number. -/
def special? : List Char → Option (List Char)
  | 'i' :: 'n' :: 'f' :: rest => some rest
  | 'n' :: 'a' :: 'n' :: rest => some rest
  | _ => none

def float? (cs : List Char) : Option (List Char) :=
  (decimal? cs).or (special? (splitSign cs).2)

/-- Exactly so many decimal digits, and their value. -/
def fixedDigits? : Nat → Nat → List Char → Option (Nat × List Char)
  | 0, n, cs => some (n, cs)
  | count + 1, n, c :: rest =>
    if c.isDigit then fixedDigits? count (10 * n + (c.toNat - 48)) rest else none
  | _ + 1, _, [] => none

def pair? (lower upper : Nat) (cs : List Char) : Option (Nat × List Char) :=
  match fixedDigits? 2 0 cs with
  | some (n, rest) => if lower ≤ n ∧ n ≤ upper then some (n, rest) else none
  | none => none

def mark? (mark : Char) : List Char → Option (List Char)
  | c :: rest => if c = mark then some rest else none
  | [] => none

def daysIn (year month : Nat) : Nat :=
  if month = 2 then
    if year % 4 = 0 ∧ (year % 100 ≠ 0 ∨ year % 400 = 0) then 29 else 28
  else if month = 4 ∨ month = 6 ∨ month = 9 ∨ month = 11 then 30
  else 31

def date? (cs : List Char) : Option (List Char) := do
  let (year, cs) ← fixedDigits? 4 0 cs
  let cs ← mark? '-' cs
  let (month, cs) ← pair? 1 12 cs
  let cs ← mark? '-' cs
  let (_, cs) ← pair? 1 (daysIn year month) cs
  some cs

/-- A fraction of a second, if there is one. -/
def skipSecondFraction : List Char → List Char
  | '.' :: c :: rest =>
    if c.isDigit then rest.dropWhile Char.isDigit else '.' :: c :: rest
  | cs => cs

/-- A time of day; a minute may have a leap second. -/
def time? (cs : List Char) : Option (List Char) := do
  let (_, cs) ← pair? 0 23 cs
  let cs ← mark? ':' cs
  let (_, cs) ← pair? 0 59 cs
  let cs ← mark? ':' cs
  let (_, cs) ← pair? 0 60 cs
  some (skipSecondFraction cs)

/-- The hours and minutes of an offset from UTC, after its sign. -/
def offsetTime? (cs : List Char) : Option (List Char) := do
  let (_, cs) ← pair? 0 23 cs
  let cs ← mark? ':' cs
  let (_, cs) ← pair? 0 59 cs
  some cs

/-- An offset from UTC, if there is one. -/
def skipOffset (cs : List Char) : List Char :=
  match cs with
  | 'Z' :: rest => rest
  | 'z' :: rest => rest
  | '+' :: rest => (offsetTime? rest).getD cs
  | '-' :: rest => (offsetTime? rest).getD cs
  | _ => cs

/-- A date, a time of day, or both. -/
def moment? (cs : List Char) : Option (List Char) :=
  match date? cs with
  | some rest =>
    match rest with
    | c :: after =>
      if c = 'T' ∨ c = 't' ∨ c = ' ' then
        match time? after with
        | some after => some (skipOffset after)
        | none => some rest
      else some rest
    | [] => some rest
  | none => time? cs

end Custody.Toml
