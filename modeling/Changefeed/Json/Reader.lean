import Changefeed.Data.Basic
import Changefeed.Keyed
import Changefeed.Text.Decimal
import Changefeed.Text.Quoted

/-!
# Reading JSON

Texts are read by the standard grammar, and beside it the words `NaN`,
`Infinity` and `-Infinity`. White space is a space, a tab, a line feed or a
carriage return. A numeral with a fraction or an exponent is a double, any other
a whole number of any size up to the longest numeral. Of two fields with one
name the record keeps the first one's place and the last one's value.

A text is read from the left, so of two flaws the one further left is reported.
Every function below takes characters and gives back what it read and the
characters behind it. The contents of a string are read unit by unit: an escape
by its digits is one unit, whatever stands beside it.
-/

namespace Changefeed.Json

/-- Why a text cannot be read. -/
inductive Flaw where
  /-- It is no JSON. -/
  | malformed
  /-- It holds a whole number of this many digits, which is too many. -/
  | longNumeral (digits : Nat)
deriving DecidableEq, Repr

/-- What was read, and the characters behind it. -/
abbrev Reading (α : Type) := Except Flaw (α × List Char)

/-- Whether a character is white space between the parts of a document. -/
def isSpace (c : Char) : Bool := c = ' ' || c = '\t' || c = '\n' || c = '\r'

/-- The characters behind white space. -/
def skipSpace (cs : List Char) : List Char := cs.dropWhile isSpace

/-! ## Strings -/

/-- The value of a hexadecimal digit. -/
def hexValue? (c : Char) : Option Nat :=
  if '0' ≤ c && c ≤ '9' then some (c.toNat - 48)
  else if 'a' ≤ c && c ≤ 'f' then some (c.toNat - 87)
  else if 'A' ≤ c && c ≤ 'F' then some (c.toNat - 55)
  else none

/-- The value of four hexadecimal digits. -/
def hexValue4? (a b c d : Char) : Option Nat := do
  return (((← hexValue? a) * 16 + (← hexValue? b)) * 16 + (← hexValue? c)) * 16 + (← hexValue? d)

/-- The unit that a single letter behind a backslash stands for. -/
def escaped? : Char → Option UInt16
  | '"' => some 0x22
  | '\\' => some 0x5C
  | '/' => some 0x2F
  | 'b' => some 0x08
  | 'f' => some 0x0C
  | 'n' => some 0x0A
  | 'r' => some 0x0D
  | 't' => some 0x09
  | _ => none

/-- Puts units in front of what was read. -/
def Reading.prepend (us : List UInt16) (r : Reading Text) : Reading Text :=
  r.map fun (t, rest) => (⟨us ++ t.units⟩, rest)

/-- Reads a string up to its closing quote; the opening one is already read. -/
def readString : List Char → Reading Text
  | [] => .error .malformed
  | '"' :: rest => .ok (⟨[]⟩, rest)
  | '\\' :: 'u' :: a :: b :: c :: d :: rest =>
    match hexValue4? a b c d with
    | none => .error .malformed
    | some n => Reading.prepend [.ofNat n] (readString rest)
  | '\\' :: c :: rest =>
    match escaped? c with
    | none => .error .malformed
    | some u => Reading.prepend [u] (readString rest)
  | c :: rest =>
    if c < ' ' || c = '\\' then .error .malformed
    else Reading.prepend (Text.unitsOf c.toNat) (readString rest)

/-! ## Numbers and words -/

/-- The digits of a fraction, if a point and a digit follow. -/
def readFraction : List Char → List Char × List Char
  | '.' :: rest =>
    let ds := rest.takeWhile Text.Decimal.isDigit
    if ds.isEmpty then ([], '.' :: rest) else (ds, rest.drop ds.length)
  | cs => ([], cs)

/-- The value of an exponent, if there is one. -/
def readExponent (cs : List Char) : Option Int × List Char :=
  match cs with
  | e :: rest =>
    if e = 'e' ∨ e = 'E' then
      let (negative, rest) := Text.Decimal.splitSign rest
      let ds := rest.takeWhile Text.Decimal.isDigit
      if ds.isEmpty then (none, cs)
      else (some (Text.Decimal.signed negative (Text.Decimal.value ds)), rest.drop ds.length)
    else (none, cs)
  | [] => (none, cs)

/-- The digits of a whole number without leading zeros. -/
def readWhole : List Char → List Char × List Char
  | '0' :: rest => (['0'], rest)
  | cs =>
    let ds := cs.takeWhile Text.Decimal.isDigit
    (ds, cs.drop ds.length)

/-- Reads a number, whose minus sign is already read. -/
def readNumber (negative : Bool) (cs : List Char) : Reading Json :=
  let (whole, rest) := readWhole cs
  let (fraction, rest) := readFraction rest
  let (exponent, rest) := readExponent rest
  if whole.isEmpty then .error .malformed
  else if fraction.isEmpty && exponent.isNone then
    if whole.length > Text.Decimal.longest then .error (.longNumeral whole.length)
    else .ok (.int (Text.Decimal.signed negative (Text.Decimal.value whole)), rest)
  else
    .ok (.float (Double.ofDecimal negative (Text.Decimal.value (whole ++ fraction))
      (exponent.getD 0 - fraction.length)), rest)

/-- The words that stand for a value. -/
def words : List (List Char × Json) :=
  [("null".toList, .null), ("true".toList, .bool true), ("false".toList, .bool false),
   ("NaN".toList, .float .nan), ("Infinity".toList, .float (.infinity false)),
   ("-Infinity".toList, .float (.infinity true))]

/-- Reads a word or a number. -/
def readScalar (cs : List Char) : Reading Json :=
  match words.find? fun w => w.1.isPrefixOf cs with
  | some (w, x) => .ok (x, cs.drop w.length)
  | none =>
    match cs with
    | '-' :: rest => readNumber true rest
    | _ => readNumber false cs

/-! ## Documents -/

mutual

/-- Reads a value, nested no deeper than the fuel allows. -/
def readValue : Nat → List Char → Reading Json
  | 0, _ => .error .malformed
  | fuel + 1, cs =>
    match cs with
    | '"' :: rest => (readString rest).map fun (t, rest) => (.text t, rest)
    | '[' :: rest =>
      match skipSpace rest with
      | ']' :: rest => .ok (.list [], rest)
      | rest => (readItems fuel rest).map fun (xs, rest) => (.list xs, rest)
    | '\x7b' :: rest =>
      match skipSpace rest with
      | '\x7d' :: rest => .ok (.record [], rest)
      | rest =>
        (readFields fuel rest).map fun (fs, rest) => (.record (Keyed.ofList fs).toList, rest)
    | cs => readScalar cs

/-- Reads the items of a list up to its closing bracket. -/
def readItems : Nat → List Char → Reading (List Json)
  | 0, _ => .error .malformed
  | fuel + 1, cs =>
    (readValue fuel cs).bind fun (x, rest) =>
      match skipSpace rest with
      | ']' :: rest => .ok ([x], rest)
      | ',' :: rest => (readItems fuel (skipSpace rest)).map fun (xs, rest) => (x :: xs, rest)
      | _ => .error .malformed

/-- Reads the fields of a record up to its closing brace. -/
def readFields : Nat → List Char → Reading (List (Text × Json))
  | 0, _ => .error .malformed
  | fuel + 1, cs =>
    match cs with
    | '"' :: rest =>
      (readString rest).bind fun (name, rest) =>
        match skipSpace rest with
        | ':' :: rest =>
          (readValue fuel (skipSpace rest)).bind fun (x, rest) =>
            let field := (name, x)
            match skipSpace rest with
            | '\x7d' :: rest => .ok ([field], rest)
            | ',' :: rest =>
              (readFields fuel (skipSpace rest)).map fun (fs, rest) => (field :: fs, rest)
            | _ => .error .malformed
        | _ => .error .malformed
    | _ => .error .malformed

end

/-- Reads a whole text. Each step of the readers takes a character for two units of fuel, so the
fuel never runs out. -/
def readChars (cs : List Char) : Except Flaw Json := do
  let (x, rest) ← readValue (2 * cs.length + 2) (skipSpace cs)
  match skipSpace rest with
  | [] => .ok x
  | _ => .error .malformed

/-- The document that a text holds. -/
def read (s : String) : Except Flaw Json := readChars s.toList

end Changefeed.Json
