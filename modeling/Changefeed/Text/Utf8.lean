/-!
# Reading UTF-8

Octets are read as characters strictly: overlong forms, surrogates and values
beyond U+10FFFF are refused. A refusal says where it happened, how many octets
it concerns and why, in the order of precedence of the encoding's own table: an
octet that cannot begin a character, a following octet that does not continue
it, an input that ends inside it.
-/

namespace Changefeed.Text.Utf8

/-- Why octets are not UTF-8. -/
inductive Reason where
  | invalidStart
  | invalidContinuation
  | unexpectedEnd
deriving DecidableEq, Repr

/-- The wording of a reason. -/
def Reason.text : Reason → String
  | .invalidStart => "invalid start byte"
  | .invalidContinuation => "invalid continuation byte"
  | .unexpectedEnd => "unexpected end of data"

/-- A place where octets are not UTF-8. -/
structure Flaw where
  /-- The first octet concerned. -/
  octet : Nat
  /-- Its place, counted from 0. -/
  start : Nat
  /-- How many octets are concerned. -/
  count : Nat
  /-- What is wrong with them. -/
  reason : Reason
deriving DecidableEq, Repr

/-- Whether an octet continues a character. -/
def isContinuation (b : UInt8) : Bool := 0x80 ≤ b && b ≤ 0xBF

/-- Whether an octet may come second after the given first one: after some, part of the
continuation octets would make an overlong form, a surrogate or too large a value. -/
def isSecond (first b : UInt8) : Bool :=
  (if first = 0xE0 then 0xA0 else if first = 0xF0 then 0x90 else 0x80) ≤ b &&
    b ≤ (if first = 0xED then 0x9F else if first = 0xF4 then 0x8F else 0xBF)

/-- The character with the given leading bits and continuation octets. -/
def assemble (lead : Nat) (rest : List UInt8) : Char :=
  Char.ofNat (rest.foldl (fun n b => n * 64 + b.toNat % 64) lead)

/-- Reads octets, the first of which stands at `pos`. -/
def readFrom (pos : Nat) : List UInt8 → Except Flaw (List Char)
  | [] => .ok []
  | a :: rest =>
    let flaw (count : Nat) (reason : Reason) : Except Flaw (List Char) :=
      .error ⟨a.toNat, pos, count, reason⟩
    if a < 0x80 then (readFrom (pos + 1) rest).map (Char.ofNat a.toNat :: ·)
    else if a < 0xC2 || 0xF4 < a then flaw 1 .invalidStart
    else if a < 0xE0 then
      match rest with
      | [] => flaw 1 .unexpectedEnd
      | b :: rest =>
        if isContinuation b then
          (readFrom (pos + 2) rest).map (assemble (a.toNat % 32) [b] :: ·)
        else flaw 1 .invalidContinuation
    else if a < 0xF0 then
      match rest with
      | [] => flaw 1 .unexpectedEnd
      | [b] => if isSecond a b then flaw 2 .unexpectedEnd else flaw 1 .invalidContinuation
      | b :: c :: rest =>
        if !isSecond a b then flaw 1 .invalidContinuation
        else if !isContinuation c then flaw 2 .invalidContinuation
        else (readFrom (pos + 3) rest).map (assemble (a.toNat % 16) [b, c] :: ·)
    else
      match rest with
      | [] => flaw 1 .unexpectedEnd
      | [b] => if isSecond a b then flaw 2 .unexpectedEnd else flaw 1 .invalidContinuation
      | [b, c] =>
        if !isSecond a b then flaw 1 .invalidContinuation
        else if !isContinuation c then flaw 2 .invalidContinuation
        else flaw 3 .unexpectedEnd
      | b :: c :: d :: rest =>
        if !isSecond a b then flaw 1 .invalidContinuation
        else if !isContinuation c then flaw 2 .invalidContinuation
        else if !isContinuation d then flaw 3 .invalidContinuation
        else (readFrom (pos + 4) rest).map (assemble (a.toNat % 8) [b, c, d] :: ·)

/-- The text that octets encode. -/
def read (octets : List UInt8) : Except Flaw String := (readFrom 0 octets).map String.ofList

end Changefeed.Text.Utf8
