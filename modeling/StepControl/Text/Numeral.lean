/-
Decimal numerals of unsigned words: one or more ASCII digits, with at most one plus sign before them and any number of
leading zeros.
-/

namespace StepControl.Text

/-- the value of an ASCII digit -/
def digit? (c : Char) : Option Nat :=
  if '0' ≤ c ∧ c ≤ '9' then some (c.toNat - '0'.toNat) else none

/-- the number that a digit string continues from `acc`; nothing when a character is no digit -/
def digits? (acc : Nat) : List Char → Option Nat
  | [] => some acc
  | c :: cs => (digit? c).bind fun d => digits? (10 * acc + d) cs

/-- the numeral after its optional sign -/
def unsigned (cs : List Char) : List Char :=
  match cs with
  | '+' :: rest => rest
  | _ => cs

/-- the number that a numeral names; an empty digit string names none -/
def numeral? (cs : List Char) : Option Nat :=
  match unsigned cs with
  | [] => none
  | ds => digits? 0 ds

/-- the number of a numeral, if a 64-bit word can hold it -/
def word? (cs : List Char) : Option UInt64 :=
  (numeral? cs).bind fun n => if n < UInt64.size then some (UInt64.ofNat n) else none

end StepControl.Text
