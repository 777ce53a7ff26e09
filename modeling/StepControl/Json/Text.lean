/-
JSON texts: reading a value from a text and writing it to one.

Reading follows the grammar of JSON. Where an object repeats a key the last value counts. A text that holds anything but
one value and blanks is refused. A reader gives what it read and the characters that are left.
-/
import StepControl.Json.Basic

namespace StepControl.Json

/-! ## Reading -/

def skipBlanks (cs : List Char) : List Char :=
  cs.dropWhile fun c => c = ' ' || c = '\n' || c = '\r' || c = '\t'

/-- the value of a hexadecimal digit -/
def hexDigit? (c : Char) : Option Nat :=
  if c.isDigit then some (c.toNat - '0'.toNat)
  else if 'a' ≤ c ∧ c ≤ 'f' then some (c.toNat - 'a'.toNat + 10)
  else if 'A' ≤ c ∧ c ≤ 'F' then some (c.toNat - 'A'.toNat + 10)
  else none

/-- a code unit of four hexadecimal digits -/
def readUnit : List Char → Option (Nat × List Char)
  | a :: b :: c :: d :: rest => do
    let a ← hexDigit? a
    let b ← hexDigit? b
    let c ← hexDigit? c
    let d ← hexDigit? d
    some (((a * 16 + b) * 16 + c) * 16 + d, rest)
  | _ => none

/-- the character of an escape with code units; a high surrogate needs the low one behind it -/
def readCodePoint (cs : List Char) : Option (Char × List Char) := do
  let (unit, rest) ← readUnit cs
  if 0xD800 ≤ unit ∧ unit < 0xDC00 then
    match rest with
    | '\\' :: 'u' :: rest =>
      let (low, rest) ← readUnit rest
      if 0xDC00 ≤ low ∧ low < 0xE000 then
        some (Char.ofNat (0x10000 + (unit - 0xD800) * 0x400 + (low - 0xDC00)), rest)
      else none
    | _ => none
  else if 0xDC00 ≤ unit ∧ unit < 0xE000 then none
  else some (Char.ofNat unit, rest)

/-- the character of an escape, after the backslash -/
def readEscape : List Char → Option (Char × List Char)
  | 'u' :: rest => readCodePoint rest
  | 'n' :: rest => some ('\n', rest)
  | 't' :: rest => some ('\t', rest)
  | 'r' :: rest => some ('\r', rest)
  | 'b' :: rest => some ('\x08', rest)
  | 'f' :: rest => some ('\x0c', rest)
  | c :: rest => if c = '"' ∨ c = '\\' ∨ c = '/' then some (c, rest) else none
  | [] => none

/-- a string after its opening quote; `done` has the characters read so far, last first -/
def readString : Nat → List Char → List Char → Option (String × List Char)
  | 0, _, _ => none
  | _ + 1, _, [] => none
  | fuel + 1, done, c :: rest =>
    if c = '"' then some (String.ofList done.reverse, rest)
    else if c = '\\' then do
      let (c, rest) ← readEscape rest
      readString fuel (c :: done) rest
    else if c.toNat < 0x20 then none
    else readString fuel (c :: done) rest

/-- one or more digits -/
def readDigits (cs : List Char) : Option (List Char × List Char) :=
  match cs.takeWhile Char.isDigit with
  | [] => none
  | digits => some (digits, cs.dropWhile Char.isDigit)

/-- a fraction, which may be missing -/
def readFraction : List Char → Option (List Char × List Char)
  | '.' :: rest => do
    let (digits, rest) ← readDigits rest
    some ('.' :: digits, rest)
  | cs => some ([], cs)

/-- an exponent, which may be missing -/
def readExponent : List Char → Option (List Char × List Char)
  | c :: rest =>
    if c = 'e' ∨ c = 'E' then
      match rest with
      | '+' :: rest => do let (digits, rest) ← readDigits rest; some (c :: '+' :: digits, rest)
      | '-' :: rest => do let (digits, rest) ← readDigits rest; some (c :: '-' :: digits, rest)
      | rest => do let (digits, rest) ← readDigits rest; some (c :: digits, rest)
    else some ([], c :: rest)
  | [] => some ([], [])

/-- the number of a digit string -/
def natOfDigits (digits : List Char) : Nat :=
  digits.foldl (fun n c => 10 * n + (c.toNat - '0'.toNat)) 0

/-- a number after its sign -/
def readUnsigned (negative : Bool) (cs : List Char) : Option (Json × List Char) := do
  let (whole, rest) ← readDigits cs
  if whole.head? = some '0' ∧ whole ≠ ['0'] then none
  else
    let (fraction, rest) ← readFraction rest
    let (exponent, rest) ← readExponent rest
    let sign := if negative then ['-'] else []
    if fraction = [] ∧ exponent = [] ∧ ¬ (negative ∧ whole = ['0']) then
      let n := Int.ofNat (natOfDigits whole)
      some (.int (if negative then -n else n), rest)
    else some (.real (String.ofList (sign ++ whole ++ fraction ++ exponent)), rest)

/-- a number -/
def readNumber : List Char → Option (Json × List Char)
  | '-' :: rest => readUnsigned true rest
  | cs => readUnsigned false cs

/-- the fields with one more; an earlier value of the same key is dropped -/
def putField (fields : List (String × Json)) (key : String) (value : Json) : List (String × Json) :=
  fields.filter (·.1 != key) ++ [(key, value)]

mutual

/-- a value, with blanks before it -/
def readValue : Nat → List Char → Option (Json × List Char)
  | 0, _ => none
  | fuel + 1, cs =>
    match skipBlanks cs with
    | 'n' :: 'u' :: 'l' :: 'l' :: rest => some (.null, rest)
    | 't' :: 'r' :: 'u' :: 'e' :: rest => some (.bool true, rest)
    | 'f' :: 'a' :: 'l' :: 's' :: 'e' :: rest => some (.bool false, rest)
    | '"' :: rest => do
      let (s, rest) ← readString (rest.length + 1) [] rest
      some (.text s, rest)
    | '[' :: rest =>
      match skipBlanks rest with
      | ']' :: rest => some (.list [], rest)
      | rest => readItems fuel [] rest
    | '\x7b' :: rest =>
      match skipBlanks rest with
      | '\x7d' :: rest => some (.object [], rest)
      | rest => readFields fuel [] rest
    | cs => readNumber cs

/-- the items of a list and its closing bracket; `done` has the items read so far, last first -/
def readItems : Nat → List Json → List Char → Option (Json × List Char)
  | 0, _, _ => none
  | fuel + 1, done, cs => do
    let (item, rest) ← readValue fuel cs
    match skipBlanks rest with
    | ',' :: rest => readItems fuel (item :: done) rest
    | ']' :: rest => some (.list (item :: done).reverse, rest)
    | _ => none

/-- the fields of an object and its closing brace -/
def readFields : Nat → List (String × Json) → List Char → Option (Json × List Char)
  | 0, _, _ => none
  | fuel + 1, done, cs =>
    match skipBlanks cs with
    | '"' :: rest => do
      let (key, rest) ← readString (rest.length + 1) [] rest
      match skipBlanks rest with
      | ':' :: rest =>
        let (value, rest) ← readValue fuel rest
        match skipBlanks rest with
        | ',' :: rest => readFields fuel (putField done key value) rest
        | '\x7d' :: rest => some (.object (putField done key value), rest)
        | _ => none
      | _ => none
    | _ => none

end

/-- the value of a text; every call reads at least one character or goes one level down, so twice the length is enough -/
def ofText? (text : String) : Option Json := do
  let cs := text.toList
  let (value, rest) ← readValue (2 * cs.length + 2) cs
  if skipBlanks rest = [] then some value else none

/-! ## Writing -/

/-- a hexadecimal digit -/
def hexDigit (n : Nat) : Char := Char.ofNat (if n < 10 then '0'.toNat + n else 'a'.toNat + (n - 10))

/-- a character inside a string -/
def writeChar (out : String) (c : Char) : String :=
  if c = '"' then out ++ "\\\""
  else if c = '\\' then out ++ "\\\\"
  else if c.toNat < 0x20 then ((out ++ "\\u00").push (hexDigit (c.toNat / 16))).push (hexDigit (c.toNat % 16))
  else out.push c

def writeString (out : String) (s : String) : String :=
  (s.toList.foldl writeChar (out.push '"')).push '"'

mutual

/-- the text of a value, after `out` -/
def write (out : String) : Json → String
  | .null => out ++ "null"
  | .bool b => out ++ (if b then "true" else "false")
  | .int n => out ++ toString n
  | .real literal => out ++ literal
  | .text s => writeString out s
  | .list items => (writeItems (out.push '[') true items).push ']'
  | .object fields => (writeFields (out.push '\x7b') true fields).push '\x7d'

def writeItems (out : String) (first : Bool) : List Json → String
  | [] => out
  | item :: rest => writeItems (write (if first then out else out.push ',') item) false rest

def writeFields (out : String) (first : Bool) : List (String × Json) → String
  | [] => out
  | (key, value) :: rest =>
    writeFields (write ((writeString (if first then out else out.push ',') key).push ':') value) false rest

end

/-- the text of a value -/
def toText (j : Json) : String := write "" j

end StepControl.Json
