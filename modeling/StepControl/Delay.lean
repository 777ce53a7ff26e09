/-
Lengths of time and step delays.

A span is a number of whole seconds and a part of a second in nanoseconds. Spans are ordered by seconds first and then by
nanoseconds, which is the order of the total (`Span.le_iff_total_le`). A delay is a span that is not zero; every way of
making one refuses zero.
-/
import StepControl.Error
import StepControl.Text.Blank
import StepControl.Text.Numeral

namespace StepControl

/-- nanoseconds in a second -/
def nanosPerSecond : Nat := 1000000000

/-- nanoseconds in a millisecond -/
def nanosPerMilli : Nat := 1000000

/-- a length of time -/
structure Span where
  secs : UInt64
  nanos : UInt32
  /-- the second field is less than a second -/
  nanos_lt : nanos.toNat < nanosPerSecond
  deriving DecidableEq

namespace Span

/-- the length in nanoseconds -/
def total (d : Span) : Nat := d.secs.toNat * nanosPerSecond + d.nanos.toNat

/-- the length in whole milliseconds, rounded down -/
def millis (d : Span) : Nat := d.secs.toNat * 1000 + d.nanos.toNat / nanosPerMilli

/-- no more seconds, and no more nanoseconds when the seconds are equal -/
def le (a b : Span) : Bool := a.secs < b.secs || (a.secs == b.secs && a.nanos ≤ b.nanos)

theorem nanos_of_millis (m : UInt64) :
    ((m % 1000).toUInt32 * 1000000).toNat = m.toNat % 1000 * nanosPerMilli := by
  have h : m.toNat % 1000 < 1000 := Nat.mod_lt _ (by decide)
  simp only [UInt32.toNat_mul, UInt64.toNat_toUInt32, UInt64.toNat_mod, UInt32.reduceToNat, UInt64.reduceToNat,
    nanosPerMilli]
  rw [Nat.mod_eq_of_lt (a := m.toNat % 1000) (by omega), Nat.mod_eq_of_lt (by omega)]

/-- the span of a number of milliseconds -/
def ofMillis (m : UInt64) : Span where
  secs := m / 1000
  nanos := (m % 1000).toUInt32 * 1000000
  nanos_lt := by
    have h : m.toNat % 1000 < 1000 := Nat.mod_lt _ (by decide)
    rw [nanos_of_millis, nanosPerMilli, nanosPerSecond]
    omega

theorem total_ofMillis (m : UInt64) : (ofMillis m).total = m.toNat * nanosPerMilli := by
  simp only [total, ofMillis, nanos_of_millis, UInt64.toNat_div, UInt64.reduceToNat, nanosPerSecond, nanosPerMilli]
  omega

/-- seconds and nanoseconds, where a full second of nanoseconds is carried over; nothing if the seconds no longer fit -/
def carried? (secs : UInt64) (nanos : UInt32) : Option Span :=
  if secs.toNat + nanos.toNat / nanosPerSecond < UInt64.size then
    some {
      secs := UInt64.ofNat (secs.toNat + nanos.toNat / nanosPerSecond)
      nanos := nanos % 1000000000
      nanos_lt := by
        simp only [UInt32.toNat_mod, nanosPerSecond, UInt32.reduceToNat]
        exact Nat.mod_lt _ (by decide) }
  else none

theorem le_iff_total_le (a b : Span) : a.le b = true ↔ a.total ≤ b.total := by
  have ha := a.nanos_lt
  have hb := b.nanos_lt
  simp only [le, total, nanosPerSecond, Bool.or_eq_true, Bool.and_eq_true, decide_eq_true_eq, beq_iff_eq,
    UInt64.lt_iff_toNat_lt, UInt32.le_iff_toNat_le, ← UInt64.toNat_inj] at *
  omega

theorem total_inj {a b : Span} (h : a.total = b.total) : a = b := by
  have ha := a.nanos_lt
  have hb := b.nanos_lt
  simp only [total, nanosPerSecond] at *
  have hs : a.secs = b.secs := UInt64.toNat_inj.1 (by omega)
  have hn : a.nanos = b.nanos := UInt32.toNat_inj.1 (by omega)
  cases a; cases b; simp_all

theorem millis_eq_total_div (d : Span) : d.millis = d.total / nanosPerMilli := by
  have h := d.nanos_lt
  simp only [millis, total, nanosPerSecond, nanosPerMilli] at *
  omega

end Span

/-- the pause between two steps: a span that is not zero -/
structure Delay where
  span : Span
  positive : 0 < span.total
  deriving DecidableEq

namespace Delay

/-- the length in nanoseconds -/
def total (d : Delay) : Nat := d.span.total

/-- the length in whole milliseconds, rounded down -/
def millis (d : Delay) : Nat := d.span.millis

/-- the delay of a span; zero is refused -/
def ofSpan (d : Span) : Except Error Delay :=
  if h : 0 < d.total then .ok ⟨d, h⟩ else .error (.invalidDelay "0ns")

/-- the delay of a number of milliseconds; zero is refused -/
def ofMillis (m : UInt64) : Except Error Delay :=
  if h : m = 0 then .error (.invalidDelay "0")
  else .ok ⟨Span.ofMillis m, by
    have : m.toNat ≠ 0 := fun h0 => h (UInt64.toNat_inj.1 h0)
    rw [Span.total_ofMillis, nanosPerMilli]; omega⟩

/-- the delay that a text names: a numeral with blanks around it. A text that is no numeral is reported as it stands, a
zero as the number it is -/
def parse (text : String) : Except Error Delay :=
  match Text.word? (Text.trim text.toList) with
  | none => .error (.invalidDelay text)
  | some m => ofMillis m

/-- the delay of a controller that was not told otherwise: 90 ms -/
instance : Inhabited Delay := ⟨⟨Span.ofMillis 90, by decide⟩⟩

/-- the delay as shown to users, in whole milliseconds -/
def display (d : Delay) : String := toString d.millis ++ "ms"

end Delay

end StepControl
