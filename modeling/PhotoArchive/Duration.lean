/-!
# Spans of time

A span of time in nanoseconds and its text: the largest of the four units seconds, milliseconds,
microseconds and nanoseconds that the span fills at least once, with what is left as a decimal
fraction without trailing zeros.
-/
namespace PhotoArchive

structure Duration where
  nanos : Nat
  deriving DecidableEq, Repr

namespace Duration

def zero : Duration := ⟨0⟩

def ofMillis (n : Nat) : Duration := ⟨n * 1000000⟩

def ofSecs (secs nanos : Nat) : Duration := ⟨secs * 1000000000 + nanos⟩

instance : Add Duration := ⟨fun a b => ⟨a.nanos + b.nanos⟩⟩

/-- The time that is left of a span, which is none if all of it has gone by. -/
instance : Sub Duration := ⟨fun a b => ⟨a.nanos - b.nanos⟩⟩

instance : LE Duration := ⟨fun a b => a.nanos ≤ b.nanos⟩
instance : LT Duration := ⟨fun a b => a.nanos < b.nanos⟩
instance (a b : Duration) : Decidable (a ≤ b) := inferInstanceAs (Decidable (a.nanos ≤ b.nanos))
instance (a b : Duration) : Decidable (a < b) := inferInstanceAs (Decidable (a.nanos < b.nanos))

theorem not_lt_zero (d : Duration) : ¬ d < zero :=
  Nat.not_lt_zero d.nanos

/-- What is left of a time that ends within the second of two spans is shorter than that span. -/
theorem sub_lt_of_lt_add {a b t : Duration} (early : t < a + b) (past : ¬ t < a) : t - a < b := by
  have within : t.nanos < a.nanos + b.nanos := early
  have begun : ¬ t.nanos < a.nanos := past
  change t.nanos - a.nanos < b.nanos
  omega

/-- The digits of a fraction with the given number of places, without trailing zeros. -/
def fractionDigits (places fraction : Nat) : List Char :=
  let digits := Nat.toDigits 10 fraction
  let padded := List.replicate (places - digits.length) '0' ++ digits
  (padded.reverse.dropWhile (· == '0')).reverse

/-- A count of units of `10 ^ places` nanoseconds and the nanoseconds left, in that unit. -/
def inUnit (places nanos : Nat) (unit : String) : String :=
  let size := Nat.pow 10 places
  let fraction := nanos % size
  let point := if fraction = 0 then [] else '.' :: fractionDigits places fraction
  toString (nanos / size) ++ String.ofList point ++ unit

/-- The span in the largest unit that it fills. -/
def text (d : Duration) : String :=
  if 1000000000 ≤ d.nanos then inUnit 9 d.nanos "s"
  else if 1000000 ≤ d.nanos then inUnit 6 d.nanos "ms"
  else if 1000 ≤ d.nanos then inUnit 3 d.nanos "µs"
  else inUnit 0 d.nanos "ns"

end Duration

end PhotoArchive
