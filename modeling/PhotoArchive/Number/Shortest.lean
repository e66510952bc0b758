import PhotoArchive.Number.Binary64

/-!
# Shortest decimal text

A double-precision number is written with the fewest digits that read back as the same number, and
of those with the digits nearest to it. The interval of reals that read back is bounded by the
midpoints to the neighbouring numbers; its ends belong to it when the number's `m` is even. Two
decimals can be equally near, and formats differ in which of them they take.

For one digit, two digits and so on the number lies between two neighbouring decimals, and if any
decimal of that many digits reads back, one of these two does.
-/
namespace PhotoArchive.Number

structure Decimal where
  digits : Nat
  exponent : Int
  deriving DecidableEq, Repr

/-- Which of two decimals that are equally near is taken: the one with the even last digit, or the
greater one. -/
inductive Tie where
  | even
  | up
  deriving DecidableEq, Repr

/-- Whether the upper one of two decimals is taken, given the digits of the lower one. -/
def Tie.takesUpper (tie : Tie) (lower : Nat) : Bool :=
  match tie with
  | .even => lower % 2 = 1
  | .up => true

namespace Shortest

/-- The reals that read back as one number, over the common unit `2 ^ unit`. -/
structure Interval where
  low : Nat
  value : Nat
  high : Nat
  unit : Int
  closed : Bool

/-- The interval of `m · 2 ^ q`. Below the least number with 53 bits the spacing halves. -/
def interval (m : Nat) (q : Int) : Interval :=
  if m = Binary64.leastFull ∧ Binary64.leastExponent < q then
    ⟨4 * m - 1, 4 * m, 4 * m + 2, q - 2, m % 2 = 0⟩
  else ⟨4 * m - 2, 4 * m, 4 * m + 2, q - 2, m % 2 = 0⟩

/-- Whether a decimal lies in the interval. Both are scaled to whole numbers. -/
def Interval.holds (i : Interval) (d : Decimal) : Bool :=
  let two := Nat.pow 2 i.unit.natAbs
  let ten := Nat.pow 10 d.exponent.natAbs
  let bound (n : Nat) : Nat :=
    (if 0 ≤ i.unit then n * two else n) * (if 0 ≤ d.exponent then 1 else ten)
  let x := d.digits * (if 0 ≤ d.exponent then ten else 1) * (if 0 ≤ i.unit then 1 else two)
  if i.closed then bound i.low ≤ x && x ≤ bound i.high else bound i.low < x && x < bound i.high

/-- The number over `10 ^ e` as a fraction of whole numbers. -/
def scaled (i : Interval) (e : Int) : Nat × Nat :=
  let two := Nat.pow 2 i.unit.natAbs
  let ten := Nat.pow 10 e.natAbs
  let num := (if 0 ≤ i.unit then i.value * two else i.value) * (if 0 ≤ e then 1 else ten)
  let den := (if 0 ≤ i.unit then 1 else two) * (if 0 ≤ e then ten else 1)
  (num, den)

/-- How many digits the number has before its decimal point; not positive for small numbers. -/
def pointPlace (i : Interval) : Int :=
  let (num, den) := scaled i 0
  if den ≤ num then ((Nat.toDigits 10 (num / den)).length : Int)
  else 1 - ((Nat.toDigits 10 ((den - 1) / num)).length : Int)

/-- The nearest of the two decimals with the given last place that enclose the number, among those
that read back. -/
def pick (tie : Tie) (i : Interval) (e : Int) : Option Decimal :=
  let (num, den) := scaled i e
  let below : Decimal := ⟨num / den, e⟩
  let above : Decimal := ⟨num / den + 1, e⟩
  match i.holds below && 0 < below.digits, i.holds above with
  | true, true =>
    let r := num % den
    if 2 * r < den then some below
    else if den < 2 * r then some above
    else if tie.takesUpper below.digits then some above else some below
  | true, false => some below
  | false, true => some above
  | false, false => none

/-- The first decimal that reads back, trying the given counts of digits upwards. -/
def search (tie : Tie) (i : Interval) (place : Int) : Nat → Nat → Decimal
  | 0, _ => ⟨0, 0⟩
  | fuel + 1, count =>
    match pick tie i (place - count) with
    | some d => d
    | none => search tie i place fuel (count + 1)

def dropZeros : Nat → Decimal → Decimal
  | 0, d => d
  | fuel + 1, d =>
    if d.digits % 10 = 0 ∧ 0 < d.digits then dropZeros fuel ⟨d.digits / 10, d.exponent + 1⟩ else d

end Shortest

/-- The shortest decimal of `m · 2 ^ q`; seventeen digits always suffice. -/
def shortest (tie : Tie) (m : Nat) (q : Int) : Decimal :=
  if m = 0 then ⟨0, 0⟩
  else
    let i := Shortest.interval m q
    Shortest.dropZeros 20 (Shortest.search tie i (Shortest.pointPlace i) 17 1)

/-- How numbers are written in decimal. A number is written without an exponent when the count of
its digits before the point lies strictly between two bounds, and always where none are given. -/
structure DecimalStyle where
  positional : Option (Int × Int)
  tie : Tie

/-- The digits with a point so many digits from their start. There is always a digit on both sides
of the point. -/
def positionalText (digits : List Char) (place : Int) : List Char :=
  if place ≤ 0 then '0' :: '.' :: (List.replicate (-place).toNat '0' ++ digits)
  else if digits.length ≤ place.toNat then
    digits ++ List.replicate (place.toNat - digits.length) '0' ++ ['.', '0']
  else digits.take place.toNat ++ '.' :: digits.drop place.toNat

/-- An exponent with its sign, which is written in either case. -/
def signedText (e : Int) : List Char :=
  (if e < 0 then '-' else '+') :: Nat.toDigits 10 e.natAbs

/-- The digits with a point after the first and an exponent. A single digit has no point. -/
def exponentText (digits : List Char) (place : Int) : List Char :=
  let mantissa :=
    match digits with
    | [] => []
    | [d] => [d]
    | d :: rest => d :: '.' :: rest
  mantissa ++ 'e' :: signedText (place - 1)

def magnitudeText (style : DecimalStyle) (m : Nat) (q : Int) : List Char :=
  let d := shortest style.tie m q
  let digits := Nat.toDigits 10 d.digits
  let place := d.exponent + (digits.length : Int)
  if m = 0 then ['0', '.', '0']
  else
    match style.positional with
    | none => positionalText digits place
    | some (low, high) =>
      if low < place ∧ place < high then positionalText digits place else exponentText digits place

def Binary64.text (style : DecimalStyle) : Binary64 → String
  | .finite negative m q =>
    String.ofList ((if negative then ['-'] else []) ++ magnitudeText style m q)
  | .infinite negative => if negative then "-inf" else "inf"
  | .nan => "NaN"

end PhotoArchive.Number
