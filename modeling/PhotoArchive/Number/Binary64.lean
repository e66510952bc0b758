/-!
# Double-precision numbers

The numbers of the IEEE 754 format binary64 as exact values: a sign and `m · 2 ^ q`, an infinity, or
no number at all. A result that the format cannot hold is the nearest one that it can, and of two
equally near ones that with the even `m`. Numbers here come from decimal text, so the operations
are rounding a fraction, and multiplying and dividing magnitudes.
-/
namespace PhotoArchive.Number

/-- A number of the format binary64. The magnitude of a finite one is `m · 2 ^ q`, where `q` is the
least exponent of the format unless `m` has 53 bits. -/
inductive Binary64 where
  | finite (negative : Bool) (m : Nat) (q : Int)
  | infinite (negative : Bool)
  | nan
  deriving DecidableEq, Repr

namespace Binary64

def leastExponent : Int := -1074

def greatestExponent : Int := 971

/-- The least `m` with 53 bits. -/
def leastFull : Nat := 0x10000000000000

/-- The quotient rounded to the nearest whole number, a half going to the even one. -/
def divideNearest (num den : Nat) : Nat :=
  let q := num / den
  let r := num % den
  if 2 * r < den then q else if den < 2 * r then q + 1 else q + q % 2

/-- A fraction over a power of two, as a fraction of whole numbers: `num / (den · 2 ^ q)`. -/
def scaleDown (num den : Nat) (q : Int) : Nat × Nat :=
  if 0 ≤ q then (num, den * Nat.pow 2 q.toNat) else (num * Nat.pow 2 (-q).toNat, den)

/-- An exponent that leaves `num / den` with 53 or 54 bits before the point, or the least one. -/
def guessExponent (num den : Nat) : Int :=
  max ((num.log2 : Int) - den.log2 - 53) leastExponent

/-- The positive or zero fraction `num / den` in the format. -/
def ofFraction (negative : Bool) (num den : Nat) : Binary64 :=
  if num = 0 then .finite negative 0 leastExponent
  else
    let guess := guessExponent num den
    let (n, d) := scaleDown num den guess
    let q := if 2 * leastFull ≤ n / d then guess + 1 else guess
    let (n, d) := scaleDown num den q
    let m := divideNearest n d
    let (m, q) := if m = 2 * leastFull then (leastFull, q + 1) else (m, q)
    if greatestExponent < q then .infinite negative else .finite negative m q

def ofNat (negative : Bool) (n : Nat) : Binary64 :=
  ofFraction negative n 1

def negate : Binary64 → Binary64
  | .finite s m q => .finite (!s) m q
  | .infinite s => .infinite (!s)
  | .nan => .nan

def isZero : Binary64 → Bool
  | .finite _ m _ => m == 0
  | _ => false

def isInfinite : Binary64 → Bool
  | .infinite _ => true
  | _ => false

/-- The magnitude as a fraction of whole numbers. -/
def fraction (m : Nat) (q : Int) : Nat × Nat :=
  if 0 ≤ q then (m * Nat.pow 2 q.toNat, 1) else (m, Nat.pow 2 (-q).toNat)

/-- The product, rounded once. Only finite factors occur. -/
def multiply : Binary64 → Binary64 → Binary64
  | .finite s m q, .finite t n r =>
    let (a, b) := fraction m q
    let (c, d) := fraction n r
    ofFraction (s != t) (a * c) (b * d)
  | _, _ => .nan

/-- The quotient by a number other than zero, rounded once. Only finite operands occur. -/
def divide : Binary64 → Binary64 → Binary64
  | .finite s m q, .finite t n r =>
    let (a, b) := fraction m q
    let (c, d) := fraction n r
    ofFraction (s != t) (a * d) (b * c)
  | _, _ => .nan

def powerOfTen (e : Nat) : Binary64 :=
  ofNat false (Nat.pow 10 e)

/-- The number nearest to `digits · 10 ^ exponent`. Exponents so far out that the digits cannot
matter are answered without computing the power. -/
def ofDecimal (negative : Bool) (digits : Nat) (exponent : Int) : Binary64 :=
  let magnitude := exponent + ((Nat.toDigits 10 digits).length : Int)
  if digits = 0 ∨ magnitude < -400 then .finite negative 0 leastExponent
  else if 400 < magnitude then .infinite negative
  else if 0 ≤ exponent then ofNat negative (digits * Nat.pow 10 exponent.toNat)
  else ofFraction negative digits (Nat.pow 10 (-exponent).toNat)

end Binary64

end PhotoArchive.Number
