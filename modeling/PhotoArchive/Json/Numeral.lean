import PhotoArchive.Number.Binary64
import PhotoArchive.Number.Word

/-!
# Numbers in JSON text

A numeral is an optional minus, digits without a leading zero, an optional fraction and an optional
exponent. A numeral without fraction and exponent is a whole number if 64 bits hold it, signed below
zero; `-0` is not a whole number. All others are double-precision numbers.

Their digits are collected as long as 64 bits hold them, and what the others would add is left out.
The collected digits are scaled by a power of ten in double precision, in steps of at most 308
places, and a number too large for the format is no number.
-/
namespace PhotoArchive.Json

structure Numeral where
  negative : Bool
  whole : List Char
  fraction : List Char
  exponent : Option (Bool × List Char)
  deriving DecidableEq, Repr

inductive Number where
  | integer (n : Int)
  | float (x : Number.Binary64)
  deriving DecidableEq, Repr

open PhotoArchive.Number (Binary64)

namespace Numeral

/-- The largest whole number of 64 bits. -/
def greatest : Nat := PhotoArchive.Number.wordCount - 1

def digitValue (c : Char) : Nat :=
  c.toNat - '0'.toNat

/-- Collects digits behind those collected, up to the first that 64 bits do not hold, and gives the
digits from there on. -/
def collect (collected : Nat) : List Char → Nat × List Char
  | [] => (collected, [])
  | c :: rest =>
    let next := collected * 10 + digitValue c
    if next ≤ greatest then collect next rest else (collected, c :: rest)

/-- The value of exponent digits, or none when 31 bits do not hold it. -/
def exponentValue (collected : Nat) : List Char → Option Nat
  | [] => some collected
  | c :: rest =>
    let next := collected * 10 + digitValue c
    if next < 0x80000000 then exponentValue next rest else none

def shrink (x : Binary64) (places : Nat) : Binary64 :=
  if places ≤ 308 then x.divide (Binary64.powerOfTen places)
  else if x.isZero then x
  else shrink (x.divide (Binary64.powerOfTen 308)) (places - 308)
termination_by places

/-- Collected digits scaled by a power of ten. None is a number too large for the format. -/
def scale (digits : Nat) (exponent : Int) : Option Binary64 :=
  let x := Binary64.ofNat false digits
  if exponent < 0 then some (shrink x (-exponent).toNat)
  else if 308 < exponent then if x.isZero then some x else none
  else
    let y := x.multiply (Binary64.powerOfTen exponent.toNat)
    if y.isInfinite then none else some y

/-- The magnitude of a numeral in double precision. -/
def magnitude (n : Numeral) : Option Binary64 :=
  let (whole, uncollected) := collect 0 n.whole
  let (digits, unread) := collect whole n.fraction
  let shift : Int := (uncollected.length : Int) - ((n.fraction.length - unread.length : Nat) : Int)
  match n.exponent with
  | none => scale digits shift
  | some (negative, es) =>
    match exponentValue 0 es with
    | some e => scale digits (if negative then shift - e else shift + e)
    | none => if digits = 0 ∨ negative then some (Binary64.ofNat false 0) else none

/-- The number that a numeral denotes. None is a number too large for double precision. -/
def value? (n : Numeral) : Option Number :=
  let (whole, uncollected) := collect 0 n.whole
  if n.fraction = [] ∧ n.exponent = none ∧ uncollected = [] ∧
      (n.negative = false ∨ (0 < whole ∧ whole ≤ PhotoArchive.Number.signedCount)) then
    some (.integer (if n.negative then -whole else whole))
  else n.magnitude.map fun x => .float (if n.negative then x.negate else x)

end Numeral

end PhotoArchive.Json
