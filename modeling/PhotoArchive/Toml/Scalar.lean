import PhotoArchive.Number.Word
import PhotoArchive.Text.Hex
import PhotoArchive.Toml.Item

/-!
# Unquoted values of a TOML document

Truth values, whole numbers, numbers with a fraction or an exponent, and dates and times. Such a
value reaches up to the first character that may follow a value, and all of it has to be of one of
these forms. Underscores stand between digits only. Whole numbers are those of 64 bits with a sign;
a positive number too large for double precision is none.
-/
namespace PhotoArchive.Toml

open PhotoArchive.Number (Binary64)

/-- The characters that may follow an unquoted value. -/
def endsValue (c : Char) : Bool :=
  c == ' ' || c == '\t' || c == '\n' || c == '\r' || c == '#' || c == ',' || c == ']' || c == '\x7d'

/-- The digits of a run of digits, between any two of which an underscore may stand. -/
def digitRun (isDigit : Char → Bool) : List Char → Option (List Char)
  | [] => none
  | [d] => if isDigit d then some [d] else none
  | d :: '_' :: rest => if isDigit d then (digitRun isDigit rest).map (d :: ·) else none
  | d :: rest => if isDigit d then (digitRun isDigit rest).map (d :: ·) else none

def signed : List Char → Bool × List Char
  | '-' :: rest => (true, rest)
  | '+' :: rest => (false, rest)
  | s => (false, s)

/-- A run of decimal digits without a leading zero. -/
def wholeRun (s : List Char) : Option (List Char) :=
  match digitRun Char.isDigit s with
  | some ('0' :: _ :: _) => none
  | run => run

def digitsValue (base : Nat) (ds : List Char) : Nat :=
  ds.foldl (fun n c => n * base + (Text.hexCharValue? c).getD 0) 0

/-- The whole number of a magnitude with a sign, if 64 bits hold it. -/
def inRange? (negative : Bool) (n : Nat) : Option Int :=
  if negative then if n ≤ Number.signedCount then some (-n) else none
  else if n < Number.signedCount then some n else none

/-- A whole number without a sign in a base other than ten. -/
def radixInteger? : List Char → Option Int
  | '0' :: 'x' :: rest =>
    (digitRun (fun c => (Text.hexCharValue? c).isSome) rest).bind fun ds =>
      inRange? false (digitsValue 16 ds)
  | '0' :: 'o' :: rest =>
    (digitRun (fun c => '0' ≤ c && c ≤ '7') rest).bind fun ds => inRange? false (digitsValue 8 ds)
  | '0' :: 'b' :: rest =>
    (digitRun (fun c => c == '0' || c == '1') rest).bind fun ds =>
      inRange? false (digitsValue 2 ds)
  | _ => none

def decimalInteger? (s : List Char) : Option Int :=
  (wholeRun (signed s).2).bind fun ds => inRange? (signed s).1 (digitsValue 10 ds)

def isExponentMark (c : Char) : Bool :=
  c == 'e' || c == 'E'

/-- The exponent that a text denotes, none written meaning zero. -/
def exponent? : List Char → Option Int
  | [] => some 0
  | c :: rest =>
    if isExponentMark c then
      (digitRun Char.isDigit (signed rest).2).map fun ds =>
        if (signed rest).1 then -(digitsValue 10 ds : Int) else (digitsValue 10 ds : Int)
    else none

/-- The digits of the fraction that a text denotes, none written meaning none. -/
def fraction? : List Char → Option (List Char)
  | [] => some []
  | '.' :: rest => digitRun Char.isDigit rest
  | _ => none

def decimalFloat? (s : List Char) : Option Binary64 :=
  let (negative, body) := signed s
  let beforeExponent := body.takeWhile fun c => !isExponentMark c
  let whole := beforeExponent.takeWhile fun c => c != '.'
  if whole = body then none
  else
    match wholeRun whole, fraction? (beforeExponent.drop whole.length),
      exponent? (body.drop beforeExponent.length) with
    | some ws, some fs, some e =>
      let x := Binary64.ofDecimal negative (digitsValue 10 (ws ++ fs)) (e - fs.length)
      if x = .infinite false then none else some x
    | _, _, _ => none

def namedFloat? (s : List Char) : Option Binary64 :=
  let (negative, body) := signed s
  if body = ['i', 'n', 'f'] then some (.infinite negative)
  else if body = ['n', 'a', 'n'] then some .nan
  else none

/-- The value of two digits, if it is not above a bound, and the text behind them. -/
def twoDigits? (least greatest : Nat) : List Char → Option (Nat × List Char)
  | a :: b :: rest =>
    let n := digitsValue 10 [a, b]
    if a.isDigit && b.isDigit && least ≤ n && n ≤ greatest then some (n, rest) else none
  | _ => none

def expect? (c : Char) : List Char → Option (List Char)
  | [] => none
  | d :: rest => if c = d then some rest else none

def daysOf (year month : Nat) : Nat :=
  if month = 2 then
    if year % 4 = 0 ∧ (year % 100 ≠ 0 ∨ year % 400 = 0) then 29 else 28
  else if month = 4 ∨ month = 6 ∨ month = 9 ∨ month = 11 then 30
  else 31

def afterDate? (s : List Char) : Option (List Char) := do
  let (century, s) ← twoDigits? 0 99 s
  let (year, s) ← twoDigits? 0 99 s
  let s ← expect? '-' s
  let (month, s) ← twoDigits? 1 12 s
  let s ← expect? '-' s
  let (_, s) ← twoDigits? 1 (daysOf (century * 100 + year) month) s
  return s

/-- The text behind the fraction of a second, if one is written. -/
def afterFraction? : List Char → Option (List Char)
  | '.' :: rest =>
    if rest.head?.any Char.isDigit then some (rest.dropWhile Char.isDigit) else none
  | s => some s

/-- The text behind a time of day. A second may be a leap second. -/
def afterTime? (s : List Char) : Option (List Char) := do
  let (_, s) ← twoDigits? 0 23 s
  let s ← expect? ':' s
  let (_, s) ← twoDigits? 0 59 s
  let s ← expect? ':' s
  let (_, s) ← twoDigits? 0 60 s
  afterFraction? s

/-- Whether a text is nothing, or an offset from universal time. -/
def isOffset : List Char → Bool
  | [] => true
  | [c] => c == 'Z' || c == 'z'
  | c :: rest =>
    (c == '+' || c == '-') &&
      (do
        let (_, s) ← twoDigits? 0 23 rest
        let s ← expect? ':' s
        let (_, s) ← twoDigits? 0 59 s
        return s) == some []

/-- Whether a text is a time of day with or without an offset. -/
def isTimeWithOffset (s : List Char) : Bool :=
  (afterTime? s).any isOffset

def isDateTime (s : List Char) : Bool :=
  (afterDate? s).any fun rest =>
    match rest with
    | [] => true
    | c :: rest => (c == 'T' || c == 't') && isTimeWithOffset rest

def scalar? (s : List Char) : Option Item :=
  if s = ['t', 'r', 'u', 'e'] then some (.boolean true)
  else if s = ['f', 'a', 'l', 's', 'e'] then some (.boolean false)
  else
    match decimalInteger? s with
    | some n => some (.integer n)
    | none =>
      match radixInteger? s with
      | some n => some (.integer n)
      | none =>
        match decimalFloat? s, namedFloat? s with
        | some x, _ => some (.float x)
        | none, some x => some (.float x)
        | none, none => if isDateTime s || afterTime? s == some [] then some .moment else none

end PhotoArchive.Toml
