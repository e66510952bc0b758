import PhotoArchive.Text.Unprintable

/-!
# Quoted text

How texts, characters and byte strings are shown between quotes (`Debug`), so that each stays on one
line and its extent is visible. A quote mark is escaped only where it is the one that encloses, and
a character that prints nothing of its own is shown by its code point. What is shown of a value in
this way is its form.
-/
namespace PhotoArchive.Text

/-- The lower-case hexadecimal digits of a number, without leading zeros. -/
def hexDigitsOf (n : Nat) : List Char :=
  Nat.toDigits 16 n

/-- A character as it stands between two marks `quote`. -/
def escapeBetween (quote c : Char) : List Char :=
  if c = '\x00' then ['\\', '0']
  else if c = '\t' then ['\\', 't']
  else if c = '\r' then ['\\', 'r']
  else if c = '\n' then ['\\', 'n']
  else if c = '\\' then ['\\', '\\']
  else if c = quote then ['\\', quote]
  else if isGraphemeExtend c || isUnprintable c then
    ['\\', 'u', '\x7b'] ++ hexDigitsOf c.toNat ++ ['\x7d']
  else [c]

def quoted (s : String) : String :=
  String.ofList ('"' :: s.toList.flatMap (escapeBetween '"') ++ ['"'])

def quotedChar (c : Char) : String :=
  String.ofList ('\'' :: escapeBetween '\'' c ++ ['\''])

def hexDigit (n : Nat) : Char :=
  Nat.digitChar (n % 16)

/-- The two lower-case digits of a byte, the high half first. -/
def hexPair (b : UInt8) : List Char :=
  [hexDigit (b.toNat / 16), hexDigit b.toNat]

/-- A byte as it stands in a quoted byte string: the printed ASCII characters stand for
themselves, and all other bytes are shown by two hexadecimal digits. -/
def escapeByte (b : UInt8) : List Char :=
  if b = 0x00 then ['\\', '0']
  else if b = 0x09 then ['\\', 't']
  else if b = 0x0D then ['\\', 'r']
  else if b = 0x0A then ['\\', 'n']
  else if b = 0x5C then ['\\', '\\']
  else if b = 0x22 then ['\\', '"']
  else if 0x20 ≤ b && b ≤ 0x7E then [Char.ofNat b.toNat]
  else ['\\', 'x'] ++ hexPair b

/-- A byte string between double quotes, behind the mark of a byte string. -/
def quotedBytes (b : ByteArray) : String :=
  String.ofList (['b', '"'] ++ b.data.toList.flatMap escapeByte ++ ['"'])

/-- The form of a value with named parts: its name, then the parts in order between braces. -/
def labelled (name : String) (parts : List (String × String)) : String :=
  name ++ " \x7b " ++ ", ".intercalate (parts.map fun p => p.1 ++ ": " ++ p.2) ++ " \x7d"

end PhotoArchive.Text
