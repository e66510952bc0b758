import PhotoArchive.Text.Quoted

/-!
# JSON values and their compact text

A JSON value without fractional numbers, and its text without blanks. In a string only the quote,
the backslash and the control characters below the space are escaped. Members of an object are
written in the order in which they stand.
-/
namespace PhotoArchive

inductive Json where
  | null
  | boolean (b : Bool)
  | integer (n : Int)
  | text (s : String)
  | array (elements : List Json)
  | object (members : List (String × Json))
  deriving Inhabited

namespace Json

/-- A control character by its number, in four digits. -/
def controlEscape (c : Char) : List Char :=
  ['\\', 'u', '0', '0', Text.hexDigit (c.toNat / 16), Text.hexDigit c.toNat]

/-- A character as it stands in a string. -/
def escape (c : Char) : List Char :=
  if c = '"' then ['\\', '"']
  else if c = '\\' then ['\\', '\\']
  else if c = '\x08' then ['\\', 'b']
  else if c = '\x0c' then ['\\', 'f']
  else if c = '\n' then ['\\', 'n']
  else if c = '\r' then ['\\', 'r']
  else if c = '\t' then ['\\', 't']
  else if c.toNat < 0x20 then controlEscape c
  else [c]

def textChars (s : String) : List Char :=
  '"' :: s.toList.flatMap escape ++ ['"']

def integerChars (n : Int) : List Char :=
  match n with
  | .ofNat k => Nat.toDigits 10 k
  | .negSucc k => '-' :: Nat.toDigits 10 (k + 1)

def booleanChars (b : Bool) : List Char :=
  if b then ['t', 'r', 'u', 'e'] else ['f', 'a', 'l', 's', 'e']

mutual

def chars : Json → List Char
  | .null => ['n', 'u', 'l', 'l']
  | .boolean b => booleanChars b
  | .integer n => integerChars n
  | .text s => textChars s
  | .array es => '[' :: elementChars es ++ [']']
  | .object ms => '\x7b' :: memberChars ms ++ ['\x7d']

def elementChars : List Json → List Char
  | [] => []
  | [e] => chars e
  | e :: rest => chars e ++ ',' :: elementChars rest

def memberChars : List (String × Json) → List Char
  | [] => []
  | [(name, e)] => textChars name ++ ':' :: chars e
  | (name, e) :: rest => textChars name ++ ':' :: chars e ++ ',' :: memberChars rest

end

/-- The compact text of a value. -/
def compact (j : Json) : String :=
  String.ofList j.chars

end Json

end PhotoArchive
