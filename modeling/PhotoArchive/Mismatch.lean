import PhotoArchive.Number.Shortest
import PhotoArchive.Text.Quoted

/-!
# Data of the wrong shape

What is wrong with well-formed data that is not what a reader wants: a value of another kind, a
number out of range, too few elements, a member that is missing or named twice. The readers of all
data formats share these causes and their wording; the formats differ in how they write a number
with a fraction.
-/
namespace PhotoArchive

/-- The kind of a value that was found, and the value itself where it is shown. -/
inductive Found where
  | integer (n : Int)
  | float (x : Number.Binary64)
  | boolean (b : Bool)
  | text (s : String)
  | null
  | sequence
  | map
  deriving DecidableEq, Repr

inductive Expected where
  | text
  | byte
  | word
  | boolean
  | keyBytes
  | sequence
  | record
  | recordElements
  | settings
  deriving DecidableEq, Repr

/-- What is wrong with well-formed data. A member counts as missing once the others are read, and as
named twice as soon as it is. -/
inductive Mismatch where
  | wrongKind (found : Found) (expected : Expected)
  | outOfRange (n : Int) (expected : Expected)
  | tooFew (elements : Nat) (expected : Expected)
  | missing (name : String)
  | duplicate (name : String)
  deriving DecidableEq, Repr

def Found.wording (style : Number.DecimalStyle) : Found → String
  | .integer n => "integer `" ++ toString n ++ "`"
  | .float x => "floating point `" ++ x.text style ++ "`"
  | .boolean b => "boolean `" ++ toString b ++ "`"
  | .text s => "string " ++ Text.quoted s
  | .null => "null"
  | .sequence => "sequence"
  | .map => "map"

def Expected.wording : Expected → String
  | .text => "a string"
  | .byte => "u8"
  | .word => "u64"
  | .boolean => "a boolean"
  | .keyBytes => "an array of length 32"
  | .sequence => "a sequence"
  | .record => "struct MetadataRecord"
  | .recordElements => "struct MetadataRecord with 3 elements"
  | .settings => "struct LiveConfig"

def Mismatch.message (style : Number.DecimalStyle) : Mismatch → String
  | .wrongKind f e => "invalid type: " ++ f.wording style ++ ", expected " ++ e.wording
  | .outOfRange n e => "invalid value: integer `" ++ toString n ++ "`, expected " ++ e.wording
  | .tooFew n e => "invalid length " ++ toString n ++ ", expected " ++ e.wording
  | .missing name => "missing field `" ++ name ++ "`"
  | .duplicate name => "duplicate field `" ++ name ++ "`"

end PhotoArchive
