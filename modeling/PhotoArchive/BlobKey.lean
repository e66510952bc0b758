import PhotoArchive.PhotoId
import PhotoArchive.Hash.Blake3

/-!
# Blob keys

`BlobKey`, the place of a photo's content: 32 bytes, derived from the identifier by a hash over a
fixed text that keeps these hashes apart from others, followed by the identifier's bytes (`derive`).
Keys are ordered by their bytes and written as 64 lower-case hexadecimal digits. Reading
(`from_hex`) accepts either case, and a text that is no key is a `TypeError`.
-/
namespace PhotoArchive

structure BlobKey where
  bytes : Vector UInt8 32
  deriving DecidableEq, Repr

inductive BlobKey.Fault where
  | notHex (fault : Text.HexFault)
  | wrongLength (bytes : Nat)
  deriving DecidableEq, Repr

namespace BlobKey

def Fault.message : Fault → String
  | .notHex f => "invalid hex string: " ++ f.message
  | .wrongLength n => "invalid byte length: expected 32, got " ++ toString n

def Fault.form : Fault → String
  | .notHex f => "InvalidHex(" ++ Text.quoted f.message ++ ")"
  | .wrongLength n => Text.labelled "InvalidLength" [("expected", "32"), ("actual", toString n)]

/-- What every key's hash starts with. -/
def domain : String := "photokit-blob-v1:"

/-- The key of the content of a photo. -/
def derive (id : PhotoId) : BlobKey :=
  ⟨Hash.Blake3.hash (Text.utf8Bytes domain ++ id.bytes)⟩

def toHex (k : BlobKey) : String :=
  Text.toHex k.bytes.toList

/-- The first 8 digits of the key. -/
def shortHex (k : BlobKey) : String :=
  Text.toHex (k.bytes.toList.take 4)

def form (k : BlobKey) : String :=
  "BlobKey(" ++ k.shortHex ++ ")"

/-- The key of exactly 32 bytes. -/
def ofBytes? (bytes : List UInt8) : Option BlobKey :=
  if h : bytes.length = 32 then some ⟨⟨bytes.toArray, by simpa using h⟩⟩ else none

/-- The key that a text of 64 hexadecimal digits denotes. -/
def ofHex (s : String) : Except Fault BlobKey :=
  match Text.ofHex s with
  | .error f => .error (.notHex f)
  | .ok bytes =>
    match ofBytes? bytes with
    | some k => .ok k
    | none => .error (.wrongLength bytes.length)

theorem toList_injective {a b : BlobKey} (h : a.bytes.toList = b.bytes.toList) : a = b := by
  cases a
  cases b
  simpa [Vector.toList_inj] using h

/-- The digits of a key determine it. -/
theorem toHex_injective {a b : BlobKey} (h : a.toHex = b.toHex) : a = b :=
  toList_injective (Text.hexChars_injective (String.ofList_injective h))

instance : Ord BlobKey := ⟨fun a b => compare a.bytes.toList b.bytes.toList⟩

theorem compare_eq (a b : BlobKey) : compare a b = compare a.bytes.toList b.bytes.toList := rfl

instance : Std.TransOrd BlobKey where
  eq_swap := by
    intro a b
    rw [compare_eq, compare_eq]
    exact Std.OrientedOrd.eq_swap
  isLE_trans := by
    intro a b c hab hbc
    rw [compare_eq] at *
    exact Std.TransOrd.isLE_trans hab hbc

instance : Std.LawfulEqOrd BlobKey where
  compare_self := by
    intro a
    rw [compare_eq]
    exact Std.ReflOrd.compare_self
  eq_of_compare h := toList_injective (Std.LawfulEqCmp.eq_of_compare h)

end BlobKey

end PhotoArchive
