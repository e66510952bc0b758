import Std.Data.ExtTreeMap
import PhotoArchive.Text.Blank
import PhotoArchive.Text.Hex

/-!
# Photo identifiers

`PhotoId`, the external name of a photo: any text. Identifiers are equal when their texts are, and
they are ordered by the UTF-8 bytes of their texts. An identifier that a caller supplies is trimmed
first and must not be blank (`parse`, `TypeError`). A fresh identifier (`generate`) is a
time-ordered UUID.
-/
namespace PhotoArchive

structure PhotoId where
  text : String
  deriving DecidableEq, Repr

inductive PhotoId.Fault where
  | blank
  deriving DecidableEq, Repr

namespace PhotoId

def Fault.message : Fault → String
  | .blank => "photo id must not be empty"

/-- The identifier in a supplied text: the text without the blanks around it. -/
def parse (s : String) : Except Fault PhotoId :=
  match Text.trimBlank s.toList with
  | [] => .error .blank
  | t => .ok ⟨String.ofList t⟩

def bytes (id : PhotoId) : List UInt8 :=
  Text.utf8Bytes id.text

/-- The bytes of an identifier determine it. -/
theorem bytes_injective {a b : PhotoId} (h : a.bytes = b.bytes) : a = b := by
  cases a with
  | mk s =>
    cases b with
    | mk t =>
      have hs : s.toUTF8 = t.toUTF8 := ByteArray.ext (Array.toList_inj.mp h)
      simpa [String.toUTF8, String.toByteArray_inj] using hs

instance : Ord PhotoId := ⟨fun a b => compare a.bytes b.bytes⟩

theorem compare_eq (a b : PhotoId) : compare a b = compare a.bytes b.bytes := rfl

instance : Std.TransOrd PhotoId where
  eq_swap := by
    intro a b
    rw [compare_eq, compare_eq]
    exact Std.OrientedOrd.eq_swap
  isLE_trans := by
    intro a b c hab hbc
    rw [compare_eq] at *
    exact Std.TransOrd.isLE_trans hab hbc

instance : Std.LawfulEqOrd PhotoId where
  compare_self := by
    intro a
    rw [compare_eq]
    exact Std.ReflOrd.compare_self
  eq_of_compare h := bytes_injective (Std.LawfulEqCmp.eq_of_compare h)

/-- The identifiers in ascending order, repetitions kept. -/
def sort (ids : List PhotoId) : List PhotoId :=
  ids.mergeSort fun a b => (compare a b).isLE

def form (id : PhotoId) : String :=
  "PhotoId(" ++ id.text ++ ")"

/-- A number in the given count of lower-case hexadecimal digits, its high digits cut off. -/
def fixedHex (places n : Nat) : String :=
  String.ofList ((List.range places).reverse.map fun i => Text.hexDigit (n / Nat.pow 16 i))

/-- The time-ordered UUID of version 7 for a moment in milliseconds and 74 random bits, of which
the 12 high ones stand before the variant. -/
def ofClock (millis random : Nat) : PhotoId :=
  let head := fixedHex 12 millis
  let upper := random / 0x4000000000000000
  let lower := random % 0x4000000000000000
  let variant := fixedHex 4 (0x8000 + lower / 0x1000000000000)
  ⟨String.ofList (head.toList.take 8) ++ "-" ++ String.ofList (head.toList.drop 8) ++
    "-7" ++ fixedHex 3 upper ++ "-" ++ variant ++ "-" ++ fixedHex 12 lower⟩

/-- Whether a text has the form of a UUID of version 7: groups of 8, 4, 4, 4 and 12 lower-case
hexadecimal digits, the third starting with 7 and the fourth with 8, 9, a or b. -/
def isTimeOrdered (id : PhotoId) : Bool :=
  match id.text.splitOn "-" with
  | [a, b, c, d, e] =>
    let isHex (s : String) : Bool := s.toList.all fun c => c.isDigit || ('a' ≤ c && c ≤ 'f')
    [a, b, c, d, e].map String.length == [8, 4, 4, 4, 12] && [a, b, c, d, e].all isHex &&
      c.toList.head? == some '7' && d.toList.head?.any (fun c => "89ab".toList.contains c)
  | _ => false

end PhotoId

end PhotoArchive
