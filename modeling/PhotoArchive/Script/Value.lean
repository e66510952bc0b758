import PhotoArchive.Program.Basic

/-!
# Values of scripts

The values that scripts hand from step to step, each of one of eight kinds, and the fields that a
value can be asked for. An identifier is handed on as a text.
-/
namespace PhotoArchive

inductive Value where
  | unit
  | int (n : Int64)
  | text (s : String)
  | key (k : BlobKey)
  | bytes (content : ByteArray)
  | record (r : MetadataRecord)
  | photo (p : Photo)
  | list (values : List Value)

namespace Value

mutual

/-- Whether two values are of the same kind and equal. -/
def same : Value → Value → Bool
  | .unit, .unit => true
  | .int m, .int n => m == n
  | .text s, .text t => s == t
  | .key k, .key l => k = l
  | .bytes b, .bytes c => b = c
  | .record r, .record s => r = s
  | .photo p, .photo q => p = q
  | .list vs, .list ws => sameAll vs ws
  | _, _ => false

def sameAll : List Value → List Value → Bool
  | [], [] => true
  | v :: vs, w :: ws => same v w && sameAll vs ws
  | _, _ => false

end

instance : Carries Value Unit :=
  ⟨"()", fun _ => .unit, fun | .unit => some () | _ => none, fun _ => rfl⟩

instance : Carries Value Int64 :=
  ⟨"i64", .int, fun | .int n => some n | _ => none, fun _ => rfl⟩

instance : Carries Value String :=
  ⟨"alloc::string::String", .text, fun | .text s => some s | _ => none, fun _ => rfl⟩

instance : Carries Value PhotoId :=
  ⟨"photokit_types::id::PhotoId", fun id => .text id.text,
    fun | .text s => some ⟨s⟩ | _ => none, fun _ => rfl⟩

instance : Carries Value BlobKey :=
  ⟨"photokit_types::key::BlobKey", .key, fun | .key k => some k | _ => none, fun _ => rfl⟩

instance : Carries Value ByteArray :=
  ⟨"bytes::bytes::Bytes", .bytes, fun | .bytes b => some b | _ => none, fun _ => rfl⟩

instance : Carries Value MetadataRecord :=
  ⟨"photokit_types::record::MetadataRecord", .record, fun | .record r => some r | _ => none,
    fun _ => rfl⟩

instance : Carries Value Photo :=
  ⟨"photokit_types::record::Photo", .photo, fun | .photo p => some p | _ => none, fun _ => rfl⟩

instance : Carries Value (List Value) :=
  ⟨"alloc::vec::Vec<Value>", .list, fun | .list vs => some vs | _ => none, fun _ => rfl⟩

instance : CarriesAnswers Value where

end Value

inductive Field where
  | id
  | key
  | creator
  | content
  | length
  | hex
  | next
  | unit
  deriving DecidableEq, Repr

/-- The field of a value, if values of its kind have it. Every value has nothing to tell. -/
def Field.of : Field → Value → Option Value
  | .id, .record r => some (.text r.id.text)
  | .id, .photo p => some (.text p.id.text)
  | .key, .record r => some (.key r.key)
  | .creator, .record r => some (.text r.creator)
  | .creator, .photo p => some (.text p.creator)
  | .content, .photo p => some (.bytes p.content)
  | .length, .bytes b => some (.int (.ofNat b.size))
  | .length, .list vs => some (.int (.ofNat vs.length))
  | .hex, .key k => some (.text k.toHex)
  | .next, .int n => some (.int (n + 1))
  | .unit, _ => some .unit
  | _, _ => none

end PhotoArchive
