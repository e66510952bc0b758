import PhotoArchive.Json.Reader
import PhotoArchive.Photo
import PhotoArchive.Trace

/-!
# The data model in JSON

How `PhotoId`, `BlobKey`, `Trace` and `MetadataRecord` are written and read. An identifier is a
string, a key an array of 32 numbers, a trace an array of strings, and a record an object of its
three parts. A record is also read from an array of the parts; other members of an object are
skipped.
-/
namespace PhotoArchive.Json

def ofPhotoId (id : PhotoId) : Json := .text id.text

def ofBlobKey (k : BlobKey) : Json := .array (k.bytes.toList.map fun b => .integer b.toNat)

def ofTrace (t : Trace) : Json := .array (t.toList.map .text)

def ofRecord (r : MetadataRecord) : Json :=
  .object [("id", ofPhotoId r.id), ("key", ofBlobKey r.key), ("creator", .text r.creator)]

/-- The style of numbers with a fraction in messages about JSON: without an exponent where at most
16 digits stand before the point and at most four zeros after it, and with the even one of two
last digits that are equally near. -/
def decimalStyle : Number.DecimalStyle := ⟨some (-5, 17), .even⟩

namespace Reader

def photoId : Reader PhotoId := text.map PhotoId.mk

def blobKey : Reader BlobKey :=
  array .keyBytes ((Body.vector 32 .keyBytes byte).map BlobKey.mk)

def trace : Reader Trace := array .sequence ((Body.elements text).map Trace.ofList)

end Reader

structure RecordParts where
  id : Option PhotoId
  key : Option BlobKey
  creator : Option String

namespace RecordParts

def none : RecordParts := ⟨.none, .none, .none⟩

/-- The value of a part that may be named only once, unless it has been read before. -/
def once {α β : Type} (name : String) (before : Option α) (r : Reader β) :
    Except Mismatch (Reader β) :=
  if before.isSome then .error (.duplicate name) else .ok r

/-- What a member of an object adds to the parts. -/
def member : Members RecordParts := fun parts name =>
  if name = "id" then
    once name parts.id (Reader.photoId.map fun id => { parts with id := some id })
  else if name = "key" then
    once name parts.key (Reader.blobKey.map fun key => { parts with key := some key })
  else if name = "creator" then
    once name parts.creator (Reader.text.map fun creator => { parts with creator := some creator })
  else .ok (Reader.skip.map fun _ => parts)

/-- The record of the parts, or the first part that is missing. -/
def record : RecordParts → Except Mismatch MetadataRecord
  | ⟨some id, some key, some creator⟩ => .ok ⟨id, key, creator⟩
  | ⟨.none, _, _⟩ => .error (.missing "id")
  | ⟨some _, .none, _⟩ => .error (.missing "key")
  | ⟨some _, some _, .none⟩ => .error (.missing "creator")

end RecordParts

def recordElements : Body MetadataRecord :=
  (Body.required 0 .recordElements Reader.photoId).bind fun id =>
    (Body.required 1 .recordElements Reader.blobKey).bind fun key =>
      (Body.required 2 .recordElements Reader.text).map fun creator => ⟨id, key, creator⟩

/-- The parts of a record as the members of an object. -/
def recordMembers : Body MetadataRecord :=
  (Body.members RecordParts.member .none).bind fun parts => .ofExcept parts.record

def Reader.record : Reader MetadataRecord :=
  Reader.structured .record recordElements recordMembers

end PhotoArchive.Json
