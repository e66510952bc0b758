import PhotoArchive.BlobKey

/-!
# Records and photos

`MetadataRecord`, what the metadata store holds about a photo, and `Photo`: its record joined with
its content (`assemble`), without the key under which the content is kept.
-/
namespace PhotoArchive

/-- Contents are compared byte by byte. -/
instance instDecidableEqContent : DecidableEq ByteArray := ByteArray.instDecidableEq

structure MetadataRecord where
  id : PhotoId
  key : BlobKey
  creator : String
  deriving DecidableEq, Repr

def MetadataRecord.form (r : MetadataRecord) : String :=
  Text.labelled "MetadataRecord"
    [("id", r.id.form), ("key", r.key.form), ("creator", Text.quoted r.creator)]

structure Photo where
  id : PhotoId
  creator : String
  content : ByteArray
  deriving DecidableEq

namespace Photo

/-- Joins a record with the content found under its key. -/
def assemble (r : MetadataRecord) (content : ByteArray) : Photo :=
  ⟨r.id, r.creator, content⟩

def form (p : Photo) : String :=
  Text.labelled "Photo"
    [("id", p.id.form), ("creator", Text.quoted p.creator), ("content", Text.quotedBytes p.content)]

end Photo

end PhotoArchive
