import PhotoArchive.Photo
import PhotoArchive.Store.Error

/-!
# Stores in memory

`InMemoryMetadataStore` and `InMemoryBlobStore`: the records by identifier and the contents by key.
Putting under a name that is taken replaces what was there. The two stores know nothing of each
other.
-/
namespace PhotoArchive

structure MetadataStore where
  records : Std.ExtTreeMap PhotoId MetadataRecord

namespace MetadataStore

def empty : MetadataStore := ⟨∅⟩

def put (s : MetadataStore) (r : MetadataRecord) : MetadataStore := ⟨s.records.insert r.id r⟩

def get? (s : MetadataStore) (id : PhotoId) : Option MetadataRecord := s.records[id]?

def size (s : MetadataStore) : Nat := s.records.size

def isEmpty (s : MetadataStore) : Bool := s.records.isEmpty

def ids (s : MetadataStore) : List PhotoId := s.records.keys

/-- The store of some records, of which the later replace the earlier. -/
def ofList (rs : List MetadataRecord) : MetadataStore := rs.foldl put empty

def form (s : MetadataStore) : String :=
  Text.labelled "InMemoryMetadataStore" [("record_count", toString s.size)]

end MetadataStore

structure BlobStore where
  contents : Std.ExtTreeMap BlobKey ByteArray

namespace BlobStore

def empty : BlobStore := ⟨∅⟩

def put (s : BlobStore) (key : BlobKey) (content : ByteArray) : BlobStore :=
  ⟨s.contents.insert key content⟩

def get? (s : BlobStore) (key : BlobKey) : Option ByteArray := s.contents[key]?

/-- The content kept under a key, or the error that there is none. -/
def get (s : BlobStore) (key : BlobKey) : Except StoreError ByteArray :=
  match s.get? key with
  | some content => .ok content
  | none => .error (.blobNotFound key)

def size (s : BlobStore) : Nat := s.contents.size

def isEmpty (s : BlobStore) : Bool := s.contents.isEmpty

/-- The length of all contents together. -/
def totalBytes (s : BlobStore) : Nat :=
  (s.contents.values.map ByteArray.size).foldr (· + ·) 0

/-- The store of some contents, of which the later replace the earlier. -/
def ofList (cs : List (BlobKey × ByteArray)) : BlobStore :=
  cs.foldl (fun s c => s.put c.1 c.2) empty

def form (s : BlobStore) : String :=
  Text.labelled "InMemoryBlobStore"
    [("blob_count", toString s.size), ("total_bytes", toString s.totalBytes)]

end BlobStore

end PhotoArchive
