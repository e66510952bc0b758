import PhotoArchive.Event
import PhotoArchive.Store.Memory

/-!
# Requests to stores in memory

The two stores side by side, and what can be asked of them one request after another.
-/
namespace PhotoArchive

structure Stores where
  metadata : MetadataStore
  blobs : BlobStore

inductive StoreRequest where
  | putRecord (r : MetadataRecord)
  | getRecord (id : PhotoId)
  | putBlob (key : BlobKey) (content : ByteArray)
  | getBlob (key : BlobKey)
  | clearRecords
  | clearBlobs
  deriving DecidableEq

inductive StoreReply where
  | done
  | record (found : Option MetadataRecord)
  | content (found : Except StoreError ByteArray)

namespace Stores

def empty : Stores := ⟨.empty, .empty⟩

def after (s : Stores) : StoreRequest → Stores
  | .putRecord r => { s with metadata := s.metadata.put r }
  | .putBlob key content => { s with blobs := s.blobs.put key content }
  | .clearRecords => { s with metadata := .empty }
  | .clearBlobs => { s with blobs := .empty }
  | .getRecord _ | .getBlob _ => s

def reply (s : Stores) : StoreRequest → StoreReply
  | .getRecord id => .record (s.metadata.get? id)
  | .getBlob key => .content (s.blobs.get key)
  | .putRecord _ | .putBlob _ _ | .clearRecords | .clearBlobs => .done

end Stores

/-- What the stores report of a request. -/
def StoreRequest.reports : StoreRequest → List StoreEvent
  | .putRecord r => [.recordPut r.id]
  | .putBlob key content => [.blobPut key content.size]
  | .getRecord _ | .getBlob _ | .clearRecords | .clearBlobs => []

end PhotoArchive
