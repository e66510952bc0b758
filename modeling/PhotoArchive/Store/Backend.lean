import PhotoArchive.Duration
import PhotoArchive.Event
import PhotoArchive.Slot
import PhotoArchive.Store.Memory

/-!
# Backends

What the traits `MetadataStore` and `BlobStore` ask of a store: calls that take time and may fail. A
call has come some way at each moment. One that is given up stays as far as it has come by then:
what it has changed and reported until then stays, and it is never answered. `InMemoryMetadataStore`
and `InMemoryBlobStore` answer at once.
-/
namespace PhotoArchive

/-- How far a call has come: the state, and what the store has reported of the call. -/
structure Progress (σ : Type) where
  state : σ
  reports : List StoreEvent

/-- A call that has been started, with how far it has come after any time that is shorter than its
delay, and what it has changed and reported by then if it is answered. -/
structure Call (σ α : Type) where
  sofar : Duration → Progress σ
  delay : Duration
  answer : Except StoreError α
  reports : List StoreEvent
  answered : σ

/-- A backend for records. That no record is held for a photo is an answer. -/
structure MetadataBackend (σ : Type) where
  put : MetadataRecord → σ → Call σ Unit
  get : PhotoId → σ → Call σ (Option MetadataRecord)

/-- A backend for contents. That no content is held under a key is an error. -/
structure BlobBackend (σ : Type) where
  put : BlobKey → ByteArray → σ → Call σ Unit
  get : BlobKey → σ → Call σ ByteArray

namespace Call

variable {σ α β : Type}

def immediate (answer : Except StoreError α) (reports : List StoreEvent) (after : σ) :
    Call σ α :=
  ⟨fun _ => ⟨after, reports⟩, .zero, answer, reports, after⟩

def map (f : α → β) (c : Call σ α) : Call σ β :=
  ⟨c.sofar, c.delay, c.answer.map f, c.reports, c.answered⟩

end Call

variable {σ : Type}

def MetadataStore.backend (cell : Slot σ MetadataStore) : MetadataBackend σ where
  put r s := .immediate (.ok ()) [.recordPut r.id] (cell.modify (·.put r) s)
  get id s := .immediate (.ok ((cell.get s).get? id)) [] s

def BlobStore.backend (cell : Slot σ BlobStore) : BlobBackend σ where
  put key content s :=
    .immediate (.ok ()) [.blobPut key content.size] (cell.modify (·.put key content) s)
  get key s := .immediate ((cell.get s).get key) [] s

end PhotoArchive
