import PhotoArchive.Service
import PhotoArchive.Slot
import PhotoArchive.Store.Memory

/-!
# Supplied maps

`FixedInterpreter`, an interpreter in the immediate context over two maps that a caller supplies.
The maps are the stores: filing and writing change them, and nothing is reported. Asking for what is
not there breaks the work off, because nothing is said about that case.
-/
namespace PhotoArchive

structure Supplied where
  records : MetadataStore
  contents : BlobStore

namespace Supplied

/-- The maps of some records and contents, of which the later replace the earlier. -/
def ofLists (records : List MetadataRecord) (contents : List (BlobKey × ByteArray)) : Supplied :=
  ⟨.ofList records, .ofList contents⟩

def withRecord (s : Supplied) (r : MetadataRecord) : Supplied :=
  { s with records := s.records.put r }

def withContent (s : Supplied) (key : BlobKey) (content : ByteArray) : Supplied :=
  { s with contents := s.contents.put key content }

def form (s : Supplied) : String :=
  Text.labelled "FixedInterpreter"
    [("records", toString s.records.size), ("contents", toString s.contents.size)]

variable {σ : Type}

def metadataService (cell : Slot σ Supplied) : MetadataService .immediate σ where
  insertRecord id key creator :=
    let record := ⟨id, key, creator⟩
    Action.onState fun s => (record, cell.modify (·.withRecord record) s)
  getRecord id := do
    match ← Action.onState fun s => ((cell.get s).records.get? id, s) with
    | some record => pure record
    | none => Action.abort (.noRecord id)

/-- The operations on the contents of supplied maps, with a rule for the keys. -/
def blobService (keyOf : PhotoId → BlobKey) (cell : Slot σ Supplied) :
    BlobService .immediate σ where
  generateKey id := pure (keyOf id)
  writeContent key content :=
    Action.onState fun s => ((), cell.modify (·.withContent key content) s)
  readContent key := do
    match ← Action.onState fun s => ((cell.get s).contents.get? key, s) with
    | some content => pure content
    | none => Action.abort (.noContent key)

def services (cell : Slot σ Supplied) : Services .immediate σ :=
  ⟨metadataService cell, blobService BlobKey.derive cell⟩

end Supplied

end PhotoArchive
