import PhotoArchive.Service
import PhotoArchive.Settings.Basic
import PhotoArchive.Store.Backend

/-!
# Services over backends

`LiveInterpreter`, an interpreter in the awaited context, and its `dispatch`: each operation is one
call to a backend under the time limit, and there is no second try. A call that takes longer than
the limit is given up, one that takes exactly the limit is not. What a call that is given up has
changed and reported by then stays. Keys are derived and need no backend, but they are operations
like the others.
-/
namespace PhotoArchive

variable {σ α : Type}

def Settings.exceeded? (settings : Settings) (delay : Duration) : Option Duration :=
  settings.limit.filter (· < delay)

/-- The outcome of a call that was answered. -/
def Call.outcome (op : OperationName) (c : Call σ (Option α)) : Outcome .awaited α :=
  match c.answer with
  | .ok (some a) => .ok ⟨a, ()⟩
  | .ok none => .error .absent
  | .error e => .error (.failed (.backend op e))

/-- What is reported of a call that was answered. -/
def Call.events (op : OperationName) (c : Call σ α) : List Event :=
  c.reports.map .stored ++
    match c.answer with
    | .ok _ => []
    | .error e => [.callFailed op e]

/-- What is reported of a call that was given up when it had come this far. -/
def Progress.events (op : OperationName) (limit : Duration) (p : Progress σ) : List Event :=
  p.reports.map .stored ++ [.timedOut op limit]

def Settings.announce (settings : Settings) (op : OperationName) : List Event :=
  if settings.logDispatch then [.dispatching op] else []

/-- Carries out an operation by a call, of which an answer of nothing means absence. -/
def Action.ofCall (settings : Settings) (op : OperationName) (call : σ → Call σ (Option α)) :
    Action .awaited σ α :=
  ⟨fun w =>
    let c := call w.state
    let events := w.events.appendList (settings.announce op)
    match settings.exceeded? c.delay with
    | some limit =>
      let left := c.sofar limit
      (.error (.failed (.timeout op limit)), ⟨left.state, events.appendList (left.events op limit)⟩)
    | none => (c.outcome op, ⟨c.answered, events.appendList (c.events op)⟩)⟩

def MetadataBackend.service (settings : Settings) (b : MetadataBackend σ) :
    MetadataService .awaited σ where
  insertRecord id key creator :=
    let record := ⟨id, key, creator⟩
    Action.ofCall settings .insertRecord fun s => (b.put record s).map fun _ => some record
  getRecord id := Action.ofCall settings .getRecord (b.get id)

def BlobBackend.service (settings : Settings) (b : BlobBackend σ) : BlobService .awaited σ where
  generateKey id :=
    Action.ofCall settings .generateKey fun s => .immediate (.ok (some (.derive id))) [] s
  writeContent key content :=
    Action.ofCall settings .writeContent fun s => (b.put key content s).map some
  readContent key := Action.ofCall settings .readContent fun s => (b.get key s).map some

structure Backends (σ : Type) where
  metadata : MetadataBackend σ
  blobs : BlobBackend σ

namespace Backends

def services (settings : Settings) (b : Backends σ) : Services .awaited σ :=
  ⟨b.metadata.service settings, b.blobs.service settings⟩

def inMemory (records : Slot σ MetadataStore) (contents : Slot σ BlobStore) : Backends σ :=
  ⟨MetadataStore.backend records, BlobStore.backend contents⟩

end Backends

def Settings.interpreterForm (settings : Settings) : String :=
  "LiveInterpreter \x7b config: " ++ settings.form ++ ", .. \x7d"

end PhotoArchive
