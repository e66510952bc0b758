import PhotoArchive.Action.Eff
import PhotoArchive.Interpreter.Backed
import PhotoArchive.Session.Run
import PhotoArchive.Store.Fault
import PhotoArchive.Store.Request

/-!
# Sessions with backends

Two stores in memory, watched and with planned faults, and requests one after another: straight to
the stores, or runs of scripts on the services over them. A session may also have its runs work on
stores of their own that nobody watches.
-/
namespace PhotoArchive

/-- What a session is set up with. An unwatched one has its runs work on stores of their own. -/
structure BackedPlan where
  settings : Settings
  metadataFaults : List Fault
  blobFaults : List Fault
  unwatched : Bool

/-- A session between two requests. The lines are those of the calls since the last request, the
latest first. -/
structure BackedState where
  stores : Stores
  own : Stores
  metadataCalls : Nat
  blobCalls : Nat
  lines : List String

inductive BackedRequest where
  | store (q : StoreRequest)
  | run (r : Run) (awaited : Bool)

inductive BackedReply where
  | store (r : StoreReply)
  | ran (outcome : Outcome .awaited Value)
  | dropped

namespace BackedState

def start : BackedState := ⟨.empty, .empty, 0, 0, []⟩

def storesSlot : Slot BackedState Stores where
  get s := s.stores
  set t s := { s with stores := t }
  get_set _ _ := rfl
  set_get _ := rfl
  set_set _ _ _ := rfl

/-- The stores of their own that runs work on. -/
def ownSlot : Slot BackedState Stores where
  get s := s.own
  set t s := { s with own := t }
  get_set _ _ := rfl
  set_get _ := rfl
  set_set _ _ _ := rfl

def metadataCallsSlot : Slot BackedState Nat where
  get s := s.metadataCalls
  set t s := { s with metadataCalls := t }
  get_set _ _ := rfl
  set_get _ := rfl
  set_set _ _ _ := rfl

def blobCallsSlot : Slot BackedState Nat where
  get s := s.blobCalls
  set t s := { s with blobCalls := t }
  get_set _ _ := rfl
  set_get _ := rfl
  set_set _ _ _ := rfl

def linesSlot : Slot BackedState (List String) where
  get s := s.lines
  set t s := { s with lines := t }
  get_set _ _ := rfl
  set_get _ := rfl
  set_set _ _ _ := rfl

end BackedState

def Stores.metadataSlot : Slot Stores MetadataStore where
  get s := s.metadata
  set t s := { s with metadata := t }
  get_set _ _ := rfl
  set_get _ := rfl
  set_set _ _ _ := rfl

def Stores.blobsSlot : Slot Stores BlobStore where
  get s := s.blobs
  set t s := { s with blobs := t }
  get_set _ _ := rfl
  set_get _ := rfl
  set_set _ _ _ := rfl

def Stores.backends {σ : Type} (cell : Slot σ Stores) : Backends σ :=
  .inMemory (cell.within Stores.metadataSlot) (cell.within Stores.blobsSlot)

namespace BackedPlan

def backends (p : BackedPlan) : Backends BackedState :=
  if p.unwatched then Stores.backends BackedState.ownSlot
  else
    let inner := Stores.backends BackedState.storesSlot
    let watch (count : Slot BackedState Nat) (faults : List Fault) : Watch BackedState :=
      ⟨count, BackedState.linesSlot, faults⟩
    ⟨(watch BackedState.metadataCallsSlot p.metadataFaults).metadata inner.metadata,
      (watch BackedState.blobCallsSlot p.blobFaults).blobs inner.blobs⟩

/-- Answers a request, with the session after it and what was reported. -/
def handle (p : BackedPlan) (s : BackedState) (q : BackedRequest) :
    BackedReply × BackedState × List Event :=
  let quiet := { s with lines := [] }
  match q with
  | .store q =>
    (.store (s.stores.reply q), { quiet with stores := s.stores.after q },
      q.reports.map .stored)
  | .run r awaited =>
    let action := r.action (p.backends.services p.settings)
    let world : World BackedState := ⟨quiet, #[]⟩
    if awaited then
      let (outcome, w) := action.run world
      (.ran outcome, w.state, w.events.toList)
    else
      let (_, w) := action.start world
      (.dropped, w.state, w.events.toList)

end BackedPlan

end PhotoArchive
