import PhotoArchive.Store.Backend

/-!
# Faults of backends

A watched backend writes a line for each call and counts its calls from zero. Faults are planned by
these numbers: a fault meets one call or all of them, makes it wait, and may make it fail with a
reason in place of the call. The first fault that meets a call counts.
-/
namespace PhotoArchive

/-- A planned fault: the number of the call that it meets, or none if it meets every call; how long
the call waits; and why it then fails, if it does. -/
structure Fault where
  call : Option Nat
  delay : Duration
  reason : Option String
  deriving DecidableEq, Repr

namespace Fault

def meets (f : Fault) (number : Nat) : Bool :=
  f.call.all (· == number)

def first? (faults : List Fault) (number : Nat) : Option Fault :=
  faults.find? (·.meets number)

end Fault

/-- Where a watched backend counts its calls and writes its lines, the latest first. -/
structure Watch (σ : Type) where
  count : Slot σ Nat
  lines : Slot σ (List String)
  faults : List Fault

namespace Watch

variable {σ α : Type}

/-- A call under watch: counted and written down as it starts, then met by its fault. Until the
fault has made it wait, nothing more is done. -/
def call (watch : Watch σ) (line : String) (inner : σ → Call σ α) (s : σ) : Call σ α :=
  let number := watch.count.get s
  let started := watch.lines.modify (line :: ·) (watch.count.set (number + 1) s)
  match Fault.first? watch.faults number with
  | none => inner started
  | some ⟨_, delay, some reason⟩ =>
    ⟨fun _ => ⟨started, []⟩, delay, .error (.unavailable reason), [], started⟩
  | some ⟨_, delay, none⟩ =>
    let c := inner started
    { c with
      sofar := fun t => if t < delay then ⟨started, []⟩ else c.sofar (t - delay)
      delay := delay + c.delay }

def metadata (watch : Watch σ) (inner : MetadataBackend σ) : MetadataBackend σ where
  put r := watch.call ("metadata.put " ++ r.id.text) (inner.put r)
  get id := watch.call ("metadata.get " ++ id.text) (inner.get id)

def blobs (watch : Watch σ) (inner : BlobBackend σ) : BlobBackend σ where
  put key content :=
    watch.call ("blobs.put " ++ key.toHex ++ " " ++ toString content.size) (inner.put key content)
  get key := watch.call ("blobs.get " ++ key.toHex) (inner.get key)

end Watch

end PhotoArchive
