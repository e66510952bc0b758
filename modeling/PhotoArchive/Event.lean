import PhotoArchive.Duration
import PhotoArchive.Operation
import PhotoArchive.Store.Error

/-!
# Events

What stores, interpreters and runs report about themselves while they work (the `tracing` events),
and the line that each event is reported as. Stores report only what they take in.
-/
namespace PhotoArchive

inductive StoreEvent where
  | recordPut (id : PhotoId)
  | blobPut (key : BlobKey) (length : Nat)
  deriving DecidableEq, Repr

inductive Event where
  | stored (event : StoreEvent)
  | dispatching (op : OperationName)
  | timedOut (op : OperationName) (limit : Duration)
  | callFailed (op : OperationName) (error : StoreError)
  | finished (dispatched : Nat)
  deriving DecidableEq, Repr

def StoreEvent.text : StoreEvent → String
  | .recordPut id => "TRACE metadata put id=" ++ id.text
  | .blobPut key length => "TRACE blob put key=" ++ key.shortHex ++ " len=" ++ toString length

/-- The line of an event: its level, what happened, and the particulars. -/
def Event.text : Event → String
  | .stored event => event.text
  | .dispatching op => "DEBUG dispatching op=" ++ op.text
  | .timedOut op limit => "WARN operation timed out op=" ++ op.text ++ " limit=" ++ limit.text
  | .callFailed op error =>
    "WARN backend call failed op=" ++ op.text ++ " error=" ++ error.message
  | .finished n => "DEBUG program finished dispatched=" ++ toString n

end PhotoArchive
