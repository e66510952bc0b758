import PhotoArchive.Duration
import PhotoArchive.Operation
import PhotoArchive.Store.Error

/-!
# Failures of operations

`InterpretError`, why an operation on backends has no answer: its backend failed, or the operation
took longer than it may. Either way the operation is named.
-/
namespace PhotoArchive

inductive OperationError where
  | backend (op : OperationName) (source : StoreError)
  | timeout (op : OperationName) (limit : Duration)
  deriving DecidableEq, Repr

namespace OperationError

def op : OperationError → OperationName
  | .backend op _ => op
  | .timeout op _ => op

/-- The error of the backend behind the failure. -/
def source? : OperationError → Option StoreError
  | .backend _ source => some source
  | .timeout _ _ => none

def message : OperationError → String
  | .backend op source => op.text ++ " failed: " ++ source.message
  | .timeout op limit => op.text ++ " timed out after " ++ limit.text

end OperationError

end PhotoArchive
