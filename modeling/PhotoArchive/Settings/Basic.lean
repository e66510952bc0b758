import PhotoArchive.Duration
import PhotoArchive.Text.Quoted

/-!
# Settings of the interpreter over backends

`LiveConfig`: how long one operation may take, and whether each operation is reported as it starts.
No limit and a limit of zero both mean that an operation may take any time (`op_timeout`).
-/
namespace PhotoArchive

/-- How operations on backends are carried out (`LiveConfig`): the time limit of one operation, in
milliseconds, and whether each operation is reported as it starts. -/
structure Settings where
  timeoutMillis : Option UInt64
  logDispatch : Bool
  deriving DecidableEq, Repr

namespace Settings

/-- Half a minute for each operation, and a report of each. -/
def standard : Settings := ⟨some 30000, true⟩

/-- As the standard settings, but without a time limit. -/
def unbounded : Settings := { standard with timeoutMillis := none }

def limit (s : Settings) : Option Duration :=
  match s.timeoutMillis with
  | none => none
  | some ms => if ms = 0 then none else some (.ofMillis ms.toNat)

def optionForm : Option UInt64 → String
  | none => "None"
  | some n => "Some(" ++ toString n.toNat ++ ")"

def form (s : Settings) : String :=
  Text.labelled "LiveConfig"
    [("op_timeout_ms", optionForm s.timeoutMillis), ("log_dispatch", toString s.logDispatch)]

def timeoutName : String := "op_timeout_ms"

def logName : String := "log_dispatch"

end Settings

end PhotoArchive
