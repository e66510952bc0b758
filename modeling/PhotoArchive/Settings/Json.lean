import PhotoArchive.Json.Reader
import PhotoArchive.Settings.Basic

/-!
# Settings in JSON

`LiveConfig` is an object of its two parts, the time limit `null` when there is none. Parts that are
left out have their standard values, also at the end of the array form; other members are skipped.
-/
namespace PhotoArchive.Settings

open PhotoArchive.Json (Reader Body Members)

def toJson (s : Settings) : Json :=
  .object
    [(timeoutName,
        match s.timeoutMillis with
        | none => .null
        | some n => .integer n.toNat),
      (logName, .boolean s.logDispatch)]

structure Parts where
  timeoutMillis : Option (Option UInt64)
  logDispatch : Option Bool

namespace Parts

def none : Parts := ⟨.none, .none⟩

/-- The settings of the parts, those that are missing as in the standard settings. -/
def settings (p : Parts) : Settings :=
  ⟨p.timeoutMillis.getD standard.timeoutMillis, p.logDispatch.getD standard.logDispatch⟩

/-- What a member of an object adds to the parts. -/
def member : Members Parts := fun parts name =>
  if name = timeoutName then
    if parts.timeoutMillis.isSome then .error (.duplicate name)
    else .ok ((Reader.optional .word).map fun n => { parts with timeoutMillis := some n })
  else if name = logName then
    if parts.logDispatch.isSome then .error (.duplicate name)
    else .ok (Reader.boolean.map fun b => { parts with logDispatch := some b })
  else .ok (Reader.skip.map fun _ => parts)

end Parts

def elements : Body Settings :=
  (Body.element 0 (Reader.optional .word)).bind fun n =>
    (Body.element 1 Reader.boolean).map fun b =>
      Parts.settings ⟨n, b⟩

def members : Body Settings :=
  (Body.members Parts.member .none).map Parts.settings

def reader : Reader Settings :=
  Reader.structured .settings elements members

/-- The settings that a JSON text denotes. -/
def ofJson (s : String) : Except Json.Fault Settings :=
  reader.parse s

end PhotoArchive.Settings
