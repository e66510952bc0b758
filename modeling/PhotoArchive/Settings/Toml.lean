import PhotoArchive.Mismatch
import PhotoArchive.Settings.Basic
import PhotoArchive.Toml.Document

/-!
# Settings in TOML

`LiveConfig` is a document with an entry for each part, that of the time limit left out when there
is none. It is read by `from_toml_str`: entries that are left out stand for the standard values, and
others are ignored. The whole text has to be TOML before any entry counts; then the first entry of
the wrong kind decides. TOML has whole numbers of 64 bits with a sign, so a greater time limit
cannot be written.
-/
namespace PhotoArchive.Settings

open PhotoArchive.Toml (Item Entries)

inductive TomlFault where
  | notToml
  | mismatch (cause : Mismatch)
  deriving DecidableEq, Repr

/-- The style of numbers with a fraction in messages about TOML: never with an exponent, and with
the greater one of two last digits that are equally near. -/
def tomlStyle : Number.DecimalStyle := ⟨none, .up⟩

/-- What an item is for a reader that wants something else. -/
def found : Item → Found
  | .text s => .text s
  | .integer n => .integer n
  | .float x => .float x
  | .boolean b => .boolean b
  | .moment => .map
  | .array _ => .sequence
  | .table _ _ => .map
  | .tables _ => .sequence

def wordItem : Item → Except Mismatch UInt64
  | .integer n => if 0 ≤ n then .ok n.toNat.toUInt64 else .error (.outOfRange n .word)
  | item => .error (.wrongKind (found item) .word)

def booleanItem : Item → Except Mismatch Bool
  | .boolean b => .ok b
  | item => .error (.wrongKind (found item) .boolean)

/-- Replaces the parts of the settings that entries name, one entry after another. -/
def withEntries (s : Settings) : Entries → Except Mismatch Settings
  | [] => .ok s
  | (name, item) :: rest =>
    if name = timeoutName then
      match wordItem item with
      | .ok n => withEntries { s with timeoutMillis := some n } rest
      | .error m => .error m
    else if name = logName then
      match booleanItem item with
      | .ok b => withEntries { s with logDispatch := b } rest
      | .error m => .error m
    else withEntries s rest

/-- The settings that a TOML text denotes. -/
def ofToml (s : String) : Except TomlFault Settings :=
  match Toml.parse? s with
  | none => .error .notToml
  | some es =>
    match standard.withEntries es with
    | .ok s => .ok s
    | .error m => .error (.mismatch m)

def entryLine (name value : String) : String :=
  name ++ " = " ++ value ++ "\n"

/-- The TOML text of the settings, unless their time limit is beyond TOML. -/
def toToml? (s : Settings) : Option String :=
  let log := entryLine logName (toString s.logDispatch)
  match s.timeoutMillis with
  | none => some log
  | some n =>
    if n.toNat < Number.signedCount then some (entryLine timeoutName (toString n.toNat) ++ log)
    else none

end PhotoArchive.Settings
