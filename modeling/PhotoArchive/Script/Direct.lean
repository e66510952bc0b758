import PhotoArchive.Action.Loop
import PhotoArchive.Script.Basic
import PhotoArchive.Workflow.Direct

/-!
# Scripts on services

The action that a script stands for on services. A script that asks a value for something that it
does not have is broken off.
-/
namespace PhotoArchive

variable {C : Context} {σ : Type}

def Command.action (s : Services C σ) : Command Id → Action C σ Value
  | .generateKey id => Value.key <$> s.blobs.generateKey id
  | .insertRecord id key creator => Value.record <$> s.metadata.insertRecord id key creator
  | .getRecord id => Value.record <$> s.metadata.getRecord id
  | .writeContent key content => (fun _ => Value.unit) <$> s.blobs.writeContent key content
  | .readContent key => Value.bytes <$> s.blobs.readContent key
  | .savePhoto id creator content => (fun _ => Value.unit) <$> s.savePhoto id creator content
  | .getPhoto id => Value.photo <$> s.getPhoto id
  | .saveThenGetPhoto id creator content => Value.photo <$> s.saveThenGetPhoto id creator content
  | .getCreator id => Value.text <$> s.metadata.getCreator id
  | .copyContent source target => (fun _ => Value.unit) <$> s.blobs.copyContent source target

namespace Script

mutual

/-- The action that a script stands for. -/
def action (s : Services C σ) (bs : Bindings) : Script → Action C σ Value
  | .value x =>
    match x.value? bs with
    | some v => pure v
    | none => .abort (.wrongType "operand")
  | .command c =>
    match c.read? bs with
    | some d => d.action s
    | none => .abort (.wrongType "operand")
  | .bind first name next => do
    let v ← first.action s bs
    next.action s ((name, v) :: bs)
  | .map first field => do
    let v ← first.action s bs
    match field.of v with
    | some u => pure u
    | none => .abort (.wrongType "operand")
  | .followedBy first next => do
    let _ ← first.action s bs
    next.action s bs
  | .ifSame left right yes no =>
    match left.value? bs, right.value? bs with
    | some v, some w => if v.same w then yes.action s bs else no.action s bs
    | _, _ => .abort (.wrongType "operand")
  | .sequence parts => Value.list <$> Action.collect (actions s bs parts)
  | .replicate n body => Value.list <$> Action.collect (List.replicate n (body.action s bs))
  | .repeated n body | .countdown n body =>
    (fun k => Value.int (.ofNat k)) <$> Action.times n (body.action s bs)

def actions (s : Services C σ) (bs : Bindings) : List Script → List (Action C σ Value)
  | [] => []
  | part :: rest => part.action s bs :: actions s bs rest

end

end Script

end PhotoArchive
