import PhotoArchive.Program.Machine
import PhotoArchive.Script.Basic
import PhotoArchive.Workflow.Deferred

/-!
# Scripts as programs

The program that a script stands for, over any operations that include those on records and those
on contents. A script that asks a value for something that it does not have stands for a fault.
-/
namespace PhotoArchive

variable {O : Type} [Includes MetadataOp O] [Includes BlobOp O]

/-- The tree of an operation or a workflow, whose value is carried as it is. -/
def Command.tree : Command Id → Tree O Value
  | .generateKey id => (Program.generateKey id).root
  | .insertRecord id key creator => (Program.insertRecord id key creator).root
  | .getRecord id => (Program.getRecord id).root
  | .writeContent key content => (Program.writeContent key content).root
  | .readContent key => (Program.readContent key).root
  | .savePhoto id creator content => (Program.savePhoto id creator content).root
  | .getPhoto id => (Program.getPhoto id).root
  | .saveThenGetPhoto id creator content => (Program.saveThenGetPhoto id creator content).root
  | .getCreator id => (Program.getCreator id).root
  | .copyContent source target => (Program.copyContent source target).root

def Command.program (c : Command Id) : Program O Value Value :=
  ⟨c.tree⟩

namespace Script

def fault : Program O Value Value :=
  ⟨.fault "operand"⟩

mutual

/-- The program that a script stands for. -/
def program (bs : Bindings) : Script → Program O Value Value
  | .value x =>
    match x.value? bs with
    | some v => .pure v
    | none => fault
  | .command c =>
    match c.read? bs with
    | some d => d.program.map id
    | none => fault
  | .bind first name next => (first.program bs).bind fun v => next.program ((name, v) :: bs)
  | .map first field =>
    (first.program bs).bind fun v =>
      match field.of v with
      | some u => .pure u
      | none => fault
  | .followedBy first next => (first.program bs).followedBy (next.program bs)
  | .ifSame left right yes no =>
    match left.value? bs, right.value? bs with
    | some v, some w => if v.same w then yes.program bs else no.program bs
    | _, _ => fault
  | .sequence parts => (Program.sequence (programs bs parts)).map Value.list
  | .replicate n body => (Program.replicate n (body.program bs)).map Value.list
  | .repeated n body => ((body.program bs).repeated n).map Value.int
  | .countdown n body => ((body.program bs).countdown n).map Value.int

def programs (bs : Bindings) : List Script → List (Program O Value Value)
  | [] => []
  | s :: rest => s.program bs :: programs bs rest

end

/-- What a script is at its root: a single operation or workflow and a sequence as they are, before
their value is taken, and all else as the program that it stands for. -/
def shape (O : Type) [Includes MetadataOp O] [Includes BlobOp O] (s : Script) : Shape :=
  match s with
  | .command c =>
    match c.read? [] with
    | some d => (d.program : Program O Value Value).shape
    | none => .fault
  | .sequence parts => (Program.sequence (programs (O := O) [] parts)).shape
  | s => (s.program [] : Program O Value Value).shape

end Script

end PhotoArchive
