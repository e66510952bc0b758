import PhotoArchive.Script.Value

/-!
# Scripts

A first-order language for what can be done with the archive: the five operations, the five
workflows, and ways to put them together. Names stand for the values of earlier parts. A script
says what is to be done, not how it is carried out.
-/
namespace PhotoArchive

/-- The values that names stand for, the innermost first. -/
abbrev Bindings := List (String × Value)

/-- A way to write a value. -/
inductive Operand where
  | literal (v : Value)
  | named (name : String) (field : Option Field)
  | list (items : List Operand)

namespace Operand

mutual

/-- The value of an operand, if all names are bound and their values have the fields. -/
def value? (bs : Bindings) : Operand → Option Value
  | .literal v => some v
  | .named name none => bs.lookup name
  | .named name (some field) => (bs.lookup name).bind field.of
  | .list items => (values? bs items).map Value.list

def values? (bs : Bindings) : List Operand → Option (List Value)
  | [] => some []
  | x :: rest =>
    match x.value? bs, values? bs rest with
    | some v, some vs => some (v :: vs)
    | _, _ => none

end

/-- The value of an operand, if it is of the type that is asked for. -/
def read? (bs : Bindings) (α : Type) [Carries Value α] (x : Operand) : Option α :=
  (x.value? bs).bind Carries.unwrap?

end Operand

/-- An operation or a workflow, with arguments given in some way. -/
inductive Command (Arg : Type → Type) where
  | generateKey (id : Arg PhotoId)
  | insertRecord (id : Arg PhotoId) (key : Arg BlobKey) (creator : Arg String)
  | getRecord (id : Arg PhotoId)
  | writeContent (key : Arg BlobKey) (content : Arg ByteArray)
  | readContent (key : Arg BlobKey)
  | savePhoto (id : Arg PhotoId) (creator : Arg String) (content : Arg ByteArray)
  | getPhoto (id : Arg PhotoId)
  | saveThenGetPhoto (id : Arg PhotoId) (creator : Arg String) (content : Arg ByteArray)
  | getCreator (id : Arg PhotoId)
  | copyContent (source target : Arg BlobKey)

/-- Arguments that are still to be looked up. -/
abbrev Unread (_ : Type) : Type := Operand

/-- Looks the arguments up. -/
def Command.read? (bs : Bindings) : Command Unread → Option (Command Id)
  | .generateKey id => do return .generateKey (← id.read? bs PhotoId)
  | .insertRecord id key creator => do
    return .insertRecord (← id.read? bs PhotoId) (← key.read? bs BlobKey)
      (← creator.read? bs String)
  | .getRecord id => do return .getRecord (← id.read? bs PhotoId)
  | .writeContent key content => do
    return .writeContent (← key.read? bs BlobKey) (← content.read? bs ByteArray)
  | .readContent key => do return .readContent (← key.read? bs BlobKey)
  | .savePhoto id creator content => do
    return .savePhoto (← id.read? bs PhotoId) (← creator.read? bs String)
      (← content.read? bs ByteArray)
  | .getPhoto id => do return .getPhoto (← id.read? bs PhotoId)
  | .saveThenGetPhoto id creator content => do
    return .saveThenGetPhoto (← id.read? bs PhotoId) (← creator.read? bs String)
      (← content.read? bs ByteArray)
  | .getCreator id => do return .getCreator (← id.read? bs PhotoId)
  | .copyContent source target => do
    return .copyContent (← source.read? bs BlobKey) (← target.read? bs BlobKey)

inductive Script where
  | value (x : Operand)
  | command (c : Command Unread)
  | bind (first : Script) (name : String) (next : Script)
  | map (first : Script) (field : Field)
  | followedBy (first next : Script)
  | ifSame (left right : Operand) (yes no : Script)
  | sequence (parts : List Script)
  | replicate (n : Nat) (body : Script)
  | repeated (n : Nat) (body : Script)
  | countdown (n : Nat) (body : Script)

end PhotoArchive
