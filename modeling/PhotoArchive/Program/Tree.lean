/-!
# Program trees

`Node`, what a program is before it is carried out: a value, an operation to be carried out, or a
first part and a way to go on from its value (`Cont`). All values in a tree have one type (`Value`),
which carries the types that the steps deal in. A step that is handed a value of a type that it does
not deal in is a fault.
-/
namespace PhotoArchive

/-- Values of the type `α` can be carried as values of the type `V` (`erase`), and looked at again
(`downcast`). The name of the type is for messages. -/
class Carries (V α : Type) where
  typeName : String
  wrap : α → V
  unwrap? : V → Option α
  unwrap?_wrap : ∀ a, unwrap? (wrap a) = some a

attribute [simp] Carries.unwrap?_wrap

/-- Every type carries itself, so that its name is never asked for. -/
instance (V : Type) : Carries V V := ⟨"", id, some, fun _ => rfl⟩

/-- A program over the operations `O` in which the values `V` are handed on (`Node`). A fault is a
step that was handed a value of another type than the one that it expected. -/
inductive Tree (O V : Type) where
  | pure (value : V)
  | perform (op : O)
  | bind (first : Tree O V) (next : V → Tree O V)
  | fault (expected : String)

/-- What a tree is at its root. -/
inductive Shape where
  | pure
  | suspend
  | bind
  | fault
  deriving DecidableEq, Repr

def Shape.text : Shape → String
  | .pure => "pure"
  | .suspend => "suspend"
  | .bind => "bind"
  | .fault => "fault"

namespace Tree

variable {O P V : Type}

def shape : Tree O V → Shape
  | .pure _ => .pure
  | .perform _ => .suspend
  | .bind _ _ => .bind
  | .fault _ => .fault

/-- The same program over fewer operations, in which every other operation is a fault. -/
def narrow (part : O → Option P) : Tree O V → Tree P V
  | .pure v => .pure v
  | .perform op => match part op with
    | some p => .perform p
    | none => .fault "operation"
  | .bind first next => .bind (first.narrow part) fun v => (next v).narrow part
  | .fault expected => .fault expected

end Tree

end PhotoArchive
