import PhotoArchive.Action.Basic
import PhotoArchive.Program.Basic

/-!
# The meaning of programs

What a program means once it is known what its operations mean (`Handler`): a tree means what its
parts mean, put in sequence. This is the plainest account of a program. It carries out nothing by
itself and says nothing about how much room it takes to follow a deep tree. A value of another type
than the one that is asked for is where `downcast` breaks off.
-/
namespace PhotoArchive

/-- What the operations `O` mean in a context, with their answers carried as values. -/
abbrev Handler (C : Context) (σ O V : Type) := O → Action C σ V

namespace Handler

variable {C : Context} {σ L R V : Type}

def sum (left : Handler C σ L V) (right : Handler C σ R V) : Handler C σ (L ⊕ R) V :=
  Sum.elim left right

@[simp] theorem sum_inl (left : Handler C σ L V) (right : Handler C σ R V) (op : L) :
    left.sum right (.inl op) = left op := rfl

@[simp] theorem sum_inr (left : Handler C σ L V) (right : Handler C σ R V) (op : R) :
    left.sum right (.inr op) = right op := rfl

end Handler

variable {C : Context} {σ O V α : Type}

def Tree.meaning (h : Handler C σ O V) : Tree O V → Action C σ V
  | .pure v => Pure.pure v
  | .perform op => h op
  | .bind first next => first.meaning h >>= fun v => (next v).meaning h
  | .fault expected => .abort (.wrongType expected)

/-- The value that is carried, which has to be of the type that is asked for. -/
def Action.unwrap (α : Type) [Carries V α] (v : V) : Action C σ α :=
  match (Carries.unwrap? v : Option α) with
  | some a => pure a
  | none => .abort (.wrongType (Carries.typeName V α))

/-- The meaning of a program. -/
def Program.meaning [Carries V α] (h : Handler C σ O V) (p : Program O V α) : Action C σ α :=
  p.root.meaning h >>= Action.unwrap α

end PhotoArchive
