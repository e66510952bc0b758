import PhotoArchive.Action.Eff

/-!
# Chains of actions

Links that are put together by `map` and `and_then`, each starting from the value of the one before.
A chain can be put together from the left, each link after all that precede it, or from the right,
each link before all that follow it. What is put together are actions, or computations as the
context represents them.
-/
namespace PhotoArchive

/-- One link of a chain: another value in place of the value (`map`), or the action that the value
leads to (`and_then`). -/
inductive Link (C : Context) (σ α β : Type) where
  | map (f : α → β)
  | andThen (f : α → Action C σ β)

/-- Links that follow one another, each from a value of the type that the one before it gives. -/
inductive Chain (C : Context) (σ : Type) : Type → Type → Type 1 where
  | nil {α : Type} : Chain C σ α α
  | cons {α β γ : Type} (link : Link C σ α β) (rest : Chain C σ β γ) : Chain C σ α γ

variable {C : Context} {σ : Type}

namespace Link

variable {α β : Type}

def after (x : Action C σ α) : Link C σ α β → Action C σ β
  | .map f => f <$> x
  | .andThen f => x >>= f

/-- The link after a described computation. What is seen of its callback is seen as it is called. -/
def describe (called : σ → σ) (link : Link C σ α β) (x : Eff C σ α) :
    World σ → Eff C σ β × World σ :=
  match link with
  | .map f => x.bind fun a w => (Eff.pure (f a), ⟨called w.state, w.events⟩)
  | .andThen f => x.bind fun a w => (f a).start ⟨called w.state, w.events⟩

end Link

namespace Chain

def fromLeft {α β : Type} : Chain C σ α β → Action C σ α → Action C σ β
  | .nil, x => x
  | .cons link rest, x => rest.fromLeft (link.after x)

def fromRight {α β : Type} : Chain C σ α β → α → Action C σ β
  | .nil, a => pure a
  | .cons link rest, a => link.after (pure a) >>= fun b => rest.fromRight b

/-- Describes the chain from the left, after a described computation, with the links counted. -/
def describeLeft (called : Nat → σ → σ) {α β : Type} :
    Nat → Chain C σ α β → Eff C σ α → World σ → Eff C σ β × World σ
  | _, .nil, x, w => (x, w)
  | k, .cons link rest, x, w =>
    let p := link.describe (called k) x w
    rest.describeLeft called (k + 1) p.1 p.2

/-- Describes the chain from the right, from a value, with the links counted. -/
def describeRight (called : Nat → σ → σ) {α β : Type} :
    Nat → Chain C σ α β → α → World σ → Eff C σ β × World σ
  | _, .nil, a, w => (Eff.pure a, w)
  | k, .cons link rest, a, w =>
    let p := link.describe (called k) (Eff.pure a) w
    p.1.bind (fun b => rest.describeRight called (k + 1) b) p.2

/-- Describes the chain from a value in either nesting. -/
def describe (called : Nat → σ → σ) (leftNested : Bool) {α β : Type} (chain : Chain C σ α β)
    (a : α) : World σ → Eff C σ β × World σ :=
  if leftNested then chain.describeLeft called 0 (Eff.pure a) else chain.describeRight called 0 a

def ofList {α : Type} : List (Link C σ α α) → Chain C σ α α
  | [] => .nil
  | link :: rest => .cons link (ofList rest)

end Chain

end PhotoArchive
