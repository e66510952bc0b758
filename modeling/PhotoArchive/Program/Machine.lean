import PhotoArchive.Action.Loop
import PhotoArchive.Program.Meaning

/-!
# Carrying out programs

`interpret` carries a program out by a machine (`Machine`), which walks over the tree of the program
with a stack of what is still to go on with, so that trees of any depth are carried out in constant
room. The machine takes the steps that carry out nothing until it comes to an operation or to the
value of the program, which is the loop inside `advance`. Each round of the outer loop, a
`tail_rec`, then hands one operation to a handler and counts it, and the last round reports the
count. Every round leaves less to do, so the machine stops.
-/
namespace PhotoArchive

/-- The tree that is next, what then goes on from its value, and the operations so far. -/
structure Machine (O V : Type) where
  tree : Tree O V
  stack : List (V → Tree O V)
  dispatched : Nat

variable {C : Context} {σ O V α : Type}

namespace Machine

/-- What may be left to do one round later: the first part of a tree, with its second part on the
stack; what goes on from a value; the answer to an operation. -/
inductive Under : Tree O V × List (V → Tree O V) → Tree O V × List (V → Tree O V) → Prop where
  | enter (first next stack) : Under (first, next :: stack) (.bind first next, stack)
  | resume (v next stack) : Under (next v, stack) (.pure v, next :: stack)
  | answer (op v stack) : Under (.pure v, stack) (.perform op, stack)

/-- From a stack that is finished from every value, every tree is. -/
theorem under_tree {stack : List (V → Tree O V)}
    (h : ∀ v, Acc Under ((Tree.pure v : Tree O V), stack)) (tree : Tree O V) :
    Acc Under (tree, stack) := by
  induction tree generalizing stack with
  | pure v => exact h v
  | perform op => exact ⟨_, by rintro _ ⟨⟩; exact h _⟩
  | bind first next ihFirst ihNext =>
    refine ⟨_, ?_⟩
    rintro _ ⟨⟩
    exact ihFirst fun v => ⟨_, by rintro _ ⟨⟩; exact ihNext v h⟩
  | fault expected => exact ⟨_, by rintro _ ⟨⟩⟩

/-- Less and less cannot be left to do forever. -/
theorem under_wf : WellFounded (Under (O := O) (V := V)) := by
  refine ⟨fun ⟨tree, stack⟩ => under_tree (fun v => ?_) tree⟩
  induction stack generalizing v with
  | nil => exact ⟨_, by rintro _ ⟨⟩⟩
  | cons next stack ih => exact ⟨_, by rintro _ ⟨⟩; exact under_tree ih (next v)⟩

def left (m : Machine O V) : Tree O V × List (V → Tree O V) :=
  (m.tree, m.stack)

instance : WellFoundedRelation (Machine O V) :=
  ⟨InvImage Under left, InvImage.wf left under_wf⟩

/-- What a machine comes to by the steps that carry out nothing: the value of the program, after so
many operations; an operation, and what goes on from its answer; or a step that was handed a value
of another type than the one that it expected. -/
inductive Settled (O V : Type) where
  | value (v : V) (dispatched : Nat)
  | operation (op : O) (stack : List (V → Tree O V)) (dispatched : Nat)
  | fault (expected : String)

/-- Takes the steps that carry out nothing. -/
def settle : Machine O V → Settled O V
  | ⟨.pure v, [], n⟩ => .value v n
  | ⟨.pure v, next :: stack, n⟩ => settle ⟨next v, stack, n⟩
  | ⟨.bind first next, stack, n⟩ => settle ⟨first, next :: stack, n⟩
  | ⟨.perform op, stack, n⟩ => .operation op stack n
  | ⟨.fault expected, _, _⟩ => .fault expected
termination_by m => m
decreasing_by
  · exact .resume _ _ _
  · exact .enter _ _ _

/-- Once an operation is answered, less is left to do than before the steps that led to it. -/
theorem under_of_settle {m : Machine O V} {op : O} {stack : List (V → Tree O V)} {n : Nat}
    (h : m.settle = .operation op stack n) (v : V) :
    Relation.TransGen Under (.pure v, stack) m.left := by
  fun_induction settle m with
  | case1 v n => cases h
  | case2 u next stack' n ih => exact (ih h).tail (.resume u next stack')
  | case3 first next stack' n ih => exact (ih h).tail (.enter first next stack')
  | case4 op stack n =>
    cases h
    exact .single (.answer op v stack)
  | case5 expected stack n => cases h

/-- A state of a machine from which less is left to do than from another one. -/
abbrev Later (t m : Machine O V) : Prop :=
  InvImage (Relation.TransGen Under) left t m

theorem later_wf : WellFounded (Later (O := O) (V := V)) :=
  InvImage.wf left under_wf.transGen

/-- One round of the machine. -/
def round (h : Handler C σ O V) (m : Machine O V) :
    Action C σ (Turn {t : Machine O V // Later t m} V) :=
  match hm : m.settle with
  | .value v n => do
    Action.emit (.finished n)
    pure (.done v)
  | .operation op stack n =>
    (fun v => .again ⟨⟨.pure v, stack, n + 1⟩, under_of_settle hm v⟩) <$> h op
  | .fault expected => Action.abort (.wrongType expected)

def run (h : Handler C σ O V) (m : Machine O V) : Action C σ V :=
  Action.descend later_wf (round h) m

/-- A run goes by what the machine settles to: it ends there, or it hands over an operation and
goes on from the answer. -/
theorem run_eq_settle (h : Handler C σ O V) (m : Machine O V) :
    run h m =
      match m.settle with
      | .value v n => Action.emit (.finished n) >>= fun _ => pure v
      | .operation op stack n => h op >>= fun v => run h ⟨.pure v, stack, n + 1⟩
      | .fault expected => Action.abort (.wrongType expected) := by
  rw [run, Action.descend_eq, round]
  split <;> rename_i hm <;> simp [hm, run, Action.abort_bind]

theorem run_value (h : Handler C σ O V) (v : V) (n : Nat) :
    run h ⟨.pure v, [], n⟩ = Action.emit (.finished n) >>= fun _ => pure v := by
  rw [run_eq_settle, settle]

theorem run_resume (h : Handler C σ O V) (v : V) (next : V → Tree O V)
    (stack : List (V → Tree O V)) (n : Nat) :
    run h ⟨.pure v, next :: stack, n⟩ = run h ⟨next v, stack, n⟩ := by
  rw [run_eq_settle, settle, ← run_eq_settle]

theorem run_enter (h : Handler C σ O V) (first : Tree O V) (next : V → Tree O V)
    (stack : List (V → Tree O V)) (n : Nat) :
    run h ⟨.bind first next, stack, n⟩ = run h ⟨first, next :: stack, n⟩ := by
  rw [run_eq_settle, settle, ← run_eq_settle]

theorem run_perform (h : Handler C σ O V) (op : O) (stack : List (V → Tree O V)) (n : Nat) :
    run h ⟨.perform op, stack, n⟩ = h op >>= fun v => run h ⟨.pure v, stack, n + 1⟩ := by
  rw [run_eq_settle, settle]

theorem run_fault (h : Handler C σ O V) (expected : String) (stack : List (V → Tree O V))
    (n : Nat) : run h ⟨.fault expected, stack, n⟩ = Action.abort (.wrongType expected) := by
  rw [run_eq_settle, settle]

end Machine

/-- Carries out a program, reporting at the end how many operations there were. -/
def Program.execute [Carries V α] (h : Handler C σ O V) (p : Program O V α) : Action C σ α :=
  Machine.run h ⟨p.root, [], 0⟩ >>= Action.unwrap α

end PhotoArchive
