import Mathlib.Logic.Relation
import PhotoArchive.Interpreter.Supplied
import PhotoArchive.Program.Machine
import PhotoArchive.Script.Value
import PhotoArchive.Service
import PhotoArchive.Workflow.Deferred

/-!
# Every step is handed a value that it deals in

The values that a machine hands on carry no types, and neither do the steps on its stack. What
keeps a step from being handed a value of another type is how programs are built: the value below a
step is always of the type that the step deals in, all the way down the stack. Each of the machine's
steps keeps this up, because the answer to an operation is of the type with which the operation was
put into the program.
-/
namespace PhotoArchive

variable {C : Context} {σ O V α β γ : Type}

def IsOf (α : Type) [Carries V α] (v : V) : Prop :=
  ∃ a : α, Carries.wrap a = v

theorem isOf_wrap [Carries V α] (a : α) : IsOf α (Carries.wrap a : V) :=
  ⟨a, rfl⟩

theorem isOf_of_run_wrap [Carries V α] {x : Action C σ α} {w w₁ : World σ} {r : Noted C V}
    (h : (Carries.wrap <$> x : Action C σ V).run w = (.ok r, w₁)) : IsOf α r.value := by
  obtain ⟨a, -, rfl⟩ := Action.exists_of_run_map_ok h
  exact isOf_wrap a.value

/-! ## Unions of operations -/

/-- A union of operations: each of the two kinds any number of times, in any arrangement. -/
inductive OpUnion where
  | metadata
  | blob
  | both (left right : OpUnion)

namespace OpUnion

abbrev Op : OpUnion → Type
  | .metadata => MetadataOp
  | .blob => BlobOp
  | .both left right => left.Op ⊕ right.Op

abbrev photo : OpUnion := .both .metadata .blob

/-- A place at which a union has the operations of another one. -/
inductive Place (part : OpUnion) : OpUnion → Type where
  | itself : Place part part
  | here (rest : OpUnion) : Place part (.both part rest)
  | there {rest : OpUnion} (first : OpUnion) (place : Place part rest) :
    Place part (.both first rest)

/-- A union includes what it has at a place. -/
abbrev Place.includes {part : OpUnion} :
    {whole : OpUnion} → Place part whole → Includes part.Op whole.Op
  | _, .itself => (inferInstance : Includes part.Op part.Op)
  | _, .here rest => (inferInstance : Includes part.Op (part.Op ⊕ rest.Op))
  | _, @there _ rest first place =>
    have := place.includes
    (inferInstance : Includes part.Op (first.Op ⊕ rest.Op))

section Answers

variable [CarriesAnswers V]

/-- Whether a carried value is of the type that the answer to an operation is to have. -/
def Answers : (u : OpUnion) → u.Op → V → Prop
  | .metadata, _ => IsOf MetadataRecord
  | .blob, .generateKey _ => IsOf BlobKey
  | .blob, .writeContent _ _ => IsOf Unit
  | .blob, .readContent _ => IsOf ByteArray
  | .both left _, .inl op => left.Answers op
  | .both _ right, .inr op => right.Answers op

/-- An operation is answered alike wherever it stands in a union. -/
theorem Place.answers_inject {part whole : OpUnion} (place : Place part whole) (op : part.Op) :
    whole.Answers (V := V) (place.includes.inject op) = part.Answers op := by
  induction place with
  | itself => rfl
  | here rest => rfl
  | there first place ih => exact ih

/-- The handlers of a union that services make up: each kind of operations is handled by a service
of its own, and two unions together by the handlers of both. -/
inductive Handles : (u : OpUnion) → Handler C σ u.Op V → Prop where
  | metadata (s : MetadataService C σ) : Handles .metadata s.handler
  | blob (s : BlobService C σ) : Handles .blob s.handler
  | both {left right : OpUnion} {l : Handler C σ left.Op V} {r : Handler C σ right.Op V}
    (hl : Handles left l) (hr : Handles right r) : Handles (.both left right) (l.sum r)

/-- All services together handle the operations on records and those on contents. -/
theorem handles_services (s : Services C σ) :
    photo.Handles (s.handler : Handler C σ PhotoOp V) :=
  .both (.metadata s.metadata) (.blob s.blobs)

/-- Services answer each operation with a value of the type that it is to have. -/
theorem Handles.answers {u : OpUnion} {h : Handler C σ u.Op V} (handles : u.Handles h)
    {op : u.Op} {w w₁ : World σ} {r : Noted C V} (run : (h op).run w = (.ok r, w₁)) :
    u.Answers op r.value := by
  induction handles with
  | metadata s =>
    cases op with
    | insertRecord id key creator => exact isOf_of_run_wrap run
    | getRecord id => exact isOf_of_run_wrap run
  | blob s =>
    cases op with
    | generateKey id => exact isOf_of_run_wrap run
    | writeContent key content => exact isOf_of_run_wrap run
    | readContent key => exact isOf_of_run_wrap run
  | both hl hr ihLeft ihRight =>
    cases op with
    | inl op => exact ihLeft run
    | inr op => exact ihRight run

end Answers

end OpUnion

/-! ## Programs as they can be built -/

namespace Program

/-- How a program goes on from a carried value once it is known how it goes on from a value of the
type that it deals in. -/
def onward [Carries V α] (f : α → Program O V β) (v : V) : Tree O V :=
  match (Carries.unwrap? v : Option α) with
  | some a => (f a).root
  | none => .fault (Carries.typeName V α)

theorem root_bind [Carries V α] (p : Program O V α) (f : α → Program O V β) :
    (p.bind f).root = .bind p.root (onward f) := rfl

@[simp] theorem onward_wrap [Carries V α] (f : α → Program O V β) (a : α) :
    onward f (Carries.wrap a) = (f a).root := by
  simp [onward]

/-- In whichever way trees are carried out, going on from a carried value is looking at it and
going on from what is found, since a fault breaks off as the look does. -/
theorem carry_onward [Carries V α] (carry : Tree O V → Action C σ γ)
    (fault : ∀ expected, carry (.fault expected) = Action.abort (.wrongType expected))
    (f : α → Program O V β) (v : V) :
    carry (onward f v) = Action.unwrap α v >>= fun a => carry (f a).root := by
  unfold onward Action.unwrap
  cases (Carries.unwrap? v : Option α) with
  | some a => exact (pure_bind a fun a => carry (f a).root).symm
  | none => exact fault _

/-- The programs over a union that can be built: from values and the five operations, in sequence
in any of the ways that there are. -/
inductive Built [CarriesAnswers V] {u : OpUnion} :
    {α : Type} → [Carries V α] → Program u.Op V α → Prop where
  | pure {α : Type} [Carries V α] (a : α) : Built (Program.pure a)
  | bind {α β : Type} [Carries V α] [Carries V β] {p : Program u.Op V α}
    {f : α → Program u.Op V β} (hp : Built p) (hf : ∀ a, Built (f a)) : Built (p.bind f)
  | map {α β : Type} [Carries V α] [Carries V β] {p : Program u.Op V α} (hp : Built p)
    (f : α → β) : Built (p.map f)
  | followedBy {α β : Type} [Carries V α] [Carries V β] {p : Program u.Op V α}
    {q : Program u.Op V β} (hp : Built p) (hq : Built q) : Built (p.followedBy q)
  | sequence {α : Type} [Carries V α] [Carries V (List α)] {ps : List (Program u.Op V α)}
    (hps : ∀ p ∈ ps, Built p) : Built (Program.sequence ps)
  | insertRecord (place : OpUnion.Place .metadata u) (id : PhotoId) (key : BlobKey)
    (creator : String) : Built (@Program.insertRecord u.Op V place.includes id key creator)
  | getRecord (place : OpUnion.Place .metadata u) (id : PhotoId) :
    Built (@Program.getRecord u.Op V place.includes id)
  | generateKey (place : OpUnion.Place .blob u) (id : PhotoId) :
    Built (@Program.generateKey u.Op V place.includes id)
  | writeContent (place : OpUnion.Place .blob u) (key : BlobKey) (content : ByteArray) :
    Built (@Program.writeContent u.Op V place.includes key content)
  | readContent (place : OpUnion.Place .blob u) (key : BlobKey) :
    Built (@Program.readContent u.Op V place.includes key)

theorem Built.savePhoto [CarriesAnswers V] {u : OpUnion} (records : OpUnion.Place .metadata u)
    (contents : OpUnion.Place .blob u) (id : PhotoId) (creator : String) (content : ByteArray) :
    Built (@Program.savePhoto u.Op V _ records.includes contents.includes id creator content) :=
  .bind (.generateKey contents id) fun key =>
    .bind (.insertRecord records id key creator) fun _ => .writeContent contents key content

end Program

/-! ## Types of trees and stacks -/

/-- Provided that operations are answered as they are to be, the tree comes to values of the type,
and each of its steps is handed what it deals in. -/
inductive Tree.Typed (answers : O → V → Prop) : (α : Type) → [Carries V α] → Tree O V → Prop where
  | pure {α : Type} [Carries V α] (a : α) : Typed answers α (.pure (Carries.wrap a))
  | perform {α : Type} [Carries V α] {op : O} (h : ∀ v, answers op v → IsOf α v) :
    Typed answers α (.perform op)
  | bind {α β : Type} [Carries V α] [Carries V β] {first : Tree O V} {f : α → Program O V β}
    (hfirst : Typed answers α first) (hnext : ∀ a, Typed answers β (f a).root) :
    Typed answers β (.bind first (Program.onward f))

theorem Tree.Typed.ne_fault {answers : O → V → Prop} [Carries V α] {t : Tree O V}
    (typed : t.Typed answers α) (expected : String) : t ≠ .fault expected := by
  rintro rfl
  cases typed

/-- From values of the one type, the steps of the stack come to values of the other, and each of
them deals in what the step above it comes to. -/
inductive StackTyped (answers : O → V → Prop) (γ : Type) [Carries V γ] :
    (α : Type) → [Carries V α] → List (V → Tree O V) → Prop where
  | nil : StackTyped answers γ γ []
  | cons {α β : Type} [Carries V α] [Carries V β] {f : α → Program O V β}
    {stack : List (V → Tree O V)} (hnext : ∀ a, Tree.Typed answers β (f a).root)
    (hstack : StackTyped answers γ β stack) : StackTyped answers γ α (Program.onward f :: stack)

namespace Program.Built

open PhotoArchive.Tree (Typed)

theorem typed_foldl_appending {answers : O → V → Prop} [Carries V α] [Carries V (List α)]
    (ps : List (Program O V α)) (hps : ∀ p ∈ ps, Typed answers α p.root)
    {before : Program O V (List α)} (hbefore : Typed answers (List α) before.root) :
    Typed answers (List α) (ps.foldl appending before).root := by
  induction ps generalizing before with
  | nil => exact hbefore
  | cons p ps ih =>
    rw [List.forall_mem_cons] at hps
    refine ih hps.2 (.bind hbefore fun values => .bind hps.1 fun a => ?_)
    exact .pure (values ++ [a])

theorem typed_sequence {answers : O → V → Prop} [Carries V α] [Carries V (List α)]
    (ps : List (Program O V α)) (hps : ∀ p ∈ ps, Typed answers α p.root) :
    Typed answers (List α) (Program.sequence ps).root :=
  typed_foldl_appending ps hps (.pure [])

/-- A program that can be built has a type: the one that it is a program for. -/
theorem typed [CarriesAnswers V] [Carries V α] {u : OpUnion} {p : Program u.Op V α}
    (built : p.Built) : Typed u.Answers α p.root := by
  induction built with
  | pure a => exact .pure a
  | bind _ _ ihp ihf =>
    rw [root_bind]
    exact .bind ihp ihf
  | map _ f ih => exact .bind ih fun a => .pure (f a)
  | followedBy _ _ ihp ihq => exact .bind ihp fun _ => ihq
  | sequence _ ih => exact typed_sequence _ ih
  | insertRecord place id key creator =>
    exact .perform fun v hv => by rwa [place.answers_inject] at hv
  | getRecord place id => exact .perform fun v hv => by rwa [place.answers_inject] at hv
  | generateKey place id => exact .perform fun v hv => by rwa [place.answers_inject] at hv
  | writeContent place key content =>
    exact .perform fun v hv => by rwa [place.answers_inject] at hv
  | readContent place key => exact .perform fun v hv => by rwa [place.answers_inject] at hv

end Program.Built

namespace Machine

variable {h : Handler C σ O V} {answers : O → V → Prop}

/-- From values of some type the stack comes to values of the type that is asked for, and the tree
of the machine comes to values of that type. -/
def Typed (answers : O → V → Prop) (γ : Type) [Carries V γ] (m : Machine O V) : Prop :=
  ∃ (α : Type) (_ : Carries V α), m.tree.Typed answers α ∧ StackTyped answers γ α m.stack

/-- What a machine is about to hand on is what is asked for, provided that operations are answered
as they are to be: a step does not fault on the value that it is handed, which is of the type that
the steps of the stack go on from; a value without a step left to take is of the type of the
program; and no step has been handed what it does not deal in. -/
def Fits (answers : O → V → Prop) (γ : Type) [Carries V γ] : Machine O V → Prop
  | ⟨.pure v, [], _⟩ => IsOf γ v
  | ⟨.pure v, next :: stack, _⟩ => (∀ expected, next v ≠ .fault expected) ∧
    ∃ (α : Type) (_ : Carries V α), IsOf α v ∧ StackTyped answers γ α (next :: stack)
  | ⟨.fault _, _, _⟩ => False
  | ⟨.bind _ _, _, _⟩ | ⟨.perform _, _, _⟩ => True

/-- One step of a machine in a world: a value is taken off by the step that waits for it, the
second part of a tree is put on the stack, or an operation is answered. -/
inductive Step (h : Handler C σ O V) : Machine O V × World σ → Machine O V × World σ → Prop where
  | resume (v next stack n w) : Step h (⟨.pure v, next :: stack, n⟩, w) (⟨next v, stack, n⟩, w)
  | enter (first next stack n w) :
    Step h (⟨.bind first next, stack, n⟩, w) (⟨first, next :: stack, n⟩, w)
  | answer {op w r w₁} (stack n) (run : (h op).run w = (.ok r, w₁)) :
    Step h (⟨.perform op, stack, n⟩, w) (⟨.pure r.value, stack, n + 1⟩, w₁)

abbrev Steps (h : Handler C σ O V) := Relation.ReflTransGen (Step h)

/-- A step keeps the types. -/
theorem Step.typed {m m₁ : Machine O V × World σ} {γ : Type} [Carries V γ]
    (answered : ∀ {op w r w₁}, (h op).run w = (.ok r, w₁) → answers op r.value)
    (step : Step h m m₁) (typed : m.1.Typed answers γ) : m₁.1.Typed answers γ := by
  obtain ⟨α, carries, htree, hstack⟩ := typed
  cases step with
  | resume v next stack n w =>
    cases htree with
    | pure a =>
      cases hstack with
      | cons hnext hstack =>
        refine ⟨_, _, ?_, hstack⟩
        rw [Program.onward_wrap]
        exact hnext a
  | enter first next stack n w =>
    cases htree with
    | bind hfirst hnext => exact ⟨_, _, hfirst, .cons hnext hstack⟩
  | answer stack n run =>
    cases htree with
    | perform hop =>
      obtain ⟨a, ha⟩ := hop _ (answered run)
      refine ⟨α, carries, ?_, hstack⟩
      rw [← ha]
      exact .pure a

theorem Steps.typed {m m₁ : Machine O V × World σ} {γ : Type} [Carries V γ]
    (answered : ∀ {op w r w₁}, (h op).run w = (.ok r, w₁) → answers op r.value)
    (steps : Steps h m m₁) (typed : m.1.Typed answers γ) : m₁.1.Typed answers γ := by
  induction steps with
  | refl => exact typed
  | tail _ step ih => exact step.typed answered ih

theorem Typed.fits {m : Machine O V} {γ : Type} [Carries V γ] (typed : m.Typed answers γ) :
    m.Fits answers γ := by
  obtain ⟨tree, stack, n⟩ := m
  obtain ⟨α, _, htree, hstack⟩ := typed
  cases htree with
  | pure a =>
    cases hstack with
    | nil => exact isOf_wrap a
    | cons hnext hstack =>
      refine ⟨?_, α, _, isOf_wrap a, .cons hnext hstack⟩
      rw [Program.onward_wrap]
      exact (hnext a).ne_fault
  | perform hop => trivial
  | bind hfirst hnext => trivial

/-- A run goes on from each step as the run of the machine that the step leads to. -/
theorem Step.run_eq {m m₁ : Machine O V × World σ} (step : Step h m m₁) :
    ∃ note, (m.1.run h).run m.2 =
      (((m₁.1.run h).run m₁.2).1.after note, ((m₁.1.run h).run m₁.2).2) := by
  cases step with
  | resume v next stack n w => exact ⟨C.empty, by rw [run_resume, Outcome.after_empty]⟩
  | enter first next stack n w => exact ⟨C.empty, by rw [run_enter, Outcome.after_empty]⟩
  | answer stack n run => exact ⟨_, by rw [run_perform, Action.run_bind_ok run]⟩

theorem Steps.run_eq {m m₁ : Machine O V × World σ} (steps : Steps h m m₁) :
    ∃ note, (m.1.run h).run m.2 =
      (((m₁.1.run h).run m₁.2).1.after note, ((m₁.1.run h).run m₁.2).2) := by
  induction steps with
  | refl => exact ⟨C.empty, by rw [Outcome.after_empty]⟩
  | tail _ step ih =>
    obtain ⟨note, hrun⟩ := ih
    obtain ⟨later, hstep⟩ := step.run_eq
    exact ⟨C.join note later, by rw [hrun, hstep, Outcome.after_after]⟩

/-- The steps of a machine with types lead to a value without a step left to take, or to an
operation that is not answered. -/
theorem Typed.exists_steps {γ : Type} [Carries V γ]
    (answered : ∀ {op w r w₁}, (h op).run w = (.ok r, w₁) → answers op r.value)
    {m : Machine O V} (typed : m.Typed answers γ) (w : World σ) :
    ∃ (m₁ : Machine O V) (w₁ : World σ), Steps h (m, w) (m₁, w₁) ∧
      ((∃ (a : γ) (n : Nat), m₁ = ⟨.pure (Carries.wrap a), [], n⟩) ∨
        ∃ op stack n s w₂, m₁ = ⟨.perform op, stack, n⟩ ∧ (h op).run w₁ = (.error s, w₂)) := by
  -- each step leaves less to do, and there is a step from every other state that has types
  induction hm : m.left using under_wf.induction generalizing m w with
  | _ left ih =>
    have go {m₁ : Machine O V} {w₁ : World σ} (step : Step h (m, w) (m₁, w₁))
        (less : Under m₁.left left) := ih _ less (step.typed answered typed) w₁ rfl
    obtain ⟨tree, stack, n⟩ := m
    subst hm
    cases tree with
    | pure v =>
      cases stack with
      | nil =>
        obtain ⟨a, rfl⟩ := typed.fits
        exact ⟨_, _, .refl, .inl ⟨a, n, rfl⟩⟩
      | cons next stack =>
        have step : Step h (_, w) _ := .resume v next stack n w
        obtain ⟨m₁, w₁, steps, ends⟩ := go step (.resume v next stack)
        exact ⟨m₁, w₁, .head step steps, ends⟩
    | bind first next =>
      have step : Step h (_, w) _ := .enter first next stack n w
      obtain ⟨m₁, w₁, steps, ends⟩ := go step (.enter first next stack)
      exact ⟨m₁, w₁, .head step steps, ends⟩
    | perform op =>
      rcases run : (h op).run w with ⟨s | r, w₁⟩
      · exact ⟨_, _, .refl, .inr ⟨op, stack, n, s, w₁, rfl, run⟩⟩
      · have step : Step h (_, w) _ := .answer stack n run
        obtain ⟨m₁, w₁, steps, ends⟩ := go step (.answer op r.value stack)
        exact ⟨m₁, w₁, .head step steps, ends⟩
    | fault expected => exact typed.fits.elim

end Machine

namespace Program

abbrev start (p : Program O V α) : Machine O V :=
  ⟨p.root, [], 0⟩

variable [Carries V α] {h : Handler C σ O V} {p : Program O V α} {w w₁ : World σ}

/-- A program whose machine comes to a value yields it. -/
theorem run_execute_of_value {a : α} {n : Nat}
    (steps : Machine.Steps h (p.start, w) (⟨.pure (Carries.wrap a), [], n⟩, w₁)) :
    ∃ note, (p.execute h).run w =
      (.ok ⟨a, note⟩, ⟨w₁.state, w₁.events.push (.finished n)⟩) := by
  obtain ⟨note, hrun⟩ := steps.run_eq
  have last : ((⟨.pure (Carries.wrap a), [], n⟩ : Machine O V).run h).run w₁ =
      (.ok ⟨Carries.wrap a, C.empty⟩, ⟨w₁.state, w₁.events.push (.finished n)⟩) := by
    rw [Machine.run_value, Action.run_bind_ok (by rfl)]
    simp [Outcome.after]
  rw [last] at hrun
  refine ⟨note, (Action.run_bind_ok hrun _).trans ?_⟩
  simp [Action.unwrap, Outcome.after]

/-- A program whose machine comes to an operation that is not answered ends as the operation. -/
theorem run_execute_of_error {op : O} {stack : List (V → Tree O V)} {n : Nat} {s : C.Stop}
    {w₂ : World σ} (steps : Machine.Steps h (p.start, w) (⟨.perform op, stack, n⟩, w₁))
    (run : (h op).run w₁ = (.error s, w₂)) : (p.execute h).run w = (.error s, w₂) := by
  obtain ⟨note, hrun⟩ := steps.run_eq
  rw [Machine.run_perform, Action.run_bind_error run] at hrun
  exact Action.run_bind_error hrun _

end Program

/-- What is said of carrying out a program. Wherever the machine gets to on the way of its run, what
it hands on next is of the type that is asked for. It gets to a value of the type of the program,
which the program yields, or to an operation that is not answered, and the program ends as that
operation. -/
structure Program.KeepsTypes [Carries V α] (p : Program O V α) (answers : O → V → Prop)
    (h : Handler C σ O V) (w : World σ) : Prop where
  fits : ∀ (m : Machine O V) (w₁ : World σ), Machine.Steps h (p.start, w) (m, w₁) →
    m.Fits answers α
  passes : ∀ (m : Machine O V) (w₁ : World σ), Machine.Steps h (p.start, w) (m, w₁) →
    ∃ note, (Machine.run h p.start).run w =
      (((m.run h).run w₁).1.after note, ((m.run h).run w₁).2)
  ends : ∃ (m : Machine O V) (w₁ : World σ), Machine.Steps h (p.start, w) (m, w₁) ∧
    ((∃ (a : α) (n : Nat) (note : C.Note), m = ⟨.pure (Carries.wrap a), [], n⟩ ∧
        (p.execute h).run w = (.ok ⟨a, note⟩, ⟨w₁.state, w₁.events.push (.finished n)⟩)) ∨
      ∃ op stack n s w₂, m = ⟨.perform op, stack, n⟩ ∧
        (h op).run w₁ = (.error s, w₂) ∧ (p.execute h).run w = (.error s, w₂))

/-- A program that can be built, over any union of operations, is carried out by services in any
context and from any world without a step being handed what it does not deal in, and it comes to a
value of its own type if every operation is answered. -/
theorem Program.Built.keepsTypes [CarriesAnswers V] [Carries V α] {u : OpUnion}
    {p : Program u.Op V α} (built : p.Built) {h : Handler C σ u.Op V} (handles : u.Handles h)
    (w : World σ) : p.KeepsTypes u.Answers h w := by
  have typed : p.start.Typed u.Answers α := ⟨α, _, built.typed, .nil⟩
  refine ⟨fun m w₁ steps => ?_, fun m w₁ steps => steps.run_eq, ?_⟩
  · exact (steps.typed handles.answers typed).fits
  · obtain ⟨m, w₁, steps, ⟨a, n, rfl⟩ | ⟨op, stack, n, s, w₂, rfl, run⟩⟩ :=
      typed.exists_steps handles.answers w
    · obtain ⟨note, executed⟩ := run_execute_of_value steps
      exact ⟨_, w₁, steps, .inl ⟨a, n, note, rfl, executed⟩⟩
    · refine ⟨_, w₁, steps, .inr ⟨op, stack, n, s, w₂, rfl, run, ?_⟩⟩
      exact run_execute_of_error steps run

/-- A photo is saved over a union that has the operations on contents twice, first and last. -/
theorem Program.Built.keepsTypes_savePhoto :
    let u : OpUnion := .both .blob (.both .metadata .blob)
    let p : Program u.Op Value Unit := .savePhoto ⟨"p-1"⟩ "Ann" ⟨#[1]⟩
    let s : Services .immediate Supplied := Supplied.services .whole
    let h : Handler .immediate Supplied u.Op Value :=
      s.blobs.handler.sum (s.metadata.handler.sum s.blobs.handler)
    p.Built ∧ u.Handles h ∧ p.KeepsTypes u.Answers h ⟨.ofLists [] [], #[]⟩ := by
  intro u p s h
  have built : p.Built := .savePhoto (.there _ (.here _)) (.there _ (.there _ .itself)) _ _ _
  have handles : u.Handles h := .both (.blob _) (.both (.metadata _) (.blob _))
  exact ⟨built, handles, built.keepsTypes handles _⟩

end PhotoArchive
