import PhotoArchive.Service

/-!
# What is observed of a run

Of a run one sees what it came to, the state that it left, the events that it reported, and the
operations that were handed over on the way, in order and with their arguments. The operations are
written down behind the state as they are carried out, which changes nothing else.
-/
namespace PhotoArchive

variable {C : Context} {σ O α β V : Type}

def Context.joinAll (C : Context) (notes : List C.Note) : C.Note :=
  notes.foldr C.join C.empty

@[simp] theorem Context.joinAll_nil : C.joinAll [] = C.empty := rfl

@[simp] theorem Context.joinAll_cons (n : C.Note) (notes : List C.Note) :
    C.joinAll (n :: notes) = C.join n (C.joinAll notes) := rfl

theorem Context.joinAll_concat (notes : List C.Note) (n : C.Note) :
    C.joinAll (notes ++ [n]) = C.join (C.joinAll notes) n := by
  induction notes with
  | nil => simp
  | cons m notes ih => rw [List.cons_append, joinAll_cons, joinAll_cons, ih, C.join_assoc]

/-- The lines of several traces in order. -/
theorem Context.toList_joinAll (traces : List Trace) :
    (traced.joinAll traces).toList = traces.flatMap Trace.toList := by
  induction traces with
  | nil => rfl
  | cons t traces ih =>
    rw [List.flatMap_cons, ← ih]
    exact Trace.toList_append t (traced.joinAll traces)

/-- The world with a list of operations behind its state. -/
def World.withLog (w : World σ) (log : List O) : World (σ × List O) :=
  ⟨(w.state, log), w.events⟩

structure Observation (C : Context) (σ O α : Type) where
  outcome : Outcome C α
  state : σ
  operations : List O
  events : Array Event

/-- What is observed apart from the operations. -/
def Observation.plain (o : Observation C σ O α) : Outcome C α × World σ :=
  (o.outcome, ⟨o.state, o.events⟩)

namespace Action

/-- The carrying out of an operation, which is written down. -/
def recorded (op : O) (x : Action C σ α) : Action C (σ × List O) α :=
  ⟨fun w =>
    let r := x.run ⟨w.state.1, w.events⟩
    (r.1, r.2.withLog (w.state.2 ++ [op]))⟩

/-- Observes an action that writes operations down, from a world where there are none. -/
def observe (x : Action C (σ × List O) α) (w : World σ) : Observation C σ O α :=
  let r := x.run (w.withLog [])
  ⟨r.1, r.2.state.1, r.2.state.2, r.2.events⟩

@[simp] theorem run_recorded (op : O) (x : Action C σ α) (w : World σ) (log : List O) :
    (x.recorded op).run (w.withLog log) =
      ((x.run w).1, (x.run w).2.withLog (log ++ [op])) := rfl

theorem recorded_map (op : O) (f : α → β) (x : Action C σ α) :
    (f <$> x).recorded op = f <$> x.recorded op := by
  ext w : 2
  match h : x.run ⟨w.state.1, w.events⟩ with
  | (.error s, w₁) =>
    have hx : (x.recorded op).run w = (.error s, w₁.withLog (w.state.2 ++ [op])) := by
      simp only [recorded, h]
    rw [run_map_error hx]
    simp only [recorded, run_map_error h]
  | (.ok r, w₁) =>
    have hx : (x.recorded op).run w = (.ok r, w₁.withLog (w.state.2 ++ [op])) := by
      simp only [recorded, h]
    rw [run_map_ok hx]
    simp only [recorded, run_map_ok h]

end Action

def Handler.recorded (h : Handler C σ O V) : Handler C (σ × List O) O V :=
  fun op => (h op).recorded op

def Services.recorded (s : Services C σ) : Services C (σ × List PhotoOp) where
  metadata := {
    insertRecord := fun id key creator =>
      (s.metadata.insertRecord id key creator).recorded (.inl (.insertRecord id key creator))
    getRecord := fun id => (s.metadata.getRecord id).recorded (.inl (.getRecord id)) }
  blobs := {
    generateKey := fun id => (s.blobs.generateKey id).recorded (.inr (.generateKey id))
    writeContent := fun key content =>
      (s.blobs.writeContent key content).recorded (.inr (.writeContent key content))
    readContent := fun key => (s.blobs.readContent key).recorded (.inr (.readContent key)) }

/-- Services that write down what they carry out handle what they are handed and write it down. -/
theorem Services.handler_recorded [CarriesAnswers V] (s : Services C σ) :
    s.recorded.handler = (s.handler : Handler C σ PhotoOp V).recorded := by
  funext op
  rcases op with (⟨_, _, _⟩ | _) | (_ | ⟨_, _⟩ | _) <;>
    exact (Action.recorded_map _ _ _).symm

end PhotoArchive
