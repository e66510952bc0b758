import PhotoArchive.Interpreter.Narrated
import PhotoArchive.Interpreter.Supplied
import PhotoArchive.Proofs.Machine
import PhotoArchive.Proofs.Procedure
import PhotoArchive.Proofs.Typing

/-!
# What a trace tells of the operations

Each operation leaves a line in the trace of a run, and the line tells which of the five operations
it is and which photo or which content it is about. The lines of two operations are apart before
any text that a caller chooses comes into them, so an identifier cannot pass one operation off as
another. What is handed to an operation beside that, a creator, a content or the key that a record
is filed with, is not told.
-/
namespace PhotoArchive

variable {σ O V α β : Type}

/-! ## What a line tells -/

inductive Subject where
  | photo (id : PhotoId)
  | content (key : BlobKey)
  deriving DecidableEq

/-- What the end of a line says of the subject. -/
def Subject.text : Subject → String
  | .photo id => id.text
  | .content key => key.toHex

def Subject.isPhoto : Subject → Bool
  | .photo _ => true
  | .content _ => false

def OperationName.onPhoto : OperationName → Bool
  | .insertRecord | .getRecord | .generateKey => true
  | .writeContent | .readContent => false

/-- The photo that an operation is about, or the content. Filing a record is about the photo. -/
def PhotoOp.subject : PhotoOp → Subject
  | .inl (.insertRecord id _ _) => .photo id
  | .inl (.getRecord id) => .photo id
  | .inr (.generateKey id) => .photo id
  | .inr (.writeContent key _) => .content key
  | .inr (.readContent key) => .content key

def OperationName.opening : OperationName → String
  | .insertRecord => "Insert metadata record with ID "
  | .getRecord => "Get metadata record with ID "
  | .generateKey => "Generate key for ID "
  | .writeContent => "Write content with key "
  | .readContent => "Get content with key "

theorem PhotoOp.describe_eq (op : PhotoOp) :
    op.describe = op.name.opening ++ op.subject.text := by
  rcases op with (⟨id, key, creator⟩ | id) | (id | ⟨key, content⟩ | key) <;> rfl

/-- Five characters of a line are enough to know the operation. -/
theorem OperationName.eq_of_take_opening {a b : OperationName}
    (h : a.opening.toList.take 5 = b.opening.toList.take 5) : a = b := by
  revert h
  cases a <;> cases b <;> decide

theorem OperationName.opening_append_inj {a b : OperationName} {s t : String} :
    a.opening ++ s = b.opening ++ t ↔ a = b ∧ s = t := by
  constructor
  · intro h
    have long (name : OperationName) : 5 ≤ name.opening.toList.length := by
      cases name <;> decide
    have chars : a.opening.toList ++ s.toList = b.opening.toList ++ t.toList := by
      rw [← String.toList_append, h, String.toList_append]
    have start := congrArg (List.take 5) chars
    rw [List.take_append_of_le_length (long a), List.take_append_of_le_length (long b)] at start
    obtain rfl := eq_of_take_opening start
    exact ⟨rfl, String.toList_injective (List.append_cancel_left chars)⟩
  · rintro ⟨rfl, rfl⟩
    rfl

/-- An identifier is its text, and a key has digits of its own. -/
theorem Subject.eq_of_text {s s' : Subject} (kind : s.isPhoto = s'.isPhoto)
    (text : s.text = s'.text) : s = s' := by
  cases s with
  | photo id =>
    cases s' with
    | photo id' => exact congrArg (fun text => photo ⟨text⟩) text
    | content key' => cases kind
  | content key =>
    cases s' with
    | photo id' => cases kind
    | content key' => exact congrArg content (BlobKey.toHex_injective text)

theorem PhotoOp.isPhoto_subject (op : PhotoOp) : op.subject.isPhoto = op.name.onPhoto := by
  rcases op with (⟨id, key, creator⟩ | id) | (id | ⟨key, content⟩ | key) <;> rfl

/-- Operations that have the same name are about photos both or about contents both. -/
theorem PhotoOp.subject_text_inj {a b : PhotoOp} (h : a.name = b.name) :
    a.subject.text = b.subject.text ↔ a.subject = b.subject := by
  refine ⟨Subject.eq_of_text ?_, congrArg Subject.text⟩
  rw [isPhoto_subject, isPhoto_subject, h]

/-- The lines of two operations are the same exactly if the operations have the same name and are
about the same. -/
theorem PhotoOp.describe_eq_iff {a b : PhotoOp} :
    a.describe = b.describe ↔ a.name = b.name ∧ a.subject = b.subject := by
  rw [describe_eq, describe_eq, OperationName.opening_append_inj]
  exact and_congr_right subject_text_inj

/-- Equally many operations, and at every place two that have the same name and are about the same:
the same photo, or the same content. -/
def PhotoOp.Alike (ops ops' : List PhotoOp) : Prop :=
  ops.length = ops'.length ∧ ∀ (i : Nat) (hi : i < ops.length) (hi' : i < ops'.length),
    ops[i].name = ops'[i].name ∧ ops[i].subject = ops'[i].subject

theorem PhotoOp.map_describe_eq_iff {ops ops' : List PhotoOp} :
    ops.map describe = ops'.map describe ↔ Alike ops ops' := by
  rw [List.ext_getElem_iff]
  simp only [Alike, List.length_map, List.getElem_map, describe_eq_iff]

/-! ## What actions tell -/

/-- A value comes with the lines of the operations that have been written down on the way to it. -/
def Action.Tells (line : O → String) (x : Action .traced (σ × List O) α) : Prop :=
  ∀ w r w₁, x.run w = (.ok r, w₁) →
    ∃ ops, w₁.state.2 = w.state.2 ++ ops ∧ r.note.toList = ops.map line

/-- A value comes with the one line. -/
def Action.Leaves (line : String) (x : Action .traced σ α) : Prop :=
  ∀ w r w₁, x.run w = (.ok r, w₁) → r.note = .single line

namespace Action

variable {line : O → String}

theorem tells_pure (a : α) : (pure a : Action .traced (σ × List O) α).Tells line := by
  intro w r w₁ run
  cases run
  exact ⟨[], (List.append_nil _).symm, rfl⟩

theorem tells_abort (reason : Abort) :
    (abort reason : Action .traced (σ × List O) α).Tells line :=
  fun _ _ _ => nofun

theorem Tells.bind {x : Action .traced (σ × List O) α}
    {f : α → Action .traced (σ × List O) β} (hx : x.Tells line) (hf : ∀ a, (f a).Tells line) :
    (x >>= f).Tells line := by
  intro w r w₁ run
  obtain ⟨a, u, b, first, second, rfl⟩ := exists_of_run_bind_ok run
  obtain ⟨ops, log, lines⟩ := hx _ _ _ first
  obtain ⟨later, log', lines'⟩ := hf _ _ _ _ second
  refine ⟨ops ++ later, ?_, ?_⟩
  · rw [log', log, List.append_assoc]
  · rw [List.map_append, ← lines, ← lines']
    exact Trace.toList_append a.note b.note

theorem leaves_narrate (line : String) (x : Action .immediate σ α) :
    (x.narrate line).Leaves line := by
  intro w r w₁ run
  simp only [narrate] at run
  split at run
  · cases run
    rfl
  · cases run

theorem Leaves.map {line : String} {x : Action .traced σ α} (leaves : x.Leaves line)
    (f : α → β) : (f <$> x).Leaves line := by
  intro w r w₁ run
  obtain ⟨a, first, rfl⟩ := exists_of_run_map_ok run
  exact leaves _ _ _ first

/-- Once it is written down, an operation that leaves its line tells of itself. -/
theorem Leaves.tells_recorded {op : O} {x : Action .traced σ α} (leaves : x.Leaves (line op)) :
    (x.recorded op).Tells line := by
  intro w r w₁ run
  obtain ⟨outcome, rfl⟩ := Prod.mk.inj run
  refine ⟨[op], rfl, ?_⟩
  rw [leaves _ r _ (Prod.ext outcome rfl)]
  rfl

end Action

/-- Sequencing respects that the lines are those of the operations. -/
def Invariance.telling (σ : Type) (line : O → String) : Invariance .traced (σ × List O) where
  Holds := Action.Tells line
  pure := Action.tells_pure
  bind := Action.Tells.bind
  wrongType expected := Action.tells_abort (.wrongType expected)

/-- Each operation that comes to a value leaves its line with it. -/
def Handler.LeavesLines (line : O → String) (h : Handler .traced σ O V) : Prop :=
  ∀ op, (h op).Leaves (line op)

/-- A program comes to its value with the lines of the operations that were handed over. -/
theorem Program.lines_eq_operations [Carries V α] {line : O → String}
    {h : Handler .traced σ O V} (leaves : h.LeavesLines line) (p : Program O V α) (w : World σ)
    {r : Noted .traced α} (value : ((p.execute h.recorded).observe w).outcome = .ok r) :
    r.note.toList = ((p.execute h.recorded).observe w).operations.map line := by
  obtain ⟨outcome, _, operations⟩ := observe_execute_eq_meaning h p w
  rw [outcome] at value
  obtain ⟨ops, log, lines⟩ := (Invariance.telling σ line).meaning
    (fun op => (leaves op).tells_recorded) p (w.withLog []) r _ (Prod.ext value rfl)
  rw [operations, lines]
  exact congrArg (List.map line) log.symm

/-! ## Narrated services -/

/-- The handlers of a union that narrated services make up. -/
inductive OpUnion.Narrated [CarriesAnswers V] :
    (u : OpUnion) → Handler .traced σ u.Op V → Prop where
  | metadata (s : MetadataService .immediate σ) : Narrated .metadata s.narrated.handler
  | blob (s : BlobService .immediate σ) : Narrated .blob s.narrated.handler
  | both {left right : OpUnion} {l : Handler .traced σ left.Op V}
    {r : Handler .traced σ right.Op V} (hl : Narrated left l) (hr : Narrated right r) :
    Narrated (.both left right) (l.sum r)

/-- All narrated services together are among them. -/
theorem OpUnion.narrated_services [CarriesAnswers V] (s : Services .immediate σ) :
    OpUnion.photo.Narrated (s.narrated.handler : Handler .traced σ PhotoOp V) :=
  .both (.metadata s.metadata) (.blob s.blobs)

/-- An operation of a union is one of the five, wherever it stands in the union. -/
def OpUnion.photoOp : (u : OpUnion) → u.Op → PhotoOp
  | .metadata, op => .inl op
  | .blob, op => .inr op
  | .both left _, .inl op => left.photoOp op
  | .both _ right, .inr op => right.photoOp op

theorem OpUnion.Narrated.leavesLines [CarriesAnswers V] {u : OpUnion}
    {h : Handler .traced σ u.Op V} (narrated : u.Narrated h) :
    h.LeavesLines fun op => (u.photoOp op).describe := by
  intro op
  induction narrated with
  | metadata s =>
    cases op with
    | insertRecord id key creator => exact (Action.leaves_narrate _ _).map _
    | getRecord id => exact (Action.leaves_narrate _ _).map _
  | blob s =>
    cases op with
    | generateKey id => exact (Action.leaves_narrate _ _).map _
    | writeContent key content => exact (Action.leaves_narrate _ _).map _
    | readContent key => exact (Action.leaves_narrate _ _).map _
  | both hl hr ihLeft ihRight =>
    cases op with
    | inl op => exact ihLeft op
    | inr op => exact ihRight op

theorem Action.tells_narrate (op : PhotoOp) (x : Action .immediate σ α) :
    (Invariance.telling σ PhotoOp.describe).Holds ((x.narrate op.describe).recorded op) :=
  (leaves_narrate _ x).tells_recorded

/-- Narrated services that are written down tell of what they carry out. -/
theorem Services.telling_narrated (s : Services .immediate σ) :
    (Invariance.telling σ PhotoOp.describe).OnServices s.narrated.recorded where
  insertRecord id key creator := Action.tells_narrate (.inl (.insertRecord id key creator)) _
  getRecord id := Action.tells_narrate (.inl (.getRecord id)) _
  generateKey id := Action.tells_narrate (.inr (.generateKey id)) _
  writeContent key content := Action.tells_narrate (.inr (.writeContent key content)) _
  readContent key := Action.tells_narrate (.inr (.readContent key)) _

/-! ## What the trace of a run tells -/

/-- A run on narrated services comes to a value with the trace, and these are the operations that
it issues, in order. It is the run of a program over some union of operations, or of a procedure,
on any services and from any world. -/
inductive TracedRun : Trace → List PhotoOp → Prop where
  | program {V σ α : Type} [CarriesAnswers V] [Carries V α] {u : OpUnion}
    {h : Handler .traced σ u.Op V} (narrated : u.Narrated h) (p : Program u.Op V α) (w : World σ)
    {r : Noted .traced α} (value : ((p.execute h).run w).1 = .ok r) :
    TracedRun r.note (((p.execute h.recorded).observe w).operations.map u.photoOp)
  | procedure {σ α : Type} (s : Services .immediate σ) (d : Procedure α) (w : World σ)
    {r : Noted .traced α} (value : ((d.on s.narrated).run w).1 = .ok r) :
    TracedRun r.note ((d.on s.narrated.recorded).observe w).operations

namespace TracedRun

variable {t t' : Trace} {ops ops' : List PhotoOp}

/-- The trace of a run consists of the lines of its operations. -/
theorem toList_eq (run : TracedRun t ops) : t.toList = ops.map PhotoOp.describe := by
  cases run with
  | program narrated p w value =>
    rw [List.map_map]
    refine p.lines_eq_operations narrated.leavesLines w ?_
    rw [← value, ← p.plain_observe_execute]
    rfl
  | procedure s d w value =>
    rw [← d.plain_observe_on] at value
    obtain ⟨ops, log, lines⟩ := d.holds_on _ s.telling_narrated (w.withLog []) _ _
      (Prod.ext value rfl)
    rw [lines]
    exact congrArg (List.map _) log.symm

/-- Two runs, of whatever programs and from whatever worlds, have the same lines in their traces
exactly if they issue equally many operations, and at every place two with the same name that are
about the same photo or the same content. So the lines tell that much, and they tell no more. -/
theorem same_lines_iff (run : TracedRun t ops) (run' : TracedRun t' ops') :
    t.toList = t'.toList ↔ PhotoOp.Alike ops ops' := by
  rw [run.toList_eq, run'.toList_eq]
  exact PhotoOp.map_describe_eq_iff

/-- A program and a procedure save contents of two creators for the same photo. -/
theorem same_lines_iff_savePhoto :
    let id : PhotoId := ⟨"p-1"⟩
    let key := BlobKey.derive id
    let saving (creator : String) (content : ByteArray) : List PhotoOp :=
      [.inr (.generateKey id), .inl (.insertRecord id key creator),
        .inr (.writeContent key content)]
    let t : Trace := .ofList ((saving "Ann" ⟨#[1]⟩).map PhotoOp.describe)
    let t' : Trace := .ofList ((saving "Ben" ⟨#[2]⟩).map PhotoOp.describe)
    TracedRun t (saving "Ann" ⟨#[1]⟩) ∧ TracedRun t' (saving "Ben" ⟨#[2]⟩) ∧
      t.toList = t'.toList := by
  intro id key saving t t'
  let s : Services .immediate Supplied := Supplied.services .whole
  let w : World Supplied := ⟨.ofLists [] [], #[]⟩
  let p : Program PhotoOp Value Unit := .savePhoto id "Ann" ⟨#[1]⟩
  have value : ((p.execute s.narrated.handler).run w).1 = .ok ⟨(), t⟩ :=
    (p.run_execute_eq_meaning s.narrated.handler w).1.trans rfl
  obtain ⟨-, -, operations⟩ := p.observe_execute_eq_meaning s.narrated.handler w
  have run := TracedRun.program (OpUnion.narrated_services s) p w value
  rw [operations] at run
  have run' : TracedRun t' (saving "Ben" ⟨#[2]⟩) :=
    .procedure s (.savePhoto id "Ben" ⟨#[2]⟩) w rfl
  refine ⟨run, run', (same_lines_iff run run').mpr ⟨rfl, fun i hi hi' => ?_⟩⟩
  match i, hi with
  | 0, _ | 1, _ | 2, _ => exact ⟨rfl, rfl⟩

/-- The key that a record is filed with is not told: two runs that file records of the same photo
and the same creator under different keys leave the same trace. -/
theorem key_untold :
    let filing (key : BlobKey) : List PhotoOp := [.inl (.insertRecord ⟨"p-1"⟩ key "Ann")]
    let t : Trace := .single "Insert metadata record with ID p-1"
    let zeros : BlobKey := ⟨.replicate 32 0⟩
    let ones : BlobKey := ⟨.replicate 32 1⟩
    TracedRun t (filing zeros) ∧ TracedRun t (filing ones) ∧ zeros ≠ ones := by
  intro filing t zeros ones
  let s : Services .immediate Supplied := Supplied.services .whole
  have filed (key : BlobKey) : TracedRun t (filing key) :=
    .procedure s (.insertRecord ⟨"p-1"⟩ key "Ann") ⟨.ofLists [] [], #[]⟩ rfl
  exact ⟨filed zeros, filed ones, by decide⟩

end TracedRun

end PhotoArchive
