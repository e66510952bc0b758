import PhotoArchive.Proofs.Call
import PhotoArchive.Proofs.Machine
import PhotoArchive.Proofs.Typing
import PhotoArchive.Store.Request

/-!
# The course of a run on backends

What a program asks for next depends on the answers so far and on nothing else. So a run on
backends is a course of operations, each with its answer, that the program leads along and that the
backends bear out one call after another. The course ends with the value to which the answers lead,
or at the first operation that is answered with an error or with nothing. It says the same whatever
the program would have gone on with.
-/
namespace PhotoArchive

variable {σ O V α : Type}

/-! ## What a program asks for -/

/-- With these operations, answered by these values, the tree comes to the value. -/
inductive Tree.Leads : Tree O V → List (O × V) → V → Prop where
  | pure (v) : Leads (.pure v) [] v
  | perform (op v) : Leads (.perform op) [(op, v)] v
  | bind {first next answered later u v} (hfirst : Leads first answered u)
    (hnext : Leads (next u) later v) : Leads (.bind first next) (answered ++ later) v

/-- After these operations, answered by these values, the tree asks for the operation. -/
inductive Tree.Asks : Tree O V → List (O × V) → O → Prop where
  | perform (op) : Asks (.perform op) [] op
  | first {first answered op} (next) (hfirst : Asks first answered op) :
    Asks (.bind first next) answered op
  | next {first next answered later u op} (hfirst : Tree.Leads first answered u)
    (hnext : Asks (next u) later op) : Asks (.bind first next) (answered ++ later) op

/-! ## What backends answer -/

/-- What an operation asks of a backend. A key is given without asking one. -/
def PhotoOp.request? : PhotoOp → Option StoreRequest
  | .inl (.insertRecord id key creator) => some (.putRecord ⟨id, key, creator⟩)
  | .inl (.getRecord id) => some (.getRecord id)
  | .inr (.generateKey _) => none
  | .inr (.writeContent key content) => some (.putBlob key content)
  | .inr (.readContent key) => some (.getBlob key)

namespace Backends

variable [CarriesAnswers V] (b : Backends σ)

/-- The call that an operation is, with its answer carried. An answer of nothing means absence. -/
def call (V : Type) [CarriesAnswers V] (b : Backends σ) : PhotoOp → σ → Call σ (Option V)
  | .inl (.insertRecord id key creator), s =>
    (b.metadata.put ⟨id, key, creator⟩ s).map fun _ =>
      some (Carries.wrap (⟨id, key, creator⟩ : MetadataRecord))
  | .inl (.getRecord id), s => (b.metadata.get id s).map (Option.map Carries.wrap)
  | .inr (.generateKey id), s =>
    .immediate (.ok (some (Carries.wrap (BlobKey.derive id)))) [] s
  | .inr (.writeContent key content), s =>
    (b.blobs.put key content s).map fun done => some (Carries.wrap done)
  | .inr (.readContent key), s =>
    (b.blobs.get key s).map fun content => some (Carries.wrap content)

/-- An operation on backends is its call, under its name. -/
theorem handler_services (settings : Settings) (op : PhotoOp) :
    (b.services settings).handler op =
      Action.ofCall settings (PhotoOp.name op) (b.call V op) := by
  rcases op with (⟨id, key, creator⟩ | id) | (id | ⟨key, content⟩ | key)
  · exact Action.map_ofCall_map settings .insertRecord (b.metadata.put ⟨id, key, creator⟩) _ _
  · exact Action.map_ofCall settings .getRecord (b.metadata.get id) _
  · exact Action.map_ofCall settings .generateKey (fun s => .immediate _ [] s) _
  · exact Action.map_ofCall_map settings .writeContent (b.blobs.put key content) _ _
  · exact Action.map_ofCall_map settings .readContent (b.blobs.get key) _ _

/-- Without a limit, an operation that is written down comes to what its call is answered, and the
call is all that the backends are asked. -/
theorem run_recorded {settings : Settings} (unlimited : settings.limit = none) (op : PhotoOp)
    (w : World (σ × List PhotoOp)) :
    ∃ events, (Handler.recorded (b.services settings).handler op).run w =
      ((b.call V op w.state.1).outcome (PhotoOp.name op),
        ⟨((b.call V op w.state.1).answered, w.state.2 ++ [op]), events⟩) := by
  have inTime := settings.exceeded?_of_unlimited unlimited (b.call V op w.state.1).delay
  obtain ⟨outcome, state⟩ :=
    Action.run_ofCall settings (PhotoOp.name op) (w := ⟨w.state.1, w.events⟩) inTime
  rw [← b.handler_services] at outcome state
  refine ⟨_, Prod.ext outcome (congrArg (World.mk · _) ?_)⟩
  exact congrArg (·, w.state.2 ++ [op]) state

/-- A value with which an operation is answered is of the type that the answer is to have. -/
theorem answers_of_call {op : PhotoOp} {s : σ} {v : V}
    (answer : (b.call V op s).answer = .ok (some v)) : OpUnion.photo.Answers op v := by
  have unlimited : Settings.unbounded.limit = none := rfl
  obtain ⟨events, run⟩ := b.run_recorded (V := V) unlimited op ⟨(s, []), #[]⟩
  have outcome : (b.call V op s).outcome (PhotoOp.name op) = .ok ⟨v, ()⟩ := by
    simp only [Call.outcome, answer]
  rw [outcome, ← Services.handler_recorded] at run
  exact (OpUnion.handles_services _).answers run

/-- Only asking for a record is answered with nothing. -/
theorem eq_getRecord_of_absent {op : PhotoOp} {s : σ}
    (answer : (b.call V op s).answer = .ok none) :
    ∃ id, op = .inl (.getRecord id) ∧ (b.metadata.get id s).answer = .ok none := by
  rcases op with (⟨id, key, creator⟩ | id) | (id | ⟨key, content⟩ | key)
  · cases put : (b.metadata.put ⟨id, key, creator⟩ s).answer <;>
      simp [call, Call.map, Except.map, put] at answer
  · refine ⟨id, rfl, ?_⟩
    cases got : (b.metadata.get id s).answer with
    | error e => simp [call, Call.map, Except.map, got] at answer
    | ok found =>
      cases found with
      | none => rfl
      | some record => simp [call, Call.map, Except.map, got] at answer
  · simp [call, Call.immediate] at answer
  · cases put : (b.blobs.put key content s).answer <;>
      simp [call, Call.map, Except.map, put] at answer
  · cases got : (b.blobs.get key s).answer <;>
      simp [call, Call.map, Except.map, got] at answer

/-- From the one state the operations are answered by these values, call after call, and leave the
other state. -/
inductive Answers (b : Backends σ) : σ → List (PhotoOp × V) → σ → Prop where
  | nil (s) : Answers b s [] s
  | cons {op v s t answered} (answer : (b.call V op s).answer = .ok (some v))
    (rest : Answers b (b.call V op s).answered answered t) : Answers b s ((op, v) :: answered) t

theorem answers_singleton {op : PhotoOp} {v : V} {s t : σ} :
    b.Answers s [(op, v)] t ↔
      (b.call V op s).answer = .ok (some v) ∧ (b.call V op s).answered = t := by
  constructor
  · rintro (_ | ⟨answer, _ | _⟩)
    exact ⟨answer, rfl⟩
  · rintro ⟨answer, rfl⟩
    exact .cons answer (.nil _)

theorem answers_append {answered later : List (PhotoOp × V)} {s u : σ} :
    b.Answers s (answered ++ later) u ↔
      ∃ t, b.Answers s answered t ∧ b.Answers t later u := by
  induction answered generalizing s with
  | nil =>
    constructor
    · exact fun h => ⟨s, .nil s, h⟩
    · rintro ⟨_, ⟨⟩, h⟩
      exact h
  | cons first answered ih =>
    constructor
    · rintro (_ | ⟨answer, rest⟩)
      obtain ⟨t, hrest, hlater⟩ := ih.mp rest
      exact ⟨t, .cons answer hrest, hlater⟩
    · rintro ⟨t, _ | ⟨answer, hrest⟩, hlater⟩
      exact .cons answer (ih.mpr ⟨t, hrest, hlater⟩)

end Backends

/-! ## Runs -/

section Runs

variable [CarriesAnswers V] (b : Backends σ) {settings : Settings}
  (unlimited : settings.limit = none)
include unlimited

/-- Where the answers of the backends lead a tree, its run on them comes to. -/
theorem Tree.Leads.run_meaning {t : Tree PhotoOp V} {answered : List (PhotoOp × V)} {v : V}
    (leads : t.Leads answered v) {w : World (σ × List PhotoOp)} {s : σ}
    (answers : b.Answers w.state.1 answered s) :
    ∃ events, (t.meaning (Handler.recorded (b.services settings).handler)).run w =
      (.ok ⟨v, ()⟩, ⟨(s, w.state.2 ++ answered.map Prod.fst), events⟩) := by
  induction leads generalizing w s with
  | pure v =>
    cases answers
    exact ⟨w.events, by simp [Tree.meaning]⟩
  | perform op v =>
    obtain ⟨answer, rfl⟩ := b.answers_singleton.mp answers
    obtain ⟨events, run⟩ := b.run_recorded (V := V) unlimited op w
    refine ⟨events, run.trans ?_⟩
    simp only [Call.outcome, answer, List.map_cons, List.map_nil]
  | bind _ _ ihFirst ihNext =>
    obtain ⟨t, hfirst, hlater⟩ := b.answers_append.mp answers
    obtain ⟨events, first⟩ := ihFirst hfirst
    obtain ⟨events, next⟩ := ihNext (w := ⟨(t, _), events⟩) hlater
    refine ⟨events, (Action.run_bind_ok first _).trans ?_⟩
    rw [next, Outcome.after_empty]
    simp

/-- Where a tree asks for an operation that is not answered with a value, its run ends. -/
theorem Tree.Asks.run_meaning {t : Tree PhotoOp V} {answered : List (PhotoOp × V)} {op : PhotoOp}
    (asks : t.Asks answered op) {w : World (σ × List PhotoOp)} {s : σ}
    (answers : b.Answers w.state.1 answered s) {halt : Halt}
    (stops : (b.call V op s).outcome (PhotoOp.name op) = .error halt) :
    ∃ events, (t.meaning (Handler.recorded (b.services settings).handler)).run w =
      (.error halt, ⟨((b.call V op s).answered, w.state.2 ++ answered.map Prod.fst ++ [op]),
        events⟩) := by
  induction asks generalizing w s with
  | perform op =>
    cases answers
    obtain ⟨events, run⟩ := b.run_recorded (V := V) unlimited op w
    refine ⟨events, run.trans ?_⟩
    simp [stops]
  | first next _ ih =>
    obtain ⟨events, first⟩ := ih answers stops
    exact ⟨events, Action.run_bind_error first _⟩
  | next leads _ ih =>
    obtain ⟨t, hfirst, hlater⟩ := b.answers_append.mp answers
    obtain ⟨events, first⟩ := leads.run_meaning b unlimited hfirst
    obtain ⟨events, next⟩ := ih (w := ⟨(t, _), events⟩) hlater stops
    refine ⟨events, (Action.run_bind_ok first _).trans ?_⟩
    rw [next, Outcome.after_empty]
    simp

end Runs

section Courses

variable [CarriesAnswers V] (b : Backends σ)

/-- From every state the backends bear out a course of a tree with types: to a value of its type,
or to an operation that is not answered with a value. -/
theorem Tree.Typed.exists_course {t : Tree PhotoOp V} [Carries V α]
    (typed : t.Typed OpUnion.photo.Answers α) (s : σ) :
    ∃ answered u, b.Answers s answered u ∧
      ((∃ a : α, t.Leads answered (Carries.wrap a)) ∨
        ∃ op, t.Asks answered op ∧ ∀ v, (b.call V op u).answer ≠ .ok (some v)) := by
  induction typed generalizing s with
  | pure a => exact ⟨[], s, .nil s, .inl ⟨a, .pure _⟩⟩
  | @perform _ _ op hop =>
    by_cases answer : ∃ v, (b.call V op s).answer = .ok (some v)
    · obtain ⟨v, answer⟩ := answer
      obtain ⟨a, rfl⟩ := hop v (b.answers_of_call answer)
      exact ⟨_, _, b.answers_singleton.mpr ⟨answer, rfl⟩, .inl ⟨a, .perform op _⟩⟩
    · exact ⟨[], s, .nil s, .inr ⟨op, .perform op, not_exists.mp answer⟩⟩
  | @bind _ _ _ _ first f _ _ ihFirst ihNext =>
    obtain ⟨answered, t, hfirst, ⟨a, leads⟩ | ⟨op, asks, stops⟩⟩ := ihFirst s
    · obtain ⟨later, u, hlater, ends⟩ := ihNext a t
      rw [← Program.onward_wrap] at ends
      refine ⟨answered ++ later, u, b.answers_append.mpr ⟨t, hfirst, hlater⟩, ?_⟩
      rcases ends with ⟨a', leads'⟩ | ⟨op, asks, stops⟩
      · exact .inl ⟨a', .bind leads leads'⟩
      · exact .inr ⟨op, .next leads asks, stops⟩
    · exact ⟨answered, t, hfirst, .inr ⟨op, .first _ asks, stops⟩⟩

/-- The course of a program on backends from a state: the operations, what they come to, and the
state that is left. All operations but the last are answered with values. -/
inductive Program.Course [Carries V α] (p : Program PhotoOp V α) (b : Backends σ) (s : σ) :
    List PhotoOp → Outcome .awaited α → σ → Prop where
  | value {answered t a} (answers : b.Answers s answered t)
    (leads : p.root.Leads answered (Carries.wrap a)) :
    Course p b s (answered.map Prod.fst) (.ok ⟨a, ()⟩) t
  | failed {answered t op error} (answers : b.Answers s answered t)
    (asks : p.root.Asks answered op) (answer : (b.call V op t).answer = .error error) :
    Course p b s (answered.map Prod.fst ++ [op])
      (.error (.failed (.backend (PhotoOp.name op) error))) (b.call V op t).answered
  | absent {answered t id} (answers : b.Answers s answered t)
    (asks : p.root.Asks answered (.inl (.getRecord id)))
    (answer : (b.metadata.get id t).answer = .ok none) :
    Course p b s (answered.map Prod.fst ++ [.inl (.getRecord id)]) (.error .absent)
      (b.metadata.get id t).answered

namespace Program

variable [Carries V α] {p : Program PhotoOp V α} {b} {s t : σ} {ops : List PhotoOp}
  {o : Outcome .awaited α}

/-- A program that can be built has a course on every backends from every state. -/
theorem Built.exists_course (built : p.Built (u := .photo)) (b : Backends σ) (s : σ) :
    ∃ ops o t, p.Course b s ops o t := by
  obtain ⟨answered, t, answers, ⟨a, leads⟩ | ⟨op, asks, stops⟩⟩ := built.typed.exists_course b s
  · exact ⟨_, _, _, .value answers leads⟩
  · match answer : (b.call V op t).answer with
    | .error error => exact ⟨_, _, _, .failed answers asks answer⟩
    | .ok (some v) => exact absurd answer (stops v)
    | .ok none =>
      obtain ⟨id, rfl, absent⟩ := b.eq_getRecord_of_absent answer
      exact ⟨_, _, _, .absent answers asks absent⟩

/-- Without a limit, a program on backends does what a course says. -/
theorem Course.run_meaning (course : p.Course b s ops o t) {settings : Settings}
    (unlimited : settings.limit = none) {w : World (σ × List PhotoOp)} (start : w.state.1 = s) :
    ∃ events, (p.meaning (Handler.recorded (b.services settings).handler)).run w =
      (o, ⟨(t, w.state.2 ++ ops), events⟩) := by
  subst start
  cases course with
  | value answers leads =>
    obtain ⟨events, run⟩ := leads.run_meaning b unlimited answers
    refine ⟨events, (Action.run_bind_ok run _).trans ?_⟩
    simp [Action.unwrap, Outcome.after]
  | @failed _ t op error answers asks answer =>
    have stops : (b.call V op t).outcome (PhotoOp.name op) =
        .error (.failed (.backend (PhotoOp.name op) error)) := by
      simp only [Call.outcome, answer]
    obtain ⟨events, run⟩ := asks.run_meaning b unlimited answers stops
    exact ⟨events, by rw [← List.append_assoc]; exact Action.run_bind_error run _⟩
  | @absent _ t id answers asks answer =>
    have stops : (b.call V (.inl (.getRecord id)) t).outcome .getRecord = .error .absent := by
      simp only [Backends.call, Call.outcome, Call.map, answer]
      rfl
    obtain ⟨events, run⟩ := asks.run_meaning b unlimited answers stops
    exact ⟨events, by rw [← List.append_assoc]; exact Action.run_bind_error run _⟩

/-- Without a limit, what is observed of a program on backends is its course. -/
theorem Course.observe (course : p.Course b s ops o t) {settings : Settings}
    (unlimited : settings.limit = none) {w : World σ} (start : w.state = s) :
    let run := (p.execute (b.services settings).recorded.handler).observe w
    ops = run.operations ∧ o = run.outcome ∧ t = run.state := by
  intro run
  obtain ⟨events, meant⟩ := course.run_meaning unlimited (w := w.withLog []) start
  obtain ⟨outcome, state⟩ := run_execute_eq_meaning
    (Handler.recorded (b.services settings).handler) p (w.withLog [])
  rw [meant] at outcome state
  rw [← Services.handler_recorded] at outcome state
  obtain ⟨state, operations⟩ := Prod.mk.inj state
  exact ⟨operations.symm, outcome.symm, state.symm⟩

end Program

end Courses

/-! ## What backends are asked -/

/-- A call that is written down, with what it asks, as it is started. -/
def Call.noted (request : StoreRequest) (call : σ → Call σ α) (s : σ × List StoreRequest) :
    Call (σ × List StoreRequest) α :=
  let c := call s.1
  let asked := s.2 ++ [request]
  let sofar t := ⟨((c.sofar t).state, asked), (c.sofar t).reports⟩
  ⟨sofar, c.delay, c.answer, c.reports, (c.answered, asked)⟩

/-- The backends, with all that they are asked written down. -/
def Backends.noting (b : Backends σ) : Backends (σ × List StoreRequest) where
  metadata := {
    put := fun r => Call.noted (.putRecord r) (b.metadata.put r)
    get := fun id => Call.noted (.getRecord id) (b.metadata.get id) }
  blobs := {
    put := fun key content => Call.noted (.putBlob key content) (b.blobs.put key content)
    get := fun key => Call.noted (.getBlob key) (b.blobs.get key) }

/-- The world with what the operations behind its state ask in their place. -/
def World.asked (w : World (σ × List PhotoOp)) : World (σ × List StoreRequest) :=
  ⟨(w.state.1, w.state.2.filterMap PhotoOp.request?), w.events⟩

/-- An action that writes down operations, and one that does the same and writes down what they
ask. -/
def Congruence.asking (σ : Type) :
    Congruence .awaited .awaited (σ × List PhotoOp) (σ × List StoreRequest) where
  Rel x y := ∀ w, y.run w.asked = ((x.run w).1, (x.run w).2.asked)
  pure a w := rfl
  bind {_ _ x y f g} hxy hfg w := by
    match hx : x.run w with
    | (.error s, w₁) =>
      rw [Action.run_bind_error hx, Action.run_bind_error (by rw [hxy, hx])]
    | (.ok r, w₁) =>
      rw [Action.run_bind_ok hx, Action.run_bind_ok (by rw [hxy, hx])]
      rw [hfg r.value w₁]
  wrongType _ _ := rfl
  emit n w := rfl

/-- An operation that asks a backend is written down as the call is. -/
theorem Action.asking_ofCall (op : PhotoOp) {request : StoreRequest}
    (asks : PhotoOp.request? op = some request) (settings : Settings) (name : OperationName)
    (call : σ → Call σ (Option α)) :
    (Congruence.asking σ).Rel ((ofCall settings name call).recorded op)
      (ofCall settings name (Call.noted request call)) := by
  intro w
  simp only [ofCall, recorded, Call.noted, World.asked, World.withLog, List.filterMap_append,
    List.filterMap_cons, List.filterMap_nil, asks]
  cases settings.exceeded? (call w.state.1).delay <;> rfl

/-- Giving a key asks nothing. -/
theorem Action.asking_ofKey (settings : Settings) (id : PhotoId) :
    (Congruence.asking σ).Rel
      ((ofCall settings .generateKey fun s =>
        .immediate (.ok (some (BlobKey.derive id))) [] s).recorded (.inr (.generateKey id)))
      (ofCall settings .generateKey fun s =>
        .immediate (.ok (some (BlobKey.derive id))) [] s) := by
  intro w
  simp only [ofCall, recorded, Call.immediate, settings.exceeded?_zero, World.asked,
    World.withLog, List.filterMap_append, List.filterMap_cons, List.filterMap_nil,
    PhotoOp.request?, List.append_nil]
  rfl

/-- Each operation on backends asks what it is to ask, once. -/
theorem Backends.asking_services (b : Backends σ) (settings : Settings) :
    (Congruence.asking σ).OnServices (b.services settings).recorded
      (b.noting.services settings) where
  insertRecord id key creator :=
    let record : MetadataRecord := ⟨id, key, creator⟩
    Action.asking_ofCall (.inl (.insertRecord id key creator)) rfl settings .insertRecord
      fun s => (b.metadata.put record s).map fun _ => some record
  getRecord id :=
    Action.asking_ofCall (.inl (.getRecord id)) rfl settings .getRecord (b.metadata.get id)
  generateKey id := Action.asking_ofKey settings id
  writeContent key content :=
    Action.asking_ofCall (.inr (.writeContent key content)) rfl settings .writeContent
      fun s => (b.blobs.put key content s).map some
  readContent key :=
    Action.asking_ofCall (.inr (.readContent key)) rfl settings .readContent
      fun s => (b.blobs.get key s).map some

/-! ## The run as a whole -/

/-- Without a time limit, a program that can be built does on backends what its course says, and it
has just one: it ends at the first operation that is answered with an error, as the failure of that
operation with that very error, or with the absence of a record, and otherwise it comes to the
value to which the answers lead. The backends are asked what the operations of the course ask, each
once and in order, and nothing after that. -/
theorem Program.Built.course_iff [CarriesAnswers V] [Carries V α] {p : Program PhotoOp V α}
    (built : p.Built (u := .photo)) (b : Backends σ) {settings : Settings}
    (unlimited : settings.limit = none) (w : World σ) :
    let run := (p.execute (b.services settings).recorded.handler).observe w
    let noted := (p.execute (b.noting.services settings).handler).run (w.withLog [])
    (∀ ops o t, p.Course b w.state ops o t ↔
        ops = run.operations ∧ o = run.outcome ∧ t = run.state) ∧
      (noted.1 = run.outcome ∧
        noted.2.state = (run.state, run.operations.filterMap PhotoOp.request?)) ∧
      run.plain = (p.execute (b.services settings).handler).run w := by
  intro run noted
  refine ⟨fun ops o t => ⟨fun course => course.observe unlimited rfl, ?_⟩, ?_, ?_⟩
  · rintro ⟨rfl, rfl, rfl⟩
    obtain ⟨ops, o, t, course⟩ := built.exists_course b w.state
    obtain ⟨operations, outcome, state⟩ := course.observe unlimited (w := w) rfl
    rw [operations, outcome, state] at course
    exact course
  · have asked := Congruence.execute _ (b.asking_services settings).handler p (w.withLog [])
    exact ⟨congrArg Prod.fst asked, congrArg (·.2.state) asked⟩
  · rw [← p.plain_observe_execute, ← Services.handler_recorded]

/-- A backend for contents that answers all calls with the same error. -/
def BlobBackend.failing (error : StoreError) : BlobBackend σ where
  put _ _ s := .immediate (.error error) [] s
  get _ s := .immediate (.error error) [] s

/-- A photo is saved while no contents can be kept: the record is filed, and the error of the write
is passed on. -/
theorem Program.Built.course_iff_savePhoto :
    let p : Program PhotoOp Value Unit := .savePhoto ⟨"p-1"⟩ "Ann" ⟨#[1]⟩
    let b : Backends MetadataStore := ⟨MetadataStore.backend .whole, .failing (.unavailable "down")⟩
    let run := (p.execute (b.services .unbounded).recorded.handler).observe ⟨.empty, #[]⟩
    let key := BlobKey.derive ⟨"p-1"⟩
    p.Built (u := .photo) ∧ Settings.unbounded.limit = none ∧
      run.outcome = .error (.failed (.backend .writeContent (.unavailable "down"))) ∧
      run.operations = [.inr (.generateKey ⟨"p-1"⟩), .inl (.insertRecord ⟨"p-1"⟩ key "Ann"),
        .inr (.writeContent key ⟨#[1]⟩)] ∧
      run.state = MetadataStore.empty.put ⟨⟨"p-1"⟩, key, "Ann"⟩ := by
  intro p b run key
  have built : p.Built (u := .photo) := .savePhoto (.here _) (.there _ .itself) _ _ _
  have asks : p.root.Asks [(.inr (.generateKey ⟨"p-1"⟩), .key key),
      (.inl (.insertRecord ⟨"p-1"⟩ key "Ann"), .record ⟨⟨"p-1"⟩, key, "Ann"⟩)]
      (.inr (.writeContent key ⟨#[1]⟩)) :=
    .next (.perform _ _) (.next (.perform _ _) (.perform _))
  have course : p.Course b .empty _ _ _ := .failed (.cons rfl (.cons rfl (.nil _))) asks rfl
  have unlimited : Settings.unbounded.limit = none := rfl
  obtain ⟨operations, outcome, state⟩ :=
    ((built.course_iff b unlimited ⟨.empty, #[]⟩).1 _ _ _).mp course
  exact ⟨built, unlimited, outcome.symm, operations.symm, state.symm⟩

end PhotoArchive
