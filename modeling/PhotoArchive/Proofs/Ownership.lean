import PhotoArchive.Proofs.Course
import PhotoArchive.Proofs.Interleaving
import PhotoArchive.Script.Value

/-!
# Contents and their records

A save files the record of a photo before it keeps the content, and if the record is not filed it
keeps nothing. So there is no content without a record, at any moment of any number of errands whose
operations are interleaved, and whichever calls fail. The invariant ties each errand under way to
the stores: once a save has had its second answer, the record of its photo is there.
-/
namespace PhotoArchive

variable {C : Context} {σ V α β : Type}

/-! ## Stores in which every content has a record -/

namespace Stores

def HasRecord (s : Stores) (id : PhotoId) : Prop :=
  ∃ r, s.metadata.get? id = some r

/-- Each record is filed under its own identifier and has the key that is derived from it, and each
content is kept under the key that is derived from an identifier with a record. -/
structure Owned (s : Stores) : Prop where
  record : ∀ id r, s.metadata.get? id = some r → r.id = id ∧ r.key = .derive r.id
  content : ∀ key content, s.blobs.get? key = some content →
    ∃ id, s.HasRecord id ∧ key = .derive id

theorem hasRecord_putRecord (s : Stores) (r : MetadataRecord) :
    (s.after (.putRecord r)).HasRecord r.id := by
  refine ⟨r, ?_⟩
  rw [after, MetadataStore.get?_put, if_pos rfl]

/-- Filing a record takes none away. -/
theorem HasRecord.putRecord {s : Stores} {id : PhotoId} (h : s.HasRecord id)
    (r : MetadataRecord) : (s.after (.putRecord r)).HasRecord id := by
  obtain ⟨old, found⟩ := h
  by_cases same : r.id = id
  · exact same ▸ s.hasRecord_putRecord r
  · refine ⟨old, ?_⟩
    rw [after, MetadataStore.get?_put, if_neg same, found]

namespace Owned

variable {s : Stores}

theorem empty : Stores.empty.Owned := by
  constructor
  · intro id r found
    cases found
  · intro key content found
    cases found

theorem putRecord (h : s.Owned) {r : MetadataRecord} (key : r.key = .derive r.id) :
    (s.after (.putRecord r)).Owned := by
  constructor
  · intro id r' found
    rw [after, MetadataStore.get?_put] at found
    by_cases same : r.id = id
    · rw [if_pos same] at found
      cases found
      exact ⟨same, key⟩
    · rw [if_neg same] at found
      exact h.record id r' found
  · intro key content found
    obtain ⟨id, record, derived⟩ := h.content key content found
    exact ⟨id, record.putRecord r, derived⟩

theorem putBlob (h : s.Owned) {id : PhotoId} (record : s.HasRecord id) (content : ByteArray) :
    (s.after (.putBlob (.derive id) content)).Owned := by
  constructor
  · exact h.record
  · intro key other found
    rw [after, BlobStore.get?_put] at found
    by_cases same : BlobKey.derive id = key
    · exact ⟨id, record, same.symm⟩
    · rw [if_neg same] at found
      exact h.content key other found

end Owned

end Stores

/-! ## Backends that do what they are asked or nothing -/

/-- The stores that an operation leaves once its call is answered. -/
def PhotoOp.leaves (op : PhotoOp) (s : Stores) : Stores :=
  match request? op with
  | some request => s.after request
  | none => s

/-- A call that is answered with a value leaves the stores that it is to leave. One that fails, or
is given up, leaves them as they are. -/
structure Call.Serves (c : Call σ α) (view : σ → Stores) (s t : Stores) : Prop where
  unanswered : ∀ t < c.delay, view (c.sofar t).state = s
  answered : ∀ a, c.answer = .ok a → view c.answered = t
  failed : ∀ e, c.answer = .error e → view c.answered = s

/-- The backends do to stores that are found in their state what they are asked, or nothing. -/
structure Backends.Serve (b : Backends σ) (view : σ → Stores) : Prop where
  putRecord : ∀ r s, (b.metadata.put r s).Serves view (view s) ((view s).after (.putRecord r))
  getRecord : ∀ id s, (b.metadata.get id s).Serves view (view s) (view s)
  putBlob : ∀ key content s,
    (b.blobs.put key content s).Serves view (view s) ((view s).after (.putBlob key content))
  getBlob : ∀ key s, (b.blobs.get key s).Serves view (view s) (view s)

theorem Call.Serves.map {c : Call σ α} {view : σ → Stores} {s t : Stores}
    (h : c.Serves view s t) (f : α → β) : (c.map f).Serves view s t where
  unanswered := h.unanswered
  answered b answer := by
    cases answered : c.answer with
    | ok a => exact h.answered a answered
    | error e =>
      rw [Call.map, answered] at answer
      cases answer
  failed e answer := by
    cases answered : c.answer with
    | ok a =>
      rw [Call.map, answered] at answer
      cases answer
    | error e' => exact h.failed e' answered

/-- A call that keeps what it is asked to keep serves. -/
theorem Call.Keeps.serves {c : Call σ α} {view : σ → Stores} {mayFail : Prop} {s t : Stores}
    {answer : Except StoreError α} (h : c.Keeps view mayFail s answer t)
    (harmless : ∀ e, answer = .error e → t = s) : c.Serves view s t where
  unanswered := h.unanswered
  answered a given := by
    rcases h.ended with ⟨-, state⟩ | ⟨-, ⟨reason, unavailable⟩, -⟩
    · exact state
    · rw [given] at unavailable
      cases unavailable
  failed e given := by
    rcases h.ended with ⟨answered, state⟩ | ⟨-, -, state⟩
    · exact state.trans (harmless e (answered.symm.trans given))
    · exact state

/-- Backends that keep what they are asked to keep serve. -/
theorem Backends.Keep.serve {b : Backends σ} {view : σ → Stores} {mayFail : Prop}
    (h : b.Keep view mayFail) : b.Serve view where
  putRecord r s := (h.putRecord r s).serves nofun
  getRecord id s := (h.getRecord id s).serves nofun
  putBlob key content s := (h.putBlob key content s).serves nofun
  getBlob key s := (h.getBlob key s).serves fun _ _ => rfl

namespace Backends.Serve

variable [CarriesAnswers V] {b : Backends σ} {view : σ → Stores} (serve : b.Serve view)

include serve

theorem call (op : PhotoOp) (s : σ) :
    (b.call V op s).Serves view (view s) (op.leaves (view s)) := by
  rcases op with (⟨id, key, creator⟩ | id) | (id | ⟨key, content⟩ | key)
  · exact (serve.putRecord ⟨id, key, creator⟩ s).map _
  · exact (serve.getRecord id s).map _
  · exact ⟨fun _ _ => rfl, fun _ _ => rfl, fun _ _ => rfl⟩
  · exact (serve.putBlob key content s).map _
  · exact (serve.getBlob key s).map _

variable {settings : Settings} {op : PhotoOp} {w w₁ : World σ}

/-- An operation that is answered leaves what it is to leave. -/
theorem view_of_answered {r : Noted .awaited V}
    (run : ((b.services settings).handler op).run w = (.ok r, w₁)) :
    view w₁.state = op.leaves (view w.state) := by
  rw [b.handler_services] at run
  obtain ⟨answer, state⟩ := Action.answer_of_run_ofCall run
  rw [state]
  exact (serve.call op w.state).answered _ answer

/-- An operation that is not answered leaves the stores as they are. -/
theorem view_of_stopped {halt : Halt}
    (run : ((b.services settings).handler (V := V) op).run w = (.error halt, w₁)) :
    view w₁.state = view w.state := by
  rw [b.handler_services] at run
  have serves := serve.call (V := V) op w.state
  rcases Action.answer_of_run_ofCall_error run with ⟨limit, early, state⟩ | ⟨state, unanswered⟩
  · rw [state]
    exact serves.unanswered limit early
  · rw [state]
    match answer : (b.call V op w.state).answer with
    | .error e => exact serves.failed e answer
    | .ok (some v) => exact absurd answer (unanswered v)
    | .ok none =>
      -- only asking for a record is answered with nothing
      obtain ⟨id, rfl, -⟩ := b.eq_getRecord_of_absent answer
      exact serves.answered _ answer

end Backends.Serve

/-- The answer to asking for a key is the key that is derived from the identifier. -/
theorem Backends.answer_generateKey [CarriesAnswers V] {b : Backends σ} {settings : Settings}
    {id : PhotoId} {w w₁ : World σ} {r : Noted .awaited V}
    (run : ((b.services settings).handler (.inr (.generateKey id))).run w = (.ok r, w₁)) :
    r.value = Carries.wrap (BlobKey.derive id) := by
  rw [b.handler_services] at run
  have answer := (Action.answer_of_run_ofCall run).1
  exact (Option.some.inj (Except.ok.inj answer)).symm

/-! ## What errands wait on -/

/-- What saving a photo waits on after some answers: the key, then the filing of the record under
that key, then the keeping of the content under the same key. -/
inductive Photo.SaveWaitsOn [CarriesAnswers V] (photo : Photo) : List V → PhotoOp → Prop where
  | key : SaveWaitsOn photo [] (.inr (.generateKey photo.id))
  | filing {v key} (given : Carries.unwrap? v = some key) :
    SaveWaitsOn photo [v] (.inl (.insertRecord photo.id key photo.creator))
  | keeping {v u key} (given : Carries.unwrap? v = some key) :
    SaveWaitsOn photo [v, u] (.inr (.writeContent key photo.content))

/-- The operation only asks for what is there. -/
inductive PhotoOp.Reads : PhotoOp → Prop where
  | record (id) : Reads (.inl (.getRecord id))
  | content (key) : Reads (.inr (.readContent key))

namespace Services

variable [CarriesAnswers V] {w : World (List V)} {op : PhotoOp}

theorem waits_of_getPhoto {id : PhotoId}
    (h : (((replayed V).getPhoto id).run w).1 = .error (.waits op)) : op.Reads := by
  rcases Action.waits_of_run_bind h with first | ⟨record, w₁, -, rest⟩
  · obtain ⟨-, rfl⟩ := Action.waits_of_run_replayed first
    exact .record id
  · rcases Action.waits_of_run_bind rest with second | ⟨content, w₂, -, assembled⟩
    · obtain ⟨-, rfl⟩ := Action.waits_of_run_replayed second
      exact .content _
    · cases assembled

theorem waits_of_getCreator {id : PhotoId}
    (h : (((replayed V).metadata.getCreator id).run w).1 = .error (.waits op)) : op.Reads := by
  rcases Action.waits_of_run_bind h with first | ⟨record, w₁, -, given⟩
  · obtain ⟨-, rfl⟩ := Action.waits_of_run_replayed first
    exact .record id
  · cases given

theorem waits_of_savePhoto {photo : Photo}
    (h : (((replayed V).savePhoto photo.id photo.creator photo.content).run w).1 =
      .error (.waits op)) : photo.SaveWaitsOn w.state op := by
  rcases Action.waits_of_run_bind h with first | ⟨key, w₁, keyed, rest⟩
  · obtain ⟨none, rfl⟩ := Action.waits_of_run_replayed first
    rw [none]
    exact .key
  · obtain ⟨v, given, answers⟩ := Action.answer_of_run_replayed keyed
    rw [answers]
    rcases Action.waits_of_run_bind rest with second | ⟨record, w₂, filed, last⟩
    · obtain ⟨none, rfl⟩ := Action.waits_of_run_replayed second
      rw [none]
      exact .filing given
    · obtain ⟨u, -, answers⟩ := Action.answer_of_run_replayed filed
      obtain ⟨none, rfl⟩ := Action.waits_of_run_replayed last
      rw [answers, none]
      exact .keeping given

/-- A save that is done has had three answers. -/
theorem length_of_savePhoto {photo : Photo} {w₁ : World (List V)} {r : Noted .replayed Unit}
    (h : ((replayed V).savePhoto photo.id photo.creator photo.content).run w = (.ok r, w₁)) :
    3 ≤ w.state.length := by
  obtain ⟨key, w₂, keyed, rest⟩ := Action.parts_of_run_bind h
  obtain ⟨record, w₃, filed, kept⟩ := Action.parts_of_run_bind rest
  obtain ⟨v, -, first⟩ := Action.answer_of_run_replayed keyed
  obtain ⟨u, -, second⟩ := Action.answer_of_run_replayed filed
  obtain ⟨t, -, third⟩ := Action.answer_of_run_replayed kept
  simp only [first, second, third, List.length_cons]
  omega

end Services

/-- What a task waits on after some answers: on what its save waits on, or, once that is done or if
there is none, on what is only asked for. -/
inductive Task.WaitsOn [CarriesAnswers V] (t : Task) (answers : List V) (op : PhotoOp) : Prop where
  | saving {photo} (saved : t.saved? = some photo) (waits : photo.SaveWaitsOn answers op)
  | reading (late : ∀ photo, t.saved? = some photo → 3 ≤ answers.length) (reads : op.Reads)

/-- What an errand waits on is told by its task. -/
theorem Errand.WaitsOn.task [CarriesAnswers V] [Carries V String] [Carries V Photo] {e : Errand}
    {answers : List V} {op : PhotoOp} (waits : e.WaitsOn answers op) :
    e.task.WaitsOn answers op := by
  have h := Errand.waitsOn_iff.mp waits #[]
  obtain ⟨task, deferred⟩ := e
  cases task with
  | savePhoto photo => exact .saving rfl (Services.waits_of_savePhoto h)
  | saveThenGetPhoto photo =>
    rcases Action.waits_of_run_bind h with save | ⟨r, w, saved, get⟩
    · exact .saving rfl (Services.waits_of_savePhoto save)
    · exact .reading (fun _ _ => Services.length_of_savePhoto saved)
        (Services.waits_of_getPhoto get)
  | getPhoto id => exact .reading nofun (Services.waits_of_getPhoto h)
  | getCreator id => exact .reading nofun (Services.waits_of_getCreator h)

/-! ## The invariant -/

section Invariant

variable [CarriesAnswers V]

/-- What is known of an errand under way that saves a photo: its first answer is the key that is
derived from the identifier, and once it has had two answers the record is there. -/
def Underway.Founded (s : Stores) (u : Underway V) : Prop :=
  ∀ photo, u.errand.task.saved? = some photo →
    (∀ v ∈ u.answers.head?, Carries.unwrap? v = some (BlobKey.derive photo.id)) ∧
      (2 ≤ u.answers.length → s.HasRecord photo.id)

/-- Every content has a record, and what is known of the errands under way holds. -/
structure Pool.Orderly (view : σ → Stores) (p : Pool σ V) : Prop where
  owned : (view p.state).Owned
  founded : ∀ u ∈ p.underway, u.Founded (view p.state)

/-- No operation takes a record away. -/
theorem Stores.HasRecord.leaves {s : Stores} {id : PhotoId} (h : s.HasRecord id) (op : PhotoOp) :
    (op.leaves s).HasRecord id := by
  rcases op with (⟨id', key, creator⟩ | id') | (id' | ⟨key, content⟩ | key)
  · exact h.putRecord _
  · exact h
  · exact h
  · exact h
  · exact h

namespace Underway.Founded

variable {s : Stores} {u : Underway V}

theorem begun (s : Stores) (e : Errand) : Founded (V := V) s ⟨e, []⟩ := by
  intro photo saved
  constructor
  · intro v first
    cases first
  · intro two
    cases two

/-- What is known of an errand stays so while others go on. -/
theorem leaves (h : u.Founded s) (op : PhotoOp) : u.Founded (op.leaves s) := by
  intro photo saved
  obtain ⟨first, second⟩ := h photo saved
  exact ⟨first, fun two => (second two).leaves op⟩

/-- An operation that an errand waits on leaves every content with a record. -/
theorem owned (h : u.Founded s) (owned : s.Owned) {op : PhotoOp}
    (waits : u.errand.task.WaitsOn u.answers op) : (op.leaves s).Owned := by
  cases waits with
  | saving saved waits =>
    obtain ⟨first, second⟩ := h _ saved
    generalize u.answers = answers at first second waits
    cases waits with
    | key => exact owned
    | filing given =>
      -- the key with which the record is filed is the answer that was given first
      obtain rfl := Option.some.inj (given.symm.trans (first _ rfl))
      exact owned.putRecord rfl
    | keeping given =>
      obtain rfl := Option.some.inj (given.symm.trans (first _ rfl))
      exact owned.putBlob (second (Nat.le_refl _)) _
  | reading _ reads => cases reads <;> exact owned

/-- An errand whose operation is answered knows one thing more. -/
theorem answered (h : u.Founded s) {op : PhotoOp} {v : V}
    (waits : u.errand.task.WaitsOn u.answers op)
    (key : ∀ id, op = .inr (.generateKey id) → v = Carries.wrap (BlobKey.derive id)) :
    Founded (op.leaves s) ⟨u.errand, u.answers ++ [v]⟩ := by
  intro photo saved
  obtain ⟨first, second⟩ := h photo saved
  cases waits with
  | saving saved' waits =>
    cases saved.symm.trans saved'
    generalize u.answers = answers at first second waits
    cases waits with
    | key =>
      constructor
      · intro v' head
        cases head
        rw [key _ rfl, Carries.unwrap?_wrap]
      · intro two
        cases two with
        | step two => cases two
    | filing given =>
      refine ⟨first, fun _ => ?_⟩
      exact Stores.hasRecord_putRecord s ⟨photo.id, _, photo.creator⟩
    | keeping given => exact ⟨first, fun _ => (second (Nat.le_refl _)).leaves _⟩
  | reading late reads =>
    have three := late photo saved
    constructor
    · intro v' head
      refine first v' ?_
      match answers : u.answers with
      | [] =>
        rw [answers] at three
        cases three
      | v₀ :: rest =>
        rw [answers] at head
        exact head
    · intro _
      exact (second (Nat.le_of_succ_le three)).leaves op

end Underway.Founded

variable [Carries V String] [Carries V Photo]

/-- One step of errands under way keeps the invariant. -/
theorem Pool.Orderly.step {b : Backends σ} {view : σ → Stores} (serve : b.Serve view)
    {settings : Settings} {p q : Pool σ V} (h : p.Orderly view)
    (step : Step (b.services settings) p q) : q.Orderly view := by
  cases step with
  | begun e s us =>
    refine ⟨h.owned, fun u mem => ?_⟩
    rcases List.mem_append.mp mem with old | new
    · exact h.founded u old
    · obtain rfl := List.mem_singleton.mp new
      exact .begun _ e
  | @answered _ e op s r t _ answers before after waits run =>
    have left := serve.view_of_answered run
    have this := h.founded ⟨e, answers⟩ (List.mem_append_right _ List.mem_cons_self)
    refine ⟨left ▸ this.owned h.owned waits.task, fun u mem => ?_⟩
    rw [left]
    rcases List.mem_append.mp mem with old | rest
    · exact (h.founded u (List.mem_append_left _ old)).leaves op
    · rcases List.mem_cons.mp rest with rfl | old
      · refine this.answered waits.task ?_
        rintro id rfl
        exact b.answer_generateKey run
      · exact (h.founded u (List.mem_append_right _ (List.mem_cons_of_mem _ old))).leaves op
  | @stopped _ e op s stop t _ answers before after waits run =>
    have left := serve.view_of_stopped run
    refine ⟨left ▸ h.owned, fun u mem => ?_⟩
    rw [left]
    rcases List.mem_append.mp mem with old | old
    · exact h.founded u (List.mem_append_left _ old)
    · exact h.founded u (List.mem_append_right _ (List.mem_cons_of_mem _ old))

/-- Whatever errands are under way on backends any of whose calls may fail, and in whichever order
their operations are answered, from empty stores: at every moment each record is filed under its own
identifier with the key that is derived from it, and each content is kept under the derived key of
an identifier that has a record. Errands that are carried out one after another are among these
runs. -/
theorem Backends.Serve.no_orphans {b : Backends σ} {view : σ → Stores} (serve : b.Serve view)
    (settings : Settings) {s : σ} (empty : view s = .empty) :
    let svc := b.services settings
    (∀ p : Pool σ V, Pool.Leads svc ⟨s, []⟩ p → (view p.state).Owned) ∧
      ∀ (es : List Errand) (events : Array Event), ∃ us : List (Underway V),
        Pool.Leads svc ⟨s, []⟩ ⟨(svc.after V es ⟨s, events⟩).state, us⟩ := by
  intro svc
  refine ⟨fun p leads => ?_, fun es events => Pool.leads_after svc es ⟨s, events⟩ []⟩
  have orderly : p.Orderly view := by
    induction leads with
    | refl =>
      refine ⟨?_, nofun⟩
      show (view s).Owned
      rw [empty]
      exact .empty
    | tail _ step ih => exact ih.step serve step
  exact orderly.owned

end Invariant

/-! ## Two saves whose operations are interleaved -/

/-- Two photos are saved at the same time. The records of both are filed, and then the call fails
that was to keep the content of the second. -/
theorem Backends.Serve.no_orphans_interleaved :
    let plan : BackedPlan := ⟨.standard, [], [⟨some 1, .zero, some "down"⟩], false⟩
    plan.backends.Serve BackedState.stores ∧ BackedState.start.stores = .empty ∧
      ∃ p : Pool BackedState Value,
        Pool.Leads (plan.backends.services .standard) ⟨.start, []⟩ p ∧
          p.underway.length = 1 ∧ p.state.stores.Owned := by
  intro plan
  let first : Errand := ⟨.savePhoto ⟨⟨"p1"⟩, "Ann", ⟨#[0xaa]⟩⟩, false⟩
  let second : Errand := ⟨.savePhoto ⟨⟨"p2"⟩, "Ben", ⟨#[0xbb]⟩⟩, true⟩
  have serve : plan.backends.Serve BackedState.stores := (BackedPlan.keep_backends rfl).serve
  have waits (e : Errand) (answers : List Value) (op : PhotoOp)
      (h : (e.task.on (.replayed Value)).WaitsOn answers op) : e.WaitsOn answers op :=
    Errand.waitsOn_iff.mpr h
  have begun : Pool.Leads (plan.backends.services .standard) ⟨.start, []⟩
      ⟨.start, [⟨first, ([] : List Value)⟩, ⟨second, []⟩]⟩ :=
    .tail (.tail .refl (.begun first _ [])) (.begun second _ [_])
  have key₁ := begun.tail (.answered #[] [] [_] (waits first _ _ fun _ => rfl) rfl)
  have key₂ := key₁.tail (.answered #[] [_] [] (waits second _ _ fun _ => rfl) rfl)
  have filed₂ := key₂.tail (.answered #[] [_] [] (waits second _ _ fun _ => rfl) rfl)
  have filed₁ := filed₂.tail (.answered #[] [] [_] (waits first _ _ fun _ => rfl) rfl)
  have kept₁ := filed₁.tail (.answered #[] [] [_] (waits first _ _ fun _ => rfl) rfl)
  have failed₂ := kept₁.tail (.stopped #[] [_] [] (waits second _ _ fun _ => rfl) rfl)
  exact ⟨serve, rfl, _, failed₂, rfl, (serve.no_orphans .standard rfl).1 _ failed₂⟩

end PhotoArchive
