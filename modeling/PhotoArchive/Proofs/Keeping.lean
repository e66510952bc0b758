import PhotoArchive.Interpreter.Narrated
import PhotoArchive.Proofs.Substitution

/-!
# Services that keep what they are given

What services do to a pair of stores, whatever else there is in their state: what is put is there
until something else is put in its place, and what is asked for is what is there. An operation may
also fail, if operations may fail at all, and then the stores stay as they are. Supplied maps, their
narration and stores in memory as backends keep without fail. Backends of which any call may fail
keep as well, apart from the operations that fail.
-/
namespace PhotoArchive

variable {C : Context} {σ α β : Type}

/-! ## What is in the stores -/

theorem MetadataStore.get?_put (s : MetadataStore) (r : MetadataRecord) (id : PhotoId) :
    (s.put r).get? id = if r.id = id then some r else s.get? id := by
  simp only [put, get?, Std.ExtTreeMap.getElem?_insert, Std.LawfulEqCmp.compare_eq_iff_eq]

theorem BlobStore.get?_put (s : BlobStore) (key : BlobKey) (content : ByteArray) (other : BlobKey) :
    (s.put key content).get? other = if key = other then some content else s.get? other := by
  simp only [put, get?, Std.ExtTreeMap.getElem?_insert, Std.LawfulEqCmp.compare_eq_iff_eq]

/-- How services keep stores: the stores in a state, how work ends where a record or a content is
asked for that is not there, and which ends are failures of operations. -/
structure Keeping (C : Context) (σ : Type) where
  view : σ → Stores
  noRecord : PhotoId → C.Stop
  noContent : BlobKey → C.Stop
  failed? : C.Stop → Option OperationName
  mayFail : Prop

namespace Keeping

variable (k : Keeping C σ)

/-- The end is a failure of the operation, and there are failures. -/
def Fails (op : OperationName) (stop : C.Stop) : Prop :=
  k.mayFail ∧ k.failed? stop = some op

def recordIn (s : Stores) (id : PhotoId) : Except C.Stop MetadataRecord :=
  match s.metadata.get? id with
  | some record => .ok record
  | none => .error (k.noRecord id)

def contentIn (s : Stores) (key : BlobKey) : Except C.Stop ByteArray :=
  match s.blobs.get? key with
  | some content => .ok content
  | none => .error (k.noContent key)

/-- What an operation from some stores comes to, and the stores after it: what is expected, or a
failure that changes nothing. -/
inductive Ends (op : OperationName) (s : Stores) (o : Except C.Stop α) (t : Stores) :
    Except C.Stop α → Stores → Prop where
  | done : Ends op s o t o t
  | failed {stop : C.Stop} (h : k.Fails op stop) : Ends op s o t (.error stop) s

/-- From the stores, whatever else there is in the state, what the action comes to and the stores
after it are as described. -/
def Brings (x : Action C σ α) (s : Stores) (Q : Except C.Stop α → Stores → Prop) : Prop :=
  ∀ w, k.view w.state = s → Q ((x.run w).1.map Noted.value) (k.view (x.run w).2.state)

namespace Brings

variable {k} {x : Action C σ α} {s : Stores} {P Q : Except C.Stop α → Stores → Prop}

theorem mono (h : k.Brings x s P) (hPQ : ∀ o t, P o t → Q o t) : k.Brings x s Q :=
  fun w hw => hPQ _ _ (h w hw)

theorem pure {a : α} (h : Q (.ok a) s) : k.Brings (Pure.pure a) s Q := by
  rintro w rfl
  exact h

theorem bind {f : α → Action C σ β} {R : Except C.Stop β → Stores → Prop}
    (h : k.Brings x s P) (hok : ∀ a t, P (.ok a) t → k.Brings (f a) t R)
    (herror : ∀ stop t, P (.error stop) t → R (.error stop) t) : k.Brings (x >>= f) s R := by
  intro w hw
  have first := h w hw
  rcases hx : x.run w with ⟨stop | r, w₁⟩
  · rw [hx] at first
    rw [Action.run_bind_error hx]
    exact herror stop _ first
  · rw [hx] at first
    have next := hok r.value _ first w₁ rfl
    rw [Action.run_bind_ok hx]
    -- a note before the outcome does not change its value
    cases hf : ((f r.value).run w₁).1 <;> rw [hf] at next <;> exact next

/-- After an operation there are three ways to go on: from the value that is expected, with the end
that is expected, and with a failure, which leaves the stores as they were. -/
theorem andThen {op : OperationName} {o : Except C.Stop α} {t : Stores} {f : α → Action C σ β}
    {R : Except C.Stop β → Stores → Prop} (h : k.Brings x s (k.Ends op s o t))
    (hok : ∀ a, o = .ok a → k.Brings (f a) t R)
    (herror : ∀ stop, o = .error stop → R (.error stop) t)
    (hfail : ∀ stop, k.Fails op stop → R (.error stop) s) : k.Brings (x >>= f) s R := by
  refine h.bind (fun a u ends => ?_) (fun stop u ends => ?_)
  · generalize ho : Except.ok a = result at ends
    cases ends with
    | done => exact hok a ho.symm
    | failed _ => cases ho
  · generalize ho : Except.error stop = result at ends
    cases ends with
    | done => exact herror stop ho.symm
    | failed fails =>
      cases ho
      exact hfail stop fails

end Brings

end Keeping

/-- The services keep stores: each operation does what is expected, or it fails. A key is given
without fail. -/
structure Services.Keep (svc : Services C σ) (k : Keeping C σ) : Prop where
  insertRecord : ∀ id key creator s, k.Brings (svc.metadata.insertRecord id key creator) s
    (k.Ends .insertRecord s (.ok ⟨id, key, creator⟩) (s.after (.putRecord ⟨id, key, creator⟩)))
  getRecord : ∀ id s, k.Brings (svc.metadata.getRecord id) s
    (k.Ends .getRecord s (k.recordIn s id) s)
  generateKey : ∀ id s, k.Brings (svc.blobs.generateKey id) s fun o t =>
    o = .ok (.derive id) ∧ t = s
  writeContent : ∀ key content s, k.Brings (svc.blobs.writeContent key content) s
    (k.Ends .writeContent s (.ok ()) (s.after (.putBlob key content)))
  readContent : ∀ key s, k.Brings (svc.blobs.readContent key) s
    (k.Ends .readContent s (k.contentIn s key) s)

/-! ## Supplied maps and their narration -/

def Keeping.supplied : Keeping .immediate Supplied :=
  ⟨Supplied.stores, .noRecord, .noContent, fun _ => none, False⟩

theorem Supplied.keep_services : (services .whole).Keep .supplied where
  insertRecord id key creator s := by
    rintro w rfl
    exact .done
  getRecord id s := by
    rintro w rfl
    rw [run_getRecord, Keeping.recordIn]
    show Keeping.Ends _ _ _ (match w.state.records.get? id with
      | some record => _
      | none => _) _ _ _
    cases w.state.records.get? id <;> exact .done
  generateKey id s := by
    rintro w rfl
    exact ⟨rfl, rfl⟩
  writeContent key content s := by
    rintro w rfl
    exact .done
  readContent key s := by
    rintro w rfl
    rw [run_readContent, Keeping.contentIn]
    show Keeping.Ends _ _ _ (match w.state.contents.get? key with
      | some content => _
      | none => _) _ _ _
    cases w.state.contents.get? key <;> exact .done

def Keeping.narrated (k : Keeping .immediate σ) : Keeping .traced σ :=
  ⟨k.view, k.noRecord, k.noContent, k.failed?, k.mayFail⟩

theorem Keeping.Brings.narrate {k : Keeping .immediate σ} {x : Action .immediate σ α} {s : Stores}
    {Q : Except Abort α → Stores → Prop} (h : k.Brings x s Q) (line : String) :
    k.narrated.Brings (x.narrate line) s Q := by
  intro w hw
  have plain := h w hw
  simp only [Action.narrate]
  rcases hx : x.run w with ⟨reason | r, w₁⟩
  · rw [hx] at plain
    exact plain
  · rw [hx] at plain
    exact plain

theorem Keeping.Ends.narrated {k : Keeping .immediate σ} {op : OperationName} {s t u : Stores}
    {o o' : Except (Context.immediate).Stop α} (h : k.Ends op s o t o' u) :
    k.narrated.Ends op s o t o' u := by
  cases h with
  | done => exact .done
  | failed fails => exact .failed fails

/-- Narrated services keep as the services do. -/
theorem Services.Keep.narrated {svc : Services .immediate σ} {k : Keeping .immediate σ}
    (h : svc.Keep k) : svc.narrated.Keep k.narrated where
  insertRecord id key creator s :=
    ((h.insertRecord id key creator s).narrate _).mono fun _ _ ends => ends.narrated
  getRecord id s := ((h.getRecord id s).narrate _).mono fun _ _ ends => ends.narrated
  generateKey id s := (h.generateKey id s).narrate _
  writeContent key content s :=
    ((h.writeContent key content s).narrate _).mono fun _ _ ends => ends.narrated
  readContent key s := ((h.readContent key s).narrate _).mono fun _ _ ends => ends.narrated

/-! ## Backends -/

def Halt.failed? : Halt → Option OperationName
  | .failed error => some error.op
  | .absent | .aborted _ => none

/-- How backends keep stores that are found in their state, with or without failures. -/
def Keeping.backed (view : σ → Stores) (mayFail : Prop) : Keeping .awaited σ where
  view := view
  noRecord _ := .absent
  noContent key := .failed (.backend .readContent (.blobNotFound key))
  failed? := Halt.failed?
  mayFail := mayFail

/-- The call is answered as it is to be and leaves the stores that it is to leave. If calls may
fail, it may instead take some time, or be answered that the store is unavailable and leave the
stores as they are. As long as it is not answered, they are as they are in any case. -/
structure Call.Keeps (c : Call σ α) (view : σ → Stores) (mayFail : Prop) (s : Stores)
    (answer : Except StoreError α) (t : Stores) : Prop where
  unanswered : ∀ t < c.delay, view (c.sofar t).state = s
  prompt : c.delay = .zero ∨ mayFail
  ended : (c.answer = answer ∧ view c.answered = t) ∨
    (mayFail ∧ (∃ reason, c.answer = .error (.unavailable reason)) ∧ view c.answered = s)

/-- The backends keep stores that are found in their state: each call does what stores in memory
do, or it fails if calls may fail. -/
structure Backends.Keep (b : Backends σ) (view : σ → Stores) (mayFail : Prop) : Prop where
  putRecord : ∀ r s, (b.metadata.put r s).Keeps view mayFail (view s) (.ok ())
    ((view s).after (.putRecord r))
  getRecord : ∀ id s, (b.metadata.get id s).Keeps view mayFail (view s)
    (.ok ((view s).metadata.get? id)) (view s)
  putBlob : ∀ key content s, (b.blobs.put key content s).Keeps view mayFail (view s) (.ok ())
    ((view s).after (.putBlob key content))
  getBlob : ∀ key s, (b.blobs.get key s).Keeps view mayFail (view s) ((view s).blobs.get key)
    (view s)

/-- What an operation comes to by the answer to its call. -/
def OperationName.ended (op : OperationName) : Except StoreError (Option α) → Except Halt α
  | .ok (some a) => .ok a
  | .ok none => .error .absent
  | .error e => .error (.failed (.backend op e))

theorem Call.Keeps.map {c : Call σ α} {view : σ → Stores} {mayFail : Prop} {s t : Stores}
    {answer : Except StoreError α} (h : c.Keeps view mayFail s answer t) (f : α → β) :
    (c.map f).Keeps view mayFail s (answer.map f) t where
  unanswered := h.unanswered
  prompt := h.prompt
  ended := by
    rcases h.ended with ⟨answered, state⟩ | ⟨may, ⟨reason, unavailable⟩, state⟩
    · exact .inl ⟨congrArg (Except.map f) answered, state⟩
    · exact .inr ⟨may, ⟨reason, congrArg (Except.map f) unavailable⟩, state⟩

/-- An operation whose call keeps comes to what the answer is to be, or it fails. -/
theorem Action.brings_ofCall {view : σ → Stores} {mayFail : Prop} (settings : Settings)
    (op : OperationName) {call : σ → Call σ (Option α)} {s t : Stores}
    (answer : Except StoreError (Option α))
    (keeps : ∀ u, view u = s → (call u).Keeps view mayFail s answer t) :
    (Keeping.backed view mayFail).Brings (ofCall settings op call) s
      ((Keeping.backed view mayFail).Ends op s (op.ended answer) t) := by
  intro w hw
  obtain ⟨unanswered, prompt, ended⟩ := keeps w.state hw
  change Keeping.Ends _ _ _ _ _ _ (view ((ofCall settings op call).run w).2.state)
  cases exceeded : settings.exceeded? (call w.state).delay with
  | some limit =>
    have may : mayFail := prompt.resolve_left fun promptly => by
      rw [promptly, settings.exceeded?_zero] at exceeded
      cases exceeded
    simp only [ofCall, exceeded, unanswered limit (Settings.lt_of_exceeded? exceeded)]
    exact .failed ⟨may, rfl⟩
  | none =>
    obtain ⟨outcome, state⟩ := run_ofCall settings op exceeded
    rw [outcome, state, Call.outcome]
    rcases ended with ⟨answered, after⟩ | ⟨may, ⟨reason, unavailable⟩, after⟩
    · rw [answered, after]
      rcases answer with e | _ | a <;> exact .done
    · rw [unavailable, after]
      exact .failed ⟨may, rfl⟩

/-- Services over backends that keep stores keep them. -/
theorem Backends.Keep.services {b : Backends σ} {view : σ → Stores} {mayFail : Prop}
    (h : b.Keep view mayFail) (settings : Settings) :
    (b.services settings).Keep (.backed view mayFail) where
  insertRecord id key creator s := by
    dsimp only [Backends.services, MetadataBackend.service]
    let record : MetadataRecord := ⟨id, key, creator⟩
    refine Action.brings_ofCall settings _ (.ok (some record)) ?_
    rintro u rfl
    exact (h.putRecord ⟨id, key, creator⟩ u).map _
  getRecord id s := by
    have found : OperationName.getRecord.ended (.ok (s.metadata.get? id)) =
        (Keeping.backed view mayFail).recordIn s id := by
      rw [Keeping.recordIn]
      cases s.metadata.get? id <;> rfl
    rw [← found]
    refine Action.brings_ofCall settings _ _ ?_
    rintro u rfl
    exact h.getRecord id u
  generateKey id s := by
    rintro w rfl
    -- keys need no backend, and no limit is exceeded
    dsimp only [Backends.services, BlobBackend.service, Action.ofCall, Call.immediate]
    rw [settings.exceeded?_zero]
    exact ⟨rfl, rfl⟩
  writeContent key content s := by
    dsimp only [Backends.services, BlobBackend.service]
    refine Action.brings_ofCall settings _ (.ok (some ())) ?_
    rintro u rfl
    exact (h.putBlob key content u).map _
  readContent key s := by
    have found : OperationName.readContent.ended ((s.blobs.get key).map some) =
        (Keeping.backed view mayFail).contentIn s key := by
      rw [Keeping.contentIn, BlobStore.get]
      cases s.blobs.get? key <;> rfl
    rw [← found]
    dsimp only [Backends.services, BlobBackend.service]
    refine Action.brings_ofCall settings _ _ ?_
    rintro u rfl
    exact (h.getBlob key u).map _

/-- A call that is answered at once keeps if the answer is as it is to be. -/
theorem Call.keeps_immediate {view : σ → Stores} {after : σ} {t : Stores} (s : Stores)
    (left : view after = t) (answer : Except StoreError α) (reports : List StoreEvent) :
    (Call.immediate answer reports after).Keeps view False s answer t where
  unanswered _ early := absurd early (Duration.not_lt_zero _)
  prompt := .inl rfl
  ended := .inl ⟨rfl, left⟩

/-- Stores in memory keep without fail. -/
theorem Stores.keep_backends (cell : Slot σ Stores) :
    (Stores.backends cell).Keep cell.get False where
  putRecord _ _ := Call.keeps_immediate _ (cell.get_set _ _) _ _
  getRecord _ _ := Call.keeps_immediate _ rfl _ _
  putBlob _ _ _ := Call.keeps_immediate _ (cell.get_set _ _) _ _
  getBlob _ _ := Call.keeps_immediate _ rfl _ _

/-- A call that keeps also keeps where calls may fail. -/
theorem Call.Keeps.fallible {c : Call σ α} {view : σ → Stores} {mayFail : Prop} {s t : Stores}
    {answer : Except StoreError α} (h : c.Keeps view mayFail s answer t) :
    c.Keeps view True s answer t :=
  ⟨h.unanswered, .inr trivial, h.ended.imp_right fun failed => ⟨trivial, failed.2⟩⟩

/-- A watched call keeps what the call keeps, or it meets its fault. -/
theorem Watch.keeps_call {watch : Watch σ} {view : σ → Stores} {mayFail : Prop}
    (count : ∀ n s, view (watch.count.set n s) = view s)
    (lines : ∀ ls s, view (watch.lines.set ls s) = view s) {inner : σ → Call σ α}
    (answer : Stores → Except StoreError α) (after : Stores → Stores)
    (h : ∀ s, (inner s).Keeps view mayFail (view s) (answer (view s)) (after (view s)))
    (line : String) (s : σ) :
    (watch.call line inner s).Keeps view True (view s) (answer (view s)) (after (view s)) := by
  have same : view (watch.lines.modify (line :: ·)
      (watch.count.set (watch.count.get s + 1) s)) = view s :=
    (lines _ _).trans (count _ _)
  have kept := (h (watch.lines.modify (line :: ·)
    (watch.count.set (watch.count.get s + 1) s))).fallible
  rw [same] at kept
  dsimp only [call]
  split
  · exact kept
  · exact ⟨fun _ _ => same, .inr trivial, .inr ⟨trivial, ⟨_, rfl⟩, same⟩⟩
  · refine ⟨fun t early => ?_, .inr trivial, kept.ended⟩
    dsimp only
    split
    · exact same
    · exact kept.unanswered _ (Duration.sub_lt_of_lt_add early ‹_›)

/-- The watched stores of a session keep, apart from the calls that meet a fault. -/
theorem BackedPlan.keep_backends {p : BackedPlan} (watched : p.unwatched = false) :
    p.backends.Keep BackedState.stores True := by
  have inner := Stores.keep_backends BackedState.storesSlot
  simp only [backends, watched, Bool.false_eq_true, if_false]
  refine ⟨fun r => ?_, fun id => ?_, fun key content => ?_, fun key => ?_⟩
  · exact Watch.keeps_call (fun _ _ => rfl) (fun _ _ => rfl) (fun _ => .ok ())
      (·.after (.putRecord r)) (inner.putRecord r) _
  · exact Watch.keeps_call (fun _ _ => rfl) (fun _ _ => rfl)
      (fun t => .ok (t.metadata.get? id)) (fun t => t) (inner.getRecord id) _
  · exact Watch.keeps_call (fun _ _ => rfl) (fun _ _ => rfl) (fun _ => .ok ())
      (·.after (.putBlob key content)) (inner.putBlob key content) _
  · exact Watch.keeps_call (fun _ _ => rfl) (fun _ _ => rfl) (·.blobs.get key)
      (fun t => t) (inner.getBlob key) _

end PhotoArchive
