import PhotoArchive.Interpreter.Supplied
import PhotoArchive.Proofs.Call
import PhotoArchive.Proofs.Congruence
import PhotoArchive.Session.Backed

/-!
# Supplied maps and stores in memory

A program is carried out on supplied maps and, from the same records and contents, on stores in
memory as backends. The two runs go in step: they hand over the same operations and keep the same
records and contents. They come to the same value, or they end at the same operation, each in the
way that its context has for what is missing.
-/
namespace PhotoArchive

variable {α V : Type}

/-! ## How runs correspond -/

def Supplied.stores (s : Supplied) : Stores :=
  ⟨s.records, s.contents⟩

/-- How work on supplied maps and work on stores in memory end without a value together, after the
operations that both have handed over. What is missing was asked for last. -/
inductive Abort.Matches : Abort → Halt → List PhotoOp → Prop where
  | noRecord {id : PhotoId} {ops : List PhotoOp}
    (last : ops.getLast? = some (.inl (.getRecord id))) : Matches (.noRecord id) .absent ops
  | noContent {key : BlobKey} {ops : List PhotoOp}
    (last : ops.getLast? = some (.inr (.readContent key))) :
    Matches (.noContent key) (.failed (.backend .readContent (.blobNotFound key))) ops
  | wrongType {expected : String} {ops : List PhotoOp} :
    Matches (.wrongType expected) (.aborted (.wrongType expected)) ops

/-- What both come to: the same value, or ends that match. -/
inductive Outcome.Matches :
    Outcome .immediate α → Outcome .awaited α → List PhotoOp → Prop where
  | value (a : α) (ops : List PhotoOp) : Matches (.ok ⟨a, ()⟩) (.ok ⟨a, ()⟩) ops
  | ended {reason : Abort} {halt : Halt} {ops : List PhotoOp} (h : reason.Matches halt ops) :
    Matches (.error reason) (.error halt) ops

/-- From the same records, contents and operations written down, the two actions come to outcomes
that match and leave the same again. -/
def Action.InStep (x : Action .immediate (Supplied × List PhotoOp) α)
    (y : Action .awaited (Stores × List PhotoOp) α) : Prop :=
  ∀ w v, v.state = (w.state.1.stores, w.state.2) →
    Outcome.Matches (x.run w).1 (y.run v).1 (y.run v).2.state.2 ∧
      (y.run v).2.state = ((x.run w).2.state.1.stores, (x.run w).2.state.2)

namespace Action.InStep

theorem bind {β : Type} {x : Action .immediate (Supplied × List PhotoOp) α}
    {y : Action .awaited (Stores × List PhotoOp) α}
    {f : α → Action .immediate (Supplied × List PhotoOp) β}
    {g : α → Action .awaited (Stores × List PhotoOp) β} (hxy : InStep x y)
    (hfg : ∀ a, InStep (f a) (g a)) : InStep (x >>= f) (y >>= g) := by
  intro w v same
  obtain ⟨outcomes, states⟩ := hxy w v same
  match hx : x.run w, hy : y.run v with
  | (o, w₁), (o', v₁) =>
    rw [hx, hy] at outcomes states
    cases outcomes with
    | value a =>
      obtain ⟨outcomes', states'⟩ := hfg a w₁ v₁ states
      rw [run_bind_ok hx, run_bind_ok hy]
      refine ⟨?_, states'⟩
      -- neither context has anything to note
      rw [Outcome.after_empty, Outcome.after_empty]
      exact outcomes'
    | ended h =>
      rw [run_bind_error hx, run_bind_error hy]
      exact ⟨.ended h, states⟩

/-- An operation and a call that is answered at once, both written down, are in step where the
answer is what the operation comes to. -/
theorem recorded_ofCall {op : PhotoOp} {x : Action .immediate Supplied α} {settings : Settings}
    {name : OperationName} {call : Stores → Call Stores (Option α)}
    (prompt : ∀ s, (call s).delay = .zero)
    (answer : ∀ (w : World Supplied) (ops : List PhotoOp), ops.getLast? = some op →
      Outcome.Matches (x.run w).1 ((call w.state.stores).outcome name) ops ∧
        (call w.state.stores).answered = (x.run w).2.state.stores) :
    InStep (x.recorded op) ((ofCall settings name call).recorded op) := by
  intro w v same
  obtain ⟨stores, log⟩ := Prod.mk.inj same
  have inTime : settings.exceeded? (call v.state.1).delay = none := by
    rw [prompt]
    exact settings.exceeded?_zero
  obtain ⟨outcome, state⟩ := run_ofCall settings name (w := ⟨v.state.1, v.events⟩) inTime
  rw [show (⟨v.state.1, v.events⟩ : World Stores).state = w.state.1.stores from stores]
    at outcome state
  obtain ⟨outcomes, states⟩ :=
    answer ⟨w.state.1, w.events⟩ (v.state.2 ++ [op]) List.getLast?_concat
  refine ⟨?_, Prod.ext (state.trans states) (congrArg (· ++ [op]) log)⟩
  show Outcome.Matches _ ((ofCall settings name call).run ⟨v.state.1, v.events⟩).1 _
  rw [outcome]
  exact outcomes

end Action.InStep

/-- Supplied maps and stores in memory, in step. -/
def Congruence.substitution :
    Congruence .immediate .awaited (Supplied × List PhotoOp) (Stores × List PhotoOp) where
  Rel := Action.InStep
  pure a _ _ same := ⟨.value a _, same⟩
  bind := Action.InStep.bind
  wrongType _ _ _ same := ⟨.ended .wrongType, same⟩
  emit _ _ _ same := ⟨.value () _, same⟩

namespace Supplied

theorem run_getRecord (id : PhotoId) (w : World Supplied) :
    ((services .whole).metadata.getRecord id).run w =
      match w.state.records.get? id with
      | some record => (.ok ⟨record, ()⟩, w)
      | none => (.error (.noRecord id), w) := by
  have asked : (Action.onState fun s => (s.records.get? id, s) :
      Action .immediate Supplied _).run w = (.ok ⟨w.state.records.get? id, ()⟩, w) := rfl
  refine (Action.run_bind_ok asked _).trans ?_
  cases w.state.records.get? id <;> rfl

theorem run_readContent (key : BlobKey) (w : World Supplied) :
    ((services .whole).blobs.readContent key).run w =
      match w.state.contents.get? key with
      | some content => (.ok ⟨content, ()⟩, w)
      | none => (.error (.noContent key), w) := by
  have asked : (Action.onState fun s => (s.contents.get? key, s) :
      Action .immediate Supplied _).run w = (.ok ⟨w.state.contents.get? key, ()⟩, w) := rfl
  refine (Action.run_bind_ok asked _).trans ?_
  cases w.state.contents.get? key <;> rfl

/-- Each operation on supplied maps is in step with the operation on stores in memory. -/
theorem inStep_backends (settings : Settings) :
    Congruence.substitution.OnServices (services .whole).recorded
      ((Stores.backends .whole).services settings).recorded where
  insertRecord id key creator := by
    dsimp only [Congruence.substitution, Services.recorded, Backends.services,
      MetadataBackend.service]
    apply Action.InStep.recorded_ofCall
    · exact fun _ => rfl
    · exact fun w ops _ => ⟨.value _ ops, rfl⟩
  getRecord id := by
    dsimp only [Congruence.substitution, Services.recorded, Backends.services,
      MetadataBackend.service]
    apply Action.InStep.recorded_ofCall
    · exact fun _ => rfl
    · intro w ops last
      rw [run_getRecord]
      show Outcome.Matches _ (Call.outcome _
        (.immediate (.ok (w.state.records.get? id)) _ _)) _ ∧ _
      cases w.state.records.get? id with
      | some record => exact ⟨.value record ops, rfl⟩
      | none => exact ⟨.ended (.noRecord last), rfl⟩
  generateKey id := by
    dsimp only [Congruence.substitution, Services.recorded, Backends.services,
      BlobBackend.service]
    apply Action.InStep.recorded_ofCall
    · exact fun _ => rfl
    · exact fun w ops _ => ⟨.value _ ops, rfl⟩
  writeContent key content := by
    dsimp only [Congruence.substitution, Services.recorded, Backends.services,
      BlobBackend.service]
    apply Action.InStep.recorded_ofCall
    · exact fun _ => rfl
    · exact fun w ops _ => ⟨.value _ ops, rfl⟩
  readContent key := by
    dsimp only [Congruence.substitution, Services.recorded, Backends.services,
      BlobBackend.service]
    apply Action.InStep.recorded_ofCall
    · exact fun _ => rfl
    · intro w ops last
      rw [run_readContent]
      show Outcome.Matches _ (Call.outcome _
        (Call.map some (.immediate (w.state.contents.get key) _ _))) _ ∧ _
      unfold BlobStore.get
      cases w.state.contents.get? key with
      | some content => exact ⟨.value content ops, rfl⟩
      | none => exact ⟨.ended (.noContent last), rfl⟩

end Supplied

/-! ## Telling one end from the other -/

/-- The work breaks off with these words. -/
def Outcome.BreaksOff (o : Outcome .immediate α) (words : String) : Prop :=
  ∃ reason : Abort, o = .error reason ∧ reason.message = words

namespace Abort

/-- The reasons that are not a service's own are told apart by their wording. -/
theorem message_injective {a b : Abort} (ha : ∀ wording, a ≠ .other wording)
    (hb : ∀ wording, b ≠ .other wording) (h : a.message = b.message) : a = b := by
  have letters := congrArg String.toList h
  -- two different wordings part within their first four letters
  cases a with
  | noRecord id =>
    cases b with
    | noRecord id' =>
      rw [message_noRecord, message_noRecord, String.append_right_inj] at h
      rw [PhotoId.bytes_injective (congrArg Text.utf8Bytes h)]
    | noContent _ => simp [message_noRecord, message_noContent] at letters
    | wrongType _ => simp [message_noRecord, message_wrongType] at letters
    | other wording => exact absurd rfl (hb wording)
  | noContent key =>
    cases b with
    | noRecord _ => simp [message_noRecord, message_noContent] at letters
    | noContent key' =>
      rw [message_noContent, message_noContent, String.append_right_inj] at h
      rw [BlobKey.toHex_injective h]
    | wrongType _ => simp [message_noContent, message_wrongType] at letters
    | other wording => exact absurd rfl (hb wording)
  | wrongType expected =>
    cases b with
    | noRecord _ => simp [message_noRecord, message_wrongType] at letters
    | noContent _ => simp [message_noContent, message_wrongType] at letters
    | wrongType expected' =>
      rw [message_wrongType, message_wrongType, String.append_left_inj,
        String.append_right_inj] at h
      rw [h]
    | other wording => exact absurd rfl (hb wording)
  | other wording => exact absurd rfl (ha wording)

namespace Matches

variable {reason : Abort} {halt : Halt} {ops : List PhotoOp}

theorem ne_other (h : reason.Matches halt ops) (wording : String) : reason ≠ .other wording := by
  cases h <;> simp

theorem noRecord_iff (h : reason.Matches halt ops) (id : PhotoId) :
    reason.message = (Abort.noRecord id).message ↔
      halt = .absent ∧ ops.getLast? = some (.inl (.getRecord id)) := by
  constructor
  · intro same
    obtain rfl := message_injective h.ne_other (by simp) same
    cases h with
    | noRecord last => exact ⟨rfl, last⟩
  · rintro ⟨rfl, last⟩
    cases h with
    | noRecord last' =>
      rw [last'] at last
      cases last
      rfl

theorem noContent_iff (h : reason.Matches halt ops) (key : BlobKey) :
    reason.message = (Abort.noContent key).message ↔
      halt = .failed (.backend .readContent (.blobNotFound key)) := by
  constructor
  · intro same
    obtain rfl := message_injective h.ne_other (by simp) same
    cases h with
    | noContent last => rfl
  · rintro rfl
    cases h with
    | noContent last => rfl

end Matches

end Abort

namespace Outcome.Matches

variable {o : Outcome .immediate α} {o' : Outcome .awaited α} {ops : List PhotoOp}

theorem value_iff (h : Matches o o' ops) (a : α) : o = .ok ⟨a, ()⟩ ↔ o' = .ok ⟨a, ()⟩ := by
  cases h with
  | value b => simp
  | ended h => simp

theorem noRecord_iff (h : Matches o o' ops) (id : PhotoId) :
    o.BreaksOff ("no metadata record supplied for photo " ++ id.text) ↔
      o' = .error .absent ∧ ops.getLast? = some (.inl (.getRecord id)) := by
  cases h with
  | value b => simp [BreaksOff]
  | ended h =>
    rw [← Abort.message_noRecord]
    simpa [BreaksOff] using h.noRecord_iff id

theorem noContent_iff (h : Matches o o' ops) (key : BlobKey) :
    o.BreaksOff ("no content supplied for key " ++ key.toHex) ↔
      o' = .error (.failed (.backend .readContent (.blobNotFound key))) := by
  cases h with
  | value b => simp [BreaksOff]
  | ended h =>
    rw [← Abort.message_noContent]
    simpa [BreaksOff] using h.noContent_iff key

end Outcome.Matches

/-- A program can be carried out on supplied maps in place of stores in memory that hold the same.
It comes to a value on the one where it does on the other, and to the same value. It breaks off for
want of a record where the stores have nothing to give at that same operation, and for want of a
content where the backend fails for want of it. Both hand over the same operations, and both leave
the same records and contents. -/
theorem Program.supplied_matches_backed [CarriesAnswers V] [Carries V α]
    (p : Program PhotoOp V α) (settings : Settings) (w : World Supplied)
    (reported : Array Event) :
    let inMemory := (Stores.backends .whole).services settings
    let start : World Stores := ⟨w.state.stores, reported⟩
    let supplied := (p.execute (Supplied.services .whole).recorded.handler).observe w
    let backed := (p.execute inMemory.recorded.handler).observe start
    (∀ a, supplied.outcome = .ok ⟨a, ()⟩ ↔ backed.outcome = .ok ⟨a, ()⟩) ∧
      (∀ id : PhotoId,
        supplied.outcome.BreaksOff ("no metadata record supplied for photo " ++ id.text) ↔
          backed.outcome = .error .absent ∧
            backed.operations.getLast? = some (.inl (.getRecord id))) ∧
      (∀ key : BlobKey,
        supplied.outcome.BreaksOff ("no content supplied for key " ++ key.toHex) ↔
          backed.outcome = .error (.failed (.backend .readContent (.blobNotFound key)))) ∧
      supplied.operations = backed.operations ∧
      (supplied.state.records = backed.state.metadata ∧
        supplied.state.contents = backed.state.blobs) ∧
      supplied.plain = (p.execute (Supplied.services .whole).handler).run w ∧
      backed.plain = (p.execute inMemory.handler).run start := by
  intro inMemory start supplied backed
  have related := Supplied.inStep_backends settings
  obtain ⟨outcomes, states⟩ :=
    Congruence.substitution.execute related.handler p (w.withLog []) (start.withLog []) rfl
  obtain ⟨stores, operations⟩ := Prod.mk.inj states
  refine ⟨outcomes.value_iff, outcomes.noRecord_iff, outcomes.noContent_iff, operations.symm,
    ?_, ?_, ?_⟩
  · exact ⟨congrArg Stores.metadata stores.symm, congrArg Stores.blobs stores.symm⟩
  · rw [← p.plain_observe_execute, ← Services.handler_recorded]
  · rw [← p.plain_observe_execute, ← Services.handler_recorded]

end PhotoArchive
