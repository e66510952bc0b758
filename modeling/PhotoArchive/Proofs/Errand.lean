import PhotoArchive.Proofs.Encoding
import PhotoArchive.Proofs.Keeping

/-!
# Errands

An errand is a workflow that saves a photo or asks for one, with its arguments, carried out
directly or as a program. Errands are carried out one after another on the same services. The
history of the saves among them tells what the stores hold: the record of an identifier is that of
the latest save that filed it, and the content under its key is that of the latest save that kept
it. The two need not be the same save where an operation may fail between them.
-/
namespace PhotoArchive

variable {C : Context} {σ : Type}

/-! ## Tasks -/

inductive Task where
  | savePhoto (photo : Photo)
  | saveThenGetPhoto (photo : Photo)
  | getPhoto (id : PhotoId)
  | getCreator (id : PhotoId)

namespace Task

def id : Task → PhotoId
  | .savePhoto photo | .saveThenGetPhoto photo => photo.id
  | .getPhoto id | .getCreator id => id

/-- The photo that the task saves, if it saves one. -/
def saved? : Task → Option Photo
  | .savePhoto photo | .saveThenGetPhoto photo => some photo
  | .getPhoto _ | .getCreator _ => none

abbrev Value : Task → Type
  | .savePhoto _ => Unit
  | .saveThenGetPhoto _ | .getPhoto _ => Photo
  | .getCreator _ => String

def procedure : (t : Task) → Procedure t.Value
  | .savePhoto photo => .savePhoto photo.id photo.creator photo.content
  | .saveThenGetPhoto photo => .saveThenGetPhoto photo.id photo.creator photo.content
  | .getPhoto id => .getPhoto id
  | .getCreator id => .getCreator id

def on (s : Services C σ) : (t : Task) → Action C σ t.Value
  | .savePhoto photo => s.savePhoto photo.id photo.creator photo.content
  | .saveThenGetPhoto photo => s.saveThenGetPhoto photo.id photo.creator photo.content
  | .getPhoto id => s.getPhoto id
  | .getCreator id => s.metadata.getCreator id

variable {V : Type} [CarriesAnswers V] [Carries V String] [Carries V Photo]

instance : (t : Task) → Carries V t.Value
  | .savePhoto _ => inferInstanceAs (Carries V Unit)
  | .saveThenGetPhoto _ | .getPhoto _ => inferInstanceAs (Carries V Photo)
  | .getCreator _ => inferInstanceAs (Carries V String)

def program : (t : Task) → Program PhotoOp V t.Value
  | .savePhoto photo => .savePhoto photo.id photo.creator photo.content
  | .saveThenGetPhoto photo => .saveThenGetPhoto photo.id photo.creator photo.content
  | .getPhoto id => .getPhoto id
  | .getCreator id => .getCreator id

theorem on_procedure (s : Services C σ) (t : Task) : t.procedure.on s = t.on s := by
  cases t with
  | savePhoto photo => exact Procedure.on_savePhoto s _ _ _
  | saveThenGetPhoto photo => exact Procedure.on_saveThenGetPhoto s _ _ _
  | getPhoto id => exact Procedure.on_getPhoto s id
  | getCreator id => exact Procedure.on_getCreator s id

theorem encodes (s : Services C σ) (t : Task) :
    (t.program : Program PhotoOp V t.Value).Encodes s.handler (t.on s) := by
  rw [← on_procedure]
  cases t with
  | savePhoto photo => exact .savePhoto s _ _ _
  | saveThenGetPhoto photo => exact .saveThenGetPhoto s _ _ _
  | getPhoto id => exact .getPhoto s id
  | getCreator id => exact .getCreator s id

end Task

/-! ## Errands one after another -/

/-- A task and whether it is carried out as a program (deferred) or directly. -/
structure Errand where
  task : Task
  deferred : Bool

section Carried

variable (V : Type) [CarriesAnswers V] [Carries V String] [Carries V Photo]

def Errand.action (s : Services C σ) (e : Errand) : Action C σ e.task.Value :=
  if e.deferred then (e.task.program : Program PhotoOp V e.task.Value).execute s.handler
  else e.task.on s

/-- However an errand is carried out, it comes to the same and leaves the same state. -/
theorem Errand.run_action (s : Services C σ) (e : Errand) (w : World σ) :
    ((e.action V s).run w).1 = ((e.task.on s).run w).1 ∧
      ((e.action V s).run w).2.state = ((e.task.on s).run w).2.state := by
  unfold action
  split
  · rw [← (e.task.encodes (V := V) s).meaning_eq]
    exact Program.run_execute_eq_meaning s.handler _ w
  · exact ⟨rfl, rfl⟩

def Services.after (s : Services C σ) : List Errand → World σ → World σ
  | [], w => w
  | e :: es, w => s.after es ((e.action V s).run w).2

/-- What an errand comes to after others, apart from what is noted. -/
def Services.answer (s : Services C σ) (w : World σ) (es : List Errand) (e : Errand) :
    Except C.Stop e.task.Value :=
  ((e.action V s).run (s.after V es w)).1.map Noted.value

end Carried

/-! ## What a task comes to -/

def Photo.record (photo : Photo) : MetadataRecord :=
  ⟨photo.id, .derive photo.id, photo.creator⟩

namespace Stores

def filed (s : Stores) (photo : Photo) : Stores :=
  s.after (.putRecord photo.record)

/-- The stores once the content is kept under the key of the record as well. -/
def saved (s : Stores) (photo : Photo) : Stores :=
  (s.filed photo).after (.putBlob (.derive photo.id) photo.content)

theorem get?_filed (s : Stores) (photo : Photo) (id : PhotoId) :
    (s.filed photo).metadata.get? id =
      if photo.id = id then some photo.record else s.metadata.get? id :=
  MetadataStore.get?_put _ _ _

theorem get?_saved (s : Stores) (photo : Photo) (key : BlobKey) :
    (s.saved photo).blobs.get? key =
      if .derive photo.id = key then some photo.content else s.blobs.get? key :=
  BlobStore.get?_put _ _ _ _

end Stores

namespace Keeping

variable (k : Keeping C σ) {α : Type}

def creatorIn (s : Stores) (id : PhotoId) : Except C.Stop String :=
  (k.recordIn s id).map MetadataRecord.creator

def photoIn (s : Stores) (id : PhotoId) : Except C.Stop Photo := do
  let record ← k.recordIn s id
  let content ← k.contentIn s record.key
  pure (.assemble record content)

/-- What asking comes to, and the stores after it: what is expected, or an operation that reads
failed. The stores are as they were. -/
inductive Reads (s : Stores) (expected : Except C.Stop α) : Except C.Stop α → Stores → Prop where
  | done : Reads s expected expected s
  | failed {stop : C.Stop} (h : k.Fails .getRecord stop ∨ k.Fails .readContent stop) :
    Reads s expected (.error stop) s

theorem Reads.of_ok {k : Keeping C σ} {s t : Stores} {expected : Except C.Stop α} {a : α}
    (reads : k.Reads s expected (.ok a) t) : expected = .ok a := by
  generalize answered : Except.ok a = o at reads
  cases reads with
  | done => rfl
  | failed _ => cases answered

/-- What saving a photo comes to, and the stores after it. The record may be filed and the content
not kept. -/
inductive Saves (photo : Photo) (s : Stores) : Except C.Stop Unit → Stores → Prop where
  | done : Saves photo s (.ok ()) (s.saved photo)
  | notFiled {stop : C.Stop} (h : k.Fails .insertRecord stop) : Saves photo s (.error stop) s
  | notKept {stop : C.Stop} (h : k.Fails .writeContent stop) :
    Saves photo s (.error stop) (s.filed photo)

/-- What saving a photo and getting it back comes to, and the stores after it. -/
inductive SavesThenReads (photo : Photo) (s : Stores) : Except C.Stop Photo → Stores → Prop where
  | saved {o : Except C.Stop Photo} {t : Stores} (h : k.Reads (s.saved photo) (.ok photo) o t) :
    SavesThenReads photo s o t
  | notSaved {stop : C.Stop} {t : Stores} (h : k.Saves photo s (.error stop) t) :
    SavesThenReads photo s (.error stop) t

/-- What a task comes to, and the stores after it. -/
def Performs (s : Stores) : (t : Task) → Except C.Stop t.Value → Stores → Prop
  | .savePhoto photo => k.Saves photo s
  | .saveThenGetPhoto photo => k.SavesThenReads photo s
  | .getPhoto id => k.Reads s (k.photoIn s id)
  | .getCreator id => k.Reads s (k.creatorIn s id)

/-- A photo that has just been saved is there. -/
theorem photoIn_saved (s : Stores) (photo : Photo) :
    k.photoIn (s.saved photo) photo.id = .ok photo := by
  have record : (s.saved photo).metadata.get? photo.id = some photo.record := by
    rw [show (s.saved photo).metadata = (s.filed photo).metadata from rfl, s.get?_filed, if_pos rfl]
  have content : (s.saved photo).blobs.get? (.derive photo.id) = some photo.content := by
    rw [s.get?_saved, if_pos rfl]
  rw [photoIn, recordIn, record]
  show (k.contentIn _ (.derive photo.id) >>= fun content => _) = _
  rw [contentIn, content]
  rfl

end Keeping

namespace Services.Keep

variable {svc : Services C σ} {k : Keeping C σ} (keep : svc.Keep k)

include keep

theorem brings_getCreator (id : PhotoId) (s : Stores) :
    k.Brings (svc.metadata.getCreator id) s (k.Reads s (k.creatorIn s id)) := by
  refine (keep.getRecord id s).andThen (fun record found => .pure ?_) (fun stop missing => ?_)
    fun stop fails => .failed (.inl fails)
  · have expected : k.creatorIn s id = .ok record.creator := by rw [Keeping.creatorIn, found]; rfl
    exact expected ▸ .done
  · have expected : k.creatorIn s id = .error stop := by rw [Keeping.creatorIn, missing]; rfl
    exact expected ▸ .done

theorem brings_getPhoto (id : PhotoId) (s : Stores) :
    k.Brings (svc.getPhoto id) s (k.Reads s (k.photoIn s id)) := by
  refine (keep.getRecord id s).andThen (fun record found => ?_) (fun stop missing => ?_)
    fun stop fails => .failed (.inl fails)
  · have joined : k.photoIn s id = (k.contentIn s record.key).map (Photo.assemble record) := by
      rw [Keeping.photoIn, found]
      rfl
    rw [joined]
    refine (keep.readContent record.key s).andThen (fun content found => .pure ?_)
      (fun stop missing => ?_) fun stop fails => .failed (.inr fails)
    · rw [found]
      exact .done
    · rw [missing]
      exact .done
  · have expected : k.photoIn s id = .error stop := by rw [Keeping.photoIn, missing]; rfl
    exact expected ▸ .done

theorem brings_savePhoto (photo : Photo) (s : Stores) :
    k.Brings (svc.savePhoto photo.id photo.creator photo.content) s (k.Saves photo s) := by
  refine (keep.generateKey photo.id s).bind ?_ (fun stop t given => nomatch given.1)
  rintro key t ⟨given, rfl⟩
  obtain rfl := Except.ok.inj given
  refine (keep.insertRecord photo.id (.derive photo.id) photo.creator t).andThen
    (fun record filed => ?_) nofun fun stop fails => .notFiled fails
  refine (keep.writeContent (.derive photo.id) photo.content (t.filed photo)).mono ?_
  intro o u ends
  cases ends with
  | done => exact .done
  | failed fails => exact .notKept fails

theorem brings_saveThenGetPhoto (photo : Photo) (s : Stores) :
    k.Brings (svc.saveThenGetPhoto photo.id photo.creator photo.content) s
      (k.SavesThenReads photo s) := by
  refine (keep.brings_savePhoto photo s).bind (fun _ t saves => ?_) fun stop t saves =>
    .notSaved saves
  cases saves with
  | done =>
    have get := keep.brings_getPhoto photo.id (s.saved photo)
    rw [k.photoIn_saved] at get
    exact get.mono fun o t reads => .saved reads

/-- Each task comes to what it is to come to. -/
theorem brings (t : Task) (s : Stores) : k.Brings (t.on svc) s (k.Performs s t) := by
  cases t with
  | savePhoto photo => exact keep.brings_savePhoto photo s
  | saveThenGetPhoto photo => exact keep.brings_saveThenGetPhoto photo s
  | getPhoto id => exact keep.brings_getPhoto id s
  | getCreator id => exact keep.brings_getCreator id s

end Services.Keep

/-! ## The history of saves -/

inductive Extent where
  | nothing
  | record
  | all
  deriving DecidableEq, Repr

/-- How far a save got, by what it came to. -/
def Extent.of {α : Type} (failed? : C.Stop → Option OperationName) : Except C.Stop α → Extent
  | .ok _ => .all
  | .error stop =>
    match failed? stop with
    | some .generateKey | some .insertRecord => .nothing
    | some .writeContent => .record
    | _ => .all

structure Attempt where
  photo : Photo
  extent : Extent

/-- What a task adds to the history of saves. -/
def Task.attempts (failed? : C.Stop → Option OperationName) (t : Task)
    (o : Except C.Stop t.Value) : List Attempt :=
  t.saved?.toList.map fun photo => ⟨photo, .of failed? o⟩

/-- The history of the saves among the errands, the earliest first. -/
def Services.history (V : Type) [CarriesAnswers V] [Carries V String] [Carries V Photo]
    (s : Services C σ) (failed? : C.Stop → Option OperationName) :
    List Errand → World σ → List Attempt
  | [], _ => []
  | e :: es, w =>
    let r := (e.action V s).run w
    e.task.attempts failed? (r.1.map Noted.value) ++ s.history V failed? es r.2

namespace Attempt

/-- The photo of the latest save of an identifier that got as far as wanted. -/
def latest? (wanted : Extent → Bool) (id : PhotoId) (history : List Attempt) : Option Photo :=
  (history.filter fun a => a.photo.id = id ∧ wanted a.extent).getLast?.map photo

/-- The photo of the latest save of an identifier that filed its record. -/
def latestFiled? : PhotoId → List Attempt → Option Photo := latest? (· ≠ .nothing)

/-- The photo of the latest save of an identifier that kept its content. -/
def latestKept? : PhotoId → List Attempt → Option Photo := latest? (· = .all)

theorem latest?_concat (wanted : Extent → Bool) (id : PhotoId) (history : List Attempt)
    (a : Attempt) : latest? wanted id (history ++ [a]) =
      if a.photo.id = id ∧ wanted a.extent then some a.photo else latest? wanted id history := by
  unfold latest?
  split <;> simp [*]

theorem id_of_latest? {wanted : Extent → Bool} {id : PhotoId} {history : List Attempt}
    {photo : Photo} (h : latest? wanted id history = some photo) : photo.id = id := by
  obtain ⟨a, last, rfl⟩ := Option.map_eq_some_iff.mp h
  have found := List.mem_of_getLast? last
  simp only [List.mem_filter, decide_eq_true_eq] at found
  exact found.2.1

end Attempt

/-- The keys of the identifiers do not collide. -/
def BlobKey.Apart (ids : List PhotoId) : Prop :=
  ∀ a ∈ ids, ∀ b ∈ ids, derive a = derive b → a = b

/-- The stores hold the record of the latest save of each identifier that filed one and, for some
identifiers, the content of the latest save that kept one. -/
structure Stores.Reflect (s : Stores) (ids : List PhotoId) (history : List Attempt) : Prop where
  record : ∀ id, s.metadata.get? id = (Attempt.latestFiled? id history).map Photo.record
  content : ∀ id ∈ ids,
    s.blobs.get? (.derive id) = (Attempt.latestKept? id history).map Photo.content

namespace Stores.Reflect

variable {s t : Stores} {ids : List PhotoId} {history : List Attempt} {k : Keeping C σ}

theorem empty : Stores.empty.Reflect ids [] :=
  ⟨fun _ => rfl, fun _ _ => rfl⟩

theorem nothing (h : s.Reflect ids history) (photo : Photo) :
    s.Reflect ids (history ++ [⟨photo, .nothing⟩]) := by
  refine ⟨fun id => ?_, fun id hid => ?_⟩
  · simpa [Attempt.latestFiled?, Attempt.latest?_concat] using h.record id
  · simpa [Attempt.latestKept?, Attempt.latest?_concat] using h.content id hid

theorem filed (h : s.Reflect ids history) (photo : Photo) :
    (s.filed photo).Reflect ids (history ++ [⟨photo, .record⟩]) := by
  refine ⟨fun id => ?_, fun id hid => ?_⟩
  · rw [s.get?_filed, h.record, Attempt.latestFiled?, Attempt.latest?_concat]
    by_cases same : photo.id = id <;> simp [same]
  · show s.blobs.get? _ = _
    simpa [Attempt.latestKept?, Attempt.latest?_concat] using h.content id hid

/-- A content that is kept is found under the key of no other identifier. -/
theorem saved (h : s.Reflect ids history) (apart : BlobKey.Apart ids) {photo : Photo}
    (mem : photo.id ∈ ids) : (s.saved photo).Reflect ids (history ++ [⟨photo, .all⟩]) := by
  refine ⟨fun id => ?_, fun id hid => ?_⟩
  · show (s.filed photo).metadata.get? id = _
    rw [s.get?_filed, h.record, Attempt.latestFiled?, Attempt.latest?_concat]
    by_cases same : photo.id = id <;> simp [same]
  · rw [s.get?_saved, h.content id hid, Attempt.latestKept?, Attempt.latest?_concat]
    by_cases same : photo.id = id
    · simp [same]
    · have other : BlobKey.derive photo.id ≠ .derive id := fun equal =>
        same (apart _ mem _ hid equal)
      simp [same, other]

theorem ofSaves (h : s.Reflect ids history) (apart : BlobKey.Apart ids) {photo : Photo}
    (mem : photo.id ∈ ids) {o : Except C.Stop Unit} (saves : k.Saves photo s o t) :
    t.Reflect ids (history ++ [⟨photo, .of k.failed? o⟩]) := by
  cases saves with
  | done => exact h.saved apart mem
  | notFiled fails =>
    simp only [Extent.of, fails.2]
    exact h.nothing photo
  | notKept fails =>
    simp only [Extent.of, fails.2]
    exact h.filed photo

theorem ofSavesThenReads (h : s.Reflect ids history) (apart : BlobKey.Apart ids) {photo : Photo}
    (mem : photo.id ∈ ids) {o : Except C.Stop Photo} (saves : k.SavesThenReads photo s o t) :
    t.Reflect ids (history ++ [⟨photo, .of k.failed? o⟩]) := by
  cases saves with
  | saved reads =>
    cases reads with
    | done => exact h.saved apart mem
    | @failed stop fails =>
      -- an operation that reads failed, and before that all was stored
      have all : Extent.of k.failed? (.error stop : Except C.Stop Photo) = .all := by
        rcases fails with fails | fails <;> simp only [Extent.of, fails.2]
      rw [all]
      exact h.saved apart mem
  | notSaved saves => exact h.ofSaves apart mem saves

/-- A task leaves stores that reflect the history with what the task adds to it. -/
theorem task (h : s.Reflect ids history) (apart : BlobKey.Apart ids) {task : Task}
    (mem : task.id ∈ ids) {o : Except C.Stop task.Value} (performs : k.Performs s task o t) :
    t.Reflect ids (history ++ task.attempts k.failed? o) := by
  cases task with
  | savePhoto photo => exact h.ofSaves apart mem performs
  | saveThenGetPhoto photo => exact h.ofSavesThenReads apart mem performs
  | getPhoto id =>
    cases performs <;> exact (List.append_nil history).symm ▸ h
  | getCreator id =>
    cases performs <;> exact (List.append_nil history).symm ▸ h

variable {id : PhotoId}

theorem recordIn_some (h : s.Reflect ids history) {f : Photo}
    (filed : Attempt.latestFiled? id history = some f) : k.recordIn s id = .ok f.record := by
  rw [Keeping.recordIn, h.record, filed]
  rfl

theorem recordIn_none (h : s.Reflect ids history) (none : Attempt.latestFiled? id history = none) :
    k.recordIn s id = .error (k.noRecord id) := by
  rw [Keeping.recordIn, h.record, none]
  rfl

theorem creatorIn_some (h : s.Reflect ids history) {f : Photo}
    (filed : Attempt.latestFiled? id history = some f) : k.creatorIn s id = .ok f.creator := by
  rw [Keeping.creatorIn, h.recordIn_some filed]
  rfl

/-- The photo is that of the save that filed its record, with the content that was kept last. -/
theorem photoIn_some (h : s.Reflect ids history) (mem : id ∈ ids) {f g : Photo}
    (filed : Attempt.latestFiled? id history = some f)
    (kept : Attempt.latestKept? id history = some g) :
    k.photoIn s id = .ok ⟨id, f.creator, g.content⟩ := by
  obtain rfl : f.id = id := Attempt.id_of_latest? filed
  rw [Keeping.photoIn, h.recordIn_some filed]
  show (k.contentIn s (.derive f.id) >>= fun content => _) = _
  rw [Keeping.contentIn, h.content f.id mem, kept]
  rfl

/-- A photo is found only where a record was filed and a content was kept. -/
theorem exists_of_photoIn (h : s.Reflect ids history) (mem : id ∈ ids) {photo : Photo}
    (found : k.photoIn s id = .ok photo) :
    ∃ f g, Attempt.latestFiled? id history = some f ∧ Attempt.latestKept? id history = some g ∧
      photo = ⟨id, f.creator, g.content⟩ := by
  cases filed : Attempt.latestFiled? id history with
  | none =>
    rw [Keeping.photoIn, h.recordIn_none filed] at found
    cases found
  | some f =>
    cases kept : Attempt.latestKept? id history with
    | none =>
      rw [Keeping.photoIn, h.recordIn_some filed] at found
      obtain rfl : f.id = id := Attempt.id_of_latest? filed
      change (k.contentIn s (.derive f.id) >>= fun content => _) = _ at found
      rw [Keeping.contentIn, h.content f.id mem, kept] at found
      cases found
    | some g =>
      rw [h.photoIn_some mem filed kept] at found
      exact ⟨f, g, rfl, rfl, (Except.ok.inj found).symm⟩

end Stores.Reflect

section Carried

variable (V : Type) [CarriesAnswers V] [Carries V String] [Carries V Photo]

/-- Also an errand comes to what its task is to come to. -/
theorem Services.Keep.brings_errand {svc : Services C σ} {k : Keeping C σ} (keep : svc.Keep k)
    (e : Errand) (s : Stores) : k.Brings (e.action V svc) s (k.Performs s e.task) := by
  intro w hw
  obtain ⟨outcome, state⟩ := e.run_action V svc w
  rw [outcome, state]
  exact keep.brings e.task s w hw

/-- After other errands, an errand comes to what its task is to come to from the stores there. -/
theorem Services.Keep.performs_answer {svc : Services C σ} {k : Keeping C σ} (keep : svc.Keep k)
    (w : World σ) (es : List Errand) (e : Errand) :
    k.Performs (k.view (svc.after V es w).state) e.task (svc.answer V w es e)
      (k.view ((e.action V svc).run (svc.after V es w)).2.state) :=
  keep.brings_errand V e _ _ rfl

/-- After errands the stores reflect the history with the saves among the errands. -/
theorem Services.Keep.reflect_after {svc : Services C σ} {k : Keeping C σ} (keep : svc.Keep k)
    {ids : List PhotoId} (apart : BlobKey.Apart ids) (es : List Errand)
    (mem : ∀ e ∈ es, e.task.id ∈ ids) {history : List Attempt} {w : World σ}
    (h : (k.view w.state).Reflect ids history) :
    (k.view (svc.after V es w).state).Reflect ids (history ++ svc.history V k.failed? es w) := by
  induction es generalizing history w with
  | nil => exact (List.append_nil history).symm ▸ h
  | cons e es ih =>
    have step := h.task apart (mem e List.mem_cons_self) (keep.brings_errand V e _ w rfl)
    have rest := ih (fun e he => mem e (List.mem_cons_of_mem _ he)) step
    rwa [List.append_assoc] at rest

/-- After errands from empty stores, the stores reflect the saves among the errands. -/
theorem Services.Keep.reflect_history {svc : Services C σ} {k : Keeping C σ} (keep : svc.Keep k)
    {w : World σ} (empty : k.view w.state = .empty) {ids : List PhotoId}
    (apart : BlobKey.Apart ids) (es : List Errand) (mem : ∀ e ∈ es, e.task.id ∈ ids) :
    (k.view (svc.after V es w).state).Reflect ids (svc.history V k.failed? es w) := by
  have start : (k.view w.state).Reflect ids [] := by
    rw [empty]
    exact .empty
  exact keep.reflect_after V apart es mem start

end Carried

end PhotoArchive
