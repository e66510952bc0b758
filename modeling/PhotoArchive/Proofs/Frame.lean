import PhotoArchive.Proofs.LastSave
import PhotoArchive.Proofs.StoreHistory
import PhotoArchive.Script.Value

/-!
# What the workflows change

From stores that hold anything at all, a workflow comes to what the record and the content that it
asks for decide, and it changes nothing but what it names. A record may hold any key: the key of
another photo, or one under which there is no content. Records are filed under their own
identifiers, since nothing else can be done with the stores. Supplied maps are changed in the same
way as stores in memory.
-/
namespace PhotoArchive

variable {C : Context} {σ α : Type}

/-! ## Records under their identifiers -/

def MetadataStore.WellFiled (s : MetadataStore) : Prop :=
  ∀ id r, s.get? id = some r → r.id = id

theorem MetadataStore.WellFiled.put {s : MetadataStore} (h : s.WellFiled) (r : MetadataRecord) :
    (s.put r).WellFiled := by
  intro id found there
  rw [get?_put] at there
  by_cases same : r.id = id
  · rw [if_pos same] at there
    cases there
    exact same
  · rw [if_neg same] at there
    exact h id found there

/-- Whatever is asked of the stores, records stay under their identifiers. -/
theorem Stores.wellFiled_after {s : Stores} (h : s.metadata.WellFiled) (r : StoreRequest) :
    (s.after r).metadata.WellFiled := by
  cases r with
  | putRecord r => exact h.put r
  | clearRecords => exact nofun
  | getRecord | putBlob | getBlob | clearBlobs => exact h

theorem Stores.wellFiled_afterAll (requests : List StoreRequest) :
    (afterAll requests).metadata.WellFiled := by
  induction requests using List.reverseRecOn with
  | nil => exact nofun
  | append_singleton requests r ih =>
    rw [afterAll_concat]
    exact wellFiled_after ih r

/-! ## What is changed -/

/-- Between the stores, a photo was saved: its record is filed with the derived key, its content is
kept under that key, and nothing else is changed. -/
structure Stores.SavedInto (photo : Photo) (s t : Stores) : Prop where
  record : t.metadata.get? photo.id = some ⟨photo.id, .derive photo.id, photo.creator⟩
  content : t.blobs.get? (.derive photo.id) = some photo.content
  otherRecords : ∀ id, id ≠ photo.id → t.metadata.get? id = s.metadata.get? id
  otherContents : ∀ key, key ≠ .derive photo.id → t.blobs.get? key = s.blobs.get? key

/-- Between the stores, a content was kept under a key, and nothing else is changed. -/
structure Stores.KeptInto (key : BlobKey) (content : ByteArray) (s t : Stores) : Prop where
  records : t.metadata = s.metadata
  content : t.blobs.get? key = some content
  otherContents : ∀ other, other ≠ key → t.blobs.get? other = s.blobs.get? other

theorem Stores.keptInto_putBlob (s : Stores) (key : BlobKey) (content : ByteArray) :
    KeptInto key content s (s.after (.putBlob key content)) where
  records := rfl
  content := (BlobStore.get?_put _ _ _ _).trans (if_pos rfl)
  otherContents _ different :=
    (BlobStore.get?_put _ _ _ _).trans (if_neg (Ne.symm different))

theorem Stores.savedInto_saved (s : Stores) (photo : Photo) :
    SavedInto photo s (s.saved photo) where
  record := (s.get?_filed photo photo.id).trans (if_pos rfl)
  content := (s.get?_saved photo _).trans (if_pos rfl)
  otherRecords id different := (s.get?_filed photo id).trans (if_neg (Ne.symm different))
  otherContents key different := (s.get?_saved photo key).trans (if_neg (Ne.symm different))

/-! ## What asking comes to -/

namespace Keeping

variable {k : Keeping C σ} {s : Stores} {id : PhotoId} {r : MetadataRecord} {key : BlobKey}
  {content : ByteArray}

theorem recordIn_of_none (none : s.metadata.get? id = none) :
    k.recordIn s id = .error (k.noRecord id) := by
  rw [recordIn, none]

theorem recordIn_of_some (found : s.metadata.get? id = some r) : k.recordIn s id = .ok r := by
  rw [recordIn, found]

theorem contentIn_of_none (none : s.blobs.get? key = none) :
    k.contentIn s key = .error (k.noContent key) := by
  rw [contentIn, none]

theorem contentIn_of_some (found : s.blobs.get? key = some content) :
    k.contentIn s key = .ok content := by
  rw [contentIn, found]

theorem photoIn_of_none (none : s.metadata.get? id = none) :
    k.photoIn s id = .error (k.noRecord id) := by
  rw [photoIn, recordIn_of_none none]
  rfl

/-- The record that is found decides under which key the content is looked for. -/
theorem photoIn_of_some (found : s.metadata.get? id = some r) :
    k.photoIn s id = (k.contentIn s r.key).map (Photo.assemble r) := by
  rw [photoIn, recordIn_of_some found]
  rfl

end Keeping

/-! ## Work that does not fail -/

theorem Keeping.Reads.left_eq {k : Keeping C σ} {s t : Stores} {expected o : Except C.Stop α}
    (reads : k.Reads s expected o t) : t = s := by
  cases reads with
  | done => rfl
  | failed _ => rfl

section NeverFailing

variable {k : Keeping C σ} (never : ¬ k.mayFail)

include never

theorem Keeping.Ends.done_of_never {op : OperationName} {s t u : Stores}
    {o o' : Except C.Stop α} (ends : k.Ends op s o t o' u) : o' = o ∧ u = t := by
  cases ends with
  | done => exact ⟨rfl, rfl⟩
  | failed fails => exact absurd fails.1 never

theorem Keeping.Saves.done_of_never {photo : Photo} {s t : Stores} {o : Except C.Stop Unit}
    (saves : k.Saves photo s o t) : o = .ok () ∧ t = s.saved photo := by
  cases saves with
  | done => exact ⟨rfl, rfl⟩
  | notFiled fails | notKept fails => exact absurd fails.1 never

theorem Keeping.SavesThenReads.done_of_never {photo : Photo} {s t : Stores}
    {o : Except C.Stop Photo} (saves : k.SavesThenReads photo s o t) :
    o = .ok photo ∧ t = s.saved photo := by
  refine ⟨saves.eq_of_never never, ?_⟩
  cases saves with
  | saved reads => exact reads.left_eq
  | notSaved saves =>
    obtain ⟨stopped, -⟩ := saves.done_of_never never
    cases stopped

end NeverFailing

/-- Copying a content comes to what asking for it comes to. What is found is then kept under the
second key as well. -/
theorem Services.Keep.brings_copyContent {svc : Services C σ} {k : Keeping C σ} (keep : svc.Keep k)
    (never : ¬ k.mayFail) (source target : BlobKey) (s : Stores) :
    k.Brings (svc.blobs.copyContent source target) s fun o t =>
      match k.contentIn s source with
      | .ok content => o = .ok () ∧ t = s.after (.putBlob target content)
      | .error stop => o = .error stop ∧ t = s := by
  refine (keep.readContent source s).andThen (fun content found => ?_) (fun stop missing => ?_)
    fun stop fails => absurd fails.1 never
  · rw [found]
    exact (keep.writeContent target content s).mono fun _ _ ends => ends.done_of_never never
  · rw [missing]
    exact ⟨rfl, rfl⟩

/-! ## The workflows from any stores -/

section Carried

variable (V : Type) [CarriesAnswers V]

/-- From every world with the stores `s`, the workflow comes to `o` and leaves the stores `t`,
carried out directly and as a program. -/
def Services.Gives [Carries V α] (svc : Services C σ) (view : σ → Stores) (x : Action C σ α)
    (p : Program PhotoOp V α) (s : Stores) (o : Except C.Stop α) (t : Stores) : Prop :=
  ∀ w, view w.state = s → ∀ run ∈ [x.run w, (p.execute svc.handler).run w],
    run.1.map Noted.value = o ∧ view run.2.state = t

variable {V}

theorem Services.gives_of_brings [Carries V α] {svc : Services C σ} {k : Keeping C σ}
    {x : Action C σ α} {p : Program PhotoOp V α} (encodes : p.Encodes svc.handler x) {s t : Stores}
    {o : Except C.Stop α} (brings : k.Brings x s fun o' t' => o' = o ∧ t' = t) :
    svc.Gives V k.view x p s o t := by
  intro w start run mem
  have direct := brings w start
  simp only [List.mem_cons, List.not_mem_nil, or_false] at mem
  rcases mem with rfl | rfl
  · exact direct
  · obtain ⟨outcome, state⟩ := Program.run_execute_eq_meaning svc.handler p w
    rw [outcome, state, encodes.meaning_eq]
    exact direct

namespace Services.Keep

variable {svc : Services C σ} {k : Keeping C σ} (keep : svc.Keep k) (never : ¬ k.mayFail)
  (s : Stores)

include keep never

theorem gives_copyContent_of_none {source : BlobKey} (none : s.blobs.get? source = none)
    (target : BlobKey) :
    svc.Gives V k.view (svc.blobs.copyContent source target) (.copyContent source target) s
      (.error (k.noContent source)) s := by
  have brings := keep.brings_copyContent never source target s
  rw [Keeping.contentIn_of_none none] at brings
  exact gives_of_brings (Program.Encodes.copyContent svc source target) brings

theorem gives_copyContent_of_some {source : BlobKey} {content : ByteArray}
    (found : s.blobs.get? source = some content) (target : BlobKey) :
    svc.Gives V k.view (svc.blobs.copyContent source target) (.copyContent source target) s
      (.ok ()) (s.after (.putBlob target content)) := by
  have brings := keep.brings_copyContent never source target s
  rw [Keeping.contentIn_of_some found] at brings
  exact gives_of_brings (Program.Encodes.copyContent svc source target) brings

end Services.Keep

variable [Carries V String] [Carries V Photo]

variable (V)

/-- What the five workflows come to from the stores, and what they change. -/
structure Services.Effects (svc : Services C σ) (view : σ → Stores) (noRecord : PhotoId → C.Stop)
    (noContent : BlobKey → C.Stop) (s : Stores) : Prop where
  getPhoto_noRecord : ∀ id, s.metadata.get? id = none →
    svc.Gives V view (svc.getPhoto id) (.getPhoto id) s (.error (noRecord id)) s
  getPhoto_noContent : ∀ id r, s.metadata.get? id = some r → s.blobs.get? r.key = none →
    svc.Gives V view (svc.getPhoto id) (.getPhoto id) s (.error (noContent r.key)) s
  getPhoto_found : ∀ id r content, s.metadata.get? id = some r →
    s.blobs.get? r.key = some content →
    svc.Gives V view (svc.getPhoto id) (.getPhoto id) s (.ok ⟨id, r.creator, content⟩) s
  getCreator_noRecord : ∀ id, s.metadata.get? id = none →
    svc.Gives V view (svc.metadata.getCreator id) (.getCreator id) s (.error (noRecord id)) s
  getCreator_found : ∀ id r, s.metadata.get? id = some r →
    svc.Gives V view (svc.metadata.getCreator id) (.getCreator id) s (.ok r.creator) s
  copyContent_noContent : ∀ source target, s.blobs.get? source = none →
    svc.Gives V view (svc.blobs.copyContent source target) (.copyContent source target) s
      (.error (noContent source)) s
  copyContent_found : ∀ source target content, s.blobs.get? source = some content →
    ∃ t, svc.Gives V view (svc.blobs.copyContent source target) (.copyContent source target) s
        (.ok ()) t ∧ s.KeptInto target content t
  savePhoto : ∀ photo : Photo, ∃ t,
    svc.Gives V view (svc.savePhoto photo.id photo.creator photo.content)
        (.savePhoto photo.id photo.creator photo.content) s (.ok ()) t ∧
      Stores.SavedInto photo s t
  saveThenGetPhoto : ∀ photo : Photo, ∃ t,
    svc.Gives V view (svc.saveThenGetPhoto photo.id photo.creator photo.content)
        (.saveThenGetPhoto photo.id photo.creator photo.content) s (.ok photo) t ∧
      Stores.SavedInto photo s t

variable {V}

namespace Services.Keep

variable {svc : Services C σ} {k : Keeping C σ} (keep : svc.Keep k) (never : ¬ k.mayFail)
  (s : Stores)

include keep never

theorem gives_getPhoto (id : PhotoId) :
    svc.Gives V k.view (svc.getPhoto id) (.getPhoto id) s (k.photoIn s id) s := by
  apply gives_of_brings ((Task.getPhoto id).encodes svc)
  exact (keep.brings_getPhoto id s).mono fun _ _ reads => ⟨reads.eq_of_never never, reads.left_eq⟩

theorem gives_getCreator (id : PhotoId) :
    svc.Gives V k.view (svc.metadata.getCreator id) (.getCreator id) s (k.creatorIn s id) s := by
  apply gives_of_brings ((Task.getCreator id).encodes svc)
  exact (keep.brings_getCreator id s).mono fun _ _ reads =>
    ⟨reads.eq_of_never never, reads.left_eq⟩

theorem gives_savePhoto (photo : Photo) :
    svc.Gives V k.view (svc.savePhoto photo.id photo.creator photo.content)
      (.savePhoto photo.id photo.creator photo.content) s (.ok ()) (s.saved photo) := by
  apply gives_of_brings ((Task.savePhoto photo).encodes svc)
  exact (keep.brings_savePhoto photo s).mono fun _ _ saves => saves.done_of_never never

theorem gives_saveThenGetPhoto (photo : Photo) :
    svc.Gives V k.view (svc.saveThenGetPhoto photo.id photo.creator photo.content)
      (.saveThenGetPhoto photo.id photo.creator photo.content) s (.ok photo) (s.saved photo) := by
  apply gives_of_brings ((Task.saveThenGetPhoto photo).encodes svc)
  exact (keep.brings_saveThenGetPhoto photo s).mono fun _ _ saves => saves.done_of_never never

/-- Services that keep stores and never fail have the effects. -/
theorem effects (filed : s.metadata.WellFiled) :
    svc.Effects V k.view k.noRecord k.noContent s := by
  have getPhoto := keep.gives_getPhoto (V := V) never s
  have getCreator := keep.gives_getCreator (V := V) never s
  constructor
  · intro id none
    exact Keeping.photoIn_of_none none ▸ getPhoto id
  · intro id r found none
    have expected : k.photoIn s id = .error (k.noContent r.key) := by
      rw [Keeping.photoIn_of_some found, Keeping.contentIn_of_none none]
      rfl
    exact expected ▸ getPhoto id
  · intro id r content found kept
    have expected : k.photoIn s id = .ok ⟨id, r.creator, content⟩ := by
      rw [Keeping.photoIn_of_some found, Keeping.contentIn_of_some kept, ← filed id r found]
      rfl
    exact expected ▸ getPhoto id
  · intro id none
    have expected : k.creatorIn s id = .error (k.noRecord id) := by
      rw [Keeping.creatorIn, Keeping.recordIn_of_none none]
      rfl
    exact expected ▸ getCreator id
  · intro id r found
    have expected : k.creatorIn s id = .ok r.creator := by
      rw [Keeping.creatorIn, Keeping.recordIn_of_some found]
      rfl
    exact expected ▸ getCreator id
  · intro source target none
    exact keep.gives_copyContent_of_none never s none target
  · intro source target content found
    exact ⟨_, keep.gives_copyContent_of_some never s found target,
      s.keptInto_putBlob target content⟩
  · intro photo
    exact ⟨_, keep.gives_savePhoto never s photo, s.savedInto_saved photo⟩
  · intro photo
    exact ⟨_, keep.gives_saveThenGetPhoto never s photo, s.savedInto_saved photo⟩

end Services.Keep

variable (V)

/-- Whatever has been asked of the stores, records are filed under their own identifiers. From any
such records and any contents, each workflow on stores in memory, under any settings, comes to what
the record and the content that it asks for decide and changes only what it names, and on supplied
maps it makes the same changes. Where a record is missing, there is nothing; where a content is
missing, the backend fails for want of it. -/
theorem Stores.workflow_effects (settings : Settings) :
    (∀ requests, (afterAll requests).metadata.WellFiled) ∧
      ∀ s : Stores, s.metadata.WellFiled →
        ((Stores.backends .whole).services settings).Effects V (fun s => s) (fun _ => .absent)
            (fun key => .failed (.backend .readContent (.blobNotFound key))) s ∧
          (Supplied.services .whole).Effects V Supplied.stores .noRecord .noContent s := by
  refine ⟨wellFiled_afterAll, fun s filed => ⟨?_, ?_⟩⟩
  · exact ((Stores.keep_backends .whole).services settings).effects not_false s filed
  · exact Supplied.keep_services.effects not_false s filed

end Carried

def Stores.crossed : Stores :=
  afterAll [.putRecord ⟨⟨"a"⟩, .derive ⟨"b"⟩, "Ann"⟩, .putBlob (.derive ⟨"b"⟩) ⟨#[7]⟩]

/-- The photo has the content that its record leads to, and after a save the one that was saved. -/
theorem Stores.workflow_effects_crossed :
    let live := (Stores.backends .whole).services .standard
    crossed.metadata.WellFiled ∧
      live.Gives Value (fun s => s) (live.getPhoto ⟨"a"⟩) (.getPhoto ⟨"a"⟩) crossed
        (.ok ⟨⟨"a"⟩, "Ann", ⟨#[7]⟩⟩) crossed ∧
      ∃ t, live.Gives Value (fun s => s) (live.savePhoto ⟨"a"⟩ "Bea" ⟨#[8]⟩)
          (.savePhoto ⟨"a"⟩ "Bea" ⟨#[8]⟩) crossed (.ok ()) t ∧
        SavedInto ⟨⟨"a"⟩, "Bea", ⟨#[8]⟩⟩ crossed t := by
  intro live
  have filed : crossed.metadata.WellFiled := wellFiled_afterAll _
  have record : crossed.metadata.get? ⟨"a"⟩ = some ⟨⟨"a"⟩, .derive ⟨"b"⟩, "Ann"⟩ :=
    (MetadataStore.get?_put _ _ _).trans (if_pos rfl)
  have content : crossed.blobs.get? (.derive ⟨"b"⟩) = some ⟨#[7]⟩ :=
    (BlobStore.get?_put _ _ _ _).trans (if_pos rfl)
  obtain ⟨effects, -⟩ := (workflow_effects Value .standard).2 crossed filed
  exact ⟨filed, effects.getPhoto_found _ _ _ record content,
    effects.savePhoto ⟨⟨"a"⟩, "Bea", ⟨#[8]⟩⟩⟩

end PhotoArchive
