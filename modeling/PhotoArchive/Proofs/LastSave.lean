import PhotoArchive.Proofs.Errand
import PhotoArchive.Script.Value

/-!
# The last save

Where no operation fails, the stores reflect the errands themselves: each save got all the way. What
is asked of an identifier after any errands is therefore answered from its last save, whatever was
saved for others in between, and what was never saved is missed at the record already.
-/
namespace PhotoArchive

variable {C : Context} {σ : Type}

/-- The photo of the last save of an identifier among the errands. -/
def Errand.lastSaved? (id : PhotoId) (es : List Errand) : Option Photo :=
  ((es.filterMap (·.task.saved?)).filter (·.id = id)).getLast?

def Attempt.full (photo : Photo) : Attempt := ⟨photo, .all⟩

theorem Attempt.latest?_full {wanted : Extent → Bool} (all : wanted .all = true) (id : PhotoId)
    (photos : List Photo) :
    latest? wanted id (photos.map full) = (photos.filter (·.id = id)).getLast? := by
  have same : (fun a => decide (a.photo.id = id ∧ wanted a.extent)) ∘ full =
      fun photo => decide (photo.id = id) := by
    funext photo
    exact decide_eq_decide.mpr (and_iff_left all)
  rw [latest?, List.filter_map, same, List.getLast?_map, Option.map_map]
  exact Option.map_id_apply

section NeverFailing

variable {k : Keeping C σ} (never : ¬ k.mayFail)

include never

theorem Keeping.Ends.eq_of_never {α : Type} {op : OperationName} {s t u : Stores}
    {o o' : Except C.Stop α} (ends : k.Ends op s o t o' u) : o' = o := by
  cases ends with
  | done => rfl
  | failed fails => exact absurd fails.1 never

theorem Keeping.Reads.eq_of_never {α : Type} {s t : Stores} {expected o : Except C.Stop α}
    (reads : k.Reads s expected o t) : o = expected := by
  cases reads with
  | done => rfl
  | failed fails => exact absurd (fails.elim And.left And.left) never

theorem Keeping.SavesThenReads.eq_of_never {s t : Stores} {photo : Photo}
    {o : Except C.Stop Photo} (saves : k.SavesThenReads photo s o t) : o = .ok photo := by
  cases saves with
  | saved reads => exact reads.eq_of_never never
  | notSaved saves =>
    cases saves with
    | notFiled fails | notKept fails => exact absurd fails.1 never

theorem Keeping.Performs.attempts_eq {s t : Stores} {task : Task} {o : Except C.Stop task.Value}
    (performs : k.Performs s task o t) :
    task.attempts k.failed? o = task.saved?.toList.map Attempt.full := by
  cases task with
  | savePhoto photo =>
    cases performs with
    | done => rfl
    | notFiled fails | notKept fails => exact absurd fails.1 never
  | saveThenGetPhoto photo =>
    obtain rfl := SavesThenReads.eq_of_never never performs
    rfl
  | getPhoto id | getCreator id => rfl

variable (V : Type) [CarriesAnswers V] [Carries V String] [Carries V Photo]
  {svc : Services C σ} (keep : svc.Keep k)

include keep

theorem Services.Keep.history_eq (es : List Errand) (w : World σ) :
    svc.history V k.failed? es w = (es.filterMap (·.task.saved?)).map Attempt.full := by
  induction es generalizing w with
  | nil => rfl
  | cons e es ih =>
    have first := (keep.brings_errand V e _ w rfl).attempts_eq never
    rw [history, first, ih]
    cases saved : e.task.saved? <;> simp [saved]

/-- After errands from empty stores, the stores reflect the errands. -/
theorem Services.Keep.reflect_errands {ids : List PhotoId} (apart : BlobKey.Apart ids)
    (es : List Errand) (mem : ∀ e ∈ es, e.task.id ∈ ids) {w : World σ}
    (empty : k.view w.state = .empty) :
    (k.view (svc.after V es w).state).Reflect ids
      ((es.filterMap (·.task.saved?)).map Attempt.full) := by
  rw [← keep.history_eq never V es w]
  exact keep.reflect_history V empty apart es mem

end NeverFailing

/-! ## Asking after errands -/

/-- A task that asks for a record and misses it is over. -/
theorem Task.run_on_of_missing {svc : Services C σ} {t : Task} {id : PhotoId}
    (asks : t = .getPhoto id ∨ t = .getCreator id) {w w₁ : World σ} {stop : C.Stop}
    (missed : (svc.metadata.getRecord id).run w = (.error stop, w₁)) :
    (t.on svc).run w = (.error stop, w₁) := by
  rcases asks with rfl | rfl
  · exact Action.run_bind_error missed _
  · exact Action.run_bind_error missed _

section Asking

variable (V : Type) [CarriesAnswers V] [Carries V String] [Carries V Photo]

/-- After errands from a world, the services answer for an identifier by its last save, and if it
was never saved, that its record is missing, after asking for nothing else. A photo that is saved
and asked for in one task is there in any case. -/
structure Services.Recall (svc : Services C σ) (w : World σ) (es : List Errand) (id : PhotoId)
    (missing : C.Stop) : Prop where
  getPhoto : ∀ photo, Errand.lastSaved? id es = some photo →
    ∀ deferred, svc.answer V w es ⟨.getPhoto id, deferred⟩ = .ok photo
  getCreator : ∀ photo, Errand.lastSaved? id es = some photo →
    ∀ deferred, svc.answer V w es ⟨.getCreator id, deferred⟩ = .ok photo.creator
  saveThenGetPhoto : ∀ photo deferred,
    svc.answer V w es ⟨.saveThenGetPhoto photo, deferred⟩ = .ok photo
  unsaved : Errand.lastSaved? id es = none →
    ∀ e : Errand, e.task = .getPhoto id ∨ e.task = .getCreator id →
      svc.answer V w es e = .error missing ∧
        ((e.action V svc.recorded).observe (svc.after V es w)).operations = [.inl (.getRecord id)]

variable {V}

/-- An errand that asks for a record and misses it hands over nothing else. -/
theorem Services.answer_of_missing {svc : Services C σ} {w : World σ} {es : List Errand}
    {e : Errand} {id : PhotoId} (asks : e.task = .getPhoto id ∨ e.task = .getCreator id)
    {stop : C.Stop}
    (missed : ((svc.metadata.getRecord id).run (svc.after V es w)).1 = .error stop) :
    svc.answer V w es e = .error stop ∧
      ((e.action V svc.recorded).observe (svc.after V es w)).operations =
        [.inl (.getRecord id)] := by
  obtain ⟨w₁, missed⟩ : ∃ w₁, (svc.metadata.getRecord id).run (svc.after V es w) =
      (.error stop, w₁) := ⟨_, Prod.ext missed rfl⟩
  have recorded : (svc.recorded.metadata.getRecord id).run ((svc.after V es w).withLog []) =
      (.error stop, w₁.withLog [.inl (.getRecord id)]) :=
    (Action.run_recorded _ _ _ []).trans (by rw [missed]; rfl)
  constructor
  · rw [answer, (e.run_action V svc _).1, Task.run_on_of_missing asks missed]
    rfl
  · refine (congrArg Prod.snd (e.run_action V svc.recorded _).2).trans ?_
    rw [Task.run_on_of_missing asks recorded]
    rfl

/-- Services that keep stores and never fail answer by the last save. -/
theorem Services.Keep.recall {svc : Services C σ} {k : Keeping C σ} (keep : svc.Keep k)
    (never : ¬ k.mayFail) {w : World σ} (empty : k.view w.state = .empty) {es : List Errand}
    {id : PhotoId} (apart : BlobKey.Apart (id :: es.map (·.task.id))) :
    svc.Recall V w es id (k.noRecord id) := by
  have reflect := keep.reflect_errands never V apart es
    (fun e he => List.mem_cons_of_mem _ (List.mem_map_of_mem he)) empty
  have performs := keep.performs_answer V w es
  -- each save got all the way, so the last one filed the record and kept the content
  have latest (wanted : Extent → Bool) (all : wanted .all = true) :
      Attempt.latest? wanted id ((es.filterMap (·.task.saved?)).map .full) =
        Errand.lastSaved? id es := Attempt.latest?_full all id _
  have filed := latest (· ≠ .nothing) rfl
  have kept := latest (· = .all) rfl
  refine ⟨fun photo saved deferred => ?_, fun photo saved deferred => ?_,
    fun photo deferred => ?_, fun unsaved e asks => answer_of_missing asks ?_⟩
  · obtain rfl : photo.id = id := Attempt.id_of_latest? (filed.trans saved)
    rw [← reflect.photoIn_some List.mem_cons_self (filed.trans saved) (kept.trans saved)]
    exact Keeping.Reads.eq_of_never never (performs ⟨.getPhoto photo.id, deferred⟩)
  · rw [← reflect.creatorIn_some (filed.trans saved)]
    exact Keeping.Reads.eq_of_never never (performs ⟨.getCreator id, deferred⟩)
  · exact Keeping.SavesThenReads.eq_of_never never (performs ⟨.saveThenGetPhoto photo, deferred⟩)
  · have record := (keep.getRecord id _ (svc.after V es w) rfl).eq_of_never never
    rw [reflect.recordIn_none (filed.trans unsaved)] at record
    cases asked : ((svc.metadata.getRecord id).run (svc.after V es w)).1 with
    | error stop =>
      rw [asked] at record
      exact congrArg _ (Except.error.inj record)
    | ok r =>
      rw [asked] at record
      cases record

variable (V)

/-- However saves and questions follow one another, directly or as programs, each question is
answered from the last save of its identifier: on supplied maps, on their narration and on stores in
memory under any settings, from empty stores. For an identifier that was never saved, work on
supplied maps breaks off and names it, and on stores in memory there is nothing. In either case no
content is asked for. -/
theorem Services.last_save_wins (settings : Settings) (es : List Errand) (id : PhotoId)
    (apart : BlobKey.Apart (id :: es.map (·.task.id))) :
    (Supplied.services .whole).Recall V ⟨⟨.empty, .empty⟩, #[]⟩ es id (.noRecord id) ∧
      (Supplied.services .whole).narrated.Recall V ⟨⟨.empty, .empty⟩, #[]⟩ es id (.noRecord id) ∧
      ((Stores.backends .whole).services settings).Recall V ⟨.empty, #[]⟩ es id .absent ∧
      (Abort.noRecord id).message = "no metadata record supplied for photo " ++ id.text :=
  ⟨Supplied.keep_services.recall not_false rfl apart,
    Supplied.keep_services.narrated.recall not_false rfl apart,
    ((Stores.keep_backends .whole).services settings).recall not_false rfl apart, rfl⟩

end Asking

/-- Two photos are saved, and then the first one again. -/
theorem Services.last_save_wins_interleaved :
    let es : List Errand := [⟨.savePhoto ⟨⟨"a"⟩, "Ann", ⟨#[1]⟩⟩, false⟩,
      ⟨.savePhoto ⟨⟨"b"⟩, "Bea", ⟨#[2]⟩⟩, true⟩, ⟨.saveThenGetPhoto ⟨⟨"a"⟩, "Cem", ⟨#[3]⟩⟩, true⟩,
      ⟨.getPhoto ⟨"b"⟩, false⟩]
    let live := (Stores.backends .whole).services .standard
    BlobKey.Apart (⟨"a"⟩ :: es.map (·.task.id)) ∧
      (Supplied.services .whole).answer Value ⟨⟨.empty, .empty⟩, #[]⟩ es
        ⟨.getPhoto ⟨"a"⟩, true⟩ = .ok ⟨⟨"a"⟩, "Cem", ⟨#[3]⟩⟩ ∧
      (Supplied.services .whole).narrated.answer Value ⟨⟨.empty, .empty⟩, #[]⟩ es
        ⟨.getCreator ⟨"a"⟩, false⟩ = .ok "Cem" ∧
      live.answer Value ⟨.empty, #[]⟩ es ⟨.getPhoto ⟨"a"⟩, true⟩ =
        .ok ⟨⟨"a"⟩, "Cem", ⟨#[3]⟩⟩ := by
  intro es live
  have keys : BlobKey.derive ⟨"a"⟩ ≠ BlobKey.derive ⟨"b"⟩ := by decide +kernel
  have apart : BlobKey.Apart (⟨"a"⟩ :: es.map (·.task.id)) := by
    have either : ∀ x ∈ ⟨"a"⟩ :: es.map (·.task.id), x = ⟨"a"⟩ ∨ x = ⟨"b"⟩ := by decide
    intro x hx y hy equal
    rcases either x hx with rfl | rfl <;> rcases either y hy with rfl | rfl
    · rfl
    · exact absurd equal keys
    · exact absurd equal.symm keys
    · rfl
  have last : Errand.lastSaved? ⟨"a"⟩ es = some ⟨⟨"a"⟩, "Cem", ⟨#[3]⟩⟩ := by decide
  obtain ⟨fixed, traced, memory, -⟩ := last_save_wins Value .standard es ⟨"a"⟩ apart
  exact ⟨apart, fixed.getPhoto _ last true, traced.getCreator _ last false,
    memory.getPhoto _ last true⟩

end PhotoArchive
