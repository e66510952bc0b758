import PhotoArchive.Proofs.Errand
import PhotoArchive.Script.Value

/-!
# Photos and the saves that they come from

Where calls may fail, a save may file its record and not keep its content. The record of an
identifier and the content under its key are then of different saves, and the two are joined when
the photo is asked for. Nothing else can come between them: a photo that is found has the creator of
the latest save that filed the record and the content of the latest save that kept it, and it is the
photo of one save if no save of the identifier was left half done.
-/
namespace PhotoArchive

variable {σ : Type}

/-- If no save of an identifier was left half done, the latest that filed the record is the latest
that kept the content. -/
theorem Attempt.latestFiled?_eq_latestKept? {id : PhotoId} {history : List Attempt}
    (whole : ∀ a ∈ history, a.photo.id = id → a.extent ≠ .record) :
    latestFiled? id history = latestKept? id history := by
  have same : ∀ a ∈ history,
      decide (a.photo.id = id ∧ decide (a.extent ≠ .nothing) = true) =
        decide (a.photo.id = id ∧ decide (a.extent = .all) = true) := by
    intro a mem
    refine decide_eq_decide.mpr (and_congr_right fun about => ?_)
    have notHalf := whole a mem about
    cases extent : a.extent <;> simp_all
  rw [latestFiled?, latestKept?, latest?, latest?, List.filter_congr same]

/-- A photo that is found after saves and questions on backends of which any call may fail has the
creator of the latest save of its identifier that filed a record, and the content of the latest save
that kept one. If no save of the identifier filed its record without keeping its content, the photo
is the one that this save was given. -/
theorem Backends.Keep.getPhoto_from_saves {V : Type} [CarriesAnswers V] [Carries V String]
    [Carries V Photo] {b : Backends σ} {view : σ → Stores} {mayFail : Prop}
    (keep : b.Keep view mayFail) (settings : Settings) {w : World σ}
    (empty : view w.state = .empty) {es : List Errand} {id : PhotoId}
    (apart : BlobKey.Apart (id :: es.map (·.task.id))) {deferred : Bool} {photo : Photo}
    (found : (b.services settings).answer V w es ⟨.getPhoto id, deferred⟩ = .ok photo) :
    let history := (b.services settings).history V Halt.failed? es w
    ∃ filed kept, Attempt.latestFiled? id history = some filed ∧
      Attempt.latestKept? id history = some kept ∧ photo = ⟨id, filed.creator, kept.content⟩ ∧
      ((∀ a ∈ history, a.photo.id = id → a.extent ≠ .record) → filed = photo ∧ kept = photo) := by
  intro history
  have serve := keep.services settings
  have reflect : (view ((b.services settings).after V es w).state).Reflect
      (id :: es.map (·.task.id)) history :=
    serve.reflect_history V empty apart es
      fun e he => List.mem_cons_of_mem _ (List.mem_map_of_mem he)
  have reads := serve.performs_answer V w es ⟨.getPhoto id, deferred⟩
  rw [found] at reads
  obtain ⟨filed, kept, hfiled, hkept, rfl⟩ :=
    reflect.exists_of_photoIn List.mem_cons_self (Keeping.Reads.of_ok reads)
  refine ⟨filed, kept, hfiled, hkept, rfl, fun whole => ?_⟩
  obtain rfl : filed = kept := by
    rw [Attempt.latestFiled?_eq_latestKept? whole, hkept] at hfiled
    exact (Option.some.inj hfiled).symm
  obtain rfl : filed.id = id := Attempt.id_of_latest? hfiled
  exact ⟨rfl, rfl⟩

/-! ## A save left half done -/

/-- A session in which the second call to the store of contents fails. -/
def BackedPlan.secondWriteFails : BackedPlan :=
  ⟨.standard, [], [⟨some 1, .zero, some "down"⟩], false⟩

namespace Errand

def savesTwice : List Errand :=
  [⟨.savePhoto ⟨⟨"p1"⟩, "Ann", ⟨#[0xaa]⟩⟩, false⟩, ⟨.savePhoto ⟨⟨"p1"⟩, "Ben", ⟨#[0xbb]⟩⟩, false⟩]

theorem apart_savesTwice : BlobKey.Apart (⟨"p1"⟩ :: savesTwice.map (·.task.id)) := by
  have one : ∀ x ∈ ⟨"p1"⟩ :: savesTwice.map (·.task.id), x = ⟨"p1"⟩ := by decide
  exact fun x hx y hy _ => (one x hx).trans (one y hy).symm

/-- The second save files its record and fails at the write. -/
theorem answer_savesTwice :
    let live := BackedPlan.secondWriteFails.backends.services .standard
    live.answer Value ⟨.start, #[]⟩ savesTwice ⟨.getPhoto ⟨"p1"⟩, false⟩ =
      .ok ⟨⟨"p1"⟩, "Ben", ⟨#[0xaa]⟩⟩ := by
  intro live
  have found : (live.answer Value ⟨.start, #[]⟩ savesTwice
      ⟨.getPhoto ⟨"p1"⟩, false⟩).toOption = some ⟨⟨"p1"⟩, "Ben", ⟨#[0xaa]⟩⟩ := by decide +kernel
  cases answer : live.answer Value ⟨.start, #[]⟩ savesTwice ⟨.getPhoto ⟨"p1"⟩, false⟩ with
  | error stop =>
    rw [answer] at found
    cases found
  | ok photo =>
    rw [answer] at found
    exact congrArg _ (Option.some.inj found)

end Errand

/-- After a save that was left half done, the creator is of that save and the content of the one
before it. -/
theorem Backends.Keep.getPhoto_from_saves_torn :
    let live := BackedPlan.secondWriteFails.backends.services .standard
    let history := live.history Value Halt.failed? Errand.savesTwice ⟨.start, #[]⟩
    live.answer Value ⟨.start, #[]⟩ Errand.savesTwice ⟨.getPhoto ⟨"p1"⟩, false⟩ =
        .ok ⟨⟨"p1"⟩, "Ben", ⟨#[0xaa]⟩⟩ ∧
      ∃ filed kept, Attempt.latestFiled? ⟨"p1"⟩ history = some filed ∧
        Attempt.latestKept? ⟨"p1"⟩ history = some kept ∧ filed.creator = "Ben" ∧
        kept.content = ⟨#[0xaa]⟩ := by
  intro live history
  have keep := BackedPlan.keep_backends (p := .secondWriteFails) rfl
  obtain ⟨filed, kept, hfiled, hkept, joined, -⟩ :=
    keep.getPhoto_from_saves .standard rfl Errand.apart_savesTwice Errand.answer_savesTwice
  obtain ⟨-, creator, content⟩ := Photo.mk.inj joined
  exact ⟨Errand.answer_savesTwice, filed, kept, hfiled, hkept, creator.symm, content.symm⟩

/-- A photo can be found that no save was given: a backend fails between the two calls of a save. -/
theorem Backends.getPhoto_mixes_saves :
    BackedPlan.secondWriteFails.backends.Keep BackedState.stores True ∧
      BlobKey.Apart (⟨"p1"⟩ :: Errand.savesTwice.map (·.task.id)) ∧
      ∃ photo, (BackedPlan.secondWriteFails.backends.services .standard).answer Value ⟨.start, #[]⟩
          Errand.savesTwice ⟨.getPhoto ⟨"p1"⟩, false⟩ = .ok photo ∧
        ∀ e ∈ Errand.savesTwice, e.task.saved? ≠ some photo :=
  ⟨BackedPlan.keep_backends rfl, Errand.apart_savesTwice, _, Errand.answer_savesTwice, by decide⟩

end PhotoArchive
