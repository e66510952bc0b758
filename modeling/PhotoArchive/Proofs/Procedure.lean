import PhotoArchive.Proofs.Congruence
import PhotoArchive.Proofs.Typing
import PhotoArchive.Workflow.Direct

/-!
# Procedures

A procedure is what can be written against services without knowing them: values, the five
operations, sequencing and loops, to any length and depth. It says what is carried out once the
services are given, in whatever context they work. The workflows on services are procedures.
Services that relate operation by operation relate at every procedure, and what holds of each
operation holds of every procedure, where sequencing respects it. Programs over the operations of
any union relate alike once the services are given that handle the operations.
-/
namespace PhotoArchive

/-- Work on services that are not yet given, with a value of the type `α`. -/
inductive Procedure : Type → Type 1 where
  | value {α : Type} (a : α) : Procedure α
  | insertRecord (id : PhotoId) (key : BlobKey) (creator : String) : Procedure MetadataRecord
  | getRecord (id : PhotoId) : Procedure MetadataRecord
  | generateKey (id : PhotoId) : Procedure BlobKey
  | writeContent (key : BlobKey) (content : ByteArray) : Procedure Unit
  | readContent (key : BlobKey) : Procedure ByteArray
  | bind {α β : Type} (first : Procedure α) (next : α → Procedure β) : Procedure β
  | map {α β : Type} (f : α → β) (first : Procedure α) : Procedure β
  | loop {S α : Type} {below : S → S → Prop} (wf : WellFounded below)
      (step : (s : S) → Procedure (Turn {t : S // below t s} α)) (s : S) : Procedure α

namespace Procedure

variable {C D : Context} {σ τ α : Type}

def on (s : Services C σ) : {α : Type} → Procedure α → Action C σ α
  | _, .value a => pure a
  | _, .insertRecord id key creator => s.metadata.insertRecord id key creator
  | _, .getRecord id => s.metadata.getRecord id
  | _, .generateKey id => s.blobs.generateKey id
  | _, .writeContent key content => s.blobs.writeContent key content
  | _, .readContent key => s.blobs.readContent key
  | _, .bind first next => first.on s >>= fun a => (next a).on s
  | _, .map f first => f <$> first.on s
  | _, .loop wf step start => Action.descend wf (fun state => (step state).on s) start

/-- Services that relate operation by operation relate at every procedure. -/
theorem rel_on (K : Congruence C D σ τ) {s : Services C σ} {s' : Services D τ}
    (hs : K.OnServices s s') (d : Procedure α) : K.Rel (d.on s) (d.on s') := by
  induction d with
  | value a => exact K.pure a
  | insertRecord id key creator => exact hs.insertRecord id key creator
  | getRecord id => exact hs.getRecord id
  | generateKey id => exact hs.generateKey id
  | writeContent key content => exact hs.writeContent key content
  | readContent key => exact hs.readContent key
  | bind first next ihFirst ihNext => exact K.bind ihFirst ihNext
  | map f first ih => exact K.map ih f
  | loop wf step start ih => exact K.descend wf ih start

/-- A property that services have operation by operation every procedure on them has. -/
theorem holds_on (I : Invariance C σ) {s : Services C σ} (hs : I.OnServices s)
    (d : Procedure α) : I.Holds (d.on s) := by
  induction d with
  | value a => exact I.pure a
  | insertRecord id key creator => exact hs.insertRecord id key creator
  | getRecord id => exact hs.getRecord id
  | generateKey id => exact hs.generateKey id
  | writeContent key content => exact hs.writeContent key content
  | readContent key => exact hs.readContent key
  | bind first next ihFirst ihNext => exact I.bind ihFirst ihNext
  | map f first ih => exact I.map ih f
  | loop wf step start ih => exact I.descend wf ih start

theorem plain_observe_on (s : Services C σ) (d : Procedure α) (w : World σ) :
    ((d.on s.recorded).observe w).plain = (d.on s).run w :=
  Action.plain_observe (rel_on _ s.rel_recorded d) w

/-! ## The workflows -/

def savePhoto (id : PhotoId) (creator : String) (content : ByteArray) : Procedure Unit :=
  .bind (.generateKey id) fun key =>
    .bind (.insertRecord id key creator) fun _ => .writeContent key content

def getPhoto (id : PhotoId) : Procedure Photo :=
  .bind (.getRecord id) fun record => .map (Photo.assemble record) (.readContent record.key)

def saveThenGetPhoto (id : PhotoId) (creator : String) (content : ByteArray) : Procedure Photo :=
  .bind (savePhoto id creator content) fun _ => getPhoto id

def getCreator (id : PhotoId) : Procedure String :=
  .map MetadataRecord.creator (.getRecord id)

def copyContent (source target : BlobKey) : Procedure Unit :=
  .bind (.readContent source) fun content => .writeContent target content

theorem on_savePhoto (s : Services C σ) (id : PhotoId) (creator : String)
    (content : ByteArray) :
    (savePhoto id creator content).on s = s.savePhoto id creator content := rfl

theorem on_getPhoto (s : Services C σ) (id : PhotoId) : (getPhoto id).on s = s.getPhoto id := by
  simp [getPhoto, on, Services.getPhoto]

theorem on_saveThenGetPhoto (s : Services C σ) (id : PhotoId) (creator : String)
    (content : ByteArray) :
    (saveThenGetPhoto id creator content).on s = s.saveThenGetPhoto id creator content := by
  simp [saveThenGetPhoto, on, on_savePhoto, on_getPhoto, Services.saveThenGetPhoto]

theorem on_getCreator (s : Services C σ) (id : PhotoId) :
    (getCreator id).on s = s.metadata.getCreator id := by
  simp [getCreator, on, MetadataService.getCreator]

theorem on_copyContent (s : Services C σ) (source target : BlobKey) :
    (copyContent source target).on s = s.blobs.copyContent source target := rfl

end Procedure

/-! ## Work on any services -/

section Uniform

variable {C D : Context} {σ τ V α : Type}

/-- How services handle the operations of a union, however often a kind of operations is in it. -/
def OpUnion.handler [CarriesAnswers V] (s : Services C σ) : (u : OpUnion) → Handler C σ u.Op V
  | .metadata => s.metadata.handler
  | .blob => s.blobs.handler
  | .both left right => (left.handler s).sum (right.handler s)

theorem Congruence.OnServices.union [CarriesAnswers V] {K : Congruence C D σ τ}
    {s : Services C σ} {s' : Services D τ} (hs : K.OnServices s s') (u : OpUnion) (op : u.Op) :
    K.Rel (u.handler s op : Action C σ V) (u.handler s' op) := by
  induction u with
  | metadata => exact hs.handler (V := V) K (.inl op)
  | blob => exact hs.handler (V := V) K (.inr op)
  | both left right ihLeft ihRight =>
    cases op with
    | inl op => exact ihLeft op
    | inr op => exact ihRight op

/-- Work that is given on any services relates on services that do. -/
def Services.Uniform (work : {C : Context} → {τ : Type} → Services C τ → Action C τ α) : Prop :=
  ∀ {C D : Context} {σ τ : Type} (K : Congruence C D σ τ) {s : Services C σ} {s' : Services D τ},
    K.OnServices s s' → K.Rel (work s) (work s')

theorem Program.uniform [CarriesAnswers V] [Carries V α] (u : OpUnion) (p : Program u.Op V α) :
    Services.Uniform fun s => p.execute (u.handler s) :=
  fun K _ _ hs => K.execute (hs.union u) p

theorem Procedure.uniform (d : Procedure α) : Services.Uniform fun s => d.on s :=
  fun K _ _ hs => d.rel_on K hs

end Uniform

end PhotoArchive
