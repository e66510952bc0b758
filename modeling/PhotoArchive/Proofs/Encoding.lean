import PhotoArchive.Proofs.Machine
import PhotoArchive.Proofs.Procedure
import PhotoArchive.Workflow.Deferred

/-!
# Programs and the actions that they encode

A program encodes an action when its tree means the action with the value carried. Building
programs keeps step with building actions, so a program is seen to encode an action part by part.
A program that encodes an action is observed to do exactly what the action does, apart from the
report with which it ends. The five workflows agree in this way, whatever services they are carried
out on.
-/
namespace PhotoArchive

variable {C : Context} {σ O V α β : Type}

/-- What is observed of a run that ends, if it comes to a value, with a report of how many
operations there were. -/
def Observation.reported (o : Observation C σ O α) : Observation C σ O α :=
  match o.outcome with
  | .ok _ => { o with events := o.events.push (.finished o.operations.length) }
  | .error _ => o

namespace Program

/-- Under the handler, the tree of the program means the action. -/
def Encodes [Carries V α] (h : Handler C σ O V) (p : Program O V α) (x : Action C σ α) : Prop :=
  p.root.meaning h = Carries.wrap <$> x

namespace Encodes

variable {h : Handler C σ O V}

theorem pure [Carries V α] (a : α) :
    (Program.pure a : Program O V α).Encodes h (Pure.pure a) := by
  simp [Encodes, Program.pure, Tree.meaning]

theorem bind [Carries V α] [Carries V β] {p : Program O V α} {x : Action C σ α}
    {f : α → Program O V β} {g : α → Action C σ β} (hp : p.Encodes h x)
    (hf : ∀ a, (f a).Encodes h (g a)) : (p.bind f).Encodes h (x >>= g) := by
  unfold Encodes at *
  simp only [Program.bind, Tree.meaning, hp, bind_map_left, Carries.unwrap?_wrap, map_bind]
  exact bind_congr hf

theorem map [Carries V α] [Carries V β] {p : Program O V α} {x : Action C σ α}
    (hp : p.Encodes h x) (f : α → β) : (p.map f).Encodes h (f <$> x) := by
  rw [← bind_pure_comp]
  exact hp.bind fun a => .pure (f a)

/-- A program that encodes an action means the action. -/
theorem meaning_eq [Carries V α] {p : Program O V α} {x : Action C σ α} (hp : p.Encodes h x) :
    p.meaning h = x := by
  rw [Program.meaning, hp, bind_map_left]
  simp [Action.unwrap]

/-- A program that encodes an action does what the action does, and then reports. -/
theorem observe_execute [Carries V α] {p : Program O V α} {h : Handler C σ O V}
    {x : Action C (σ × List O) α} (hp : p.Encodes h.recorded x) (w : World σ) :
    (p.execute h.recorded).observe w = (x.observe w).reported := by
  have tree : Prod.fst <$> p.root.counted h.recorded 0 = Carries.wrap <$> x := by
    rw [Tree.fst_counted, ← hp]
  have meant := hp.meaning_eq
  rcases hc : (p.root.counted h.recorded 0).run (w.withLog []) with ⟨s | r, w₁⟩
  · obtain ⟨hx, he⟩ := run_of_counted_error hc
    rw [meant] at hx
    simp [Action.observe, Observation.reported, hx, he]
  · obtain ⟨o, hx, he⟩ := run_of_counted_ok hc
    rw [meant] at hx
    have count := Tree.counted_recorded h p.root hc
    cases o with
    | error s =>
      -- the action comes to a value, since the tree that encodes it does
      have ended := Action.run_map_error hx (Carries.wrap : α → V)
      rw [← tree, Action.run_map_ok hc] at ended
      cases ended
    | ok a =>
      simp only [World.withLog, List.length_nil, Nat.add_zero, Nat.zero_add] at count
      simp [Action.observe, Observation.reported, hx, he, count]

section Operations

variable [CarriesAnswers V] (s : Services C σ)

theorem insertRecord (id : PhotoId) (key : BlobKey) (creator : String) :
    (Program.insertRecord id key creator : Program PhotoOp V MetadataRecord).Encodes s.handler
      (s.metadata.insertRecord id key creator) := rfl

theorem getRecord (id : PhotoId) :
    (Program.getRecord id : Program PhotoOp V MetadataRecord).Encodes s.handler
      (s.metadata.getRecord id) := rfl

theorem generateKey (id : PhotoId) :
    (Program.generateKey id : Program PhotoOp V BlobKey).Encodes s.handler
      (s.blobs.generateKey id) := rfl

theorem writeContent (key : BlobKey) (content : ByteArray) :
    (Program.writeContent key content : Program PhotoOp V Unit).Encodes s.handler
      (s.blobs.writeContent key content) := rfl

theorem readContent (key : BlobKey) :
    (Program.readContent key : Program PhotoOp V ByteArray).Encodes s.handler
      (s.blobs.readContent key) := rfl

end Operations

/-! ### The workflows as procedures -/

section Workflows

variable [CarriesAnswers V] (s : Services C σ)

theorem savePhoto (id : PhotoId) (creator : String) (content : ByteArray) :
    (Program.savePhoto id creator content : Program PhotoOp V Unit).Encodes s.handler
      ((Procedure.savePhoto id creator content).on s) :=
  (generateKey s id).bind fun key =>
    (insertRecord s id key creator).bind fun _ => writeContent s key content

theorem getPhoto [Carries V Photo] (id : PhotoId) :
    (Program.getPhoto id : Program PhotoOp V Photo).Encodes s.handler
      ((Procedure.getPhoto id).on s) :=
  (getRecord s id).bind fun record => (readContent s record.key).map (Photo.assemble record)

theorem saveThenGetPhoto [Carries V Photo] (id : PhotoId) (creator : String)
    (content : ByteArray) :
    (Program.saveThenGetPhoto id creator content : Program PhotoOp V Photo).Encodes s.handler
      ((Procedure.saveThenGetPhoto id creator content).on s) :=
  (savePhoto s id creator content).bind fun _ => getPhoto s id

theorem getCreator [Carries V String] (id : PhotoId) :
    (Program.getCreator id : Program PhotoOp V String).Encodes s.handler
      ((Procedure.getCreator id).on s) :=
  (getRecord s id).map MetadataRecord.creator

theorem copyContent (source target : BlobKey) :
    (Program.copyContent source target : Program PhotoOp V Unit).Encodes s.handler
      ((Procedure.copyContent source target).on s) :=
  (readContent s source).bind fun content => writeContent s target content

end Workflows

end Encodes

/-- On any services in any context, from any world, carrying the program out is observed as the
flow on the services is, and then reports. What is observed is what the two do. -/
def AgreesWith [CarriesAnswers V] [Carries V α] (p : Program PhotoOp V α)
    (flow : {C : Context} → {σ : Type} → Services C σ → Action C σ α) : Prop :=
  ∀ (C : Context) (σ : Type) (s : Services C σ) (w : World σ),
    let direct := (flow s.recorded).observe w
    let deferred := (p.execute s.recorded.handler).observe w
    deferred = direct.reported ∧
      direct.plain = (flow s).run w ∧ deferred.plain = (p.execute s.handler).run w

theorem agreesWith_of_procedure [CarriesAnswers V] [Carries V α] {p : Program PhotoOp V α}
    {flow : {C : Context} → {σ : Type} → Services C σ → Action C σ α} (d : Procedure α)
    (hd : ∀ (C : Context) (σ : Type) (s : Services C σ), d.on s = flow s)
    (hp : ∀ (C : Context) (σ : Type) (s : Services C σ), p.Encodes s.handler (d.on s)) :
    p.AgreesWith flow := by
  intro C σ s w
  have recorded := hp C _ s.recorded
  have plain := d.plain_observe_on s w
  rw [hd, s.handler_recorded] at recorded
  rw [hd, hd] at plain
  refine ⟨?_, plain, ?_⟩
  · rw [s.handler_recorded]
    exact recorded.observe_execute w
  · rw [s.handler_recorded]
    exact p.plain_observe_execute s.handler w

/-- Each workflow does the same as a program and directly on services: it comes to the same
outcome with the same trace, carries out the same operations in the same order, and leaves the
same state and the same events, apart from the report with which a program ends. This holds for
supplied maps, for narrated ones and for backends that answer in any way. -/
theorem workflows_agree [CarriesAnswers V] [Carries V String] [Carries V Photo] :
    (∀ id creator content,
      (savePhoto id creator content : Program PhotoOp V Unit).AgreesWith fun s =>
        s.savePhoto id creator content) ∧
    (∀ id, (getPhoto id : Program PhotoOp V Photo).AgreesWith fun s => s.getPhoto id) ∧
    (∀ id creator content,
      (saveThenGetPhoto id creator content : Program PhotoOp V Photo).AgreesWith fun s =>
        s.saveThenGetPhoto id creator content) ∧
    (∀ id, (getCreator id : Program PhotoOp V String).AgreesWith fun s =>
      s.metadata.getCreator id) ∧
    ∀ source target, (copyContent source target : Program PhotoOp V Unit).AgreesWith fun s =>
      s.blobs.copyContent source target := by
  refine ⟨fun id creator content => ?_, fun id => ?_, fun id creator content => ?_,
    fun id => ?_, fun source target => ?_⟩
  · apply agreesWith_of_procedure (.savePhoto id creator content)
    · exact fun _ _ s => Procedure.on_savePhoto s id creator content
    · exact fun _ _ s => Encodes.savePhoto s id creator content
  · apply agreesWith_of_procedure (.getPhoto id)
    · exact fun _ _ s => Procedure.on_getPhoto s id
    · exact fun _ _ s => Encodes.getPhoto s id
  · apply agreesWith_of_procedure (.saveThenGetPhoto id creator content)
    · exact fun _ _ s => Procedure.on_saveThenGetPhoto s id creator content
    · exact fun _ _ s => Encodes.saveThenGetPhoto s id creator content
  · apply agreesWith_of_procedure (.getCreator id)
    · exact fun _ _ s => Procedure.on_getCreator s id
    · exact fun _ _ s => Encodes.getCreator s id
  · apply agreesWith_of_procedure (.copyContent source target)
    · exact fun _ _ s => Procedure.on_copyContent s source target
    · exact fun _ _ s => Encodes.copyContent s source target

end Program

end PhotoArchive
