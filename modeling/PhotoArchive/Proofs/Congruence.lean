import PhotoArchive.Program.Machine
import PhotoArchive.Proofs.Observation

/-!
# Relations that sequencing respects

Two ways to carry out the same work are compared by a relation between actions: of another context,
on another state, or both. Where sequencing respects the relation, and the two ways relate at each
operation, they relate at every loop and at every program, whatever its shape. The comparison of
two interpreters thus comes down to the five operations. So does a property of one way to carry out
work, where sequencing respects the property.
-/
namespace PhotoArchive

/-- A relation between the actions of two contexts that sequencing respects. -/
structure Congruence (C D : Context) (σ τ : Type) where
  Rel : {α : Type} → Action C σ α → Action D τ α → Prop
  pure : ∀ {α : Type} (a : α), Rel (Pure.pure a) (Pure.pure a)
  bind : ∀ {α β : Type} {x : Action C σ α} {y : Action D τ α} {f : α → Action C σ β}
    {g : α → Action D τ β}, Rel x y → (∀ a, Rel (f a) (g a)) → Rel (x >>= f) (y >>= g)
  wrongType : ∀ {α : Type} (expected : String),
    Rel (Action.abort (.wrongType expected) : Action C σ α) (Action.abort (.wrongType expected))
  emit : ∀ n, Rel (Action.emit (.finished n)) (Action.emit (.finished n))

namespace Congruence

variable {C D : Context} {σ τ S O V α β : Type} (K : Congruence C D σ τ)

theorem map {x : Action C σ α} {y : Action D τ α} (h : K.Rel x y) (f : α → β) :
    K.Rel (f <$> x) (f <$> y) := by
  rw [← bind_pure_comp, ← bind_pure_comp]
  exact K.bind h fun a => K.pure (f a)

/-- Loops relate whose rounds do. -/
theorem descend {below : S → S → Prop} (wf : WellFounded below)
    {step : (s : S) → Action C σ (Turn {t : S // below t s} α)}
    {step' : (s : S) → Action D τ (Turn {t : S // below t s} α)}
    (h : ∀ s, K.Rel (step s) (step' s)) (s : S) :
    K.Rel (Action.descend wf step s) (Action.descend wf step' s) := by
  induction s using wf.induction with
  | _ s ih =>
    rw [Action.descend_eq, Action.descend_eq]
    refine K.bind (h s) fun turn => ?_
    cases turn with
    | again t => exact ih t.val t.property
    | done a => exact K.pure a

section Handlers

variable {h : Handler C σ O V} {h' : Handler D τ O V}

/-- Machines relate that hand over to related handlers. -/
theorem run (hop : ∀ op, K.Rel (h op) (h' op)) (m : Machine O V) :
    K.Rel (m.run h) (m.run h') := by
  -- whatever the answer to an operation, less is left to do after it
  induction m using Machine.later_wf.induction with
  | _ m ih =>
    rw [Machine.run_eq_settle, Machine.run_eq_settle]
    cases hm : m.settle with
    | value v n => exact K.bind (K.emit _) fun _ => K.pure v
    | operation op stack n =>
      exact K.bind (hop op) fun v => ih _ (Machine.under_of_settle hm v)
    | fault expected => exact K.wrongType _

theorem unwrap [Carries V α] (v : V) :
    K.Rel (Action.unwrap α v : Action C σ α) (Action.unwrap α v) := by
  unfold Action.unwrap
  cases (Carries.unwrap? v : Option α) with
  | some a => exact K.pure a
  | none => exact K.wrongType _

/-- Programs relate whose operations do. -/
theorem execute [Carries V α] (hop : ∀ op, K.Rel (h op) (h' op)) (p : Program O V α) :
    K.Rel (p.execute h) (p.execute h') :=
  K.bind (K.run hop _) K.unwrap

theorem treeMeaning (hop : ∀ op, K.Rel (h op) (h' op)) (t : Tree O V) :
    K.Rel (t.meaning h) (t.meaning h') := by
  induction t with
  | pure v => exact K.pure v
  | perform op => exact hop op
  | bind first next ihFirst ihNext => exact K.bind ihFirst ihNext
  | fault expected => exact K.wrongType _

theorem meaning [Carries V α] (hop : ∀ op, K.Rel (h op) (h' op)) (p : Program O V α) :
    K.Rel (p.meaning h) (p.meaning h') :=
  K.bind (K.treeMeaning hop p.root) K.unwrap

end Handlers

structure OnServices (s : Services C σ) (s' : Services D τ) : Prop where
  insertRecord : ∀ id key creator, K.Rel (s.metadata.insertRecord id key creator)
    (s'.metadata.insertRecord id key creator)
  getRecord : ∀ id, K.Rel (s.metadata.getRecord id) (s'.metadata.getRecord id)
  generateKey : ∀ id, K.Rel (s.blobs.generateKey id) (s'.blobs.generateKey id)
  writeContent : ∀ key content,
    K.Rel (s.blobs.writeContent key content) (s'.blobs.writeContent key content)
  readContent : ∀ key, K.Rel (s.blobs.readContent key) (s'.blobs.readContent key)

theorem OnServices.handler [CarriesAnswers V] {s : Services C σ} {s' : Services D τ}
    (hs : K.OnServices s s') (op : PhotoOp) :
    K.Rel (s.handler op : Action C σ V) (s'.handler op) := by
  rcases op with (⟨id, key, creator⟩ | id) | (id | ⟨key, content⟩ | key)
  · exact K.map (hs.insertRecord id key creator) _
  · exact K.map (hs.getRecord id) _
  · exact K.map (hs.generateKey id) _
  · exact K.map (hs.writeContent key content) _
  · exact K.map (hs.readContent key) _

end Congruence

/-! ## Properties that sequencing respects -/

/-- A property of the actions of a context that sequencing respects. -/
structure Invariance (C : Context) (σ : Type) where
  Holds : {α : Type} → Action C σ α → Prop
  pure : ∀ {α : Type} (a : α), Holds (Pure.pure a)
  bind : ∀ {α β : Type} {x : Action C σ α} {f : α → Action C σ β},
    Holds x → (∀ a, Holds (f a)) → Holds (x >>= f)
  wrongType : ∀ {α : Type} (expected : String),
    Holds (Action.abort (.wrongType expected) : Action C σ α)

namespace Invariance

variable {C : Context} {σ S O V α β : Type} (I : Invariance C σ)

theorem map {x : Action C σ α} (h : I.Holds x) (f : α → β) : I.Holds (f <$> x) := by
  rw [← bind_pure_comp]
  exact I.bind h fun a => I.pure (f a)

/-- Loops have the property if their rounds have it. -/
theorem descend {below : S → S → Prop} (wf : WellFounded below)
    {step : (s : S) → Action C σ (Turn {t : S // below t s} α)} (h : ∀ s, I.Holds (step s))
    (s : S) : I.Holds (Action.descend wf step s) := by
  induction s using wf.induction with
  | _ s ih =>
    rw [Action.descend_eq]
    refine I.bind (h s) fun turn => ?_
    cases turn with
    | again t => exact ih t.val t.property
    | done a => exact I.pure a

theorem unwrap [Carries V α] (v : V) : I.Holds (Action.unwrap α v : Action C σ α) := by
  unfold Action.unwrap
  cases (Carries.unwrap? v : Option α) with
  | some a => exact I.pure a
  | none => exact I.wrongType _

theorem treeMeaning {h : Handler C σ O V} (hop : ∀ op, I.Holds (h op)) (t : Tree O V) :
    I.Holds (t.meaning h) := by
  induction t with
  | pure v => exact I.pure v
  | perform op => exact hop op
  | bind first next ihFirst ihNext => exact I.bind ihFirst ihNext
  | fault expected => exact I.wrongType _

/-- Programs have the property if their operations have it. -/
theorem meaning [Carries V α] {h : Handler C σ O V} (hop : ∀ op, I.Holds (h op))
    (p : Program O V α) : I.Holds (p.meaning h) :=
  I.bind (I.treeMeaning hop p.root) I.unwrap

structure OnServices (s : Services C σ) : Prop where
  insertRecord : ∀ id key creator, I.Holds (s.metadata.insertRecord id key creator)
  getRecord : ∀ id, I.Holds (s.metadata.getRecord id)
  generateKey : ∀ id, I.Holds (s.blobs.generateKey id)
  writeContent : ∀ key content, I.Holds (s.blobs.writeContent key content)
  readContent : ∀ key, I.Holds (s.blobs.readContent key)

theorem OnServices.handler [CarriesAnswers V] {s : Services C σ} (hs : I.OnServices s)
    (op : PhotoOp) : I.Holds (s.handler op : Action C σ V) := by
  rcases op with (⟨id, key, creator⟩ | id) | (id | ⟨key, content⟩ | key)
  · exact I.map (hs.insertRecord id key creator) _
  · exact I.map (hs.getRecord id) _
  · exact I.map (hs.generateKey id) _
  · exact I.map (hs.writeContent key content) _
  · exact I.map (hs.readContent key) _

end Invariance

/-! ## Writing operations down changes nothing else -/

section Recording

variable {C : Context} {σ O V α : Type}

/-- An action that does the same and writes operations down. -/
def Congruence.recording (C : Context) (σ O : Type) : Congruence C C (σ × List O) σ where
  Rel x y := ∀ w log, ∃ ops,
    x.run (w.withLog log) = ((y.run w).1, (y.run w).2.withLog (log ++ ops))
  pure a w log := ⟨[], by simp⟩
  bind {_ _ x y f g} hxy hfg w log := by
    obtain ⟨ops, hx⟩ := hxy w log
    match hy : y.run w with
    | (.error s, w₁) =>
      rw [hy] at hx
      exact ⟨ops, by rw [Action.run_bind_error hx, Action.run_bind_error hy]⟩
    | (.ok r, w₁) =>
      rw [hy] at hx
      obtain ⟨ops', hf⟩ := hfg r.value w₁ (log ++ ops)
      exact ⟨ops ++ ops', by
        rw [Action.run_bind_ok hx, Action.run_bind_ok hy, hf, List.append_assoc]⟩
  wrongType _ w log := ⟨[], by simp [Action.abort]⟩
  emit n w log := ⟨[], by simp [Action.emit, World.withLog]⟩

theorem Action.rel_recorded (op : O) (x : Action C σ α) :
    (Congruence.recording C σ O).Rel (x.recorded op) x :=
  fun w log => ⟨[op], run_recorded op x w log⟩

theorem Services.rel_recorded (s : Services C σ) :
    (Congruence.recording C σ PhotoOp).OnServices s.recorded s where
  insertRecord _ _ _ := Action.rel_recorded _ _
  getRecord _ := Action.rel_recorded _ _
  generateKey _ := Action.rel_recorded _ _
  writeContent _ _ := Action.rel_recorded _ _
  readContent _ := Action.rel_recorded _ _

/-- What is observed of an action that writes operations down is what the action does. -/
theorem Action.plain_observe {x : Action C (σ × List O) α} {y : Action C σ α}
    (h : (Congruence.recording C σ O).Rel x y) (w : World σ) :
    (x.observe w).plain = y.run w := by
  obtain ⟨ops, hx⟩ := h w []
  simp only [observe, Observation.plain, hx]
  rfl

theorem Program.plain_observe_execute [Carries V α] (h : Handler C σ O V) (p : Program O V α)
    (w : World σ) : ((p.execute h.recorded).observe w).plain = (p.execute h).run w :=
  Action.plain_observe (Congruence.execute _ (fun op => Action.rel_recorded op (h op)) p) w

theorem Program.plain_observe_meaning [Carries V α] (h : Handler C σ O V) (p : Program O V α)
    (w : World σ) : ((p.meaning h.recorded).observe w).plain = (p.meaning h).run w :=
  Action.plain_observe (Congruence.meaning _ (fun op => Action.rel_recorded op (h op)) p) w

end Recording

end PhotoArchive
