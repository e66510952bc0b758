import PhotoArchive.Interpreter.Narrated
import PhotoArchive.Proofs.Procedure

/-!
# What a narration tells

Narrated services do what the services do, and the trace of work that comes to a value consists of
the descriptions of the operations that the services were handed, a line for each and in order.
This holds for programs and for procedures of any shape, since sequencing joins traces as it joins
lists of operations.
-/
namespace PhotoArchive

variable {σ α V : Type}

def Trace.describing (ops : List PhotoOp) : Trace :=
  .ofList (ops.map PhotoOp.describe)

@[simp] theorem Trace.toList_describing (ops : List PhotoOp) :
    (describing ops).toList = ops.map PhotoOp.describe := rfl

theorem Trace.describing_append (ops later : List PhotoOp) :
    describing (ops ++ later) = (describing ops).append (describing later) := by
  refine ext_toList (Eq.trans ?_ (toList_append (describing ops) (describing later)).symm)
  simp

namespace Outcome

def untraced : Outcome .traced α → Outcome .immediate α
  | .ok r => .ok ⟨r.value, ()⟩
  | .error reason => .error reason

def narrating (ops : List PhotoOp) : Outcome .immediate α → Outcome .traced α
  | .ok r => .ok ⟨r.value, .describing ops⟩
  | .error reason => .error reason

theorem untraced_narrating (ops : List PhotoOp) (o : Outcome .immediate α) :
    (o.narrating ops).untraced = o := by
  cases o <;> rfl

theorem after_narrating (ops later : List PhotoOp) (o : Outcome .immediate α) :
    (o.narrating later).after (Trace.describing ops) = o.narrating (ops ++ later) := by
  cases o with
  | error reason => rfl
  | ok r =>
    simp only [narrating, after]
    rw [Trace.describing_append]

end Outcome

namespace Action

/-- Narrating an action that is written down is writing down a narrated one. -/
theorem narrate_recorded (line : String) (op : PhotoOp) (x : Action .immediate σ α) :
    (x.recorded op).narrate line = (x.narrate line).recorded op := by
  ext w : 2
  simp only [narrate, recorded]
  rcases x.run ⟨w.state.1, w.events⟩ with ⟨reason | r, w₁⟩ <;> rfl

end Action

/-- Services that are written down are narrated as narrated services are written down. -/
theorem Services.narrated_recorded (s : Services .immediate σ) :
    s.recorded.narrated = s.narrated.recorded := by
  simp only [narrated, recorded, MetadataService.narrated, BlobService.narrated,
    Action.narrate_recorded]

/-- An action that does the same with a trace of what is written down meanwhile. -/
def Congruence.narration (σ : Type) :
    Congruence .traced .immediate (σ × List PhotoOp) (σ × List PhotoOp) where
  Rel x y := ∀ w, ∃ ops, (y.run w).2.state.2 = w.state.2 ++ ops ∧
    x.run w = ((y.run w).1.narrating ops, (y.run w).2)
  pure a w := ⟨[], by simp, rfl⟩
  bind {_ _ x y f g} hxy hfg w := by
    obtain ⟨ops, log, hx⟩ := hxy w
    match hy : y.run w with
    | (.error reason, w₁) =>
      rw [hy] at hx log
      refine ⟨ops, ?_, ?_⟩
      · rw [Action.run_bind_error hy]
        exact log
      · rw [Action.run_bind_error hx, Action.run_bind_error hy]
        rfl
    | (.ok r, w₁) =>
      rw [hy] at hx log
      obtain ⟨later, log', hf⟩ := hfg r.value w₁
      -- the two traces are joined as the operations of the two parts are
      refine ⟨ops ++ later, ?_, ?_⟩
      · rw [Action.run_bind_ok hy, ← List.append_assoc, ← log]
        exact log'
      · rw [Action.run_bind_ok hx, Action.run_bind_ok hy, hf, Outcome.after_narrating,
          Outcome.after_empty]
  wrongType _ w := ⟨[], by simp [Action.abort], rfl⟩
  emit n w := ⟨[], by simp [Action.emit], rfl⟩

theorem Action.rel_narrate (op : PhotoOp) (x : Action .immediate σ α) :
    (Congruence.narration σ).Rel ((x.recorded op).narrate (PhotoOp.describe op))
      (x.recorded op) := by
  intro w
  refine ⟨[op], rfl, ?_⟩
  simp only [narrate, recorded]
  rcases x.run ⟨w.state.1, w.events⟩ with ⟨reason | r, w₁⟩ <;> rfl

/-- Narrated services narrate each operation. -/
theorem Services.rel_narrated (s : Services .immediate σ) :
    (Congruence.narration σ).OnServices s.recorded.narrated s.recorded where
  insertRecord _ _ _ := Action.rel_narrate _ _
  getRecord _ := Action.rel_narrate _ _
  generateKey _ := Action.rel_narrate _ _
  writeContent _ _ := Action.rel_narrate _ _
  readContent _ := Action.rel_narrate _ _

/-- From the world on, work that is given on any services is narrated. On the narrated services it
comes to the value that it comes to on the services themselves, or breaks off for the same reason,
the services are handed the same operations, and the same state and events are left. The trace
with a value consists of the descriptions of the operations that the services were handed. What is
observed is what the work does. -/
def Services.NarratesFrom (s : Services .immediate σ) (w : World σ)
    (work : {C : Context} → {τ : Type} → Services C τ → Action C τ α) : Prop :=
  let plain := (work s.recorded).observe w
  let narrated := (work s.recorded.narrated).observe w
  (narrated.outcome.untraced = plain.outcome ∧ narrated.state = plain.state ∧
      narrated.operations = plain.operations ∧ narrated.events = plain.events) ∧
    (∀ r, narrated.outcome = .ok r →
      r.note.toList = narrated.operations.map PhotoOp.describe) ∧
    plain.plain = (work s).run w ∧ narrated.plain = (work s.narrated).run w

theorem Services.narratesFrom_of_rel {s : Services .immediate σ}
    {work : {C : Context} → {τ : Type} → Services C τ → Action C τ α}
    (narrated : (Congruence.narration σ).Rel (work s.recorded.narrated) (work s.recorded))
    (recorded : (Congruence.recording .immediate σ PhotoOp).Rel (work s.recorded) (work s))
    (both : (Congruence.recording .traced σ PhotoOp).Rel (work s.recorded.narrated)
      (work s.narrated))
    (w : World σ) : s.NarratesFrom w work := by
  obtain ⟨ops, log, run⟩ := narrated (w.withLog [])
  have told : ((work s.recorded.narrated).observe w).operations = ops := by
    rw [Action.observe, run]
    exact log
  refine ⟨⟨?_, ?_, ?_, ?_⟩, ?_, Action.plain_observe recorded w, Action.plain_observe both w⟩
  · simp only [Action.observe, run, Outcome.untraced_narrating]
  · simp only [Action.observe, run]
  · simp only [Action.observe, run]
  · simp only [Action.observe, run]
  · intro r hr
    rw [told]
    simp only [Action.observe, run] at hr
    cases hp : ((work s.recorded).run (w.withLog [])).1 with
    | ok a =>
      rw [hp] at hr
      cases hr
      rfl
    | error reason =>
      rw [hp] at hr
      cases hr

/-- Narration changes nothing and tells everything: for programs and for procedures of every
length and shape, on all services and from every state. -/
theorem Services.narrates_all [CarriesAnswers V] (s : Services .immediate σ) (w : World σ) :
    (∀ (α : Type) [Carries V α] (p : Program PhotoOp V α),
        s.NarratesFrom w fun s => p.execute s.handler) ∧
      ∀ (α : Type) (d : Procedure α), s.NarratesFrom w fun s => d.on s := by
  have narrated := s.rel_narrated
  have recorded := s.rel_recorded
  have both := s.narrated.rel_recorded
  rw [← s.narrated_recorded] at both
  constructor
  · intro α _ p
    apply narratesFrom_of_rel
    · exact Congruence.execute _ narrated.handler p
    · exact Congruence.execute _ recorded.handler p
    · exact Congruence.execute _ both.handler p
  · intro α d
    apply narratesFrom_of_rel
    · exact d.rel_on _ narrated
    · exact d.rel_on _ recorded
    · exact d.rel_on _ both

end PhotoArchive
