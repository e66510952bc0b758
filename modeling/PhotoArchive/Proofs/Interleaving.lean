import Mathlib.Logic.Relation
import PhotoArchive.Proofs.Errand

/-!
# Errands whose operations are interleaved

Which operation an errand waits on follows from the answers that it has had. So an errand can be
carried out one operation at a time: it is replayed on its answers, up to the operation that has no
answer yet. Any number of errands can be under way on the same services, and each time the operation
of any one of them is answered. An errand that is carried out in one go leaves the state that its
operations lead to one at a time, so errands that follow one another are among the interleavings.
-/
namespace PhotoArchive

variable {C : Context} {σ V α β : Type}

/-! ## Work on answers that are given -/

/-- Why work on given answers ends without a value. -/
inductive Pause where
  | waits (op : PhotoOp)
  | aborted (reason : Abort)

/-- Work on answers that are given beforehand. -/
abbrev Context.replayed : Context where
  Note := Unit
  empty := ()
  line _ := ()
  join _ _ := ()
  empty_join _ := rfl
  join_empty _ := rfl
  join_assoc _ _ _ := rfl
  Stop := Pause
  abort := .aborted
  repr := .waiting

namespace Action

/-- Takes the next of the answers as that of an operation, which waits if there is none. -/
def nextAnswer (op : PhotoOp) : Action .replayed (List V) V :=
  ⟨fun w =>
    match w.state with
    | [] => (.error (.waits op), w)
    | v :: rest => (.ok ⟨v, ()⟩, ⟨rest, w.events⟩)⟩

/-- Takes the next of the answers as a value of the type that the operation has. -/
def replayed (α : Type) [Carries V α] (op : PhotoOp) : Action .replayed (List V) α :=
  nextAnswer op >>= unwrap α

theorem run_replayed_nil [Carries V α] (op : PhotoOp) (events : Array Event) :
    (replayed α op : Action .replayed (List V) α).run ⟨[], events⟩ =
      (.error (.waits op), ⟨[], events⟩) := rfl

theorem run_replayed_cons [Carries V α] {v : V} {a : α} (carried : Carries.unwrap? v = some a)
    (op : PhotoOp) (rest : List V) (events : Array Event) :
    (replayed α op : Action .replayed (List V) α).run ⟨v :: rest, events⟩ =
      (.ok ⟨a, ()⟩, ⟨rest, events⟩) := by
  have taken : (nextAnswer op).run (⟨v :: rest, events⟩ : World (List V)) =
      (.ok ⟨v, ()⟩, ⟨rest, events⟩) := rfl
  rw [replayed, run_bind_ok taken, Outcome.after_empty, unwrap, carried]
  rfl

/-- Only without an answer does an operation wait. -/
theorem waits_of_run_replayed [Carries V α] {op op' : PhotoOp} {w : World (List V)}
    (h : ((replayed α op).run w).1 = .error (.waits op')) : w.state = [] ∧ op' = op := by
  obtain ⟨answers, events⟩ := w
  match answers with
  | [] =>
    cases h
    exact ⟨rfl, rfl⟩
  | v :: rest =>
    cases carried : (Carries.unwrap? v : Option α) with
    | some a =>
      rw [run_replayed_cons carried] at h
      cases h
    | none =>
      have taken : (nextAnswer op).run (⟨v :: rest, events⟩ : World (List V)) =
          (.ok ⟨v, ()⟩, ⟨rest, events⟩) := rfl
      rw [replayed, run_bind_ok taken, Outcome.after_empty, unwrap, carried] at h
      cases h

/-- An operation that comes to a value has taken one answer, which carries the value. -/
theorem answer_of_run_replayed [Carries V α] {op : PhotoOp} {w w₁ : World (List V)}
    {r : Noted .replayed α} (h : (replayed α op).run w = (.ok r, w₁)) :
    ∃ v, Carries.unwrap? v = some r.value ∧ w.state = v :: w₁.state := by
  obtain ⟨answers, events⟩ := w
  match answers with
  | [] => cases h
  | v :: rest =>
    have taken : (nextAnswer op).run (⟨v :: rest, events⟩ : World (List V)) =
        (.ok ⟨v, ()⟩, ⟨rest, events⟩) := rfl
    rw [replayed, run_bind_ok taken, Outcome.after_empty, unwrap] at h
    cases carried : (Carries.unwrap? v : Option α) with
    | some a =>
      rw [carried] at h
      cases h
      exact ⟨v, carried, rfl⟩
    | none =>
      rw [carried] at h
      cases h

/-- A sequence waits in its first part, or in its second part once the first has its value. -/
theorem waits_of_run_bind {y : Action .replayed (List V) α} {g : α → Action .replayed (List V) β}
    {w : World (List V)} {op : PhotoOp} (h : ((y >>= g).run w).1 = .error (.waits op)) :
    (y.run w).1 = .error (.waits op) ∨
      ∃ r w₁, y.run w = (.ok r, w₁) ∧ ((g r.value).run w₁).1 = .error (.waits op) := by
  match hy : y.run w with
  | (.error pause, w₁) =>
    rw [run_bind_error hy] at h
    exact .inl (congrArg _ (Except.error.inj h))
  | (.ok r, w₁) =>
    rw [run_bind_ok hy, Outcome.after_empty] at h
    exact .inr ⟨r, w₁, rfl, h⟩

/-- A sequence that comes to a value does so in both its parts. -/
theorem parts_of_run_bind {y : Action .replayed (List V) α} {g : α → Action .replayed (List V) β}
    {w w₂ : World (List V)} {r : Noted .replayed β} (h : (y >>= g).run w = (.ok r, w₂)) :
    ∃ r₁ w₁, y.run w = (.ok r₁, w₁) ∧ (g r₁.value).run w₁ = (.ok r, w₂) := by
  obtain ⟨r₁, w₁, r₂, first, second, rfl⟩ := exists_of_run_bind_ok h
  exact ⟨r₁, w₁, first, second⟩

/-- On these answers the work waits on the operation. -/
def WaitsOn (y : Action .replayed (List V) α) (answers : List V) (op : PhotoOp) : Prop :=
  ∀ events, (y.run ⟨answers, events⟩).1 = .error (.waits op)

/-- With these answers the work comes to the value, and it takes none of those after them. -/
def Yields (y : Action .replayed (List V) α) (answers : List V) (a : α) : Prop :=
  ∀ later events, ∃ events', y.run ⟨answers ++ later, events⟩ = (.ok ⟨a, ()⟩, ⟨later, events'⟩)

section Sequence

variable {y : Action .replayed (List V) α} {g : α → Action .replayed (List V) β}
  {answers later : List V} {op : PhotoOp} {a : α} {b : β}

theorem WaitsOn.bind (waits : y.WaitsOn answers op) : (y >>= g).WaitsOn answers op := by
  intro events
  have first := waits events
  match hy : y.run ⟨answers, events⟩ with
  | (.error pause, w) =>
    rw [hy] at first
    rw [run_bind_error hy]
    exact congrArg _ (Except.error.inj first)
  | (.ok r, w) =>
    rw [hy] at first
    cases first

theorem Yields.waitsOn (yields : y.Yields answers a) (waits : (g a).WaitsOn later op) :
    (y >>= g).WaitsOn (answers ++ later) op := by
  intro events
  obtain ⟨events', hy⟩ := yields later events
  rw [run_bind_ok hy, Outcome.after_empty]
  exact waits events'

theorem Yields.bind (yields : y.Yields answers a) (next : (g a).Yields later b) :
    (y >>= g).Yields (answers ++ later) b := by
  intro more events
  obtain ⟨events', hy⟩ := yields (later ++ more) events
  obtain ⟨events'', hg⟩ := next more events'
  refine ⟨events'', ?_⟩
  rw [List.append_assoc, run_bind_ok hy, hg, Outcome.after_empty]

end Sequence

end Action

/-- The operations are answered by the answers that are given. -/
def Services.replayed (V : Type) [CarriesAnswers V] : Services .replayed (List V) where
  metadata := {
    insertRecord := fun id key creator => Action.replayed _ (.inl (.insertRecord id key creator))
    getRecord := fun id => Action.replayed _ (.inl (.getRecord id)) }
  blobs := {
    generateKey := fun id => Action.replayed _ (.inr (.generateKey id))
    writeContent := fun key content => Action.replayed _ (.inr (.writeContent key content))
    readContent := fun key => Action.replayed _ (.inr (.readContent key)) }

/-! ## Work that is replayed one answer after another -/

/-- The operation that the work waits on is answered by the handler. -/
inductive Action.Advances (h : Handler C σ PhotoOp V) (y : Action .replayed (List V) α) :
    σ × List V → σ × List V → Prop where
  | answered {s answers op r t} {events events' : Array Event} (waits : y.WaitsOn answers op)
    (run : (h op).run ⟨s, events⟩ = (.ok r, ⟨t, events'⟩)) :
    Advances h y (s, answers) (t, answers ++ [r.value])

/-- What becomes of the work from a state, once it has had these answers: it comes to a value, the
operation that it waits on has no answer, or it breaks off. -/
inductive Action.EndsBy (h : Handler C σ PhotoOp V) (y : Action .replayed (List V) α)
    (answers : List V) (s : σ) : Except C.Stop α → σ → Prop where
  | value {a} (yields : y.Yields answers a) : EndsBy h y answers s (.ok a) s
  | stopped {op stop t} {events events' : Array Event} (waits : y.WaitsOn answers op)
    (run : (h op).run ⟨s, events⟩ = (.error stop, ⟨t, events'⟩)) :
    EndsBy h y answers s (.error stop) t
  | aborted {reason} : EndsBy h y answers s (.error (C.abort reason)) s

namespace Action

variable {h : Handler C σ PhotoOp V}

/-- The first part of a sequence advances as it does alone. -/
theorem Advances.bind {y : Action .replayed (List V) α} {p q : σ × List V}
    (advances : y.Advances h p q) (g : α → Action .replayed (List V) β) :
    (y >>= g).Advances h p q := by
  cases advances with
  | answered waits run => exact .answered waits.bind run

/-- Once the first part has come to its value, the second one advances. -/
theorem Yields.advances {y : Action .replayed (List V) α} {g : α → Action .replayed (List V) β}
    {answers : List V} {a : α} (yields : y.Yields answers a) {p q : σ × List V}
    (advances : (g a).Advances h p q) :
    (y >>= g).Advances h (p.1, answers ++ p.2) (q.1, answers ++ q.2) := by
  cases advances with
  | answered waits run =>
    rw [← List.append_assoc]
    exact .answered (yields.waitsOn waits) run

/-- Replayed one answer after another, the work ends as the action does. -/
def Replays (h : Handler C σ PhotoOp V) (x : Action C σ α) (y : Action .replayed (List V) α) :
    Prop :=
  ∀ w, ∃ s answers, Relation.ReflTransGen (y.Advances h) (w.state, []) (s, answers) ∧
    y.EndsBy h answers s ((x.run w).1.map Noted.value) (x.run w).2.state

theorem Replays.bind {x : Action C σ α} {y : Action .replayed (List V) α} {f : α → Action C σ β}
    {g : α → Action .replayed (List V) β} (hxy : Replays h x y)
    (hfg : ∀ a, Replays h (f a) (g a)) : Replays h (x >>= f) (y >>= g) := by
  intro w
  obtain ⟨s, answers, steps, ends⟩ := hxy w
  have first : Relation.ReflTransGen ((y >>= g).Advances h) (w.state, []) (s, answers) :=
    Relation.ReflTransGen.mono (fun _ _ advances => advances.bind g) _ _ steps
  rcases hx : x.run w with ⟨stop | r, w₁⟩
  · rw [hx] at ends
    refine ⟨s, answers, first, ?_⟩
    rw [run_bind_error hx]
    cases ends with
    | stopped waits run => exact .stopped waits.bind run
    | aborted => exact .aborted
  · rw [hx] at ends
    cases ends with
    | value yields =>
      obtain ⟨t, later, steps', ends'⟩ := hfg r.value w₁
      have second : Relation.ReflTransGen ((y >>= g).Advances h) (w₁.state, answers)
          (t, answers ++ later) := by
        have lifted := steps'.lift (fun p => (p.1, answers ++ p.2)) fun _ _ => yields.advances
        simpa [Function.onFun] using lifted
      refine ⟨t, answers ++ later, first.trans second, ?_⟩
      rw [run_bind_ok hx]
      -- a note before the outcome does not change its value
      rcases hf : (f r.value).run w₁ with ⟨stop | r', w₂⟩
      · rw [hf] at ends'
        cases ends' with
        | stopped waits run => exact .stopped (yields.waitsOn waits) run
        | aborted => exact .aborted
      · rw [hf] at ends'
        cases ends' with
        | value yields' => exact .value (yields.bind yields')

/-- An operation is replayed by the answer that the handler gives to it. -/
theorem replays_replayed [Carries V α] (op : PhotoOp) {x : Action C σ α}
    (handled : h op = Carries.wrap <$> x) : Replays h x (replayed α op) := by
  intro w
  have waits : (replayed α op : Action .replayed (List V) α).WaitsOn [] op :=
    fun events => congrArg Prod.fst (run_replayed_nil op events)
  rcases hx : x.run w with ⟨stop | r, w₁⟩
  · have run : (h op).run w = (.error stop, w₁) := by rw [handled, run_map_error hx]
    exact ⟨w.state, [], .refl, .stopped waits run⟩
  · have run : (h op).run w = (.ok ⟨Carries.wrap r.value, r.note⟩, w₁) := by
      rw [handled, run_map_ok hx]
    refine ⟨w₁.state, [Carries.wrap r.value], .single (.answered waits run), .value ?_⟩
    exact fun later events => ⟨events, run_replayed_cons (Carries.unwrap?_wrap _) op later events⟩

end Action

/-- Work on services, replayed on the answers of the services. -/
def Congruence.replay (h : Handler C σ PhotoOp V) : Congruence C .replayed σ (List V) where
  Rel := Action.Replays h
  pure _ w := ⟨w.state, [], .refl, .value fun _ events => ⟨events, rfl⟩⟩
  bind := Action.Replays.bind
  wrongType _ w := ⟨w.state, [], .refl, .aborted⟩
  emit n w := ⟨w.state, [], .refl, .value fun _ events => ⟨events.push (.finished n), rfl⟩⟩

theorem Services.replays_replayed [CarriesAnswers V] (svc : Services C σ) :
    (Congruence.replay (V := V) svc.handler).OnServices svc (.replayed V) where
  insertRecord _ _ _ := Action.replays_replayed _ rfl
  getRecord _ := Action.replays_replayed _ rfl
  generateKey _ := Action.replays_replayed _ rfl
  writeContent _ _ := Action.replays_replayed _ rfl
  readContent _ := Action.replays_replayed _ rfl

/-! ## Errands under way -/

section Carried

variable [CarriesAnswers V] [Carries V String] [Carries V Photo]

/-- The operation that an errand waits on after these answers. -/
def Errand.WaitsOn (e : Errand) (answers : List V) (op : PhotoOp) : Prop :=
  (e.action V (.replayed V)).WaitsOn answers op

/-- However an errand is carried out, it waits on what its task waits on. -/
theorem Errand.waitsOn_iff {e : Errand} {answers : List V} {op : PhotoOp} :
    e.WaitsOn answers op ↔ (e.task.on (.replayed V)).WaitsOn answers op := by
  unfold WaitsOn Action.WaitsOn
  refine forall_congr' fun events => ?_
  rw [(e.run_action V (.replayed V) ⟨answers, events⟩).1]

/-- An errand is replayed on the answers of the services that it is carried out on. -/
theorem Errand.replays (svc : Services C σ) (e : Errand) :
    Action.Replays (V := V) svc.handler (e.action V svc) (e.action V (.replayed V)) := by
  have related := svc.replays_replayed (V := V)
  unfold action
  split
  · exact Congruence.execute _ related.handler _
  · rw [← e.task.on_procedure, ← e.task.on_procedure]
    exact Procedure.rel_on _ related _

/-- An errand that has been begun, with the answers that it has had. -/
structure Underway (V : Type) where
  errand : Errand
  answers : List V

/-- The errands under way on the same services, and the state that these are in. -/
structure Pool (σ V : Type) where
  state : σ
  underway : List (Underway V)

/-- One step of errands under way, in any order and whatever has been reported before: another
errand is begun, the operation that an errand waits on is answered, or it has no answer and the
errand ends. -/
inductive Pool.Step (svc : Services C σ) : Pool σ V → Pool σ V → Prop where
  | begun (e s us) : Step svc ⟨s, us⟩ ⟨s, us ++ [⟨e, []⟩]⟩
  | answered (events : Array Event) {e op s r t events'} {answers : List V} (before after)
    (waits : e.WaitsOn answers op)
    (run : (svc.handler op).run ⟨s, events⟩ = (.ok r, ⟨t, events'⟩)) :
    Step svc ⟨s, before ++ ⟨e, answers⟩ :: after⟩
      ⟨t, before ++ ⟨e, answers ++ [r.value]⟩ :: after⟩
  | stopped (events : Array Event) {e op s stop t events'} {answers : List V} (before after)
    (waits : e.WaitsOn answers op)
    (run : (svc.handler (V := V) op).run ⟨s, events⟩ = (.error stop, ⟨t, events'⟩)) :
    Step svc ⟨s, before ++ ⟨e, answers⟩ :: after⟩ ⟨t, before ++ after⟩

/-- Errands under way get from the one pool to the other. -/
abbrev Pool.Leads (svc : Services C σ) : Pool σ V → Pool σ V → Prop :=
  Relation.ReflTransGen (Step svc)

/-- The state that an errand leaves is one that errands under way get to. -/
theorem Pool.leads_errand (svc : Services C σ) (e : Errand) (w : World σ)
    (us : List (Underway V)) :
    ∃ us', Leads svc ⟨w.state, us⟩ ⟨((e.action V svc).run w).2.state, us'⟩ := by
  obtain ⟨s, answers, steps, ends⟩ := e.replays (V := V) svc w
  have advanced : Leads svc ⟨w.state, us ++ [⟨e, []⟩]⟩ ⟨s, us ++ [⟨e, answers⟩]⟩ := by
    refine steps.lift (fun p : σ × List V => (⟨p.1, us ++ [⟨e, p.2⟩]⟩ : Pool σ V)) ?_
    intro p q advances
    cases advances with
    | answered waits run => exact .answered _ us [] waits run
  have begun : Leads svc ⟨w.state, us⟩ ⟨s, us ++ [⟨e, answers⟩]⟩ :=
    advanced.head (.begun e w.state us)
  generalize (e.action V svc).run w = run at ends
  generalize run.1.map Noted.value = o at ends
  generalize run.2.state = t at ends
  cases ends with
  | value yields => exact ⟨_, begun⟩
  | stopped waits run => exact ⟨_, begun.tail (.stopped _ us [] waits run)⟩
  | aborted => exact ⟨_, begun⟩

/-- Errands that follow one another are among the interleavings. -/
theorem Pool.leads_after (svc : Services C σ) (es : List Errand) (w : World σ)
    (us : List (Underway V)) :
    ∃ us', Leads svc ⟨w.state, us⟩ ⟨(svc.after V es w).state, us'⟩ := by
  induction es generalizing w us with
  | nil => exact ⟨us, .refl⟩
  | cons e es ih =>
    obtain ⟨us₁, first⟩ := leads_errand svc e w us
    obtain ⟨us₂, rest⟩ := ih ((e.action V svc).run w).2 us₁
    exact ⟨us₂, first.trans rest⟩

end Carried

end PhotoArchive
