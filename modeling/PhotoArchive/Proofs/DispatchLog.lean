import PhotoArchive.Proofs.Completion
import PhotoArchive.Proofs.Course
import PhotoArchive.Proofs.TimeLimit

/-!
# The log of dispatches

The same work on the same backends is carried out twice, once with each operation reported as it
starts and once without these reports. The two are led side by side through worlds of the same
state, which is all that calls to backends depend on. So they do the same, and what the work without
the log reports is what the other one reports without the starts of the operations. What is
reported between the starts is settled by the calls, and the only warning among it is that of the
failure with which the work ends.
-/
namespace PhotoArchive

variable {C D : Context} {σ τ α β V : Type}

/-! ## Starts and warnings -/

def Event.isDispatching : Event → Bool
  | .dispatching _ => true
  | _ => false

def OperationError.warning : OperationError → Event
  | .backend op source => .callFailed op source
  | .timeout op limit => .timedOut op limit

/-- The warnings that an outcome calls for: one for a failure, and none for anything else. -/
def Outcome.warned : Outcome .awaited α → List Event
  | .error (.failed error) => [error.warning]
  | _ => []

/-- The same settings with or without a report of each operation as it starts. -/
def Settings.logging (settings : Settings) (logs : Bool) : Settings :=
  { settings with logDispatch := logs }

theorem Call.isDispatching_of_mem_reported (settings : Settings) (op : OperationName)
    (c : Call σ α) : ∀ e ∈ c.reported settings op, e.isDispatching = false := by
  intro e mem
  obtain ⟨_, rfl⟩ | ⟨_, rfl⟩ | ⟨_, rfl⟩ := mem_reported settings op mem <;> rfl

/-- Of a call the failure is reported as a warning, and no other warning is. -/
theorem Call.filter_isWarning_reported (settings : Settings) (op : OperationName)
    (c : Call σ (Option α)) :
    (c.reported settings op).filter Event.isWarning = (c.conclusion settings op).warned := by
  have stores (reports : List StoreEvent) :
      (reports.map Event.stored).filter Event.isWarning = [] := by
    simp [List.filter_eq_nil_iff, Event.isWarning]
  unfold reported conclusion
  cases settings.exceeded? c.delay with
  | some limit =>
    simp only [Progress.events, List.filter_append, stores]
    rfl
  | none =>
    rw [events, List.filter_append, stores, outcome]
    rcases c.answer with e | _ | a <;> rfl

/-! ## What is reported of an operation -/

namespace Dispatch

def found (d : Dispatch σ) : PhotoOp × σ :=
  (d.op, d.world.state)

/-- What is reported of an operation: its start, and then what is reported of its call. -/
def reports (b : Backends σ) (settings : Settings) (d : Dispatch σ) : List Event :=
  .dispatching d.name :: (b.asked d.op d.world.state).reported settings d.name

variable (b : Backends σ) (settings : Settings) (d : Dispatch σ)

/-- Without the start, what is reported of an operation is what is reported of its call. -/
theorem filter_not_isDispatching_reports :
    (d.reports b settings).filter (!·.isDispatching) =
      (b.asked d.op d.world.state).reported settings d.name := by
  rw [reports, List.filter_cons_of_neg (by simp [Event.isDispatching]), List.filter_eq_self]
  intro e mem
  rw [Call.isDispatching_of_mem_reported settings d.name _ e mem]
  rfl

theorem filter_isDispatching_reports :
    (d.reports b settings).filter Event.isDispatching = [.dispatching d.name] := by
  rw [reports, List.filter_cons_of_pos rfl, List.filter_eq_nil_iff.mpr]
  intro e mem
  rw [Call.isDispatching_of_mem_reported settings d.name _ e mem]
  exact Bool.false_ne_true

theorem filter_not_isFinished_reports :
    (d.reports b settings).filter (!·.isFinished) = d.reports b settings := by
  refine List.filter_eq_self.mpr fun e mem => ?_
  rcases List.mem_cons.mp mem with rfl | told
  · rfl
  · rw [Call.silent_reported settings d.name _ e told]
    rfl

end Dispatch

/-! ## The same work with the log and without it -/

/-- How the same work goes from two worlds, loud with the log and quiet without it: which dispatches
each of the two hands over, and what the loud one reports. -/
structure Backends.SideBySide (b : Backends σ) (settings : Settings)
    (w w' : World (σ × List (Dispatch σ)))
    (loud quiet : Outcome .awaited α × World (σ × List (Dispatch σ)))
    (ds ds' : List (Dispatch σ)) (more : List Event) : Prop where
  outcome : quiet.1 = loud.1
  state : quiet.2.state.1 = loud.2.state.1
  handed : loud.2.state.2 = w.state.2 ++ ds
  handed' : quiet.2.state.2 = w'.state.2 ++ ds'
  found : ds'.map Dispatch.found = ds.map Dispatch.found
  events : loud.2.events.toList = w.events.toList ++ more
  events' : quiet.2.events.toList = w'.events.toList ++ more.filter (!·.isDispatching)
  told : more.filter (!·.isFinished) = ds.flatMap (·.reports b settings)
  warned : more.filter Event.isWarning = loud.1.warned

namespace Action

/-- Work with the log beside the same work without it, from any two worlds of the same state. -/
def LogsBeside (b : Backends σ) (settings : Settings)
    (x y : Action .awaited (σ × List (Dispatch σ)) α) : Prop :=
  ∀ w w', w'.state.1 = w.state.1 →
    ∃ ds ds' more, b.SideBySide settings w w' (x.run w) (y.run w') ds ds' more

namespace LogsBeside

variable {b : Backends σ} {settings : Settings}

theorem pure (a : α) : LogsBeside b settings (Pure.pure a) (Pure.pure a) :=
  fun _ _ same => ⟨[], [], [], by constructor <;> simp [same, Outcome.warned]⟩

theorem bind {x y : Action .awaited (σ × List (Dispatch σ)) α}
    {f g : α → Action .awaited (σ × List (Dispatch σ)) β} (first : LogsBeside b settings x y)
    (next : ∀ a, LogsBeside b settings (f a) (g a)) :
    LogsBeside b settings (x >>= f) (y >>= g) := by
  intro w w' same
  obtain ⟨ds, ds', more, beside⟩ := first w w' same
  rcases hx : x.run w with ⟨halt | r, w₁⟩ <;> rcases hy : y.run w' with ⟨halt' | r', w₁'⟩ <;>
    rw [hx, hy] at beside
  · cases beside.outcome
    have warned : more.filter Event.isWarning = Outcome.warned (α := β) (.error halt) := by
      rw [beside.warned]
      cases halt <;> rfl
    refine ⟨ds, ds', more, ?_⟩
    rw [run_bind_error hx, run_bind_error hy]
    exact ⟨rfl, beside.state, beside.handed, beside.handed', beside.found, beside.events,
      beside.events', beside.told, warned⟩
  · cases beside.outcome
  · cases beside.outcome
  · cases beside.outcome
    obtain ⟨later, later', more', beside'⟩ := next r.value w₁ w₁' beside.state
    refine ⟨ds ++ later, ds' ++ later', more ++ more', ?_⟩
    rw [run_bind_ok hx, run_bind_ok hy, Outcome.after_empty, Outcome.after_empty]
    exact {
      outcome := beside'.outcome
      state := beside'.state
      handed := by rw [beside'.handed, beside.handed, List.append_assoc]
      handed' := by rw [beside'.handed', beside.handed', List.append_assoc]
      found := by rw [List.map_append, List.map_append, beside'.found, beside.found]
      events := by rw [beside'.events, beside.events, List.append_assoc]
      events' := by
        rw [beside'.events', beside.events', List.filter_append, List.append_assoc]
      told := by rw [List.filter_append, beside'.told, beside.told, List.flatMap_append]
      warned := by rw [List.filter_append, beside'.warned, beside.warned]; rfl }

end LogsBeside

/-- But for the report of its start, an operation that is written down is settled by its call. -/
theorem run_stamped_ofCall (settings : Settings) (op : PhotoOp) (call : σ → Call σ (Option α))
    (w : World (σ × List (Dispatch σ))) :
    ((ofCall settings (PhotoOp.name op) call).stamped op).run w =
      ((call w.state.1).conclusion settings (PhotoOp.name op),
        ⟨((call w.state.1).left settings, w.state.2 ++ [⟨op, w.withoutLog⟩]),
          w.events ++ (settings.announce (PhotoOp.name op) ++
            (call w.state.1).reported settings (PhotoOp.name op))⟩) := by
  simp only [stamped, recorded, run_ofCall_eq]
  rfl

/-- One operation, carried out with the log and without it. -/
theorem logsBeside_ofCall (b : Backends σ) (settings : Settings) (op : PhotoOp)
    (call : σ → Call σ (Option α))
    (reported : ∀ s, (call s).reported settings (PhotoOp.name op) =
      (b.asked op s).reported settings (PhotoOp.name op)) :
    LogsBeside b settings ((ofCall (settings.logging true) (PhotoOp.name op) call).stamped op)
      ((ofCall (settings.logging false) (PhotoOp.name op) call).stamped op) := by
  intro w w' same
  let d : Dispatch σ := ⟨op, w.withoutLog⟩
  refine ⟨[d], [⟨op, w'.withoutLog⟩], d.reports b settings, ?_⟩
  have told : (call w.state.1).reported settings d.name =
      (b.asked d.op d.world.state).reported settings d.name := reported w.state.1
  rw [run_stamped_ofCall, run_stamped_ofCall, same]
  exact {
    outcome := rfl
    state := rfl
    handed := rfl
    handed' := rfl
    found := by simp [Dispatch.found, World.withoutLog, same, d]
    events := by
      rw [Array.toList_appendList, Dispatch.reports, ← told]
      rfl
    events' := by
      rw [Array.toList_appendList, d.filter_not_isDispatching_reports, ← told]
      rfl
    told := by rw [d.filter_not_isFinished_reports, List.flatMap_singleton]
    warned := by
      rw [Dispatch.reports, ← told]
      exact (call w.state.1).filter_isWarning_reported settings d.name }

end Action

/-- Work with the log beside the same work without it. Sequencing respects it. -/
def Congruence.logging (b : Backends σ) (settings : Settings) :
    Congruence .awaited .awaited (σ × List (Dispatch σ)) (σ × List (Dispatch σ)) where
  Rel := Action.LogsBeside b settings
  pure := Action.LogsBeside.pure
  bind := Action.LogsBeside.bind
  wrongType _ _ _ same :=
    ⟨[], [], [], by constructor <;> simp [Action.abort, same, Outcome.warned]⟩
  emit n _ _ same := by
    refine ⟨[], [], [.finished n], ?_⟩
    constructor <;>
      simp [Action.emit, same, Outcome.warned, Event.isDispatching, Event.isFinished,
        Event.isWarning]

theorem Backends.logging_services (b : Backends σ) (settings : Settings) :
    (Congruence.logging b settings).OnServices
      (b.services (settings.logging true)).stamped
      (b.services (settings.logging false)).stamped where
  insertRecord id key creator :=
    Action.logsBeside_ofCall b settings (.inl (.insertRecord id key creator))
      (fun s => (b.metadata.put ⟨id, key, creator⟩ s).map fun _ =>
        some (⟨id, key, creator⟩ : MetadataRecord)) fun _ => Call.reported_map ..
  getRecord id :=
    Action.logsBeside_ofCall b settings (.inl (.getRecord id)) (b.metadata.get id)
      fun _ => (Call.reported_map ..).symm
  generateKey id :=
    Action.logsBeside_ofCall b settings (.inr (.generateKey id))
      (fun s => .immediate (.ok (some (BlobKey.derive id))) [] s) fun _ => rfl
  writeContent key content :=
    Action.logsBeside_ofCall b settings (.inr (.writeContent key content))
      (fun s => (b.blobs.put key content s).map some) fun _ => Call.reported_map ..
  readContent key :=
    Action.logsBeside_ofCall b settings (.inr (.readContent key))
      (fun s => (b.blobs.get key s).map some)
      fun _ => (Call.reported_map ..).trans (Call.reported_map ..).symm

/-! ## What the backends are asked -/

def World.operations (w : World (σ × List (Dispatch σ))) : World (σ × List PhotoOp) :=
  ⟨(w.state.1, w.state.2.map Dispatch.op), w.events⟩

/-- An action that writes down dispatches, and one that does the same and writes down operations
alone. -/
def Congruence.forgetting (C : Context) (σ : Type) :
    Congruence C C (σ × List (Dispatch σ)) (σ × List PhotoOp) where
  Rel x y := ∀ w, y.run w.operations = ((x.run w).1, (x.run w).2.operations)
  pure a w := rfl
  bind {_ _ x y f g} hxy hfg w := by
    rcases hx : x.run w with ⟨s | r, w₁⟩
    · rw [Action.run_bind_error hx, Action.run_bind_error (by rw [hxy, hx])]
    · rw [Action.run_bind_ok hx, Action.run_bind_ok (by rw [hxy, hx]), hfg r.value w₁]
  wrongType _ _ := rfl
  emit n w := rfl

theorem Action.forgetting_stamped (op : PhotoOp) (x : Action C σ α) :
    (Congruence.forgetting C σ).Rel (x.stamped op) (x.recorded op) := by
  intro w
  simp only [stamped, recorded, World.operations, World.withLog, List.map_append]
  rfl

theorem Services.forgetting_stamped (s : Services C σ) :
    (Congruence.forgetting C σ).OnServices s.stamped s.recorded where
  insertRecord _ _ _ := Action.forgetting_stamped _ _
  getRecord _ := Action.forgetting_stamped _ _
  generateKey _ := Action.forgetting_stamped _ _
  writeContent _ _ := Action.forgetting_stamped _ _
  readContent _ := Action.forgetting_stamped _ _

/-! ## What the log shows -/

/-- How the log shows, where the same work has been carried out with it and without it, by what the
work with the log reports from the start on. Each operation starts once, in order, keys included,
and without the log nothing is left out but these starts. But for the completion, what is reported
is, operation by operation, its start and then what is reported of its call, and the failure with
which the work ends is the one warning. -/
structure Backends.LogShows (b : Backends σ) (settings : Settings) (start : Array Event)
    (more : List Event) (loud quiet : Outcome .awaited α × World (σ × List (Dispatch σ))) :
    Prop where
  same : quiet.1 = loud.1 ∧ quiet.2.state.1 = loud.2.state.1
  handed : quiet.2.state.2.map Dispatch.found = loud.2.state.2.map Dispatch.found
  reported : loud.2.events.toList = start.toList ++ more
  unlogged : quiet.2.events.toList = start.toList ++ more.filter (!·.isDispatching)
  starts : more.filter Event.isDispatching =
    loud.2.state.2.map fun d => .dispatching d.name
  told : more.filter (!·.isFinished) = loud.2.state.2.flatMap (·.reports b settings)
  warned : more.filter Event.isWarning = loud.1.warned ∧
    (more.filter (!·.isDispatching)).filter Event.isWarning = quiet.1.warned

/-- What is asked of the backends is the same. -/
theorem Backends.LogShows.asked {b : Backends σ} {settings : Settings} {start : Array Event}
    {more : List Event} {loud quiet : Outcome .awaited α × World (σ × List (Dispatch σ))}
    (shows : b.LogShows settings start more loud quiet) :
    quiet.2.operations.asked.state = loud.2.operations.asked.state := by
  have ops : quiet.2.state.2.map Dispatch.op = loud.2.state.2.map Dispatch.op := by
    have found := congrArg (List.map Prod.fst) shows.handed
    rw [List.map_map, List.map_map] at found
    exact found
  simp only [World.operations, World.asked, ops, shows.same.2]

theorem Action.LogsBeside.logShows {b : Backends σ} {settings : Settings}
    {x y : Action .awaited (σ × List (Dispatch σ)) α} (h : LogsBeside b settings x y)
    (w : World σ) :
    ∃ more, b.LogShows settings w.events more (x.run (w.withLog [])) (y.run (w.withLog [])) := by
  obtain ⟨ds, ds', more, beside⟩ := h (w.withLog []) (w.withLog []) rfl
  obtain rfl : (x.run (w.withLog [])).2.state.2 = ds := beside.handed
  obtain rfl : (y.run (w.withLog [])).2.state.2 = ds' := beside.handed'
  refine ⟨more, ⟨beside.outcome, beside.state⟩, beside.found, beside.events, beside.events', ?_,
    beside.told, beside.warned, ?_⟩
  · have early : ∀ e : Event, (e.isDispatching && !e.isFinished) = e.isDispatching := by
      rintro (_ | _ | _ | _ | _) <;> rfl
    have filtered := congrArg (List.filter Event.isDispatching) beside.told
    simp only [List.filter_filter, early, List.filter_flatMap,
      Dispatch.filter_isDispatching_reports] at filtered
    rw [filtered]
    exact List.map_eq_flatMap.symm
  · have other : ∀ e : Event, (e.isWarning && !e.isDispatching) = e.isWarning := by
      rintro (_ | _ | _ | _ | _) <;> rfl
    simp only [List.filter_filter, other]
    rw [beside.warned, beside.outcome]

/-- From the world on, work that is given on any services is carried out with the log and without
it, and what it hands over is written down. What is written down is what the work does. The
backends are asked what the operations that are handed over ask, in their order, with the log and
without it. -/
def Backends.LogsOnly (b : Backends σ) (settings : Settings) (w : World σ)
    (work : {C : Context} → {τ : Type} → Services C τ → Action C τ α) : Prop :=
  let run (logs : Bool) := (work (b.services (settings.logging logs)).stamped).run (w.withLog [])
  let asked (logs : Bool) :=
    (work (b.noting.services (settings.logging logs))).run (w.withLog [])
  (∃ more, b.LogShows settings w.events more (run true) (run false)) ∧
    (asked false).2.state = (asked true).2.state ∧
    ∀ logs, (work (b.services (settings.logging logs))).run w =
        ((run logs).1, (run logs).2.withoutLog) ∧
      asked logs = ((run logs).1, (run logs).2.operations.asked)

namespace Services.Uniform

variable {work : {C : Context} → {τ : Type} → Services C τ → Action C τ α}

/-- The backends are asked what the operations that work hands over ask. -/
theorem run_noting (uniform : Uniform work) (b : Backends σ) (settings : Settings) (w : World σ) :
    let run := (work (b.services settings).stamped).run (w.withLog [])
    (work (b.noting.services settings)).run (w.withLog []) = (run.1, run.2.operations.asked) := by
  intro run
  have handed : (work (b.services settings).recorded).run (w.withLog []) =
      (run.1, run.2.operations) := uniform _ (b.services settings).forgetting_stamped (w.withLog [])
  have asked := uniform _ (b.asking_services settings) (w.withLog [])
  rw [handed] at asked
  exact asked

theorem logsOnly (uniform : Uniform work) (b : Backends σ) (settings : Settings) (w : World σ) :
    b.LogsOnly settings w work := by
  have logged : Action.LogsBeside b settings _ _ := uniform _ (b.logging_services settings)
  have noted (logs : Bool) := uniform.run_noting b (settings.logging logs) w
  obtain ⟨more, shows⟩ := logged.logShows w
  refine ⟨⟨more, shows⟩, ?_, fun logs => ⟨?_, noted logs⟩⟩
  · simp only [noted]
    exact shows.asked
  · exact Action.run_eq_withoutLog (uniform _ (b.services (settings.logging logs)).rel_stamped) w

end Services.Uniform

/-- The log of dispatches is exact and shows in nothing else: for programs over the operations of
any union and for procedures, of every length and shape, on backends that answer any call in any
way, take any time for it and report any part of it before it is given up, with every time limit and
from every state. -/
theorem Backends.logs_only [CarriesAnswers V] (b : Backends σ) (settings : Settings)
    (w : World σ) :
    (∀ (α : Type) [Carries V α] (u : OpUnion) (p : Program u.Op V α),
        b.LogsOnly settings w fun s => p.execute (u.handler s)) ∧
      ∀ (α : Type) (d : Procedure α), b.LogsOnly settings w fun s => d.on s := by
  constructor
  · intro α _ u p
    exact Services.Uniform.logsOnly (p.uniform u) b settings w
  · intro α d
    exact Services.Uniform.logsOnly d.uniform b settings w

end PhotoArchive
