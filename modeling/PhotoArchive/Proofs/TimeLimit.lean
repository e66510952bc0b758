import PhotoArchive.Proofs.Call
import PhotoArchive.Proofs.Procedure

/-!
# The time limit

The limit is on each call and not on the work. Work on backends with a limit is compared with the
same work without one, over everything that it hands over on the way, each operation with the world
in which it is handed over. As long as no call takes more than the limit, nothing differs, however
long the calls take together. At the first call that takes more, the work with the limit ends: the
call is given up as far as it has come, a warning is reported after all that the call has reported
by then, and nothing that would come after is carried out.
-/
namespace PhotoArchive

variable {C : Context} {σ α β V : Type}

/-! ## What a limit allows -/

namespace Settings

/-- A call that takes so long is within the limit, if there is one. Zero is no limit. -/
def Allows (settings : Settings) (delay : Duration) : Prop :=
  ∀ ms, settings.timeoutMillis = some ms → ms ≠ 0 → delay ≤ .ofMillis ms.toNat

def unlimited (settings : Settings) : Settings :=
  { settings with timeoutMillis := none }

theorem limit_eq_some_iff {settings : Settings} {limit : Duration} :
    settings.limit = some limit ↔
      ∃ ms, settings.timeoutMillis = some ms ∧ ms ≠ 0 ∧ limit = .ofMillis ms.toNat := by
  cases set : settings.timeoutMillis with
  | none => simp [Settings.limit, set]
  | some ms =>
    by_cases zero : ms = 0
    · simp [Settings.limit, set, zero]
    · simp [Settings.limit, set, zero, eq_comm]

theorem exceeded?_of_allows {settings : Settings} {delay : Duration}
    (allows : settings.Allows delay) : settings.exceeded? delay = none := by
  rw [exceeded?, Option.filter_eq_none_iff]
  intro limit isLimit beyond
  obtain ⟨ms, set, notZero, rfl⟩ := limit_eq_some_iff.mp isLimit
  have within : delay.nanos ≤ (Duration.ofMillis ms.toNat).nanos := allows ms set notZero
  have longer : (Duration.ofMillis ms.toNat).nanos < delay.nanos := of_decide_eq_true beyond
  omega

/-- What is not allowed exceeds the milliseconds that are set. -/
theorem exceeded?_of_not_allows {settings : Settings} {delay : Duration}
    (longer : ¬ settings.Allows delay) :
    ∃ ms, settings.timeoutMillis = some ms ∧
      settings.exceeded? delay = some (.ofMillis ms.toNat) := by
  simp only [Allows, Classical.not_forall] at longer
  obtain ⟨ms, set, notZero, beyond⟩ := longer
  refine ⟨ms, set, ?_⟩
  rw [exceeded?, limit_eq_some_iff.mpr ⟨ms, set, notZero, rfl⟩, Option.filter_eq_some_iff]
  refine ⟨rfl, decide_eq_true ?_⟩
  exact Nat.lt_of_not_le beyond

theorem allows_of_disabled {settings : Settings}
    (disabled : settings.timeoutMillis = none ∨ settings.timeoutMillis = some 0)
    (delay : Duration) : settings.Allows delay := by
  intro ms set notZero
  rcases disabled with none | zero
  · rw [none] at set
    cases set
  · rw [zero] at set
    cases set
    exact absurd rfl notZero

theorem allows_zero (settings : Settings) : settings.Allows .zero :=
  fun _ _ _ => Nat.zero_le _

end Settings

/-! ## Warnings -/

def Event.isWarning : Event → Bool
  | .timedOut _ _ => true
  | .callFailed _ _ => true
  | _ => false

def warnings (events : Array Event) : Nat :=
  events.countP Event.isWarning

theorem warnings_push (events : Array Event) (event : Event) :
    warnings (events.push event) = warnings events + if event.isWarning then 1 else 0 :=
  Array.countP_push

theorem warnings_appendList (events : Array Event) (more : List Event) :
    warnings (events.appendList more) = warnings events + more.countP Event.isWarning := by
  rw [Array.appendList_eq_append, warnings, ← Array.countP_toList, Array.toList_appendList,
    List.countP_append, Array.countP_toList]
  rfl

@[simp] theorem Settings.countP_announce (settings : Settings) (op : OperationName) :
    (settings.announce op).countP Event.isWarning = 0 := by
  unfold announce
  split <;> rfl

/-- Of a call that is answered with a value, nothing is a warning. -/
theorem Call.countP_events {op : OperationName} {c : Call σ α} {a : α} (answer : c.answer = .ok a) :
    (c.events op).countP Event.isWarning = 0 := by
  simp [Call.events, answer, List.countP_map, Function.comp_def, Event.isWarning]

/-- Of a call that is given up, this is the one warning. -/
@[simp] theorem Progress.countP_events (op : OperationName) (limit : Duration) (p : Progress σ) :
    (p.events op limit).countP Event.isWarning = 1 := by
  simp [events, List.countP_map, Function.comp_def, Event.isWarning]

/-! ## Operations and the worlds in which they are handed over -/

def Backends.asked (b : Backends σ) : PhotoOp → σ → Call σ Unit
  | .inl (.insertRecord id key creator), s => b.metadata.put ⟨id, key, creator⟩ s
  | .inl (.getRecord id), s => (b.metadata.get id s).map fun _ => ()
  | .inr (.generateKey _), s => .immediate (.ok ()) [] s
  | .inr (.writeContent key content), s => b.blobs.put key content s
  | .inr (.readContent key), s => (b.blobs.get key s).map fun _ => ()

/-- An operation that is handed over, and the world in which it is. -/
structure Dispatch (σ : Type) where
  op : PhotoOp
  world : World σ

namespace Dispatch

def name (d : Dispatch σ) : OperationName :=
  PhotoOp.name d.op

def delay (b : Backends σ) (d : Dispatch σ) : Duration :=
  (b.asked d.op d.world.state).delay

/-- How far the call has come after some time. -/
def sofar (b : Backends σ) (t : Duration) (d : Dispatch σ) : Progress σ :=
  (b.asked d.op d.world.state).sofar t

/-- The world in which the call has been given up: what it has done by then is done, and what it has
reported by then stands between the start of the operation and the warning. -/
def givenUp (b : Backends σ) (settings : Settings) (limit : Duration) (d : Dispatch σ) :
    World σ :=
  ⟨(d.sofar b limit).state, (d.world.events.appendList (settings.announce d.name)).appendList
    ((d.sofar b limit).events d.name limit)⟩

theorem warnings_givenUp (b : Backends σ) (settings : Settings) (limit : Duration)
    (d : Dispatch σ) :
    warnings (d.givenUp b settings limit).events = warnings d.world.events + 1 := by
  simp only [givenUp, warnings_appendList, Settings.countP_announce, Progress.countP_events]

/-- No key takes longer than a limit allows. -/
theorem allows_of_generateKey {d : Dispatch σ} (key : d.name = .generateKey) (b : Backends σ)
    (settings : Settings) : settings.Allows (d.delay b) := by
  obtain ⟨(⟨_, _, _⟩ | _) | (_ | ⟨_, _⟩ | _), w⟩ := d
  · cases key
  · cases key
  · exact settings.allows_zero
  · cases key
  · cases key

end Dispatch

namespace Action

/-- The carrying out of an operation, which is written down with the world that it finds. -/
def stamped (op : PhotoOp) (x : Action C σ α) : Action C (σ × List (Dispatch σ)) α :=
  ⟨fun w => (x.recorded (⟨op, ⟨w.state.1, w.events⟩⟩ : Dispatch σ)).run w⟩

theorem rel_stamped (op : PhotoOp) (x : Action C σ α) :
    (Congruence.recording C σ (Dispatch σ)).Rel (x.stamped op) x :=
  fun w log => ⟨[⟨op, w⟩], run_recorded _ x w log⟩

end Action

/-- The services, with each operation that they carry out written down with the world that it
finds. -/
def Services.stamped (s : Services C σ) : Services C (σ × List (Dispatch σ)) where
  metadata := {
    insertRecord := fun id key creator =>
      (s.metadata.insertRecord id key creator).stamped (.inl (.insertRecord id key creator))
    getRecord := fun id => (s.metadata.getRecord id).stamped (.inl (.getRecord id)) }
  blobs := {
    generateKey := fun id => (s.blobs.generateKey id).stamped (.inr (.generateKey id))
    writeContent := fun key content =>
      (s.blobs.writeContent key content).stamped (.inr (.writeContent key content))
    readContent := fun key => (s.blobs.readContent key).stamped (.inr (.readContent key)) }

theorem Services.rel_stamped (s : Services C σ) :
    (Congruence.recording C σ (Dispatch σ)).OnServices s.stamped s where
  insertRecord _ _ _ := Action.rel_stamped _ _
  getRecord _ := Action.rel_stamped _ _
  generateKey _ := Action.rel_stamped _ _
  writeContent _ _ := Action.rel_stamped _ _
  readContent _ := Action.rel_stamped _ _

/-! ## Work without a limit -/

/-- The dispatches that work hands over when it has all the time, and that it warns of nothing
before its end. -/
structure Action.Unhurried (y : Action .awaited (σ × List (Dispatch σ)) α)
    (w : World (σ × List (Dispatch σ))) (ds : List (Dispatch σ)) : Prop where
  log : (y.run w).2.state.2 = w.state.2 ++ ds
  untimed : ∀ op limit, (y.run w).1 ≠ .error (.failed (.timeout op limit))
  kept : w.events.toList <+: (y.run w).2.events.toList
  silent : ∀ r w₁, y.run w = (.ok r, w₁) → warnings w₁.events = warnings w.events
  earlier : ∀ d ∈ ds, warnings d.world.events = warnings w.events ∧
    d.world.events.toList <+: (y.run w).2.events.toList

namespace Action.Unhurried

variable {y : Action .awaited (σ × List (Dispatch σ)) α}
  {g : α → Action .awaited (σ × List (Dispatch σ)) β} {w w₁ : World (σ × List (Dispatch σ))}
  {ds later : List (Dispatch σ)}

theorem pure (a : α) (w : World (σ × List (Dispatch σ))) :
    (Pure.pure a : Action .awaited _ α).Unhurried w [] where
  log := by simp
  untimed _ _ := nofun
  kept := List.prefix_rfl
  silent _ _ run := by
    cases run
    rfl
  earlier := nofun

theorem bind_error {halt : Halt} (h : y.Unhurried w ds) (hy : y.run w = (.error halt, w₁)) :
    (y >>= g).Unhurried w ds := by
  have run := run_bind_error hy g
  have left : ((y >>= g).run w).2 = (y.run w).2 := by rw [run, hy]
  refine ⟨?_, ?_, ?_, ?_, ?_⟩
  · rw [left]
    exact h.log
  · intro op limit
    rw [run]
    intro same
    cases same
    exact h.untimed op limit (by rw [hy])
  · rw [left]
    exact h.kept
  · intro r w₂ value
    rw [run] at value
    cases value
  · rw [left]
    exact h.earlier

theorem bind {r : Noted .awaited α} (h : y.Unhurried w ds) (hy : y.run w = (.ok r, w₁))
    (h' : (g r.value).Unhurried w₁ later) : (y >>= g).Unhurried w (ds ++ later) := by
  have run : (y >>= g).run w = (g r.value).run w₁ := by
    rw [run_bind_ok hy, Outcome.after_empty]
  have log := h.log
  have kept := h.kept
  rw [hy] at log kept
  have silent := h.silent r w₁ hy
  refine ⟨?_, ?_, ?_, ?_, ?_⟩
  · rw [run, h'.log, log, List.append_assoc]
  · rw [run]
    exact h'.untimed
  · rw [run]
    exact kept.trans h'.kept
  · intro r' w₂ value
    rw [run] at value
    rw [h'.silent r' w₂ value, silent]
  · intro d mem
    rw [run]
    rcases List.mem_append.mp mem with before | after
    · obtain ⟨warned, reported⟩ := h.earlier d before
      rw [hy] at reported
      exact ⟨warned, reported.trans h'.kept⟩
    · obtain ⟨warned, reported⟩ := h'.earlier d after
      exact ⟨warned.trans silent, reported⟩

end Action.Unhurried

/-! ## Work with a limit -/

/-- How work with a limit goes, given what the same work hands over and how it goes without one,
from a world in which some dispatches are written down already. The first call that takes longer
than the limit is given up as far as it has come, and the work ends there. -/
inductive Backends.Limited (b : Backends σ) (settings : Settings) (log ds : List (Dispatch σ))
    (free : Outcome .awaited α × World (σ × List (Dispatch σ))) :
    Outcome .awaited α × World (σ × List (Dispatch σ)) → Prop where
  | inTime (all : ∀ d ∈ ds, settings.Allows (d.delay b)) : Limited b settings log ds free free
  | late {before d after ms} (handed : ds = before ++ d :: after)
    (inTime : ∀ e ∈ before, settings.Allows (e.delay b)) (longer : ¬ settings.Allows (d.delay b))
    (set : settings.timeoutMillis = some ms) :
    Limited b settings log ds free
      (.error (.failed (.timeout d.name (.ofMillis ms.toNat))),
        (d.givenUp b settings (.ofMillis ms.toNat)).withLog (log ++ (before ++ [d])))

namespace Action

/-- Work with a limit beside the same work without one. -/
def Limited (b : Backends σ) (settings : Settings)
    (x y : Action .awaited (σ × List (Dispatch σ)) α) : Prop :=
  ∀ w, ∃ ds, y.Unhurried w ds ∧ b.Limited settings w.state.2 ds (y.run w) (x.run w)

namespace Limited

variable {b : Backends σ} {settings : Settings}

theorem pure (a : α) : Limited b settings (Pure.pure a) (Pure.pure a) :=
  fun w => ⟨[], .pure a w, .inTime nofun⟩

/-- What comes after a call that is given up is not carried out, and what comes after calls in time
is as if there were no limit so far. -/
theorem bind {x y : Action .awaited (σ × List (Dispatch σ)) α}
    {f g : α → Action .awaited (σ × List (Dispatch σ)) β} (first : Limited b settings x y)
    (next : ∀ a, Limited b settings (f a) (g a)) : Limited b settings (x >>= f) (y >>= g) := by
  intro w
  obtain ⟨ds, unhurried, goes⟩ := first w
  match hy : y.run w with
  | (.error halt, w₁) =>
    refine ⟨ds, unhurried.bind_error hy, ?_⟩
    rw [run_bind_error hy]
    generalize hx : x.run w = run at goes
    cases goes with
    | inTime all =>
      rw [run_bind_error (hx.trans hy)]
      exact .inTime all
    | late handed inTime longer set =>
      rw [run_bind_error hx]
      exact .late handed inTime longer set
  | (.ok r, w₁) =>
    obtain ⟨later, unhurried', goes'⟩ := next r.value w₁
    refine ⟨ds ++ later, unhurried.bind hy unhurried', ?_⟩
    have log : w₁.state.2 = w.state.2 ++ ds := by simpa [hy] using unhurried.log
    rw [run_bind_ok hy, Outcome.after_empty]
    generalize hx : x.run w = run at goes
    cases goes with
    | inTime all =>
      rw [run_bind_ok (hx.trans hy), Outcome.after_empty]
      generalize (f r.value).run w₁ = run' at goes'
      cases goes' with
      | inTime all' =>
        refine .inTime fun d mem => ?_
        rcases List.mem_append.mp mem with before | after
        · exact all d before
        · exact all' d after
      | @late before d after ms handed inTime longer set =>
        have split : ds ++ later = (ds ++ before) ++ d :: after := by simp [handed]
        have earlier : ∀ e ∈ ds ++ before, settings.Allows (e.delay b) := by
          intro e mem
          rcases List.mem_append.mp mem with first | second
          · exact all e first
          · exact inTime e second
        rw [log, List.append_assoc, ← List.append_assoc ds]
        exact .late split earlier longer set
    | @late before d after ms handed inTime longer set =>
      rw [run_bind_error hx]
      exact .late (by rw [handed, List.append_assoc, List.cons_append]) inTime longer set

end Limited

/-- An operation that is written down and whose call is within the limit. -/
theorem run_stamped_of_inTime {settings : Settings} (op : PhotoOp)
    {call : σ → Call σ (Option α)} {w : World (σ × List (Dispatch σ))}
    (inTime : settings.exceeded? (call w.state.1).delay = none) :
    ((ofCall settings (PhotoOp.name op) call).stamped op).run w =
      ((call w.state.1).outcome (PhotoOp.name op),
        ⟨((call w.state.1).answered, w.state.2 ++ [⟨op, ⟨w.state.1, w.events⟩⟩]),
          (w.events.appendList (settings.announce (PhotoOp.name op))).appendList
            ((call w.state.1).events (PhotoOp.name op))⟩) := by
  simp only [stamped, recorded, ofCall, inTime]
  rfl

/-- Without a limit, an operation warns of nothing unless its call is answered with an error. -/
theorem unhurried_ofCall (settings : Settings) (op : PhotoOp) (call : σ → Call σ (Option α))
    (w : World (σ × List (Dispatch σ))) :
    ((ofCall settings.unlimited (PhotoOp.name op) call).stamped op).Unhurried w
      [⟨op, ⟨w.state.1, w.events⟩⟩] := by
  have noLimit : settings.unlimited.exceeded? (call w.state.1).delay = none :=
    Settings.exceeded?_of_unlimited rfl _
  have run := run_stamped_of_inTime op noLimit
  refine ⟨?_, ?_, ?_, ?_, ?_⟩
  · rw [run]
  · intro op' limit
    rw [run]
    rcases answer : (call w.state.1).answer with e | _ | a <;> simp [Call.outcome, answer]
  · rw [run]
    simp
  · intro r w₁ value
    rw [run] at value
    obtain ⟨outcome, rfl⟩ := Prod.mk.inj value
    rw [warnings_appendList, warnings_appendList, Settings.countP_announce]
    rcases answer : (call w.state.1).answer with e | a
    · simp [Call.outcome, answer] at outcome
    · rw [Call.countP_events answer]
      rfl
  · intro d mem
    obtain rfl := List.mem_singleton.mp mem
    refine ⟨rfl, ?_⟩
    rw [run]
    simp

/-- One operation, carried out with a limit and without. -/
theorem limited_ofCall (b : Backends σ) (settings : Settings) (op : PhotoOp)
    (call : σ → Call σ (Option α)) (delay : ∀ s, (call s).delay = (b.asked op s).delay)
    (sofar : ∀ s, (call s).sofar = (b.asked op s).sofar) :
    Limited b settings ((ofCall settings (PhotoOp.name op) call).stamped op)
      ((ofCall settings.unlimited (PhotoOp.name op) call).stamped op) := by
  intro w
  let d : Dispatch σ := ⟨op, ⟨w.state.1, w.events⟩⟩
  refine ⟨[d], unhurried_ofCall settings op call w, ?_⟩
  by_cases allows : settings.Allows (d.delay b)
  · have inTime : settings.exceeded? (call w.state.1).delay = none := by
      refine Settings.exceeded?_of_allows ?_
      rw [delay]
      exact allows
    have noLimit : settings.unlimited.exceeded? (call w.state.1).delay = none :=
      Settings.exceeded?_of_unlimited rfl _
    rw [run_stamped_of_inTime op inTime, run_stamped_of_inTime op noLimit]
    exact .inTime fun e mem => List.mem_singleton.mp mem ▸ allows
  · obtain ⟨ms, set, exceeded⟩ := Settings.exceeded?_of_not_allows allows
    have tooLong : settings.exceeded? (call w.state.1).delay = some (.ofMillis ms.toNat) := by
      rw [delay]
      exact exceeded
    have cut : ((ofCall settings (PhotoOp.name op) call).stamped op).run w =
        (.error (.failed (.timeout d.name (.ofMillis ms.toNat))),
          (d.givenUp b settings (.ofMillis ms.toNat)).withLog (w.state.2 ++ ([] ++ [d]))) := by
      simp only [stamped, recorded, ofCall, tooLong]
      rw [sofar]
      rfl
    rw [cut]
    exact .late rfl (List.forall_mem_nil _) allows set

end Action

/-- Work with a limit beside the same work without one. Sequencing respects it. -/
def Congruence.limiting (b : Backends σ) (settings : Settings) :
    Congruence .awaited .awaited (σ × List (Dispatch σ)) (σ × List (Dispatch σ)) where
  Rel := Action.Limited b settings
  pure := Action.Limited.pure
  bind := Action.Limited.bind
  wrongType _ w :=
    ⟨[], ⟨by simp [Action.abort], nofun, List.prefix_rfl, nofun, nofun⟩, .inTime nofun⟩
  emit n w := by
    refine ⟨[], ⟨by simp [Action.emit], nofun, by simp [Action.emit], ?_, nofun⟩, .inTime nofun⟩
    intro r w₁ run
    obtain ⟨_, rfl⟩ := Prod.mk.inj run
    exact warnings_push _ _

theorem Backends.limited_services (b : Backends σ) (settings : Settings) :
    (Congruence.limiting b settings).OnServices (b.services settings).stamped
      (b.services settings.unlimited).stamped where
  insertRecord id key creator :=
    Action.limited_ofCall b settings (.inl (.insertRecord id key creator))
      (fun s => (b.metadata.put ⟨id, key, creator⟩ s).map fun _ =>
        some (⟨id, key, creator⟩ : MetadataRecord))
      (fun _ => rfl) fun _ => rfl
  getRecord id :=
    Action.limited_ofCall b settings (.inl (.getRecord id)) (b.metadata.get id) (fun _ => rfl)
      fun _ => rfl
  generateKey id :=
    Action.limited_ofCall b settings (.inr (.generateKey id))
      (fun s => .immediate (.ok (some (BlobKey.derive id))) [] s) (fun _ => rfl) fun _ => rfl
  writeContent key content :=
    Action.limited_ofCall b settings (.inr (.writeContent key content))
      (fun s => (b.blobs.put key content s).map some) (fun _ => rfl) fun _ => rfl
  readContent key :=
    Action.limited_ofCall b settings (.inr (.readContent key))
      (fun s => (b.blobs.get key s).map some) (fun _ => rfl) fun _ => rfl

/-! ## What the limit does to any work -/

/-- The world without what is written down in it. -/
def World.withoutLog {O : Type} (w : World (σ × List O)) : World σ :=
  ⟨w.state.1, w.events⟩

/-- How a limit shows, where work has been carried out with it and without it. Up to the first call
that takes longer than the limit there is no difference, and none at all if no call does or if the
limit is none or zero. That a call is given up is the one warning, and keys are never timed out. -/
structure Backends.LimitShows (b : Backends σ) (settings : Settings) (start : Array Event)
    (held free : Outcome .awaited α × World (σ × List (Dispatch σ))) : Prop where
  goes : b.Limited settings [] free.2.state.2 free held
  disabled : settings.timeoutMillis = none ∨ settings.timeoutMillis = some 0 → held = free
  reported : ∀ d ∈ free.2.state.2, d.world.events.toList <+: free.2.events.toList
  warned : ∀ op limit, held.1 = .error (.failed (.timeout op limit)) →
    warnings held.2.events = warnings start + 1
  untimed : ∀ op limit, free.1 ≠ .error (.failed (.timeout op limit))
  keys : ∀ limit, held.1 ≠ .error (.failed (.timeout .generateKey limit))

theorem Action.Limited.limitShows {b : Backends σ} {settings : Settings}
    {x y : Action .awaited (σ × List (Dispatch σ)) α} (h : Limited b settings x y)
    (w : World σ) :
    b.LimitShows settings w.events (x.run (w.withLog [])) (y.run (w.withLog [])) := by
  obtain ⟨ds, unhurried, goes⟩ := h (w.withLog [])
  obtain rfl : (y.run (w.withLog [])).2.state.2 = ds := unhurried.log
  have ends : ∀ op limit, (x.run (w.withLog [])).1 = .error (.failed (.timeout op limit)) →
      op ≠ .generateKey ∧
        warnings (x.run (w.withLog [])).2.events = warnings w.events + 1 := by
    intro op limit timeout
    generalize x.run (w.withLog []) = held at goes timeout
    cases goes with
    | inTime all => exact absurd timeout (unhurried.untimed op limit)
    | @late before d after ms handed inTime longer set =>
      cases timeout
      have mem : d ∈ (y.run (w.withLog [])).2.state.2 := by
        rw [handed]
        exact List.mem_append_right _ List.mem_cons_self
      constructor
      · intro key
        exact longer (Dispatch.allows_of_generateKey key b settings)
      · calc warnings (d.givenUp b settings (.ofMillis ms.toNat)).events
            = warnings d.world.events + 1 := d.warnings_givenUp b settings _
          _ = warnings w.events + 1 := by rw [(unhurried.earlier d mem).1]; rfl
  refine ⟨goes, ?_, ?_, ?_, unhurried.untimed, ?_⟩
  · intro disabled
    generalize x.run (w.withLog []) = held at goes
    cases goes with
    | inTime all => rfl
    | late handed inTime longer set => exact absurd (Settings.allows_of_disabled disabled _) longer
  · exact fun d mem => (unhurried.earlier d mem).2
  · exact fun op limit timeout => (ends op limit timeout).2
  · exact fun limit timeout => (ends _ limit timeout).1 rfl

/-- From the world on, work that is given on any services is carried out with the limit of the
settings and without one, and what it hands over is written down. What is written down is what the
work does. -/
def Backends.LimitsEach (b : Backends σ) (settings : Settings) (w : World σ)
    (work : {C : Context} → {τ : Type} → Services C τ → Action C τ α) : Prop :=
  let held := (work (b.services settings).stamped).run (w.withLog [])
  let free := (work (b.services settings.unlimited).stamped).run (w.withLog [])
  b.LimitShows settings w.events held free ∧
    (work (b.services settings)).run w = (held.1, held.2.withoutLog) ∧
    (work (b.services settings.unlimited)).run w = (free.1, free.2.withoutLog)

theorem Action.run_eq_withoutLog {O : Type} {x : Action C (σ × List O) α} {y : Action C σ α}
    (h : (Congruence.recording C σ O).Rel x y) (w : World σ) :
    y.run w = ((x.run (w.withLog [])).1, (x.run (w.withLog [])).2.withoutLog) := by
  obtain ⟨ops, run⟩ := h w []
  rw [run]
  rfl

theorem Services.Uniform.limitsEach
    {work : {C : Context} → {τ : Type} → Services C τ → Action C τ α} (uniform : Uniform work)
    (b : Backends σ) (settings : Settings) (w : World σ) : b.LimitsEach settings w work := by
  have limited : Action.Limited b settings _ _ := uniform _ (b.limited_services settings)
  refine ⟨limited.limitShows w, ?_, ?_⟩
  · exact Action.run_eq_withoutLog (uniform _ (b.services settings).rel_stamped) w
  · exact Action.run_eq_withoutLog (uniform _ (b.services settings.unlimited).rel_stamped) w

/-- The time limit is on each call and shows in nothing else: for programs over the operations of
any union and for procedures, of every length and shape, on backends that take any time for any
call, do and report any part of it before it is given up, and answer it in any way, with all
settings and from every state. -/
theorem Backends.limits_each [CarriesAnswers V] (b : Backends σ) (settings : Settings)
    (w : World σ) :
    (∀ (α : Type) [Carries V α] (u : OpUnion) (p : Program u.Op V α),
        b.LimitsEach settings w fun s => p.execute (u.handler s)) ∧
      ∀ (α : Type) (d : Procedure α), b.LimitsEach settings w fun s => d.on s := by
  constructor
  · intro α _ u p
    exact Services.Uniform.limitsEach (p.uniform u) b settings w
  · intro α d
    exact Services.Uniform.limitsEach d.uniform b settings w

end PhotoArchive
