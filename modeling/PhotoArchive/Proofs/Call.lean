import PhotoArchive.Interpreter.Backed

/-!
# Operations on backends as calls

An operation on backends that is not given up comes to what its call is answered, and leaves the
state that the call leaves. No operation is given up where there is no limit, and none that takes
no time. In any case what an operation comes to, leaves and reports is settled by its call.
-/
namespace PhotoArchive

variable {C : Context} {σ α β γ : Type}

/-- No limit is exceeded where no time is taken, whatever the settings. -/
theorem Settings.exceeded?_zero (settings : Settings) : settings.exceeded? .zero = none := by
  rw [exceeded?, Option.filter_eq_none_iff]
  intro limit _ beyond
  exact Nat.not_lt_zero _ (of_decide_eq_true beyond)

theorem Settings.exceeded?_of_unlimited {settings : Settings} (unlimited : settings.limit = none)
    (delay : Duration) : settings.exceeded? delay = none := by
  rw [exceeded?, unlimited]
  rfl

/-- A limit that is exceeded is shorter than the time that is taken. -/
theorem Settings.lt_of_exceeded? {settings : Settings} {delay limit : Duration}
    (exceeded : settings.exceeded? delay = some limit) : limit < delay :=
  of_decide_eq_true (Option.filter_eq_some_iff.mp exceeded).2

namespace Action

theorem run_ofCall (settings : Settings) (op : OperationName)
    {call : σ → Call σ (Option α)} {w : World σ}
    (inTime : settings.exceeded? (call w.state).delay = none) :
    ((ofCall settings op call).run w).1 = (call w.state).outcome op ∧
      ((ofCall settings op call).run w).2.state = (call w.state).answered := by
  simp [ofCall, inTime]

/-- An operation comes to a value only by the answer to its call. -/
theorem answer_of_run_ofCall {settings : Settings} {op : OperationName}
    {call : σ → Call σ (Option α)} {w w₁ : World σ} {r : Noted .awaited α}
    (h : (ofCall settings op call).run w = (.ok r, w₁)) :
    (call w.state).answer = .ok (some r.value) ∧ w₁.state = (call w.state).answered := by
  cases exceeded : settings.exceeded? (call w.state).delay with
  | some limit =>
    simp only [ofCall, exceeded] at h
    cases h
  | none =>
    obtain ⟨outcome, state⟩ := run_ofCall settings op exceeded
    rw [h] at outcome state
    refine ⟨?_, state⟩
    rw [Call.outcome] at outcome
    rcases answer : (call w.state).answer with e | _ | a
    · rw [answer] at outcome
      cases outcome
    · rw [answer] at outcome
      cases outcome
    · rw [answer] at outcome
      cases outcome
      rfl

/-- An operation without a value is given up before its call is answered, or its call is answered
with an error or with nothing. -/
theorem answer_of_run_ofCall_error {settings : Settings} {op : OperationName}
    {call : σ → Call σ (Option α)} {w w₁ : World σ} {halt : Halt}
    (h : (ofCall settings op call).run w = (.error halt, w₁)) :
    (∃ limit < (call w.state).delay, w₁.state = ((call w.state).sofar limit).state) ∨
      (w₁.state = (call w.state).answered ∧ ∀ a, (call w.state).answer ≠ .ok (some a)) := by
  cases exceeded : settings.exceeded? (call w.state).delay with
  | some limit =>
    simp only [ofCall, exceeded] at h
    cases h
    exact .inl ⟨limit, Settings.lt_of_exceeded? exceeded, rfl⟩
  | none =>
    obtain ⟨outcome, state⟩ := run_ofCall settings op exceeded
    rw [h] at outcome state
    refine .inr ⟨state, fun a answer => ?_⟩
    rw [Call.outcome, answer] at outcome
    cases outcome

theorem run_map (x : Action C σ α) (f : α → β) (w : World σ) :
    (f <$> x).run w = ((x.run w).1.map fun r => ⟨f r.value, r.note⟩, (x.run w).2) := by
  match h : x.run w with
  | (.error s, w₁) => exact run_map_error h f
  | (.ok r, w₁) => exact run_map_ok h f

/-- Another value in place of the answer is another answer to the call. -/
theorem map_ofCall (settings : Settings) (op : OperationName) (call : σ → Call σ (Option α))
    (f : α → β) :
    f <$> ofCall settings op call =
      ofCall settings op fun s => (call s).map (Option.map f) := by
  ext w : 2
  rw [run_map]
  simp only [ofCall, Call.map]
  cases settings.exceeded? (call w.state).delay with
  | some limit => rfl
  | none =>
    simp only [Call.outcome, Call.events]
    rcases (call w.state).answer with e | _ | a <;> rfl

theorem map_ofCall_map (settings : Settings) (op : OperationName) (call : σ → Call σ γ)
    (g : γ → Option α) (f : α → β) :
    f <$> ofCall settings op (fun s => (call s).map g) =
      ofCall settings op fun s => (call s).map fun c => (g c).map f := by
  rw [map_ofCall]
  congr 1
  funext s
  simp only [Call.map]
  cases (call s).answer <;> rfl

end Action

/-! ## What is settled by a call -/

namespace Call

variable (settings : Settings) (op : OperationName)

/-- What an operation comes to by its call. -/
def conclusion (c : Call σ (Option α)) : Outcome .awaited α :=
  match settings.exceeded? c.delay with
  | some limit => .error (.failed (.timeout op limit))
  | none => c.outcome op

/-- The state that an operation leaves by its call. -/
def left (c : Call σ α) : σ :=
  match settings.exceeded? c.delay with
  | some limit => (c.sofar limit).state
  | none => c.answered

/-- What is reported of an operation by its call. -/
def reported (c : Call σ α) : List Event :=
  match settings.exceeded? c.delay with
  | some limit => (c.sofar limit).events op limit
  | none => c.events op

/-- Only what the store takes in and a failure of the operation are reported of a call. -/
theorem mem_reported {c : Call σ α} {e : Event} (mem : e ∈ c.reported settings op) :
    (∃ event, e = .stored event) ∨ (∃ limit, e = .timedOut op limit) ∨
      ∃ error, e = .callFailed op error := by
  unfold reported at mem
  split at mem
  · rcases List.mem_append.mp mem with stored | timedOut
    · obtain ⟨event, _, rfl⟩ := List.mem_map.mp stored
      exact .inl ⟨event, rfl⟩
    · exact .inr (.inl ⟨_, List.mem_singleton.mp timedOut⟩)
  · rcases List.mem_append.mp mem with stored | failed
    · obtain ⟨event, _, rfl⟩ := List.mem_map.mp stored
      exact .inl ⟨event, rfl⟩
    · split at failed
      · cases failed
      · exact .inr (.inr ⟨_, List.mem_singleton.mp failed⟩)

/-- With another value in its answer, the same is reported of a call. -/
theorem reported_map (f : α → β) (c : Call σ α) :
    (c.map f).reported settings op = c.reported settings op := by
  simp only [reported, map]
  cases settings.exceeded? c.delay with
  | some limit => rfl
  | none =>
    simp only [events]
    cases c.answer <;> rfl

end Call

/-- But for the report of its start, an operation is settled by its call. -/
theorem Action.run_ofCall_eq (settings : Settings) (op : OperationName)
    (call : σ → Call σ (Option α)) (w : World σ) :
    (ofCall settings op call).run w =
      ((call w.state).conclusion settings op, ⟨(call w.state).left settings,
        w.events ++ (settings.announce op ++ (call w.state).reported settings op)⟩) := by
  simp only [ofCall, Call.conclusion, Call.left, Call.reported]
  cases settings.exceeded? (call w.state).delay with
  | some limit => simp [← Array.toList_inj]
  | none => simp [← Array.toList_inj]

end PhotoArchive
