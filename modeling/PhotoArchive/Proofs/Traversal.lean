import PhotoArchive.Proofs.Encoding
import PhotoArchive.Proofs.Typing

/-!
# Programs in order

A sequence of programs is a program of its own, put together from the left, with the values so far
handed on from one part to the next. Carried out it does what its programs do one after another:
each starts in the world that the one before it left, the values are collected in order, and the
first program that comes to no value ends the sequence.
-/
namespace PhotoArchive

variable {C : Context} {σ O V α β : Type}

def Outcome.mapValue (f : α → β) : Outcome C α → Outcome C β
  | .ok r => .ok ⟨f r.value, r.note⟩
  | .error s => .error s

/-! ## Actions that add to what is written down -/

namespace Action

/-- The action does the same whatever has been written down before, and adds to that. -/
def Adds (x : Action C (σ × List O) α) : Prop :=
  ∀ w : World σ, ∃ (o : Outcome C α) (w₁ : World σ) (ops : List O),
    ∀ log, x.run (w.withLog log) = (o, w₁.withLog (log ++ ops))

namespace Adds

theorem pure (a : α) : (Pure.pure a : Action C (σ × List O) α).Adds :=
  fun w => ⟨.ok ⟨a, C.empty⟩, w, [], fun log => by rw [List.append_nil]; rfl⟩

theorem abort (reason : Abort) : (Action.abort reason : Action C (σ × List O) α).Adds :=
  fun w => ⟨.error (C.abort reason), w, [], fun log => by rw [List.append_nil]; rfl⟩

theorem recorded (op : O) (x : Action C σ α) : (x.recorded op).Adds :=
  fun w => ⟨(x.run w).1, (x.run w).2, [op], run_recorded op x w⟩

theorem bind {x : Action C (σ × List O) α} {f : α → Action C (σ × List O) β} (hx : x.Adds)
    (hf : ∀ a, (f a).Adds) : (x >>= f).Adds := by
  intro w
  obtain ⟨o, w₁, ops, run⟩ := hx w
  match o with
  | .error s => exact ⟨.error s, w₁, ops, fun log => run_bind_error (run log) f⟩
  | .ok r =>
    obtain ⟨o', w₂, ops', run'⟩ := hf r.value w₁
    refine ⟨o'.after r.note, w₂, ops ++ ops', fun log => ?_⟩
    rw [run_bind_ok (run log), run', List.append_assoc]

/-- Sequencing respects it. -/
def invariance (C : Context) (σ O : Type) : Invariance C (σ × List O) where
  Holds := Adds
  pure := pure
  bind := bind
  wrongType expected := abort (.wrongType expected)

/-- What is added after anything is what is written down from nothing. -/
theorem run_eq {x : Action C (σ × List O) α} (hx : x.Adds) (w : World σ) (log : List O) :
    x.run (w.withLog log) =
      ((x.observe w).outcome,
        (x.observe w).plain.2.withLog (log ++ (x.observe w).operations)) := by
  obtain ⟨o, w₁, ops, run⟩ := hx w
  rw [run, observe, run]
  rfl

theorem map {x : Action C (σ × List O) α} (hx : x.Adds) (f : α → β) : (f <$> x).Adds :=
  (invariance C σ O).map hx f

/-- A program that is carried out with its operations written down adds to what is written down. -/
theorem meaning [Carries V α] (h : Handler C σ O V) (p : Program O V α) :
    (p.meaning h.recorded).Adds :=
  (invariance C σ O).meaning (fun op => .recorded op (h op)) p

theorem mapM {f : α → Action C (σ × List O) β} (hf : ∀ a, (f a).Adds) (as : List α) :
    (as.mapM f).Adds := by
  induction as with
  | nil => exact .pure []
  | cons a as ih =>
    rw [List.mapM_cons]
    exact (hf a).bind fun b => ih.bind fun bs => .pure (b :: bs)

end Adds

theorem observe_map (x : Action C (σ × List O) α) (f : α → β) (w : World σ) :
    (f <$> x).observe w = { x.observe w with outcome := (x.observe w).outcome.mapValue f } := by
  unfold observe
  rcases hx : x.run (w.withLog []) with ⟨s | r, w₁⟩
  · rw [run_map_error hx]
    rfl
  · rw [run_map_ok hx]
    rfl

/-- If the first of two actions comes to no value, all that is observed is observed of it. -/
theorem observe_bind_error {x : Action C (σ × List O) α} {w : World σ} {s : C.Stop}
    (h : (x.observe w).outcome = .error s) (f : α → Action C (σ × List O) β) :
    (x >>= f).observe w =
      ⟨.error s, (x.observe w).state, (x.observe w).operations, (x.observe w).events⟩ := by
  have run : x.run (w.withLog []) = (.error s, (x.run (w.withLog [])).2) := Prod.ext h rfl
  rw [observe, run_bind_error run]
  rfl

/-- If the first of two actions comes to a value, the second starts in the world that it left, and
its operations come after those of the first. -/
theorem observe_bind_ok {x : Action C (σ × List O) α} {w : World σ} {r : Noted C α}
    (h : (x.observe w).outcome = .ok r) {f : α → Action C (σ × List O) β}
    (hf : ∀ a, (f a).Adds) :
    (x >>= f).observe w =
      let first := x.observe w
      let second := (f r.value).observe first.plain.2
      ⟨second.outcome.after r.note, second.state, first.operations ++ second.operations,
        second.events⟩ := by
  have run : x.run (w.withLog []) =
      (.ok r, (x.observe w).plain.2.withLog (x.observe w).operations) := Prod.ext h rfl
  rw [observe, run_bind_ok run, (hf r.value).run_eq]
  rfl

end Action

/-! ## What a sequence of programs means -/

namespace Program

variable [Carries V α]

theorem root_meaning_bind (h : Handler C σ O V) (p : Program O V α) (f : α → Program O V β) :
    (p.bind f).root.meaning h = p.meaning h >>= fun a => (f a).root.meaning h := by
  rw [root_bind, Program.meaning, bind_assoc, Tree.meaning]
  exact bind_congr fun v => carry_onward (Tree.meaning h) (fun _ => rfl) f v

variable [Carries V (List α)] {h : Handler C σ O V}

/-- Adding the value of a program to those so far encodes just that, whatever the program is. -/
theorem Encodes.appending {before : Program O V (List α)} {x : Action C σ (List α)}
    (hbefore : before.Encodes h x) (p : Program O V α) :
    (before.appending p).Encodes h
      (x >>= fun values => (fun a => values ++ [a]) <$> p.meaning h) := by
  refine hbefore.bind fun values => ?_
  rw [Encodes, Program.map, root_meaning_bind]
  simp [Program.pure, Tree.meaning]

theorem Encodes.foldl_appending (ps : List (Program O V α)) {before : Program O V (List α)}
    {x : Action C σ (List α)} (hbefore : before.Encodes h x) :
    (ps.foldl Program.appending before).Encodes h
      (x >>= fun values => (values ++ ·) <$> ps.mapM (Program.meaning h)) := by
  induction ps generalizing before x with
  | nil => simpa using hbefore
  | cons p ps ih =>
    have later := ih (hbefore.appending p)
    simpa [List.mapM_cons, Function.comp_def] using later

/-- A sequence encodes the meanings of its programs, one after another. -/
theorem Encodes.sequence (ps : List (Program O V α)) :
    (Program.sequence ps).Encodes h (ps.mapM (Program.meaning h)) := by
  simpa [Program.sequence] using foldl_appending ps (.pure [])

end Program

/-! ## One program after another -/

/-- The world that a run left when it came to a value, without the report at its end. -/
def Observation.left (o : Observation C σ O α) : World σ :=
  ⟨o.state, o.events.pop⟩

namespace Program

variable [Carries V α]

/-- What is observed of the programs when each is carried out by itself, in the world that the one
before it left. After a program that comes to no value there is nothing to observe. -/
def observeEach (h : Handler C σ O V) :
    List (Program O V α) → World σ → List (Observation C σ O α)
  | [], _ => []
  | p :: ps, w =>
    let o := (p.execute h.recorded).observe w
    match o.outcome with
    | .ok _ => o :: observeEach h ps o.left
    | .error _ => [o]

section Report

variable {h : Handler C σ O V} {p : Program O V α} {w : World σ}

/-- A program that comes to a value leaves the world of its meaning, apart from the report. -/
theorem left_observe_execute {r : Noted C α}
    (ok : ((p.execute h.recorded).observe w).outcome = .ok r) :
    ((p.execute h.recorded).observe w).left = ((p.meaning h.recorded).observe w).plain.2 := by
  rcases hc : (p.root.counted h.recorded 0).run (w.withLog []) with ⟨s | u, w₁⟩
  · obtain ⟨hm, he⟩ := run_of_counted_error hc
    rw [Action.observe, he] at ok
    cases ok
  · obtain ⟨o, hm, he⟩ := run_of_counted_ok hc
    simp [Observation.left, Observation.plain, Action.observe, hm, he]

/-- A program that comes to no value reports nothing, unless it has come to one of another type. -/
theorem events_observe_execute {s : C.Stop}
    (error : ((p.execute h.recorded).observe w).outcome = .error s)
    (hs : s ≠ C.abort (.wrongType (Carries.typeName V α))) :
    ((p.execute h.recorded).observe w).events = ((p.meaning h.recorded).observe w).events := by
  rcases hc : (p.root.counted h.recorded 0).run (w.withLog []) with ⟨s' | u, w₁⟩
  · obtain ⟨hm, he⟩ := run_of_counted_error hc
    simp [Action.observe, hm, he]
  · exfalso
    -- there is a value, so what is left to go wrong is the look at it
    have meant : ((p.meaning h.recorded).run (w.withLog [])).1 = .error s :=
      (run_execute_eq_meaning h.recorded p _).1.symm.trans error
    rw [meaning_eq, Action.run_bind_ok hc] at meant
    unfold Action.unwrap at meant
    cases hv : (Carries.unwrap? u.value.1 : Option α) with
    | some a =>
      rw [hv] at meant
      cases meant
    | none =>
      rw [hv] at meant
      cases meant
      exact hs rfl

end Report

/-- What is observed of so many programs together, given the runs of each one after another from
the world. The operations are those of all runs in order, and the state is the one that the last
run left. Either every program came to a value: then the values are those of the runs in order, and
the note is theirs joined in order. Or one of them came to none: then the runs are those up to this
one, and they come together to what it came to. The type that the programs expect their values to be
of is given by name. -/
structure Gathers (expected : String) (w : World σ) (n : Nat)
    (runs : List (Observation C σ O α)) (together : Observation C σ O (List α)) : Prop where
  operations : together.operations = (runs.map (·.operations)).flatten
  state : together.state = (runs.map (·.state)).getLastD w.state
  ends :
    (∃ rs : List (Noted C α), rs.length = n ∧ runs.map (·.outcome) = rs.map .ok ∧
      together.outcome = .ok ⟨rs.map (·.value), (rs.map (·.note)).foldr C.join C.empty⟩ ∧
      together.events = (runs.map (·.left.events)).getLastD w.events) ∨
    ∃ before last stop, before.length < n ∧ runs = before ++ [last] ∧
      (∀ o ∈ before, ∃ r, o.outcome = .ok r) ∧ last.outcome = .error stop ∧
      together.outcome = .error stop ∧
      (stop ≠ C.abort (.wrongType expected) → together.events = last.events)

namespace Gathers

theorem nil (expected : String) (w : World σ) :
    Gathers expected w 0 ([] : List (Observation C σ O α))
      ⟨.ok ⟨[], C.empty⟩, w.state, [], w.events⟩ where
  operations := rfl
  state := rfl
  ends := .inl ⟨[], rfl, rfl, rfl, rfl⟩

variable {expected : String} {w : World σ} {n : Nat} {o : Observation C σ O α}
  {runs : List (Observation C σ O α)}

theorem stopped {stop : C.Stop} (ho : o.outcome = .error stop) {events : Array Event}
    (he : stop ≠ C.abort (.wrongType expected) → events = o.events) :
    Gathers expected w (n + 1) [o] ⟨.error stop, o.state, o.operations, events⟩ where
  operations := (List.append_nil _).symm
  state := rfl
  ends := .inr ⟨[], o, stop, n.succ_pos, rfl, by simp, ho, rfl, he⟩

theorem cons {r : Noted C α} (ho : o.outcome = .ok r) {rest : Observation C σ O (List α)}
    (later : Gathers expected o.left n runs rest) :
    Gathers expected w (n + 1) (o :: runs)
      ⟨(rest.outcome.mapValue (r.value :: ·)).after r.note, rest.state,
        o.operations ++ rest.operations, rest.events⟩ where
  operations := by simp [later.operations]
  state := by
    rw [later.state, List.map_cons, List.getLastD_cons]
    rfl
  ends := by
    obtain ⟨rs, length, outcomes, outcome, events⟩ |
      ⟨before, last, stop, length, rfl, values, ended, outcome, events⟩ := later.ends
    · refine .inl ⟨r :: rs, congrArg (· + 1) length, by simp [ho, outcomes], ?_, ?_⟩
      · simp [outcome, Outcome.mapValue, Outcome.after]
      · rw [events, List.map_cons, List.getLastD_cons]
    · refine .inr ⟨o :: before, last, stop, Nat.succ_lt_succ length, rfl, ?_, ended, ?_, events⟩
      · exact List.forall_mem_cons.2 ⟨⟨r, ho⟩, values⟩
      · simp [outcome, Outcome.mapValue, Outcome.after]

end Gathers

/-- The meanings of programs, one after another, come together to what is observed of each. -/
theorem gathers_mapM_meaning (h : Handler C σ O V) (ps : List (Program O V α)) (w : World σ) :
    Gathers (Carries.typeName V α) w ps.length (observeEach h ps w)
      ((ps.mapM (Program.meaning h.recorded)).observe w) := by
  induction ps generalizing w with
  | nil => exact .nil _ w
  | cons p ps ih =>
    obtain ⟨outcome, state, operations⟩ := observe_execute_eq_meaning h p w
    rw [List.mapM_cons, observeEach]
    cases ho : ((p.execute h.recorded).observe w).outcome with
    | error s =>
      rw [Action.observe_bind_error (outcome.symm.trans ho), ← state, ← operations]
      exact .stopped ho fun hs => (events_observe_execute ho hs).symm
    | ok r =>
      -- the programs that follow start without the report of this one
      have later : (ps.mapM (Program.meaning h.recorded)).Adds := .mapM (.meaning h) ps
      simp only [bind_pure_comp]
      rw [Action.observe_bind_ok (outcome.symm.trans ho) fun a => later.map (List.cons a)]
      simp only [Action.observe_map, ← left_observe_execute ho, ← operations]
      exact .cons ho (ih _)

/-- Carrying out a sequence of programs is carrying out the programs one after another, each in the
world that the one before it left, and collecting their values in order. The operations, and the
notes where the context has them, are those of the programs in order. If one of the programs comes
to no value, that is what the sequence comes to, and nothing of a later program is carried out.
What is observed is what the sequence and the programs do. -/
theorem sequence_in_order [Carries V (List α)] (h : Handler C σ O V)
    (ps : List (Program O V α)) (w : World σ) :
    let all := ((sequence ps).execute h.recorded).observe w
    (∃ together, Gathers (Carries.typeName V α) w ps.length (observeEach h ps w) together ∧
        all = together.reported) ∧
      all.plain = ((sequence ps).execute h).run w ∧
      ∀ p ∈ ps, ∀ v, ((p.execute h.recorded).observe v).plain = (p.execute h).run v := by
  refine ⟨⟨_, gathers_mapM_meaning h ps w, ?_⟩, plain_observe_execute h _ w, fun p _ v => ?_⟩
  · exact (Encodes.sequence ps).observe_execute w
  · exact plain_observe_execute h p v

end Program

end PhotoArchive
