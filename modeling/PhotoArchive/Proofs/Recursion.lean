import PhotoArchive.Proofs.Loop
import PhotoArchive.Proofs.Observation

/-!
# Loops are recursions

A loop hands the notes of its rounds along and needs no stack. The recursion that it stands for
calls the step, and then goes on from its value: with the recursion from the next state, or with
the value that the step stops with. Wherever the rounds come to an end the loop is what the
recursion comes to, and there is no other solution. The step is called once a round, first on the
state from which the loop starts and then on each state that a round goes on from, and the notes
of all rounds stand in the order of the rounds.
-/
namespace PhotoArchive.Action

variable {C : Context} {σ S α : Type} {step : S → Action C σ (Turn S α)}

/-! ## The recursion -/

/-- What a turn goes on with, given what the recursion comes to from each state. -/
def follow (recur : S → Action C σ α) : Turn S α → Action C σ α
  | .again t => recur t
  | .done a => pure a

/-- The loop, from every state and world from which it stops. -/
def IsLoop (step : S → Action C σ (Turn S α)) (recur : S → Action C σ α) : Prop :=
  ∀ s w (stops : Acc (Next step) (s, w)), (recur s).run w = loop step C.empty s w stops

/-- The recursion equation, at every state and world from which the loop stops. -/
def Recurs (step : S → Action C σ (Turn S α)) (recur : S → Action C σ α) : Prop :=
  ∀ s w, Acc (Next step) (s, w) → (recur s).run w = (step s >>= follow recur).run w

/-- A loop is its first round, followed by the loop from where the round goes on. -/
theorem loop_eq_follow {recur : S → Action C σ α} {s : S} {w : World σ}
    (stops : Acc (Next step) (s, w))
    (rest : ∀ t u (next : Next step (t, u) (s, w)),
      (recur t).run u = loop step C.empty t u (stops.inv next)) :
    loop step C.empty s w stops = (step s >>= follow recur).run w := by
  match run : (step s).run w with
  | (.error x, w₁) => rw [loop_of_error run, run_bind_error run]
  | (.ok ⟨.done a, n⟩, w₁) =>
    rw [loop_of_done run, run_bind_ok run]
    simp [follow, Outcome.after]
  | (.ok ⟨.again t, n⟩, w₁) =>
    rw [loop_of_again run, run_bind_ok run, C.empty_join, loop_eq_after]
    simp only [follow, rest t w₁ ⟨n, run⟩]

/-- The loop is the one solution of the recursion equation. -/
theorem isLoop_iff_recurs (recur : S → Action C σ α) : IsLoop step recur ↔ Recurs step recur := by
  constructor
  · intro isLoop s w stops
    rw [isLoop s w stops]
    exact loop_eq_follow stops fun t u next => isLoop t u (stops.inv next)
  · intro recurs s w stops
    -- the recursion has the loop behind the first round, since fewer rounds are left there
    have solved (p : S × World σ) (h : Acc (Next step) p) :
        ∀ stops : Acc (Next step) (p.1, p.2),
          (recur p.1).run p.2 = loop step C.empty p.1 p.2 stops := by
      induction h with
      | intro p _ ih =>
        intro stops
        rw [recurs p.1 p.2 stops]
        exact (loop_eq_follow stops fun t u next => ih (t, u) next _).symm
    exact solved (s, w) stops stops

/-- There is a solution: nothing is asked of it where the loop does not stop. -/
theorem exists_isLoop (step : S → Action C σ (Turn S α)) : ∃ recur, IsLoop step recur := by
  classical
  let recur (s : S) : Action C σ α :=
    ⟨fun w =>
      if stops : Acc (Next step) (s, w) then loop step C.empty s w stops
      else (.error (C.abort (.other "no end")), w)⟩
  exact ⟨recur, fun s w stops => dif_pos stops⟩

/-! ## The rounds of a loop -/

/-- Rounds that go on, each from the state and the world that the one before it leaves, with the
state on which each calls the step, and its note. -/
inductive Passes (step : S → Action C σ (Turn S α)) :
    S × World σ → List (S × C.Note) → S × World σ → Prop where
  | nil (p) : Passes step p [] p
  | cons {s w t n w₁ passed q} (run : (step s).run w = (.ok ⟨.again t, n⟩, w₁))
    (rest : Passes step (t, w₁) passed q) : Passes step (s, w) ((s, n) :: passed) q

theorem Next.unique {p q r : S × World σ} (hq : Next step q p) (hr : Next step r p) : q = r := by
  obtain ⟨n, hn⟩ := hq
  obtain ⟨m, hm⟩ := hr
  have same := hn.symm.trans hm
  simp only [Prod.mk.injEq, Except.ok.injEq, Noted.mk.injEq, Turn.again.injEq] at same
  exact Prod.ext same.1.1 same.2

/-- A loop stops if and only if a round comes that does not go on. -/
theorem stops_iff_passes (p : S × World σ) :
    Acc (Next step) p ↔ ∃ passed q, Passes step p passed q ∧ ∀ r, ¬ Next step r q := by
  constructor
  · intro stops
    induction stops with
    | intro p _ ih =>
      by_cases last : ∀ r, ¬ Next step r p
      · exact ⟨[], p, .nil p, last⟩
      · simp only [Classical.not_forall, Classical.not_not] at last
        obtain ⟨r, n, run⟩ := last
        obtain ⟨passed, q, passes, ends⟩ := ih r ⟨n, run⟩
        exact ⟨_, q, .cons run passes, ends⟩
  · rintro ⟨passed, q, passes, ends⟩
    induction passes with
    | nil p => exact ⟨p, fun r next => absurd next (ends r)⟩
    | @cons s w t n w₁ passed q run rest ih =>
      have goesOn : Next step (t, w₁) (s, w) := ⟨n, run⟩
      refine ⟨_, fun r next => ?_⟩
      rw [next.unique goesOn]
      exact ih ends

/-- The notes of the rounds that have passed are handed along, in order. -/
theorem Passes.loop_eq {p q : S × World σ} {passed : List (S × C.Note)}
    (passes : Passes step p passed q) (sofar : C.Note) (stops : Acc (Next step) (p.1, p.2)) :
    ∃ stops' : Acc (Next step) (q.1, q.2),
      loop step sofar p.1 p.2 stops =
        loop step (C.join sofar (C.joinAll (passed.map Prod.snd))) q.1 q.2 stops' := by
  induction passes generalizing sofar with
  | nil p => exact ⟨stops, by simp⟩
  | @cons s w t n w₁ passed q run rest ih =>
    obtain ⟨stops', same⟩ := ih (C.join sofar n) (stops.inv ⟨n, run⟩)
    refine ⟨stops', (loop_of_again run sofar stops).trans (same.trans ?_)⟩
    rw [List.map_cons, Context.joinAll_cons, C.join_assoc]

theorem Passes.loop_of_error {s t : S} {w u w₁ : World σ} {passed : List (S × C.Note)}
    (passes : Passes step (s, w) passed (t, u)) {x : C.Stop}
    (last : (step t).run u = (.error x, w₁)) (stops : Acc (Next step) (s, w)) :
    loop step C.empty s w stops = (.error x, w₁) := by
  obtain ⟨stops', same⟩ := passes.loop_eq C.empty stops
  exact same.trans (Action.loop_of_error last _ stops')

theorem Passes.loop_of_done {s t : S} {w u w₁ : World σ} {passed : List (S × C.Note)}
    (passes : Passes step (s, w) passed (t, u)) {a : α} {n : C.Note}
    (last : (step t).run u = (.ok ⟨.done a, n⟩, w₁)) (stops : Acc (Next step) (s, w)) :
    loop step C.empty s w stops =
      (.ok ⟨a, C.joinAll (passed.map Prod.snd ++ [n])⟩, w₁) := by
  obtain ⟨stops', same⟩ := passes.loop_eq C.empty stops
  rw [Context.joinAll_concat, ← C.empty_join (C.joinAll _)]
  exact same.trans (Action.loop_of_done last _ stops')

/-! ## The calls of the step -/

/-- The step, with each of its calls written down with its state. -/
def calling (step : S → Action C σ (Turn S α)) (s : S) : Action C (σ × List S) (Turn S α) :=
  (step s).recorded s

theorem run_calling {s : S} {w w₁ : World σ} {o : Outcome C (Turn S α)}
    (run : (step s).run w = (o, w₁)) (log : List S) :
    (calling step s).run (w.withLog log) = (o, w₁.withLog (log ++ [s])) := by
  rw [calling, run_recorded, run]

theorem Passes.calling {p q : S × World σ} {passed : List (S × C.Note)}
    (passes : Passes step p passed q) (log : List S) :
    Passes (calling step) (p.1, p.2.withLog log) passed
      (q.1, q.2.withLog (log ++ passed.map Prod.fst)) := by
  induction passes generalizing log with
  | nil p =>
    rw [List.map_nil, List.append_nil]
    exact .nil _
  | @cons s w t n w₁ passed q run rest ih =>
    have following := ih (log ++ [s])
    rw [List.append_assoc] at following
    exact .cons (run_calling run log) following

/-- Where a loop stops, it stops with its calls written down. -/
theorem stops_calling {s : S} {w : World σ} (stops : Acc (Next step) (s, w)) (log : List S) :
    Acc (Next (calling step)) (s, w.withLog log) := by
  obtain ⟨passed, ⟨t, u⟩, passes, ends⟩ := (stops_iff_passes _).mp stops
  refine (stops_iff_passes _).mpr ⟨passed, _, passes.calling log, fun ⟨t', u'⟩ ⟨n, next⟩ => ?_⟩
  rcases last : (step t).run u with ⟨o, w₁⟩
  obtain ⟨rfl, _⟩ := Prod.mk.inj ((run_calling last _).symm.trans next)
  exact ends (t', w₁) ⟨n, last⟩

/-! ## The loop as a whole -/

/-- The loop is a solution of the recursion equation, and every solution is the loop. -/
def SolvedByLoop (step : S → Action C σ (Turn S α)) : Prop :=
  (∃ recur, IsLoop step recur) ∧ ∀ recur, IsLoop step recur ↔ Recurs step recur

theorem solvedByLoop (step : S → Action C σ (Turn S α)) : SolvedByLoop step :=
  ⟨exists_isLoop step, isLoop_iff_recurs⟩

/-- Wherever a loop stops it comes to what the recursion comes to, and there is no other solution of
the recursion equation, also if the calls of the step are written down. The step is called once a
round: on the state from which the loop starts, then on each state that a round goes on from. If
the last round gives a value, that is the value of the loop, with the notes of all rounds up to the
last one in order, and if it gives none, the loop ends as that round does. -/
theorem loop_unrolls (step : S → Action C σ (Turn S α)) (s : S) (w : World σ)
    (stops : Acc (Next step) (s, w)) :
    let plain := loop step C.empty s w stops
    (∀ always : ∀ w, Acc (Next step) (s, w), (repeatFrom step s always).run w = plain) ∧
      (SolvedByLoop step ∧ SolvedByLoop (calling step)) ∧
      (∃ (stops' : Acc (Next (calling step)) (s, w.withLog [])) (passed : List (S × C.Note)) (t : S)
        (u : World σ), Passes step (s, w) passed (t, u) ∧
          loop (calling step) C.empty s (w.withLog []) stops' =
            (plain.1, plain.2.withLog (passed.map Prod.fst ++ [t])) ∧
          ((∃ x w₁, (step t).run u = (.error x, w₁) ∧ plain = (.error x, w₁)) ∨
            ∃ a n w₁, (step t).run u = (.ok ⟨.done a, n⟩, w₁) ∧
              plain = (.ok ⟨a, C.joinAll (passed.map Prod.snd ++ [n])⟩, w₁))) ∧
      ∀ traces, (Context.traced.joinAll traces).toList = traces.flatMap Trace.toList := by
  intro plain
  refine ⟨fun _ => rfl, ⟨solvedByLoop step, solvedByLoop (calling step)⟩, ?_,
    Context.toList_joinAll⟩
  obtain ⟨passed, ⟨t, u⟩, passes, ends⟩ := (stops_iff_passes (s, w)).mp stops
  have stops' := stops_calling stops []
  have passes' := passes.calling []
  rw [List.nil_append] at passes'
  rcases last : (step t).run u with ⟨x | ⟨t' | a, n⟩, w₁⟩
  · have plainly : plain = (.error x, w₁) := passes.loop_of_error last stops
    refine ⟨stops', passed, t, u, passes, ?_, .inl ⟨x, w₁, last, plainly⟩⟩
    rw [passes'.loop_of_error (run_calling last _), plainly]
  · exact absurd ⟨n, last⟩ (ends (t', w₁))
  · have plainly : plain = (.ok ⟨a, _⟩, w₁) := passes.loop_of_done last stops
    refine ⟨stops', passed, t, u, passes, ?_, .inr ⟨a, n, w₁, last, plainly⟩⟩
    rw [passes'.loop_of_done (run_calling last _), plainly]

/-- A step that counts up to three, with a line and a mark in the state for each call. -/
def counting (n : Nat) : Action .traced Nat (Turn Nat Nat) := do
  onState fun marks => ((), marks + 1)
  noted ("step " ++ toString n) (if n = 3 then .done n else .again (n + 1))

/-- Counting from one up to three calls the step on one, two and three, with a line each. -/
theorem loop_unrolls_counting :
    let start : World Nat := ⟨0, #[]⟩
    let outcome : Outcome .traced Nat := .ok ⟨3, .ofList ["step 1", "step 2", "step 3"]⟩
    ∃ (stops : Acc (Next counting) (1, start))
      (stops' : Acc (Next (calling counting)) (1, start.withLog [])),
      loop counting .empty 1 start stops = (outcome, ⟨3, #[]⟩) ∧
        loop (calling counting) .empty 1 (start.withLog []) stops' =
          (outcome, World.withLog ⟨3, #[]⟩ [1, 2, 3]) ∧
        SolvedByLoop (calling counting) := by
  intro start outcome
  have passes : Passes counting (1, start)
      [(1, .single "step 1"), (2, .single "step 2")] (3, ⟨2, #[]⟩) :=
    .cons rfl (.cons rfl (.nil _))
  have last : (counting 3).run ⟨2, #[]⟩ = (.ok ⟨.done 3, .single "step 3"⟩, ⟨3, #[]⟩) := rfl
  have stops : Acc (Next counting) (1, start) :=
    (stops_iff_passes _).mpr ⟨_, _, passes, fun _ ⟨_, next⟩ => by cases last.symm.trans next⟩
  obtain ⟨_, ⟨_, solved⟩, ⟨stops', _⟩, _⟩ := loop_unrolls counting 1 start stops
  refine ⟨stops, stops', ?_, ?_, solved⟩
  · exact passes.loop_of_done last stops
  · exact (passes.calling []).loop_of_done (run_calling last _) stops'

end PhotoArchive.Action
