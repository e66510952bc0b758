import PhotoArchive.Proofs.Congruence
import PhotoArchive.Proofs.Loop

/-!
# The machine does what programs mean

The machine pops, pushes and hands over one step at a time, while a program means its parts put in
sequence. What ties the two together is what a machine still has to do, at any moment of a run: its
tree, and then its stack from the top, each put in sequence after what is before it. A round leaves
that as it is, so the rounds together do what the program means, with the same operations in the
same order, and they come to an end.
-/
namespace PhotoArchive

variable {C : Context} {σ O V α : Type}

/-- The meaning of a tree, with its operations counted on from a number. -/
def Tree.counted (h : Handler C σ O V) : Tree O V → Nat → Action C σ (V × Nat)
  | .pure v, n => Pure.pure (v, n)
  | .perform op, n => (fun v => (v, n + 1)) <$> h op
  | .bind first next, n => first.counted h n >>= fun r => (next r.1).counted h r.2
  | .fault expected, _ => .abort (.wrongType expected)

/-- Counting does not change what is done. -/
theorem Tree.fst_counted (h : Handler C σ O V) (t : Tree O V) (n : Nat) :
    Prod.fst <$> t.counted h n = t.meaning h := by
  induction t generalizing n with
  | pure v => simp [counted, meaning]
  | perform op => simp [counted, meaning]
  | bind first next ihFirst ihNext =>
    simp only [counted, meaning, map_bind, ihNext, ← ihFirst n, bind_map_left]
  | fault expected => rfl

namespace Machine

/-- What goes on from a value through a stack. -/
def unwind (h : Handler C σ O V) : List (V → Tree O V) → V × Nat → Action C σ (V × Nat)
  | [], r => Pure.pure r
  | next :: stack, r => (next r.1).counted h r.2 >>= unwind h stack

/-- The value is reported with the number of operations. -/
def report (r : V × Nat) : Action C σ V := do
  Action.emit (.finished r.2)
  pure r.1

/-- What a machine still has to do. -/
def remaining (h : Handler C σ O V) (m : Machine O V) : Action C σ V :=
  m.tree.counted h m.dispatched >>= unwind h m.stack >>= report

/-- The steps that carry out nothing leave what a machine has to do as it is. -/
theorem remaining_eq_settle (h : Handler C σ O V) (m : Machine O V) :
    m.remaining h =
      match m.settle with
      | .value v n => report (v, n)
      | .operation op stack n => h op >>= fun v => remaining h ⟨.pure v, stack, n + 1⟩
      | .fault expected => Action.abort (.wrongType expected) := by
  fun_induction settle m with
  | case1 v n => simp [remaining, Tree.counted, unwind]
  | case2 v next stack n ih =>
    rw [← ih]
    simp [remaining, Tree.counted, unwind]
  | case3 first next stack n ih =>
    rw [← ih]
    simp [remaining, Tree.counted, unwind]
  | case4 op stack n => simp [remaining, Tree.counted]
  | case5 stack n => simp [remaining, Tree.counted, Action.abort_bind]

/-- A machine does, round by round, what it has to do. -/
theorem run_eq_remaining (h : Handler C σ O V) (m : Machine O V) : m.run h = m.remaining h := by
  induction m using later_wf.induction with
  | _ m ih =>
    rw [run_eq_settle, remaining_eq_settle]
    cases hm : m.settle with
    | value v n => rfl
    | operation op stack n =>
      refine bind_congr fun v => ?_
      exact ih _ (under_of_settle hm v)
    | fault expected => rfl

def runWithin (h : Handler C σ O V) (k : Nat) (m : Machine O V) (w : World σ) :
    Option (Outcome C V × World σ) :=
  Action.descendWithin (round h) k m w

theorem exists_runWithin (h : Handler C σ O V) (m : Machine O V) (w : World σ) :
    ∃ k, m.runWithin h k w = some ((run h m).run w) :=
  Action.exists_descendWithin _ _ m w

end Machine

namespace Program

variable [Carries V α] {h : Handler C σ O V} {p : Program O V α} {w w₁ : World σ}

/-- A program is carried out by its meaning, then the report, then the look at its value. -/
theorem execute_eq (h : Handler C σ O V) (p : Program O V α) :
    p.execute h = p.root.counted h 0 >>= Machine.report >>= Action.unwrap α := by
  simp only [execute, Machine.run_eq_remaining, Machine.remaining, Machine.unwind, bind_pure]

theorem meaning_eq (h : Handler C σ O V) (p : Program O V α) :
    p.meaning h = p.root.counted h 0 >>= fun r => Action.unwrap α r.1 := by
  rw [meaning, ← Tree.fst_counted h p.root 0, bind_map_left]

/-- Looking at a value leaves the world as it is. -/
theorem run_unwrap (v : V) :
    ∃ o : Outcome C α, ∀ w : World σ, (Action.unwrap α v : Action C σ α).run w = (o, w) := by
  unfold Action.unwrap
  cases (Carries.unwrap? v : Option α) with
  | some a => exact ⟨.ok ⟨a, C.empty⟩, fun w => rfl⟩
  | none => exact ⟨.error (C.abort (.wrongType (Carries.typeName V α))), fun w => rfl⟩

/-- A tree that is left without a value is all that a program does, and nothing is reported. -/
theorem run_of_counted_error {s : C.Stop}
    (hc : (p.root.counted h 0).run w = (.error s, w₁)) :
    (p.meaning h).run w = (.error s, w₁) ∧ (p.execute h).run w = (.error s, w₁) := by
  rw [meaning_eq, execute_eq]
  exact ⟨Action.run_bind_error hc _, Action.run_bind_error (Action.run_bind_error hc _) _⟩

/-- From the value of its tree a program comes to what it means, after one report. -/
theorem run_of_counted_ok {r : Noted C (V × Nat)}
    (hc : (p.root.counted h 0).run w = (.ok r, w₁)) :
    ∃ o : Outcome C α, (p.meaning h).run w = (o, w₁) ∧
      (p.execute h).run w = (o, ⟨w₁.state, w₁.events.push (.finished r.value.2)⟩) := by
  obtain ⟨o, ho⟩ := run_unwrap (C := C) (σ := σ) (α := α) r.value.1
  refine ⟨o.after r.note, ?_, ?_⟩
  · rw [meaning_eq, Action.run_bind_ok hc, ho]
  · rw [execute_eq, bind_assoc, Action.run_bind_ok hc, Machine.report]
    simp only [bind_assoc, pure_bind]
    rw [Action.run_bind_ok (by rfl), ho]
    simp [Outcome.after_empty]

/-- The outcome and the state of a program are those of its meaning. -/
theorem run_execute_eq_meaning (h : Handler C σ O V) (p : Program O V α) (w : World σ) :
    ((p.execute h).run w).1 = ((p.meaning h).run w).1 ∧
      ((p.execute h).run w).2.state = ((p.meaning h).run w).2.state := by
  match hc : (p.root.counted h 0).run w with
  | (.error s, w₁) =>
    obtain ⟨hm, he⟩ := run_of_counted_error hc
    simp [hm, he]
  | (.ok r, w₁) =>
    obtain ⟨o, hm, he⟩ := run_of_counted_ok hc
    simp [hm, he]

theorem observe_execute_eq_meaning (h : Handler C σ O V) (p : Program O V α) (w : World σ) :
    let run := (p.execute h.recorded).observe w
    let meant := (p.meaning h.recorded).observe w
    run.outcome = meant.outcome ∧ run.state = meant.state ∧ run.operations = meant.operations := by
  obtain ⟨outcome, state⟩ := run_execute_eq_meaning h.recorded p (w.withLog [])
  exact ⟨outcome, Prod.mk.inj state⟩

/-- Carrying a program out, with an explicit stack and a loop, comes to an end and comes to what
the program means: the same outcome, with the same trace where the context has one, the same
operations handed over in the same order, and the same state. -/
theorem execute_refines_meaning (h : Handler C σ O V) (p : Program O V α) (w : World σ) :
    let run := (p.execute h.recorded).observe w
    let meant := (p.meaning h.recorded).observe w
    (run.outcome = meant.outcome ∧ run.operations = meant.operations ∧
        run.state = meant.state) ∧
      (run.plain = (p.execute h).run w ∧ meant.plain = (p.meaning h).run w) ∧
      ∃ rounds, Machine.runWithin h rounds ⟨p.root, [], 0⟩ w =
        some ((Machine.run h ⟨p.root, [], 0⟩).run w) := by
  obtain ⟨outcome, state⟩ := run_execute_eq_meaning h.recorded p (w.withLog [])
  refine ⟨⟨outcome, ?_, ?_⟩, ⟨plain_observe_execute h p w, plain_observe_meaning h p w⟩,
    Machine.exists_runWithin h _ w⟩
  · exact congrArg Prod.snd state
  · exact congrArg Prod.fst state

end Program

/-! ## What is counted -/

/-- The number that a tree comes to is that of the operations that it hands over. -/
theorem Tree.counted_recorded (h : Handler C σ O V) (t : Tree O V) {n : Nat}
    {w w₁ : World (σ × List O)} {r : Noted C (V × Nat)}
    (hr : (t.counted h.recorded n).run w = (.ok r, w₁)) :
    r.value.2 + w.state.2.length = n + w₁.state.2.length := by
  induction t generalizing n w w₁ r with
  | pure v =>
    cases hr
    rfl
  | perform op =>
    obtain ⟨a, hx, rfl⟩ := Action.exists_of_run_map_ok hr
    have grown : w₁.state.2 = w.state.2 ++ [op] := by
      rw [← (Prod.mk.inj hx).2]
      rfl
    simp only [grown, List.length_append, List.length_singleton]
    omega
  | bind first next ihFirst ihNext =>
    obtain ⟨a, u, b, hx, hy, rfl⟩ := Action.exists_of_run_bind_ok hr
    have before := ihFirst hx
    have after := ihNext _ hy
    show b.value.2 + w.state.2.length = n + w₁.state.2.length
    omega
  | fault expected => cases hr

end PhotoArchive
