import PhotoArchive.Action.Basic

/-!
# Loops of actions

`tail_rec`, which repeats an action whose value says whether to go on from another state or to stop
(`Flow`), in the awaited context by `run_loop`. It needs no stack, however often it goes round: the
notes of the rounds so far are handed along. A loop is defined where it stops, that is from every
state and world from which the rounds cannot go on forever. A loop whose states descend along a
well-founded relation stops everywhere.
-/
namespace PhotoArchive

/-- What one round of a loop says. -/
inductive Turn (S α : Type) where
  | again (state : S)
  | done (value : α)
  deriving DecidableEq, Repr

/-- A point below which a relation descends finitely. -/
structure Grounded {P : Type} (below : P → P → Prop) where
  point : P
  grounded : Acc below point

instance {P : Type} (below : P → P → Prop) : WellFoundedRelation (Grounded below) where
  rel p q := below p.point q.point
  wf := by
    refine ⟨fun ⟨p, h⟩ => ?_⟩
    induction h with
    | intro p _ ih => exact ⟨_, fun ⟨q, _⟩ hq => ih q hq⟩

def Turn.forget {S α : Type} {P : S → Prop} : Turn (Subtype P) α → Turn S α
  | .again t => .again t.val
  | .done a => .done a

variable {C : Context} {σ S α : Type}

namespace Action

/-- One state and world come after another when a round goes on from the one to the other. -/
def Next (step : S → Action C σ (Turn S α)) (after before : S × World σ) : Prop :=
  ∃ n, (step before.1).run before.2 = (.ok ⟨.again after.1, n⟩, after.2)

/-- The rounds from a state in a world, after rounds with the given note. -/
def loop (step : S → Action C σ (Turn S α)) (sofar : C.Note) (s : S) (w : World σ)
    (stops : Acc (Next step) (s, w)) : Outcome C α × World σ :=
  match h : (step s).run w with
  | (.error x, w₁) => (.error x, w₁)
  | (.ok ⟨.done a, n⟩, w₁) => (.ok ⟨a, C.join sofar n⟩, w₁)
  | (.ok ⟨.again t, n⟩, w₁) => loop step (C.join sofar n) t w₁ (stops.inv ⟨n, h⟩)
termination_by (⟨(s, w), stops⟩ : Grounded (Next step))
decreasing_by exact ⟨n, h⟩

/-- Repeats a step from a state until it says to stop. -/
def repeatFrom (step : S → Action C σ (Turn S α)) (s : S)
    (stops : ∀ w, Acc (Next step) (s, w)) : Action C σ α :=
  ⟨fun w => loop step C.empty s w (stops w)⟩

/-- The rounds of a step whose states descend come to an end. -/
theorem next_grounded {below : S → S → Prop} (wf : WellFounded below)
    (step : (s : S) → Action C σ (Turn {t : S // below t s} α)) (s : S) (w : World σ) :
    Acc (Next fun s => Turn.forget <$> step s) (s, w) := by
  induction s using wf.induction generalizing w with
  | _ s ih =>
    refine ⟨_, fun ⟨t, w₁⟩ ⟨n, h⟩ => ?_⟩
    match hs : (step s).run w with
    | (.error _, _) => cases (run_map_error hs Turn.forget).symm.trans h
    | (.ok ⟨.done _, _⟩, _) => cases (run_map_ok hs Turn.forget).symm.trans h
    | (.ok ⟨.again u, _⟩, _) =>
      cases (run_map_ok hs Turn.forget).symm.trans h
      exact ih u.val u.property w₁

/-- Repeats a step whose states descend along a well-founded relation. -/
def descend {below : S → S → Prop} (wf : WellFounded below)
    (step : (s : S) → Action C σ (Turn {t : S // below t s} α)) (s : S) : Action C σ α :=
  repeatFrom (fun s => Turn.forget <$> step s) s (next_grounded wf step s)

theorem loop_of_error {step : S → Action C σ (Turn S α)} {s : S} {w w₁ : World σ} {x : C.Stop}
    (h : (step s).run w = (.error x, w₁)) (sofar : C.Note) (stops : Acc (Next step) (s, w)) :
    loop step sofar s w stops = (.error x, w₁) := by
  rw [loop]
  split <;> rename_i h' <;> cases h.symm.trans h'
  rfl

theorem loop_of_done {step : S → Action C σ (Turn S α)} {s : S} {w w₁ : World σ} {a : α}
    {n : C.Note} (h : (step s).run w = (.ok ⟨.done a, n⟩, w₁)) (sofar : C.Note)
    (stops : Acc (Next step) (s, w)) :
    loop step sofar s w stops = (.ok ⟨a, C.join sofar n⟩, w₁) := by
  rw [loop]
  split <;> rename_i h' <;> cases h.symm.trans h'
  rfl

theorem loop_of_again {step : S → Action C σ (Turn S α)} {s t : S} {w w₁ : World σ} {n : C.Note}
    (h : (step s).run w = (.ok ⟨.again t, n⟩, w₁)) (sofar : C.Note)
    (stops : Acc (Next step) (s, w)) :
    loop step sofar s w stops = loop step (C.join sofar n) t w₁ (stops.inv ⟨n, h⟩) := by
  rw [loop]
  split <;> rename_i h' <;> cases h.symm.trans h'
  rfl

/-- What was noted before a loop stands before what the loop notes. -/
theorem loop_join (step : S → Action C σ (Turn S α)) (n sofar : C.Note) (s : S) (w : World σ)
    (stops : Acc (Next step) (s, w)) :
    loop step (C.join n sofar) s w stops =
      (Outcome.after n (loop step sofar s w stops).1, (loop step sofar s w stops).2) := by
  fun_induction loop step sofar s w stops with
  | case1 _ _ _ stops _ _ h => exact loop_of_error h _ stops
  | case2 sofar _ _ stops a m _ h =>
    rw [loop_of_done h _ stops, C.join_assoc]
    rfl
  | case3 sofar _ _ stops _ m _ h ih => rw [loop_of_again h _ stops, C.join_assoc, ih]

theorem loop_eq_after (step : S → Action C σ (Turn S α)) (n : C.Note) (s : S) (w : World σ)
    (stops : Acc (Next step) (s, w)) :
    loop step n s w stops =
      (Outcome.after n (loop step C.empty s w stops).1, (loop step C.empty s w stops).2) := by
  rw [← loop_join, C.join_empty]

/-- A loop whose states descend is its first round, and then the loop from where the round goes
on, or the value with which it stops. -/
theorem descend_eq {below : S → S → Prop} (wf : WellFounded below)
    (step : (s : S) → Action C σ (Turn {t : S // below t s} α)) (s : S) :
    descend wf step s =
      step s >>= fun
        | .again t => descend wf step t.val
        | .done a => pure a := by
  ext w : 2
  match hs : (step s).run w with
  | (.error x, w₁) =>
    rw [run_bind_error hs]
    exact loop_of_error (run_map_error hs Turn.forget) _ _
  | (.ok ⟨.done a, n⟩, w₁) =>
    rw [run_bind_ok hs]
    refine (loop_of_done (run_map_ok hs Turn.forget) _ _).trans ?_
    simp [Outcome.after]
  | (.ok ⟨.again t, n⟩, w₁) =>
    rw [run_bind_ok hs]
    refine (loop_of_again (run_map_ok hs Turn.forget) _ _).trans ?_
    rw [C.empty_join]
    exact loop_eq_after _ n t.val w₁ _

def collect (xs : List (Action C σ α)) : Action C σ (List α) :=
  descend (InvImage.wf (fun s : List (Action C σ α) × List α => s.1.length) Nat.lt_wfRel.wf)
    (fun
      | ([], values) => pure (.done values.reverse)
      | (x :: rest, values) =>
        (fun a => .again ⟨(rest, a :: values), by simp [InvImage, WellFoundedRelation.rel]⟩) <$> x)
    (xs, [])

def times (n : Nat) (x : Action C σ α) : Action C σ Nat :=
  descend (InvImage.wf (fun left : Nat => left) Nat.lt_wfRel.wf)
    (fun
      | 0 => pure (.done n)
      | left + 1 => (fun _ => .again ⟨left, by simp [InvImage, WellFoundedRelation.rel]⟩) <$> x)
    n

end Action

end PhotoArchive
