import PhotoArchive.Action.Loop

/-!
# Loops in rounds

A loop of actions is given by what it stops with. Here it is taken round by round: a loop that is
cut off after enough rounds has stopped with the same outcome, so the rounds come to an end.
-/
namespace PhotoArchive.Action

variable {C : Context} {σ S α : Type}

/-- A loop that is cut off after a number of rounds, with nothing if it has not stopped by then. -/
def rounds (step : S → Action C σ (Turn S α)) :
    Nat → C.Note → S → World σ → Option (Outcome C α × World σ)
  | 0, _, _, _ => none
  | k + 1, sofar, s, w =>
    match (step s).run w with
    | (.error x, w₁) => some (.error x, w₁)
    | (.ok ⟨.done a, n⟩, w₁) => some (.ok ⟨a, C.join sofar n⟩, w₁)
    | (.ok ⟨.again t, n⟩, w₁) => rounds step k (C.join sofar n) t w₁

/-- A loop stops after some number of rounds. -/
theorem exists_rounds_eq_loop (step : S → Action C σ (Turn S α)) (sofar : C.Note) (s : S)
    (w : World σ) (stops : Acc (Next step) (s, w)) :
    ∃ k, rounds step k sofar s w = some (loop step sofar s w stops) := by
  fun_induction loop step sofar s w stops with
  | case1 _ _ _ _ _ _ h => exact ⟨1, by simp [rounds, h]⟩
  | case2 _ _ _ _ _ _ _ h => exact ⟨1, by simp [rounds, h]⟩
  | case3 _ _ _ _ _ _ _ h ih =>
    obtain ⟨k, hk⟩ := ih
    exact ⟨k + 1, by simp [rounds, h, hk]⟩

section Descend

variable {below : S → S → Prop} (wf : WellFounded below)
  (step : (s : S) → Action C σ (Turn {t : S // below t s} α))

/-- The loop of a step whose states descend, cut off after a number of rounds. -/
def descendWithin (k : Nat) (s : S) (w : World σ) : Option (Outcome C α × World σ) :=
  rounds (fun s => Turn.forget <$> step s) k C.empty s w

theorem exists_descendWithin (s : S) (w : World σ) :
    ∃ k, descendWithin step k s w = some ((descend wf step s).run w) :=
  exists_rounds_eq_loop _ _ _ _ _

end Descend

end PhotoArchive.Action
