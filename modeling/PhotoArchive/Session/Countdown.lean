import PhotoArchive.Action.Loop

/-!
# Countdowns

A loop on numbers of 64 bits, to watch contexts by: it counts down to zero, adds up what it passes,
and may end early. The state counts the rounds.
-/
namespace PhotoArchive

/-- How a countdown ends before it comes to zero: with what has been added up, or without a value.
-/
inductive EarlyEnd (C : Context) where
  | done
  | stop (reason : C.Stop)

structure Countdown (C : Context) where
  start : Int64
  logged : Bool
  early : Option (Int64 × EarlyEnd C)

namespace Countdown

variable {C : Context}

abbrev Sofar := Int64 × Int64

/-- The number of rounds that are left. Below zero the numbers go on from the greatest. -/
def roundsLeft (s : Sofar) : Nat := s.1.toBitVec.toNat

/-- From a number that is not zero there are fewer rounds left after it is lowered. -/
theorem roundsLeft_pred {s : Sofar} (h : s.1 ≠ 0) (sum : Int64) :
    roundsLeft (s.1 - 1, sum) < roundsLeft s := by
  have hs : s.1.toBitVec.toNat ≠ 0 := fun h₀ =>
    h (Int64.toBitVec_inj.mp (BitVec.eq_of_toNat_eq h₀))
  have one : (1 : Int64).toBitVec.toNat = 1 := rfl
  have := s.1.toBitVec.isLt
  simp only [roundsLeft, Int64.toBitVec_sub, BitVec.toNat_sub, one]
  omega

/-- One round: the state counts it. -/
def round (c : Countdown C) (s : Sofar) :
    Action C Nat (Turn {t : Sofar // InvImage (· < ·) roundsLeft t s} Int64) := do
  Action.onState fun n => ((), n + 1)
  let next : Turn {t : Sofar // InvImage (· < ·) roundsLeft t s} Int64 :=
    if h : s.1 = 0 then .done s.2 else .again ⟨(s.1 - 1, s.2 + s.1), roundsLeft_pred h _⟩
  let go :=
    if c.logged then
      Action.noted ("left " ++ toString s.1.toInt ++ " acc " ++ toString s.2.toInt) next
    else pure next
  match c.early with
  | some (place, how) =>
    if place = s.1 then
      match how with
      | .done => pure (.done s.2)
      | .stop reason => Action.stop reason
    else go
  | none => go

/-- The rounds from the start, with nothing added up. -/
def action (c : Countdown C) : Action C Nat Int64 :=
  Action.descend (InvImage.wf roundsLeft Nat.lt_wfRel.wf) c.round (c.start, 0)

end Countdown

end PhotoArchive
