import PhotoArchive.Action.Chain

/-!
# Chains of arithmetic

A small language of links on numbers of 64 bits, to watch contexts by. The state counts the
callbacks that are called; the links inside a nested chain do not count.
-/
namespace PhotoArchive

inductive NumberLink (C : Context) where
  | add (n : Int64)
  | multiply (n : Int64)
  | bindAdd (n : Int64)
  | log (line : String)
  | nest (links : List (NumberLink C))
  | stop (reason : C.Stop)

namespace NumberLink

variable {C : Context}

mutual

/-- What the link does. -/
def link : NumberLink C → Link C Nat Int64 Int64
  | .add n => .map (· + n)
  | .multiply n => .map (· * n)
  | .bindAdd n => .andThen fun x => pure (x + n)
  | .log line => .andThen (Action.noted line)
  | .nest links => .andThen fun x => (Chain.ofList (linkAll links)).fromLeft (pure x)
  | .stop reason => .andThen fun _ => Action.stop reason

def linkAll : List (NumberLink C) → List (Link C Nat Int64 Int64)
  | [] => []
  | l :: rest => l.link :: linkAll rest

end

/-- Describes the chain of some links from a number. -/
def describe (leftNested : Bool) (start : Int64) (links : List (NumberLink C)) :
    World Nat → Eff C Nat Int64 × World Nat :=
  (Chain.ofList (linkAll links)).describe (fun _ n => n + 1) leftNested start

end NumberLink

end PhotoArchive
