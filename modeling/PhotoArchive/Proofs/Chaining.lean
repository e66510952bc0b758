import PhotoArchive.Action.Chain
import PhotoArchive.Proofs.Congruence

/-!
# How chains are nested does not matter

A chain of actions comes to the same however it is nested, and its callbacks are run alike: each
writes down its number when it is run, and from either nesting one sees the same numbers. They are
those of the first links, up to the first link that gives no value, each once and in order. When
they are written down depends on how the context represents work: as soon as the chain is described,
or not before its outcome is asked for.
-/
namespace PhotoArchive

variable {C : Context} {σ α β γ : Type}

/-! ## Links and their callbacks -/

namespace Link

def step (link : Link C σ α β) (a : α) : Action C σ β :=
  link.after (pure a)

/-- A link after an action is what the link does from the value of the action. -/
theorem after_eq_bind (link : Link C σ α β) (x : Action C σ α) :
    link.after x = x >>= link.step := by
  cases link with
  | map f =>
    have does : (map f : Link C σ α β).step = fun a => pure (f a) := by
      funext a
      exact map_pure f a
    rw [does, bind_pure_comp]
    rfl
  | andThen f =>
    have does : (andThen f).step = f := by
      funext a
      exact pure_bind a f
    rw [does]
    rfl

/-- A link whose callback does something to the state while it gives the value. -/
def mapping (f : α → σ → β × σ) : Link C σ α β :=
  .andThen fun a => Action.onState (f a)

theorem map_eq_mapping (f : α → β) (x : Action C σ α) :
    (map f).after x = (mapping fun a s => (f a, s)).after x := by
  rw [after_eq_bind, after_eq_bind]
  rfl

/-- Two callbacks in sequence are one callback that does what both do. -/
theorem mapping_mapping (f : α → σ → β × σ) (g : β → σ → γ × σ) (x : Action C σ α) :
    (mapping g).after ((mapping f).after x) =
      (mapping fun a s => g (f a s).1 (f a s).2).after x := by
  simp only [mapping, after, bind_assoc]
  refine bind_congr fun a => ?_
  ext w : 2
  rw [Action.run_bind_ok (by rfl), Outcome.after_empty]
  rfl

/-- The link, with its callback written down under a number each time that it is run. -/
def marked (k : Nat) (link : Link C σ α β) : Link C (σ × List Nat) α β :=
  .andThen fun a => (link.step a).recorded k

theorem step_marked (k : Nat) (link : Link C σ α β) (a : α) :
    (link.marked k).step a = (link.step a).recorded k := by
  simp only [marked, step, after, pure_bind]

end Link

namespace Chain

/-! ## The two nestings -/

theorem fromRight_cons (link : Link C σ α β) (rest : Chain C σ β γ) (a : α) :
    (cons link rest).fromRight a = link.step a >>= rest.fromRight := rfl

theorem fromLeft_eq_bind (chain : Chain C σ α β) (x : Action C σ α) :
    chain.fromLeft x = x >>= chain.fromRight := by
  induction chain with
  | nil => exact (bind_pure x).symm
  | cons link rest ih =>
    calc rest.fromLeft (link.after x)
      _ = link.after x >>= rest.fromRight := ih _
      _ = x >>= fun a => link.step a >>= rest.fromRight := by
        rw [link.after_eq_bind, bind_assoc]

theorem fromLeft_pure (chain : Chain C σ α β) (a : α) :
    chain.fromLeft (pure a) = chain.fromRight a := by
  rw [fromLeft_eq_bind, pure_bind]

/-! ## How a chain goes -/

/-- How a chain goes from a value in a world: its links are carried out from the first one on, each
from the value and the world that the one before it left. Given are the notes of the links that give
a value, what the chain comes to, and the world that is left. A link that gives no value decides
what the chain comes to. -/
inductive Goes : {α β : Type} → Chain C σ α β → α → World σ → List C.Note → Except C.Stop β →
    World σ → Prop where
  | nil {α : Type} (a : α) (w) : Goes .nil a w [] (.ok a) w
  | stopped {α β γ : Type} {link : Link C σ α β} {a w s w₁} (rest : Chain C σ β γ)
    (run : (link.step a).run w = (.error s, w₁)) : Goes (.cons link rest) a w [] (.error s) w₁
  | passed {α β γ : Type} {link : Link C σ α β} {rest : Chain C σ β γ} {a w r w₁ notes o w₂}
    (run : (link.step a).run w = (.ok r, w₁)) (goes : Goes rest r.value w₁ notes o w₂) :
    Goes (.cons link rest) a w (r.note :: notes) o w₂

theorem exists_goes (chain : Chain C σ α β) (a : α) (w : World σ) :
    ∃ notes o w₁, chain.Goes a w notes o w₁ := by
  induction chain generalizing w with
  | nil => exact ⟨_, _, _, .nil a w⟩
  | cons link rest ih =>
    rcases run : (link.step a).run w with ⟨s | r, w₁⟩
    · exact ⟨_, _, _, .stopped rest run⟩
    · obtain ⟨notes, o, w₂, goes⟩ := ih r.value w₁
      exact ⟨_, _, _, .passed run goes⟩

/-- How many links are carried out: those that give a value, and the one that gives none. -/
def ran (notes : List C.Note) : Except C.Stop β → Nat
  | .ok _ => notes.length
  | .error _ => notes.length + 1

theorem ran_cons (n : C.Note) (notes : List C.Note) (o : Except C.Stop β) :
    ran (n :: notes) o = ran notes o + 1 := by
  cases o <;> rfl

def length {α β : Type} : Chain C σ α β → Nat
  | .nil => 0
  | .cons _ rest => rest.length + 1

/-- A chain that comes to a value has carried out all of its links. -/
theorem Goes.ran_eq_length {chain : Chain C σ α β} {a : α} {w w₁ : World σ}
    {notes : List C.Note} {b : β} (goes : chain.Goes a w notes (.ok b) w₁) :
    notes.length = chain.length := by
  generalize value : Except.ok b = o at goes
  induction goes with
  | nil a w => rfl
  | stopped rest run => cases value
  | passed run goes ih => exact congrArg (· + 1) (ih value)

/-! ## What is seen of the callbacks -/

/-- The chain, with its callbacks written down under the numbers of their links. -/
def marked {α β : Type} : Nat → Chain C σ α β → Chain C (σ × List Nat) α β
  | _, .nil => .nil
  | k, .cons link rest => .cons (link.marked k) (rest.marked (k + 1))

/-- Writing callbacks down changes nothing else. -/
theorem rel_marked (k : Nat) (chain : Chain C σ α β) (a : α) :
    (Congruence.recording C σ Nat).Rel ((chain.marked k).fromRight a) (chain.fromRight a) := by
  induction chain generalizing k with
  | nil => exact (Congruence.recording C σ Nat).pure a
  | cons link rest ih =>
    refine (Congruence.recording C σ Nat).bind ?_ fun b => ih (k + 1) b
    change (Congruence.recording C σ Nat).Rel ((link.marked k).step a) (link.step a)
    rw [Link.step_marked]
    exact Action.rel_recorded k (link.step a)

/-- The callbacks that are written down are those of the links that are carried out, in order. -/
theorem Goes.run_marked {chain : Chain C σ α β} {a : α} {w w₁ : World σ} {notes : List C.Note}
    {o : Except C.Stop β} (goes : chain.Goes a w notes o w₁) (k : Nat) (log : List Nat) :
    ((chain.marked k).fromRight a).run (w.withLog log) =
      (o.map fun b => ⟨b, C.joinAll notes⟩, w₁.withLog (log ++ List.range' k (ran notes o))) := by
  induction goes generalizing k log with
  | nil a w => simp [marked, fromRight, ran, Except.map]
  | @stopped _ _ _ link a w s w₁ rest run =>
    have first : ((link.marked k).step a).run (w.withLog log) =
        (.error s, w₁.withLog (log ++ [k])) := by
      rw [Link.step_marked, Action.run_recorded, run]
    rw [marked, fromRight_cons, Action.run_bind_error first]
    rfl
  | @passed _ _ _ link rest a w r w₁ notes o w₂ run goes ih =>
    have first : ((link.marked k).step a).run (w.withLog log) =
        (.ok r, w₁.withLog (log ++ [k])) := by
      rw [Link.step_marked, Action.run_recorded, run]
    rw [marked, fromRight_cons, Action.run_bind_ok first, ih, ran_cons, List.range'_succ,
      List.append_assoc, List.singleton_append]
    cases o <;> rfl

end Chain

/-! ## Described chains -/

/-- Carries out what an action does to the state, and leaves a log behind it as it is. -/
def Action.besideLog (x : Action C σ α) : Action C (σ × List Nat) α :=
  ⟨fun w =>
    let (o, w₁) := x.run ⟨w.state.1, w.events⟩
    (o, w₁.withLog w.state.2)⟩

/-- Writes the number of a callback behind the state. -/
def writeDown (k : Nat) (s : σ × List Nat) : σ × List Nat :=
  (s.1, s.2 ++ [k])

def Link.besideLog : Link C σ α β → Link C (σ × List Nat) α β
  | .map f => .map f
  | .andThen f => .andThen fun a => (f a).besideLog

/-- A link that is described and carried out is the link with its callback written down. -/
theorem Link.carriedOut_describe (k : Nat) (link : Link C σ α β)
    (x : Eff C (σ × List Nat) α) :
    Eff.carriedOut (link.besideLog.describe (writeDown k) x) = (link.marked k).after x.asked := by
  cases link with
  | map f =>
    refine (Eff.carriedOut_bind x _).trans ?_
    refine bind_congr (m := Action C (σ × List Nat)) fun a => ?_
    ext w : 2
    refine (Eff.finish_pure (f a) _).trans ?_
    simp only [step, after, map_pure, Action.recorded, Action.run_pure]
    rfl
  | andThen f =>
    refine (Eff.carriedOut_bind x _).trans ?_
    refine bind_congr (m := Action C (σ × List Nat)) fun a => ?_
    ext w : 2
    simp only [step, after, pure_bind]
    exact congrArg (·.run ⟨writeDown k w.state, w.events⟩) (Eff.carriedOut_start (f a).besideLog)

/-- What comes after an action depends on what the action comes to and leaves. -/
theorem Action.run_bind_congr {x y : Action C σ α} {w w₁ : World σ} (same : x.run w = y.run w₁)
    (f : α → Action C σ β) : (x >>= f).run w = (y >>= f).run w₁ := by
  rcases run : y.run w₁ with ⟨s | r, w₂⟩
  · rw [run_bind_error run, run_bind_error (same.trans run)]
  · rw [run_bind_ok run, run_bind_ok (same.trans run)]

namespace Chain

def besideLog {α β : Type} : Chain C σ α β → Chain C (σ × List Nat) α β
  | .nil => .nil
  | .cons link rest => .cons link.besideLog rest.besideLog

/-- Describes the chain from a value in either nesting, with its callbacks written down as they are
called. -/
def watched (leftNested : Bool) (chain : Chain C σ α β) (a : α) :
    World (σ × List Nat) → Eff C (σ × List Nat) β × World (σ × List Nat) :=
  chain.besideLog.describe writeDown leftNested a

theorem carriedOut_describeLeft (chain : Chain C σ α β) (k : Nat)
    (x : Eff C (σ × List Nat) α) :
    Eff.carriedOut (chain.besideLog.describeLeft writeDown k x) =
      (chain.marked k).fromLeft x.asked := by
  induction chain generalizing k with
  | nil => rfl
  | cons link rest ih =>
    ext w : 2
    rcases begun : link.besideLog.describe (writeDown k) x w with ⟨y, w₁⟩
    -- the first link comes to the same whether it is asked for now or later
    have first : ((link.marked k).after x.asked).run w = y.asked.run w₁ := by
      rw [← link.carriedOut_describe k x]
      simp only [Eff.carriedOut, begun]
      rfl
    calc (Eff.carriedOut ((cons link rest).besideLog.describeLeft writeDown k x)).run w
      _ = (Eff.carriedOut (rest.besideLog.describeLeft writeDown (k + 1) y)).run w₁ := by
        simp only [Eff.carriedOut, besideLog, describeLeft, begun]
      _ = (y.asked >>= (rest.marked (k + 1)).fromRight).run w₁ := by rw [ih, fromLeft_eq_bind]
      _ = ((link.marked k).after x.asked >>= (rest.marked (k + 1)).fromRight).run w :=
        (Action.run_bind_congr first _).symm
      _ = ((rest.marked (k + 1)).fromLeft ((link.marked k).after x.asked)).run w := by
        rw [fromLeft_eq_bind]

theorem carriedOut_describeRight (chain : Chain C σ α β) (k : Nat) (a : α) :
    Eff.carriedOut (chain.besideLog.describeRight writeDown k a) =
      (chain.marked k).fromRight a := by
  induction chain generalizing k with
  | nil => exact Eff.asked_pure a
  | cons link rest ih =>
    ext w : 2
    rcases begun : link.besideLog.describe (writeDown k) (Eff.pure a) w with ⟨y, w₁⟩
    have first : ((link.marked k).step a).run w = y.asked.run w₁ := by
      rw [Link.step, ← Eff.asked_pure a, ← link.carriedOut_describe k]
      simp only [Eff.carriedOut, begun]
      rfl
    calc (Eff.carriedOut ((cons link rest).besideLog.describeRight writeDown k a)).run w
      _ = (Eff.carriedOut (y.bind (rest.besideLog.describeRight writeDown (k + 1)))).run w₁ := by
        simp only [Eff.carriedOut, besideLog, describeRight, begun]
      _ = (y.asked >>= (rest.marked (k + 1)).fromRight).run w₁ := by
        rw [Eff.carriedOut_bind]
        simp only [ih]
      _ = ((link.marked k).step a >>= (rest.marked (k + 1)).fromRight).run w :=
        (Action.run_bind_congr first _).symm

/-- A chain that is described in either nesting and then asked for comes to what it does. -/
theorem carriedOut_watched (leftNested : Bool) (chain : Chain C σ α β) (a : α) :
    Eff.carriedOut (chain.watched leftNested a) = (chain.marked 0).fromRight a := by
  cases leftNested with
  | true =>
    refine (chain.carriedOut_describeLeft 0 (Eff.pure a)).trans ?_
    rw [Eff.asked_pure, fromLeft_pure]
  | false => exact chain.carriedOut_describeRight 0 a

end Chain

/-! ## When callbacks are run -/

namespace Representation

/-- What is held is what the work has come to, and nothing is left to be done. -/
def IsDone (R : Representation) : Prop :=
  ∀ {W A : Type} (x : R.Held W A) (v w : W), R.finish x v = ((R.finish x w).1, v)

/-- To go on with a callback does nothing. -/
def Defers (R : Representation) : Prop :=
  ∀ {W A B : Type} (x : R.Held W A) (next : A → W → R.Held W B × W) (v w : W),
    R.andThen x next v = ((R.andThen x next w).1, v)

theorem value_isDone : value.IsDone := fun _ _ _ => rfl

theorem waiting_defers : waiting.Defers := fun _ _ _ _ => rfl

end Representation

section Defers

variable (defers : C.repr.Defers)

include defers

theorem Eff.bind_of_defers (x : Eff C σ α) (f : α → World σ → Eff C σ β × World σ)
    (v w : World σ) : x.bind f v = ((x.bind f w).1, v) :=
  congrArg (fun p => ((⟨p.1⟩ : Eff C σ β), p.2)) (defers x.repr _ v w)

theorem Link.describe_of_defers (called : σ → σ) (link : Link C σ α β) (x : Eff C σ α)
    (v w : World σ) : link.describe called x v = ((link.describe called x w).1, v) := by
  cases link <;> simp only [describe] <;> exact Eff.bind_of_defers defers x _ v w

theorem Chain.describeLeft_of_defers (called : Nat → σ → σ) (chain : Chain C σ α β) (k : Nat)
    (x : Eff C σ α) (v w : World σ) :
    chain.describeLeft called k x v = ((chain.describeLeft called k x w).1, v) := by
  induction chain generalizing k with
  | nil => rfl
  | cons link rest ih =>
    have untouched : (link.describe (called k) x w).2 = w :=
      congrArg Prod.snd (link.describe_of_defers defers (called k) x w w)
    simp only [describeLeft]
    rw [link.describe_of_defers defers (called k) x v w, untouched]
    exact ih (k + 1) _

/-- Where callbacks wait, describing a chain in either nesting leaves the world as it is. -/
theorem Chain.describe_of_defers (called : Nat → σ → σ) (leftNested : Bool)
    (chain : Chain C σ α β) (a : α) (v w : World σ) :
    chain.describe called leftNested a v = ((chain.describe called leftNested a w).1, v) := by
  cases leftNested with
  | true => exact chain.describeLeft_of_defers defers called 0 (Eff.pure a) v w
  | false =>
    cases chain with
    | nil => rfl
    | cons link rest =>
      have untouched : (link.describe (called 0) (Eff.pure a) w).2 = w :=
        congrArg Prod.snd (link.describe_of_defers defers (called 0) (Eff.pure a) w w)
      simp only [describe, describeRight, Bool.false_eq_true, if_false]
      rw [link.describe_of_defers defers (called 0) (Eff.pure a) v w, untouched]
      exact Eff.bind_of_defers defers _ _ v w

end Defers

namespace Chain

/-- A chain that has been described in either nesting has run none of its callbacks and has done
nothing else. It is carried out from the world in which it is asked for, whenever that is. -/
def Waits (chain : Chain C σ α β) (a : α) (w : World σ) : Prop :=
  ∀ leftNested,
    let begun := chain.watched leftNested a (w.withLog [])
    begun.2 = w.withLog [] ∧ ∀ v, begun.1.finish v = ((chain.marked 0).fromRight a).run v

/-- A chain that has been described in either nesting has run all the callbacks that it runs at all,
and has done everything else. What it comes to is there, whenever it is asked for. -/
def HasRun (chain : Chain C σ α β) (a : α) (w : World σ) : Prop :=
  let seen := ((chain.marked 0).fromRight a).observe w
  ∀ leftNested,
    let begun := chain.watched leftNested a (w.withLog [])
    begun.2 = World.withLog ⟨seen.state, seen.events⟩ seen.operations ∧
      ∀ v, begun.1.finish v = (seen.outcome, v)

theorem waits (defers : C.repr.Defers) (chain : Chain C σ α β) (a : α) (w : World σ) :
    chain.Waits a w := by
  intro leftNested begun
  have same (v : World (σ × List Nat)) : chain.watched leftNested a v = (begun.1, v) :=
    describe_of_defers defers writeDown leftNested chain.besideLog a v _
  refine ⟨congrArg Prod.snd (same _), fun v => ?_⟩
  rw [← carriedOut_watched leftNested chain a]
  simp only [Eff.carriedOut, same v]

theorem hasRun (isDone : C.repr.IsDone) (chain : Chain C σ α β) (a : α) (w : World σ) :
    chain.HasRun a w := by
  intro leftNested begun
  let seen := ((chain.marked 0).fromRight a).observe w
  have asked : begun.1.finish begun.2 = ((chain.marked 0).fromRight a).run (w.withLog []) :=
    congrArg (·.run (w.withLog [])) (carriedOut_watched leftNested chain a)
  have there (v : World (σ × List Nat)) : begun.1.finish v = (seen.outcome, v) := by
    have outcome : (begun.1.finish begun.2).1 = seen.outcome := congrArg Prod.fst asked
    rw [← outcome]
    exact isDone begun.1.repr v begun.2
  rw [there] at asked
  exact ⟨congrArg Prod.snd asked, there⟩

end Chain

/-- The nesting of a chain is not seen, whatever its links do and however many there are: what it
comes to, with the notes of the links in order, the callbacks that are run, and what is left and
reported are the same, also where the chain is described first and then asked for. The callbacks are
those of the first links, once each and in order, up to the first link without a value, which
decides what the chain comes to, or up to the last one. A value and a link, a link that gives the
value once more, and two links that do not look at the context keep the laws of sequencing. In the
awaited context a chain that has been described has run none of its callbacks, in the immediate and
in the traced context it has run them all. -/
theorem Chain.nesting_unseen :
    (∀ {C : Context} {σ α β γ : Type} (chain : Chain C σ α β) (a : α) (w : World σ),
      let left := (chain.marked 0).fromLeft (pure a)
      let right := (chain.marked 0).fromRight a
      let seen := left.observe w
      (right.observe w = seen ∧ (chain.fromLeft (pure a)).run w = seen.plain ∧
          (chain.fromRight a).run w = seen.plain ∧
          ∀ leftNested, (Eff.carriedOut (chain.watched leftNested a)).observe w = seen) ∧
        (∃ notes o w₁, chain.Goes a w notes o w₁ ∧
          seen.plain = (o.map fun b => ⟨b, C.joinAll notes⟩, w₁) ∧
          seen.operations = List.range (ran notes o) ∧
          ∀ b, o = .ok b → notes.length = chain.length) ∧
        (∀ f : α → Action C σ β, (Link.andThen f).after (pure a) = f a) ∧
        (∀ x : Action C σ α, (Link.andThen pure).after x = x) ∧
        (∀ (f : α → β) (x : Action C σ α),
          (Link.map f).after x = (Link.mapping fun a s => (f a, s)).after x) ∧
        ∀ (f : α → σ → β × σ) (g : β → σ → γ × σ) (x : Action C σ α),
          (Link.mapping g).after ((Link.mapping f).after x) =
            (Link.mapping fun a s => g (f a s).1 (f a s).2).after x) ∧
      (∀ traces, (Context.traced.joinAll traces).toList = traces.flatMap Trace.toList) ∧
      (∀ {σ α β : Type} (chain : Chain .awaited σ α β) (a : α) (w : World σ), chain.Waits a w) ∧
      (∀ {σ α β : Type} (chain : Chain .immediate σ α β) (a : α) (w : World σ),
        chain.HasRun a w) ∧
      ∀ {σ α β : Type} (chain : Chain .traced σ α β) (a : α) (w : World σ), chain.HasRun a w := by
  refine ⟨?_, Context.toList_joinAll, waits Representation.waiting_defers,
    hasRun Representation.value_isDone, hasRun Representation.value_isDone⟩
  intro C σ α β γ chain a w left right seen
  have same : left = right := fromLeft_pure (chain.marked 0) a
  have plain : seen.plain = (chain.fromRight a).run w := by
    rw [← Action.plain_observe (chain.rel_marked 0 a) w]
    exact congrArg (fun x => (Action.observe x w).plain) same
  refine ⟨⟨by rw [← same], ?_, plain.symm, fun leftNested => ?_⟩, ?_, ?_, ?_, ?_, ?_⟩
  · rw [fromLeft_pure, plain]
  · rw [carriedOut_watched]
    exact congrArg (·.observe w) same.symm
  · obtain ⟨notes, o, w₁, goes⟩ := chain.exists_goes a w
    have run := goes.run_marked 0 []
    have observed : seen = right.observe w := by rw [← same]
    refine ⟨notes, o, w₁, goes, ?_, ?_, fun b value => ?_⟩
    · rw [observed, Action.observe, run]
      rfl
    · rw [observed, Action.observe, run, List.range_eq_range']
      rfl
    · subst value
      exact goes.ran_eq_length
  · exact fun f => pure_bind a f
  · exact fun x => bind_pure x
  · exact Link.map_eq_mapping
  · exact Link.mapping_mapping

end PhotoArchive
