import PhotoArchive.Action.Basic

/-!
# Described computations

`Eff`, a computation as its context represents it, with `pure` and `and_then`. Describing a
computation takes place in a world. Where a computation is held as its value (the `bind` of `Now`
and of `Traced`), a callback runs as it is put after the computation. Where a computation waits (the
`bind` of `Live`, `bind_steps`), the callback waits with it. Carried out, both are the same action.
-/
namespace PhotoArchive

variable {C : Context} {σ α β : Type}

structure Eff (C : Context) (σ α : Type) where
  repr : C.repr.Held (World σ) (Outcome C α)

namespace Eff

def pure (a : α) : Eff C σ α :=
  ⟨C.repr.ready (.ok ⟨a, C.empty⟩)⟩

/-- Goes on with a callback, which describes another computation. -/
def bind (x : Eff C σ α) (f : α → World σ → Eff C σ β × World σ) (w : World σ) :
    Eff C σ β × World σ :=
  let p := C.repr.andThen x.repr
    (fun
      | .error s, w => (C.repr.ready (.error s), w)
      | .ok r, w =>
        let q := f r.value w
        C.repr.andThen q.1.repr (fun o w => (C.repr.ready (o.after r.note), w)) q.2)
    w
  (⟨p.1⟩, p.2)

/-- Asks for the outcome, by `run` or by awaiting it. -/
def finish (x : Eff C σ α) (w : World σ) : Outcome C α × World σ :=
  C.repr.finish x.repr w

def asked (x : Eff C σ α) : Action C σ α :=
  ⟨x.finish⟩

/-- The action of describing a computation and asking for its outcome. -/
def carriedOut (described : World σ → Eff C σ α × World σ) : Action C σ α :=
  ⟨fun w =>
    let p := described w
    p.1.finish p.2⟩

theorem finish_pure (a : α) (w : World σ) :
    (pure a : Eff C σ α).finish w = (.ok ⟨a, C.empty⟩, w) :=
  C.repr.finish_ready _ w

theorem asked_pure (a : α) : (pure a : Eff C σ α).asked = Pure.pure a :=
  Action.ext (funext (finish_pure a))

/-- Whenever a context runs a callback, carried out it runs after the computation that it is put
after. -/
theorem carriedOut_bind (x : Eff C σ α) (f : α → World σ → Eff C σ β × World σ) :
    carriedOut (x.bind f) = x.asked >>= fun a => carriedOut (f a) := by
  ext w : 2
  have finished := C.repr.finish_andThen x.repr (W := World σ) (S := Outcome C β)
  rcases run : x.finish w with ⟨s | r, w₁⟩
  · rw [Action.run_bind_error (x := x.asked) run]
    refine (finished _ w).trans ?_
    rw [show C.repr.finish x.repr w = (.error s, w₁) from run]
    exact C.repr.finish_ready _ w₁
  · rw [Action.run_bind_ok (x := x.asked) run]
    refine (finished _ w).trans ?_
    rw [show C.repr.finish x.repr w = (.ok r, w₁) from run]
    refine (C.repr.finish_andThen _ _ _).trans ?_
    exact C.repr.finish_ready _ _

end Eff

/-- Describes an action as a callback that is put after nothing. -/
def Action.start (x : Action C σ α) (w : World σ) : Eff C σ α × World σ :=
  let p := C.repr.andThen (C.repr.ready ())
    (fun _ w =>
      let q := x.run w
      (C.repr.ready q.1, q.2))
    w
  (⟨p.1⟩, p.2)

theorem Eff.carriedOut_start (x : Action C σ α) : carriedOut x.start = x := by
  ext w : 2
  refine (C.repr.finish_andThen _ _ w).trans ?_
  simp only [C.repr.finish_ready]

end PhotoArchive
