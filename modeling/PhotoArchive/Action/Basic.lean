import PhotoArchive.Action.Context
import PhotoArchive.Event

/-!
# Actions

What a computation (`Eff`) does once it is carried out, with `pure`, `bind` and `logged`, and
`absent` and `failed` as stops. An action in a context works on a world: a state, and the events
reported so far. It ends with a value and the note of its steps, or without a value. What it did to
the world stays done in either case. Of two actions in sequence the second starts from the value and
the world that the first one left, and not at all if the first one left no value.
-/
namespace PhotoArchive

structure World (σ : Type) where
  state : σ
  events : Array Event

/-- A value with the note of the steps that led to it. -/
structure Noted (C : Context) (α : Type) where
  value : α
  note : C.Note

abbrev Outcome (C : Context) (α : Type) := Except C.Stop (Noted C α)

/-- An outcome with a note before its own. -/
def Outcome.after {C : Context} {α : Type} (n : C.Note) : Outcome C α → Outcome C α
  | .ok r => .ok ⟨r.value, C.join n r.note⟩
  | .error s => .error s

theorem Outcome.after_empty {C : Context} {α : Type} (o : Outcome C α) : o.after C.empty = o := by
  match o with
  | .ok r => simp [Outcome.after]
  | .error _ => rfl

theorem Outcome.after_after {C : Context} {α : Type} (m n : C.Note) (o : Outcome C α) :
    o.after (C.join m n) = (o.after n).after m := by
  match o with
  | .ok r => simp [Outcome.after, C.join_assoc]
  | .error _ => rfl

@[ext] structure Action (C : Context) (σ α : Type) where
  run : World σ → Outcome C α × World σ

variable {C : Context} {σ α β γ : Type}

namespace Action

protected def pure (a : α) : Action C σ α :=
  ⟨fun w => (.ok ⟨a, C.empty⟩, w)⟩

/-- One action, then the one that its value leads to. -/
protected def bind (x : Action C σ α) (f : α → Action C σ β) : Action C σ β :=
  ⟨fun w =>
    match x.run w with
    | (.error s, w₁) => (.error s, w₁)
    | (.ok r, w₁) =>
      let p := (f r.value).run w₁
      (p.1.after r.note, p.2)⟩

instance : Monad (Action C σ) where
  pure := Action.pure
  bind := Action.bind

def stop (s : C.Stop) : Action C σ α :=
  ⟨fun w => (.error s, w)⟩

def abort (reason : Abort) : Action C σ α :=
  stop (C.abort reason)

/-- The value is given with a line as its note. -/
def noted (line : String) (a : α) : Action C σ α :=
  ⟨fun w => (.ok ⟨a, C.line line⟩, w)⟩

def emit (event : Event) : Action C σ Unit :=
  ⟨fun w => (.ok ⟨(), C.empty⟩, ⟨w.state, w.events.push event⟩)⟩

def onState (f : σ → α × σ) : Action C σ α :=
  ⟨fun w => (.ok ⟨(f w.state).1, C.empty⟩, ⟨(f w.state).2, w.events⟩)⟩

@[simp] theorem run_pure (a : α) (w : World σ) :
    (pure a : Action C σ α).run w = (.ok ⟨a, C.empty⟩, w) := rfl

@[simp] theorem run_stop (s : C.Stop) (w : World σ) :
    (stop s : Action C σ α).run w = (.error s, w) := rfl

theorem run_bind_error {x : Action C σ α} {w w₁ : World σ} {s : C.Stop}
    (h : x.run w = (.error s, w₁)) (f : α → Action C σ β) :
    (x >>= f).run w = (.error s, w₁) := by
  change (match x.run w with
    | (.error s, w₁) => _
    | (.ok r, w₁) => _) = _
  rw [h]

theorem run_bind_ok {x : Action C σ α} {w w₁ : World σ} {r : Noted C α}
    (h : x.run w = (.ok r, w₁)) (f : α → Action C σ β) :
    (x >>= f).run w =
      (((f r.value).run w₁).1.after r.note, ((f r.value).run w₁).2) := by
  change (match x.run w with
    | (.error s, w₁) => _
    | (.ok r, w₁) => _) = _
  rw [h]

protected theorem pure_bind (a : α) (f : α → Action C σ β) : pure a >>= f = f a := by
  ext w : 2
  rw [run_bind_ok (run_pure a w), Outcome.after_empty]

protected theorem bind_pure (x : Action C σ α) : x >>= pure = x := by
  ext w : 2
  match h : x.run w with
  | (.error _, _) => rw [run_bind_error h]
  | (.ok _, _) => simp [run_bind_ok h, Outcome.after]

protected theorem bind_assoc (x : Action C σ α) (f : α → Action C σ β) (g : β → Action C σ γ) :
    x >>= f >>= g = x >>= fun a => f a >>= g := by
  ext w : 2
  match hx : x.run w with
  | (.error s, w₁) => rw [run_bind_error (run_bind_error hx f), run_bind_error hx]
  | (.ok r, w₁) =>
    match hf : (f r.value).run w₁ with
    | (.error s, w₂) =>
      have hxf : (x >>= f).run w = (.error s, w₂) := by rw [run_bind_ok hx, hf]; rfl
      rw [run_bind_error hxf, run_bind_ok hx, run_bind_error hf]
      rfl
    | (.ok t, w₂) =>
      have hxf : (x >>= f).run w = (.ok ⟨t.value, C.join r.note t.note⟩, w₂) := by
        rw [run_bind_ok hx, hf]
        rfl
      rw [run_bind_ok hxf, run_bind_ok hx, run_bind_ok hf, Outcome.after_after]

theorem stop_bind (s : C.Stop) (f : α → Action C σ β) : (stop s : Action C σ α) >>= f = stop s :=
  rfl

theorem abort_bind (reason : Abort) (f : α → Action C σ β) :
    (abort reason : Action C σ α) >>= f = abort reason :=
  stop_bind (C.abort reason) f

instance : LawfulMonad (Action C σ) :=
  LawfulMonad.mk' (Action C σ)
    (by intro α x; exact Action.bind_pure x)
    Action.pure_bind
    Action.bind_assoc

theorem run_map_error {x : Action C σ α} {w w₁ : World σ} {s : C.Stop}
    (h : x.run w = (.error s, w₁)) (f : α → β) : (f <$> x).run w = (.error s, w₁) := by
  rw [← bind_pure_comp, run_bind_error h]

theorem run_map_ok {x : Action C σ α} {w w₁ : World σ} {r : Noted C α}
    (h : x.run w = (.ok r, w₁)) (f : α → β) :
    (f <$> x).run w = (.ok ⟨f r.value, r.note⟩, w₁) := by
  rw [← bind_pure_comp, run_bind_ok h]
  simp [Outcome.after]

/-- Two actions in sequence come to a value only if both do. -/
theorem exists_of_run_bind_ok {x : Action C σ α} {f : α → Action C σ β} {w w₂ : World σ}
    {r : Noted C β} (h : (x >>= f).run w = (.ok r, w₂)) :
    ∃ a w₁ b, x.run w = (.ok a, w₁) ∧ (f a.value).run w₁ = (.ok b, w₂) ∧
      r = ⟨b.value, C.join a.note b.note⟩ := by
  rcases hx : x.run w with ⟨s | a, w₁⟩
  · cases (run_bind_error hx f).symm.trans h
  · have step := (run_bind_ok hx f).symm.trans h
    rcases hf : (f a.value).run w₁ with ⟨s | b, w₃⟩
    · rw [hf] at step
      cases step
    · rw [hf] at step
      cases step
      exact ⟨a, w₁, b, rfl, hf, rfl⟩

theorem exists_of_run_map_ok {x : Action C σ α} {f : α → β} {w w₁ : World σ} {r : Noted C β}
    (h : (f <$> x).run w = (.ok r, w₁)) :
    ∃ a, x.run w = (.ok a, w₁) ∧ r = ⟨f a.value, a.note⟩ := by
  rcases hx : x.run w with ⟨s | a, w₂⟩
  · cases (run_map_error hx f).symm.trans h
  · cases (run_map_ok hx f).symm.trans h
    exact ⟨a, rfl, rfl⟩

end Action

end PhotoArchive
