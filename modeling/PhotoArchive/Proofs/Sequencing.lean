import PhotoArchive.Proofs.Machine
import PhotoArchive.Proofs.Typing

/-!
# How programs are nested does not matter

Programs that are put together from the same parts in the same order are not told apart when they
are carried out, however the parts are nested: not by what they come to, not by the operations, and
not by what is left and reported. A machine sees very different trees in the two nestings, and its
stack grows at other moments. What it has to do is the same all the same, with the same count of
operations, and that decides.
-/
namespace PhotoArchive

variable {C : Context} {σ O V α β γ : Type}

/-- Two ways to go on are the same if they are from every value that is come to. -/
theorem Action.bind_congr_of_run {x : Action C σ α} {f g : α → Action C σ β}
    (h : ∀ w r w₁, x.run w = (.ok r, w₁) → f r.value = g r.value) : x >>= f = x >>= g := by
  ext w : 2
  rcases hx : x.run w with ⟨s | r, w₁⟩
  · rw [run_bind_error hx, run_bind_error hx]
  · rw [run_bind_ok hx, run_bind_ok hx, h w r w₁ hx]

namespace Program

/-! ## Values of the type of a program -/

/-- Under the handler, every value that the program comes to is one of its type. -/
def YieldsType [Carries V α] (h : Handler C σ O V) (p : Program O V α) : Prop :=
  ∀ w r w₁, (p.root.meaning h).run w = (.ok r, w₁) → IsOf α r.value

/-- A tree with types comes to values of its type. -/
theorem isOf_of_typed {answers : O → V → Prop} {h : Handler C σ O V}
    (answered : ∀ {op w r w₁}, (h op).run w = (.ok r, w₁) → answers op r.value) [Carries V α]
    {t : Tree O V} (typed : t.Typed answers α) {w w₁ : World σ} {r : Noted C V}
    (run : (t.meaning h).run w = (.ok r, w₁)) : IsOf α r.value := by
  induction typed generalizing w w₁ r with
  | pure a =>
    cases run
    exact isOf_wrap a
  | perform hop => exact hop _ (answered run)
  | @bind _ _ _ _ first f _ _ ihFirst ihNext =>
    obtain ⟨u, w₂, v, hx, hy, rfl⟩ := Action.exists_of_run_bind_ok run
    obtain ⟨a, ha⟩ := ihFirst hx
    rw [← ha, onward_wrap] at hy
    have ofNext : IsOf _ v.value := ihNext a hy
    exact ofNext

/-- A program that can be built comes to values of its type under every handler that answers each
operation with a value of the type that was promised for it. -/
theorem Built.yieldsType [CarriesAnswers V] [Carries V α] {u : OpUnion} {p : Program u.Op V α}
    (built : p.Built) {h : Handler C σ u.Op V}
    (answered : ∀ {op w r w₁}, (h op).run w = (.ok r, w₁) → u.Answers op r.value) :
    p.YieldsType h :=
  fun _ _ _ run => isOf_of_typed answered built.typed run

/-- Writing operations down changes no value. -/
theorem YieldsType.recorded [Carries V α] {h : Handler C σ O V} {p : Program O V α}
    (yields : p.YieldsType h) : p.YieldsType h.recorded := by
  intro w r w₁ run
  have written (op : O) := Action.rel_recorded op (h op)
  obtain ⟨ops, same⟩ := Congruence.treeMeaning _ written p.root ⟨w.state.1, w.events⟩ w.state.2
  have outcome := congrArg Prod.fst (run.symm.trans same)
  exact yields _ r _ (Prod.ext outcome.symm rfl)

/-! ## What a machine has to do for programs in sequence -/

/-- Looking at a value of the type finds it. -/
@[simp] theorem unwrap_wrap [Carries V α] (a : α) :
    (Action.unwrap α (Carries.wrap a : V) : Action C σ α) = Pure.pure a := by
  simp [Action.unwrap]

section Counted

variable [Carries V α] (h : Handler C σ O V)

/-- A machine goes on from the value of the first part, if it is of the type of that part. -/
theorem counted_bind (p : Program O V α) (f : α → Program O V β) (n : Nat) :
    (p.bind f).root.counted h n =
      p.root.counted h n >>= fun r =>
        Action.unwrap α r.1 >>= fun a => (f a).root.counted h r.2 := by
  rw [root_bind, Tree.counted]
  exact bind_congr fun r => carry_onward (fun t => t.counted h r.2) (fun _ => rfl) f r.1

theorem counted_pure_bind (a : α) (f : α → Program O V β) (n : Nat) :
    ((Program.pure a).bind f).root.counted h n = (f a).root.counted h n := by
  simp [counted_bind, Program.pure, Tree.counted]

theorem counted_bind_assoc [Carries V β] (p : Program O V α) (f : α → Program O V β)
    (g : β → Program O V γ) (n : Nat) :
    ((p.bind f).bind g).root.counted h n =
      (p.bind fun a => (f a).bind g).root.counted h n := by
  simp only [counted_bind, bind_assoc]

theorem counted_map_map [Carries V β] [Carries V γ] (p : Program O V α) (k : α → β) (l : β → γ)
    (n : Nat) : ((p.map k).map l).root.counted h n = (p.map (l ∘ k)).root.counted h n := by
  unfold map
  rw [counted_bind_assoc, counted_bind, counted_bind]
  simp only [counted_pure_bind, Function.comp_apply]

theorem counted_bind_pure {p : Program O V α} (yields : p.YieldsType h) (n : Nat) :
    (p.bind Program.pure).root.counted h n = p.root.counted h n := by
  -- the step that gives the value once more looks at it, and finds it only if it is of the type
  have given : ∀ w r w₁, (p.root.counted h n).run w = (.ok r, w₁) →
      (Action.unwrap α r.value.1 >>= fun a => (Program.pure a).root.counted h r.value.2) =
        Pure.pure r.value := by
    intro w r w₁ run
    have meant : (p.root.meaning h).run w = (.ok ⟨r.value.1, r.note⟩, w₁) := by
      rw [← Tree.fst_counted h p.root n, Action.run_map_ok run]
    obtain ⟨a, ha⟩ : IsOf α r.value.1 := yields w _ w₁ meant
    rw [← ha, unwrap_wrap, pure_bind, Program.pure, Tree.counted, ha]
  rw [counted_bind, Action.bind_congr_of_run given, bind_pure]

variable {h} in
/-- Programs are carried out alike if a machine has the same to do for both. -/
theorem execute_congr {p q : Program O V α}
    (same : ∀ n, p.root.counted h n = q.root.counted h n) : p.execute h = q.execute h := by
  rw [execute_eq, execute_eq, same]

end Counted

/-- A program means the same with its value given once more, whatever its values are. -/
theorem meaning_bind_pure [Carries V α] (h : Handler C σ O V) (p : Program O V α) :
    (p.bind Program.pure).meaning h = p.meaning h := by
  -- a value of another type breaks both off, the one in the last step and the other after it
  have again (a : α) (n : Nat) :
      ((Program.pure a).root.counted h n >>= fun r => Action.unwrap α r.1) = Pure.pure a := by
    simp [Program.pure, Tree.counted]
  rw [meaning_eq, meaning_eq, counted_bind]
  simp only [bind_assoc, again, bind_pure]

/-! ## Chains -/

inductive Chain (O V : Type) : Type → Type → Type 1 where
  | nil {α : Type} : Chain O V α α
  | link {α β γ : Type} [Carries V α] (f : α → Program O V β) (rest : Chain O V β γ) :
    Chain O V α γ

namespace Chain

def fromLeft {α β : Type} : Chain O V α β → Program O V α → Program O V β
  | .nil, p => p
  | @link _ _ _ _ _ _ f rest, p => rest.fromLeft (p.bind f)

def fromRight {α β : Type} : Chain O V α β → Program O V α → Program O V β
  | .nil, p => p
  | @link _ _ _ _ _ _ f rest, p => p.bind fun a => rest.fromRight (f a)

variable (h : Handler C σ O V)

theorem counted_fromRight_bind [Carries V α] (chain : Chain O V β γ) (p : Program O V α)
    (f : α → Program O V β) (n : Nat) :
    (chain.fromRight (p.bind f)).root.counted h n =
      (p.bind fun a => chain.fromRight (f a)).root.counted h n := by
  cases chain with
  | nil => rfl
  | link g rest => exact counted_bind_assoc h p f (fun b => rest.fromRight (g b)) n

theorem counted_fromLeft (chain : Chain O V α β) (p : Program O V α) (n : Nat) :
    (chain.fromLeft p).root.counted h n = (chain.fromRight p).root.counted h n := by
  induction chain with
  | nil => rfl
  | link f rest ih =>
    calc
      (rest.fromLeft (p.bind f)).root.counted h n
        = (rest.fromRight (p.bind f)).root.counted h n := ih (p.bind f)
      _ = (p.bind fun a => rest.fromRight (f a)).root.counted h n :=
        counted_fromRight_bind h rest p f n

end Chain

/-! ## The laws -/

/-- Under the handler the two programs are not told apart: from any world they come to the same,
with the same trace, hand over the same operations in the same order, and leave the same state and
the same events, with the same count of operations in the report at the end. What is observed is
what the two do. -/
def BehavesAs [Carries V α] (h : Handler C σ O V) (p q : Program O V α) : Prop :=
  ∀ w : World σ, (p.execute h.recorded).observe w = (q.execute h.recorded).observe w ∧
    ((p.execute h.recorded).observe w).plain = (p.execute h).run w ∧
    ((q.execute h.recorded).observe w).plain = (q.execute h).run w

theorem behavesAs_of_counted [Carries V α] {h : Handler C σ O V} {p q : Program O V α}
    (same : ∀ n, p.root.counted h.recorded n = q.root.counted h.recorded n) :
    p.BehavesAs h q := by
  intro w
  refine ⟨?_, p.plain_observe_execute h w, q.plain_observe_execute h w⟩
  rw [execute_congr same]

/-- Giving the value once more is not seen where the values are of the type of the program. -/
theorem behavesAs_bind_pure [Carries V α] {h : Handler C σ O V} {p : Program O V α}
    (yields : p.YieldsType h) : (p.bind Program.pure).BehavesAs h p :=
  behavesAs_of_counted (counted_bind_pure h.recorded yields.recorded)

/-- Sequencing keeps its laws when programs are carried out, under every handler and in every
context. A value first and a way to go on from it is the way to go on, sequences nest either way,
maps compose, and a chain of any length does not show how it is nested. A program with its value
given once more comes to the same by the same operations, and is not told apart from the program
where the program comes to values of its type. A program that can be built does under every handler
that answers each operation with a value of the type that it promised. -/
theorem sequencing_laws [CarriesAnswers V] [Carries V α] [Carries V β] [Carries V γ]
    (h : Handler C σ O V) :
    (∀ (a : α) (f : α → Program O V β), ((Program.pure a).bind f).BehavesAs h (f a)) ∧
      (∀ p : Program O V α,
        (∀ w, let again := ((p.bind Program.pure).execute h.recorded).observe w
          let once := (p.execute h.recorded).observe w
          again.outcome = once.outcome ∧ again.operations = once.operations ∧
            again.state = once.state) ∧
        (p.YieldsType h → (p.bind Program.pure).BehavesAs h p)) ∧
      (∀ (u : OpUnion) (answering : Handler C σ u.Op V) (p : Program u.Op V α), p.Built →
        (∀ op w r w₁, (answering op).run w = (.ok r, w₁) → u.Answers op r.value) →
          (p.bind Program.pure).BehavesAs answering p) ∧
      (∀ (p : Program O V α) (f : α → Program O V β) (g : β → Program O V γ),
        ((p.bind f).bind g).BehavesAs h (p.bind fun a => (f a).bind g)) ∧
      (∀ (p : Program O V α) (k : α → β) (l : β → γ),
        ((p.map k).map l).BehavesAs h (p.map (l ∘ k))) ∧
      (∀ (p : Program O V α) (q : Program O V β),
        (p.followedBy q).BehavesAs h (p.bind fun _ => q)) ∧
      ∀ (chain : Chain O V α γ) (p : Program O V α),
        (chain.fromLeft p).BehavesAs h (chain.fromRight p) := by
  refine ⟨fun a f => ?_, fun p => ⟨fun w => ?_, behavesAs_bind_pure⟩, ?_, fun p f g => ?_,
    fun p k l => ?_, fun p q => ?_, fun chain p => ?_⟩
  · exact behavesAs_of_counted (counted_pure_bind h.recorded a f)
  · obtain ⟨outcome, state, operations⟩ := observe_execute_eq_meaning h p w
    obtain ⟨outcome', state', operations'⟩ := observe_execute_eq_meaning h (p.bind Program.pure) w
    rw [meaning_bind_pure] at outcome' state' operations'
    exact ⟨outcome'.trans outcome.symm, operations'.trans operations.symm,
      state'.trans state.symm⟩
  · intro u answering p built answered
    exact behavesAs_bind_pure (built.yieldsType fun {_ _ _ _} => answered _ _ _ _)
  · exact behavesAs_of_counted (counted_bind_assoc h.recorded p f g)
  · exact behavesAs_of_counted (counted_map_map h.recorded p k l)
  · exact behavesAs_of_counted fun _ => rfl
  · exact behavesAs_of_counted (Chain.counted_fromLeft h.recorded chain p)

/-- Saving a photo to supplied maps shows nothing of its value being given once more. -/
theorem sequencing_laws_savePhoto :
    let p : Program PhotoOp Value Unit := .savePhoto ⟨"p-1"⟩ "Ann" ⟨#[1]⟩
    let h : Handler .immediate Supplied PhotoOp Value := (Supplied.services .whole).handler
    Built (u := .photo) p ∧
      (∀ op w r w₁, (h op).run w = (.ok r, w₁) → OpUnion.photo.Answers op r.value) ∧
      p.YieldsType h ∧ (p.bind Program.pure).BehavesAs h p := by
  intro p h
  have built : Built (u := .photo) p := .savePhoto (.here _) (.there _ .itself) _ _ _
  have answered : ∀ op w r w₁, (h op).run w = (.ok r, w₁) → OpUnion.photo.Answers op r.value :=
    fun _ _ _ _ => (OpUnion.handles_services _).answers
  have laws := sequencing_laws (α := Unit) (β := Unit) (γ := Unit) h
  exact ⟨built, answered, built.yieldsType fun {_ _ _ _} => answered _ _ _ _,
    laws.2.2.1 .photo h p built answered⟩

/-- A handler that answers with something else than a record tells asking for a record from the
same with its value given once more. The step that gives the value breaks the one off before
anything is reported, and the other is broken off after it has reported that it is finished. -/
theorem sequencing_laws_mistyped :
    let p : Program MetadataOp Value MetadataRecord := .getRecord ⟨"p-1"⟩
    let h : Handler .immediate Unit MetadataOp Value := fun _ => Pure.pure .unit
    let again := ((p.bind Program.pure).execute h.recorded).observe ⟨(), #[]⟩
    let once := (p.execute h.recorded).observe ⟨(), #[]⟩
    again.events = #[] ∧ once.events = #[.finished 1] ∧
      ¬ (p.bind Program.pure).BehavesAs h p := by
  intro p h again once
  have silent : again.events = #[] := by
    unfold again
    rw [execute_eq]
    rfl
  have reported : once.events = #[.finished 1] := by
    unfold once
    rw [execute_eq]
    rfl
  refine ⟨silent, reported, fun alike => ?_⟩
  have same : again.events = once.events := congrArg Observation.events (alike ⟨(), #[]⟩).1
  rw [silent, reported] at same
  cases same

end Program

end PhotoArchive
