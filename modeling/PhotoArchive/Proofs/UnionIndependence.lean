import Mathlib.Data.List.Forall2
import PhotoArchive.Interpreter.Supplied
import PhotoArchive.Proofs.Machine
import PhotoArchive.Script.Value
import PhotoArchive.Workflow.Deferred

/-!
# Programs do not depend on the union

A program that is written over any union that has the operations it needs can be put over each such
union: the operations are then found at other places, and each of them is handled by the handler
that stands at the same place among the handlers. Nothing that is observed of the program depends
on the union, and the handlers at all other places are never called on.

The trees over two unions differ only in how their operations are given. What machines have to do
for such trees is related operation by operation, and so are their runs.
-/
namespace PhotoArchive

variable {C D : Context} {σ τ O P V α β : Type}

/-! ## Trees with corresponding operations -/

/-- The trees differ at most in their operations, which correspond. -/
inductive Tree.Alike (R : O → P → Prop) : Tree O V → Tree P V → Prop where
  | pure (v : V) : Alike R (.pure v) (.pure v)
  | perform {op : O} {op' : P} (h : R op op') : Alike R (.perform op) (.perform op')
  | bind {first : Tree O V} {first' : Tree P V} {next : V → Tree O V} {next' : V → Tree P V}
    (hfirst : Alike R first first') (hnext : ∀ v, Alike R (next v) (next' v)) :
    Alike R (.bind first next) (.bind first' next')
  | fault (expected : String) : Alike R (.fault expected) (.fault expected)

namespace Program

/-- The programs differ at most in their operations, which correspond. -/
def Alike (R : O → P → Prop) (p : Program O V α) (q : Program P V α) : Prop :=
  p.root.Alike R q.root

namespace Alike

variable {R : O → P → Prop}

theorem pure [Carries V α] (a : α) :
    (Program.pure a : Program O V α).Alike R (Program.pure a : Program P V α) :=
  Tree.Alike.pure _

theorem bind [Carries V α] {p : Program O V α} {q : Program P V α} {f : α → Program O V β}
    {g : α → Program P V β} (hp : p.Alike R q) (hf : ∀ a, (f a).Alike R (g a)) :
    (p.bind f).Alike R (q.bind g) := by
  refine Tree.Alike.bind hp fun v => ?_
  cases (Carries.unwrap? v : Option α) with
  | some a => exact hf a
  | none => exact .fault _

theorem map [Carries V α] [Carries V β] {p : Program O V α} {q : Program P V α}
    (hp : p.Alike R q) (f : α → β) : (p.map f).Alike R (q.map f) :=
  hp.bind fun a => pure (f a)

theorem foldl_appending [Carries V α] [Carries V (List α)] {ps : List (Program O V α)}
    {qs : List (Program P V α)} (hps : List.Forall₂ (Alike R) ps qs)
    {before : Program O V (List α)} {before' : Program P V (List α)}
    (hbefore : before.Alike R before') :
    (ps.foldl appending before).Alike R (qs.foldl appending before') := by
  induction hps generalizing before before' with
  | nil => exact hbefore
  | cons hp _ ih => exact ih (hbefore.bind fun values => hp.map fun a => values ++ [a])

end Alike

end Program

namespace Congruence

variable (K : Congruence C D σ τ) {R : O → P → Prop} {h : Handler C σ O V} {h' : Handler D τ P V}

/-- What machines have to do is related for alike trees if it is for corresponding operations. -/
theorem counted_of_alike (hop : ∀ op op', R op op' → K.Rel (h op) (h' op')) {t : Tree O V}
    {t' : Tree P V} (alike : t.Alike R t') (n : Nat) :
    K.Rel (t.counted h n) (t'.counted h' n) := by
  induction alike generalizing n with
  | pure v => exact K.pure (v, n)
  | perform related => exact K.map (hop _ _ related) _
  | bind _ _ ihFirst ihNext => exact K.bind (ihFirst n) fun r => ihNext r.1 r.2
  | fault expected => exact K.wrongType expected

theorem execute_of_alike (hop : ∀ op op', R op op' → K.Rel (h op) (h' op')) [Carries V α]
    {p : Program O V α} {q : Program P V α} (alike : p.Alike R q) :
    K.Rel (p.execute h) (q.execute h') := by
  rw [Program.execute_eq, Program.execute_eq]
  refine K.bind (K.bind (K.counted_of_alike hop alike 0) fun r => ?_) K.unwrap
  exact K.bind (K.emit r.2) fun _ => K.pure r.1

/-- Actions that do the same, apart from writing down operations that correspond. -/
def corresponding (C : Context) (σ : Type) (R : O → P → Prop) :
    Congruence C C (σ × List O) (σ × List P) where
  Rel x y := ∀ w log log', List.Forall₂ R log log' → ∃ o w₁ ops ops', List.Forall₂ R ops ops' ∧
    x.run (w.withLog log) = (o, World.withLog w₁ ops) ∧
    y.run (w.withLog log') = (o, World.withLog w₁ ops')
  pure a w log log' hlog := ⟨.ok ⟨a, C.empty⟩, w, log, log', hlog, rfl, rfl⟩
  bind {_ _ x y f g} hxy hfg w log log' hlog := by
    obtain ⟨o, w₁, ops, ops', hops, hx, hy⟩ := hxy w log log' hlog
    match o with
    | .error s =>
      exact ⟨.error s, w₁, ops, ops', hops, Action.run_bind_error hx f,
        Action.run_bind_error hy g⟩
    | .ok r =>
      obtain ⟨o', w₂, later, later', hlater, hf, hg⟩ := hfg r.value w₁ ops ops' hops
      exact ⟨o'.after r.note, w₂, later, later', hlater,
        by rw [Action.run_bind_ok hx, hf], by rw [Action.run_bind_ok hy, hg]⟩
  wrongType _ w log log' hlog := ⟨.error (C.abort (.wrongType _)), w, log, log', hlog, rfl, rfl⟩
  emit n w log log' hlog :=
    ⟨.ok ⟨(), C.empty⟩, ⟨w.state, w.events.push (.finished n)⟩, log, log', hlog, rfl, rfl⟩

end Congruence

/-- Carrying out corresponding operations alike and writing them down relates. -/
theorem Action.corresponding_recorded {R : O → P → Prop} {op : O} {op' : P} (h : R op op')
    (x : Action C σ α) :
    (Congruence.corresponding C σ R).Rel (x.recorded op) (x.recorded op') := by
  intro w log log' hlog
  refine ⟨(x.run w).1, (x.run w).2, log ++ [op], log' ++ [op'], ?_, run_recorded op x w log,
    run_recorded op' x w log'⟩
  exact List.rel_append hlog (.cons h .nil)

/-- Of actions that do the same the same is observed, with operations that correspond. -/
theorem Action.observe_of_corresponding {R : O → P → Prop} {x : Action C (σ × List O) α}
    {y : Action C (σ × List P) α} (h : (Congruence.corresponding C σ R).Rel x y) (w : World σ) :
    let o := x.observe w
    let o' := y.observe w
    o'.plain = o.plain ∧ List.Forall₂ R o.operations o'.operations := by
  obtain ⟨o, w₁, ops, ops', hops, hx, hy⟩ := h w [] [] .nil
  simp only [observe, Observation.plain, hx, hy]
  exact ⟨rfl, hops⟩

/-! ## Right-nested unions -/

inductive OpKind where
  | metadata
  | blob

abbrev OpKind.Op : OpKind → Type
  | .metadata => MetadataOp
  | .blob => BlobOp

/-- What can be put into a union: a kind of operations that programs issue, or any other type. -/
inductive OpArm where
  | kind (k : OpKind)
  | other (T : Type)

abbrev OpArm.Op : OpArm → Type
  | .kind k => k.Op
  | .other T => T

/-- A union nested to the right: its arms, of which there is at least one. -/
inductive OpNest where
  | only (arm : OpArm)
  | pair (arm : OpArm) (rest : OpNest)

namespace OpNest

abbrev Op : OpNest → Type
  | .only arm => arm.Op
  | .pair arm rest => arm.Op ⊕ rest.Op

def arm? : OpNest → Nat → Option OpArm
  | .only arm, 0 => some arm
  | .only _, _ + 1 => none
  | .pair arm _, 0 => some arm
  | .pair _ rest, n + 1 => rest.arm? n

def index : (u : OpNest) → u.Op → Nat
  | .only _, _ => 0
  | .pair _ _, .inl _ => 0
  | .pair _ rest, .inr op => rest.index op + 1

def received (u : OpNest) (n : Nat) (ops : List u.Op) : List u.Op :=
  ops.filter (u.index · = n)

inductive Place (k : OpKind) : OpNest → Type 1 where
  | itself : Place k (.only (.kind k))
  | here (rest : OpNest) : Place k (.pair (.kind k) rest)
  | there {rest : OpNest} (arm : OpArm) (place : Place k rest) : Place k (.pair arm rest)

/-- Handlers for all arms of a union, nested as the union is. -/
inductive Handlers (C : Context) (σ V : Type) : OpNest → Type 1 where
  | only {arm : OpArm} (h : Handler C σ arm.Op V) : Handlers C σ V (.only arm)
  | pair {arm : OpArm} {rest : OpNest} (h : Handler C σ arm.Op V)
    (others : Handlers C σ V rest) : Handlers C σ V (.pair arm rest)

/-- The handler that nested handlers make up. -/
def Handlers.handler : {u : OpNest} → Handlers C σ V u → Handler C σ u.Op V
  | _, .only h => h
  | _, .pair h others => h.sum others.handler

namespace Place

variable {k : OpKind}

/-- A union includes the kind of operations that it has at a place. -/
abbrev includes : {u : OpNest} → Place k u → Includes k.Op u.Op
  | _, .itself => (inferInstance : Includes k.Op k.Op)
  | _, .here rest => (inferInstance : Includes k.Op (k.Op ⊕ rest.Op))
  | _, @there _ rest arm place =>
    have := place.includes
    (inferInstance : Includes k.Op (arm.Op ⊕ rest.Op))

/-- The number of the arm at a place. -/
def index : {u : OpNest} → Place k u → Nat
  | _, .itself => 0
  | _, .here _ => 0
  | _, .there _ place => place.index + 1

/-- The handler that stands at a place. -/
def handler : {u : OpNest} → Place k u → Handlers C σ V u → Handler C σ k.Op V
  | _, .itself, .only h => h
  | _, .here _, .pair h _ => h
  | _, .there _ place, .pair _ others => place.handler others

variable {u : OpNest}

theorem arm?_index (place : Place k u) : u.arm? place.index = some (.kind k) := by
  induction place with
  | itself => rfl
  | here rest => rfl
  | there arm place ih => exact ih

/-- At one place there is only one kind of operations. -/
theorem kind_unique {k' : OpKind} {place : Place k u} {place' : Place k' u}
    (same : place.index = place'.index) : k = k' := by
  have arm := place.arm?_index
  rw [same, place'.arm?_index] at arm
  cases arm
  rfl

/-- An operation that is put into a union at a place is of the arm at that place. -/
theorem index_inject (place : Place k u) (op : k.Op) :
    u.index (place.includes.inject op) = place.index := by
  induction place with
  | itself => rfl
  | here rest => rfl
  | there arm place ih => exact congrArg (· + 1) ih

/-- An operation that is put into a union at a place is handled by the handler at that place. -/
theorem handler_inject (place : Place k u) (handlers : Handlers C σ V u) (op : k.Op) :
    handlers.handler (place.includes.inject op) = place.handler handlers op := by
  induction handlers with
  | only h =>
    cases place with
    | itself => rfl
  | pair h others ih =>
    cases place with
    | here => rfl
    | there arm place => exact ih place

end Place

/-- Places for all kinds of operations that are used. -/
abbrev Places (uses : OpKind → Prop) (u : OpNest) : Type 1 :=
  ∀ k, uses k → u.Place k

abbrev photo : OpNest := .pair (.kind .metadata) (.only (.kind .blob))

def photoPlace : (k : OpKind) → photo.Place k
  | .metadata => .here _
  | .blob => .there _ .itself

end OpNest

/-! ## Programs over any union -/

/-- A program that is not yet put over a union, and that uses at most some kinds of operations: made
from values and the five operations, in sequence in any of the ways that there are. -/
inductive Blueprint (V : Type) (uses : OpKind → Prop) : Type → Type 1 where
  | pure {α : Type} [Carries V α] (a : α) : Blueprint V uses α
  | bind {α β : Type} [Carries V α] (first : Blueprint V uses α)
    (next : α → Blueprint V uses β) : Blueprint V uses β
  | map {α β : Type} [Carries V α] [Carries V β] (f : α → β) (first : Blueprint V uses α) :
    Blueprint V uses β
  | followedBy {α β : Type} [Carries V α] (first : Blueprint V uses α)
    (second : Blueprint V uses β) : Blueprint V uses β
  | sequence {α : Type} [Carries V α] [Carries V (List α)] (n : Nat)
    (parts : Fin n → Blueprint V uses α) : Blueprint V uses (List α)
  | insertRecord (h : uses .metadata) (id : PhotoId) (key : BlobKey) (creator : String) :
    Blueprint V uses MetadataRecord
  | getRecord (h : uses .metadata) (id : PhotoId) : Blueprint V uses MetadataRecord
  | generateKey (h : uses .blob) (id : PhotoId) : Blueprint V uses BlobKey
  | writeContent (h : uses .blob) (key : BlobKey) (content : ByteArray) : Blueprint V uses Unit
  | readContent (h : uses .blob) (key : BlobKey) : Blueprint V uses ByteArray

namespace Blueprint

variable {uses : OpKind → Prop} {u v : OpNest}

/-- The program over a union, with its operations put into the union at the places. -/
def build (places : u.Places uses) : {α : Type} → Blueprint V uses α → Program u.Op V α
  | _, @pure _ _ _ _ a => Program.pure a
  | _, @bind _ _ _ _ _ first next => (first.build places).bind fun a => (next a).build places
  | _, @map _ _ _ _ _ _ f first => (first.build places).map f
  | _, @followedBy _ _ _ _ _ first second => (first.build places).followedBy (second.build places)
  | _, @sequence _ _ _ _ _ _ parts => Program.sequence (List.ofFn fun i => (parts i).build places)
  | _, insertRecord h id key creator =>
    @Program.insertRecord u.Op V (places .metadata h).includes id key creator
  | _, getRecord h id => @Program.getRecord u.Op V (places .metadata h).includes id
  | _, generateKey h id => @Program.generateKey u.Op V (places .blob h).includes id
  | _, writeContent h key content =>
    @Program.writeContent u.Op V (places .blob h).includes key content
  | _, readContent h key => @Program.readContent u.Op V (places .blob h).includes key

/-- An operation of a kind that is used, in two unions, at the places for its kind. -/
inductive SameOperation (places : u.Places uses) (places' : v.Places uses) :
    u.Op → v.Op → Prop where
  | intro {k : OpKind} (h : uses k) (op : k.Op) :
    SameOperation places places' ((places k h).includes.inject op)
      ((places' k h).includes.inject op)

theorem build_alike (text : Blueprint V uses α) (places : u.Places uses)
    (places' : v.Places uses) :
    (text.build places).Alike (SameOperation places places') (text.build places') := by
  induction text with
  | pure a => exact .pure a
  | bind first next ihFirst ihNext => exact ihFirst.bind ihNext
  | map f first ih => exact ih.map f
  | followedBy first second ihFirst ihSecond => exact ihFirst.bind fun _ => ihSecond
  | sequence n parts ih =>
    refine Program.Alike.foldl_appending (List.forall₂_iff_get.2 ⟨by simp, ?_⟩) (.pure [])
    intro i hi hi'
    simpa using ih _
  | insertRecord h id key creator =>
    exact Tree.Alike.perform (.intro h (MetadataOp.insertRecord id key creator))
  | getRecord h id => exact Tree.Alike.perform (.intro h (MetadataOp.getRecord id))
  | generateKey h id => exact Tree.Alike.perform (.intro h (BlobOp.generateKey id))
  | writeContent h key content =>
    exact Tree.Alike.perform (.intro h (BlobOp.writeContent key content))
  | readContent h key => exact Tree.Alike.perform (.intro h (BlobOp.readContent key))

/-- An operation of a program is of the arm at the place for its kind. -/
theorem SameOperation.index_eq {places : u.Places uses} {places' : v.Places uses} {op : u.Op}
    {op' : v.Op} (same : SameOperation places places' op op') :
    ∃ k h, u.index op = (places k h).index := by
  obtain ⟨h, op⟩ := same
  exact ⟨_, h, OpNest.Place.index_inject _ op⟩

/-- An operation is handled alike in two unions with the same handlers at the places. -/
theorem SameOperation.handler_eq {places : u.Places uses} {places' : v.Places uses}
    {handlers : OpNest.Handlers C σ V u} {handlers' : OpNest.Handlers C σ V v}
    (served : ∀ k h, (places k h).handler handlers = (places' k h).handler handlers')
    {op : u.Op} {op' : v.Op} (same : SameOperation places places' op op') :
    handlers.handler op = handlers'.handler op' := by
  obtain ⟨h, op⟩ := same
  rw [OpNest.Place.handler_inject, OpNest.Place.handler_inject, served]

section Observed

variable [Carries V α] (text : Blueprint V uses α) {places : u.Places uses}
  {handlers : OpNest.Handlers C σ V u}

/-- Over two unions with the same handlers at the places, the same is observed of a program. -/
theorem observe_build {places' : v.Places uses} {handlers' : OpNest.Handlers C σ V v}
    (served : ∀ k h, (places k h).handler handlers = (places' k h).handler handlers')
    (w : World σ) :
    let o := ((text.build places).execute handlers.handler.recorded).observe w
    let o' := ((text.build places').execute handlers'.handler.recorded).observe w
    o'.plain = o.plain ∧
      List.Forall₂ (SameOperation places places') o.operations o'.operations := by
  refine Action.observe_of_corresponding ?_ w
  refine Congruence.execute_of_alike _ (fun op op' same => ?_) (text.build_alike places places')
  unfold Handler.recorded
  rw [same.handler_eq served]
  exact Action.corresponding_recorded same _

/-- Nothing is received at a number where no operation of the program is placed. -/
theorem received_observe_build (handlers : OpNest.Handlers C σ V u) (w : World σ) {n : Nat}
    (unused : ∀ k h, (places k h).index ≠ n) :
    u.received n
      (((text.build places).execute handlers.handler.recorded).observe w).operations = [] := by
  -- a program compared with itself: each of its operations is one at a place
  have alike : ∀ k h, (places k h).handler handlers = (places k h).handler handlers :=
    fun _ _ => rfl
  obtain ⟨-, operations⟩ := text.observe_build alike w
  refine List.filter_eq_nil_iff.2 fun op hop => ?_
  obtain ⟨k, h, index⟩ := (List.forall₂_same.1 operations op hop).index_eq
  simpa [index] using unused k h

/-- What is observed of a program does not depend on the union that it is put over. Over a union
nested to the right in any way, with other operations in it or without, the program does the same
as over the union of all five operations, if at the places of its operations the same handlers
stand: it comes to the same outcome with the same trace, leaves the same state and reports the
same, and hands over the same operations in the same order. The handlers at all places that it does
not use receive nothing. So a program that uses only one kind of operations never reaches a handler
of the other kind. -/
theorem union_independent (places : u.Places uses) (handlers : OpNest.Handlers C σ V u)
    (serving : (k : OpKind) → Handler C σ k.Op V)
    (served : ∀ k h, (places k h).handler handlers = serving k) (w : World σ) :
    let nested := ((text.build places).execute handlers.handler.recorded).observe w
    let photo := ((text.build fun k _ => OpNest.photoPlace k).execute
      ((serving .metadata).sum (serving .blob)).recorded).observe w
    (nested.outcome = photo.outcome ∧ nested.state = photo.state ∧
        nested.events = photo.events ∧
        List.Forall₂ (SameOperation (fun k _ => OpNest.photoPlace k) places) photo.operations
          nested.operations) ∧
      (∀ n, (∀ k h, (places k h).index ≠ n) → u.received n nested.operations = []) ∧
      (∀ k, ¬ uses k → (∀ place : u.Place k, u.received place.index nested.operations = []) ∧
        OpNest.photo.received (OpNest.photoPlace k).index photo.operations = []) ∧
      nested.plain = ((text.build places).execute handlers.handler).run w ∧
      photo.plain = ((text.build fun k _ => OpNest.photoPlace k).execute
        ((serving .metadata).sum (serving .blob))).run w := by
  let both : OpNest.Handlers C σ V .photo := .pair (serving .metadata) (.only (serving .blob))
  have photoServed : ∀ k (h : uses k),
      (OpNest.photoPlace k).handler both = (places k h).handler handlers := by
    intro k h
    rw [served]
    cases k <;> rfl
  have elsewhere {v : OpNest} (places : v.Places uses) {k : OpKind} (hk : ¬ uses k)
      (place : v.Place k) : ∀ k' h, (places k' h).index ≠ place.index :=
    fun k' h same => hk (OpNest.Place.kind_unique same ▸ h)
  obtain ⟨plain, operations⟩ := text.observe_build photoServed w
  obtain ⟨outcome, world⟩ := Prod.mk.inj plain
  obtain ⟨state, events⟩ := World.mk.inj world
  refine ⟨⟨outcome, state, events, operations⟩, fun n => text.received_observe_build handlers w,
    fun k hk => ⟨fun place => ?_, ?_⟩, Program.plain_observe_execute _ _ w,
    Program.plain_observe_execute _ _ w⟩
  · exact text.received_observe_build handlers w (elsewhere places hk place)
  · exact text.received_observe_build both w
      (elsewhere (fun k _ => OpNest.photoPlace k) hk (OpNest.photoPlace k))

end Observed

/-- Saving a photo over a union with further operations calls on no handler for these. -/
theorem union_independent_savePhoto :
    let text : Blueprint Value (fun _ => True) Unit :=
      .bind (.generateKey trivial ⟨"p-1"⟩) fun key =>
        .bind (.insertRecord trivial ⟨"p-1"⟩ key "Ann") fun _ => .writeContent trivial key ⟨#[1]⟩
    let u : OpNest := .pair (.other String) (.pair (.kind .blob) (.only (.kind .metadata)))
    let places : u.Places fun _ => True
      | .metadata, _ => .there _ (.there _ .itself)
      | .blob, _ => .there _ (.here _)
    let s : Services .immediate Supplied := Supplied.services .whole
    let handlers : OpNest.Handlers .immediate Supplied Value u :=
      .pair (fun wording => Action.abort (.other wording))
        (.pair s.blobs.handler (.only s.metadata.handler))
    let serving : (k : OpKind) → Handler .immediate Supplied k.Op Value
      | .metadata => s.metadata.handler
      | .blob => s.blobs.handler
    let p : Program u.Op Value Unit := .savePhoto ⟨"p-1"⟩ "Ann" ⟨#[1]⟩
    text.build places = p ∧ (∀ k h, (places k h).handler handlers = serving k) ∧
      u.received 0
        ((p.execute handlers.handler.recorded).observe ⟨.ofLists [] [], #[]⟩).operations = [] := by
  intro text u places s handlers serving p
  have served : ∀ k h, (places k h).handler handlers = serving k := by
    intro k h
    cases k <;> rfl
  refine ⟨rfl, served, (text.union_independent places handlers serving served _).2.1 0 ?_⟩
  intro k h
  cases k <;> simp [places, OpNest.Place.index]

end Blueprint

end PhotoArchive
