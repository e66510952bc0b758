import PhotoArchive.Proofs.Call
import PhotoArchive.Proofs.Sequencing
import PhotoArchive.Proofs.Telling

/-!
# The completion of a program

Carrying a program out reports one thing that its operations do not: that it is finished, after so
many operations. The meaning of a program reports nothing of its own, so the two are compared. A run
that comes to a value reports its completion once and at its end, with the number of operations
that were handed over, and a run that ends in any other way does not. In a trace that number is
the number of lines.
-/
namespace PhotoArchive

variable {C : Context} {σ O V α β : Type}

/-! ## What actions report -/

def Event.isFinished : Event → Bool
  | .finished _ => true
  | _ => false

/-- From every world, the action reports no completion. -/
def Action.Silent (x : Action C σ α) : Prop :=
  ∀ w, ∃ more, (x.run w).2.events.toList = w.events.toList ++ more ∧
    ∀ e ∈ more, e.isFinished = false

namespace Action

theorem silent_of_same {x : Action C σ α} (same : ∀ w, (x.run w).2.events = w.events) :
    x.Silent :=
  fun w => ⟨[], by rw [same, List.append_nil], nofun⟩

theorem silent_pure (a : α) : (pure a : Action C σ α).Silent :=
  silent_of_same fun _ => rfl

theorem silent_abort (reason : Abort) : (abort reason : Action C σ α).Silent :=
  silent_of_same fun _ => rfl

theorem Silent.bind {x : Action C σ α} {f : α → Action C σ β} (hx : x.Silent)
    (hf : ∀ a, (f a).Silent) : (x >>= f).Silent := by
  intro w
  obtain ⟨more, reported, silent⟩ := hx w
  rcases run : x.run w with ⟨s | r, w₁⟩
  · rw [run] at reported
    refine ⟨more, ?_, silent⟩
    rw [run_bind_error run, reported]
  · rw [run] at reported
    obtain ⟨later, reported', silent'⟩ := hf r.value w₁
    refine ⟨more ++ later, ?_, List.forall_mem_append.mpr ⟨silent, silent'⟩⟩
    rw [run_bind_ok run, reported', reported, List.append_assoc]

theorem Silent.narrate {x : Action .immediate σ α} (hx : x.Silent) (line : String) :
    (x.narrate line).Silent := by
  intro w
  obtain ⟨more, reported, silent⟩ := hx w
  refine ⟨more, ?_, silent⟩
  rw [← reported]
  simp only [Action.narrate]
  rcases x.run w with ⟨s | r, w₁⟩ <;> rfl

end Action

def Handler.Silent (h : Handler C σ O V) : Prop :=
  ∀ op, (h op).Silent

/-- Sequencing respects that no completion is reported. -/
def Invariance.silent (C : Context) (σ : Type) : Invariance C σ where
  Holds := Action.Silent
  pure := Action.silent_pure
  bind := Action.Silent.bind
  wrongType expected := Action.silent_abort (.wrongType expected)

/-! ### The services that there are -/

/-- Narrated services report no completion if those that they narrate do not. -/
theorem Services.silent_narrated {s : Services .immediate σ}
    (silent : (Invariance.silent .immediate σ).OnServices s) :
    (Invariance.silent .traced σ).OnServices s.narrated where
  insertRecord id key creator := (silent.insertRecord id key creator).narrate _
  getRecord id := (silent.getRecord id).narrate _
  generateKey id := (silent.generateKey id).narrate _
  writeContent key content := (silent.writeContent key content).narrate _
  readContent key := (silent.readContent key).narrate _

theorem Supplied.silent_services (cell : Slot σ Supplied) :
    (Invariance.silent .immediate σ).OnServices (Supplied.services cell) where
  insertRecord _ _ _ := Action.silent_of_same fun _ => rfl
  getRecord _ := (Action.silent_of_same fun _ => rfl).bind fun
    | some record => Action.silent_pure record
    | none => Action.silent_abort _
  generateKey _ := Action.silent_pure _
  writeContent _ _ := Action.silent_of_same fun _ => rfl
  readContent _ := (Action.silent_of_same fun _ => rfl).bind fun
    | some content => Action.silent_pure content
    | none => Action.silent_abort _

theorem Settings.silent_announce (settings : Settings) (op : OperationName) :
    ∀ e ∈ settings.announce op, e.isFinished = false := by
  unfold announce
  split
  · rintro e (_ | _)
    · rfl
    · contradiction
  · nofun

theorem Call.silent_reported (settings : Settings) (op : OperationName) (c : Call σ α) :
    ∀ e ∈ c.reported settings op, e.isFinished = false := by
  intro e mem
  obtain ⟨_, rfl⟩ | ⟨_, rfl⟩ | ⟨_, rfl⟩ := mem_reported settings op mem <;> rfl

theorem Action.silent_ofCall (settings : Settings) (op : OperationName)
    (call : σ → Call σ (Option α)) : (ofCall settings op call).Silent := by
  intro w
  refine ⟨settings.announce op ++ (call w.state).reported settings op, ?_, ?_⟩
  · rw [run_ofCall_eq]
    exact Array.toList_appendList
  · exact List.forall_mem_append.mpr
      ⟨settings.silent_announce op, (call w.state).silent_reported settings op⟩

theorem Backends.silent_services (b : Backends σ) (settings : Settings) :
    (Invariance.silent .awaited σ).OnServices (b.services settings) where
  insertRecord id key creator :=
    Action.silent_ofCall settings .insertRecord fun s =>
      (b.metadata.put ⟨id, key, creator⟩ s).map fun _ =>
        some (⟨id, key, creator⟩ : MetadataRecord)
  getRecord id := Action.silent_ofCall settings .getRecord (b.metadata.get id)
  generateKey id :=
    Action.silent_ofCall settings .generateKey fun s =>
      .immediate (.ok (some (BlobKey.derive id))) [] s
  writeContent key content :=
    Action.silent_ofCall settings .writeContent fun s => (b.blobs.put key content s).map some
  readContent key :=
    Action.silent_ofCall settings .readContent fun s => (b.blobs.get key s).map some

/-! ## The report of the end -/

/-- How the end of a program is reported in what is observed of it. The same program is observed
beside it with the reports of its operations alone. A value is reported once, after all else, with
the number of operations that were handed over, and nothing is reported of an end without a value.
Only a value of another type than the one that the program expects, which is given by name, is
reported before it breaks the program off. -/
structure Observation.ReportsEnd (run told : Observation C σ O α) (expected : String)
    (ofType : Prop) : Prop where
  same : run.outcome = told.outcome ∧ run.operations = told.operations ∧ run.state = told.state
  value : ∀ r, run.outcome = .ok r →
    run.events = told.events.push (.finished run.operations.length)
  stopped : ∀ s, run.outcome = .error s →
    run.events = told.events ∨
      s = C.abort (.wrongType expected) ∧ ¬ ofType ∧
        run.events = told.events.push (.finished run.operations.length)

namespace Program

/-- From the value of its tree a program ends without a value only if that value is not of its type,
which breaks it off. -/
theorem error_of_counted_ok [Carries V α] {h : Handler C σ O V} {p : Program O V α}
    {w w₁ : World σ} {r : Noted C (V × Nat)} {s : C.Stop}
    (hc : (p.root.counted h 0).run w = (.ok r, w₁))
    (ends : ((p.meaning h).run w).1 = .error s) :
    s = C.abort (.wrongType (Carries.typeName V α)) ∧ ¬ p.YieldsType h := by
  rw [meaning_eq, Action.run_bind_ok hc, Action.unwrap] at ends
  cases looked : (Carries.unwrap? r.value.1 : Option α) with
  | some a =>
    rw [looked] at ends
    cases ends
  | none =>
    rw [looked] at ends
    cases ends
    refine ⟨rfl, fun yields => ?_⟩
    have tree : (p.root.meaning h).run w = (.ok ⟨r.value.1, r.note⟩, w₁) := by
      rw [← Tree.fst_counted h p.root 0, Action.run_map_ok hc]
    obtain ⟨a, ha⟩ : IsOf α r.value.1 := yields _ _ _ tree
    rw [← ha, Carries.unwrap?_wrap] at looked
    cases looked

theorem reportsEnd [Carries V α] (h : Handler C σ O V) (p : Program O V α) (w : World σ) :
    ((p.execute h.recorded).observe w).ReportsEnd ((p.meaning h.recorded).observe w)
      (Carries.typeName V α) (p.YieldsType h) := by
  obtain ⟨outcome, state, operations⟩ := observe_execute_eq_meaning h p w
  match hc : (p.root.counted h.recorded 0).run (w.withLog []) with
  | (.error s, w₁) =>
    obtain ⟨meant, carried⟩ := run_of_counted_error hc
    refine ⟨⟨outcome, operations, state⟩, fun r value => ?_, fun _ _ => .inl ?_⟩
    · simp [Action.observe, carried] at value
    · simp [Action.observe, carried, meant]
  | (.ok r, w₁) =>
    obtain ⟨o, meant, carried⟩ := run_of_counted_ok hc
    have dispatched : r.value.2 = w₁.state.2.length := by
      simpa [World.withLog] using p.root.counted_recorded h hc
    have reported : ((p.execute h.recorded).observe w).events =
        ((p.meaning h.recorded).observe w).events.push
          (.finished ((p.execute h.recorded).observe w).operations.length) := by
      simp only [Action.observe, carried, meant, dispatched]
    refine ⟨⟨outcome, operations, state⟩, fun _ _ => reported, fun s ends => .inr ?_⟩
    obtain ⟨broken, other⟩ := error_of_counted_ok hc (outcome.symm.trans ends)
    exact ⟨broken, fun yields => other yields.recorded, reported⟩

/-- A program under narrated services comes to its value with a line for each operation. -/
theorem size_eq_operations [Carries V α] {line : O → String} {h : Handler .traced σ O V}
    (leaves : h.LeavesLines line) (p : Program O V α) (w : World σ) {r : Noted .traced α}
    (value : ((p.execute h.recorded).observe w).outcome = .ok r) :
    r.note.size = ((p.execute h.recorded).observe w).operations.length := by
  rw [Trace.size_eq_length, p.lines_eq_operations leaves w value, List.length_map]

/-- The completion of a program is reported exactly. Under every handler, in every context and from
every state, a program that comes to a value reports it once, after all that its operations report,
with the number of operations that the handler was handed, and a program that ends otherwise does
not, unless the handler has answered with something of another type than it promised. No handler of
a program that can be built does that if it answers each operation as it is to be answered. The
operations report no completion under the services that there are, and under narrated services the
number of operations is that of the lines in the trace. -/
theorem completion_reported [CarriesAnswers V] [Carries V α] :
    (∀ (C : Context) (σ O : Type) (h : Handler C σ O V) (p : Program O V α) (w : World σ),
      let run := (p.execute h.recorded).observe w
      let told := (p.meaning h.recorded).observe w
      run.ReportsEnd told (Carries.typeName V α) (p.YieldsType h) ∧
        (h.Silent → ∃ more, told.events.toList = w.events.toList ++ more ∧
          ∀ e ∈ more, e.isFinished = false) ∧
        run.plain = (p.execute h).run w ∧ told.plain = (p.meaning h).run w) ∧
      (∀ (C : Context) (σ : Type) (u : OpUnion) (h : Handler C σ u.Op V) (p : Program u.Op V α),
        p.Built → (∀ op w r w₁, (h op).run w = (.ok r, w₁) → u.Answers op r.value) →
          p.YieldsType h) ∧
      (∀ (σ : Type) (u : OpUnion) (h : Handler .traced σ u.Op V), u.Narrated h →
        ∀ (p : Program u.Op V α) (w : World σ) r,
          let run := (p.execute h.recorded).observe w
          run.outcome = .ok r → r.note.size = run.operations.length) ∧
      ∀ σ : Type,
        (∀ cell : Slot σ Supplied,
          ((Supplied.services cell).handler : Handler _ _ PhotoOp V).Silent ∧
            ((Supplied.services cell).narrated.handler : Handler _ _ PhotoOp V).Silent) ∧
        ∀ (b : Backends σ) (settings : Settings),
          ((b.services settings).handler : Handler _ _ PhotoOp V).Silent := by
  refine ⟨fun C σ O h p w => ⟨p.reportsEnd h w, fun silent => ?_, ?_, ?_⟩, ?_, ?_,
    fun σ => ⟨?_, ?_⟩⟩
  · obtain ⟨more, reported, none⟩ := (Invariance.silent C σ).meaning silent p w
    rw [← p.plain_observe_meaning] at reported
    exact ⟨more, reported, none⟩
  · exact p.plain_observe_execute h w
  · exact p.plain_observe_meaning h w
  · intro C σ u h p built answered
    exact built.yieldsType fun {_ _ _ _} => answered _ _ _ _
  · exact fun σ u h narrated p w r => p.size_eq_operations narrated.leavesLines w
  · intro cell
    have silent := Supplied.silent_services cell
    exact ⟨silent.handler, (Services.silent_narrated silent).handler⟩
  · exact fun b settings => (b.silent_services settings).handler

/-- Saving a photo under narrated supplied maps reports its completion after three operations, and
leaves three lines. -/
theorem completion_reported_savePhoto :
    let p : Program PhotoOp Value Unit := .savePhoto ⟨"p-1"⟩ "Ann" ⟨#[1]⟩
    let h : Handler .traced Supplied PhotoOp Value := (Supplied.services .whole).narrated.handler
    let run := (p.execute h.recorded).observe ⟨⟨.empty, .empty⟩, #[]⟩
    h.Silent ∧ p.YieldsType h ∧
      ∃ r, run.outcome = .ok r ∧ r.note.size = 3 ∧ run.events = #[.finished 3] := by
  intro p h run
  have built : Built (u := .photo) p := .savePhoto (.here _) (.there _ .itself) _ _ _
  obtain ⟨reported, typed, counted, silent⟩ := completion_reported (V := Value) (α := Unit)
  obtain ⟨ends, -⟩ := reported _ _ _ h p ⟨⟨.empty, .empty⟩, #[]⟩
  have yields : p.YieldsType h :=
    typed _ _ .photo h p built fun _ _ _ _ => (OpUnion.handles_services _).answers
  -- the operations are carried out as the program means, part by part
  have value : ∃ r, run.outcome = .ok r := ⟨_, ends.same.1.trans rfl⟩
  have operations : run.operations.length = 3 := congrArg List.length ends.same.2.1
  obtain ⟨r, value⟩ := value
  refine ⟨((silent Supplied).1 .whole).2, yields, r, value, ?_, ?_⟩
  · exact (counted _ .photo h (OpUnion.narrated_services _) p _ r value).trans operations
  · rw [ends.value r value, operations]
    rfl

/-- A program is broken off after it has reported that it is finished, if the handler answers the
asking for a record with something else. -/
theorem completion_reported_mistyped :
    let p : Program MetadataOp Value MetadataRecord := .getRecord ⟨"p-1"⟩
    let h : Handler .immediate Unit MetadataOp Value := fun _ => Pure.pure .unit
    let run := (p.execute h.recorded).observe ⟨(), #[]⟩
    run.outcome = .error (.wrongType (Carries.typeName Value MetadataRecord)) ∧
      run.events = #[.finished 1] := by
  intro p h run
  have carried : run = ⟨.error (.wrongType (Carries.typeName Value MetadataRecord)), (),
      [.getRecord ⟨"p-1"⟩], #[.finished 1]⟩ := by
    unfold run
    rw [execute_eq]
    rfl
  rw [carried]
  exact ⟨rfl, rfl⟩

end Program

end PhotoArchive
