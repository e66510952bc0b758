import Mathlib.Algebra.GroupWithZero.Nat
import PhotoArchive.Proofs.HexCodec
import PhotoArchive.Proofs.Telling

/-!
# The text of a trace

A trace is shown as its lines with a line break between each two of them. Whether the lines are to
be had back from the text depends on the identifiers of the photos, which may be any text: the
openings of the lines and the digits of the keys have no line break in them, but an identifier may
have one, and its operation is then shown on several lines.
-/
namespace PhotoArchive

/-! ## The lines of a text -/

namespace Text

def lines (s : String) : List String :=
  (s.split '\n').toList.map String.Slice.copy

def OneLine (s : String) : Prop :=
  '\n' ∉ s.toList

theorem lines_eq (s : String) : lines s = (s.toList.splitOn '\n').map String.ofList :=
  String.toList_split_char

theorem lines_of_oneLine {s : String} (h : OneLine s) : lines s = [s] := by
  rw [lines_eq, List.splitOn_eq_singleton h, List.map_singleton, String.ofList_toList]

theorem splitOn_intercalate_singleton {α : Type} [BEq α] [LawfulBEq α] (a : α)
    {parts : List (List α)} (hne : parts ≠ []) :
    ([a].intercalate parts).splitOn a = parts.flatMap (List.splitOn a) := by
  induction parts with
  | nil => contradiction
  | cons part rest ih =>
    cases rest with
    | nil => simp
    | cons next rest =>
      rw [List.intercalate_cons_cons, List.append_assoc, List.singleton_append,
        List.splitOn_append_cons_self, ih (List.cons_ne_nil _ _)]
      rfl

/-- The lines of texts that are joined with line breaks are the lines of the texts. -/
theorem lines_intercalate {ls : List String} (hne : ls ≠ []) :
    lines ("\n".intercalate ls) = ls.flatMap lines := by
  have parts : ls.map String.toList ≠ [] := fun h => hne (List.map_eq_nil_iff.mp h)
  rw [lines_eq, String.toList_intercalate, show "\n".toList = ['\n'] from rfl,
    splitOn_intercalate_singleton '\n' parts, List.flatMap_map, List.map_flatMap]
  exact congrArg ls.flatMap (funext fun s => (lines_eq s).symm)

theorem length_splitOn {α : Type} [BEq α] (a : α) (l : List α) :
    (l.splitOn a).length = l.count a + 1 := by
  induction l with
  | nil => rfl
  | cons x l ih =>
    rw [List.splitOn_cons_eq_if_modifyHead, List.count_cons]
    split
    · rw [List.length_cons, ih]
    · rw [List.length_modifyHead, ih, Nat.add_zero]

theorem length_lines (s : String) : (lines s).length = s.toList.count '\n' + 1 := by
  rw [lines_eq, List.length_map, length_splitOn]

/-- There are more lines than texts as soon as one of the texts has a line break. -/
theorem length_flatMap_lines (ls : List String) :
    (ls.flatMap lines).length = ls.length + (ls.map fun s => s.toList.count '\n').sum := by
  induction ls with
  | nil => rfl
  | cons s ls ih =>
    rw [List.flatMap_cons, List.length_append, length_lines, ih, List.map_cons, List.sum_cons,
      List.length_cons]
    omega

theorem length_flatMap_lines_iff {ls : List String} :
    (ls.flatMap lines).length = ls.length ↔ ∀ s ∈ ls, OneLine s := by
  rw [length_flatMap_lines, Nat.add_eq_left, List.sum_eq_zero_iff_forall_eq_nat,
    List.forall_mem_map]
  simp only [List.count_eq_zero, OneLine]

/-- Texts are their own lines exactly if none of them has a line break. -/
theorem flatMap_lines_eq_self_iff {ls : List String} :
    ls.flatMap lines = ls ↔ ∀ s ∈ ls, OneLine s := by
  refine ⟨fun same => length_flatMap_lines_iff.mp (congrArg List.length same), fun one => ?_⟩
  have each : ls.map lines = ls.map fun s => [s] :=
    List.map_congr_left fun s mem => lines_of_oneLine (one s mem)
  rw [List.flatMap_def, each, ← List.flatMap_def, List.flatMap_singleton']

end Text

/-! ## Lines of operations -/

/-- The subject goes on one line: a photo whose identifier has no line break, or any content. -/
def Subject.OneLine : Subject → Prop
  | .photo id => Text.OneLine id.text
  | .content _ => True

theorem Subject.oneLine_text (subject : Subject) :
    Text.OneLine subject.text ↔ subject.OneLine := by
  cases subject with
  | photo id => rfl
  | content key =>
    refine iff_true_intro fun mem => ?_
    rw [text, BlobKey.toHex, Text.toHex, String.toList_ofList] at mem
    exact absurd (Text.isHexDigit_of_mem_hexChars mem).1 (by decide)

theorem PhotoOp.oneLine_describe (op : PhotoOp) :
    Text.OneLine op.describe ↔ op.subject.OneLine := by
  have opening : '\n' ∉ op.name.opening.toList := by
    cases op.name <;> decide
  rw [← Subject.oneLine_text, describe_eq, Text.OneLine, String.toList_append, List.mem_append,
    or_iff_right opening]
  rfl

namespace TracedRun

variable {t : Trace} {ops : List PhotoOp}

/-- The text of a trace has the lines of its operations. -/
theorem lines_text (run : TracedRun t ops) (issued : ops ≠ []) :
    Text.lines t.text = t.toList.flatMap Text.lines := by
  refine Text.lines_intercalate ?_
  rw [run.toList_eq]
  exact fun none => issued (List.map_eq_nil_iff.mp none)

theorem forall_oneLine_iff (run : TracedRun t ops) :
    (∀ line ∈ t.toList, Text.OneLine line) ↔ ∀ op ∈ ops, op.subject.OneLine := by
  simp only [run.toList_eq, List.forall_mem_map, PhotoOp.oneLine_describe]

/-- The lines of a trace are to be had back from its text exactly if no identifier of a photo that
an operation is about has a line break, and then there are as many of them as operations. In every
case the text has the lines of the descriptions of the operations, in order. Among runs whose
identifiers have no line break the text tells the operations apart as the lines do. -/
theorem lines_of_text (run : TracedRun t ops) (issued : ops ≠ []) :
    Text.lines t.text = ops.flatMap (fun op => Text.lines op.describe) ∧
      (Text.lines t.text = t.toList ↔ ∀ op ∈ ops, op.subject.OneLine) ∧
      ((Text.lines t.text).length = ops.length ↔ ∀ op ∈ ops, op.subject.OneLine) ∧
      ((∀ op ∈ ops, op.subject.OneLine) →
        ∀ t' ops', TracedRun t' ops' → ops' ≠ [] → (∀ op ∈ ops', op.subject.OneLine) →
          t.text = t'.text → PhotoOp.Alike ops ops') := by
  have back {t ops} (run : TracedRun t ops) (issued : ops ≠ []) :
      Text.lines t.text = t.toList ↔ ∀ op ∈ ops, op.subject.OneLine := by
    rw [run.lines_text issued, Text.flatMap_lines_eq_self_iff, run.forall_oneLine_iff]
  refine ⟨?_, back run issued, ?_, fun one t' ops' run' issued' one' text => ?_⟩
  · rw [run.lines_text issued, run.toList_eq, List.flatMap_map]
  · rw [run.lines_text issued, ← run.forall_oneLine_iff, ← Text.length_flatMap_lines_iff,
      run.toList_eq, List.length_map]
  · rw [← PhotoOp.map_describe_eq_iff, ← run.toList_eq, ← run'.toList_eq,
      ← (back run issued).mpr one, ← (back run' issued').mpr one', text]

/-- A photo is saved under an identifier with blanks in it. -/
theorem lines_of_text_savePhoto :
    let id : PhotoId := ⟨"p 1"⟩
    let key := BlobKey.derive id
    let ops : List PhotoOp := [.inr (.generateKey id), .inl (.insertRecord id key "Ann"),
      .inr (.writeContent key ⟨#[1]⟩)]
    let t : Trace := .ofList (ops.map PhotoOp.describe)
    TracedRun t ops ∧ ops ≠ [] ∧ Text.lines t.text = t.toList := by
  intro id key ops t
  have run : TracedRun t ops :=
    .procedure (Supplied.services .whole) (.savePhoto id "Ann" ⟨#[1]⟩) ⟨.ofLists [] [], #[]⟩ rfl
  have here : Text.OneLine id.text := by
    unfold Text.OneLine
    decide
  have one : ∀ op ∈ ops, op.subject.OneLine := by
    simp only [ops, List.forall_mem_cons]
    exact ⟨here, here, trivial, nofun⟩
  obtain ⟨-, back, -, -⟩ := run.lines_of_text (List.cons_ne_nil _ _)
  exact ⟨run, List.cons_ne_nil _ _, back.mpr one⟩

/-- One operation whose identifier has a line break in it is shown as two operations are. -/
theorem break_untold :
    let id : PhotoId := ⟨"p-1\nGet metadata record with ID p-2"⟩
    let t : Trace := .ofList ["Generate key for ID p-1\nGet metadata record with ID p-2"]
    let t' : Trace := .ofList ["Generate key for ID p-1", "Get metadata record with ID p-2"]
    TracedRun t [.inr (.generateKey id)] ∧
      TracedRun t' [.inr (.generateKey ⟨"p-1"⟩), .inl (.getRecord ⟨"p-2"⟩)] ∧
      t.text = t'.text ∧ Text.lines t.text = t'.toList ∧ t.toList ≠ t'.toList := by
  intro id t t'
  let s : Services .immediate Supplied := Supplied.services .whole
  let kept : MetadataRecord := ⟨⟨"p-2"⟩, BlobKey.derive ⟨"p-2"⟩, "Ann"⟩
  have run : TracedRun t [.inr (.generateKey id)] :=
    .procedure s (.generateKey id) ⟨.ofLists [] [], #[]⟩ rfl
  have run' : TracedRun t' [.inr (.generateKey ⟨"p-1"⟩), .inl (.getRecord ⟨"p-2"⟩)] :=
    .procedure s (.bind (.generateKey ⟨"p-1"⟩) fun _ => .getRecord ⟨"p-2"⟩)
      ⟨.ofLists [kept] [], #[]⟩ rfl
  have text : t.text = t'.text := by decide
  have one : ∀ line ∈ t'.toList, Text.OneLine line := by
    unfold Text.OneLine
    decide
  refine ⟨run, run', text, ?_, by decide⟩
  rw [text, run'.lines_text (List.cons_ne_nil _ _), Text.flatMap_lines_eq_self_iff.mpr one]

end TracedRun

end PhotoArchive
