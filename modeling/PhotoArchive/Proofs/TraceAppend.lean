import PhotoArchive.Proofs.TraceText

/-!
# Traces one after the other

A trace goes on with the lines of a later one. The text goes on with a line break and the later
text, unless one of the two traces has no lines: a line break stands between lines, and the line
that is written may be empty. Where the lines have no line break in them, the text of a trace that
has any lines tells the trace.
-/
namespace PhotoArchive.Trace

/-! ## Lines -/

theorem toList_eq_nil_iff {t : Trace} : t.toList = [] ↔ t = empty := by
  constructor
  · intro none
    exact ext_toList none
  · rintro rfl
    rfl

@[simp] theorem empty_append (t : Trace) : empty ++ t = t := by
  apply ext_toList
  simp

@[simp] theorem append_empty (t : Trace) : t ++ empty = t := by
  apply ext_toList
  simp

theorem append_assoc (t later last : Trace) : t ++ later ++ last = t ++ (later ++ last) := by
  apply ext_toList
  simp

theorem push_eq_append (t : Trace) (line : String) : t.push line = t ++ single line := by
  apply ext_toList
  simp

/-! ## Texts -/

theorem text_single (line : String) : (single line).text = line :=
  String.intercalate_singleton

/-- Between the texts of two traces that have lines there is one line break. -/
theorem text_append {t later : Trace} (lines : t ≠ empty) (more : later ≠ empty) :
    (t ++ later).text = t.text ++ "\n" ++ later.text := by
  unfold text
  rw [toList_append]
  apply String.intercalate_append_of_ne_nil
  · exact fun none => lines (toList_eq_nil_iff.mp none)
  · exact fun none => more (toList_eq_nil_iff.mp none)

/-- One more line is written after a line break, except for the first. -/
theorem text_push (t : Trace) (line : String) :
    (t.push line).text = if t = empty then line else t.text ++ "\n" ++ line := by
  rw [push_eq_append]
  split
  next none => rw [none, empty_append, text_single]
  next lines =>
    have more : single line ≠ empty := fun none => by cases toList_eq_nil_iff.mpr none
    rw [text_append lines more, text_single]

theorem lines_text_eq_iff {t : Trace} (lines : t ≠ empty) :
    Text.lines t.text = t.toList ↔ ∀ line ∈ t.toList, Text.OneLine line := by
  have some : t.toList ≠ [] := fun none => lines (toList_eq_nil_iff.mp none)
  rw [text, Text.lines_intercalate some, Text.flatMap_lines_eq_self_iff]

/-- Traces of lines that have no line break in them are told by their texts. -/
theorem eq_of_text {t u : Trace} (linesT : t ≠ empty) (linesU : u ≠ empty)
    (oneT : ∀ line ∈ t.toList, Text.OneLine line) (oneU : ∀ line ∈ u.toList, Text.OneLine line)
    (same : t.text = u.text) : t = u := by
  apply ext_toList
  rw [← (lines_text_eq_iff linesT).mpr oneT, ← (lines_text_eq_iff linesU).mpr oneU, same]

/-- The empty trace looks like the trace of one empty line. -/
example : empty.text = (single "").text := by decide

/-- Traces are put one after the other as lists of lines are, any two of them, also a trace after
itself; a line that is left is a trace of its own. The text of two traces is that of the one and,
after a line break, that of the other, if both have lines; else it is that of the trace that has
some. A trace that has lines is had back from its text by splitting it at the line breaks just if no
line has one, and two such traces with the same text are the same. -/
theorem append_laws :
    (∀ t later : Trace, (t ++ later).toList = t.toList ++ later.toList ∧
        (t ++ later).size = t.size + later.size) ∧
      (∀ t later last : Trace, t ++ later ++ last = t ++ (later ++ last)) ∧
      (∀ t : Trace, empty ++ t = t ∧ t ++ empty = t) ∧
      (∀ (t : Trace) (line : String), t.push line = t ++ single line ∧
        (t.push line).text = if t = empty then line else t.text ++ "\n" ++ line) ∧
      (∀ t later : Trace, (t ++ later).text =
        if t = empty then later.text
        else if later = empty then t.text
        else t.text ++ "\n" ++ later.text) ∧
      (∀ t : Trace, t ≠ empty →
        (Text.lines t.text = t.toList ↔ ∀ line ∈ t.toList, Text.OneLine line)) ∧
      ∀ t u : Trace, t ≠ empty → u ≠ empty → (∀ line ∈ t.toList, Text.OneLine line) →
        (∀ line ∈ u.toList, Text.OneLine line) → t.text = u.text → t = u := by
  refine ⟨fun t later => ⟨toList_append t later, by simp⟩, append_assoc,
    fun t => ⟨empty_append t, append_empty t⟩,
    fun t line => ⟨push_eq_append t line, text_push t line⟩, fun t later => ?_,
    fun t => lines_text_eq_iff, fun t u => eq_of_text⟩
  by_cases none : t = empty
  · rw [if_pos none, none, empty_append]
  · rw [if_neg none]
    by_cases noMore : later = empty
    · rw [if_pos noMore, noMore, append_empty]
    · rw [if_neg noMore, text_append none noMore]

/-- An empty line on either side of the break between two traces. -/
theorem append_laws_emptyLines :
    let t := ofList ["a", ""]
    let later := ofList ["", "b"]
    let whole := ofList ["a", "", "", "b"]
    t ++ later ≠ empty ∧ whole ≠ empty ∧ (∀ line ∈ (t ++ later).toList, Text.OneLine line) ∧
      (∀ line ∈ whole.toList, Text.OneLine line) ∧ (t ++ later).text = whole.text ∧
      Text.lines (t ++ later).text = ["a", "", "", "b"] ∧ t ++ later = whole := by
  intro t later whole
  have some : t ++ later ≠ empty := by decide
  have someWhole : whole ≠ empty := by decide
  have one : ∀ line ∈ (t ++ later).toList, Text.OneLine line := by
    unfold Text.OneLine
    decide
  have oneWhole : ∀ line ∈ whole.toList, Text.OneLine line := by
    unfold Text.OneLine
    decide
  have same : (t ++ later).text = whole.text := by decide
  obtain ⟨-, -, -, -, -, back, told⟩ := append_laws
  exact ⟨some, someWhole, one, oneWhole, same, (back _ some).mpr one,
    told _ _ some someWhole one oneWhole same⟩

end PhotoArchive.Trace
