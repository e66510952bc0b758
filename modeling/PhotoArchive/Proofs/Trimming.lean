import Mathlib.Data.List.DropRight
import PhotoArchive.PhotoId

/-!
# Trimming a supplied identifier

A text that is not blank has one core: what is left when the blanks at both ends are taken away,
with a character that is no blank at either end. Reading an identifier yields the core of the text,
and a blank text is refused. So an identifier that has been read is read as it is, and blanks around
a text do not matter, while those inside it are kept.
-/
namespace PhotoArchive

namespace Text

/-! ## Lists of characters -/

structure Trimmed (t : List Char) : Prop where
  first : ∃ c ∈ t.head?, isBlank c = false
  last : ∃ c ∈ t.getLast?, isBlank c = false

/-- Blanks around trimmed characters are dropped, and no more. -/
theorem trimBlank_append {a t b : List Char} (before : ∀ c ∈ a, isBlank c = true)
    (trimmed : Trimmed t) (behind : ∀ c ∈ b, isBlank c = true) :
    trimBlank (a ++ t ++ b) = t := by
  have start : (a ++ t ++ b).dropWhile isBlank = t ++ b := by
    obtain ⟨c, first, kept⟩ := trimmed.first
    obtain ⟨cs, rfl⟩ := List.head?_eq_some_iff.mp first
    rw [List.append_assoc, List.dropWhile_append_of_pos before]
    simp [kept]
  have ends : dropBlankEnd (t ++ b) = t := by
    obtain ⟨c, last, kept⟩ := trimmed.last
    obtain ⟨cs, rfl⟩ := List.getLast?_eq_some_iff.mp last
    have blank : ∀ c ∈ b.reverse, isBlank c = true := fun c mem =>
      behind c (List.mem_reverse.mp mem)
    rw [dropBlankEnd, List.reverse_append, List.dropWhile_append_of_pos blank]
    simp [kept]
  rw [trimBlank, start, ends]

theorem trimBlank_of_blank {s : List Char} (blank : ∀ c ∈ s, isBlank c = true) :
    trimBlank s = [] := by
  rw [trimBlank, List.dropWhile_eq_nil_iff.mpr blank]
  rfl

/-- Characters that are not all blank are trimmed ones with blanks around them. -/
theorem exists_trimmed {s : List Char} (notBlank : ¬ ∀ c ∈ s, isBlank c = true) :
    ∃ a t b, s = a ++ t ++ b ∧ (∀ c ∈ a, isBlank c = true) ∧ Trimmed t ∧
      ∀ c ∈ b, isBlank c = true := by
  have left : s.dropWhile isBlank ≠ [] := fun none => notBlank (List.dropWhile_eq_nil_iff.mp none)
  obtain ⟨c, cs, starts⟩ := List.exists_cons_of_ne_nil left
  have first : isBlank c = false := by
    have kept := List.head?_dropWhile_not isBlank s
    rwa [starts] at kept
  have some : (c :: cs).rdropWhile isBlank ≠ [] := by
    intro none
    have blank := List.rdropWhile_eq_nil_iff.mp none c List.mem_cons_self
    rw [first] at blank
    cases blank
  refine ⟨s.takeWhile isBlank, (c :: cs).rdropWhile isBlank, (c :: cs).rtakeWhile isBlank,
    ?_, fun _ => List.mem_takeWhile_imp, ⟨?_, ?_⟩, fun _ => List.mem_rtakeWhile_imp⟩
  · rw [List.append_assoc, List.rdropWhile_append_rtakeWhile, ← starts,
      List.takeWhile_append_dropWhile]
  · obtain ⟨d, ds, kept⟩ := List.exists_cons_of_ne_nil some
    have starts' := List.rdropWhile_prefix isBlank (c :: cs)
    rw [kept] at starts'
    obtain ⟨rfl, -⟩ := List.cons_prefix_cons.mp starts'
    exact ⟨d, by rw [kept]; rfl, first⟩
  · exact ⟨_, List.getLast?_eq_some_getLast some,
      Bool.eq_false_iff.mpr (List.rdropWhile_last_not isBlank (c :: cs) some)⟩

/-! ## Texts -/

def Blank (s : String) : Prop :=
  ∀ c ∈ s.toList, isBlank c = true

instance (s : String) : Decidable (Blank s) :=
  List.decidableBAll _ s.toList

structure IsCore (s t : String) : Prop where
  trimmed : Trimmed t.toList
  around : ∃ a b, s = a ++ t ++ b ∧ Blank a ∧ Blank b

theorem exists_isCore {s : String} (notBlank : ¬ Blank s) : ∃ t, IsCore s t := by
  obtain ⟨a, t, b, parts, before, trimmed, behind⟩ := exists_trimmed notBlank
  refine ⟨String.ofList t, ⟨?_, String.ofList a, String.ofList b, ?_, ?_, ?_⟩⟩
  · rwa [String.toList_ofList]
  · rw [← String.ofList_append, ← String.ofList_append, ← parts, String.ofList_toList]
  · rwa [Blank, String.toList_ofList]
  · rwa [Blank, String.toList_ofList]

/-- Trimmed characters are their own core. -/
theorem IsCore.self {t : String} (trimmed : Trimmed t.toList) : IsCore t t :=
  ⟨trimmed, "", "", by simp, nofun, nofun⟩

/-- More blanks around a text leave its core. -/
theorem IsCore.pad {s t : String} (core : IsCore s t) {a b : String} (before : Blank a)
    (behind : Blank b) : IsCore (a ++ s ++ b) t := by
  obtain ⟨a', b', rfl, before', behind'⟩ := core.around
  refine ⟨core.trimmed, a ++ a', b' ++ b, by simp only [String.append_assoc], ?_, ?_⟩
  · rw [Blank, String.toList_append]
    exact List.forall_mem_append.mpr ⟨before, before'⟩
  · rw [Blank, String.toList_append]
    exact List.forall_mem_append.mpr ⟨behind', behind⟩

theorem Blank.pad {s : String} (blank : Blank s) {a b : String} (before : Blank a)
    (behind : Blank b) : Blank (a ++ s ++ b) := by
  rw [Blank, String.toList_append, String.toList_append]
  exact List.forall_mem_append.mpr ⟨List.forall_mem_append.mpr ⟨before, blank⟩, behind⟩

end Text

namespace PhotoId

open PhotoArchive.Text (Blank IsCore Trimmed)

theorem parse_of_blank {s : String} (blank : Blank s) : parse s = .error .blank := by
  rw [parse, Text.trimBlank_of_blank blank]

theorem parse_of_isCore {s t : String} (core : IsCore s t) : parse s = .ok ⟨t⟩ := by
  obtain ⟨a, b, rfl, before, behind⟩ := core.around
  have trimmed := Text.trimBlank_append before core.trimmed behind
  rw [← String.toList_append, ← String.toList_append] at trimmed
  rw [parse, trimmed]
  split
  next none =>
    obtain ⟨c, first, -⟩ := core.trimmed.first
    rw [none] at first
    cases first
  next => rw [String.ofList_toList]

/-- A text is read as its core, which it has just if it is not blank. -/
theorem parse_eq_ok_iff {s t : String} : parse s = .ok ⟨t⟩ ↔ IsCore s t := by
  refine ⟨fun read => ?_, parse_of_isCore⟩
  by_cases blank : Blank s
  · cases (parse_of_blank blank).symm.trans read
  · obtain ⟨t', core⟩ := Text.exists_isCore blank
    cases (parse_of_isCore core).symm.trans read
    exact core

/-- A text is refused as blank just if it is nothing but blanks. Any other text is read as its core:
the one text that starts and ends with a character that is no blank, and that the text is but for
blanks around it. What has been read is read as it is, and more blanks around a text change
nothing. -/
theorem parse_trims :
    (∀ s, parse s = .error .blank ↔ Blank s) ∧
      (∀ s, ¬ Blank s → ∃ t, parse s = .ok ⟨t⟩ ∧ IsCore s t ∧ ∀ t', IsCore s t' → t' = t) ∧
      (∀ s id, parse s = .ok id → parse id.text = .ok id) ∧
      ∀ a s b, Blank a → Blank b → parse (a ++ s ++ b) = parse s := by
  refine ⟨fun s => ⟨fun refused => ?_, parse_of_blank⟩, fun s notBlank => ?_, ?_, ?_⟩
  · by_contra notBlank
    obtain ⟨t, core⟩ := Text.exists_isCore notBlank
    cases (parse_of_isCore core).symm.trans refused
  · obtain ⟨t, core⟩ := Text.exists_isCore notBlank
    refine ⟨t, parse_of_isCore core, core, fun t' core' => ?_⟩
    cases (parse_of_isCore core').symm.trans (parse_of_isCore core)
    rfl
  · intro s id read
    exact parse_of_isCore (.self (parse_eq_ok_iff.mp read).trimmed)
  · intro a s b before behind
    by_cases blank : Blank s
    · rw [parse_of_blank blank, parse_of_blank (blank.pad before behind)]
    · obtain ⟨t, core⟩ := Text.exists_isCore blank
      rw [parse_of_isCore core, parse_of_isCore (core.pad before behind)]

/-- Blanks of one and of several bytes around a text with a blank inside it. -/
theorem parse_trims_wide :
    let s := "\u3000\ta b\u2028"
    ¬ Blank s ∧ Blank "\u2003 " ∧ Blank "\n" ∧ parse s = .ok ⟨"a b"⟩ ∧
      parse "a b" = .ok ⟨"a b"⟩ ∧ parse ("\u2003 " ++ s ++ "\n") = .ok ⟨"a b"⟩ := by
  intro s
  have notBlank : ¬ Blank s := by decide
  have before : Blank "\u2003 " := by decide
  have behind : Blank "\n" := by decide
  have core : IsCore s "a b" :=
    ⟨⟨⟨'a', rfl, rfl⟩, ⟨'b', rfl, rfl⟩⟩, "\u3000\t", "\u2028", rfl, by decide, by decide⟩
  obtain ⟨-, cores, again, padded⟩ := parse_trims
  obtain ⟨t, read, -, only⟩ := cores s notBlank
  obtain rfl := only "a b" core
  exact ⟨notBlank, before, behind, read, again s _ read, (padded _ s _ before behind).trans read⟩

end PhotoId

end PhotoArchive
