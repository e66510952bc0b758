import PhotoArchive.Proofs.Decimal
import PhotoArchive.Settings.Toml

/-!
# What is written in TOML, and what is read back

A line of an entry with a bare key is read as that entry. Settings with a time limit that TOML has a
number for are read back as they were. TOML has no word for none: settings without a limit are
written without an entry for it, which stands for the standard limit when they are read back.
-/
namespace PhotoArchive

namespace Toml

/-! ## Whole numbers -/

/-- Digits alone are a run of digits. -/
theorem digitRun_of_digits {ds : List Char} (digits : ∀ c ∈ ds, c.isDigit = true)
    (nonempty : ds ≠ []) : digitRun Char.isDigit ds = some ds := by
  fun_induction digitRun Char.isDigit ds with
  | case1 => exact absurd rfl nonempty
  | case2 d digit => rfl
  | case3 d other => exact absurd (digits d List.mem_cons_self) other
  | case4 d rest digit ih => cases digits '_' (by simp)
  | case5 d rest other => exact absurd (digits d List.mem_cons_self) other
  | case6 d rest ne _ digit ih =>
    rw [ih (fun c mem => digits c (List.mem_cons_of_mem _ mem)) ne]
    rfl
  | case7 d rest _ _ other => exact absurd (digits d List.mem_cons_self) other

theorem hexCharValue?_of_isDigit {c : Char} (digit : c.isDigit = true) :
    Text.hexCharValue? c = some (c.toNat - '0'.toNat) := by
  have range : '0' ≤ c ∧ c ≤ '9' := by
    simp only [Char.isDigit, Bool.and_eq_true, decide_eq_true_eq] at digit
    exact digit
  rw [Text.hexCharValue?, if_pos range]

theorem foldl_digits {ds : List Char} (digits : ∀ c ∈ ds, c.isDigit = true) (n : Nat) :
    ds.foldl (fun n c => n * 10 + (Text.hexCharValue? c).getD 0) n = Nat.ofDigitChars 10 ds n := by
  induction ds generalizing n with
  | nil => rfl
  | cons d ds ih =>
    have first := hexCharValue?_of_isDigit (digits d List.mem_cons_self)
    rw [List.foldl_cons, Nat.ofDigitChars_cons, first, Option.getD_some, Nat.mul_comm n,
      ih fun c mem => digits c (List.mem_cons_of_mem _ mem)]

theorem digitsValue_toDigits (n : Nat) : digitsValue 10 (Nat.toDigits 10 n) = n := by
  rw [digitsValue, foldl_digits Number.isDigit_of_mem_toDigits, Nat.ofDigitChars_ten_toDigits]

theorem wholeRun_toDigits (n : Nat) : wholeRun (Nat.toDigits 10 n) = some (Nat.toDigits 10 n) := by
  have run := digitRun_of_digits (Number.isDigit_of_mem_toDigits (n := n)) Nat.toDigits_ne_nil
  rw [wholeRun, run]
  by_cases zero : n = 0
  · rw [zero]
    rfl
  · obtain ⟨d, ds, digits, first⟩ := Number.exists_toDigits_of_pos (Nat.pos_of_ne_zero zero)
    split
    next same =>
      rw [digits] at same
      exact absurd (List.cons.inj (Option.some.inj same)).1 first
    next => rfl

theorem signed_of_digits {ds : List Char} (digits : ∀ c ∈ ds, c.isDigit = true) :
    signed ds = (false, ds) := by
  unfold signed
  split
  next => cases digits '-' List.mem_cons_self
  next => cases digits '+' List.mem_cons_self
  next => rfl

/-- The decimal digits of a number are a value that denotes it, if it is one of TOML's. -/
theorem scalar?_toDigits {n : Nat} (fits : n < Number.signedCount) :
    scalar? (Nat.toDigits 10 n) = some (.integer n) := by
  have digits := Number.isDigit_of_mem_toDigits (n := n)
  have notTrue : Nat.toDigits 10 n ≠ ['t', 'r', 'u', 'e'] := by
    intro same
    cases digits 't' (by rw [same]; exact List.mem_cons_self)
  have notFalse : Nat.toDigits 10 n ≠ ['f', 'a', 'l', 's', 'e'] := by
    intro same
    cases digits 'f' (by rw [same]; exact List.mem_cons_self)
  have value : decimalInteger? (Nat.toDigits 10 n) = some (n : Int) := by
    simp only [decimalInteger?, signed_of_digits digits, wholeRun_toDigits, Option.bind_some,
      digitsValue_toDigits, inRange?, Bool.false_eq_true, if_false, if_pos fits]
  rw [scalar?, if_neg notTrue, if_neg notFalse, value]

/-! ## Lines -/

theorem skipBlanks_cons {c : Char} (space : c ≠ ' ') (tab : c ≠ '\t') (rest : List Char) :
    skipBlanks (c :: rest) = c :: rest := by
  simp [skipBlanks, space, tab]

/-- A bare name is taken up to the blank behind it. -/
theorem paddedPart_bare {name : List Char} (bare : ∀ c ∈ name, isBare c = true) (named : name ≠ [])
    (rest : List Char) :
    paddedPart.run (name ++ ' ' :: '=' :: rest) = some (String.ofList name, '=' :: rest) := by
  obtain ⟨c, cs, rfl⟩ := List.exists_cons_of_ne_nil named
  have first := bare c List.mem_cons_self
  have taken : ((c :: cs) ++ ' ' :: '=' :: rest).takeWhile isBare = c :: cs := by
    rw [List.takeWhile_append_of_pos bare]
    simp [isBare]
  have left : ((c :: cs) ++ ' ' :: '=' :: rest).dropWhile isBare = ' ' :: '=' :: rest := by
    rw [List.dropWhile_append_of_pos bare]
    simp [isBare]
  have noBlank :
      skipBlanks ((c :: cs) ++ ' ' :: '=' :: rest) = (c :: cs) ++ ' ' :: '=' :: rest := by
    refine skipBlanks_cons ?_ ?_ _
    · rintro rfl
      cases first
    · rintro rfl
      cases first
  have part : keyPartFrom ((c :: cs) ++ ' ' :: '=' :: rest) =
      some (String.ofList (c :: cs), ' ' :: '=' :: rest) := by
    rw [List.cons_append, keyPartFrom, if_pos first, ← List.cons_append, taken, left]
  simp only [paddedPart, noBlank, keyPart, part, Option.map_some]
  rfl

theorem key_bare {name : List Char} (bare : ∀ c ∈ name, isBare c = true) (named : name ≠ [])
    (rest : List Char) :
    key.run (name ++ ' ' :: '=' :: rest) = some ([String.ofList name], '=' :: rest) := by
  have part := paddedPart_bare bare named rest
  have parts : separatedBy paddedPart '.' (name ++ ' ' :: '=' :: rest) =
      some ([String.ofList name], '=' :: rest) := by
    rw [separatedBy]
    split
    next failed => cases failed.symm.trans part
    next last => cases last.symm.trans part
    next more =>
      cases more.symm.trans part
      rfl
  simp only [key, parts]
  rfl

structure Denotes (value : List Char) (item : Item) : Prop where
  scalar : scalar? value = some item
  nonempty : value ≠ []
  unbroken : ∀ c ∈ value, endsValue c = false
  unquoted : ∀ c ∈ value, c ≠ '[' ∧ c ≠ '\x7b' ∧ c ≠ '"' ∧ c ≠ '\''

/-- What stands behind a value ends its line: a line break, behind which the text goes on, or
nothing. -/
inductive EndsLine : List Char → List Char → Prop where
  | lineBreak (rest : List Char) : EndsLine ('\n' :: rest) rest
  | endOfText : EndsLine [] []

theorem EndsLine.lineEnd?_eq {behind rest : List Char} (ends : EndsLine behind rest) :
    lineEnd? behind = some rest := by
  cases ends <;> rfl

/-- An unquoted value is taken up to the end of its line. -/
theorem Denotes.run_scalar {value : List Char} {item : Item} (h : Denotes value item)
    {behind rest : List Char} (ends : EndsLine behind rest) :
    Toml.scalar.run (value ++ behind) = some (item, behind) := by
  have unbroken : ∀ c ∈ value, (!endsValue c) = true := by
    intro c mem
    rw [h.unbroken c mem]
    rfl
  have taken : (value ++ behind).takeWhile (fun c => !endsValue c) = value := by
    rw [List.takeWhile_append_of_pos unbroken]
    cases ends <;> simp [endsValue]
  have some : value.isEmpty = false := List.isEmpty_eq_false_iff.mpr h.nonempty
  simp only [Toml.scalar, taken, List.drop_left, some, Bool.false_eq_true, if_false, h.scalar]
  cases ends <;> rfl

theorem Denotes.run_value {value : List Char} {item : Item} (h : Denotes value item) (depth : Nat)
    {behind rest : List Char} (ends : EndsLine behind rest) :
    (Toml.value depth).run (value ++ behind) = some (item, behind) := by
  have scalar := h.run_scalar ends
  obtain ⟨c, cs, rfl⟩ := List.exists_cons_of_ne_nil h.nonempty
  obtain ⟨bracket, brace, quote, apostrophe⟩ := h.unquoted c List.mem_cons_self
  have base : (Toml.value 0).run (c :: cs ++ behind) = some (item, behind) := by
    rw [← scalar]
    simp only [Toml.value, List.cons_append]
    split
    next same => exact absurd (List.cons.inj same).1 bracket
    next same => exact absurd (List.cons.inj same).1 brace
    next same => exact absurd (List.cons.inj same).1 quote
    next same => exact absurd (List.cons.inj same).1 apostrophe
    next => rfl
  cases depth with
  | zero => exact base
  | succ depth =>
    rw [← base]
    simp only [Toml.value, List.cons_append]
    split
    next same => exact absurd (List.cons.inj same).1 bracket
    next same => exact absurd (List.cons.inj same).1 brace
    next => rfl

/-- The line of an entry with a bare key adds the entry. -/
theorem linesFrom_entry {d d' : Draft} {name value : List Char} {item : Item}
    (bare : ∀ c ∈ name, isBare c = true) (named : name ≠ []) (denotes : Denotes value item)
    (put : d.put [String.ofList name] item = some d') {behind rest : List Char}
    (ends : EndsLine behind rest) :
    linesFrom d (name ++ ' ' :: '=' :: ' ' :: (value ++ behind)) = linesFrom d' rest := by
  have key := key_bare bare named (' ' :: (value ++ behind))
  have start : skipBlanks (' ' :: (value ++ behind)) = value ++ behind := by
    obtain ⟨c, cs, rfl⟩ := List.exists_cons_of_ne_nil denotes.nonempty
    have unbroken := denotes.unbroken c List.mem_cons_self
    have space : c ≠ ' ' := by
      rintro rfl
      cases unbroken
    have tab : c ≠ '\t' := by
      rintro rfl
      cases unbroken
    exact skipBlanks_cons space tab (cs ++ behind)
  have entry : (Toml.entry (Toml.value depthLimit)).run
      (name ++ ' ' :: '=' :: ' ' :: (value ++ behind)) =
        some (([String.ofList name], item), behind) := by
    simp only [Toml.entry, key, start, denotes.run_value depthLimit ends, Option.map_some]
  obtain ⟨c, cs, rfl⟩ := List.exists_cons_of_ne_nil named
  have first := bare c List.mem_cons_self
  have noBlank : c ≠ ' ' ∧ c ≠ '\t' := by
    constructor <;> rintro rfl <;> cases first
  have noLayout : ¬ (c = '#' ∨ c = '\n' ∨ c = '\r') := by
    rintro (rfl | rfl | rfl) <;> cases first
  have noHeader : c ≠ '[' := by
    rintro rfl
    cases first
  have read : line d (c :: cs ++ ' ' :: '=' :: ' ' :: (value ++ behind)) = some (d', rest) := by
    unfold line
    split
    next same => exact absurd (List.cons.inj same).1 noHeader
    next same => exact absurd (List.cons.inj same).1 noHeader
    next => simp only [entry, ends.lineEnd?_eq, put, Option.map_some]
  have blanks := skipBlanks_cons noBlank.1 noBlank.2
    (cs ++ ' ' :: '=' :: ' ' :: (value ++ behind))
  rw [linesFrom]
  split
  next none => cases none.symm.trans blanks
  next found =>
    cases found.symm.trans blanks
    rw [if_neg noLayout]
    split
    next more => cases more.symm.trans read; rfl
    next failed => cases failed.symm.trans read

theorem linesFrom_nil (d : Draft) : linesFrom d [] = some d := by
  rw [linesFrom]
  rfl

theorem denotes_boolean (b : Bool) : Denotes (toString b).toList (.boolean b) := by
  cases b with
  | false =>
    have letters : (toString false).toList = ['f', 'a', 'l', 's', 'e'] := rfl
    rw [letters]
    exact ⟨rfl, nofun, by simp [endsValue], by simp⟩
  | true =>
    have letters : (toString true).toList = ['t', 'r', 'u', 'e'] := rfl
    rw [letters]
    exact ⟨rfl, nofun, by simp [endsValue], by simp⟩

theorem denotes_toDigits {n : Nat} (fits : n < Number.signedCount) :
    Denotes (Nat.toDigits 10 n) (.integer n) where
  scalar := scalar?_toDigits fits
  nonempty := Nat.toDigits_ne_nil
  unbroken c mem := by
    have digit := Number.isDigit_of_mem_toDigits c mem
    cases ends : endsValue c with
    | false => rfl
    | true =>
      simp only [endsValue, Bool.or_eq_true, beq_iff_eq] at ends
      rcases ends with ((((((rfl | rfl) | rfl) | rfl) | rfl) | rfl) | rfl) | rfl <;> cases digit
  unquoted c mem := by
    have digit := Number.isDigit_of_mem_toDigits c mem
    refine ⟨?_, ?_, ?_, ?_⟩ <;> rintro rfl <;> cases digit

theorem dropMark_bare {name : List Char} (bare : ∀ c ∈ name, isBare c = true) (named : name ≠ [])
    (rest : List Char) : dropMark (name ++ rest) = name ++ rest := by
  obtain ⟨c, cs, rfl⟩ := List.exists_cons_of_ne_nil named
  have first := bare c List.mem_cons_self
  unfold dropMark
  split
  next same =>
    rw [(List.cons.inj same).1] at first
    cases first
  next => rfl

end Toml

namespace Settings

open PhotoArchive.Toml (Draft isBare linesFrom)

theorem isBare_timeoutName : ∀ c ∈ timeoutName.toList, isBare c = true :=
  List.all_eq_true.mp rfl

theorem isBare_logName : ∀ c ∈ logName.toList, isBare c = true :=
  List.all_eq_true.mp rfl

theorem toList_entryLine (name value rest : String) :
    (entryLine name value ++ rest).toList =
      name.toList ++ ' ' :: '=' :: ' ' :: (value.toList ++ '\n' :: rest.toList) := by
  simp [entryLine, String.toList_append]

/-- A document whose last line says whether operations are reported. -/
theorem linesFrom_log {d d' : Draft} {log : Bool} (put : d.put [logName] (.boolean log) = some d') :
    linesFrom d (entryLine logName (toString log)).toList = some d' := by
  have text := toList_entryLine logName (toString log) ""
  rw [String.append_empty] at text
  rw [text, Toml.linesFrom_entry isBare_logName (by decide) (Toml.denotes_boolean log)
    (by rwa [String.ofList_toList]) (.lineBreak _)]
  exact Toml.linesFrom_nil d'

theorem parse?_log (log : Bool) :
    Toml.parse? (entryLine logName (toString log)) = some [(logName, .boolean log)] := by
  have text := toList_entryLine logName (toString log) ""
  rw [String.append_empty] at text
  have lines : linesFrom ⟨[], []⟩ (entryLine logName (toString log)).toList =
      some ⟨[(logName, .boolean log)], []⟩ := linesFrom_log rfl
  have noMark : Toml.dropMark (entryLine logName (toString log)).toList =
      (entryLine logName (toString log)).toList := by
    rw [text]
    exact Toml.dropMark_bare isBare_logName (by decide) _
  rw [Toml.parse?, noMark, lines]
  rfl

theorem parse?_limit {n : Nat} (fits : n < Number.signedCount) (log : Bool) :
    Toml.parse? (entryLine timeoutName (toString n) ++ entryLine logName (toString log)) =
      some [(timeoutName, .integer n), (logName, .boolean log)] := by
  have text := toList_entryLine timeoutName (toString n) (entryLine logName (toString log))
  have digits : (toString n).toList = Nat.toDigits 10 n := by
    rw [Nat.toString_eq_ofList_toDigits, String.toList_ofList]
  have put : Draft.put ⟨[], []⟩ [String.ofList timeoutName.toList] (.integer n) =
      some ⟨[(timeoutName, .integer n)], []⟩ := by
    rw [String.ofList_toList]
    rfl
  have lines : linesFrom ⟨[(timeoutName, .integer n)], []⟩
      (entryLine logName (toString log)).toList =
        some ⟨[(timeoutName, .integer n), (logName, .boolean log)], []⟩ := linesFrom_log rfl
  rw [Toml.parse?, text, Toml.dropMark_bare isBare_timeoutName (by decide), digits,
    Toml.linesFrom_entry isBare_timeoutName (by decide) (Toml.denotes_toDigits fits) put
      (.lineBreak _), lines]
  rfl

/-- Without an entry for the limit, the standard one is read. -/
theorem ofToml_log (log : Bool) :
    ofToml (entryLine logName (toString log)) = .ok ⟨some 30000, log⟩ := by
  rw [ofToml, parse?_log]
  rfl

theorem ofToml_limit {n : UInt64} (fits : n.toNat < Number.signedCount) (log : Bool) :
    ofToml (entryLine timeoutName (toString n.toNat) ++ entryLine logName (toString log)) =
      .ok ⟨some n, log⟩ := by
  have word : wordItem (.integer n.toNat) = .ok n := by
    rw [wordItem, if_pos (Int.natCast_nonneg _), Int.toNat_natCast]
    exact congrArg _ UInt64.ofNat_toNat
  have entries : standard.withEntries [(timeoutName, .integer n.toNat), (logName, .boolean log)] =
      .ok ⟨some n, log⟩ := by
    simp only [withEntries, if_true, word]
    rfl
  rw [ofToml, parse?_limit fits]
  simp only [entries]

theorem toToml?_limit (n : UInt64) (log : Bool) :
    toToml? ⟨some n, log⟩ =
      if n.toNat < Number.signedCount then
        some (entryLine timeoutName (toString n.toNat) ++ entryLine logName (toString log))
      else none := rfl

theorem toToml?_eq_none_iff (s : Settings) :
    s.toToml? = none ↔ ∃ n, s.timeoutMillis = some n ∧ 9223372036854775807 < n.toNat := by
  rcases s with ⟨_ | n, log⟩
  · simp [toToml?]
  · rw [toToml?_limit]
    unfold Number.signedCount
    by_cases fits : n.toNat < 0x8000000000000000
    · have notBeyond : ¬ 9223372036854775807 < n.toNat := by omega
      simp [fits, notBeyond]
    · have beyond : 9223372036854775807 < n.toNat := by omega
      simp [fits, beyond]

/-- Settings are written in TOML unless their limit is beyond 63 bits. What is written is read back:
with a limit as it was, and without one with the standard limit and else as it was. -/
theorem ofToml_of_toToml (s : Settings) :
    (s.toToml? = none ↔ ∃ n, s.timeoutMillis = some n ∧ 9223372036854775807 < n.toNat) ∧
      ∀ t, s.toToml? = some t → ∃ read, ofToml t = .ok read ∧
        (s.timeoutMillis ≠ none → read = s) ∧
        (s.timeoutMillis = none → read = { s with timeoutMillis := standard.timeoutMillis }) := by
  refine ⟨s.toToml?_eq_none_iff, ?_⟩
  intro t written
  rcases s with ⟨_ | n, log⟩
  · cases written
    exact ⟨_, ofToml_log log, fun limit => absurd rfl limit, fun _ => rfl⟩
  · rw [toToml?_limit] at written
    by_cases fits : n.toNat < Number.signedCount
    · rw [if_pos fits] at written
      cases written
      exact ⟨_, ofToml_limit fits log, fun _ => rfl, nofun⟩
    · rw [if_neg fits] at written
      cases written

/-- Settings without a limit are written, and have one when they are read back. -/
theorem ofToml_of_toToml_unbounded :
    ∃ t, unbounded.toToml? = some t ∧ ofToml t = .ok standard ∧ standard ≠ unbounded ∧
      standard.limit ≠ unbounded.limit :=
  ⟨_, rfl, ofToml_log true, by decide, by decide⟩

end Settings

end PhotoArchive
