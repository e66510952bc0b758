import PhotoArchive.Proofs.Decimal
import PhotoArchive.Proofs.JsonStrings

/-!
# The texts of a value

A value has many texts: blanks may stand between its tokens, and the characters of a string may be
spelled in several ways. Which tokens a text spells is said without a reader, with one rule for each
kind of token, and every text is cut into the tokens that it spells. Strings may hold any
characters, and whole numbers are those of 64 bits, signed below zero. The compact text of a value
is one of its texts.
-/
namespace PhotoArchive.Json

open PhotoArchive.Number (DigitsEnd)

/-! ## Whole numbers -/

structure NumeralEnds (s : List Char) : Prop where
  digit : DigitsEnd s
  point : s.head? ≠ some '.'
  exponent : s.head? ≠ some 'e' ∧ s.head? ≠ some 'E'

theorem wholeDigits_toDigits (n : Nat) {rest : List Char} (ends : DigitsEnd rest) :
    wholeDigits (Nat.toDigits 10 n ++ rest) = .ok (Nat.toDigits 10 n, rest) := by
  by_cases zero : n = 0
  · have noDigit : rest.head?.any Char.isDigit = false := by
      cases rest with
      | nil => rfl
      | cons c rest => exact ends c rfl
    rw [zero, Nat.toDigits_zero, List.singleton_append, wholeDigits, noDigit]
    rfl
  · obtain ⟨d, ds, digits, first⟩ := Number.exists_toDigits_of_pos (Nat.pos_of_ne_zero zero)
    have all : Json.digits (Nat.toDigits 10 n ++ rest) = .ok (Nat.toDigits 10 n, rest) := by
      rw [Json.digits, Number.takeWhile_toDigits n ends, Number.dropWhile_toDigits n ends, digits]
    unfold wholeDigits
    split
    next same =>
      rw [digits, List.cons_append] at same
      exact absurd (List.cons.inj same).1 first
    next => exact all

theorem readNumeral_toDigits (negative : Bool) (n : Nat) {rest : List Char}
    (ends : NumeralEnds rest) :
    readNumeral negative (Nat.toDigits 10 n ++ rest) =
      .ok (⟨negative, Nat.toDigits 10 n, [], none⟩, rest) := by
  have fraction : fractionDigits rest = .ok ([], rest) := by
    unfold fractionDigits
    split
    next => exact absurd rfl ends.point
    next => rfl
  have exponent : exponentDigits rest = .ok (none, rest) := by
    unfold exponentDigits
    split
    next c rest =>
      have noMark : ¬ (c = 'e' ∨ c = 'E') := by
        rintro (rfl | rfl)
        · exact ends.exponent.1 rfl
        · exact ends.exponent.2 rfl
      rw [if_neg noMark]
    next => rfl
  simp only [readNumeral, wholeDigits_toDigits n ends.digit, fraction, exponent]

namespace Numeral

theorem collect_eq {ds : List Char} {n : Nat} (fits : Nat.ofDigitChars 10 ds n ≤ greatest) :
    collect n ds = (Nat.ofDigitChars 10 ds n, []) := by
  induction ds generalizing n with
  | nil => rfl
  | cons d ds ih =>
    rw [Nat.ofDigitChars_cons] at fits ⊢
    have next : n * 10 + digitValue d = 10 * n + (d.toNat - '0'.toNat) := by
      rw [digitValue, Nat.mul_comm]
    have small := Number.le_ofDigitChars ds (10 * n + (d.toNat - '0'.toNat))
    rw [collect, next, if_pos (Nat.le_trans small fits), ih fits]

theorem value?_toDigits {n : Nat} (fits : n < PhotoArchive.Number.wordCount) :
    value? ⟨false, Nat.toDigits 10 n, [], none⟩ = some (.integer n) := by
  have collected : collect 0 (Nat.toDigits 10 n) = (n, []) := by
    have digits := Nat.ofDigitChars_ten_toDigits (n := n)
    rw [collect_eq (by rw [digits]; exact Nat.le_sub_one_of_lt fits), digits]
  simp [value?, collected]

theorem value?_negative_toDigits {n : Nat} (pos : 0 < n)
    (fits : n ≤ PhotoArchive.Number.signedCount) :
    value? ⟨true, Nat.toDigits 10 n, [], none⟩ = some (.integer (-n)) := by
  have collected : collect 0 (Nat.toDigits 10 n) = (n, []) := by
    have digits := Nat.ofDigitChars_ten_toDigits (n := n)
    have le : PhotoArchive.Number.signedCount ≤ greatest := by decide
    rw [collect_eq (by rw [digits]; exact Nat.le_trans fits le), digits]
  simp [value?, collected, pos, fits]

end Numeral

/-! ## Tokens of a text -/

theorem tokens_mark {c : Char} {t : Token} (mark : punctuation? c = some t) (rest : List Char) :
    tokens (c :: rest) = t :: tokens rest := by
  have noSpace : isSpace c = false := by
    cases space : isSpace c with
    | false => rfl
    | true =>
      simp only [isSpace, Bool.or_eq_true, beq_iff_eq] at space
      rcases space with ((rfl | rfl) | rfl) | rfl <;> cases mark
  rw [tokens, noSpace, mark]
  rfl

theorem afterWord_append (letters rest : List Char) :
    afterWord letters (letters ++ rest) = .ok rest := by
  induction letters with
  | nil =>
    cases rest <;> rfl
  | cons c letters ih =>
    rw [List.cons_append, afterWord, if_pos rfl]
    exact ih

theorem tokens_word {c : Char} {letters : List Char} {t : Token}
    (word : word? c = some (letters, t)) (rest : List Char) :
    tokens (c :: (letters ++ rest)) = t :: tokens rest := by
  have first : c = 'n' ∨ c = 't' ∨ c = 'f' := by
    unfold word? at word
    split at word
    next h => exact .inl h
    split at word
    next h => exact .inr (.inl h)
    split at word
    next h => exact .inr (.inr h)
    next => cases word
  have noSpace : isSpace c = false := by
    rcases first with rfl | rfl | rfl <;> rfl
  have noMark : punctuation? c = none := by
    rcases first with rfl | rfl | rfl <;> rfl
  have noOther : c ≠ '"' ∧ c ≠ '-' ∧ c.isDigit = false := by
    rcases first with rfl | rfl | rfl <;> decide
  rw [tokens, noSpace, noMark, word]
  simp only [Bool.false_eq_true, if_false, if_neg noOther.1, if_neg noOther.2.1, noOther.2.2]
  split
  next after => cases after.symm.trans (afterWord_append letters rest); rfl
  next failed => cases failed.symm.trans (afterWord_append letters rest)

theorem tokens_text {name : String} {t : List Char} (spellings : Spellings name.toList t)
    (rest : List Char) : tokens ('"' :: (t ++ '"' :: rest)) = .text (.ok name) :: tokens rest := by
  have skips := spellings.skipText rest
  have reads := spellings.readText [] rest
  rw [List.reverse_nil, List.nil_append, String.ofList_toList] at reads
  have noSpace : isSpace '"' = false := rfl
  have noMark : punctuation? '"' = none := rfl
  rw [tokens]
  simp only [noSpace, Bool.false_eq_true, if_false, noMark, if_true]
  split
  next after =>
    cases after.symm.trans skips
    rw [reads]
    rfl
  next failed => cases failed.symm.trans skips

/-- A digit starts no other token than a number. -/
theorem isDigit_start {c : Char} (digit : c.isDigit = true) :
    isSpace c = false ∧ punctuation? c = none ∧ c ≠ '"' ∧ c ≠ '-' := by
  refine ⟨?_, ?_, ?_, ?_⟩
  · cases space : isSpace c with
    | false => rfl
    | true =>
      simp only [isSpace, Bool.or_eq_true, beq_iff_eq] at space
      rcases space with ((rfl | rfl) | rfl) | rfl <;> cases digit
  · unfold punctuation?
    repeat
      split
      next h =>
        rw [h] at digit
        cases digit
    rfl
  · rintro rfl
    cases digit
  · rintro rfl
    cases digit

theorem tokens_toDigits {n : Nat} (fits : n < PhotoArchive.Number.wordCount) {rest : List Char}
    (ends : NumeralEnds rest) :
    tokens (Nat.toDigits 10 n ++ rest) = .number (some (.integer n)) :: tokens rest := by
  have reads := readNumeral_toDigits false n ends
  have value := Numeral.value?_toDigits fits
  cases digits : Nat.toDigits 10 n with
  | nil => exact absurd digits Nat.toDigits_ne_nil
  | cons d ds =>
    have digit : d.isDigit = true :=
      Number.isDigit_of_mem_toDigits d (by rw [digits]; exact List.mem_cons_self)
    obtain ⟨noSpace, noMark, noQuote, noMinus⟩ := isDigit_start digit
    rw [digits] at reads value
    rw [List.cons_append] at reads ⊢
    rw [tokens, noSpace, noMark]
    simp only [Bool.false_eq_true, if_false, if_neg noQuote, if_neg noMinus, digit, if_true]
    split
    next after =>
      cases after.symm.trans reads
      rw [value]
    next failed => cases failed.symm.trans reads

theorem tokens_negative {n : Nat} (pos : 0 < n) (fits : n ≤ PhotoArchive.Number.signedCount)
    {rest : List Char} (ends : NumeralEnds rest) :
    tokens ('-' :: (Nat.toDigits 10 n ++ rest)) =
      .number (some (.integer (-n))) :: tokens rest := by
  have reads := readNumeral_toDigits true n ends
  have value := Numeral.value?_negative_toDigits pos fits
  have noSpace : isSpace '-' = false := rfl
  have noMark : punctuation? '-' = none := rfl
  have noQuote : '-' ≠ '"' := by decide
  rw [tokens, noSpace, noMark]
  simp only [Bool.false_eq_true, if_false, if_neg noQuote, if_true]
  split
  next after =>
    cases after.symm.trans reads
    rw [value]
  next failed => cases failed.symm.trans reads

theorem tokens_integer {n : Int} (least : -(PhotoArchive.Number.signedCount : Int) ≤ n)
    (greatest : n < PhotoArchive.Number.wordCount) {rest : List Char} (ends : NumeralEnds rest) :
    tokens (integerChars n ++ rest) = .number (some (.integer n)) :: tokens rest := by
  cases n with
  | ofNat k => exact tokens_toDigits (Int.ofNat_lt.mp greatest) ends
  | negSucc k =>
    have bound : k + 1 ≤ PhotoArchive.Number.signedCount := by
      rw [Int.negSucc_eq] at least
      omega
    exact tokens_negative (Nat.succ_pos k) bound ends

/-- A text spells tokens up to the given rest of it, whatever the rest is. Blanks may stand before
any token and behind the last one. -/
inductive Spells (rest : List Char) : List Char → List Token → Prop where
  | done : Spells rest rest []
  | blank {c : Char} {s : List Char} {ts : List Token} (space : isSpace c = true)
    (others : Spells rest s ts) : Spells rest (c :: s) ts
  | mark {c : Char} {t : Token} {s : List Char} {ts : List Token} (mark : punctuation? c = some t)
    (others : Spells rest s ts) : Spells rest (c :: s) (t :: ts)
  | word {c : Char} {letters : List Char} {t : Token} {s : List Char} {ts : List Token}
    (word : word? c = some (letters, t)) (others : Spells rest s ts) :
    Spells rest (c :: (letters ++ s)) (t :: ts)
  | text {name : String} {e s : List Char} {ts : List Token} (spellings : Spellings name.toList e)
    (others : Spells rest s ts) : Spells rest ('"' :: (e ++ '"' :: s)) (.text (.ok name) :: ts)
  | integer {n : Int} {s : List Char} {ts : List Token}
    (least : -(PhotoArchive.Number.signedCount : Int) ≤ n)
    (greatest : n < PhotoArchive.Number.wordCount) (ends : NumeralEnds s)
    (others : Spells rest s ts) :
    Spells rest (integerChars n ++ s) (.number (some (.integer n)) :: ts)

theorem tokens_blank {c : Char} (space : isSpace c = true) (rest : List Char) :
    tokens (c :: rest) = tokens rest := by
  rw [tokens, if_pos space]

/-- A text is cut into the tokens that it spells, and those of the rest follow. -/
theorem Spells.tokens_eq {rest s : List Char} {ts : List Token} (spells : Spells rest s ts) :
    tokens s = ts ++ tokens rest := by
  induction spells with
  | done => rfl
  | blank space _ ih => rw [tokens_blank space, ih]
  | mark mark _ ih => rw [tokens_mark mark, ih, List.cons_append]
  | word word _ ih => rw [tokens_word word, ih, List.cons_append]
  | text spellings _ ih => rw [tokens_text spellings, ih, List.cons_append]
  | integer least greatest ends _ ih =>
    rw [tokens_integer least greatest ends, ih, List.cons_append]

/-! ## Tokens of a value -/

mutual

def asTokens : Json → List Token
  | .null => [.null]
  | .boolean b => [.boolean b]
  | .integer n => [.number (some (.integer n))]
  | .text s => [.text (.ok s)]
  | .array es => .openBracket :: elementTokens es ++ [.closeBracket]
  | .object ms => .openBrace :: memberTokens ms ++ [.closeBrace]

def elementTokens : List Json → List Token
  | [] => []
  | [e] => asTokens e
  | e :: rest => asTokens e ++ .comma :: elementTokens rest

def memberTokens : List (String × Json) → List Token
  | [] => []
  | [(name, e)] => .text (.ok name) :: .colon :: asTokens e
  | (name, e) :: rest => .text (.ok name) :: .colon :: asTokens e ++ .comma :: memberTokens rest

end

/-- A value whose whole numbers are those of 64 bits, signed below zero. -/
inductive Fits : Json → Prop where
  | null : Fits .null
  | boolean (b : Bool) : Fits (.boolean b)
  | integer {n : Int} (least : -(PhotoArchive.Number.signedCount : Int) ≤ n)
    (greatest : n < PhotoArchive.Number.wordCount) : Fits (.integer n)
  | text (s : String) : Fits (.text s)
  | array {es : List Json} (each : ∀ e ∈ es, Fits e) : Fits (.array es)
  | object {ms : List (String × Json)} (each : ∀ m ∈ ms, Fits m.2) : Fits (.object ms)

/-- A text of a value: the tokens of the value are spelled, with blanks among them and around
them. -/
def IsText (j : Json) (s : String) : Prop :=
  Spells [] s.toList j.asTokens

theorem IsText.tokens_eq {j : Json} {s : String} (isText : j.IsText s) :
    tokens s.toList = j.asTokens := by
  have spelled := Spells.tokens_eq isText
  have none : tokens [] = [] := by rw [tokens]
  rwa [none, List.append_nil] at spelled

/-! ## The compact text -/

/-- A text spells the given tokens before any other text that does not go on like a numeral. -/
def Writes (text : List Char) (ts : List Token) : Prop :=
  ∀ ⦃rest s us⦄, NumeralEnds s → Spells rest s us → Spells rest (text ++ s) (ts ++ us)

theorem numeralEnds_nil : NumeralEnds [] :=
  ⟨nofun, nofun, nofun, nofun⟩

theorem numeralEnds_mark {c : Char} {t : Token} (mark : punctuation? c = some t)
    (rest : List Char) : NumeralEnds (c :: rest) := by
  refine ⟨?_, ?_, ?_, ?_⟩
  · intro d first
    obtain rfl : c = d := Option.some.inj first
    cases digit : c.isDigit with
    | false => rfl
    | true => cases (isDigit_start digit).2.1.symm.trans mark
  all_goals
    intro first
    obtain rfl := Option.some.inj first
    cases mark

theorem writes_boolean (b : Bool) : Writes (booleanChars b) [.boolean b] := by
  intro rest s us _ others
  cases b with
  | true => exact .word rfl others
  | false => exact .word rfl others

theorem writes_text (name : String) : Writes (textChars name) [.text (.ok name)] := by
  intro rest s us _ others
  have spelled := Spells.text (spellings_escape name.toList) others
  simpa [textChars] using spelled

theorem writes_member (name : String) {text : List Char} {ts : List Token}
    (value : Writes text ts) :
    Writes (textChars name ++ ':' :: text) (.text (.ok name) :: .colon :: ts) := by
  intro rest s us ends others
  have colon : punctuation? ':' = some .colon := rfl
  have spelled := writes_text name (numeralEnds_mark colon _) (.mark colon (value ends others))
  simpa using spelled

theorem writes_enclosed {first last : Char} {t t' : Token} {text : List Char} {ts : List Token}
    (opens : punctuation? first = some t) (closes : punctuation? last = some t')
    (inner : Writes text ts) : Writes (first :: text ++ [last]) (t :: ts ++ [t']) := by
  intro rest s us _ others
  have spelled := inner (numeralEnds_mark closes s) (.mark closes others)
  simpa using Spells.mark opens spelled

/-- Something that spells tokens, and then other such things, each behind a comma. -/
theorem writes_separated {α : Type} {text : List Char} {ts : List Token} {textOf : α → List Char}
    {tokensOf : α → List Token} {xs : List α} (first : Writes text ts)
    (others : ∀ x ∈ xs, Writes (textOf x) (tokensOf x)) :
    Writes (text ++ xs.flatMap fun x => ',' :: textOf x)
      (ts ++ xs.flatMap fun x => .comma :: tokensOf x) := by
  induction xs generalizing text ts with
  | nil => simpa using first
  | cons x xs ih =>
    intro rest s us ends behind
    have comma : punctuation? ',' = some .comma := rfl
    have next := ih (others x List.mem_cons_self) fun y mem => others y (List.mem_cons_of_mem _ mem)
    have spelled := first (numeralEnds_mark comma _) (.mark comma (next ends behind))
    simpa using spelled

theorem elementChars_cons (e : Json) (es : List Json) :
    elementChars (e :: es) = chars e ++ es.flatMap fun e => ',' :: chars e := by
  induction es generalizing e with
  | nil => simp [elementChars]
  | cons e' es ih => simp [elementChars, ih]

theorem elementTokens_cons (e : Json) (es : List Json) :
    elementTokens (e :: es) = asTokens e ++ es.flatMap fun e => .comma :: asTokens e := by
  induction es generalizing e with
  | nil => simp [elementTokens]
  | cons e' es ih => simp [elementTokens, ih]

theorem memberChars_cons (m : String × Json) (ms : List (String × Json)) :
    memberChars (m :: ms) = textChars m.1 ++ ':' :: chars m.2 ++
      ms.flatMap fun m => ',' :: (textChars m.1 ++ ':' :: chars m.2) := by
  induction ms generalizing m with
  | nil => simp [memberChars]
  | cons m' ms ih => simp [memberChars, ih]

theorem memberTokens_cons (m : String × Json) (ms : List (String × Json)) :
    memberTokens (m :: ms) = .text (.ok m.1) :: .colon :: asTokens m.2 ++
      ms.flatMap fun m => .comma :: .text (.ok m.1) :: .colon :: asTokens m.2 := by
  induction ms generalizing m with
  | nil => simp [memberTokens]
  | cons m' ms ih => simp [memberTokens, ih]

/-- The compact text of a value spells the tokens of the value. -/
theorem Fits.writes {j : Json} (fits : j.Fits) : Writes j.chars j.asTokens := by
  induction fits with
  | null => exact fun _ _ _ _ others => .word rfl others
  | boolean b => exact writes_boolean b
  | integer least greatest => exact fun _ _ _ ends others => .integer least greatest ends others
  | text s => exact writes_text s
  | @array es _ each =>
    rw [chars, asTokens]
    refine writes_enclosed rfl rfl ?_
    cases es with
    | nil => exact fun _ _ _ _ others => others
    | cons e es =>
      rw [elementChars_cons, elementTokens_cons]
      have first := each e List.mem_cons_self
      exact writes_separated first fun e' mem => each e' (List.mem_cons_of_mem _ mem)
  | @object ms _ each =>
    rw [chars, asTokens]
    refine writes_enclosed rfl rfl ?_
    cases ms with
    | nil => exact fun _ _ _ _ others => others
    | cons m ms =>
      rw [memberChars_cons, memberTokens_cons]
      have first := writes_member m.1 (each m List.mem_cons_self)
      exact writes_separated first fun m' mem =>
        writes_member m'.1 (each m' (List.mem_cons_of_mem _ mem))

/-- The compact text of a value is a text of it. -/
theorem Fits.isText_compact {j : Json} (fits : j.Fits) : j.IsText j.compact := by
  have spelled := fits.writes numeralEnds_nil .done
  rw [List.append_nil, List.append_nil] at spelled
  rwa [IsText, compact, String.toList_ofList]

end PhotoArchive.Json
