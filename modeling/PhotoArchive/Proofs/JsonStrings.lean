import PhotoArchive.Json.Token

/-!
# The spellings of a string

A character stands in a string for itself, or an escape stands there that denotes it: of one letter,
of its number in four hexadecimal digits, or of a pair of surrogates. However the characters of a
string are spelled, a reader takes the string up to its closing quote, and so does a reader that
skips it. A string is written in one of its spellings.
-/
namespace PhotoArchive

theorem Text.hexCharValue?_hexDigit (n : Nat) : hexCharValue? (hexDigit n) = some (n % 16) := by
  have all : ∀ d : Fin 16, hexCharValue? (hexDigit d) = some d.val := by decide
  rw [← hexDigit_mod]
  exact all ⟨n % 16, Nat.mod_lt n (by decide)⟩

namespace Json

inductive UnitDigits : Nat → List Char → Prop where
  | mk {a b c d : Char} {k l m n : Nat} (first : Text.hexCharValue? a = some k)
    (second : Text.hexCharValue? b = some l) (third : Text.hexCharValue? c = some m)
    (fourth : Text.hexCharValue? d = some n) :
    UnitDigits (((k * 16 + l) * 16 + m) * 16 + n) [a, b, c, d]

/-- What may stand in a string for a character: the character itself, a letter behind a backslash,
its number, or a high and a low surrogate with ten bits of the number in each. -/
inductive Spelling (c : Char) : List Char → Prop where
  | plain (quote : c ≠ '"') (backslash : c ≠ '\\') (control : ¬ c.toNat < 0x20) : Spelling c [c]
  | letter {e : Char} (denotes : shortEscape? e = some c) : Spelling c ['\\', e]
  | unit {ds : List Char} (number : UnitDigits c.toNat ds) : Spelling c ('\\' :: 'u' :: ds)
  | pair {high low : Nat} {ds ds' : List Char} (isHigh : 0xD800 ≤ high ∧ high ≤ 0xDBFF)
    (isLow : 0xDC00 ≤ low ∧ low ≤ 0xDFFF)
    (number : c.toNat = 0x10000 + (high - 0xD800) * 0x400 + (low - 0xDC00))
    (first : UnitDigits high ds) (second : UnitDigits low ds') :
    Spelling c ('\\' :: 'u' :: (ds ++ '\\' :: 'u' :: ds'))

/-- What may stand between the quotes for the characters of a string. -/
inductive Spellings : List Char → List Char → Prop where
  | nil : Spellings [] []
  | cons {c : Char} {s e t : List Char} (first : Spelling c e) (others : Spellings s t) :
    Spellings (c :: s) (e ++ t)

/-! ## Escapes -/

theorem UnitDigits.codeUnit {n : Nat} {ds : List Char} (digits : UnitDigits n ds)
    (rest : List Char) : codeUnit (ds ++ rest) = .ok (n, rest) := by
  cases digits with
  | @mk a b c d _ _ _ _ first second third fourth =>
    have one (c : Char) : 0 < c.utf8Size := c.utf8Size_pos
    have enough : ¬ 0 + a.utf8Size + b.utf8Size + c.utf8Size + d.utf8Size < 4 := by
      have := one a
      have := one b
      have := one c
      have := one d
      omega
    simp only [List.cons_append, List.nil_append, Json.codeUnit, List.take_succ_cons,
      List.take_zero, List.foldl_cons, List.foldl_nil, if_neg enough, first, second, third, fourth]

theorem readText_backslash {e rest : List Char} {c : Char} (reads : readEscape e = .ok (c, rest))
    (before : List Char) : readText before ('\\' :: e) = readText (c :: before) rest := by
  rw [readText, if_neg (by decide), if_pos rfl]
  split
  next failed => cases failed.symm.trans reads
  next value =>
    cases value.symm.trans reads
    rfl

theorem skipText_backslash {e rest : List Char} (skips : skipEscape e = .ok rest) :
    skipText ('\\' :: e) = skipText rest := by
  rw [skipText, if_neg (by decide), if_pos rfl]
  split
  next failed => cases failed.symm.trans skips
  next value =>
    cases value.symm.trans skips
    rfl

/-- No character is a surrogate. -/
theorem not_surrogate (c : Char) : ¬ (0xD800 ≤ c.toNat ∧ c.toNat ≤ 0xDFFF) := by
  rintro ⟨le, ge⟩
  rcases c.valid with below | ⟨above, -⟩
  · exact absurd below (Nat.not_lt.mpr le)
  · exact absurd above (Nat.not_lt.mpr ge)

/-- A skipping reader does not look at the number of a code unit. -/
theorem UnitDigits.skipText {n : Nat} {ds : List Char} (digits : UnitDigits n ds) (s : List Char) :
    skipText ('\\' :: 'u' :: (ds ++ s)) = skipText s := by
  refine skipText_backslash ?_
  simp only [skipEscape, if_true, digits.codeUnit]

theorem Spelling.readText {c : Char} {e : List Char} (spelling : Spelling c e)
    (before s : List Char) : readText before (e ++ s) = readText (c :: before) s := by
  cases spelling with
  | plain quote backslash control =>
    rw [List.singleton_append, Json.readText]
    simp only [if_neg quote, if_neg backslash, if_neg control]
  | @letter e denotes =>
    have noUnit : e ≠ 'u' := by
      rintro rfl
      cases denotes
    have reads : readEscape (e :: s) = .ok (c, s) := by
      simp only [readEscape, if_neg noUnit, denotes]
    exact readText_backslash reads before
  | @unit ds number =>
    have := not_surrogate c
    have notLow : ¬ (0xDC00 ≤ c.toNat ∧ c.toNat ≤ 0xDFFF) := by omega
    have notHigh : ¬ (0xD800 ≤ c.toNat ∧ c.toNat ≤ 0xDBFF) := by omega
    have reads : readEscape ('u' :: (ds ++ s)) = .ok (c, s) := by
      simp only [readEscape, if_true, number.codeUnit, if_neg notLow, if_neg notHigh,
        Char.ofNat_toNat]
    exact readText_backslash reads before
  | @pair high low ds ds' isHigh isLow number first second =>
    have notLow : ¬ (0xDC00 ≤ high ∧ high ≤ 0xDFFF) := by omega
    have character : surrogatePair high low = c := by
      rw [surrogatePair, ← number, Char.ofNat_toNat]
    have reads : readEscape ('u' :: (ds ++ '\\' :: 'u' :: (ds' ++ s))) = .ok (c, s) := by
      simp only [readEscape, if_true, first.codeUnit, if_neg notLow, if_pos isHigh, lowSurrogate,
        second.codeUnit, if_pos isLow, character]
    simp only [List.cons_append, List.append_assoc]
    exact readText_backslash reads before

theorem Spelling.skipText {c : Char} {e : List Char} (spelling : Spelling c e) (s : List Char) :
    skipText (e ++ s) = skipText s := by
  cases spelling with
  | plain quote backslash control =>
    rw [List.singleton_append, Json.skipText]
    simp only [if_neg quote, if_neg backslash, if_neg control]
  | @letter e denotes =>
    have noUnit : e ≠ 'u' := by
      rintro rfl
      cases denotes
    have skips : skipEscape (e :: s) = .ok s := by
      simp only [skipEscape, if_neg noUnit, denotes]
    exact skipText_backslash skips
  | unit number => exact number.skipText s
  | pair _ _ _ first second =>
    simp only [List.cons_append, List.append_assoc]
    rw [first.skipText, second.skipText]

/-! ## Strings -/

theorem Spellings.readText {s t : List Char} (spellings : Spellings s t)
    (before rest : List Char) :
    readText before (t ++ '"' :: rest) = .ok (String.ofList (before.reverse ++ s), rest) := by
  induction spellings generalizing before with
  | nil => simp [Json.readText]
  | cons first others ih =>
    rw [List.append_assoc, first.readText, ih]
    simp

theorem Spellings.skipText {s t : List Char} (spellings : Spellings s t) (rest : List Char) :
    skipText (t ++ '"' :: rest) = .ok rest := by
  induction spellings with
  | nil => simp [Json.skipText]
  | cons first others ih => rw [List.append_assoc, first.skipText, ih]

/-- A character is written in one of its spellings. -/
theorem spelling_escape (c : Char) : Spelling c (escape c) := by
  unfold escape
  split
  next h => exact .letter (by rw [h]; rfl)
  next quote =>
  split
  next h => exact .letter (by rw [h]; rfl)
  next backslash =>
  split
  next h => exact .letter (by rw [h]; rfl)
  split
  next h => exact .letter (by rw [h]; rfl)
  split
  next h => exact .letter (by rw [h]; rfl)
  split
  next h => exact .letter (by rw [h]; rfl)
  split
  next h => exact .letter (by rw [h]; rfl)
  split
  next control =>
    have digit := Text.hexCharValue?_hexDigit
    have zero : Text.hexCharValue? '0' = some 0 := rfl
    have digits := UnitDigits.mk zero zero (digit (c.toNat / 16)) (digit c.toNat)
    have number : ((0 * 16 + 0) * 16 + c.toNat / 16 % 16) * 16 + c.toNat % 16 = c.toNat := by omega
    rw [number] at digits
    exact .unit digits
  next plain => exact .plain quote backslash plain

theorem spellings_escape (s : List Char) : Spellings s (s.flatMap escape) := by
  induction s with
  | nil => exact .nil
  | cons c s ih => exact .cons (spelling_escape c) ih

end Json

end PhotoArchive
