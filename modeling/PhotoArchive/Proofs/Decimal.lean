import PhotoArchive.Number.Word

/-!
# Decimal digits of whole numbers

What readers rely on when they read the decimal digits of a number back: where the digits end, that
none of them is a leading zero, and that their value, which no shorter run of them exceeds, is the
number.
-/
namespace PhotoArchive.Number

/-- The text does not start with a digit. -/
def DigitsEnd (s : List Char) : Prop :=
  ∀ c ∈ s.head?, c.isDigit = false

theorem takeWhile_of_digitsEnd {s : List Char} (ends : DigitsEnd s) :
    s.takeWhile Char.isDigit = [] := by
  cases s with
  | nil => rfl
  | cons c s => simp [ends c rfl]

theorem dropWhile_of_digitsEnd {s : List Char} (ends : DigitsEnd s) :
    s.dropWhile Char.isDigit = s := by
  cases s with
  | nil => rfl
  | cons c s => simp [ends c rfl]

theorem isDigit_of_mem_toDigits {n : Nat} : ∀ c ∈ Nat.toDigits 10 n, c.isDigit = true :=
  fun _ => Nat.isDigit_of_mem_toDigits (by decide) (by decide)

theorem takeWhile_toDigits (n : Nat) {rest : List Char} (ends : DigitsEnd rest) :
    (Nat.toDigits 10 n ++ rest).takeWhile Char.isDigit = Nat.toDigits 10 n := by
  rw [List.takeWhile_append_of_pos isDigit_of_mem_toDigits, takeWhile_of_digitsEnd ends,
    List.append_nil]

theorem dropWhile_toDigits (n : Nat) {rest : List Char} (ends : DigitsEnd rest) :
    (Nat.toDigits 10 n ++ rest).dropWhile Char.isDigit = rest := by
  rw [List.dropWhile_append_of_pos isDigit_of_mem_toDigits, dropWhile_of_digitsEnd ends]

/-- The digits of a number that is not zero start with another digit than zero. -/
theorem exists_toDigits_of_pos {n : Nat} (pos : 0 < n) :
    ∃ d ds, Nat.toDigits 10 n = d :: ds ∧ d ≠ '0' := by
  induction n using Nat.strongRecOn with
  | _ n ih =>
    rw [Nat.toDigits_eq_if (by decide)]
    by_cases small : n < 10
    · refine ⟨n.digitChar, [], if_pos small, ?_⟩
      intro zero
      have := Nat.digitChar_eq_zero.mp zero
      omega
    · obtain ⟨d, ds, digits, first⟩ := ih (n / 10) (by omega) (by omega)
      exact ⟨d, ds ++ [(n % 10).digitChar], by rw [if_neg small, digits, List.cons_append], first⟩

/-- More digits make no number smaller. -/
theorem le_ofDigitChars (ds : List Char) (n : Nat) : n ≤ Nat.ofDigitChars 10 ds n := by
  induction ds generalizing n with
  | nil => exact Nat.le_of_eq Nat.ofDigitChars_nil.symm
  | cons d ds ih =>
    rw [Nat.ofDigitChars_cons]
    have := ih (10 * n + (d.toNat - '0'.toNat))
    omega

end PhotoArchive.Number
