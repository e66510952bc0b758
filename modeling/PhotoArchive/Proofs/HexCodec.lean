import PhotoArchive.BlobKey

/-!
# Keys and their digits

Which texts denote a key, and why the others do not. A text is read by its UTF-8 bytes, and it has
only hexadecimal digits for bytes where it has only hexadecimal digits for characters. What is wrong
is said in a fixed order: an odd number of bytes, then the first byte that is no digit, then a
number of digits that is not that of a key. A key is written as the text that it was read from, in
lower case, and what is written is read back.
-/
namespace PhotoArchive

namespace Text

def IsHexDigit (n : Nat) : Prop :=
  ('0'.toNat ≤ n ∧ n ≤ '9'.toNat) ∨ ('a'.toNat ≤ n ∧ n ≤ 'f'.toNat) ∨
    ('A'.toNat ≤ n ∧ n ≤ 'F'.toNat)

instance : DecidablePred IsHexDigit := fun _ => inferInstanceAs (Decidable (_ ∨ _))

theorem IsHexDigit.lt {n : Nat} (h : IsHexDigit n) : n < 128 := by
  rcases h with ⟨-, le⟩ | ⟨-, le⟩ | ⟨-, le⟩ <;> exact Nat.lt_of_le_of_lt le (by decide)

/-! ## Bytes of a text -/

/-- The bytes that stand for the character of a number: a byte that tells how many there are, then
six bits of the number in each byte. -/
inductive IsUtf8 (n : Nat) : List UInt8 → Prop where
  | one (high : n < 0x80) : IsUtf8 n [.ofNat n]
  | two (low : 0x80 ≤ n) (high : n < 0x800) :
      IsUtf8 n [.ofNat (0xC0 + n / 64), .ofNat (0x80 + n % 64)]
  | three (low : 0x800 ≤ n) (high : n < 0x10000) :
      IsUtf8 n [.ofNat (0xE0 + n / 64 / 64), .ofNat (0x80 + n / 64 % 64), .ofNat (0x80 + n % 64)]
  | four (low : 0x10000 ≤ n) (high : n < 0x110000) :
      IsUtf8 n [.ofNat (0xF0 + n / 64 / 64 / 64), .ofNat (0x80 + n / 64 / 64 % 64),
        .ofNat (0x80 + n / 64 % 64), .ofNat (0x80 + n % 64)]

theorem codePoint_lt (c : Char) : c.toNat < 0x110000 := by
  have valid := c.valid
  simp only [UInt32.isValidChar, Nat.isValidChar, show c.val.toNat = c.toNat from rfl] at valid
  omega

theorem isUtf8_utf8EncodeChar (c : Char) : IsUtf8 c.toNat (String.utf8EncodeChar c) := by
  have high := codePoint_lt c
  unfold String.utf8EncodeChar
  simp only [show c.val.toNat = c.toNat from rfl]
  split
  · exact .one (by omega)
  · split
    · have lead : c.toNat / 64 % 32 + 192 = 0xC0 + c.toNat / 64 := by omega
      rw [lead, Nat.add_comm (c.toNat % 64)]
      exact .two (by omega) (by omega)
    · split
      · have lead : c.toNat / 4096 % 16 + 224 = 0xE0 + c.toNat / 64 / 64 := by omega
        rw [lead, Nat.add_comm (c.toNat / 64 % 64), Nat.add_comm (c.toNat % 64)]
        exact .three (by omega) (by omega)
      · have lead : c.toNat / 262144 % 8 + 240 = 0xF0 + c.toNat / 64 / 64 / 64 := by omega
        have upper : c.toNat / 4096 % 64 + 128 = 0x80 + c.toNat / 64 / 64 % 64 := by omega
        rw [lead, upper, Nat.add_comm (c.toNat / 64 % 64), Nat.add_comm (c.toNat % 64)]
        exact .four (by omega) high

/-- A character is a digit where all its bytes are. -/
theorem forall_utf8EncodeChar_isHexDigit (c : Char) :
    (∀ b ∈ String.utf8EncodeChar c, IsHexDigit b.toNat) ↔ IsHexDigit c.toNat := by
  have coded := isUtf8_utf8EncodeChar c
  generalize String.utf8EncodeChar c = bytes at coded ⊢
  cases coded with
  | one high =>
    have same : (UInt8.ofNat c.toNat).toNat = c.toNat := by simp; omega
    simp [same]
  | two low high | three low high | four low high =>
    -- a character of several bytes starts with a byte that is beyond all digits
    have noDigit : ¬ IsHexDigit c.toNat := fun digit => by have := digit.lt; omega
    refine iff_of_false (fun digits => ?_) noDigit
    have := (digits _ List.mem_cons_self).lt
    simp at this
    omega

theorem utf8EncodeChar_of_isHexDigit {c : Char} (digit : IsHexDigit c.toNat) :
    String.utf8EncodeChar c = [UInt8.ofNat c.toNat] := by
  have ascii : c.val.toNat ≤ 127 := Nat.le_of_lt_succ digit.lt
  unfold String.utf8EncodeChar
  exact if_pos ascii

theorem utf8Bytes_eq (s : String) : utf8Bytes s = s.toList.flatMap String.utf8EncodeChar := by
  rw [utf8Bytes, String.toUTF8, ← String.utf8Encode_toList, List.utf8Encode,
    List.toList_data_toByteArray]

theorem toList_toLower (s : String) : s.toLower.toList = s.toList.map Char.toLower :=
  String.toList_map

/-- The bytes of a text are digits where its characters are. -/
theorem forall_utf8Bytes_isHexDigit (s : String) :
    (∀ b ∈ utf8Bytes s, IsHexDigit b.toNat) ↔ ∀ c ∈ s.toList, IsHexDigit c.toNat := by
  simp only [utf8Bytes_eq, ← forall_utf8EncodeChar_isHexDigit, List.mem_flatMap]
  constructor
  · intro bytes c hc b hb
    exact bytes b ⟨c, hc, hb⟩
  · rintro chars b ⟨c, hc, hb⟩
    exact chars c hc b hb

/-- Each character of a text of digits is one byte. -/
theorem utf8Bytes_of_digits {s : String} (digits : ∀ c ∈ s.toList, IsHexDigit c.toNat) :
    utf8Bytes s = s.toList.map fun c => UInt8.ofNat c.toNat := by
  have each : s.toList.map String.utf8EncodeChar = s.toList.map fun c => [UInt8.ofNat c.toNat] :=
    List.map_congr_left fun c mem => utf8EncodeChar_of_isHexDigit (digits c mem)
  rw [utf8Bytes_eq, List.map_eq_flatMap, List.flatMap_def, List.flatMap_def, each]

/-! ## Pairs of digits -/

/-- A digit has a value below sixteen, and the digit of that value is the same in lower case. -/
theorem exists_hexValue? {b : UInt8} (digit : IsHexDigit b.toNat) :
    ∃ v, hexValue? b = some v ∧ v.toNat < 16 ∧
      hexDigit v.toNat = (Char.ofNat b.toNat).toLower := by
  have all : ∀ n : Fin 256, IsHexDigit n.val → ∃ v : Fin 16,
      hexValue? (UInt8.ofNat n.val) = some (UInt8.ofNat v.val) ∧
        hexDigit v.val = (Char.ofNat n.val).toLower := by decide +kernel
  obtain ⟨v, value, lower⟩ := all ⟨b.toNat, b.toNat_lt⟩ digit
  have same : (UInt8.ofNat v.val).toNat = v.val := by
    have := v.isLt
    simp
    omega
  rw [UInt8.ofNat_toNat] at value
  exact ⟨UInt8.ofNat v.val, value, by rw [same]; exact v.isLt, by rw [same]; exact lower⟩

theorem hexValue?_eq_none {b : UInt8} (noDigit : ¬ IsHexDigit b.toNat) : hexValue? b = none := by
  have all : ∀ n : Fin 256, ¬ IsHexDigit n.val → hexValue? (UInt8.ofNat n.val) = none := by
    decide +kernel
  have none := all ⟨b.toNat, b.toNat_lt⟩ noDigit
  rwa [UInt8.ofNat_toNat] at none

theorem exists_hexValueAt (offset : Nat) {b : UInt8} (digit : IsHexDigit b.toNat) :
    ∃ v, hexValueAt offset b = .ok v ∧ v.toNat < 16 ∧
      hexDigit v.toNat = (Char.ofNat b.toNat).toLower := by
  obtain ⟨v, value, rest⟩ := exists_hexValue? digit
  exact ⟨v, by rw [hexValueAt, value], rest⟩

theorem hexValueAt_error (offset : Nat) {b : UInt8} (noDigit : ¬ IsHexDigit b.toNat) :
    hexValueAt offset b = .error (.notDigit b offset) := by
  rw [hexValueAt, hexValue?_eq_none noDigit]

/-- The digits of a byte are those of its two halves. -/
theorem hexPair_of_halves {h l : UInt8} (high : h.toNat < 16) (low : l.toNat < 16) :
    hexPair (h * 16 + l) = [hexDigit h.toNat, hexDigit l.toNat] := by
  have whole : (h * 16 + l).toNat = h.toNat * 16 + l.toNat := by
    simp
    omega
  have upper : (h.toNat * 16 + l.toNat) / 16 = h.toNat := by omega
  have lower : (h.toNat * 16 + l.toNat) % 16 = l.toNat := by omega
  rw [hexPair, whole, upper, ← hexDigit_mod (h.toNat * 16 + l.toNat), lower]

/-- Pairs of digits are read as the bytes whose digits they are in lower case. -/
theorem exists_readHexPairs (offset : Nat) (ds : List UInt8) (even : ds.length % 2 = 0)
    (digits : ∀ d ∈ ds, IsHexDigit d.toNat) :
    ∃ bytes, readHexPairs offset ds = .ok bytes ∧ ds.length = 2 * bytes.length ∧
      hexChars bytes = ds.map fun d => (Char.ofNat d.toNat).toLower := by
  match ds with
  | [] => exact ⟨[], rfl, rfl, rfl⟩
  | [d] => cases even
  | high :: low :: rest =>
    simp only [List.length_cons] at even
    obtain ⟨h, readHigh, hlt, hdigit⟩ := exists_hexValueAt offset (digits high (by simp))
    obtain ⟨l, readLow, llt, ldigit⟩ := exists_hexValueAt (offset + 1) (digits low (by simp))
    obtain ⟨bytes, readRest, length, chars⟩ := exists_readHexPairs (offset + 2) rest (by omega)
      fun d mem => digits d (by simp [mem])
    refine ⟨(h * 16 + l) :: bytes, ?_, ?_, ?_⟩
    · rw [readHexPairs, readHigh, readLow, readRest]
    · simp only [List.length_cons]
      omega
    · rw [hexChars, List.flatMap_cons, ← hexChars, chars, hexPair_of_halves hlt llt, hdigit, ldigit]
      rfl

/-- The first byte that is no digit is the fault, be it the first or the second of a pair. -/
theorem readHexPairs_error (offset : Nat) (before : List UInt8) (b : UInt8) (after : List UInt8)
    (even : (before ++ b :: after).length % 2 = 0) (digits : ∀ d ∈ before, IsHexDigit d.toNat)
    (noDigit : ¬ IsHexDigit b.toNat) :
    readHexPairs offset (before ++ b :: after) = .error (.notDigit b (offset + before.length)) := by
  match before with
  | [] =>
    cases after with
    | nil => cases even
    | cons low after =>
      rw [List.nil_append, readHexPairs, hexValueAt_error offset noDigit]
      rfl
  | [high] =>
    obtain ⟨h, readHigh, -⟩ := exists_hexValueAt offset (digits high (by simp))
    rw [List.cons_append, List.nil_append, readHexPairs, readHigh,
      hexValueAt_error (offset + 1) noDigit]
    rfl
  | high :: low :: before =>
    simp only [List.cons_append, List.length_cons] at even
    obtain ⟨h, readHigh, -⟩ := exists_hexValueAt offset (digits high (by simp))
    obtain ⟨l, readLow, -⟩ := exists_hexValueAt (offset + 1) (digits low (by simp))
    have rest := readHexPairs_error (offset + 2) before b after (by omega)
      (fun d mem => digits d (by simp [mem])) noDigit
    rw [List.cons_append, List.cons_append, readHexPairs, readHigh, readLow, rest]
    have offsets : offset + 2 + before.length = offset + (before.length + 2) := by omega
    simp only [offsets, List.length_cons]

/-! ## Texts of pairs -/

theorem ofHex_odd {s : String} (odd : (utf8Bytes s).length % 2 = 1) :
    ofHex s = .error .oddLength :=
  if_pos odd

theorem ofHex_notDigit {s : String} (even : (utf8Bytes s).length % 2 = 0)
    {before after : List UInt8} {b : UInt8} (bytes : utf8Bytes s = before ++ b :: after)
    (digits : ∀ d ∈ before, IsHexDigit d.toNat) (noDigit : ¬ IsHexDigit b.toNat) :
    ofHex s = .error (.notDigit b before.length) := by
  have notOdd : ¬ (utf8Bytes s).length % 2 = 1 := by omega
  rw [bytes] at even
  have fault := readHexPairs_error 0 before b after even digits noDigit
  rw [← bytes, Nat.zero_add] at fault
  exact (if_neg notOdd).trans fault

/-- A text of an even number of digits is read as the bytes that are written like it in lower
case. -/
theorem exists_ofHex {s : String} (even : (utf8Bytes s).length % 2 = 0)
    (digits : ∀ b ∈ utf8Bytes s, IsHexDigit b.toNat) :
    ∃ bytes, ofHex s = .ok bytes ∧ (utf8Bytes s).length = 2 * bytes.length ∧
      toHex bytes = s.toLower := by
  have notOdd : ¬ (utf8Bytes s).length % 2 = 1 := by omega
  obtain ⟨bytes, read, length, chars⟩ := exists_readHexPairs 0 _ even digits
  refine ⟨bytes, (if_neg notOdd).trans read, length, ?_⟩
  have each := (forall_utf8Bytes_isHexDigit s).mp digits
  rw [utf8Bytes_of_digits each, List.map_map] at chars
  rw [toHex, chars, ← String.toList_inj, String.toList_ofList, toList_toLower]
  refine List.map_congr_left fun c mem => ?_
  have same : (UInt8.ofNat c.toNat).toNat = c.toNat := by
    have := (each c mem).lt
    simp
    omega
  rw [Function.comp_apply, same, Char.ofNat_toNat]

theorem length_hexChars (bytes : List UInt8) : (hexChars bytes).length = 2 * bytes.length := by
  induction bytes with
  | nil => rfl
  | cons b bytes ih =>
    rw [hexChars, List.flatMap_cons, List.length_append, ← hexChars, ih, hexPair]
    simp only [List.length_cons, List.length_nil]
    omega

/-- What is written are digits in lower case. -/
theorem isHexDigit_of_mem_hexChars {bytes : List UInt8} {c : Char} (mem : c ∈ hexChars bytes) :
    IsHexDigit c.toNat ∧ c.toLower = c := by
  have all : ∀ n : Fin 16, IsHexDigit (hexDigit n.val).toNat ∧
      (hexDigit n.val).toLower = hexDigit n.val := by decide
  have digit (n : Nat) : IsHexDigit (hexDigit n).toNat ∧ (hexDigit n).toLower = hexDigit n := by
    rw [← hexDigit_mod]
    exact all ⟨n % 16, Nat.mod_lt n (by decide)⟩
  obtain ⟨b, -, half⟩ := List.mem_flatMap.mp mem
  simp only [hexPair, List.mem_cons, List.not_mem_nil, or_false] at half
  rcases half with rfl | rfl
  · exact digit (b.toNat / 16)
  · exact digit b.toNat

/-- A text has digits only, or there is a first byte that is none. -/
theorem digits_or_first (bytes : List UInt8) :
    (∀ b ∈ bytes, IsHexDigit b.toNat) ∨ ∃ before b after, bytes = before ++ b :: after ∧
      (∀ d ∈ before, IsHexDigit d.toNat) ∧ ¬ IsHexDigit b.toNat := by
  cases first : bytes.find? fun b => ¬ IsHexDigit b.toNat with
  | none =>
    refine .inl fun b mem => ?_
    simpa using List.find?_eq_none.mp first b mem
  | some b =>
    obtain ⟨noDigit, before, after, split, digits⟩ := List.find?_eq_some_iff_append.mp first
    refine .inr ⟨before, b, after, split, fun d mem => ?_, of_decide_eq_true noDigit⟩
    simpa using digits d mem

end Text

namespace BlobKey

open Text (IsHexDigit utf8Bytes)

theorem ofHex_fault {s : String} {f : Text.HexFault} (fault : Text.ofHex s = .error f) :
    ofHex s = .error (.notHex f) := by
  rw [ofHex, fault]

/-- Bytes in pairs of digits make a key if there are 32 of them. -/
theorem exists_ofHex_of_bytes {s : String} {bytes : List UInt8} (read : Text.ofHex s = .ok bytes)
    (length : bytes.length = 32) : ∃ k, ofHex s = .ok k ∧ k.bytes.toList = bytes := by
  have made : ofBytes? bytes = some ⟨⟨bytes.toArray, by simpa using length⟩⟩ := dif_pos length
  refine ⟨⟨⟨bytes.toArray, by simpa using length⟩⟩, ?_, ?_⟩
  · rw [ofHex, read]
    simp only [made]
  · simp

theorem ofHex_wrongLength {s : String} {bytes : List UInt8} (read : Text.ofHex s = .ok bytes)
    (length : bytes.length ≠ 32) : ofHex s = .error (.wrongLength bytes.length) := by
  have none : ofBytes? bytes = none := dif_neg length
  rw [ofHex, read]
  simp only [none]

/-- A text of 64 digits is read as the key that is written like it in lower case. -/
theorem exists_ofHex_of_digits {s : String} (length : s.length = 64)
    (digits : ∀ c ∈ s.toList, IsHexDigit c.toNat) :
    ∃ k, ofHex s = .ok k ∧ k.toHex = s.toLower := by
  have bytesLength : (utf8Bytes s).length = 64 := by
    rw [Text.utf8Bytes_of_digits digits, List.length_map, String.length_toList, length]
  obtain ⟨bytes, read, double, lower⟩ := Text.exists_ofHex (by omega)
    ((Text.forall_utf8Bytes_isHexDigit s).mpr digits)
  obtain ⟨k, made, same⟩ := exists_ofHex_of_bytes read (by omega)
  exact ⟨k, made, by rw [toHex, same, lower]⟩

theorem ofHex_toHex (k : BlobKey) : ofHex k.toHex = .ok k := by
  have digits : ∀ c ∈ k.toHex.toList, IsHexDigit c.toNat ∧ c.toLower = c := by
    rw [toHex, Text.toHex, String.toList_ofList]
    exact fun c mem => Text.isHexDigit_of_mem_hexChars mem
  have length : k.toHex.length = 64 := by
    rw [← String.length_toList, toHex, Text.toHex, String.toList_ofList, Text.length_hexChars,
      Vector.length_toList]
  obtain ⟨read, found, lower⟩ := exists_ofHex_of_digits length fun c mem => (digits c mem).1
  have same : k.toHex.toLower = k.toHex := by
    rw [← String.toList_inj, Text.toList_toLower]
    exact (List.map_congr_left fun c mem => (digits c mem).2).trans (List.map_id _)
  rw [found, toHex_injective (lower.trans same)]

theorem ofHex_digits {s : String} (even : (utf8Bytes s).length % 2 = 0)
    (digits : ∀ b ∈ utf8Bytes s, IsHexDigit b.toNat) (length : (utf8Bytes s).length ≠ 64) :
    ofHex s = .error (.wrongLength ((utf8Bytes s).length / 2)) := by
  obtain ⟨bytes, read, double, -⟩ := Text.exists_ofHex even digits
  have half : (utf8Bytes s).length / 2 = bytes.length := by omega
  rw [half]
  exact ofHex_wrongLength read (by omega)

/-- Only a text of 64 digits is read as a key. -/
theorem digits_of_ofHex {s : String} {k : BlobKey} (read : ofHex s = .ok k) :
    s.length = 64 ∧ ∀ c ∈ s.toList, IsHexDigit c.toNat := by
  rcases Nat.mod_two_eq_zero_or_one (utf8Bytes s).length with even | odd
  · rcases Text.digits_or_first (utf8Bytes s) with digits | ⟨before, b, after, bytes, digits, bad⟩
    · by_cases length : (utf8Bytes s).length = 64
      · have each := (Text.forall_utf8Bytes_isHexDigit s).mp digits
        rw [Text.utf8Bytes_of_digits each, List.length_map, String.length_toList] at length
        exact ⟨length, each⟩
      · rw [ofHex_digits even digits length] at read
        cases read
    · rw [ofHex_fault (Text.ofHex_notDigit even bytes digits bad)] at read
      cases read
  · rw [ofHex_fault (Text.ofHex_odd odd)] at read
    cases read

/-- A text is read as a key where it consists of 64 digits of either case, and the key is written as
the text in lower case; every key is read from what is written. Any other text is refused: for an
odd number of bytes, else for its first byte that is no digit, which may stand within a character,
else for the number of its bytes in pairs. The wording of a fault names the byte and its offset, and
its form the number of bytes that a key has and the number that there are. -/
theorem ofHex_classifies (s : String) :
    let bytes := utf8Bytes s
    ((∃ k, ofHex s = .ok k) ↔ s.length = 64 ∧ ∀ c ∈ s.toList, IsHexDigit c.toNat) ∧
      (∀ k, ofHex s = .ok k → k.toHex = s.toLower) ∧
      (∀ k : BlobKey, ofHex k.toHex = .ok k) ∧
      (bytes.length % 2 = 1 →
        ofHex s = .error (.notHex .oddLength) ∧
          Text.HexFault.oddLength.message = "Odd number of digits") ∧
      (bytes.length % 2 = 0 → ∀ before b after, bytes = before ++ b :: after →
        (∀ d ∈ before, IsHexDigit d.toNat) → ¬ IsHexDigit b.toNat →
        ofHex s = .error (.notHex (.notDigit b before.length)) ∧
          (Text.HexFault.notDigit b before.length).message =
            "Invalid character " ++ Text.quotedChar (Char.ofNat b.toNat) ++ " at position " ++
              toString before.length) ∧
      (bytes.length % 2 = 0 → (∀ b ∈ bytes, IsHexDigit b.toNat) → bytes.length ≠ 64 →
        ofHex s = .error (.wrongLength (bytes.length / 2)) ∧
          (Fault.wrongLength (bytes.length / 2)).form =
            Text.labelled "InvalidLength"
              [("expected", "32"), ("actual", toString (bytes.length / 2))]) := by
  intro bytes
  refine ⟨⟨?_, ?_⟩, ?_, ofHex_toHex, ?_, ?_, ?_⟩
  · rintro ⟨k, read⟩
    exact digits_of_ofHex read
  · rintro ⟨length, digits⟩
    obtain ⟨k, read, -⟩ := exists_ofHex_of_digits length digits
    exact ⟨k, read⟩
  · intro k read
    obtain ⟨length, digits⟩ := digits_of_ofHex read
    obtain ⟨k', read', lower⟩ := exists_ofHex_of_digits length digits
    rw [read'] at read
    cases read
    exact lower
  · intro odd
    exact ⟨ofHex_fault (Text.ofHex_odd odd), rfl⟩
  · intro even before b after split digits noDigit
    exact ⟨ofHex_fault (Text.ofHex_notDigit even split digits noDigit), rfl⟩
  · intro even digits length
    exact ⟨ofHex_digits even digits length, rfl⟩

/-- No byte of an accented letter is a digit: the first of them, here the second half of a pair, is
the fault. -/
theorem ofHex_classifies_accent : ofHex "0é1" = .error (.notHex (.notDigit 0xc3 1)) := by
  have bytes : utf8Bytes "0é1" = [0x30] ++ 0xc3 :: [0xa9, 0x31] := by decide
  have even : (utf8Bytes "0é1").length % 2 = 0 := by decide
  have digit : ∀ d ∈ [(0x30 : UInt8)], IsHexDigit d.toNat := by
    intro d mem
    rw [List.mem_singleton.mp mem]
    decide
  obtain ⟨-, -, -, -, notDigit, -⟩ := ofHex_classifies "0é1"
  exact (notDigit even _ _ _ bytes digit (by decide)).1

end BlobKey

end PhotoArchive
