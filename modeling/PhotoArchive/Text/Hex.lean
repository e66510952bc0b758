import PhotoArchive.Text.Quoted

/-!
# Hexadecimal text

Bytes written as two hexadecimal digits each, and the reading of such text. The text is read as
UTF-8 bytes, so the place of a fault is a byte offset, and a fault inside a character of several
bytes names the byte. An odd number of bytes is found before any digit is looked at.
-/
namespace PhotoArchive.Text

/-- Why a text is not a sequence of hexadecimal pairs: it has an odd number of bytes, or a byte is
no digit. Of these the first is named, with its offset. -/
inductive HexFault where
  | oddLength
  | notDigit (byte : UInt8) (offset : Nat)
  deriving DecidableEq, Repr

/-- The wording of a fault. A byte is shown as the character of its number. -/
def HexFault.message : HexFault → String
  | .oddLength => "Odd number of digits"
  | .notDigit byte offset =>
    "Invalid character " ++ quotedChar (Char.ofNat byte.toNat) ++ " at position " ++
      toString offset

def hexChars (bytes : List UInt8) : List Char :=
  bytes.flatMap hexPair

def toHex (bytes : List UInt8) : String :=
  String.ofList (hexChars bytes)

theorem hexDigit_inj {m n : Nat} (hm : m < 16) (hn : n < 16) (h : hexDigit m = hexDigit n) :
    m = n := by
  have all : ∀ a b : Fin 16, hexDigit a = hexDigit b → a = b := by decide
  exact congrArg Fin.val (all ⟨m, hm⟩ ⟨n, hn⟩ h)

theorem hexDigit_mod (n : Nat) : hexDigit (n % 16) = hexDigit n := by
  simp [hexDigit]

theorem hexPair_injective {a b : UInt8} (h : hexPair a = hexPair b) : a = b := by
  simp only [hexPair, List.cons.injEq, and_true] at h
  have ha := a.toNat_lt
  have hb := b.toNat_lt
  have high := hexDigit_inj (by omega) (by omega) h.1
  rw [← hexDigit_mod a.toNat, ← hexDigit_mod b.toNat] at h
  have low := hexDigit_inj (by omega) (by omega) h.2
  exact UInt8.toNat_inj.mp (by omega)

/-- The digits of some bytes determine them. -/
theorem hexChars_injective {a b : List UInt8} (h : hexChars a = hexChars b) : a = b := by
  induction a generalizing b with
  | nil =>
    cases b with
    | nil => rfl
    | cons y b => cases h
  | cons x a ih =>
    cases b with
    | nil => cases h
    | cons y b =>
      simp only [hexChars, List.flatMap_cons] at h
      obtain ⟨first, rest⟩ := List.append_inj h rfl
      rw [hexPair_injective first, ih rest]

/-- The value of a hexadecimal digit of either case. -/
def hexCharValue? (c : Char) : Option Nat :=
  if '0' ≤ c ∧ c ≤ '9' then some (c.toNat - '0'.toNat)
  else if 'a' ≤ c ∧ c ≤ 'f' then some (c.toNat - 'a'.toNat + 10)
  else if 'A' ≤ c ∧ c ≤ 'F' then some (c.toNat - 'A'.toNat + 10)
  else none

/-- The value of a byte that is a digit of either case. -/
def hexValue? (b : UInt8) : Option UInt8 :=
  if 0x30 ≤ b ∧ b ≤ 0x39 then some (b - 0x30)
  else if 0x41 ≤ b ∧ b ≤ 0x46 then some (b - 0x41 + 10)
  else if 0x61 ≤ b ∧ b ≤ 0x66 then some (b - 0x61 + 10)
  else none

/-- The value of the digit at an offset, or the fault that it is none. -/
def hexValueAt (offset : Nat) (b : UInt8) : Except HexFault UInt8 :=
  match hexValue? b with
  | some v => .ok v
  | none => .error (.notDigit b offset)

/-- Reads pairs of digits from the given offset on. A last digit without a partner is left out. -/
def readHexPairs (offset : Nat) : List UInt8 → Except HexFault (List UInt8)
  | high :: low :: rest =>
    match hexValueAt offset high with
    | .error f => .error f
    | .ok h =>
      match hexValueAt (offset + 1) low with
      | .error f => .error f
      | .ok l =>
        match readHexPairs (offset + 2) rest with
        | .error f => .error f
        | .ok bytes => .ok ((h * 16 + l) :: bytes)
  | _ => .ok []

def utf8Bytes (s : String) : List UInt8 :=
  s.toUTF8.data.toList

/-- Reads a text of hexadecimal pairs. -/
def ofHex (s : String) : Except HexFault (List UInt8) :=
  let bytes := utf8Bytes s
  if bytes.length % 2 = 1 then .error .oddLength else readHexPairs 0 bytes

end PhotoArchive.Text
