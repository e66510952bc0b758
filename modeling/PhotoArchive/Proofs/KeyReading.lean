import PhotoArchive.Proofs.JsonRoundTrip

/-!
# Reading keys from arrays of any elements

A key is an array of 32 numbers from 0 to 255. What is read from an array of any length and of any
elements is decided by what comes first: an element among the first 32 that is no such number, the
end of an array with fewer elements, or an element behind the last one of the key. What stands
behind it is not looked at.
-/
namespace PhotoArchive.Json

variable {α β : Type}

inductive IsByte : Json → Prop where
  | integer {n : Int} (least : 0 ≤ n) (greatest : n ≤ 255) : IsByte (.integer n)

/-- What is wrong with a value that stands where a byte is wanted. -/
def byteMismatch : Json → Mismatch
  | .null => .wrongKind .null .byte
  | .boolean b => .wrongKind (.boolean b) .byte
  | .integer n => .outOfRange n .byte
  | .text s => .wrongKind (.text s) .byte
  | .array _ => .wrongKind .sequence .byte
  | .object _ => .wrongKind .map .byte

theorem IsByte.exists_eq {e : Json} (isByte : e.IsByte) :
    ∃ b : UInt8, e = .integer b.toNat := by
  cases isByte with
  | @integer n least greatest =>
    refine ⟨UInt8.ofNat n.toNat, ?_⟩
    congr 1
    simp
    omega

theorem exists_eq_map_of_isByte {es : List Json} (bytes : ∀ e ∈ es, e.IsByte) :
    ∃ bs : List UInt8, es = bs.map fun b => .integer b.toNat := by
  induction es with
  | nil => exact ⟨[], rfl⟩
  | cons e es ih =>
    obtain ⟨b, rfl⟩ := (bytes e List.mem_cons_self).exists_eq
    obtain ⟨bs, rfl⟩ := ih fun e' mem => bytes e' (List.mem_cons_of_mem _ mem)
    exact ⟨b :: bs, rfl⟩

namespace Reader

/-- A value that is no byte is refused where it starts, whatever follows. -/
theorem byte_fault {e : Json} (noByte : ¬ e.IsByte) (ts : List Token) :
    byte.run (e.start :: ts) = .error (.mismatch e.byteMismatch) := by
  cases e with
  | integer n =>
    have outside : ¬ (0 ≤ n ∧ n < (256 : Nat)) := by
      rintro ⟨least, greatest⟩
      exact noByte (.integer least (by omega))
    simp only [start, byte, Reader.map, below, ofToken, if_neg outside, byteMismatch]
  | null => rfl
  | boolean b => rfl
  | text s => rfl
  | array es => rfl
  | object ms => rfl

end Reader

/-! ## Elements and the commas behind them -/

/-- The tokens of elements with a comma behind each of them. -/
def leadingTokens (es : List Json) : List Token :=
  es.flatMap fun e => asTokens e ++ [.comma]

theorem leadingTokens_cons (e : Json) (es : List Json) :
    leadingTokens (e :: es) = asTokens e ++ .comma :: leadingTokens es := by
  simp [leadingTokens]

/-- The comma behind an element is the one before the next element. -/
theorem separator_leadingTokens (before : Nat) (es : List Json) (ts : List Token) :
    separator before ++ (leadingTokens es ++ ts) =
      tokensAfter before es ++ (separator (before + es.length) ++ ts) := by
  induction es generalizing before with
  | nil => rfl
  | cons e es ih =>
    have next : .comma :: (leadingTokens es ++ ts) = _ := ih (before + 1)
    have place : before + (e :: es).length = before + 1 + es.length := by
      simp only [List.length_cons]
      omega
    rw [place, leadingTokens_cons, List.append_assoc, List.cons_append, next, tokensAfter]
    simp only [List.append_assoc]

theorem leadingTokens_append (es : List Json) (ts : List Token) :
    leadingTokens es ++ ts = tokensAfter 0 es ++ (separator es.length ++ ts) := by
  have whole := separator_leadingTokens 0 es ts
  rwa [Nat.zero_add] at whole

theorem elementTokens_append (before : List Json) (e : Json) (after : List Json) :
    elementTokens (before ++ e :: after) = leadingTokens before ++ elementTokens (e :: after) := by
  induction before with
  | nil => rfl
  | cons b before ih =>
    rw [leadingTokens_cons, List.append_assoc, List.cons_append, List.cons_append, ← ih]
    cases before with
    | nil => rfl
    | cons _ _ => rfl

/-- Where an element of an array starts, behind the elements before it and their commas. -/
theorem exists_asTokens_array (before : List Json) (e : Json) (after : List Json) :
    ∃ ts, asTokens (.array (before ++ e :: after)) =
      .openBracket :: (leadingTokens before ++ e.start :: ts) := by
  obtain ⟨ts, starts⟩ := exists_asTokens_eq e
  rw [asTokens, elementTokens_append, elementTokens_cons, starts]
  simp only [List.cons_append, List.append_assoc]
  exact ⟨_, rfl⟩

/-! ## Elements up to the first problem -/

section Elements

variable (expected : Expected) {bs : List UInt8} {count : Nat}

/-- An element that is no byte is the fault where it starts. -/
theorem exactly_noByte (few : bs.length < count) {e : Json} (noByte : ¬ e.IsByte)
    (ts : List Token) :
    exactly Reader.byte expected 0 count
        (leadingTokens (bs.map fun b => .integer b.toNat) ++ e.start :: ts) =
      .error (.mismatch e.byteMismatch) := by
  have bytes : ∀ b ∈ bs, Reader.byte.Takes (asTokens (.integer b.toNat)) b :=
    Reader.takes_bytes bs
  -- one more element is wanted after the bytes, and it is the one that is refused
  obtain ⟨more, rfl⟩ := Nat.exists_eq_add_of_lt few
  rw [leadingTokens_append, List.length_map, Nat.add_assoc, exactly_append expected bytes,
    Nat.zero_add, exactly, nextElement_start]
  simp only [Reader.byte_fault noByte]
  rfl

/-- The end of an array is the fault where there are too few elements. -/
theorem exactly_tooFew (few : bs.length < count) (rest : List Token) :
    exactly Reader.byte expected 0 count
        (elementTokens (bs.map fun b => .integer b.toNat) ++ .closeBracket :: rest) =
      .error (.mismatch (.tooFew bs.length expected)) := by
  have bytes : ∀ b ∈ bs, Reader.byte.Takes (asTokens (.integer b.toNat)) b :=
    Reader.takes_bytes bs
  obtain ⟨more, rfl⟩ := Nat.exists_eq_add_of_lt few
  rw [elementTokens_eq, Nat.add_assoc, exactly_append expected bytes, Nat.zero_add]
  simp only [exactly, nextElement, Except.map]

end Elements

theorem Body.vector_fault {r : Reader α} {expected : Expected} {count : Nat} {ts : List Token}
    {f : Fault} (fault : exactly r expected 0 count ts = .error f) :
    (Body.vector count expected r).run ts = .error f := by
  simp only [Body.vector]
  split
  next same => cases same.symm.trans fault; rfl
  next value => cases value.symm.trans fault

namespace Reader

theorem array_fault {expected : Expected} {elements : Body α} {ts : List Token} {f : Fault}
    (fault : elements.run ts = .error f) :
    (array expected elements).run (.openBracket :: ts) = .error f := by
  simp only [array, fault]

/-- An array goes on where its contents have been read. -/
theorem array_notEnded {expected : Expected} {elements : Body α} {ts rest : List Token} {a : α}
    (contents : elements.run ts = .ok (a, .comma :: rest)) :
    (array expected elements).run (.openBracket :: ts) = .error .notJson := by
  simp only [array, contents, endArray]

/-! ## Keys -/

theorem blobKey_fault {ts : List Token} {f : Fault}
    (fault : exactly byte .keyBytes 0 32 ts = .error f) :
    blobKey.run (.openBracket :: ts) = .error f :=
  array_fault (Body.map_fault (Body.vector_fault fault) BlobKey.mk)

theorem blobKey_noByte {before : List Json} (few : before.length < 32)
    (bytes : ∀ b ∈ before, b.IsByte) {e : Json} (noByte : ¬ e.IsByte) (ts : List Token) :
    blobKey.run (.openBracket :: (leadingTokens before ++ e.start :: ts)) =
      .error (.mismatch e.byteMismatch) := by
  obtain ⟨bs, rfl⟩ := exists_eq_map_of_isByte bytes
  rw [List.length_map] at few
  exact blobKey_fault (exactly_noByte .keyBytes few noByte ts)

theorem blobKey_tooFew {es : List Json} (few : es.length < 32) (bytes : ∀ e ∈ es, e.IsByte) :
    blobKey.run (asTokens (.array es)) = .error (.mismatch (.tooFew es.length .keyBytes)) := by
  obtain ⟨bs, rfl⟩ := exists_eq_map_of_isByte bytes
  rw [List.length_map] at few ⊢
  exact blobKey_fault (exactly_tooFew .keyBytes few [])

/-- As many bytes as a key has are the bytes of a key. -/
theorem exists_key {es : List Json} (length : es.length = 32) (bytes : ∀ e ∈ es, e.IsByte) :
    ∃ k : BlobKey, es = k.bytes.toList.map fun b => .integer b.toNat := by
  obtain ⟨bs, rfl⟩ := exists_eq_map_of_isByte bytes
  rw [List.length_map] at length
  have size : bs.toArray.size = 32 := by simpa using length
  exact ⟨⟨⟨bs.toArray, size⟩⟩, rfl⟩

/-- A comma behind the last element of a key is the fault, whatever follows it. -/
theorem blobKey_more {firsts : List Json} (length : firsts.length = 32)
    (bytes : ∀ e ∈ firsts, e.IsByte) (ts : List Token) :
    blobKey.run (.openBracket :: (leadingTokens firsts ++ ts)) = .error .notJson := by
  obtain ⟨k, rfl⟩ := exists_key length bytes
  have each : ∀ b ∈ k.bytes.toList, byte.Takes (asTokens (.integer b.toNat)) b :=
    takes_bytes k.bytes.toList
  have vector := vector_run .keyBytes k.bytes each (.comma :: ts)
  rw [leadingTokens_append, length, ← elementTokens_eq]
  exact array_notEnded (Body.map_run vector BlobKey.mk)

/-- How few elements there are is said beside the wanted number. -/
theorem tooFew_keyBytes_message (n : Nat) :
    (Mismatch.tooFew n .keyBytes).message decimalStyle =
      "invalid length " ++ toString n ++ ", expected an array of length 32" :=
  String.append_assoc

/-- What is read as a key from a text of an array. The first element among the first 32 that is no
number from 0 to 255 is the fault: a number out of range, or a value of another kind. Without such
an element, fewer than 32 are too few, 32 are the key, and more than 32 are no text of a key. What
stands behind the start of the first problem is not looked at, and need not be JSON. -/
theorem blobKey_classifies (s : String) :
    (∀ es : List Json, (Json.array es).IsText s →
      (∀ before e after, es = before ++ e :: after → before.length < 32 →
          (∀ b ∈ before, b.IsByte) → ¬ e.IsByte →
          blobKey.parse s = .error (.mismatch e.byteMismatch)) ∧
        ((∀ e ∈ es.take 32, e.IsByte) →
          (es.length < 32 →
            blobKey.parse s = .error (.mismatch (.tooFew es.length .keyBytes)) ∧
              (Mismatch.tooFew es.length .keyBytes).message decimalStyle =
                "invalid length " ++ toString es.length ++ ", expected an array of length 32") ∧
          (es.length = 32 → ∃ k : BlobKey, blobKey.parse s = .ok k ∧
            es = k.bytes.toList.map fun b => .integer b.toNat) ∧
          (32 < es.length → blobKey.parse s = .error .notJson))) ∧
      (∀ (before : List Json) (e : Json) (rest : List Char), before.length < 32 →
        (∀ b ∈ before, b.IsByte) → ¬ e.IsByte →
        Spells rest s.toList (.openBracket :: (leadingTokens before ++ [e.start])) →
        blobKey.parse s = .error (.mismatch e.byteMismatch)) ∧
      ∀ (firsts : List Json) (rest : List Char), firsts.length = 32 →
        (∀ e ∈ firsts, e.IsByte) →
        Spells rest s.toList (.openBracket :: leadingTokens firsts) →
        blobKey.parse s = .error .notJson := by
  refine ⟨fun es isText => ⟨?_, fun bytes => ⟨?_, ?_, ?_⟩⟩, ?_, ?_⟩
  · rintro before e after rfl few isByte noByte
    obtain ⟨ts, split⟩ := exists_asTokens_array before e after
    exact parse_fault (isText.tokens_eq.trans split) (blobKey_noByte few isByte noByte ts)
  · intro few
    rw [List.take_of_length_le (Nat.le_of_lt few)] at bytes
    exact ⟨parse_fault isText.tokens_eq (blobKey_tooFew few bytes), tooFew_keyBytes_message _⟩
  · intro length
    rw [List.take_of_length_le (Nat.le_of_eq length)] at bytes
    obtain ⟨k, rfl⟩ := exists_key length bytes
    exact ⟨k, (takes_blobKey k).parse_text isText, rfl⟩
  · intro more
    obtain ⟨ts, split⟩ := exists_asTokens_array (es.take 32) es[32] (es.drop 33)
    rw [← List.drop_eq_getElem_cons more, List.take_append_drop] at split
    have length : (es.take 32).length = 32 := List.length_take_of_le (Nat.le_of_lt more)
    exact parse_fault (isText.tokens_eq.trans split) (blobKey_more length bytes _)
  · intro before e rest few bytes noByte spells
    have cut := spells.tokens_eq
    rw [List.cons_append, List.append_assoc] at cut
    exact parse_fault cut (blobKey_noByte few bytes noByte _)
  · intro firsts rest length bytes spells
    exact parse_fault spells.tokens_eq (blobKey_more length bytes _)

/-- A text that stands second in an array is the fault, and the number out of range behind it is
not looked at. -/
theorem blobKey_classifies_text :
    blobKey.parse "[7,\"x\",300]" = .error (.mismatch (.wrongKind (.text "x") .byte)) := by
  have fits : (Json.array [.integer 7, .text "x", .integer 300]).Fits := by
    refine .array fun e mem => ?_
    simp only [List.mem_cons, List.not_mem_nil, or_false] at mem
    rcases mem with rfl | rfl | rfl
    · exact fits_nat (n := 7) (by decide)
    · exact .text "x"
    · exact fits_nat (n := 300) (by decide)
  have bytes : ∀ b ∈ [Json.integer 7], b.IsByte := by
    intro b mem
    rw [List.mem_singleton.mp mem]
    exact .integer (by decide) (by decide)
  obtain ⟨array, -⟩ := blobKey_classifies "[7,\"x\",300]"
  exact (array _ fits.isText_compact).1 [.integer 7] (.text "x") [.integer 300] rfl (by decide)
    bytes nofun

end Reader

end PhotoArchive.Json
