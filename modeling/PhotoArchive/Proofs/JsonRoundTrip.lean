import PhotoArchive.Json.Photo
import PhotoArchive.Proofs.JsonTokens
import PhotoArchive.Settings.Json

/-!
# What is written in JSON is read back

A reader that takes a value from the tokens that a JSON value is made of takes it from every text of
the JSON value too, and its compact text is one of them. Identifiers, keys, traces, records and
settings are each read back as they were, whatever texts they hold and whichever numbers of their
width.
-/
namespace PhotoArchive

variable {α β σ : Type}

namespace Json

/-- The reader takes the value from the tokens, and no more of what follows. -/
def Reader.Takes (r : Reader α) (ts : List Token) (a : α) : Prop :=
  ∀ rest, r.run (ts ++ rest) = .ok (a, rest)

/-- What a reader takes from the tokens of a JSON value it reads from every text of the value. -/
theorem Reader.Takes.parse_text {r : Reader α} {j : Json} {a : α} (takes : r.Takes j.asTokens a)
    {s : String} (isText : j.IsText s) : r.parse s = .ok a := by
  have run := takes []
  rw [List.append_nil] at run
  rw [Reader.parse, isText.tokens_eq, run]

theorem Reader.Takes.parse {r : Reader α} {j : Json} {a : α} (takes : r.Takes j.asTokens a)
    (fits : j.Fits) : r.parse j.compact = .ok a :=
  takes.parse_text fits.isText_compact

/-- The fault of a reader at the tokens of a text is the fault of the text. -/
theorem Reader.parse_fault {r : Reader α} {s : String} {ts : List Token} {f : Fault}
    (cut : tokens s.toList = ts) (fault : r.run ts = .error f) : r.parse s = .error f := by
  rw [parse, cut, fault]

namespace Reader

theorem takes_text (s : String) : text.Takes [.text (.ok s)] s :=
  fun _ => rfl

theorem takes_boolean (b : Bool) : boolean.Takes [.boolean b] b :=
  fun _ => rfl

theorem takes_below {bound n : Nat} (small : n < bound) (expected : Expected) :
    (below bound expected).Takes [.number (some (.integer n))] n := by
  intro rest
  have inRange : 0 ≤ (n : Int) ∧ (n : Int) < bound := by omega
  simp only [below, ofToken, List.singleton_append, if_pos inRange]
  rfl

theorem Takes.map {r : Reader α} {ts : List Token} {a : α} (takes : r.Takes ts a) (f : α → β) :
    (r.map f).Takes ts (f a) := by
  intro rest
  simp only [Reader.map, takes rest]

theorem takes_byte (b : UInt8) : byte.Takes [.number (some (.integer b.toNat))] b := by
  have read := (takes_below b.toNat_lt .byte).map Nat.toUInt8
  rwa [show b.toNat.toUInt8 = b from UInt8.ofNat_toNat] at read

theorem takes_bytes (bs : List UInt8) :
    ∀ b ∈ bs, byte.Takes [.number (some (.integer b.toNat))] b :=
  fun b _ => takes_byte b

theorem takes_word (n : UInt64) : word.Takes [.number (some (.integer n.toNat))] n := by
  have read := (takes_below n.toNat_lt .word).map Nat.toUInt64
  rwa [show n.toNat.toUInt64 = n from UInt64.ofNat_toNat] at read

theorem takes_optional_none (r : Reader α) : (optional r).Takes [.null] none :=
  fun _ => rfl

theorem Takes.optional {r : Reader α} {t : Token} {ts : List Token} {a : α}
    (takes : r.Takes (t :: ts) a) (notNull : t ≠ .null) :
    (Reader.optional r).Takes (t :: ts) (some a) := by
  intro rest
  have run := takes rest
  simp only [Reader.optional, List.cons_append] at run ⊢
  split
  next same => exact absurd (List.cons.inj same).1 notNull
  next => rw [run]

end Reader

/-! ## Arrays -/

def start : Json → Token
  | .null => .null
  | .boolean b => .boolean b
  | .integer n => .number (some (.integer n))
  | .text s => .text (.ok s)
  | .array _ => .openBracket
  | .object _ => .openBrace

theorem exists_asTokens_eq (j : Json) : ∃ ts, asTokens j = j.start :: ts := by
  cases j <;> exact ⟨_, rfl⟩

/-- What stands before an element that comes after so many others. -/
def separator (before : Nat) : List Token :=
  if before = 0 then [] else [.comma]

def tokensAfter : Nat → List Json → List Token
  | _, [] => []
  | before, e :: es => separator before ++ (asTokens e ++ tokensAfter (before + 1) es)

theorem tokensAfter_succ (before : Nat) (es : List Json) :
    tokensAfter (before + 1) es = es.flatMap fun e => .comma :: asTokens e := by
  induction es generalizing before with
  | nil => rfl
  | cons e es ih =>
    rw [tokensAfter, ih, List.flatMap_cons]
    rfl

theorem elementTokens_eq (es : List Json) : elementTokens es = tokensAfter 0 es := by
  cases es with
  | nil => rfl
  | cons e es =>
    rw [elementTokens_cons, tokensAfter, tokensAfter_succ]
    rfl

/-- An element comes next where a value starts, behind a comma unless it is the first one. -/
theorem nextElement_start (before : Nat) (e : Json) (ts : List Token) :
    nextElement (before == 0) (separator before ++ e.start :: ts) = .ok (true, e.start :: ts) := by
  cases before with
  | zero => cases e <;> rfl
  | succ before => cases e <;> rfl

theorem nextElement_tokensAfter (before : Nat) (e : Json) (es : List Json) (rest : List Token) :
    nextElement (before == 0) (tokensAfter before (e :: es) ++ rest) =
      .ok (true, asTokens e ++ (tokensAfter (before + 1) es ++ rest)) := by
  obtain ⟨ts, starts⟩ := exists_asTokens_eq e
  simp only [tokensAfter, starts, List.append_assoc, List.cons_append]
  exact nextElement_start before e _

theorem elementsFrom_cons {r : Reader α} {first : Bool} {ts ts₁ ts₂ rest : List Token} {a : α}
    {as : List α} (next : nextElement first ts = .ok (true, ts₁)) (run : r.run ts₁ = .ok (a, ts₂))
    (others : elementsFrom r false ts₂ = .ok (as, rest)) :
    elementsFrom r first ts = .ok (a :: as, rest) := by
  rw [elementsFrom]
  split
  next failed => cases failed.symm.trans next
  next last => cases last.symm.trans next
  next more =>
    cases more.symm.trans next
    split
    next failed => cases failed.symm.trans run
    next value =>
      cases value.symm.trans run
      rw [others]

section Elements

variable {r : Reader α} {write : α → Json}

theorem elementsFrom_tokensAfter {as : List α} (each : ∀ a ∈ as, r.Takes (asTokens (write a)) a)
    (before : Nat) (rest : List Token) :
    elementsFrom r (before == 0) (tokensAfter before (as.map write) ++ .closeBracket :: rest) =
      .ok (as, .closeBracket :: rest) := by
  induction as generalizing before with
  | nil => simp [tokensAfter, elementsFrom, nextElement]
  | cons a as ih =>
    have first := each a List.mem_cons_self
    have others := ih (fun b mem => each b (List.mem_cons_of_mem _ mem)) (before + 1)
    exact elementsFrom_cons (nextElement_tokensAfter before _ _ _) (first _) others

/-- Elements that a reader takes, and then as many others as are still wanted. -/
theorem exactly_append (expected : Expected) {as : List α}
    (each : ∀ a ∈ as, r.Takes (asTokens (write a)) a) (before count : Nat) (rest : List Token) :
    exactly r expected before (as.length + count) (tokensAfter before (as.map write) ++ rest) =
      (exactly r expected (before + as.length) count rest).map fun p => (as ++ p.1, p.2) := by
  induction as generalizing before with
  | nil =>
    simp only [List.length_nil, Nat.zero_add, Nat.add_zero, List.map_nil, tokensAfter,
      List.nil_append]
    cases exactly r expected before count rest <;> rfl
  | cons a as ih =>
    have first := each a List.mem_cons_self
    have others := ih (fun b mem => each b (List.mem_cons_of_mem _ mem)) (before + 1)
    have length : (a :: as).length + count = as.length + count + 1 := by
      simp only [List.length_cons]
      omega
    have place : before + (a :: as).length = before + 1 + as.length := by
      simp only [List.length_cons]
      omega
    rw [length, place, exactly, List.map_cons, nextElement_tokensAfter]
    simp only [first _, others]
    cases exactly r expected (before + 1 + as.length) count rest <;> rfl

/-- The elements of an array of any length, up to its end. -/
theorem elements_run {as : List α} (each : ∀ a ∈ as, r.Takes (asTokens (write a)) a)
    (rest : List Token) :
    (Body.elements r).run (elementTokens (as.map write) ++ .closeBracket :: rest) =
      .ok (as, .closeBracket :: rest) := by
  rw [elementTokens_eq]
  exact elementsFrom_tokensAfter each 0 rest

/-- Exactly as many elements as a vector has. -/
theorem vector_run {n : Nat} (expected : Expected) (v : Vector α n)
    (each : ∀ a ∈ v.toList, r.Takes (asTokens (write a)) a) (rest : List Token) :
    (Body.vector n expected r).run (elementTokens (v.toList.map write) ++ rest) =
      .ok (v, rest) := by
  have all := exactly_append expected each 0 0 rest
  rw [Nat.add_zero, Vector.length_toList, ← elementTokens_eq] at all
  simp only [exactly, Except.map, List.append_nil] at all
  simp only [Body.vector]
  split
  next failed => cases failed.symm.trans all
  next value =>
    cases value.symm.trans all
    rfl

end Elements

theorem Body.map_run {b : Body α} {ts rest : List Token} {a : α} (run : b.run ts = .ok (a, rest))
    (f : α → β) : (b.map f).run ts = .ok (f a, rest) := by
  simp only [Body.map, Body.bind, run, Body.ofExcept]

theorem Body.map_fault {b : Body α} {ts : List Token} {f : Fault} (fault : b.run ts = .error f)
    (g : α → β) : (b.map g).run ts = .error f := by
  simp only [Body.map, Body.bind, fault]

/-- An array, given what its contents are taken from. -/
theorem Reader.takes_array {expected : Expected} {elements : Body α} {es : List Json} {a : α}
    (contents : ∀ rest, elements.run (elementTokens es ++ .closeBracket :: rest) =
      .ok (a, .closeBracket :: rest)) :
    (Reader.array expected elements).Takes (asTokens (.array es)) a := by
  intro rest
  simp only [asTokens, List.cons_append, List.append_assoc, List.nil_append, Reader.array,
    contents rest, endArray]

/-! ## Objects -/

/-- The tokens of members that are the first ones of an object, or come after others. -/
def tokensOfMembers : Bool → List (String × Json) → List Token
  | _, [] => []
  | true, m :: ms => .text (.ok m.1) :: .colon :: (asTokens m.2 ++ tokensOfMembers false ms)
  | false, m :: ms =>
    .comma :: .text (.ok m.1) :: .colon :: (asTokens m.2 ++ tokensOfMembers false ms)

theorem tokensOfMembers_false (ms : List (String × Json)) :
    tokensOfMembers false ms =
      ms.flatMap fun m => .comma :: .text (.ok m.1) :: .colon :: asTokens m.2 := by
  induction ms with
  | nil => rfl
  | cons m ms ih => simp [tokensOfMembers, ih]

theorem memberTokens_eq (ms : List (String × Json)) :
    memberTokens ms = tokensOfMembers true ms := by
  cases ms with
  | nil => rfl
  | cons m ms => simp [memberTokens_cons, tokensOfMembers, tokensOfMembers_false]

theorem tokensOfMembers_append (first : Bool) (ms ms' : List (String × Json)) :
    tokensOfMembers first (ms ++ ms') =
      tokensOfMembers first ms ++ tokensOfMembers (first && ms.isEmpty) ms' := by
  cases ms with
  | nil => simp [tokensOfMembers]
  | cons m ms => cases first <;> simp [tokensOfMembers, tokensOfMembers_false]

theorem nextName_tokensOfMembers (first : Bool) (name : String) (j : Json)
    (ms : List (String × Json)) (rest : List Token) :
    nextName first (tokensOfMembers first ((name, j) :: ms) ++ rest) =
      .ok (some name, .colon :: (asTokens j ++ (tokensOfMembers false ms ++ rest))) := by
  rw [← List.append_assoc]
  cases first <;> rfl

/-- The members of an object, one after another, change a state into another one. -/
inductive TakesMembers (member : Members σ) : σ → List (String × Json) → σ → Prop where
  | nil (s : σ) : TakesMembers member s [] s
  | cons {s s₁ t : σ} {name : String} {j : Json} {r : Reader σ} {ms : List (String × Json)}
    (known : member s name = .ok r) (takes : r.Takes (asTokens j) s₁)
    (others : TakesMembers member s₁ ms t) : TakesMembers member s ((name, j) :: ms) t

theorem membersFrom_cons {member : Members σ} {first : Bool} {s s₁ : σ} {name : String} {j : Json}
    {r : Reader σ} {ts rest : List Token} {result : Except Fault (σ × List Token)}
    (next : nextName first ts = .ok (some name, .colon :: (asTokens j ++ rest)))
    (known : member s name = .ok r) (takes : r.Takes (asTokens j) s₁)
    (others : membersFrom member false s₁ rest = result) :
    membersFrom member first s ts = result := by
  rw [membersFrom]
  split
  next failed => cases failed.symm.trans next
  next last => cases last.symm.trans next
  next found =>
    cases found.symm.trans next
    simp only [known]
    split
    next failed => cases failed
    next after =>
      cases after
      split
      next failed => cases failed.symm.trans (takes rest)
      next value =>
        cases value.symm.trans (takes rest)
        exact others

/-- A member whose value is refused, whatever follows it. -/
theorem membersFrom_fault {member : Members σ} {first : Bool} {s : σ} {name : String} {j : Json}
    {r : Reader σ} {f : Fault} (known : member s name = .ok r)
    (fault : ∀ rest, r.run (asTokens j ++ rest) = .error f) (ms : List (String × Json))
    (rest : List Token) :
    membersFrom member first s (tokensOfMembers first ((name, j) :: ms) ++ rest) = .error f := by
  have next := nextName_tokensOfMembers first name j ms rest
  rw [membersFrom]
  split
  next failed => cases failed.symm.trans next
  next last => cases last.symm.trans next
  next found =>
    cases found.symm.trans next
    simp only [known]
    split
    next failed => cases failed
    next after =>
      cases after
      split
      next failed => exact failed.symm.trans (fault _)
      next value => cases value.symm.trans (fault _)

/-- The members that change a state into another one are the first ones of those that are read. -/
theorem membersFrom_append {member : Members σ} {s t : σ} {ms : List (String × Json)}
    (takes : TakesMembers member s ms t) (first : Bool) (rest : List Token) :
    membersFrom member first s (tokensOfMembers first ms ++ rest) =
      membersFrom member (first && ms.isEmpty) t rest := by
  induction takes generalizing first with
  | nil s => simp [tokensOfMembers]
  | cons known takes others ih =>
    have next := ih false
    rw [Bool.false_and] at next
    rw [List.isEmpty_cons, Bool.and_false]
    exact membersFrom_cons (nextName_tokensOfMembers first _ _ _ rest) known takes next

/-- All members of an object and its end. -/
theorem Body.members_run {member : Members σ} {s t : σ} {ms : List (String × Json)}
    (takes : TakesMembers member s ms t) (rest : List Token) :
    (Body.members member s).run (memberTokens ms ++ .closeBrace :: rest) = .ok (t, rest) := by
  simp only [Body.members, memberTokens_eq, membersFrom_append takes]
  simp [membersFrom, nextName]

/-- An object, given what its members make. -/
theorem Reader.takes_object {expected : Expected} {elements members : Body α}
    {ms : List (String × Json)} {a : α}
    (contents : ∀ rest, members.run (memberTokens ms ++ .closeBrace :: rest) = .ok (a, rest)) :
    (Reader.structured expected elements members).Takes (asTokens (.object ms)) a := by
  intro rest
  simp only [asTokens, List.cons_append, List.append_assoc, List.nil_append, Reader.structured]
  exact contents rest

/-! ## The data model -/

theorem takes_photoId (id : PhotoId) : Reader.photoId.Takes (asTokens (ofPhotoId id)) id :=
  (Reader.takes_text id.text).map PhotoId.mk

theorem takes_blobKey (k : BlobKey) : Reader.blobKey.Takes (asTokens (ofBlobKey k)) k := by
  have bytes : ∀ b ∈ k.bytes.toList, Reader.byte.Takes (asTokens (.integer b.toNat)) b :=
    Reader.takes_bytes k.bytes.toList
  refine Reader.takes_array fun rest => ?_
  exact Body.map_run (vector_run .keyBytes k.bytes bytes _) BlobKey.mk

theorem takes_trace (t : Trace) : Reader.trace.Takes (asTokens (ofTrace t)) t := by
  have lines : ∀ line ∈ t.toList, Reader.text.Takes (asTokens (.text line)) line :=
    fun line _ => Reader.takes_text line
  refine Reader.takes_array fun rest => ?_
  exact Body.map_run (elements_run lines rest) Trace.ofList

theorem takes_record (r : MetadataRecord) : Reader.record.Takes (asTokens (ofRecord r)) r := by
  refine Reader.takes_object fun rest => ?_
  have parts : TakesMembers RecordParts.member .none
      [("id", ofPhotoId r.id), ("key", ofBlobKey r.key), ("creator", .text r.creator)]
      ⟨some r.id, some r.key, some r.creator⟩ :=
    .cons rfl ((takes_photoId r.id).map _) <|
      .cons rfl ((takes_blobKey r.key).map _) <|
        .cons rfl ((Reader.takes_text r.creator).map _) (.nil _)
  simp only [recordMembers, Body.bind, Body.members_run parts rest]
  rfl

theorem fits_nat {n : Nat} (small : n < PhotoArchive.Number.wordCount) : Fits (.integer n) :=
  .integer (by omega) (Int.ofNat_lt.mpr small)

theorem fits_blobKey (k : BlobKey) : (ofBlobKey k).Fits := by
  refine .array fun e mem => ?_
  obtain ⟨b, _, rfl⟩ := List.mem_map.mp mem
  exact fits_nat (Nat.lt_trans b.toNat_lt (by decide))

theorem fits_trace (t : Trace) : (ofTrace t).Fits := by
  refine .array fun e mem => ?_
  obtain ⟨line, _, rfl⟩ := List.mem_map.mp mem
  exact .text line

theorem fits_record (r : MetadataRecord) : (ofRecord r).Fits := by
  refine .object fun m mem => ?_
  simp only [List.mem_cons, List.not_mem_nil, or_false] at mem
  rcases mem with rfl | rfl | rfl
  · exact .text r.id.text
  · exact fits_blobKey r.key
  · exact .text r.creator

end Json

namespace Settings

open PhotoArchive.Json

theorem takes_parts {n : Option UInt64} {j : Json}
    (limit : (Reader.optional .word).Takes (asTokens j) n) (log : Bool) :
    TakesMembers Parts.member .none [(timeoutName, j), (logName, .boolean log)]
      ⟨some n, some log⟩ :=
  .cons rfl (limit.map _) <| .cons rfl ((Reader.takes_boolean log).map _) (.nil _)

theorem takes_settings (s : Settings) : reader.Takes (asTokens s.toJson) s := by
  refine Reader.takes_object fun rest => ?_
  rcases s with ⟨_ | n, log⟩
  · have parts := takes_parts (j := .null) (Reader.takes_optional_none .word) log
    exact Body.map_run (Body.members_run parts rest) Parts.settings
  · have parts := takes_parts (j := .integer n.toNat) ((Reader.takes_word n).optional nofun) log
    exact Body.map_run (Body.members_run parts rest) Parts.settings

theorem fits_settings (s : Settings) : s.toJson.Fits := by
  refine .object fun m mem => ?_
  simp only [List.mem_cons, List.not_mem_nil, or_false] at mem
  rcases mem with rfl | rfl
  · cases s.timeoutMillis with
    | none => exact .null
    | some n => exact fits_nat n.toNat_lt
  · exact .boolean s.logDispatch

end Settings

/-- Whatever is written in JSON is read back as it was: identifiers and traces of any texts, all
keys and records, and settings with any limit of 64 bits and with none. -/
theorem Json.parse_compact :
    (∀ id, Reader.photoId.parse (ofPhotoId id).compact = .ok id) ∧
      (∀ k, Reader.blobKey.parse (ofBlobKey k).compact = .ok k) ∧
      (∀ t, Reader.trace.parse (ofTrace t).compact = .ok t) ∧
      (∀ r, Reader.record.parse (ofRecord r).compact = .ok r) ∧
      ∀ s : Settings, Settings.ofJson s.toJson.compact = .ok s := by
  refine ⟨?_, ?_, ?_, ?_, ?_⟩
  · exact fun id => (takes_photoId id).parse (.text id.text)
  · exact fun k => (takes_blobKey k).parse (fits_blobKey k)
  · exact fun t => (takes_trace t).parse (fits_trace t)
  · exact fun r => (takes_record r).parse (fits_record r)
  · exact fun s => s.takes_settings.parse s.fits_settings

end PhotoArchive
