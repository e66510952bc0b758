import Mathlib.Data.List.Find
import PhotoArchive.Proofs.JsonRoundTrip

/-!
# Reading records from objects of any members

A record is read from the members that have the names of its parts, in whichever order they stand
and whatever stands between them, and also from an array of the parts. The value of any other member
is skipped with all that is nested in it. A part that is named a second time is refused at its name,
and what follows the name is not looked at. A part that no member names is missed at the end of the
object.
-/
namespace PhotoArchive.Json

/-! ## Skipped values -/

/-- What holds of a value if it holds of all its elements or members holds of every value. -/
@[elab_as_elim]
theorem induction {motive : Json → Prop} (null : motive .null)
    (boolean : ∀ b, motive (.boolean b)) (integer : ∀ n, motive (.integer n))
    (text : ∀ s, motive (.text s)) (array : ∀ es, (∀ e ∈ es, motive e) → motive (.array es))
    (object : ∀ ms, (∀ m ∈ ms, motive m.2) → motive (.object ms)) (j : Json) : motive j := by
  refine @Json.rec motive (fun es => ∀ e ∈ es, motive e) (fun ms => ∀ m ∈ ms, motive m.2)
    (fun m => motive m.2) null boolean integer text array object nofun ?_ nofun ?_ ?_ j
  · intro e es first others
    exact List.forall_mem_cons.mpr ⟨first, others⟩
  · intro m ms first others
    exact List.forall_mem_cons.mpr ⟨first, others⟩
  · exact fun _ _ value => value

/-- The tokens are passed where a value is skipped, whatever it is nested in. -/
def Skipped (ts : List Token) : Prop :=
  ∀ nesting rest, skipFrom .value nesting (ts ++ rest) = skipFrom .after nesting rest

/-- A value starts alike where an array may end instead. -/
theorem skipFrom_element (e : Json) (nesting : List Container) (rest : List Token) :
    skipFrom .element nesting (asTokens e ++ rest) =
      skipFrom .value nesting (asTokens e ++ rest) := by
  cases e <;> simp [asTokens, skipFrom, skipStep]

theorem skipFrom_elements {es : List Json} (each : ∀ e ∈ es, Skipped (asTokens e)) (before : Nat)
    (nesting : List Container) (rest : List Token) :
    skipFrom .after (.array :: nesting) (tokensAfter (before + 1) es ++ .closeBracket :: rest) =
      skipFrom .after nesting rest := by
  induction es generalizing before with
  | nil => rfl
  | cons e es ih =>
    have first := each e List.mem_cons_self (.array :: nesting)
    have others := ih (fun e' mem => each e' (List.mem_cons_of_mem _ mem)) (before + 1)
    rw [tokensAfter, List.append_assoc, List.append_assoc]
    change skipFrom .value (.array :: nesting) (asTokens e ++ _) = _
    rw [first, others]

theorem skipFrom_members {ms : List (String × Json)} (each : ∀ m ∈ ms, Skipped (asTokens m.2))
    (nesting : List Container) (rest : List Token) :
    skipFrom .after (.object :: nesting) (tokensOfMembers false ms ++ .closeBrace :: rest) =
      skipFrom .after nesting rest := by
  induction ms with
  | nil => rfl
  | cons m ms ih =>
    have first := each m List.mem_cons_self (.object :: nesting)
    have others := ih fun m' mem => each m' (List.mem_cons_of_mem _ mem)
    simp only [tokensOfMembers, List.cons_append, List.append_assoc]
    change skipFrom .value (.object :: nesting) _ = _
    rw [first, others]

/-- Every value is skipped with all that is nested in it. -/
theorem skipped (j : Json) : Skipped (asTokens j) := by
  induction j using Json.induction with
  | null => exact fun _ _ => rfl
  | boolean b => exact fun _ _ => rfl
  | integer n => exact fun _ _ => rfl
  | text s => exact fun _ _ => rfl
  | array es each =>
    intro nesting rest
    rw [asTokens, elementTokens_eq, List.append_assoc]
    cases es with
    | nil => rfl
    | cons e es =>
      -- the first element stands where the array may end, the others behind their commas
      have first := each e List.mem_cons_self (.array :: nesting)
      have others := skipFrom_elements fun e' mem => each e' (List.mem_cons_of_mem _ mem)
      rw [tokensAfter, List.cons_append, List.append_assoc, List.append_assoc]
      change skipFrom .element (.array :: nesting) (asTokens e ++ _) = _
      rw [skipFrom_element, first]
      exact others 0 nesting rest
  | object ms each =>
    intro nesting rest
    rw [asTokens, memberTokens_eq, List.append_assoc]
    cases ms with
    | nil => rfl
    | cons m ms =>
      have first := each m List.mem_cons_self (.object :: nesting)
      have others := skipFrom_members fun m' mem => each m' (List.mem_cons_of_mem _ mem)
      simp only [tokensOfMembers, List.cons_append, List.append_assoc]
      change skipFrom .value (.object :: nesting) _ = _
      rw [first]
      exact others nesting rest

theorem Reader.takes_skip (j : Json) : skip.Takes (asTokens j) () := by
  intro rest
  have ends : skipFrom .after [] rest = .ok rest := by
    unfold skipFrom
    exact if_pos ⟨rfl, rfl⟩
  simp only [skip, skipped j [] rest, ends]

/-! ## Parts that have been read -/

theorem ofPhotoId_injective {id id' : PhotoId} (same : ofPhotoId id = ofPhotoId id') : id = id' :=
  congrArg PhotoId.mk (Json.text.inj same)

theorem ofBlobKey_injective {k k' : BlobKey} (same : ofBlobKey k = ofBlobKey k') : k = k' := by
  have number (b b' : UInt8) (same : Json.integer b.toNat = .integer b'.toNat) : b = b' :=
    UInt8.toNat_inj.mp (Int.ofNat_inj.mp (Json.integer.inj same))
  exact BlobKey.toList_injective ((List.map_inj_right number).mp (Json.array.inj same))

namespace RecordParts

def names : List String := ["id", "key", "creator"]

/-- A member with a value of the part that it names, or a member that names no part. -/
inductive Valid : String × Json → Prop where
  | id (id : PhotoId) : Valid ("id", ofPhotoId id)
  | key (key : BlobKey) : Valid ("key", ofBlobKey key)
  | creator (creator : String) : Valid ("creator", .text creator)
  | other {name : String} (unknown : name ∉ names) (j : Json) : Valid (name, j)

def NamedOnce (ms : List (String × Json)) : Prop :=
  ∀ name ∈ names, (ms.map Prod.fst).count name ≤ 1

def part (parts : RecordParts) (name : String) : Option Json :=
  if name = "id" then parts.id.map ofPhotoId
  else if name = "key" then parts.key.map ofBlobKey
  else if name = "creator" then parts.creator.map .text
  else .none

theorem part_of_unknown {name : String} (unknown : name ∉ names) (parts : RecordParts) :
    parts.part name = .none := by
  simp only [names, List.mem_cons, List.not_mem_nil, or_false, not_or] at unknown
  simp [part, unknown]

/-- A part that has not been read is taken from its member, and the other parts stay. -/
theorem member_of_unread {parts : RecordParts} {m : String × Json} (valid : Valid m)
    (known : m.1 ∈ names) (unread : parts.part m.1 = .none) :
    ∃ r after, member parts m.1 = .ok r ∧ r.Takes (asTokens m.2) after ∧
      ∀ name, after.part name = if name = m.1 then some m.2 else parts.part name := by
  cases valid with
  | id id =>
    have unset : parts.id = .none := by simpa [part] using unread
    refine ⟨_, _, ?_, (takes_photoId id).map fun id => { parts with id := some id }, fun name => ?_⟩
    · simp [member, once, unset]
    · by_cases h : name = "id" <;> simp [part, h]
  | key key =>
    have unset : parts.key = .none := by simpa [part] using unread
    refine ⟨_, _, ?_, (takes_blobKey key).map fun key => { parts with key := some key },
      fun name => ?_⟩
    · simp [member, once, unset]
    · by_cases h : name = "key" <;> simp [part, h]
  | creator creator =>
    have unset : parts.creator = .none := by simpa [part] using unread
    refine ⟨_, _, ?_, (Reader.takes_text creator).map fun c => { parts with creator := some c },
      fun name => ?_⟩
    · simp [member, once, unset]
    · by_cases h : name = "creator" <;> simp [part, h]
  | other unknown j => exact absurd known unknown

/-- A part that has been read is refused at its name. -/
theorem member_of_read {parts : RecordParts} {name : String} (read : parts.part name ≠ .none) :
    member parts name = .error (.duplicate name) := by
  have known : name ∈ names := by
    by_contra unknown
    exact read (part_of_unknown unknown parts)
  simp only [names, List.mem_cons, List.not_mem_nil, or_false] at known
  rcases known with rfl | rfl | rfl
  · have set : parts.id.isSome := by simpa [part, Option.isSome_iff_ne_none] using read
    simp [member, once, set]
  · have set : parts.key.isSome := by simpa [part, Option.isSome_iff_ne_none] using read
    simp [member, once, set]
  · have set : parts.creator.isSome := by simpa [part, Option.isSome_iff_ne_none] using read
    simp [member, once, set]

def written (r : MetadataRecord) : List (String × Json) :=
  [("id", ofPhotoId r.id), ("key", ofBlobKey r.key), ("creator", .text r.creator)]

theorem valid_written (r : MetadataRecord) : ∀ m ∈ written r, Valid m := by
  simp only [written, List.forall_mem_cons]
  exact ⟨.id r.id, .key r.key, .creator r.creator, nofun⟩

theorem namedOnce_written (r : MetadataRecord) : NamedOnce (written r) := by
  have once : names.Nodup := by decide
  exact fun name _ => List.nodup_iff_count.mp once name

/-- Parts with the values of a record are the record. -/
theorem record_of_written {parts : RecordParts} {r : MetadataRecord}
    (values : ∀ m ∈ written r, parts.part m.1 = some m.2) : parts.record = .ok r := by
  simp only [written, List.forall_mem_cons] at values
  obtain ⟨id, key, creator, -⟩ := values
  obtain ⟨i, hi, sameId⟩ := Option.map_eq_some_iff.mp id
  obtain ⟨k, hk, sameKey⟩ := Option.map_eq_some_iff.mp key
  obtain ⟨c, hc, sameCreator⟩ := Option.map_eq_some_iff.mp creator
  obtain rfl := ofPhotoId_injective sameId
  obtain rfl := ofBlobKey_injective sameKey
  obtain rfl := Json.text.inj sameCreator
  obtain ⟨_, _, _⟩ := parts
  subst hi hk hc
  rfl

/-- The first part that has not been read is missing. -/
theorem record_of_missing {parts : RecordParts} {name : String}
    (first : names.find? (fun n => parts.part n = .none) = some name) :
    parts.record = .error (.missing name) := by
  rcases parts with ⟨_ | i, _ | k, _ | c⟩ <;>
    simp [names, part] at first <;> subst first <;> rfl

/-! ## Members in any order -/

/-- The parts that have been read are those that members name. -/
def Holds (parts : RecordParts) (ms : List (String × Json)) : Prop :=
  ∀ name ∈ names, ∀ j, parts.part name = some j ↔ (name, j) ∈ ms

theorem holds_none : RecordParts.none.Holds [] := by
  intro name _ j
  simp [part, none]

theorem Holds.unread {parts : RecordParts} {ms : List (String × Json)} (holds : parts.Holds ms)
    {name : String} (known : name ∈ names) :
    parts.part name = .none ↔ name ∉ ms.map Prod.fst := by
  constructor
  · intro unread mem
    obtain ⟨⟨_, j⟩, hm, rfl⟩ := List.mem_map.mp mem
    have read := (holds _ known j).mpr hm
    rw [unread] at read
    cases read
  · intro absent
    cases read : parts.part name with
    | none => rfl
    | some j => exact absurd (List.mem_map_of_mem ((holds name known j).mp read)) absent

/-- One more member adds its part, and a member that names no part changes nothing. -/
theorem Holds.step {parts : RecordParts} {ms : List (String × Json)} (holds : parts.Holds ms)
    {m : String × Json} (valid : Valid m) (free : m.1 ∈ names → m.1 ∉ ms.map Prod.fst) :
    ∃ r after, member parts m.1 = .ok r ∧ r.Takes (asTokens m.2) after ∧
      after.Holds (ms ++ [m]) := by
  by_cases known : m.1 ∈ names
  · obtain ⟨r, after, read, takes, parted⟩ :=
      member_of_unread valid known ((holds.unread known).mpr (free known))
    refine ⟨r, after, read, takes, fun name isName j => ?_⟩
    rw [parted, List.mem_append, List.mem_singleton]
    by_cases same : name = m.1
    · have new : (name, j) ∉ ms := by
        intro mem
        rw [same] at mem
        exact free known (List.mem_map.mpr ⟨_, mem, rfl⟩)
      rw [if_pos same, Option.some_inj, or_iff_right new, Prod.ext_iff]
      exact ⟨fun value => ⟨same, value.symm⟩, fun both => both.2.symm⟩
    · have other : (name, j) ≠ m := fun h => same (congrArg Prod.fst h)
      rw [if_neg same, or_iff_left other]
      exact holds name isName j
  · have skips : member parts m.1 = .ok (Reader.skip.map fun _ => parts) := by
      simp only [names, List.mem_cons, List.not_mem_nil, or_false, not_or] at known
      simp [member, known]
    refine ⟨_, parts, skips, (Reader.takes_skip m.2).map _, fun name isName j => ?_⟩
    have other : (name, j) ≠ m := by
      rintro rfl
      exact known isName
    rw [List.mem_append, List.mem_singleton, or_iff_left other]
    exact holds name isName j

/-- Members that name no part twice are all read, from the first one on. -/
theorem Holds.takes {parts : RecordParts} {before ms : List (String × Json)}
    (holds : parts.Holds before) (valid : ∀ m ∈ ms, Valid m) (once : NamedOnce (before ++ ms)) :
    ∃ after, TakesMembers member parts ms after ∧ after.Holds (before ++ ms) := by
  -- on what is still to be read: what has been read moves from one list to the other
  induction ms generalizing parts before with
  | nil =>
    rw [List.append_nil]
    exact ⟨parts, .nil parts, holds⟩
  | cons m ms ih =>
    have free : m.1 ∈ names → m.1 ∉ before.map Prod.fst := by
      intro known mem
      have twice := once m.1 known
      rw [List.map_append, List.count_append, List.map_cons, List.count_cons_self] at twice
      have named := List.count_pos_iff.mpr mem
      omega
    obtain ⟨r, next, known, takes, nextHolds⟩ := holds.step (valid m List.mem_cons_self) free
    have split : before ++ m :: ms = (before ++ [m]) ++ ms := by simp
    rw [split] at once ⊢
    obtain ⟨after, others, afterHolds⟩ :=
      ih nextHolds (fun m' mem => valid m' (List.mem_cons_of_mem _ mem)) once
    exact ⟨after, .cons known takes others, afterHolds⟩

theorem exists_takes {ms : List (String × Json)} (valid : ∀ m ∈ ms, Valid m)
    (once : NamedOnce ms) : ∃ after, TakesMembers member .none ms after ∧ after.Holds ms :=
  holds_none.takes valid once

theorem known_of_mem_written {r : MetadataRecord} {m : String × Json} (mem : m ∈ written r) :
    m.1 ∈ names :=
  List.mem_map.mpr ⟨m, mem, rfl⟩

section Order

variable {ms : List (String × Json)} {r : MetadataRecord}
  (perm : (ms.filter (·.1 ∈ names)).Perm (written r))

include perm

theorem valid_of_perm : ∀ m ∈ ms, Valid m := by
  intro m mem
  by_cases known : m.1 ∈ names
  · have kept : m ∈ ms.filter (·.1 ∈ names) := List.mem_filter.mpr ⟨mem, decide_eq_true known⟩
    exact valid_written r m (perm.mem_iff.mp kept)
  · exact .other known m.2

theorem namedOnce_of_perm : NamedOnce ms := by
  intro name known
  have counts := (perm.map Prod.fst).count_eq name
  have filtered :
      (ms.filter (·.1 ∈ names)).map Prod.fst = (ms.map Prod.fst).filter (· ∈ names) := by
    rw [List.filter_map]
    rfl
  have counted : ((ms.map Prod.fst).filter (· ∈ names)).count name = (ms.map Prod.fst).count name :=
    List.count_filter (decide_eq_true known)
  rw [filtered, counted] at counts
  rw [counts]
  exact namedOnce_written r name known

/-- Members with the parts of a record in any order, and with others among them, make the record. -/
theorem Holds.record_of_perm {parts : RecordParts} (holds : parts.Holds ms) :
    parts.record = .ok r := by
  refine record_of_written fun m mem => ?_
  have stands := (List.mem_filter.mp (perm.mem_iff.mpr mem)).1
  exact (holds m.1 (known_of_mem_written mem) m.2).mpr stands

end Order

end RecordParts

/-! ## Records -/

/-- A member that is refused at its name, whatever follows the name. -/
theorem membersFrom_refused {σ : Type} {member : Members σ} {s : σ} {name : String} {m : Mismatch}
    (refused : member s name = .error m) (rest : List Token) :
    membersFrom member false s (.comma :: .text (.ok name) :: rest) = .error (.mismatch m) := by
  have next : nextName false (.comma :: .text (.ok name) :: rest) = .ok (some name, rest) := rfl
  rw [membersFrom]
  split
  next failed => cases failed.symm.trans next
  next last => cases last.symm.trans next
  next found =>
    cases found.symm.trans next
    simp only [refused]

theorem Body.required_run {α : Type} {r : Reader α} {e : Json} {a : α}
    (takes : r.Takes (asTokens e) a) (before : Nat) (expected : Expected) (es : List Json)
    (rest : List Token) :
    (Body.required before expected r).run (tokensAfter before (e :: es) ++ rest) =
      .ok (a, tokensAfter (before + 1) es ++ rest) := by
  simp only [Body.required, Body.bind, Body.element, nextElement_tokensAfter, takes _,
    Body.ofExcept]

/-- The parts of a record as the elements of an array. -/
theorem recordElements_run (r : MetadataRecord) (rest : List Token) :
    recordElements.run (elementTokens ((RecordParts.written r).map Prod.snd) ++ rest) =
      .ok (r, rest) := by
  have creatorTakes : Reader.text.Takes (asTokens (.text r.creator)) r.creator :=
    Reader.takes_text r.creator
  have id := Body.required_run (takes_photoId r.id) 0 .recordElements
  have key := Body.required_run (takes_blobKey r.key) 1 .recordElements
  have creator := Body.required_run creatorTakes 2 .recordElements [] rest
  rw [elementTokens_eq]
  simp only [RecordParts.written, List.map_cons, List.map_nil, recordElements, Body.bind, id, key]
  exact Body.map_run creator _

theorem takes_recordArray (r : MetadataRecord) :
    Reader.record.Takes (asTokens (.array ((RecordParts.written r).map Prod.snd))) r := by
  have elements : (Reader.array .record recordElements).Takes
      (asTokens (.array ((RecordParts.written r).map Prod.snd))) r :=
    Reader.takes_array fun rest => recordElements_run r (.closeBracket :: rest)
  exact elements

theorem recordMembers_run {ms : List (String × Json)} {parts : RecordParts}
    (takes : TakesMembers RecordParts.member .none ms parts) (rest : List Token) :
    recordMembers.run (memberTokens ms ++ .closeBrace :: rest) =
      (Body.ofExcept parts.record).run rest := by
  simp only [recordMembers, Body.bind, Body.members_run takes rest]

theorem takes_recordObject {ms : List (String × Json)} {parts : RecordParts} {r : MetadataRecord}
    (takes : TakesMembers RecordParts.member .none ms parts) (made : parts.record = .ok r) :
    Reader.record.Takes (asTokens (.object ms)) r := by
  refine Reader.takes_object fun rest => ?_
  rw [recordMembers_run takes rest, made]
  rfl

/-- A part that is missing at the end of the object is the fault. -/
theorem record_missing_fault {ms : List (String × Json)} {parts : RecordParts} {m : Mismatch}
    (takes : TakesMembers RecordParts.member .none ms parts) (refused : parts.record = .error m) :
    Reader.record.run (asTokens (.object ms)) = .error (.mismatch m) := by
  have members := recordMembers_run takes []
  rw [refused] at members
  exact members

/-- A part that has been read is the fault at the next member that names it. -/
theorem record_duplicate_fault {ms : List (String × Json)} {parts : RecordParts} {name : String}
    (takes : TakesMembers RecordParts.member .none ms parts) (nonempty : ms ≠ [])
    (read : parts.part name ≠ .none) (rest : List Token) :
    Reader.record.run (.openBrace :: (memberTokens ms ++ .comma :: .text (.ok name) :: rest)) =
      .error (.mismatch (.duplicate name)) := by
  have members := membersFrom_append takes true (.comma :: .text (.ok name) :: rest)
  have notFirst : (true && ms.isEmpty) = false := by simpa using nonempty
  rw [notFirst, membersFrom_refused (RecordParts.member_of_read read), ← memberTokens_eq] at members
  have body : recordMembers.run (memberTokens ms ++ .comma :: .text (.ok name) :: rest) =
      .error (.mismatch (.duplicate name)) := by
    simp only [recordMembers, Body.bind, Body.members, members]
  exact body

namespace Reader

open RecordParts (names written Valid NamedOnce)

/-- What is read as a record. The parts may stand in an array, or be members of an object in any
order with any members of other names among them. A part that is named a second time is the fault,
whatever text follows its name; else, the first part that is not named is. -/
theorem record_members :
    (∀ (r : MetadataRecord) (ms : List (String × Json)) (s : String),
        (ms.filter (·.1 ∈ names)).Perm (written r) →
        (Json.object ms).IsText s → record.parse s = .ok r) ∧
      (∀ (r : MetadataRecord) (s : String),
        (Json.array ((written r).map Prod.snd)).IsText s → record.parse s = .ok r) ∧
      (∀ (ms : List (String × Json)) (name : String) (rest : List Char) (s : String),
        (∀ m ∈ ms, Valid m) → NamedOnce ms → name ∈ names → name ∈ ms.map Prod.fst →
        Spells rest s.toList (.openBrace :: (memberTokens ms ++ [.comma, .text (.ok name)])) →
        record.parse s = .error (.mismatch (.duplicate name))) ∧
      ∀ (ms : List (String × Json)) (name : String) (s : String),
        (∀ m ∈ ms, Valid m) → NamedOnce ms →
        names.find? (· ∉ ms.map Prod.fst) = some name →
        (Json.object ms).IsText s → record.parse s = .error (.mismatch (.missing name)) := by
  refine ⟨?_, ?_, ?_, ?_⟩
  · intro r ms s perm isText
    obtain ⟨parts, takes, holds⟩ :=
      RecordParts.exists_takes (RecordParts.valid_of_perm perm) (RecordParts.namedOnce_of_perm perm)
    exact (takes_recordObject takes (holds.record_of_perm perm)).parse_text isText
  · intro r s isText
    exact (takes_recordArray r).parse_text isText
  · intro ms name rest s valid once known named spells
    obtain ⟨parts, takes, holds⟩ := RecordParts.exists_takes valid once
    have nonempty : ms ≠ [] := by
      rintro rfl
      cases named
    have read : parts.part name ≠ .none := fun unread => (holds.unread known).mp unread named
    have cut := spells.tokens_eq
    rw [List.cons_append, List.append_assoc] at cut
    exact parse_fault cut (record_duplicate_fault takes nonempty read (tokens rest))
  · intro ms name s valid once first isText
    obtain ⟨parts, takes, holds⟩ := RecordParts.exists_takes valid once
    have missing : names.find? (fun n => parts.part n = .none) = some name := by
      rw [← first]
      refine List.find?_congr fun n known => ?_
      rw [decide_eq_decide]
      exact holds.unread known
    exact parse_fault isText.tokens_eq
      (record_missing_fault takes (RecordParts.record_of_missing missing))

/-- What follows the second name of the identifier need not be JSON. -/
theorem record_members_duplicate :
    record.parse "\x7b\"id\":\"a\",\"id\"?" = .error (.mismatch (.duplicate "id")) := by
  have spells : Spells ['?'] "\x7b\"id\":\"a\",\"id\"?".toList
      (.openBrace :: (memberTokens [("id", .text "a")] ++ [.comma, .text (.ok "id")])) := by
    have comma : punctuation? ',' = some .comma := rfl
    have colon : punctuation? ':' = some .colon := rfl
    have again := Spells.text (spellings_escape "id".toList) (@Spells.done ['?'])
    have value := Spells.text (spellings_escape "a".toList) (.mark comma again)
    have name := Spells.text (spellings_escape "id".toList) (.mark colon value)
    exact .mark rfl name
  have valid : ∀ m ∈ [("id", ofPhotoId ⟨"a"⟩)], Valid m := by
    intro m mem
    rw [List.mem_singleton.mp mem]
    exact .id ⟨"a"⟩
  have once : NamedOnce [("id", ofPhotoId ⟨"a"⟩)] := fun name _ =>
    List.nodup_iff_count.mp (by decide : ["id"].Nodup) name
  exact record_members.2.2.1 _ "id" _ _ valid once (by decide) (by decide) spells

end Reader

end PhotoArchive.Json
