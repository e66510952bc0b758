import PhotoArchive.Proofs.RecordReading
import PhotoArchive.Proofs.TomlRoundTrip

/-!
# Settings are read alike from JSON and from TOML

Truth values and whole numbers that TOML has, under bare names of which no two are the same, are
written as an object in JSON and as lines of entries in TOML, in whichever order. Both readers take
the members one after another. As long as each value is of the kind of the part that its name stands
for, they come to the same settings: the standard ones with the named parts replaced. The first
value that is of another kind is what both of them refuse, with the same message.

The reader of JSON refuses it before it looks at what follows, the one of TOML after it has cut the
whole text into entries.
-/
namespace PhotoArchive.Settings

open PhotoArchive.Json (asTokens Members TakesMembers tokensOfMembers)
open PhotoArchive.Toml (Draft EndsLine Entries Item isBare linesFrom)

/-! ## Members that JSON and TOML share -/

/-- A value that both formats write alike. -/
inductive Plain where
  | boolean (b : Bool)
  | integer (n : UInt64)

namespace Plain

def toJson : Plain → Json
  | .boolean b => .boolean b
  | .integer n => .integer n.toNat

def toItem : Plain → Item
  | .boolean b => .boolean b
  | .integer n => .integer n.toNat

def text : Plain → String
  | .boolean b => toString b
  | .integer n => toString n.toNat

def InToml : Plain → Prop
  | .boolean _ => True
  | .integer n => n.toNat < Number.signedCount

instance (v : Plain) : Decidable v.InToml :=
  match v with
  | .boolean _ => isTrue trivial
  | .integer n => inferInstanceAs (Decidable (n.toNat < Number.signedCount))

end Plain

def IsBareName (name : String) : Prop :=
  name.toList ≠ [] ∧ ∀ c ∈ name.toList, isBare c = true

instance (name : String) : Decidable (IsBareName name) :=
  have := List.decidableBAll (fun c => isBare c = true) name.toList
  instDecidableAnd

/-- Members that can be written in both formats, in order: values that TOML has, under bare names of
which no two are the same. -/
structure Listing where
  members : List (String × Plain)
  distinct : (members.map Prod.fst).Nodup
  bare : ∀ m ∈ members, IsBareName m.1
  inToml : ∀ m ∈ members, m.2.InToml

def jsonMembers (ms : List (String × Plain)) : List (String × Json) :=
  ms.map fun m => (m.1, m.2.toJson)

def tomlEntries (ms : List (String × Plain)) : Entries :=
  ms.map fun m => (m.1, m.2.toItem)

def Listing.toJson (l : Listing) : Json :=
  .object (jsonMembers l.members)

theorem Listing.fits (l : Listing) : l.toJson.Fits := by
  refine .object fun m mem => ?_
  obtain ⟨m, _, rfl⟩ := List.mem_map.mp mem
  cases m.2 with
  | boolean b => exact .boolean b
  | integer n => exact Json.fits_nat n.toNat_lt

/-- A TOML text with a line for each of the members. The last line may end with the text. -/
inductive Lines : String → List (String × Plain) → Prop where
  | nil : Lines "" []
  | last (m : String × Plain) : Lines (m.1 ++ " = " ++ m.2.text) [m]
  | line (m : String × Plain) {t : String} {ms : List (String × Plain)} (others : Lines t ms) :
    Lines (entryLine m.1 m.2.text ++ t) (m :: ms)

/-! ## What members say of settings -/

/-- A member whose value is of the kind of the part that it names, or that names no part. -/
inductive RightKind : String × Plain → Prop where
  | limit (n : UInt64) : RightKind (timeoutName, .integer n)
  | log (b : Bool) : RightKind (logName, .boolean b)
  | other {name : String} (noLimit : name ≠ timeoutName) (noLog : name ≠ logName) (v : Plain) :
    RightKind (name, v)

/-- A member whose value is of another kind than the part that it names, and what is wrong. -/
inductive WrongKind : String × Plain → Mismatch → Prop where
  | limit (b : Bool) : WrongKind (timeoutName, .boolean b) (.wrongKind (.boolean b) .word)
  | log (n : UInt64) : WrongKind (logName, .integer n) (.wrongKind (.integer n.toNat) .boolean)

theorem rightKind_or_wrongKind (m : String × Plain) : RightKind m ∨ ∃ e, WrongKind m e := by
  obtain ⟨name, v⟩ := m
  by_cases limit : name = timeoutName
  · subst limit
    cases v with
    | integer n => exact .inl (.limit n)
    | boolean b => exact .inr ⟨_, .limit b⟩
  by_cases log : name = logName
  · subst log
    cases v with
    | integer n => exact .inr ⟨_, .log n⟩
    | boolean b => exact .inl (.log b)
  exact .inl (.other limit log v)

/-- Members are all of the right kind, or there is a first one that is not. -/
theorem rightKind_or_first (ms : List (String × Plain)) :
    (∀ m ∈ ms, RightKind m) ∨
      ∃ before m after e, ms = before ++ m :: after ∧ (∀ m' ∈ before, RightKind m') ∧
        WrongKind m e := by
  induction ms with
  | nil => exact .inl nofun
  | cons m ms ih =>
    obtain right | ⟨e, wrong⟩ := rightKind_or_wrongKind m
    · obtain all | ⟨before, m', after, e, rfl, rights, wrong⟩ := ih
      · exact .inl (List.forall_mem_cons.mpr ⟨right, all⟩)
      · have both := List.forall_mem_cons.mpr ⟨right, rights⟩
        exact .inr ⟨m :: before, m', after, e, rfl, both, wrong⟩
    · exact .inr ⟨[], m, ms, e, rfl, nofun, wrong⟩

/-- A value is of the right kind where the limit is a number and the report a truth value. -/
theorem rightKind_iff {m : String × Plain} :
    RightKind m ↔ (m.1 = timeoutName → ∃ n, m.2 = .integer n) ∧
      (m.1 = logName → ∃ b, m.2 = .boolean b) := by
  have apart : timeoutName ≠ logName := by decide
  constructor
  · rintro (n | b | ⟨noLimit, noLog, v⟩)
    · exact ⟨fun _ => ⟨n, rfl⟩, fun named => absurd named apart⟩
    · exact ⟨fun named => absurd named apart.symm, fun _ => ⟨b, rfl⟩⟩
    · exact ⟨fun named => absurd named noLimit, fun named => absurd named noLog⟩
  · rintro ⟨limit, log⟩
    obtain right | ⟨e, b | n⟩ := rightKind_or_wrongKind m
    · exact right
    · obtain ⟨n, same⟩ := limit rfl
      cases same
    · obtain ⟨b, same⟩ := log rfl
      cases same

theorem WrongKind.not_rightKind {m : String × Plain} {e : Mismatch} (wrong : WrongKind m e) :
    ¬ RightKind m := by
  rw [rightKind_iff]
  rintro ⟨limit, log⟩
  cases wrong with
  | limit b =>
    obtain ⟨n, same⟩ := limit rfl
    cases same
  | log n =>
    obtain ⟨b, same⟩ := log rfl
    cases same

theorem WrongKind.unique {m : String × Plain} {e e' : Mismatch} (wrong : WrongKind m e)
    (wrong' : WrongKind m e') : e = e' := by
  cases wrong with
  | limit b =>
    generalize same : (timeoutName, Plain.boolean b) = m at wrong'
    cases wrong' with
    | limit b' => rw [Plain.boolean.inj (Prod.mk.inj same).2]
    | log n => cases (Prod.mk.inj same).2
  | log n =>
    generalize same : (logName, Plain.integer n) = m at wrong'
    cases wrong' with
    | limit b => cases (Prod.mk.inj same).2
    | log n' => rw [Plain.integer.inj (Prod.mk.inj same).2]

/-- What is wrong has the same wording in both formats. -/
theorem WrongKind.message_eq {m : String × Plain} {e : Mismatch} (wrong : WrongKind m e) :
    e.message Json.decimalStyle = e.message tomlStyle := by
  cases wrong <;> rfl

/-- The settings with the part that a member names replaced by its value. -/
def put (s : Settings) (m : String × Plain) : Settings :=
  match m.2 with
  | .integer n => if m.1 = timeoutName then { s with timeoutMillis := some n } else s
  | .boolean b => if m.1 = logName then { s with logDispatch := b } else s

/-- Settings that have exactly the parts replaced that members name. -/
structure Replaced (s : Settings) (ms : List (String × Plain)) (s' : Settings) : Prop where
  limit : ∀ n, (timeoutName, .integer n) ∈ ms → s'.timeoutMillis = some n
  sameLimit : timeoutName ∉ ms.map Prod.fst → s'.timeoutMillis = s.timeoutMillis
  log : ∀ b, (logName, .boolean b) ∈ ms → s'.logDispatch = b
  sameLog : logName ∉ ms.map Prod.fst → s'.logDispatch = s.logDispatch

theorem timeoutMillis_put (s : Settings) {m : String × Plain} (other : m.1 ≠ timeoutName) :
    (s.put m).timeoutMillis = s.timeoutMillis := by
  obtain ⟨name, b | n⟩ := m
  · by_cases h : name = logName <;> simp [put, h]
  · simp only [put, if_neg other]

theorem logDispatch_put (s : Settings) {m : String × Plain} (other : m.1 ≠ logName) :
    (s.put m).logDispatch = s.logDispatch := by
  obtain ⟨name, b | n⟩ := m
  · simp only [put, if_neg other]
  · by_cases h : name = timeoutName <;> simp [put, h]

theorem put_other (s : Settings) {name : String} (noLimit : name ≠ timeoutName)
    (noLog : name ≠ logName) (v : Plain) : s.put (name, v) = s := by
  cases v <;> simp [put, noLimit, noLog]

/-- Members put one after another replace the parts that they name. -/
theorem replaced_foldl (s : Settings) {ms : List (String × Plain)}
    (distinct : (ms.map Prod.fst).Nodup) : Replaced s ms (ms.foldl put s) := by
  induction ms generalizing s with
  | nil => exact ⟨nofun, fun _ => rfl, nofun, fun _ => rfl⟩
  | cons m ms ih =>
    rw [List.map_cons, List.nodup_cons] at distinct
    obtain ⟨new, others⟩ := distinct
    have rest := ih (s.put m) others
    refine ⟨fun n mem => ?_, fun absent => ?_, fun b mem => ?_, fun absent => ?_⟩
    · rcases List.mem_cons.mp mem with rfl | mem
      · exact rest.sameLimit new
      · exact rest.limit n mem
    · rw [List.map_cons, List.mem_cons, not_or] at absent
      rw [List.foldl_cons, rest.sameLimit absent.2, timeoutMillis_put s (Ne.symm absent.1)]
    · rcases List.mem_cons.mp mem with rfl | mem
      · exact rest.sameLog new
      · exact rest.log b mem
    · rw [List.map_cons, List.mem_cons, not_or] at absent
      rw [List.foldl_cons, rest.sameLog absent.2, logDispatch_put s (Ne.symm absent.1)]

/-! ## Entries of a document -/

theorem find?_eq_none {es : Entries} {name : String} (new : name ∉ es.map Prod.fst) :
    es.find? name = none := by
  induction es with
  | nil => rfl
  | cons e es ih =>
    rw [List.map_cons, List.mem_cons, not_or] at new
    rw [Entries.find?, if_neg (Ne.symm new.1), ih new.2]

/-- An entry under a new name is added at the end of a document without headers. -/
theorem put_new {es : Entries} {name : String} (new : name ∉ es.map Prod.fst) (item : Item) :
    Draft.put ⟨es, []⟩ [name] item = some ⟨es ++ [(name, item)], []⟩ := by
  have added : es.putEntry [name] item = some (es ++ [(name, item)]) := by
    simp [Entries.putEntry, Entries.put, Entries.add, find?_eq_none new]
  simp [Draft.put, Entries.under, added]

theorem Plain.denotes {v : Plain} (inToml : v.InToml) : Toml.Denotes v.text.toList v.toItem := by
  cases v with
  | boolean b => exact Toml.denotes_boolean b
  | integer n =>
    have digits : (toString n.toNat).toList = Nat.toDigits 10 n.toNat := by
      rw [Nat.toString_eq_ofList_toDigits, String.toList_ofList]
    rw [Plain.text, digits]
    exact Toml.denotes_toDigits inToml

/-- The line of a member adds its entry. -/
theorem linesFrom_member {m : String × Plain} (bare : IsBareName m.1) (inToml : m.2.InToml)
    {es : Entries} (new : m.1 ∉ es.map Prod.fst) {behind rest : List Char}
    (ends : EndsLine behind rest) :
    linesFrom ⟨es, []⟩ (m.1.toList ++ ' ' :: '=' :: ' ' :: (m.2.text.toList ++ behind)) =
      linesFrom ⟨es ++ [(m.1, m.2.toItem)], []⟩ rest := by
  refine Toml.linesFrom_entry bare.2 bare.1 (Plain.denotes inToml) ?_ ends
  rw [String.ofList_toList]
  exact put_new new _

/-- Lines add an entry for each member. -/
theorem linesFrom_lines {t : String} {ms : List (String × Plain)} (lines : Lines t ms)
    (bare : ∀ m ∈ ms, IsBareName m.1) (inToml : ∀ m ∈ ms, m.2.InToml) {es : Entries}
    (distinct : (es.map Prod.fst ++ ms.map Prod.fst).Nodup) :
    linesFrom ⟨es, []⟩ t.toList = some ⟨es ++ tomlEntries ms, []⟩ := by
  -- on the lines, with the entries that the lines before have added
  induction lines generalizing es with
  | nil =>
    rw [tomlEntries, List.map_nil, List.append_nil]
    exact Toml.linesFrom_nil ⟨es, []⟩
  | last m =>
    have new : m.1 ∉ es.map Prod.fst := fun mem =>
      (List.nodup_append.mp distinct).2.2 _ mem _ List.mem_cons_self rfl
    have text : (m.1 ++ " = " ++ m.2.text).toList =
        m.1.toList ++ ' ' :: '=' :: ' ' :: (m.2.text.toList ++ []) := by
      simp [String.toList_append]
    rw [text, linesFrom_member (bare m List.mem_cons_self) (inToml m List.mem_cons_self) new
      .endOfText]
    exact Toml.linesFrom_nil _
  | @line m t ms others ih =>
    have new : m.1 ∉ es.map Prod.fst := fun mem =>
      (List.nodup_append.mp distinct).2.2 _ mem _ List.mem_cons_self rfl
    have next : ((es ++ [(m.1, m.2.toItem)]).map Prod.fst ++ ms.map Prod.fst).Nodup := by
      simpa using distinct
    rw [toList_entryLine, linesFrom_member (bare m List.mem_cons_self)
      (inToml m List.mem_cons_self) new (.lineBreak _),
      ih (fun m' mem => bare m' (List.mem_cons_of_mem _ mem))
        (fun m' mem => inToml m' (List.mem_cons_of_mem _ mem)) next]
    simp [tomlEntries]

theorem dropMark_lines {t : String} {ms : List (String × Plain)} (lines : Lines t ms)
    (bare : ∀ m ∈ ms, IsBareName m.1) : Toml.dropMark t.toList = t.toList := by
  cases lines with
  | nil => rfl
  | last m =>
    obtain ⟨named, all⟩ := bare m List.mem_cons_self
    rw [String.toList_append, String.toList_append, List.append_assoc]
    exact Toml.dropMark_bare all named _
  | line m others =>
    obtain ⟨named, all⟩ := bare m List.mem_cons_self
    rw [toList_entryLine]
    exact Toml.dropMark_bare all named _

/-- A text of lines denotes a document with an entry for each member. -/
theorem Listing.parse? {l : Listing} {t : String} (lines : Lines t l.members) :
    Toml.parse? t = some (tomlEntries l.members) := by
  have all := @linesFrom_lines t l.members lines l.bare l.inToml [] l.distinct
  rw [List.nil_append] at all
  rw [Toml.parse?, dropMark_lines lines l.bare, all]
  rfl

theorem withEntries_right {m : String × Plain} (right : RightKind m) (s : Settings)
    (es : Entries) : s.withEntries ((m.1, m.2.toItem) :: es) = (s.put m).withEntries es := by
  cases right with
  | limit n =>
    have word : wordItem (.integer n.toNat) = .ok n := by
      rw [wordItem, if_pos (Int.natCast_nonneg _), Int.toNat_natCast]
      exact congrArg _ UInt64.ofNat_toNat
    simp [withEntries, Plain.toItem, put, word]
  | log b =>
    have noLimit : logName ≠ timeoutName := by decide
    simp [withEntries, Plain.toItem, put, booleanItem, noLimit]
  | other noLimit noLog v =>
    rw [put_other s noLimit noLog]
    simp [withEntries, noLimit, noLog]

theorem withEntries_wrong {m : String × Plain} {e : Mismatch} (wrong : WrongKind m e)
    (s : Settings) (es : Entries) : s.withEntries ((m.1, m.2.toItem) :: es) = .error e := by
  cases wrong with
  | limit b => simp [withEntries, Plain.toItem, wordItem, found]
  | log n =>
    have noLimit : logName ≠ timeoutName := by decide
    simp [withEntries, Plain.toItem, booleanItem, found, noLimit]

/-- Entries of the right kind are put into the settings one after another. -/
theorem withEntries_append {ms : List (String × Plain)} (right : ∀ m ∈ ms, RightKind m)
    (s : Settings) (es : Entries) :
    s.withEntries (tomlEntries ms ++ es) = (ms.foldl put s).withEntries es := by
  induction ms generalizing s with
  | nil => rfl
  | cons m ms ih =>
    have others := ih (fun m' mem => right m' (List.mem_cons_of_mem _ mem)) (s.put m)
    rw [List.foldl_cons, ← others]
    exact withEntries_right (right m List.mem_cons_self) s _

/-! ## Members of an object -/

namespace Parts

/-- The parts with the one that a member names. -/
def add (p : Parts) (m : String × Plain) : Parts :=
  match m.2 with
  | .integer n => if m.1 = timeoutName then { p with timeoutMillis := some (some n) } else p
  | .boolean b => if m.1 = logName then { p with logDispatch := some b } else p

theorem settings_add (p : Parts) (m : String × Plain) : p.settings.put m = (p.add m).settings := by
  obtain ⟨name, b | n⟩ := m
  · by_cases h : name = logName <;> simp [add, put, settings, h]
  · by_cases h : name = timeoutName <;> simp [add, put, settings, h]

theorem settings_foldl_add (p : Parts) (ms : List (String × Plain)) :
    (ms.foldl add p).settings = ms.foldl put p.settings :=
  (List.foldl_hom settings settings_add).symm

theorem add_other (p : Parts) {name : String} (noLimit : name ≠ timeoutName)
    (noLog : name ≠ logName) (v : Plain) : p.add (name, v) = p := by
  cases v <;> simp [add, noLimit, noLog]

structure Unread (p : Parts) (names : List String) : Prop where
  limit : timeoutName ∈ names → p.timeoutMillis = .none
  log : logName ∈ names → p.logDispatch = .none

theorem unread_none (names : List String) : Parts.none.Unread names :=
  ⟨fun _ => rfl, fun _ => rfl⟩

theorem Unread.add {p : Parts} {m : String × Plain} {names : List String}
    (unread : p.Unread (m.1 :: names)) (new : m.1 ∉ names) : (p.add m).Unread names := by
  constructor
  · intro mem
    have other : m.1 ≠ timeoutName := fun same => new (same ▸ mem)
    have none := unread.limit (List.mem_cons_of_mem _ mem)
    obtain ⟨name, b | n⟩ := m
    · by_cases h : name = logName <;> simp [Parts.add, h, none]
    · simp [Parts.add, other, none]
  · intro mem
    have other : m.1 ≠ logName := fun same => new (same ▸ mem)
    have none := unread.log (List.mem_cons_of_mem _ mem)
    obtain ⟨name, b | n⟩ := m
    · simp [Parts.add, other, none]
    · by_cases h : name = timeoutName <;> simp [Parts.add, h, none]

theorem Unread.first {p : Parts} {name : String} {names : List String}
    (unread : p.Unread (name :: names)) : p.Unread [name] where
  limit mem := unread.limit (List.mem_singleton.mp mem ▸ List.mem_cons_self)
  log mem := unread.log (List.mem_singleton.mp mem ▸ List.mem_cons_self)

/-- A part that is read for the first time and has a value of its kind is added. -/
theorem member_right {m : String × Plain} (right : RightKind m) {p : Parts}
    (unread : p.Unread [m.1]) :
    ∃ r, member p m.1 = .ok r ∧ r.Takes (asTokens m.2.toJson) (p.add m) := by
  cases right with
  | limit n =>
    have none := unread.limit List.mem_cons_self
    have takes := ((Json.Reader.takes_word n).optional nofun).map fun n =>
      { p with timeoutMillis := some n }
    exact ⟨_, by simp [member, none], takes⟩
  | log b =>
    have none := unread.log List.mem_cons_self
    have noLimit : logName ≠ timeoutName := by decide
    have takes := (Json.Reader.takes_boolean b).map fun b => { p with logDispatch := some b }
    exact ⟨_, by simp [member, none, noLimit], takes⟩
  | other noLimit noLog v =>
    rw [add_other p noLimit noLog]
    have takes := (Json.Reader.takes_skip v.toJson).map fun _ => p
    exact ⟨_, by simp [member, noLimit, noLog], takes⟩

/-- A value of another kind is refused where it starts, whatever follows. -/
theorem member_wrong {m : String × Plain} {e : Mismatch} (wrong : WrongKind m e) {p : Parts}
    (unread : p.Unread [m.1]) :
    ∃ r, member p m.1 = .ok r ∧
      ∀ rest, r.run (asTokens m.2.toJson ++ rest) = .error (.mismatch e) := by
  cases wrong with
  | limit b =>
    have none := unread.limit List.mem_cons_self
    exact ⟨_, by simp [member, none]; rfl, fun rest => rfl⟩
  | log n =>
    have none := unread.log List.mem_cons_self
    have noLimit : logName ≠ timeoutName := by decide
    exact ⟨_, by simp [member, none, noLimit]; rfl, fun rest => rfl⟩

/-- Members of the right kind are added one after another, and other names stay unread. -/
theorem takesMembers {ms : List (String × Plain)} (right : ∀ m ∈ ms, RightKind m)
    {later : List String} (distinct : (ms.map Prod.fst ++ later).Nodup) {p : Parts}
    (unread : p.Unread (ms.map Prod.fst ++ later)) :
    TakesMembers member p (jsonMembers ms) (ms.foldl Parts.add p) ∧
      (ms.foldl Parts.add p).Unread later := by
  induction ms generalizing p with
  | nil => exact ⟨.nil p, unread⟩
  | cons m ms ih =>
    rw [List.map_cons, List.cons_append] at distinct unread
    obtain ⟨new, others⟩ := List.nodup_cons.mp distinct
    obtain ⟨r, known, takes⟩ := member_right (right m List.mem_cons_self) unread.first
    obtain ⟨rest, left⟩ :=
      ih (fun m' mem => right m' (List.mem_cons_of_mem _ mem)) others (unread.add new)
    exact ⟨.cons known takes rest, left⟩

end Parts

/-! ## The two readers -/

namespace Listing

variable {l : Listing} {s t : String}

/-- Members of the right kind are read from every text of the object. -/
theorem ofJson_right (right : ∀ m ∈ l.members, RightKind m) (isText : l.toJson.IsText s) :
    ofJson s = .ok (l.members.foldl put standard) := by
  have distinct : (l.members.map Prod.fst ++ []).Nodup := by simpa using l.distinct
  obtain ⟨takes, -⟩ := Parts.takesMembers right distinct (Parts.unread_none _)
  have read : reader.Takes (asTokens l.toJson) (l.members.foldl Parts.add .none).settings :=
    Json.Reader.takes_object fun rest =>
      Json.Body.map_run (Json.Body.members_run takes rest) Parts.settings
  rw [Parts.settings_foldl_add] at read
  exact read.parse_text isText

/-- The first member of a wrong kind is the fault of every text of the object. -/
theorem ofJson_wrong {before after : List (String × Plain)} {m : String × Plain} {e : Mismatch}
    (members : l.members = before ++ m :: after) (right : ∀ m' ∈ before, RightKind m')
    (wrong : WrongKind m e) (isText : l.toJson.IsText s) : ofJson s = .error (.mismatch e) := by
  have distinct : (before.map Prod.fst ++ (m :: after).map Prod.fst).Nodup := by
    rw [← List.map_append, ← members]
    exact l.distinct
  obtain ⟨takes, unread⟩ := Parts.takesMembers right distinct (Parts.unread_none _)
  obtain ⟨r, known, fault⟩ := Parts.member_wrong wrong unread.first
  have split : jsonMembers l.members =
      jsonMembers before ++ (m.1, m.2.toJson) :: jsonMembers after := by
    rw [members, jsonMembers, List.map_append, List.map_cons]
    rfl
  have body : (Json.Body.members Parts.member .none).run
      (Json.memberTokens (jsonMembers l.members) ++ [.closeBrace]) = .error (.mismatch e) := by
    have all := Json.membersFrom_append takes true
    simp only [Json.Body.members, Json.memberTokens_eq, split, Json.tokensOfMembers_append,
      List.append_assoc, all]
    exact Json.membersFrom_fault known fault _ _
  refine Json.Reader.parse_fault isText.tokens_eq ?_
  simp only [toJson, asTokens, List.cons_append, reader, Json.Reader.structured, Settings.members]
  exact Json.Body.map_fault body Parts.settings

/-- Members of the right kind are read from every text of lines. -/
theorem ofToml_right (right : ∀ m ∈ l.members, RightKind m) (lines : Lines t l.members) :
    ofToml t = .ok (l.members.foldl put standard) := by
  have entries := withEntries_append right standard []
  rw [List.append_nil] at entries
  rw [ofToml, l.parse? lines]
  simp only [entries, withEntries]

/-- The first member of a wrong kind is the fault of every text of lines. -/
theorem ofToml_wrong {before after : List (String × Plain)} {m : String × Plain} {e : Mismatch}
    (members : l.members = before ++ m :: after) (right : ∀ m' ∈ before, RightKind m')
    (wrong : WrongKind m e) (lines : Lines t l.members) : ofToml t = .error (.mismatch e) := by
  have split : tomlEntries l.members =
      tomlEntries before ++ (m.1, m.2.toItem) :: tomlEntries after := by
    rw [members, tomlEntries, List.map_append, List.map_cons]
    rfl
  rw [ofToml, l.parse? lines, split]
  simp only [withEntries_append right, withEntries_wrong wrong]

end Listing

/-- The same members are read alike from JSON and from TOML, whichever text of the object and
whichever text of lines they are written in. Both readers come to settings, or neither does. If all
members are of the right kind, both come to the standard settings with exactly the named parts
replaced. Otherwise both refuse the first member of a wrong kind, with the same message. -/
theorem ofJson_ofToml_alike (l : Listing) {s t : String} (isText : l.toJson.IsText s)
    (lines : Lines t l.members) :
    ((∃ c, ofJson s = .ok c) ↔ ∃ c, ofToml t = .ok c) ∧
      ((∀ m ∈ l.members, RightKind m) →
        ∃ c, ofJson s = .ok c ∧ ofToml t = .ok c ∧ Replaced standard l.members c) ∧
      ((¬ ∀ m ∈ l.members, RightKind m) →
        ∃ before m after e, l.members = before ++ m :: after ∧ (∀ m' ∈ before, RightKind m') ∧
          WrongKind m e ∧ ofJson s = .error (.mismatch e) ∧ ofToml t = .error (.mismatch e) ∧
          e.message Json.decimalStyle = e.message tomlStyle) := by
  have right (all : ∀ m ∈ l.members, RightKind m) :
      ∃ c, ofJson s = .ok c ∧ ofToml t = .ok c ∧ Replaced standard l.members c :=
    ⟨_, l.ofJson_right all isText, l.ofToml_right all lines, replaced_foldl standard l.distinct⟩
  have wrong (other : ¬ ∀ m ∈ l.members, RightKind m) :
      ∃ before m after e, l.members = before ++ m :: after ∧ (∀ m' ∈ before, RightKind m') ∧
        WrongKind m e ∧ ofJson s = .error (.mismatch e) ∧ ofToml t = .error (.mismatch e) ∧
        e.message Json.decimalStyle = e.message tomlStyle := by
    obtain all | ⟨before, m, after, e, members, rights, wrong⟩ := rightKind_or_first l.members
    · exact absurd all other
    · exact ⟨before, m, after, e, members, rights, wrong,
        l.ofJson_wrong members rights wrong isText, l.ofToml_wrong members rights wrong lines,
        wrong.message_eq⟩
  refine ⟨?_, right, wrong⟩
  by_cases all : ∀ m ∈ l.members, RightKind m
  · obtain ⟨c, json, toml, -⟩ := right all
    exact ⟨fun _ => ⟨c, toml⟩, fun _ => ⟨c, json⟩⟩
  · obtain ⟨_, _, _, e, _, _, _, json, toml, _⟩ := wrong all
    rw [json, toml]
    exact ⟨nofun, nofun⟩

/-- A number for the report of operations stands before a truth value for the limit. -/
def disordered : Listing where
  members := [("colour", .boolean true), (logName, .integer 7), (timeoutName, .boolean false)]
  distinct := by decide
  bare := by decide
  inToml := by decide

/-- The number is what both formats refuse, also where the last line ends with the text. -/
theorem ofJson_ofToml_alike_disordered :
    let s := "\x7b\"colour\":true,\"log_dispatch\":7,\"op_timeout_ms\":false\x7d"
    let t := "colour = true\nlog_dispatch = 7\nop_timeout_ms = false"
    disordered.toJson.IsText s ∧ Lines t disordered.members ∧
      (¬ ∀ m ∈ disordered.members, RightKind m) ∧
      ofJson s = .error (.mismatch (.wrongKind (.integer 7) .boolean)) ∧
      ofToml t = .error (.mismatch (.wrongKind (.integer 7) .boolean)) := by
  intro s t
  have compact : disordered.toJson.compact = s := by decide
  have isText : disordered.toJson.IsText s := by
    rw [← compact]
    exact disordered.fits.isText_compact
  have lines : Lines t disordered.members :=
    .line ("colour", .boolean true) <|
      .line (logName, .integer 7) <| .last (timeoutName, .boolean false)
  have number : WrongKind (logName, .integer 7) (.wrongKind (.integer 7) .boolean) := .log 7
  have other : ¬ ∀ m ∈ disordered.members, RightKind m :=
    fun all => number.not_rightKind (all _ (.tail _ (.head _)))
  obtain ⟨before, m, after, e, members, rights, first, json, toml, -⟩ :=
    (ofJson_ofToml_alike disordered isText lines).2.2 other
  have refused : e = .wrongKind (.integer 7) .boolean := by
    rcases before with _ | ⟨_, _ | ⟨_, _⟩⟩
    · obtain rfl := (List.cons.inj members).1
      exact absurd (.other (by decide) (by decide) _) first.not_rightKind
    · obtain rfl := (List.cons.inj (List.cons.inj members).2).1
      exact first.unique number
    · obtain rfl := (List.cons.inj (List.cons.inj members).2).1
      exact absurd (rights _ (.tail _ (.head _))) number.not_rightKind
  rw [refused] at json toml
  exact ⟨isText, lines, other, json, toml⟩

end PhotoArchive.Settings
