import Mathlib.Algebra.GroupWithZero.Nat
import Mathlib.Data.List.Dedup
import Mathlib.Data.List.DropRight
import PhotoArchive.Proofs.Keeping
import PhotoArchive.Proofs.TextOrder

/-!
# Stores in memory hold what was put last

After any requests to the two stores, each of them holds what was put into it since it was last
cleared, and under each name what was put there last. Everything that a store can be asked follows
from that: how much it holds, under which names and in which order, and how long its contents are
together. Requests to the one store do not matter to the other.
-/
namespace PhotoArchive

/-! ## Names and what is put under them -/

/-- What was put under names, the earliest first. -/
abbrev Puts (κ β : Type) := List (κ × β)

namespace Puts

variable {κ β : Type} [DecidableEq κ] {puts : Puts κ β}

def last? (puts : Puts κ β) (name : κ) : Option β :=
  (puts.filter (·.1 = name)).getLast?.map Prod.snd

def names (puts : Puts κ β) : List κ :=
  (puts.map Prod.fst).dedup

theorem last?_concat (puts : Puts κ β) (name other : κ) (value : β) :
    last? (puts ++ [(name, value)]) other =
      if name = other then some value else puts.last? other := by
  unfold last?
  by_cases same : name = other
  · simp [same]
  · simp [same]

theorem isSome_last? (name : κ) : (puts.last? name).isSome ↔ name ∈ puts.names := by
  simp [last?, names, List.mem_dedup]

variable {cmp : κ → κ → Ordering} [Std.TransCmp cmp]

omit [DecidableEq κ] in
theorem values_eq_map_toList (m : Std.ExtTreeMap κ β cmp) : m.values = m.toList.map Prod.snd := by
  have folded : m.values = m.foldr (fun _ b l => b :: l) [] := by
    obtain ⟨inner⟩ := m
    induction inner using Std.ExtDTreeMap.inductionOn with
    | _ t => rfl
  rw [folded, Std.ExtTreeMap.foldr_eq_foldr_toList]
  induction m.toList with
  | nil => rfl
  | cons p l ih => simp [ih]

/-! A map that holds what was put last under each name: -/

variable [Std.LawfulEqCmp cmp] {m : Std.ExtTreeMap κ β cmp} (holds : ∀ k, m[k]? = puts.last? k)

include holds

theorem mem_keys_iff (name : κ) : name ∈ m.keys ↔ name ∈ puts.names := by
  rw [Std.ExtTreeMap.mem_keys, Std.ExtTreeMap.mem_iff_isSome_getElem?, holds, isSome_last?]

/-- The map has each of the names once. -/
theorem keys_perm : m.keys.Perm puts.names :=
  (List.perm_ext_iff_of_nodup Std.ExtTreeMap.nodup_keys (List.nodup_dedup _)).mpr
    (mem_keys_iff holds)

theorem size_eq : m.size = puts.names.length := by
  rw [← Std.ExtTreeMap.length_keys]
  exact (keys_perm holds).length_eq

/-- A sum over what the map holds counts, for each name, what was put there last. -/
theorem sum_values (weight : β → Nat) :
    (m.values.map weight).sum =
      (puts.names.map fun name => ((puts.last? name).map weight).getD 0).sum := by
  have current : m.values.map weight =
      m.keys.map fun name => ((puts.last? name).map weight).getD 0 := by
    rw [values_eq_map_toList, ← Std.ExtTreeMap.map_fst_toList_eq_keys, List.map_map, List.map_map]
    apply List.map_congr_left
    rintro ⟨name, value⟩ held
    rw [Std.ExtTreeMap.mem_toList_iff_getElem?_eq_some, holds] at held
    simp [held]
  rw [current]
  exact ((keys_perm holds).map _).sum_nat

end Puts

/-- Identifiers listed in any order are sorted into the one ascending list of them. -/
theorem PhotoId.sort_eq_of_perm {listed ids : List PhotoId} (perm : listed.Perm ids)
    (ascending : ids.Pairwise fun a b => compare a b = .lt) : sort listed = ids := by
  apply mergeSort_eq_of_perm perm
  apply ascending.imp
  intro a b less
  exact Ordering.isLE_of_eq_lt less

/-! ## What each store answers -/

/-- What the store of records answers, by what was put into it: under an identifier the record that
was put there last, and the identifiers with a record, each once and in the order of their bytes. In
whichever order the identifiers come, sorted they are that list. -/
structure MetadataStore.Reports (s : MetadataStore) (puts : Puts PhotoId MetadataRecord) :
    Prop where
  record : ∀ id, s.get? id = puts.last? id
  ofId : ∀ id r, s.get? id = some r → r.id = id
  size : s.size = puts.names.length
  isEmpty : s.isEmpty ↔ s.size = 0
  listed : ∀ id, id ∈ s.ids ↔ (s.get? id).isSome
  ascending : s.ids.Pairwise fun a b => compare a.bytes b.bytes = .lt
  once : s.ids.Nodup
  anyOrder : ∀ ids : List PhotoId, ids.Nodup → (∀ id, id ∈ ids ↔ id ∈ puts.names) →
    PhotoId.sort ids = s.ids

/-- What the store of contents answers, by what was put into it: under a key the content that was
put there last, or an error. In the count and in the length of all contents each key counts once. -/
structure BlobStore.Reports (s : BlobStore) (puts : Puts BlobKey ByteArray) : Prop where
  content : ∀ key, s.get key =
    match puts.last? key with
    | some content => .ok content
    | none => .error (.blobNotFound key)
  size : s.size = puts.names.length
  isEmpty : s.isEmpty ↔ s.size = 0
  totalBytes : s.totalBytes =
    (puts.names.map fun key => ((puts.last? key).map ByteArray.size).getD 0).sum

theorem MetadataStore.reports {s : MetadataStore} {puts : Puts PhotoId MetadataRecord}
    (holds : ∀ id, s.get? id = puts.last? id) (filed : ∀ p ∈ puts, p.2.id = p.1) :
    s.Reports puts where
  record := holds
  ofId id r found := by
    rw [holds] at found
    obtain ⟨p, last, rfl⟩ := Option.map_eq_some_iff.mp found
    have mem := List.mem_of_getLast? last
    simp only [List.mem_filter, decide_eq_true_eq] at mem
    rw [filed p mem.1, mem.2]
  size := Puts.size_eq holds
  isEmpty := by
    rw [isEmpty, Std.ExtTreeMap.isEmpty_eq_size_beq_zero, beq_iff_eq]
    rfl
  listed id := by
    rw [holds, Puts.isSome_last?]
    exact Puts.mem_keys_iff holds id
  ascending := s.records.ordered_keys
  once := Std.ExtTreeMap.nodup_keys
  anyOrder ids nodup mem := by
    have named (id : PhotoId) : id ∈ ids ↔ id ∈ s.records.keys :=
      (mem id).trans (Puts.mem_keys_iff holds id).symm
    have perm : ids.Perm s.ids := (List.perm_ext_iff_of_nodup nodup s.records.nodup_keys).mpr named
    exact PhotoId.sort_eq_of_perm perm s.records.ordered_keys

theorem BlobStore.reports {s : BlobStore} {puts : Puts BlobKey ByteArray}
    (holds : ∀ key, s.get? key = puts.last? key) : s.Reports puts where
  content key := by
    rw [← holds]
    rfl
  size := Puts.size_eq holds
  isEmpty := by
    rw [isEmpty, Std.ExtTreeMap.isEmpty_eq_size_beq_zero, beq_iff_eq]
    rfl
  totalBytes := Puts.sum_values holds ByteArray.size

/-! ## Runs of requests -/

namespace StoreRequest

def concernsRecords : StoreRequest → Bool
  | .putRecord _ | .getRecord _ | .clearRecords => true
  | .putBlob _ _ | .getBlob _ | .clearBlobs => false

def record? : StoreRequest → Option (PhotoId × MetadataRecord)
  | .putRecord r => some (r.id, r)
  | _ => none

def content? : StoreRequest → Option (BlobKey × ByteArray)
  | .putBlob key content => some (key, content)
  | _ => none

/-- What was put since the last request that clears. -/
def putsSince {κ β : Type} (clear : StoreRequest) (put? : StoreRequest → Option (κ × β))
    (requests : List StoreRequest) : Puts κ β :=
  (requests.rtakeWhile (· ≠ clear)).filterMap put?

def recordPuts : List StoreRequest → Puts PhotoId MetadataRecord :=
  putsSince .clearRecords record?

def contentPuts : List StoreRequest → Puts BlobKey ByteArray :=
  putsSince .clearBlobs content?

theorem putsSince_concat {κ β : Type} (clear : StoreRequest)
    (put? : StoreRequest → Option (κ × β)) (requests : List StoreRequest) (r : StoreRequest) :
    putsSince clear put? (requests ++ [r]) =
      if r = clear then [] else putsSince clear put? requests ++ (put? r).toList := by
  rw [putsSince, List.rtakeWhile_concat]
  by_cases clears : r = clear
  · simp [clears]
  · cases h : put? r <;> simp [clears, putsSince, h]

theorem id_of_mem_recordPuts {requests : List StoreRequest} {p : PhotoId × MetadataRecord}
    (mem : p ∈ recordPuts requests) : p.2.id = p.1 := by
  obtain ⟨r, _, put⟩ := List.mem_filterMap.mp mem
  cases r <;> cases put
  rfl

end StoreRequest

namespace Stores

open StoreRequest

structure HoldPuts (s : Stores) (requests : List StoreRequest) : Prop where
  record : ∀ id, s.metadata.get? id = (recordPuts requests).last? id
  content : ∀ key, s.blobs.get? key = (contentPuts requests).last? key

/-- One more request leaves the stores with what is then put last. -/
theorem HoldPuts.after {s : Stores} {requests : List StoreRequest} (h : s.HoldPuts requests)
    (r : StoreRequest) : (s.after r).HoldPuts (requests ++ [r]) := by
  refine ⟨fun id => ?_, fun key => ?_⟩
  · rw [recordPuts, putsSince_concat]
    cases r with
    | putRecord r =>
      rw [if_neg nofun]
      show (s.metadata.put r).get? id = Puts.last? (recordPuts requests ++ [(r.id, r)]) id
      rw [MetadataStore.get?_put, Puts.last?_concat, h.record]
    | clearRecords =>
      rw [if_pos rfl]
      rfl
    | getRecord | putBlob | getBlob | clearBlobs =>
      rw [if_neg nofun]
      simpa [Stores.after, record?, recordPuts] using h.record id
  · rw [contentPuts, putsSince_concat]
    cases r with
    | putBlob name content =>
      rw [if_neg nofun]
      show (s.blobs.put name content).get? key =
        Puts.last? (contentPuts requests ++ [(name, content)]) key
      rw [BlobStore.get?_put, Puts.last?_concat, h.content]
    | clearBlobs =>
      rw [if_pos rfl]
      rfl
    | putRecord | getRecord | getBlob | clearRecords =>
      rw [if_neg nofun]
      simpa [Stores.after, content?, contentPuts] using h.content key

def afterAll (requests : List StoreRequest) : Stores :=
  requests.foldl after empty

theorem afterAll_concat (requests : List StoreRequest) (r : StoreRequest) :
    afterAll (requests ++ [r]) = (afterAll requests).after r := by
  rw [afterAll, List.foldl_append]
  rfl

theorem holdPuts_afterAll (requests : List StoreRequest) :
    (afterAll requests).HoldPuts requests := by
  induction requests using List.reverseRecOn with
  | nil => exact ⟨fun _ => rfl, fun _ => rfl⟩
  | append_singleton requests r ih =>
    rw [afterAll_concat]
    exact ih.after r

/-- Where a part of the stores depends on that part alone, and some requests leave it as it is, it
comes to the same without these requests. -/
theorem part_afterAll_filter {τ : Type} {part : Stores → τ} {own : StoreRequest → Bool}
    (alone : ∀ s t r, part s = part t → part (s.after r) = part (t.after r))
    (left : ∀ s r, own r = false → part (s.after r) = part s) (requests : List StoreRequest) :
    part (afterAll (requests.filter own)) = part (afterAll requests) := by
  induction requests using List.reverseRecOn with
  | nil => rfl
  | append_singleton requests r ih =>
    rw [List.filter_append, afterAll_concat]
    cases h : own r with
    | true =>
      rw [List.filter_cons_of_pos h, List.filter_nil, afterAll_concat]
      exact alone _ _ r ih
    | false =>
      rw [List.filter_cons_of_neg (by simp [h]), List.filter_nil, List.append_nil, left _ r h]
      exact ih

/-- After any requests to empty stores, both stores answer by what was put into them since they
were last cleared, and neither answers otherwise without the requests to the other one. -/
theorem reports_afterAll (requests : List StoreRequest) :
    (afterAll requests).metadata.Reports (recordPuts requests) ∧
      (afterAll requests).blobs.Reports (contentPuts requests) ∧
      (afterAll (requests.filter (·.concernsRecords))).metadata = (afterAll requests).metadata ∧
      (afterAll (requests.filter (!·.concernsRecords))).blobs = (afterAll requests).blobs := by
  have holds := holdPuts_afterAll requests
  refine ⟨?_, ?_, ?_, ?_⟩
  · exact MetadataStore.reports holds.record fun p mem => id_of_mem_recordPuts mem
  · exact BlobStore.reports holds.content
  · apply part_afterAll_filter
    · intro s t r same
      cases r <;> simp [after, same]
    · intro s r other
      cases r <;> first | rfl | cases other
  · apply part_afterAll_filter
    · intro s t r same
      cases r <;> simp [after, same]
    · intro s r other
      cases r <;> first | rfl | cases other

end Stores

end PhotoArchive
