import PhotoArchive.Proofs.HexCodec
import PhotoArchive.Store.Memory

/-!
# The order of identifiers and keys, and that of their texts

Identifiers are ordered by their UTF-8 bytes and keys by their bytes. A reader sees texts: an
identifier as it is, a key as its digits. Texts are ordered by the numbers of their characters, and
this is the same order. The reason is one property of both codes, UTF-8 and hexadecimal pairs: of
two symbols the code of the smaller one is the smaller one, whatever comes after the two codes.
-/
namespace PhotoArchive

/-- There is one ascending list of given things, and sorting yields it. -/
theorem mergeSort_eq_of_perm {α : Type} [Ord α] [Std.TransOrd α] [Std.LawfulEqOrd α]
    {listed sorted : List α} (perm : listed.Perm sorted)
    (ascending : sorted.Pairwise fun a b => (compare a b).isLE) :
    (listed.mergeSort fun a b => (compare a b).isLE) = sorted := by
  have trans (a b c : α) : (compare a b).isLE = true → (compare b c).isLE = true →
      (compare a c).isLE = true := Std.TransCmp.isLE_trans
  have total (a b : α) : ((compare a b).isLE || (compare b a).isLE) = true := by
    have swap : compare b a = (compare a b).swap := Std.OrientedCmp.eq_swap
    rw [swap]
    cases compare a b <;> rfl
  have made : (listed.mergeSort fun a b => (compare a b).isLE).Pairwise
      fun a b => (compare a b).isLE = true := List.pairwise_mergeSort trans total listed
  refine List.Perm.eq_of_pairwise ?_ made ascending ((List.mergeSort_perm _ _).trans perm)
  intro a b _ _ hab hba
  exact Std.LawfulEqCmp.eq_of_compare (Std.OrientedCmp.isLE_antisymm hab hba)

namespace Text

/-! ## Codes that keep the order -/

section Codes

variable {α β : Type} [Ord α] [Ord β]

/-- Each symbol has a code of its own. The code of a smaller symbol comes before that of a greater
one in whatever words the two codes begin, so neither of them begins the other. -/
structure OrderedCode (code : α → List β) : Prop where
  ne_nil : ∀ a, code a ≠ []
  lt : ∀ {a b}, compare a b = .lt → ∀ u v, compare (code a ++ u) (code b ++ v) = .lt

variable [Std.LawfulEqOrd β]

theorem compare_append_self (w u v : List β) : compare (w ++ u) (w ++ v) = compare u v := by
  induction w with
  | nil => rfl
  | cons x w ih =>
    rw [List.cons_append, List.cons_append, List.compare_cons_cons, Std.compare_self,
      Ordering.eq_then, ih]

namespace OrderedCode

variable [Std.OrientedOrd α] [Std.LawfulEqOrd α] [Std.OrientedOrd β] {code : α → List β}

/-- Where words begin with codes, the symbols decide first, and then what comes after the codes. -/
theorem compare_append (ordered : OrderedCode code) (a b : α) (u v : List β) :
    compare (code a ++ u) (code b ++ v) = (compare a b).then (compare u v) := by
  cases order : compare a b with
  | lt => exact ordered.lt order u v
  | eq =>
    rw [Std.LawfulEqCmp.eq_of_compare order, compare_append_self, Ordering.eq_then]
  | gt =>
    have less : compare b a = .lt := Std.OrientedCmp.lt_of_gt order
    exact Std.OrientedCmp.gt_of_lt (ordered.lt less v u)

/-- Words are ordered as what they are the codes of. -/
theorem compare_flatMap (ordered : OrderedCode code) (l l' : List α) :
    compare (l.flatMap code) (l'.flatMap code) = compare l l' := by
  induction l generalizing l' with
  | nil =>
    cases l' with
    | nil => rfl
    | cons b l' =>
      obtain ⟨y, ys, word⟩ := List.exists_cons_of_ne_nil (ordered.ne_nil b)
      rw [List.flatMap_cons, word]
      rfl
  | cons a l ih =>
    cases l' with
    | nil =>
      obtain ⟨x, xs, word⟩ := List.exists_cons_of_ne_nil (ordered.ne_nil a)
      rw [List.flatMap_cons, word]
      rfl
    | cons b l' =>
      rw [List.flatMap_cons, List.flatMap_cons, ordered.compare_append, ih, List.compare_cons_cons]

end OrderedCode

end Codes

/-! ## Bytes of a text -/

theorem compare_cons_eq_lt_iff {m n : Nat} (hm : m < 256) (hn : n < 256) (u v : List UInt8) :
    compare (UInt8.ofNat m :: u) (UInt8.ofNat n :: v) = .lt ↔
      m < n ∨ m = n ∧ compare u v = .lt := by
  rw [List.compare_cons_cons, Ordering.then_eq_lt, Std.compare_eq_lt, Std.compare_eq_iff_eq,
    UInt8.lt_iff_toNat_lt, ← UInt8.toNat_inj, UInt8.toNat_ofNat', UInt8.toNat_ofNat',
    Nat.mod_eq_of_lt hm, Nat.mod_eq_of_lt hn]

/-- The bytes of a smaller number come first. Where there are as many bytes for the greater number,
its digits to the base 64 decide; where there are more, its first byte does. -/
theorem IsUtf8.compare_append {m n : Nat} {b b' : List UInt8} (first : IsUtf8 m b)
    (second : IsUtf8 n b') (less : m < n) (u v : List UInt8) :
    compare (b ++ u) (b' ++ v) = .lt := by
  -- one case for each pair of lengths, which are the classes of `m` and `n`; where the code of `m`
  -- would be the longer one, `m` is not the smaller number
  cases first <;> cases second <;>
    simp (disch := omega) only [List.cons_append, List.nil_append, compare_cons_eq_lt_iff] <;>
    omega

theorem compare_char_eq_lt_iff {c d : Char} : compare c d = .lt ↔ c.toNat < d.toNat :=
  compareOfLessAndEq_eq_lt

theorem orderedCode_utf8EncodeChar : OrderedCode String.utf8EncodeChar where
  ne_nil _ := String.utf8EncodeChar_ne_nil
  lt less := (isUtf8_utf8EncodeChar _).compare_append (isUtf8_utf8EncodeChar _)
    (compare_char_eq_lt_iff.mp less)

/-! ## Texts by the numbers of their characters -/

def codePoints (s : String) : List Nat :=
  s.toList.map Char.toNat

/-- Texts are ordered by the numbers of their characters, from the first on. A text comes before the
longer ones that begin with it. -/
def order (s t : String) : Ordering :=
  compare (codePoints s) (codePoints t)

theorem orderedCode_toNat : OrderedCode fun c : Char => [c.toNat] where
  ne_nil _ := List.cons_ne_nil _ _
  lt less u v := by
    rw [List.singleton_append, List.singleton_append, List.compare_cons_cons,
      Nat.compare_eq_lt.mpr (compare_char_eq_lt_iff.mp less)]
    rfl

theorem order_eq_lt_iff {s t : String} : order s t = .lt ↔ codePoints s < codePoints t := by
  unfold order
  generalize codePoints s = l
  generalize codePoints t = l'
  induction l generalizing l' with
  | nil => cases l' <;> simp
  | cons m l ih =>
    cases l' with
    | nil => simp
    | cons n l' =>
      rw [List.compare_cons_cons, Ordering.then_eq_lt, Nat.compare_eq_lt, Nat.compare_eq_eq, ih,
        List.cons_lt_cons_iff]

/-- The bytes of texts are ordered as the texts. -/
theorem compare_utf8Bytes (s t : String) : compare (utf8Bytes s) (utf8Bytes t) = order s t := by
  rw [utf8Bytes_eq, utf8Bytes_eq, orderedCode_utf8EncodeChar.compare_flatMap, order, codePoints,
    codePoints, List.map_eq_flatMap, List.map_eq_flatMap, orderedCode_toNat.compare_flatMap]

/-! ## Hexadecimal digits -/

theorem hexDigit_lt {m n : Nat} (less : m < n) (hn : n < 16) :
    (hexDigit m).toNat < (hexDigit n).toNat := by
  have all : ∀ a b : Fin 16, a < b → (hexDigit a).toNat < (hexDigit b).toNat := by decide
  exact all ⟨m, by omega⟩ ⟨n, hn⟩ less

/-- Of two bytes the upper digits decide, and where these are the same the lower ones. -/
theorem orderedCode_hexPair : OrderedCode fun b : UInt8 => (hexPair b).map Char.toNat where
  ne_nil _ := List.cons_ne_nil _ _
  lt {a b} less u v := by
    have ha := a.toNat_lt
    have hb := b.toNat_lt
    rw [Std.compare_eq_lt, UInt8.lt_iff_toNat_lt] at less
    simp only [hexPair, List.map_cons, List.map_nil, List.cons_append, List.nil_append,
      List.compare_cons_cons, Ordering.then_eq_lt, Nat.compare_eq_lt, Nat.compare_eq_eq]
    by_cases upper : a.toNat / 16 < b.toNat / 16
    · exact .inl (hexDigit_lt upper (by omega))
    · have same : a.toNat / 16 = b.toNat / 16 := by omega
      have lower := hexDigit_lt (show a.toNat % 16 < b.toNat % 16 by omega) (by omega)
      rw [hexDigit_mod, hexDigit_mod] at lower
      exact .inr ⟨by rw [same], .inl lower⟩

/-- Bytes are ordered as the texts of their digits. -/
theorem order_toHex (a b : List UInt8) : order (toHex a) (toHex b) = compare a b := by
  have digits (bytes : List UInt8) :
      codePoints (toHex bytes) = bytes.flatMap fun b => (hexPair b).map Char.toNat := by
    rw [codePoints, toHex, String.toList_ofList, hexChars, List.map_flatMap]
  rw [order, digits, digits, orderedCode_hexPair.compare_flatMap]

/-! ## Things and their texts -/

section Shown

variable {α : Type} [Ord α]

/-- Things are in the order of the texts that stand for them: the lesser of two has the text that
comes first by the numbers of its characters, and things are sorted as their texts are, in whichever
way that is done. -/
structure ShowsOrder (text : α → String) : Prop where
  compare_eq : ∀ a b : α, compare a b = order (text a) (text b)
  lt_iff : ∀ a b : α, compare a b = .lt ↔ codePoints (text a) < codePoints (text b)
  eq_iff : ∀ a b : α, compare a b = .eq ↔ a = b
  sort_eq : ∀ l : List α, (l.mergeSort fun a b => (compare a b).isLE) =
    l.mergeSort fun a b => (order (text a) (text b)).isLE
  map_sort : ∀ l : List α, (l.mergeSort fun a b => (compare a b).isLE).map text =
    (l.map text).mergeSort fun s t => (order s t).isLE
  sort_unique : ∀ listed sorted : List α, listed.Perm sorted →
    (sorted.Pairwise fun a b => (order (text a) (text b)).isLE) →
    (listed.mergeSort fun a b => (compare a b).isLE) = sorted

/-- Things that compare as their texts do are sorted as their texts are. -/
theorem ShowsOrder.of_compare [Std.TransOrd α] [Std.LawfulEqOrd α] {text : α → String}
    (same : ∀ a b : α, compare a b = order (text a) (text b)) : ShowsOrder text where
  compare_eq := same
  lt_iff a b := by rw [same, order_eq_lt_iff]
  eq_iff _ _ := Std.compare_eq_iff_eq
  sort_eq l := by simp only [same]
  map_sort l := List.map_mergeSort fun a _ b _ => congrArg Ordering.isLE (same a b)
  sort_unique listed sorted perm ascending := by
    simp only [← same] at ascending
    exact mergeSort_eq_of_perm perm ascending

end Shown

end Text

theorem PhotoId.showsOrder_text : Text.ShowsOrder PhotoId.text := by
  apply Text.ShowsOrder.of_compare
  intro a b
  exact Text.compare_utf8Bytes a.text b.text

theorem BlobKey.showsOrder_toHex : Text.ShowsOrder BlobKey.toHex := by
  apply Text.ShowsOrder.of_compare
  intro a b
  exact (Text.order_toHex a.bytes.toList b.bytes.toList).symm

/-- The identifiers in a store are listed in the order of their texts. -/
theorem MetadataStore.codePoints_ids (s : MetadataStore) :
    s.ids.Pairwise fun a b => Text.codePoints a.text < Text.codePoints b.text := by
  apply s.records.ordered_keys.imp
  intro a b less
  exact (PhotoId.showsOrder_text.lt_iff a b).mp less

/-- Identifiers are ordered as their texts and keys as the texts of their digits, so that sorting
goes by either. The identifiers of the records in a store are listed as sorting them by their texts
would have it, in whatever order they come. -/
theorem texts_show_order :
    Text.ShowsOrder PhotoId.text ∧ Text.ShowsOrder BlobKey.toHex ∧
      (∀ ids : List PhotoId,
        PhotoId.sort ids = ids.mergeSort fun a b => (Text.order a.text b.text).isLE) ∧
      ∀ s : MetadataStore,
        (s.ids.Pairwise fun a b => Text.codePoints a.text < Text.codePoints b.text) ∧
          ∀ ids : List PhotoId, ids.Perm s.ids →
            (ids.mergeSort fun a b => (Text.order a.text b.text).isLE) = s.ids := by
  have byText := PhotoId.showsOrder_text
  refine ⟨byText, BlobKey.showsOrder_toHex, byText.sort_eq, fun s => ⟨s.codePoints_ids, ?_⟩⟩
  intro ids perm
  rw [← byText.sort_eq]
  apply byText.sort_unique ids s.ids perm
  apply s.codePoints_ids.imp
  intro a b less
  exact Ordering.isLE_of_eq_lt (Text.order_eq_lt_iff.mpr less)

/-- Characters of one to four bytes, on either side of each length, and texts that begin others. -/
theorem texts_show_order_lengths :
    let ids : List PhotoId := [⟨"q"⟩, ⟨"p𐀀"⟩, ⟨"p\uffff"⟩, ⟨"p\u0800"⟩, ⟨"p\u07ff"⟩, ⟨"p\u0080"⟩,
      ⟨"p\u007f"⟩, ⟨"p"⟩, ⟨""⟩]
    let s := MetadataStore.ofList (ids.map fun id => ⟨id, BlobKey.derive id, "Ann"⟩)
    ids.Perm s.ids ∧
      (ids.mergeSort fun a b => (Text.order a.text b.text).isLE) = ids.reverse := by
  intro ids s
  have listed : s.ids = ids.reverse := by rfl
  have perm : ids.Perm s.ids := by
    rw [listed]
    exact (List.reverse_perm ids).symm
  obtain ⟨-, -, -, stores⟩ := texts_show_order
  exact ⟨perm, ((stores s).2 ids perm).trans listed⟩

end PhotoArchive
