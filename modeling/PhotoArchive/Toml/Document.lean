import PhotoArchive.Toml.Scalar
import PhotoArchive.Toml.Text

/-!
# TOML documents

A document is read line by line: blank lines and comments, entries `key = value`, and headers that
say which table the entries below them belong to. Whether a text is TOML is settled for the whole
text before any entry is used. Values nest in arrays and braces, and keys have dotted parts, up to a
fixed depth.
-/
namespace PhotoArchive.Toml

/-- How many arrays and braces may be open at once, and how many parts a key may have. -/
def depthLimit : Nat := 79

def isBare (c : Char) : Bool :=
  ('a' ≤ c && c ≤ 'z') || ('A' ≤ c && c ≤ 'Z') || c.isDigit || c == '_' || c == '-'

/-- The text behind a comment; a control character stops it. -/
def skipComment (s : List Char) : List Char :=
  match s with
  | '#' :: rest => rest.dropWhile isPlain
  | _ => s

/-- The text behind the end of a line: blanks, a comment, and a line break or the end of text. -/
def lineEnd? (s : List Char) : Option (List Char) :=
  match skipComment (skipBlanks s) with
  | [] => some []
  | rest => lineBreak? rest

/-- The text behind blanks, line breaks and comments. -/
def skipLayout (inComment : Bool) : List Char → List Char
  | [] => []
  | '\r' :: '\n' :: rest => skipLayout false rest
  | c :: rest =>
    if c = '\n' then skipLayout false rest
    else if inComment then if isPlain c then skipLayout true rest else c :: rest
    else if c = ' ' ∨ c = '\t' then skipLayout false rest
    else if c = '#' then skipLayout true rest
    else c :: rest

theorem skipLayout_length (inComment : Bool) (s : List Char) :
    (skipLayout inComment s).length ≤ s.length := by
  fun_induction skipLayout inComment s with
  | case1 => exact Nat.le_refl _
  | case2 _ _ ih =>
    simp only [List.length_cons]
    omega
  | case3 _ _ ih =>
    simp only [List.length_cons]
    omega
  | case4 _ _ _ _ _ ih =>
    simp only [List.length_cons]
    omega
  | case5 => exact Nat.le_refl _
  | case6 _ _ _ _ _ _ _ ih =>
    simp only [List.length_cons]
    omega
  | case7 _ _ _ _ _ _ ih =>
    simp only [List.length_cons]
    omega
  | case8 => exact Nat.le_refl _

theorem skipComment_length (s : List Char) : (skipComment s).length ≤ s.length := by
  unfold skipComment
  split
  · have := (List.dropWhile_sublist (l := ‹List Char›) isPlain).length_le
    simp only [List.length_cons]
    omega
  · exact Nat.le_refl _

theorem lineEnd?_length {s rest : List Char} (h : lineEnd? s = some rest) :
    rest.length ≤ s.length := by
  unfold lineEnd? at h
  have := skipBlanks_length s
  have := skipComment_length (skipBlanks s)
  split at h
  · cases h
    simp
  · have := lineBreak?_length h
    omega

theorem lineEnd?_shorter {s rest : List Char} (h : lineEnd? s = some rest) (hs : s ≠ []) :
    rest.length < s.length := by
  unfold lineEnd? at h
  have := skipBlanks_length s
  have := skipComment_length (skipBlanks s)
  split at h
  · cases h
    exact List.length_pos_iff.mpr hs
  · have := lineBreak?_length h
    omega

/-- One part of a key and what follows it: in quotes, or of bare characters. -/
def keyPartFrom (s : List Char) : Option (String × List Char) :=
  match s with
  | [] => none
  | c :: _ =>
    if isBare c then some (String.ofList (s.takeWhile isBare), s.dropWhile isBare)
    else lineText.run s

theorem keyPartFrom_shorter {s rest : List Char} {a : String}
    (h : keyPartFrom s = some (a, rest)) : rest.length < s.length := by
  unfold keyPartFrom at h
  split at h
  · cases h
  · rename_i c t
    split at h
    · rename_i hc
      cases h
      have := (List.dropWhile_sublist (l := t) isBare).length_le
      simp only [List.dropWhile_cons, hc, if_true, List.length_cons]
      omega
    · exact lineText.shorter h

def keyPart : Reader String where
  run := keyPartFrom
  shorter := keyPartFrom_shorter

def paddedPart : Reader String where
  run s := (keyPart.run (skipBlanks s)).map fun p => (p.1, skipBlanks p.2)
  shorter := by
    intro s a rest h
    obtain ⟨p, hp, he⟩ := Option.map_eq_some_iff.mp h
    cases he
    have := keyPart.shorter hp
    have := skipBlanks_length s
    have := skipBlanks_length p.2
    omega

/-- Things with a separator between each two. -/
def separatedBy {α : Type} (item : Reader α) (separator : Char) (s : List Char) :
    Option (List α × List Char) :=
  match _h : item.run s with
  | none => none
  | some (a, []) => some ([a], [])
  | some (a, c :: rest) =>
    if c = separator then
      match separatedBy item separator rest with
      | none => none
      | some (as, rest) => some (a :: as, rest)
    else some ([a], c :: rest)
termination_by s.length
decreasing_by
  have := item.shorter _h
  simp only [List.length_cons] at this
  omega

theorem separatedBy_length {α : Type} {item : Reader α} {separator : Char} {s rest : List Char}
    {as : List α} (h : separatedBy item separator s = some (as, rest)) :
    rest.length < s.length := by
  fun_induction separatedBy item separator s generalizing as rest with
  | case1 => cases h
  | case2 _ _ hi =>
    cases h
    exact item.shorter hi
  | case3 => cases h
  | case4 _ _ _ _ _ hs hi ih =>
    cases h
    have := item.shorter hi
    have := ih hs
    simp only [List.length_cons] at *
    omega
  | case5 _ _ _ _ hi =>
    cases h
    exact item.shorter hi

def key : Reader (List String) where
  run s :=
    match separatedBy paddedPart '.' s with
    | some (parts, rest) => if parts.length ≤ depthLimit then some (parts, rest) else none
    | none => none
  shorter := by
    intro s a rest h
    split at h
    · rename_i hs
      split at h
      · cases h
        exact separatedBy_length hs
      · cases h
    · cases h

def scalar : Reader Item where
  run s :=
    let first := s.takeWhile fun c => !endsValue c
    let rest := s.drop first.length
    if first.isEmpty then none
    else
      match rest with
      | ' ' :: d :: more =>
        if d.isDigit && afterDate? first == some [] then
          let second := (d :: more).takeWhile fun c => !endsValue c
          if isTimeWithOffset second then some (.moment, (d :: more).drop second.length) else none
        else (scalar? first).map fun item => (item, rest)
      | _ => (scalar? first).map fun item => (item, rest)
  shorter := by
    intro s a rest h
    simp only at h
    split at h
    · cases h
    · rename_i hne
      have hlen : (s.takeWhile fun c => !endsValue c).length ≤ s.length :=
        (List.takeWhile_sublist _).length_le
      have hpos : 0 < (s.takeWhile fun c => !endsValue c).length := by
        cases hs : s.takeWhile fun c => !endsValue c with
        | nil => simp [hs] at hne
        | cons => simp
      have hdrop : (s.drop (s.takeWhile fun c => !endsValue c).length).length < s.length := by
        rw [List.length_drop]
        omega
      split at h
      · rename_i hr
        split at h
        · split at h
          · cases h
            rw [hr] at hdrop
            simp only [List.length_drop, List.length_cons] at *
            omega
          · cases h
        · obtain ⟨item, _, he⟩ := Option.map_eq_some_iff.mp h
          cases he
          rw [hr] at hdrop
          rw [hr]
          exact hdrop
      · obtain ⟨item, _, he⟩ := Option.map_eq_some_iff.mp h
        cases he
        exact hdrop

/-- The elements of an array and its end, with layout between them and perhaps a last comma. -/
def elementsFrom {α : Type} (item : Reader α) (s : List Char) : Option (List α × List Char) :=
  match skipLayout false s with
  | ']' :: rest => some ([], rest)
  | _ =>
    match _h : item.run (skipLayout false s) with
    | none => none
    | some (a, after) =>
      match _hs : skipLayout false after with
      | ']' :: rest => some ([a], rest)
      | ',' :: rest =>
        match elementsFrom item rest with
        | none => none
        | some (as, rest) => some (a :: as, rest)
      | _ => none
termination_by s.length
decreasing_by
  have := item.shorter _h
  have := skipLayout_length false s
  have hl := congrArg List.length _hs
  have := skipLayout_length false after
  simp only [List.length_cons] at hl
  omega

theorem elementsFrom_length {α : Type} {item : Reader α} {s rest : List Char} {as : List α}
    (h : elementsFrom item s = some (as, rest)) : rest.length < s.length := by
  fun_induction elementsFrom item s generalizing as rest with
  | case1 s _ he =>
    cases h
    have := skipLayout_length false s
    rw [he, List.length_cons] at this
    omega
  | case2 => cases h
  | case3 s _ after hi _ hs =>
    cases h
    have := item.shorter hi
    have := skipLayout_length false s
    have := skipLayout_length false after
    rw [hs, List.length_cons] at this
    omega
  | case4 => cases h
  | case5 s _ after hi _ hs _ _ he _ ih =>
    cases h
    have := ih he
    have := item.shorter hi
    have := skipLayout_length false s
    have := skipLayout_length false after
    rw [hs, List.length_cons] at this
    omega
  | case6 => cases h

/-- An array whose first bracket has been read. -/
def arrayItem (value : Reader Item) (s : List Char) : Option (Item × List Char) :=
  (elementsFrom value s).map fun p => (.array p.1, p.2)

def entry (value : Reader Item) : Reader (List String × Item) where
  run s :=
    match key.run s with
    | some (k, '=' :: rest) =>
      (value.run (skipBlanks rest)).map fun p => ((k, p.1), p.2)
    | _ => none
  shorter := by
    intro s a rest h
    split at h
    · rename_i hk
      obtain ⟨p, hp, he⟩ := Option.map_eq_some_iff.mp h
      cases he
      have := key.shorter hk
      have := value.shorter hp
      have := skipBlanks_length ‹List Char›
      simp only [List.length_cons] at *
      omega
    · cases h

def paddedEntry (value : Reader Item) : Reader (List String × Item) where
  run s := ((entry value).run s).map fun p => (p.1, skipBlanks p.2)
  shorter := by
    intro s a rest h
    obtain ⟨p, hp, he⟩ := Option.map_eq_some_iff.mp h
    cases he
    have := (entry value).shorter hp
    have := skipBlanks_length p.2
    omega

/-- Adds an entry under a key to a table that is not one of dotted keys. -/
def Entries.putEntry (es : Entries) (k : List String) (item : Item) : Option Entries :=
  match k.getLast? with
  | none => none
  | some last => Entries.put true k.dropLast last item es

def Entries.putAll (es : Entries) : List (List String × Item) → Option Entries
  | [] => some es
  | (k, item) :: rest => (es.putEntry k item).bind fun es => es.putAll rest

/-- A table between braces whose first brace has been read. -/
def bracesItem (value : Reader Item) (s : List Char) : Option (Item × List Char) :=
  match skipBlanks s with
  | '\x7d' :: rest => some (.table .braces [], rest)
  | _ =>
    match separatedBy (paddedEntry value) ',' s with
    | some (pairs, '\x7d' :: rest) =>
      (Entries.putAll [] pairs).map fun es => (.table .braces es, rest)
    | _ => none

theorem arrayItem_length {value : Reader Item} {s rest : List Char} {item : Item}
    (h : arrayItem value s = some (item, rest)) : rest.length < s.length := by
  obtain ⟨p, hp, he⟩ := Option.map_eq_some_iff.mp h
  cases he
  exact elementsFrom_length hp

theorem bracesItem_length {value : Reader Item} {s rest : List Char} {item : Item}
    (h : bracesItem value s = some (item, rest)) : rest.length < s.length := by
  unfold bracesItem at h
  split at h
  · rename_i hb
    cases h
    have := skipBlanks_length s
    rw [hb, List.length_cons] at this
    omega
  · split at h
    · rename_i hs
      obtain ⟨es, _, he⟩ := Option.map_eq_some_iff.mp h
      cases he
      have := separatedBy_length hs
      simp only [List.length_cons] at this
      omega
    · cases h

/-- A value with at most the given count of arrays and braces open at once. -/
def value : Nat → Reader Item
  | 0 =>
    { run := fun s =>
        match s with
        | '[' :: _ | '\x7b' :: _ => none
        | '"' :: _ | '\'' :: _ => (anyText.run s).map fun p => (.text p.1, p.2)
        | _ => scalar.run s
      shorter := by
        intro s a rest h
        split at h
        · cases h
        · cases h
        · obtain ⟨p, hp, he⟩ := Option.map_eq_some_iff.mp h
          cases he
          exact anyText.shorter hp
        · obtain ⟨p, hp, he⟩ := Option.map_eq_some_iff.mp h
          cases he
          exact anyText.shorter hp
        · exact scalar.shorter h }
  | depth + 1 =>
    { run := fun s =>
        match s with
        | '[' :: rest => arrayItem (value depth) rest
        | '\x7b' :: rest => bracesItem (value depth) rest
        | _ => (value 0).run s
      shorter := by
        intro s a rest h
        split at h
        · have := arrayItem_length h
          simp only [List.length_cons]
          omega
        · have := bracesItem_length h
          simp only [List.length_cons]
          omega
        · exact (value 0).shorter h }

/-- A document while it is read: its entries, and the way to the table that is open. -/
structure Draft where
  entries : Entries
  place : List String

/-- Opens the table of a header, or one more table of a repeated header. -/
def Draft.open (d : Draft) (repeated : Bool) (way : List String) : Option Draft :=
  match way.getLast? with
  | none => none
  | some last =>
    let change := if repeated then Entries.openElement last else Entries.openTable last
    (Entries.under change way.dropLast d.entries).map fun es => ⟨es, way⟩

def Draft.put (d : Draft) (k : List String) (item : Item) : Option Draft :=
  (Entries.under (fun es => es.putEntry k item) d.place d.entries).map fun es => ⟨es, d.place⟩

def header (repeated : Bool) (s : List Char) : Option (List String × List Char) :=
  match key.run s with
  | some (way, ']' :: rest) =>
    if repeated then
      match rest with
      | ']' :: rest => (lineEnd? rest).map fun rest => (way, rest)
      | _ => none
    else (lineEnd? rest).map fun rest => (way, rest)
  | _ => none

/-- One line of a document that is not blank. -/
def line (d : Draft) (s : List Char) : Option (Draft × List Char) :=
  match s with
  | '[' :: '[' :: rest =>
    match header true rest with
    | some (way, rest) => (d.open true way).map fun d => (d, rest)
    | none => none
  | '[' :: rest =>
    match header false rest with
    | some (way, rest) => (d.open false way).map fun d => (d, rest)
    | none => none
  | _ =>
    match (entry (value depthLimit)).run s with
    | some ((k, item), rest) =>
      match lineEnd? rest with
      | some rest => (d.put k item).map fun d => (d, rest)
      | none => none
    | none => none

theorem header_length {repeated : Bool} {s rest : List Char} {way : List String}
    (h : header repeated s = some (way, rest)) : rest.length < s.length := by
  unfold header at h
  split at h
  · rename_i hk
    have := key.shorter hk
    simp only [List.length_cons] at this
    split at h
    · split at h
      · obtain ⟨r, hr, he⟩ := Option.map_eq_some_iff.mp h
        cases he
        have := lineEnd?_length hr
        simp only [List.length_cons] at *
        omega
      · cases h
    · obtain ⟨r, hr, he⟩ := Option.map_eq_some_iff.mp h
      cases he
      have := lineEnd?_length hr
      omega
  · cases h

theorem line_length {d d' : Draft} {s rest : List Char} (h : line d s = some (d', rest)) :
    rest.length < s.length := by
  unfold line at h
  split at h
  · split at h
    · rename_i hh
      obtain ⟨r, hr, he⟩ := Option.map_eq_some_iff.mp h
      cases he
      have := header_length hh
      simp only [List.length_cons]
      omega
    · cases h
  · split at h
    · rename_i hh
      obtain ⟨r, hr, he⟩ := Option.map_eq_some_iff.mp h
      cases he
      have := header_length hh
      simp only [List.length_cons]
      omega
    · cases h
  · split at h
    · rename_i hv
      have := (entry (value depthLimit)).shorter hv
      split at h
      · rename_i hl
        obtain ⟨r, hr, he⟩ := Option.map_eq_some_iff.mp h
        cases he
        have := lineEnd?_length hl
        omega
      · cases h
    · cases h

def linesFrom (d : Draft) (s : List Char) : Option Draft :=
  match _hs : skipBlanks s with
  | [] => some d
  | c :: rest =>
    if c = '#' ∨ c = '\n' ∨ c = '\r' then
      match _he : lineEnd? (c :: rest) with
      | some rest => linesFrom d rest
      | none => none
    else
      match _hl : line d (c :: rest) with
      | some (d, rest) => linesFrom d rest
      | none => none
termination_by s.length
decreasing_by
  · have := skipBlanks_length s
    have := lineEnd?_shorter _he (by simp)
    rw [_hs] at *
    omega
  · have := skipBlanks_length s
    have := line_length _hl
    rw [_hs] at *
    omega

/-- The text without a byte order mark at its start. -/
def dropMark : List Char → List Char
  | '\uFEFF' :: rest => rest
  | s => s

/-- The entries of the document that a text denotes, if it is TOML. -/
def parse? (s : String) : Option Entries :=
  (linesFrom ⟨[], []⟩ (dropMark s.toList)).map Draft.entries

end PhotoArchive.Toml
