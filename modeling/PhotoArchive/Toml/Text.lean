import PhotoArchive.Text.Hex

/-!
# Strings of a TOML document

The four kinds of strings: between double quotes with escapes or between single quotes without, on
one line or on several between three quotes. On several lines a line break right behind the opening
quotes is dropped, every line break reads as one line feed, and up to two quotes may stand before
the closing three.
-/
namespace PhotoArchive.Toml

/-- A reader takes something from the start of a text, or finds that the text is not TOML. -/
structure Reader (α : Type) where
  run : List Char → Option (α × List Char)
  shorter : ∀ {s a rest}, run s = some (a, rest) → rest.length < s.length

def isPlain (c : Char) : Bool :=
  c == '\t' || (0x20 ≤ c.toNat && c.toNat != 0x7F)

def lineBreak? : List Char → Option (List Char)
  | '\n' :: rest => some rest
  | '\r' :: '\n' :: rest => some rest
  | _ => none

/-- The text without the spaces and tabs at its start. -/
def skipBlanks (s : List Char) : List Char :=
  s.dropWhile fun c => c == ' ' || c == '\t'

/-- The text without the spaces, tabs and line breaks at its start. -/
def skipBlankLines : List Char → List Char
  | [] => []
  | '\r' :: '\n' :: rest => skipBlankLines rest
  | c :: rest => if c = ' ' ∨ c = '\t' ∨ c = '\n' then skipBlankLines rest else c :: rest

/-- The value of hexadecimal digits of either case. -/
def hexNumber : Nat → List Char → Option Nat
  | value, [] => some value
  | value, c :: rest =>
    match Text.hexCharValue? c with
    | some d => hexNumber (value * 16 + d) rest
    | none => none

def codePoint (count : Nat) (s : List Char) : Option (Char × List Char) :=
  if (s.take count).length < count then none
  else
    match hexNumber 0 (s.take count) with
    | none => none
    | some n => if n.isValidChar then some (Char.ofNat n, s.drop count) else none

def shortEscape? (c : Char) : Option Char :=
  if c = 'b' then some '\x08'
  else if c = 't' then some '\t'
  else if c = 'n' then some '\n'
  else if c = 'f' then some '\x0c'
  else if c = 'r' then some '\r'
  else if c = '"' then some '"'
  else if c = '\\' then some '\\'
  else none

/-- The character of the escape whose backslash has been read, and the text behind it. -/
def readEscape : List Char → Option (Char × List Char)
  | [] => none
  | c :: rest =>
    match shortEscape? c with
    | some e => some (e, rest)
    | none =>
      if c = 'u' then codePoint 4 rest
      else if c = 'U' then codePoint 8 rest
      else none

theorem codePoint_length {count : Nat} {s rest : List Char} {c : Char}
    (h : codePoint count s = some (c, rest)) : rest.length ≤ s.length := by
  unfold codePoint at h
  split at h
  · cases h
  · split at h
    · cases h
    · split at h
      · simp only [Option.some.injEq, Prod.mk.injEq] at h
        simp only [← h.2, List.length_drop]
        omega
      · cases h

theorem readEscape_length {s rest : List Char} {c : Char} (h : readEscape s = some (c, rest)) :
    rest.length < s.length := by
  unfold readEscape at h
  split at h
  · cases h
  · simp only [List.length_cons]
    split at h
    · cases h
      omega
    · split at h
      · have := codePoint_length h
        omega
      · split at h
        · have := codePoint_length h
          omega
        · cases h

theorem lineBreak?_length {s rest : List Char} (h : lineBreak? s = some rest) :
    rest.length < s.length := by
  unfold lineBreak? at h
  split at h
  · cases h
    simp
  · cases h
    simp only [List.length_cons]
    omega
  · cases h

theorem skipBlanks_length (s : List Char) : (skipBlanks s).length ≤ s.length :=
  (List.dropWhile_sublist _).length_le

theorem skipBlankLines_length (s : List Char) : (skipBlankLines s).length ≤ s.length := by
  fun_induction skipBlankLines s with
  | case1 => exact Nat.le_refl _
  | case2 _ ih =>
    simp only [List.length_cons]
    omega
  | case3 _ _ _ _ ih =>
    simp only [List.length_cons]
    omega
  | case4 => exact Nat.le_refl _

/-- The rest of a string on one line between double quotes; its characters so far are given in
reverse order. -/
def basicFrom (before : List Char) (s : List Char) : Option (String × List Char) :=
  match s with
  | [] => none
  | c :: rest =>
    if c = '"' then some (String.ofList before.reverse, rest)
    else if c = '\\' then
      match _h : readEscape rest with
      | none => none
      | some (e, rest) => basicFrom (e :: before) rest
    else if isPlain c then basicFrom (c :: before) rest
    else none
termination_by s.length
decreasing_by
  · have := readEscape_length _h
    simp only [List.length_cons]
    omega
  · simp

theorem basicFrom_length {before s rest : List Char} {t : String}
    (h : basicFrom before s = some (t, rest)) : rest.length < s.length := by
  fun_induction basicFrom before s with
  | case1 => cases h
  | case2 => cases h; simp
  | case3 => cases h
  | case4 _ _ _ _ he _ ih =>
    have := ih h
    have := readEscape_length he
    simp only [List.length_cons]
    omega
  | case5 _ _ _ _ _ _ ih =>
    have := ih h
    simp only [List.length_cons]
    omega
  | case6 => cases h

def literalFrom (before : List Char) : List Char → Option (String × List Char)
  | [] => none
  | c :: rest =>
    if c = '\'' then some (String.ofList before.reverse, rest)
    else if isPlain c then literalFrom (c :: before) rest
    else none

theorem literalFrom_length {before s rest : List Char} {t : String}
    (h : literalFrom before s = some (t, rest)) : rest.length < s.length := by
  fun_induction literalFrom before s with
  | case1 => cases h
  | case2 => cases h; simp
  | case3 _ _ _ _ _ ih =>
    have := ih h
    simp only [List.length_cons]
    omega
  | case4 => cases h

/-- The end of a string on several lines: its first three closing quotes have been read, and up to
two more belong to it. -/
def closingQuotes (quote : Char) (before : List Char) : List Char → String × List Char
  | a :: b :: rest =>
    if a = quote ∧ b = quote then (String.ofList (quote :: quote :: before).reverse, rest)
    else if a = quote then (String.ofList (quote :: before).reverse, b :: rest)
    else (String.ofList before.reverse, a :: b :: rest)
  | [a] =>
    if a = quote then (String.ofList (quote :: before).reverse, [])
    else (String.ofList before.reverse, [a])
  | [] => (String.ofList before.reverse, [])

theorem closingQuotes_length (quote : Char) (before s : List Char) :
    (closingQuotes quote before s).2.length ≤ s.length := by
  fun_cases closingQuotes quote before s <;> simp only [List.length_cons, List.length_nil] <;> omega

/-- Whether a text starts with a quote three times. -/
def startsTriple (quote : Char) : List Char → Bool
  | a :: b :: c :: _ => a == quote && b == quote && c == quote
  | _ => false

/-- The text behind a backslash at the end of a line: the line break and all blanks after it. -/
def joinedLine? (s : List Char) : Option (List Char) :=
  (lineBreak? (skipBlanks s)).map skipBlankLines

theorem joinedLine?_length {s rest : List Char} (h : joinedLine? s = some rest) :
    rest.length < s.length := by
  unfold joinedLine? at h
  obtain ⟨t, ht, rfl⟩ := Option.map_eq_some_iff.mp h
  have := lineBreak?_length ht
  have := skipBlanks_length s
  have := skipBlankLines_length t
  omega

/-- The rest of a string on several lines, with escapes or without. -/
def multilineFrom (quote : Char) (escapes : Bool) (before : List Char) (s : List Char) :
    Option (String × List Char) :=
  if startsTriple quote s then some (closingQuotes quote before (s.drop 3))
  else
    match s with
    | [] => none
    | c :: rest =>
      if c = '\\' ∧ escapes then
        match _hj : joinedLine? rest with
        | some rest => multilineFrom quote escapes before rest
        | none =>
          match _he : readEscape rest with
          | none => none
          | some (e, rest) => multilineFrom quote escapes (e :: before) rest
      else
        match _hl : lineBreak? (c :: rest) with
        | some rest => multilineFrom quote escapes ('\n' :: before) rest
        | none => if isPlain c then multilineFrom quote escapes (c :: before) rest else none
termination_by s.length
decreasing_by
  · have := joinedLine?_length _hj
    simp only [List.length_cons]
    omega
  · have := readEscape_length _he
    simp only [List.length_cons]
    omega
  · have := lineBreak?_length _hl
    simpa only [List.length_cons] using this
  · simp

theorem multilineFrom_length {quote : Char} {escapes : Bool} {before s rest : List Char}
    {t : String} (h : multilineFrom quote escapes before s = some (t, rest)) :
    rest.length ≤ s.length := by
  fun_induction multilineFrom quote escapes before s with
  | case1 before s =>
    have := closingQuotes_length quote before (s.drop 3)
    simp only [Option.some.injEq] at h
    rw [h] at this
    simp only [List.length_drop] at this
    omega
  | case2 => cases h
  | case3 _ _ _ _ _ hj _ ih =>
    have := ih h
    have := joinedLine?_length hj
    simp only [List.length_cons]
    omega
  | case4 => cases h
  | case5 _ _ _ _ _ _ _ he _ ih =>
    have := ih h
    have := readEscape_length he
    simp only [List.length_cons]
    omega
  | case6 _ _ _ _ _ hl _ ih =>
    have := ih h
    have := lineBreak?_length hl
    omega
  | case7 _ _ _ _ _ _ _ ih =>
    have := ih h
    simp only [List.length_cons]
    omega
  | case8 => cases h

def dropLineBreak (s : List Char) : List Char :=
  (lineBreak? s).getD s

theorem dropLineBreak_length (s : List Char) : (dropLineBreak s).length ≤ s.length := by
  unfold dropLineBreak
  cases h : lineBreak? s with
  | none => simp
  | some rest =>
    have := lineBreak?_length h
    simp only [Option.getD_some]
    omega

def lineText : Reader String where
  run s :=
    match s with
    | '"' :: rest => basicFrom [] rest
    | '\'' :: rest => literalFrom [] rest
    | _ => none
  shorter := by
    intro s a rest h
    split at h
    · have := basicFrom_length h
      simp only [List.length_cons]
      omega
    · have := literalFrom_length h
      simp only [List.length_cons]
      omega
    · cases h

def anyText : Reader String where
  run s :=
    if startsTriple '"' s then multilineFrom '"' true [] (dropLineBreak (s.drop 3))
    else if startsTriple '\'' s then multilineFrom '\'' false [] (dropLineBreak (s.drop 3))
    else lineText.run s
  shorter := by
    intro s a rest h
    have key : ∀ {quote : Char} {escapes : Bool}, startsTriple quote s = true →
        multilineFrom quote escapes [] (dropLineBreak (s.drop 3)) = some (a, rest) →
        rest.length < s.length := by
      intro quote escapes ht hm
      have := multilineFrom_length hm
      have := dropLineBreak_length (s.drop 3)
      simp only [List.length_drop] at this
      match s, ht with
      | _ :: _ :: _ :: _, _ =>
        simp only [List.length_cons] at *
        omega
    split at h
    · rename_i ht
      exact key ht h
    · split at h
      · rename_i ht
        exact key ht h
      · exact lineText.shorter h

end PhotoArchive.Toml
