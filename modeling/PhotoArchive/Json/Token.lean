import PhotoArchive.Json.Numeral
import PhotoArchive.Json.Value
import PhotoArchive.Mismatch
import PhotoArchive.Text.Hex

/-!
# Tokens of JSON text

JSON text is cut into tokens from left to right, blanks between them dropped. The value of a string
or a numeral is worked out only when a reader asks for it: a reader that skips a value takes its
extent and does not mind what it denotes. So a string token says whether it is Unicode text, and a
numeral token whether it is a number that double precision holds. A token that is not well-formed
ends the list, with the fault that a reader and the fault that a skipping reader find there.
-/
namespace PhotoArchive.Json

inductive Fault where
  | endOfInput
  | notJson
  | mismatch (cause : Mismatch)
  deriving DecidableEq, Repr

/-- A token of JSON text. A string can be no Unicode text, and a number can be beyond double
precision. What starts like a token and is none carries the fault for a reader and the one for a
reader that skips; a character that starts no token is stray. -/
inductive Token where
  | openBracket
  | closeBracket
  | openBrace
  | closeBrace
  | comma
  | colon
  | null
  | boolean (b : Bool)
  | text (s : Except Fault String)
  | number (n : Option Number)
  | broken (reading skipping : Fault)
  | brokenText (reading skipping : Fault)
  | stray

/-- The characters that may stand between tokens. -/
def isSpace (c : Char) : Bool :=
  c == ' ' || c == '\n' || c == '\t' || c == '\r'

/-- The fault of text that ends or goes on without what has to come next. -/
def faultAt : List Char → Fault
  | [] => .endOfInput
  | _ => .notJson

/-- The four digits of a code unit, and the text behind them. Fewer than four bytes of text are the
end of the input, whatever they are. -/
def codeUnit (s : List Char) : Except Fault (Nat × List Char) :=
  if (s.take 4).foldl (fun n c => n + c.utf8Size) 0 < 4 then .error .endOfInput
  else
    match s with
    | a :: b :: c :: d :: rest =>
      match Text.hexCharValue? a, Text.hexCharValue? b, Text.hexCharValue? c,
        Text.hexCharValue? d with
      | some a, some b, some c, some d => .ok (((a * 16 + b) * 16 + c) * 16 + d, rest)
      | _, _, _, _ => .error .notJson
    | _ => .error .notJson

def surrogatePair (high low : Nat) : Char :=
  Char.ofNat (0x10000 + (high - 0xD800) * 0x400 + (low - 0xDC00))

/-- The second of two surrogates, and the text behind it. -/
def lowSurrogate (s : List Char) : Except Fault (Nat × List Char) :=
  match s with
  | '\\' :: 'u' :: rest =>
    match codeUnit rest with
    | .error f => .error f
    | .ok (low, rest) =>
      if 0xDC00 ≤ low ∧ low ≤ 0xDFFF then .ok (low, rest) else .error .notJson
  | '\\' :: rest => .error (faultAt rest)
  | _ => .error (faultAt s)

def shortEscape? (c : Char) : Option Char :=
  if c = '"' then some '"'
  else if c = '\\' then some '\\'
  else if c = '/' then some '/'
  else if c = 'b' then some '\x08'
  else if c = 'f' then some '\x0c'
  else if c = 'n' then some '\n'
  else if c = 'r' then some '\r'
  else if c = 't' then some '\t'
  else none

/-- The character of the escape whose backslash has been read, and the text behind it. -/
def readEscape : List Char → Except Fault (Char × List Char)
  | [] => .error .endOfInput
  | c :: rest =>
    if c = 'u' then
      match codeUnit rest with
      | .error f => .error f
      | .ok (unit, rest) =>
        if 0xDC00 ≤ unit ∧ unit ≤ 0xDFFF then .error .notJson
        else if 0xD800 ≤ unit ∧ unit ≤ 0xDBFF then
          match lowSurrogate rest with
          | .error f => .error f
          | .ok (low, rest) => .ok (surrogatePair unit low, rest)
        else .ok (Char.ofNat unit, rest)
    else
      match shortEscape? c with
      | some e => .ok (e, rest)
      | none => .error .notJson

theorem codeUnit_length {s rest : List Char} {n : Nat} (h : codeUnit s = .ok (n, rest)) :
    rest.length < s.length := by
  unfold codeUnit at h
  split at h
  · cases h
  · split at h
    · split at h
      · cases h
        simp only [List.length_cons]
        omega
      · cases h
    · cases h

theorem lowSurrogate_length {s rest : List Char} {n : Nat} (h : lowSurrogate s = .ok (n, rest)) :
    rest.length < s.length := by
  unfold lowSurrogate at h
  split at h
  · split at h
    · cases h
    · rename_i hu
      split at h
      · cases h
        have := codeUnit_length hu
        simp only [List.length_cons]
        omega
      · cases h
  · cases h
  · cases h

theorem readEscape_length {s rest : List Char} {c : Char} (h : readEscape s = .ok (c, rest)) :
    rest.length < s.length := by
  unfold readEscape at h
  split at h
  · cases h
  · split at h
    · split at h
      · cases h
      · rename_i hu
        have := codeUnit_length hu
        split at h
        · cases h
        · split at h
          · split at h
            · cases h
            · rename_i hl
              have := lowSurrogate_length hl
              simp only [Except.ok.injEq, Prod.mk.injEq] at h
              simp only [List.length_cons, ← h.2]
              omega
          · simp only [Except.ok.injEq, Prod.mk.injEq] at h
            simp only [List.length_cons, ← h.2]
            omega
    · split at h
      · cases h
        simp
      · cases h

/-- The rest of a string whose characters so far are given in reverse order, and the text behind
its closing quote. -/
def readText (before : List Char) (s : List Char) : Except Fault (String × List Char) :=
  match s with
  | [] => .error .endOfInput
  | c :: rest =>
    if c = '"' then .ok (String.ofList before.reverse, rest)
    else if c = '\\' then
      match _h : readEscape rest with
      | .error f => .error f
      | .ok (e, rest) => readText (e :: before) rest
    else if c.toNat < 0x20 then .error .notJson
    else readText (c :: before) rest
termination_by s.length
decreasing_by
  · have := readEscape_length _h
    simp only [List.length_cons]
    omega
  · simp

/-- The text behind the escape whose backslash has been read, its code unit of any value. -/
def skipEscape : List Char → Except Fault (List Char)
  | [] => .error .endOfInput
  | c :: rest =>
    if c = 'u' then
      match codeUnit rest with
      | .error f => .error f
      | .ok (_, rest) => .ok rest
    else
      match shortEscape? c with
      | some _ => .ok rest
      | none => .error .notJson

theorem skipEscape_length {s rest : List Char} (h : skipEscape s = .ok rest) :
    rest.length < s.length := by
  unfold skipEscape at h
  split at h
  · cases h
  · split at h
    · split at h
      · cases h
      · rename_i hu
        have := codeUnit_length hu
        cases h
        simp only [List.length_cons]
        omega
    · split at h
      · cases h
        simp
      · cases h

def skipText (s : List Char) : Except Fault (List Char) :=
  match s with
  | [] => .error .endOfInput
  | c :: rest =>
    if c = '"' then .ok rest
    else if c = '\\' then
      match _h : skipEscape rest with
      | .error f => .error f
      | .ok rest => skipText rest
    else if c.toNat < 0x20 then .error .notJson
    else skipText rest
termination_by s.length
decreasing_by
  · have := skipEscape_length _h
    simp only [List.length_cons]
    omega
  · simp

theorem skipText_length {s rest : List Char} (h : skipText s = .ok rest) :
    rest.length < s.length := by
  fun_induction skipText s with
  | case1 => cases h
  | case2 => cases h; simp
  | case3 => cases h
  | case4 _ _ he _ ih =>
    have := ih h
    have := skipEscape_length he
    simp only [List.length_cons]
    omega
  | case5 => cases h
  | case6 _ _ _ _ _ ih =>
    have := ih h
    simp only [List.length_cons]
    omega

/-- The digits at the start of the text, of which there has to be one, and the text behind them. -/
def digits (s : List Char) : Except Fault (List Char × List Char) :=
  match s.takeWhile Char.isDigit with
  | [] => .error (faultAt s)
  | ds => .ok (ds, s.dropWhile Char.isDigit)

/-- The digits before the point: no others follow a zero. -/
def wholeDigits (s : List Char) : Except Fault (List Char × List Char) :=
  match s with
  | '0' :: rest => if rest.head?.any Char.isDigit then .error .notJson else .ok (['0'], rest)
  | _ => digits s

/-- The digits of a fraction, if a point comes next. -/
def fractionDigits (s : List Char) : Except Fault (List Char × List Char) :=
  match s with
  | '.' :: rest => digits rest
  | _ => .ok ([], s)

/-- The sign of an exponent and the text behind it. -/
def exponentSign : List Char → Bool × List Char
  | '-' :: rest => (true, rest)
  | '+' :: rest => (false, rest)
  | s => (false, s)

/-- The sign and the digits of an exponent, if one comes next. -/
def exponentDigits (s : List Char) : Except Fault (Option (Bool × List Char) × List Char) :=
  match s with
  | c :: rest =>
    if c = 'e' ∨ c = 'E' then
      match digits (exponentSign rest).2 with
      | .error f => .error f
      | .ok (ds, after) => .ok (some ((exponentSign rest).1, ds), after)
    else .ok (none, s)
  | [] => .ok (none, [])

/-- The numeral at the start of the text, its sign already read, and the text behind it. -/
def readNumeral (negative : Bool) (s : List Char) : Except Fault (Numeral × List Char) :=
  match wholeDigits s with
  | .error f => .error f
  | .ok (whole, s) =>
    match fractionDigits s with
    | .error f => .error f
    | .ok (fraction, s) =>
      match exponentDigits s with
      | .error f => .error f
      | .ok (exponent, s) => .ok (⟨negative, whole, fraction, exponent⟩, s)

theorem dropWhile_length_le {α : Type} (p : α → Bool) (s : List α) :
    (s.dropWhile p).length ≤ s.length :=
  (List.dropWhile_sublist p).length_le

theorem digits_length {s ds rest : List Char} (h : digits s = .ok (ds, rest)) :
    rest.length < s.length := by
  unfold digits at h
  split at h
  · cases h
  · rename_i hne
    cases h
    cases s with
    | nil => simp at hne
    | cons c t =>
      by_cases hc : c.isDigit
      · have := dropWhile_length_le Char.isDigit t
        simp only [List.dropWhile_cons, hc, if_true, List.length_cons]
        omega
      · simp [hc] at hne

theorem wholeDigits_length {s ds rest : List Char} (h : wholeDigits s = .ok (ds, rest)) :
    rest.length < s.length := by
  unfold wholeDigits at h
  split at h
  · split at h
    · cases h
    · cases h
      simp
  · exact digits_length h

theorem fractionDigits_length {s ds rest : List Char} (h : fractionDigits s = .ok (ds, rest)) :
    rest.length ≤ s.length := by
  unfold fractionDigits at h
  split at h
  · have := digits_length h
    simp only [List.length_cons]
    omega
  · cases h
    exact Nat.le_refl _

theorem exponentSign_length (s : List Char) : (exponentSign s).2.length ≤ s.length := by
  unfold exponentSign
  split <;> simp

theorem exponentDigits_length {s rest : List Char} {e : Option (Bool × List Char)}
    (h : exponentDigits s = .ok (e, rest)) : rest.length ≤ s.length := by
  unfold exponentDigits at h
  split at h
  · rename_i c t
    split at h
    · split at h
      · cases h
      · rename_i hd
        cases h
        have := digits_length hd
        have := exponentSign_length t
        simp only [List.length_cons]
        omega
    · cases h
      exact Nat.le_refl _
  · cases h
    exact Nat.le_refl _

theorem readNumeral_length {negative : Bool} {s rest : List Char} {n : Numeral}
    (h : readNumeral negative s = .ok (n, rest)) : rest.length < s.length := by
  unfold readNumeral at h
  split at h
  · cases h
  · rename_i hw
    split at h
    · cases h
    · rename_i hf
      split at h
      · cases h
      · rename_i he
        cases h
        have := wholeDigits_length hw
        have := fractionDigits_length hf
        have := exponentDigits_length he
        omega

/-- The text behind a word, its first letter already read. A text that ends within the word is the
end of the input. -/
def afterWord : List Char → List Char → Except Fault (List Char)
  | [], s => .ok s
  | _ :: _, [] => .error .endOfInput
  | w :: ws, c :: rest => if w = c then afterWord ws rest else .error .notJson

theorem afterWord_length {w s rest : List Char} (h : afterWord w s = .ok rest) :
    rest.length ≤ s.length := by
  fun_induction afterWord w s with
  | case1 => cases h; exact Nat.le_refl _
  | case2 => cases h
  | case3 _ _ _ ih =>
    have := ih h
    simp only [List.length_cons]
    omega
  | case4 => cases h

def punctuation? (c : Char) : Option Token :=
  if c = '[' then some .openBracket
  else if c = ']' then some .closeBracket
  else if c = '\x7b' then some .openBrace
  else if c = '\x7d' then some .closeBrace
  else if c = ',' then some .comma
  else if c = ':' then some .colon
  else none

/-- The words of JSON by their first letter: the other letters, and the token. -/
def word? (c : Char) : Option (List Char × Token) :=
  if c = 'n' then some (['u', 'l', 'l'], .null)
  else if c = 't' then some (['r', 'u', 'e'], .boolean true)
  else if c = 'f' then some (['a', 'l', 's', 'e'], .boolean false)
  else none

def tokens (s : List Char) : List Token :=
  match s with
  | [] => []
  | c :: rest =>
    if isSpace c then tokens rest
    else
      match punctuation? c with
      | some t => t :: tokens rest
      | none =>
        if c = '"' then
          match _h : skipText rest with
          | .ok after => .text ((readText [] rest).map Prod.fst) :: tokens after
          | .error skipping =>
            match readText [] rest with
            | .error reading => [.brokenText reading skipping]
            | .ok _ => [.brokenText skipping skipping]
        else if c = '-' then
          match _h : readNumeral true rest with
          | .ok (n, after) => .number n.value? :: tokens after
          | .error reading => [.broken reading .notJson]
        else if c.isDigit then
          match _h : readNumeral false (c :: rest) with
          | .ok (n, after) => .number n.value? :: tokens after
          | .error reading => [.broken reading .notJson]
        else
          match word? c with
          | some (letters, t) =>
            match _h : afterWord letters rest with
            | .ok after => t :: tokens after
            | .error f => [.broken f f]
          | none => [.stray]
termination_by s.length
decreasing_by
  · simp
  · simp
  · have := skipText_length _h
    simp only [List.length_cons]
    omega
  · have := readNumeral_length _h
    simp only [List.length_cons]
    omega
  · have := readNumeral_length _h
    simpa only [List.length_cons] using this
  · have := afterWord_length _h
    simp only [List.length_cons]
    omega

end PhotoArchive.Json
