import PhotoArchive.Json.Token

/-!
# Reading JSON values from tokens

The reading of values of a wanted shape, as `from_str` does it (`deserialize`). A reader takes the
tokens of one value from the front of a list. The first thing that is wrong, from left to right,
decides the fault: a value of the wrong kind is refused at its first token, a member that is named
twice at its second name, and members that are missing after the whole object.

Every reader uses up at least one token. The proof of this is part of a reader, so loops over
elements and members end.
-/
namespace PhotoArchive.Json

structure Reader (α : Type) where
  run : List Token → Except Fault (α × List Token)
  shorter : ∀ {ts a rest}, run ts = .ok (a, rest) → rest.length < ts.length

/-- The fault of a value that starts with a token where something else is wanted. -/
def Token.unexpected (expected : Expected) : Token → Fault
  | .openBracket => .mismatch (.wrongKind .sequence expected)
  | .openBrace => .mismatch (.wrongKind .map expected)
  | .null => .mismatch (.wrongKind .null expected)
  | .boolean b => .mismatch (.wrongKind (.boolean b) expected)
  | .text (.ok s) => .mismatch (.wrongKind (.text s) expected)
  | .text (.error f) => f
  | .number (some (.integer n)) => .mismatch (.wrongKind (.integer n) expected)
  | .number (some (.float x)) => .mismatch (.wrongKind (.float x) expected)
  | .number none => .notJson
  | .broken reading _ => reading
  | .brokenText reading _ => reading
  | _ => .notJson

/-- The fault of tokens that start no value of the wanted kind. -/
def unexpected (expected : Expected) : List Token → Fault
  | [] => .endOfInput
  | t :: _ => t.unexpected expected

namespace Reader

/-- Reads one token whose value is worked out from it alone. -/
def ofToken {α : Type} (read : Token → Except Fault α) : Reader α where
  run ts :=
    match ts with
    | [] => .error .endOfInput
    | t :: rest =>
      match read t with
      | .ok a => .ok (a, rest)
      | .error f => .error f
  shorter := by
    intro ts a rest h
    split at h
    · cases h
    · split at h
      · cases h
        simp
      · cases h

def map {α β : Type} (f : α → β) (r : Reader α) : Reader β where
  run ts :=
    match r.run ts with
    | .ok (a, rest) => .ok (f a, rest)
    | .error e => .error e
  shorter := by
    intro ts b rest h
    split at h
    · rename_i hr
      cases h
      exact r.shorter hr
    · cases h

def text : Reader String :=
  ofToken fun t =>
    match t with
    | .text s => s
    | t => .error (t.unexpected .text)

def boolean : Reader Bool :=
  ofToken fun t =>
    match t with
    | .boolean b => .ok b
    | t => .error (t.unexpected .boolean)

def below (bound : Nat) (expected : Expected) : Reader Nat :=
  ofToken fun t =>
    match t with
    | .number (some (.integer n)) =>
      if 0 ≤ n ∧ n < bound then .ok n.toNat else .error (.mismatch (.outOfRange n expected))
    | t => .error (t.unexpected expected)

def byte : Reader UInt8 :=
  (below 256 .byte).map Nat.toUInt8

def word : Reader UInt64 :=
  (below PhotoArchive.Number.wordCount .word).map Nat.toUInt64

/-- A value, or the word for none. -/
def optional {α : Type} (r : Reader α) : Reader (Option α) where
  run ts :=
    match ts with
    | .null :: rest => .ok (none, rest)
    | ts =>
      match r.run ts with
      | .ok (a, rest) => .ok (some a, rest)
      | .error f => .error f
  shorter := by
    intro ts a rest h
    split at h
    · cases h
      simp
    · split at h
      · rename_i hr
        cases h
        exact r.shorter hr
      · cases h

end Reader

inductive Container where
  | array
  | object
  deriving DecidableEq, Repr

inductive Place where
  | value
  | element
  | member
  | name
  | colon
  | after
  deriving DecidableEq, Repr

/-- What comes after a token that starts a value, inside the given containers. -/
def skipStart (nesting : List Container) : Token → Except Fault (Place × List Container)
  | .openBracket => .ok (.element, .array :: nesting)
  | .openBrace => .ok (.member, .object :: nesting)
  | .null | .boolean _ | .text _ | .number _ => .ok (.after, nesting)
  | .broken _ skipping | .brokenText _ skipping => .error skipping
  | _ => .error .notJson

/-- What comes after a token that has to be a name. -/
def skipName (nesting : List Container) : Token → Except Fault (Place × List Container)
  | .text _ => .ok (.colon, nesting)
  | .brokenText _ skipping => .error skipping
  | _ => .error .notJson

/-- What comes after a token at a place. -/
def skipStep : Place → List Container → Token → Except Fault (Place × List Container)
  | .value, nesting, t => skipStart nesting t
  | .element, _ :: outer, .closeBracket => .ok (.after, outer)
  | .element, nesting, t => skipStart nesting t
  | .member, _ :: outer, .closeBrace => .ok (.after, outer)
  | .member, nesting, t => skipName nesting t
  | .name, nesting, t => skipName nesting t
  | .colon, nesting, .colon => .ok (.value, nesting)
  | .after, .array :: outer, .comma => .ok (.value, .array :: outer)
  | .after, .array :: outer, .closeBracket => .ok (.after, outer)
  | .after, .object :: outer, .comma => .ok (.name, .object :: outer)
  | .after, .object :: outer, .closeBrace => .ok (.after, outer)
  | _, _, _ => .error .notJson

/-- Skips the tokens up to the end of the outermost value. -/
def skipFrom (place : Place) (nesting : List Container) (ts : List Token) :
    Except Fault (List Token) :=
  if place = .after ∧ nesting = [] then .ok ts
  else
    match ts with
    | [] => .error .endOfInput
    | t :: rest =>
      match skipStep place nesting t with
      | .ok (place, nesting) => skipFrom place nesting rest
      | .error f => .error f

theorem skipFrom_length_le {place : Place} {nesting : List Container} {ts rest : List Token}
    (h : skipFrom place nesting ts = .ok rest) : rest.length ≤ ts.length := by
  induction ts generalizing place nesting with
  | nil =>
    unfold skipFrom at h
    split at h
    · cases h
      exact Nat.le_refl _
    · cases h
  | cons t ts ih =>
    unfold skipFrom at h
    split at h
    · cases h
      exact Nat.le_refl _
    · simp only at h
      split at h
      · have := ih h
        simp only [List.length_cons]
        omega
      · cases h

namespace Reader

def skip : Reader Unit where
  run ts :=
    match skipFrom .value [] ts with
    | .ok rest => .ok ((), rest)
    | .error f => .error f
  shorter := by
    intro ts a rest h
    split at h
    · rename_i hs
      cases h
      unfold skipFrom at hs
      split at hs
      · rename_i hp
        cases hp.1
      · cases ts with
        | nil => cases hs
        | cons t ts =>
          simp only at hs
          split at hs
          · have := skipFrom_length_le hs
            simp only [List.length_cons]
            omega
          · cases hs
    · cases h

end Reader

/-- Whether another element comes next, and the tokens from it on. The end of the array stays. -/
def nextElement (first : Bool) (ts : List Token) : Except Fault (Bool × List Token) :=
  match ts with
  | [] => .error .endOfInput
  | .closeBracket :: _ => .ok (false, ts)
  | t :: rest =>
    if first then .ok (true, ts)
    else
      match t, rest with
      | .comma, [] => .error .endOfInput
      | .comma, .closeBracket :: _ => .error .notJson
      | .comma, _ => .ok (true, rest)
      | _, _ => .error .notJson

def endArray : List Token → Except Fault (List Token)
  | [] => .error .endOfInput
  | .closeBracket :: rest => .ok rest
  | _ => .error .notJson

def memberName : List Token → Except Fault (String × List Token)
  | [] => .error .endOfInput
  | .text (.ok name) :: rest => .ok (name, rest)
  | .text (.error f) :: _ => .error f
  | .brokenText reading _ :: _ => .error reading
  | _ => .error .notJson

/-- The name of the next member and the tokens behind it, or no name at the end of the object. -/
def nextName (first : Bool) (ts : List Token) : Except Fault (Option String × List Token) :=
  match ts with
  | [] => .error .endOfInput
  | .closeBrace :: rest => .ok (none, rest)
  | t :: rest =>
    if first then (memberName ts).map fun p => (some p.1, p.2)
    else
      match t with
      | .comma => (memberName rest).map fun p => (some p.1, p.2)
      | _ => .error .notJson

def afterColon : List Token → Except Fault (List Token)
  | [] => .error .endOfInput
  | .colon :: rest => .ok rest
  | _ => .error .notJson

theorem nextElement_length_le {first more : Bool} {ts rest : List Token}
    (h : nextElement first ts = .ok (more, rest)) : rest.length ≤ ts.length := by
  unfold nextElement at h
  split at h
  · cases h
  · cases h
    exact Nat.le_refl _
  · split at h
    · cases h
      exact Nat.le_refl _
    · split at h
      · cases h
      · cases h
      · cases h
        simp
      · cases h

theorem endArray_length {ts rest : List Token} (h : endArray ts = .ok rest) :
    rest.length < ts.length := by
  unfold endArray at h
  split at h
  · cases h
  · cases h
    simp
  · cases h

theorem memberName_length {ts rest : List Token} {name : String}
    (h : memberName ts = .ok (name, rest)) : rest.length < ts.length := by
  unfold memberName at h
  split at h
  · cases h
  · cases h
    simp
  · cases h
  · cases h
  · cases h

theorem nextName_length {first : Bool} {ts rest : List Token} {name : Option String}
    (h : nextName first ts = .ok (name, rest)) : rest.length < ts.length := by
  unfold nextName at h
  split at h
  · cases h
  · cases h
    simp
  · rename_i t rest' _
    split at h
    · cases hm : memberName (t :: rest') with
      | error f => simp [hm, Except.map] at h
      | ok p =>
        simp only [hm, Except.map, Except.ok.injEq, Prod.mk.injEq] at h
        rw [← h.2]
        exact memberName_length hm
    · split at h
      · cases hm : memberName rest' with
        | error f => simp [hm, Except.map] at h
        | ok p =>
          simp only [hm, Except.map, Except.ok.injEq, Prod.mk.injEq] at h
          rw [← h.2]
          have := memberName_length hm
          simp only [List.length_cons]
          omega
      · cases h

theorem afterColon_length {ts rest : List Token} (h : afterColon ts = .ok rest) :
    rest.length < ts.length := by
  unfold afterColon at h
  split at h
  · cases h
  · cases h
    simp
  · cases h

/-- The elements of an array of any length, up to its end, which stays. -/
def elementsFrom {α : Type} (r : Reader α) (first : Bool) (ts : List Token) :
    Except Fault (List α × List Token) :=
  match _hn : nextElement first ts with
  | .error f => .error f
  | .ok (false, ts) => .ok ([], ts)
  | .ok (true, ts) =>
    match _hr : r.run ts with
    | .error f => .error f
    | .ok (a, ts) =>
      match elementsFrom r false ts with
      | .error f => .error f
      | .ok (as, ts) => .ok (a :: as, ts)
termination_by ts.length
decreasing_by
  have := nextElement_length_le _hn
  have := r.shorter _hr
  omega

/-- Exactly the given number of elements, after so many others. -/
def exactly {α : Type} (r : Reader α) (expected : Expected) :
    Nat → Nat → List Token → Except Fault (List α × List Token)
  | _, 0, ts => .ok ([], ts)
  | before, count + 1, ts =>
    match nextElement (before == 0) ts with
    | .error f => .error f
    | .ok (false, _) => .error (.mismatch (.tooFew before expected))
    | .ok (true, ts) =>
      match r.run ts with
      | .error f => .error f
      | .ok (a, ts) =>
        match exactly r expected (before + 1) count ts with
        | .error f => .error f
        | .ok (as, ts) => .ok (a :: as, ts)

/-- How the members of an object change a state. A name is refused before its value is read. -/
abbrev Members (σ : Type) := σ → String → Except Mismatch (Reader σ)

def membersFrom {σ : Type} (member : Members σ) (first : Bool) (s : σ) (ts : List Token) :
    Except Fault (σ × List Token) :=
  match _hn : nextName first ts with
  | .error f => .error f
  | .ok (none, ts) => .ok (s, ts)
  | .ok (some name, ts) =>
    match member s name with
    | .error m => .error (.mismatch m)
    | .ok r =>
      match _hc : afterColon ts with
      | .error f => .error f
      | .ok ts =>
        match _hr : r.run ts with
        | .error f => .error f
        | .ok (s, ts) => membersFrom member false s ts
termination_by ts.length
decreasing_by
  have := nextName_length _hn
  have := afterColon_length _hc
  have := r.shorter _hr
  omega

theorem elementsFrom_length_le {α : Type} {r : Reader α} {first : Bool} {ts rest : List Token}
    {as : List α} (h : elementsFrom r first ts = .ok (as, rest)) : rest.length ≤ ts.length := by
  fun_induction elementsFrom r first ts generalizing as rest with
  | case1 => cases h
  | case2 _ _ _ hn =>
    cases h
    exact nextElement_length_le hn
  | case3 => cases h
  | case4 => cases h
  | case5 _ _ _ hn _ _ hr _ _ ha ih =>
    cases h
    have := nextElement_length_le hn
    have := r.shorter hr
    have := ih ha
    omega

theorem exactly_count {α : Type} {r : Reader α} {expected : Expected} {before count : Nat}
    {ts rest : List Token} {as : List α} (h : exactly r expected before count ts = .ok (as, rest)) :
    as.length = count := by
  fun_induction exactly r expected before count ts generalizing as rest with
  | case1 => cases h; rfl
  | case2 => cases h
  | case3 => cases h
  | case4 => cases h
  | case5 => cases h
  | case6 _ _ _ _ _ _ _ _ _ _ ha ih =>
    cases h
    simp only [List.length_cons, ih ha]

theorem exactly_length_le {α : Type} {r : Reader α} {expected : Expected} {before count : Nat}
    {ts rest : List Token} {as : List α} (h : exactly r expected before count ts = .ok (as, rest)) :
    rest.length ≤ ts.length := by
  fun_induction exactly r expected before count ts generalizing as rest with
  | case1 =>
    cases h
    exact Nat.le_refl _
  | case2 => cases h
  | case3 => cases h
  | case4 => cases h
  | case5 => cases h
  | case6 _ _ _ _ hn _ _ hr _ _ ha ih =>
    cases h
    have := nextElement_length_le hn
    have := r.shorter hr
    have := ih ha
    omega

theorem membersFrom_length {σ : Type} {member : Members σ} {first : Bool} {s s' : σ}
    {ts rest : List Token} (h : membersFrom member first s ts = .ok (s', rest)) :
    rest.length < ts.length := by
  fun_induction membersFrom member first s ts with
  | case1 => cases h
  | case2 _ _ _ _ hn =>
    cases h
    exact nextName_length hn
  | case3 => cases h
  | case4 => cases h
  | case5 => cases h
  | case6 _ _ _ _ _ hn r _ _ hc _ _ hr ih =>
    have := nextName_length hn
    have := afterColon_length hc
    have := r.shorter hr
    have := ih h
    omega

/-- Reads what stands inside an array or an object, and may take no token at all. -/
structure Body (α : Type) where
  run : List Token → Except Fault (α × List Token)
  noLonger : ∀ {ts a rest}, run ts = .ok (a, rest) → rest.length ≤ ts.length

namespace Body

/-- A value or a mismatch, without reading. -/
def ofExcept {α : Type} (x : Except Mismatch α) : Body α where
  run ts :=
    match x with
    | .ok a => .ok (a, ts)
    | .error m => .error (.mismatch m)
  noLonger := by
    intro ts a rest h
    split at h
    · cases h
      exact Nat.le_refl _
    · cases h

/-- One body, and then the one that its result asks for. -/
def bind {α β : Type} (b : Body α) (next : α → Body β) : Body β where
  run ts :=
    match b.run ts with
    | .ok (a, rest) => (next a).run rest
    | .error f => .error f
  noLonger := by
    intro ts a rest h
    split at h
    · rename_i hb
      have := b.noLonger hb
      have := (next _).noLonger h
      omega
    · cases h

/-- The result of a body, changed by a function. -/
def map {α β : Type} (f : α → β) (b : Body α) : Body β :=
  b.bind fun a => ofExcept (.ok (f a))

/-- The next element of an array after so many others, or none at its end, which stays. -/
def element {α : Type} (before : Nat) (r : Reader α) : Body (Option α) where
  run ts :=
    match nextElement (before == 0) ts with
    | .error f => .error f
    | .ok (false, ts) => .ok (none, ts)
    | .ok (true, ts) =>
      match r.run ts with
      | .error f => .error f
      | .ok (a, ts) => .ok (some a, ts)
  noLonger := by
    intro ts a rest h
    split at h
    · cases h
    · rename_i hn
      cases h
      exact nextElement_length_le hn
    · rename_i hn
      split at h
      · cases h
      · rename_i hr
        cases h
        have := nextElement_length_le hn
        have := r.shorter hr
        omega

def elements {α : Type} (r : Reader α) : Body (List α) where
  run := elementsFrom r true
  noLonger := elementsFrom_length_le

/-- Exactly the given number of elements. More of them are left for the end of the array. -/
def vector {α : Type} (count : Nat) (expected : Expected) (r : Reader α) :
    Body (Vector α count) where
  run ts :=
    match h : exactly r expected 0 count ts with
    | .error f => .error f
    | .ok (as, rest) => .ok (⟨as.toArray, by simpa using exactly_count h⟩, rest)
  noLonger := by
    intro ts a rest h
    split at h
    · cases h
    · rename_i he
      cases h
      exact exactly_length_le he

/-- The next element of an array that has to have one after so many others. -/
def required {α : Type} (before : Nat) (expected : Expected) (r : Reader α) : Body α :=
  (element before r).bind fun a =>
    ofExcept
      (match a with
      | some a => .ok a
      | none => .error (.tooFew before expected))

/-- All members of an object and its end. -/
def members {σ : Type} (member : Members σ) (s : σ) : Body σ where
  run := membersFrom member true s
  noLonger h := Nat.le_of_lt (membersFrom_length h)

end Body

namespace Reader

/-- An array with the given contents. -/
def array {α : Type} (expected : Expected) (elements : Body α) : Reader α where
  run ts :=
    match ts with
    | .openBracket :: rest =>
      match elements.run rest with
      | .error f => .error f
      | .ok (a, rest) =>
        match endArray rest with
        | .error f => .error f
        | .ok rest => .ok (a, rest)
    | _ => .error (Json.unexpected expected ts)
  shorter := by
    intro ts a rest h
    split at h
    · split at h
      · cases h
      · rename_i he
        split at h
        · cases h
        · rename_i hend
          cases h
          have := elements.noLonger he
          have := endArray_length hend
          simp only [List.length_cons]
          omega
    · cases h

/-- A value with named parts, written as an array of the parts or as an object. -/
def structured {α : Type} (expected : Expected) (elements members : Body α) : Reader α where
  run ts :=
    match ts with
    | .openBrace :: rest => members.run rest
    | _ => (array expected elements).run ts
  shorter := by
    intro ts a rest h
    split at h
    · have := members.noLonger h
      simp only [List.length_cons]
      omega
    · exact (array expected elements).shorter h

end Reader

/-- The value that a text denotes: one value, with nothing but spaces around it. -/
def Reader.parse {α : Type} (r : Reader α) (s : String) : Except Fault α :=
  match r.run (tokens s.toList) with
  | .error f => .error f
  | .ok (a, []) => .ok a
  | .ok (_, _ :: _) => .error .notJson

end PhotoArchive.Json
