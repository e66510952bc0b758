import PhotoArchive.Text.Quoted

/-!
# Traces

`Trace`: the lines that a run leaves, in order, those of a later part behind those of an earlier one
(`extend`). A trace is shown (`Display`) as its lines with a line break between each two of them, so
the empty trace and the trace of one empty line look the same.
-/
namespace PhotoArchive

structure Trace where
  lines : Array String
  deriving DecidableEq, Repr

namespace Trace

def empty : Trace := ⟨#[]⟩

def single (line : String) : Trace := ⟨#[line]⟩

def ofList (lines : List String) : Trace := ⟨lines.toArray⟩

def toList (t : Trace) : List String := t.lines.toList

def push (t : Trace) (line : String) : Trace := ⟨t.lines.push line⟩

def append (t later : Trace) : Trace := ⟨t.lines ++ later.lines⟩

instance : Append Trace := ⟨append⟩

def size (t : Trace) : Nat := t.lines.size

def isEmpty (t : Trace) : Bool := t.lines.isEmpty

/-- The lines with a line break between each two. -/
def text (t : Trace) : String := "\n".intercalate t.toList

def form (t : Trace) : String :=
  Text.labelled "Trace" [("lines", "[" ++ ", ".intercalate (t.toList.map Text.quoted) ++ "]")]

@[simp] theorem toList_empty : empty.toList = [] := rfl

@[simp] theorem toList_single (line : String) : (single line).toList = [line] := rfl

@[simp] theorem toList_ofList (lines : List String) : (ofList lines).toList = lines := rfl

@[simp] theorem toList_push (t : Trace) (line : String) :
    (t.push line).toList = t.toList ++ [line] := by
  simp [toList, push]

@[simp] theorem toList_append (t later : Trace) :
    (t ++ later).toList = t.toList ++ later.toList := by
  show (t.lines ++ later.lines).toList = _
  simp [toList]

@[simp] theorem size_eq_length (t : Trace) : t.size = t.toList.length := by
  simp [size, toList]

theorem ext_toList {t u : Trace} (h : t.toList = u.toList) : t = u := by
  cases t
  cases u
  simpa [toList] using h

end Trace

end PhotoArchive
