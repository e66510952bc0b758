import PhotoArchive.OperationError
import PhotoArchive.Trace

/-!
# Contexts

`Effect`, the way in which operations are carried out: what is noted on the way, what can end the
work without a value, and how work is represented (`Repr`). Three contexts are in use. The immediate
one is `Now`: it notes nothing and holds plain values. The traced one is `Traced`: it holds values
with the trace of what led to them (`Logged`). The awaited one is `Live`: it holds work that is yet
to be done and that may find nothing or fail.
-/
namespace PhotoArchive

/-- Why work is broken off where no answer is provided for. A step of a program can be handed a
value of another type than the one that it expected, and a service can break off for a reason of its
own. -/
inductive Abort where
  | noRecord (id : PhotoId)
  | noContent (key : BlobKey)
  | wrongType (expected : String)
  | other (wording : String)
  deriving DecidableEq, Repr

def Abort.message : Abort → String
  | .noRecord id => "no metadata record supplied for photo " ++ id.text
  | .noContent key => "no content supplied for key " ++ key.toHex
  | .wrongType expected =>
    "program step produced a value of the wrong type (expected " ++ expected ++ ")"
  | .other wording => wording

theorem Abort.message_noRecord (id : PhotoId) :
    (Abort.noRecord id).message = "no metadata record supplied for photo " ++ id.text := rfl

theorem Abort.message_noContent (key : BlobKey) :
    (Abort.noContent key).message = "no content supplied for key " ++ key.toHex := rfl

theorem Abort.message_wrongType (expected : String) :
    (Abort.wrongType expected).message =
      "program step produced a value of the wrong type (expected " ++ expected ++ ")" := rfl

/-- What ends work that is awaited without a value. -/
inductive Halt where
  | absent
  | failed (error : OperationError)
  | aborted (reason : Abort)
  deriving DecidableEq, Repr

/-- How work on worlds `W` that comes to an `R` is held once it has been described. Describing may
change the world, and so may asking for what the work comes to. Described work goes on with a
callback, at the latest when it is asked for. -/
structure Representation where
  Held : Type → Type → Type
  ready : {W R : Type} → R → Held W R
  andThen : {W R S : Type} → Held W R → (R → W → Held W S × W) → W → Held W S × W
  finish : {W R : Type} → Held W R → W → R × W
  finish_ready : ∀ {W R : Type} (r : R) (w : W), finish (ready r) w = (r, w)
  finish_andThen : ∀ {W R S : Type} (x : Held W R) (next : R → W → Held W S × W) (w : W),
    finish (andThen x next w).1 (andThen x next w).2 =
      finish (next (finish x w).1 (finish x w).2).1 (next (finish x w).1 (finish x w).2).2

namespace Representation

/-- What the work has come to. To go on with a callback is to run it. -/
def value : Representation where
  Held _ R := R
  ready r := r
  andThen x next w := next x w
  finish x w := (x, w)
  finish_ready _ _ := rfl
  finish_andThen _ _ _ := rfl

/-- Work that is yet to be done. To go on with a callback is to put it after the work. -/
def waiting : Representation where
  Held W R := W → R × W
  ready r w := (r, w)
  andThen x next w :=
    (fun v =>
      let p := x v
      let q := next p.1 p.2
      q.1 q.2, w)
  finish x w := x w
  finish_ready _ _ := rfl
  finish_andThen _ _ _ := rfl

end Representation

/-- A way of carrying out operations. Notes are joined in the order in which they arise, and work
can be broken off in every context. -/
structure Context where
  Note : Type
  empty : Note
  line : String → Note
  join : Note → Note → Note
  empty_join : ∀ n, join empty n = n
  join_empty : ∀ n, join n empty = n
  join_assoc : ∀ a b c, join (join a b) c = join a (join b c)
  Stop : Type
  abort : Abort → Stop
  repr : Representation

attribute [simp] Context.empty_join Context.join_empty

namespace Context

abbrev immediate : Context where
  Note := Unit
  empty := ()
  line _ := ()
  join _ _ := ()
  empty_join _ := rfl
  join_empty _ := rfl
  join_assoc _ _ _ := rfl
  Stop := Abort
  abort := id
  repr := .value

abbrev traced : Context where
  Note := Trace
  empty := .empty
  line := .single
  join := .append
  empty_join t := Trace.ext_toList (Trace.toList_append .empty t)
  join_empty t := Trace.ext_toList ((Trace.toList_append t .empty).trans (List.append_nil _))
  join_assoc a b c := by
    refine Trace.ext_toList ?_
    change ((a ++ b) ++ c).toList = (a ++ (b ++ c)).toList
    simp
  Stop := Abort
  abort := id
  repr := .value

abbrev awaited : Context where
  Note := Unit
  empty := ()
  line _ := ()
  join _ _ := ()
  empty_join _ := rfl
  join_empty _ := rfl
  join_assoc _ _ _ := rfl
  Stop := Halt
  abort := .aborted
  repr := .waiting

end Context

end PhotoArchive
