import PhotoArchive.Script.Deferred
import PhotoArchive.Script.Direct

/-!
# Runs of scripts

A script can be run as it is on services, or as the program that it stands for (`interpret_photo`,
or `interpret` with a pair of services). A program is built over one of several unions of
operations. All unions that have the operations of the script lead to the same run.
-/
namespace PhotoArchive

/-- The operations that a program is built over: those on records and those on contents in either
order, one kind alone, or both beside operations of which there are none. -/
inductive UnionChoice where
  | photo
  | metadata
  | blob
  | flipped
  | nested
  deriving DecidableEq, Repr

inductive Encoding where
  | direct
  | deferred (union : UnionChoice)
  deriving DecidableEq, Repr

structure Run where
  script : Script
  encoding : Encoding

namespace Run

variable {C : Context} {σ : Type}

/-- Carries out a script as a program over a union. -/
def deferred (s : Services C σ) (script : Script) : UnionChoice → Action C σ Value
  | .photo => (script.program (O := PhotoOp) []).execute s.handler
  | .metadata =>
    ((script.program (O := PhotoOp) []).narrow Sum.getLeft?).execute s.metadata.handler
  | .blob => ((script.program (O := PhotoOp) []).narrow Sum.getRight?).execute s.blobs.handler
  | .flipped =>
    (script.program (O := BlobOp ⊕ MetadataOp) []).execute
      (s.blobs.handler.sum s.metadata.handler)
  | .nested =>
    (script.program (O := Empty ⊕ (BlobOp ⊕ MetadataOp)) []).execute
      (.sum (fun op => op.elim) (s.blobs.handler.sum s.metadata.handler))

def action (s : Services C σ) (r : Run) : Action C σ Value :=
  match r.encoding with
  | .direct => r.script.action s []
  | .deferred union => deferred s r.script union

end Run

end PhotoArchive
