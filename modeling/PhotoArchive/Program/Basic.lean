import PhotoArchive.Operation
import PhotoArchive.Program.Tree

/-!
# Programs

A program (`Program`) over the operations `O` that yields an `α` is a tree whose values are carried
as values of the type `V`. Building a program carries out nothing. Programs are put together from
values (`pure`) and from the five operations (`suspend`), each of which yields what its answer is,
by going on from the value of a first program (`and_then`, and by it `map`, `then` and `sequence`).
-/
namespace PhotoArchive

structure Program (O V α : Type) where
  root : Tree O V

namespace Program

variable {O P V α β : Type}

def shape (p : Program O V α) : Shape := p.root.shape

/-- The program without operations that yields a value. -/
def pure [Carries V α] (a : α) : Program O V α :=
  ⟨.pure (Carries.wrap a)⟩

/-- Goes on with the program that the value of this one leads to. -/
def bind [Carries V α] (p : Program O V α) (f : α → Program O V β) : Program O V β :=
  ⟨.bind p.root fun v =>
    match (Carries.unwrap? v : Option α) with
    | some a => (f a).root
    | none => .fault (Carries.typeName V α)⟩

def map [Carries V α] [Carries V β] (f : α → β) (p : Program O V α) : Program O V β :=
  p.bind fun a => pure (f a)

def followedBy [Carries V α] (p : Program O V α) (q : Program O V β) : Program O V β :=
  p.bind fun _ => q

/-- Goes on with a program and adds its value behind the values of this one. -/
def appending [Carries V α] [Carries V (List α)] (before : Program O V (List α))
    (p : Program O V α) : Program O V (List α) :=
  before.bind fun values => p.map fun a => values ++ [a]

def sequence [Carries V α] [Carries V (List α)] (ps : List (Program O V α)) :
    Program O V (List α) :=
  ps.foldl appending (pure [])

def replicate [Carries V α] [Carries V (List α)] (n : Nat) (p : Program O V α) :
    Program O V (List α) :=
  sequence (List.replicate n p)

/-- The program a number of times, each time after a program that counts the times before. -/
def repeated [Carries V α] [Carries V Int64] (p : Program O V α) : Nat → Program O V Int64
  | 0 => pure 0
  | n + 1 => (repeated p n).bind fun count => p.map fun _ => count + 1

/-- The program a number of times, each time before a program that counts the times after. -/
def countdown [Carries V α] [Carries V Int64] (p : Program O V α) : Nat → Program O V Int64
  | 0 => pure 0
  | n + 1 => (p.bind fun _ => countdown p n).map (· + 1)

/-- The same program over fewer operations. -/
def narrow (part : O → Option P) (p : Program O V α) : Program P V α :=
  ⟨p.root.narrow part⟩

end Program

/-- The answers of the five operations can be carried. -/
class CarriesAnswers (V : Type) where
  [unit : Carries V Unit]
  [key : Carries V BlobKey]
  [record : Carries V MetadataRecord]
  [content : Carries V ByteArray]

variable {O V : Type}

instance [CarriesAnswers V] : Carries V Unit := CarriesAnswers.unit

instance [CarriesAnswers V] : Carries V BlobKey := CarriesAnswers.key

instance [CarriesAnswers V] : Carries V MetadataRecord := CarriesAnswers.record

instance [CarriesAnswers V] : Carries V ByteArray := CarriesAnswers.content

namespace Program

def insertRecord [Includes MetadataOp O] (id : PhotoId) (key : BlobKey) (creator : String) :
    Program O V MetadataRecord :=
  ⟨.perform (Includes.inject (MetadataOp.insertRecord id key creator))⟩

def getRecord [Includes MetadataOp O] (id : PhotoId) : Program O V MetadataRecord :=
  ⟨.perform (Includes.inject (MetadataOp.getRecord id))⟩

def generateKey [Includes BlobOp O] (id : PhotoId) : Program O V BlobKey :=
  ⟨.perform (Includes.inject (BlobOp.generateKey id))⟩

def writeContent [Includes BlobOp O] (key : BlobKey) (content : ByteArray) : Program O V Unit :=
  ⟨.perform (Includes.inject (BlobOp.writeContent key content))⟩

def readContent [Includes BlobOp O] (key : BlobKey) : Program O V ByteArray :=
  ⟨.perform (Includes.inject (BlobOp.readContent key))⟩

end Program

end PhotoArchive
