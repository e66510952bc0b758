import PhotoArchive.Photo

/-!
# Storage operations

`MetadataOp` and `BlobOp`, the five primitive operations as data, those on records and those on
contents apart, with what they are called (`name`, `describe`). The union of two kinds of operations
(`Coproduct`) is their sum, and `Inject` is that one kind is a part of a union. A program over a
union can issue the operations of every part of it.
-/
namespace PhotoArchive

/-- The five operations without their arguments. -/
inductive OperationName where
  | insertRecord
  | getRecord
  | generateKey
  | writeContent
  | readContent
  deriving DecidableEq, Repr

def OperationName.text : OperationName → String
  | .insertRecord => "insert_record"
  | .getRecord => "get_record"
  | .generateKey => "generate_key"
  | .writeContent => "write_content"
  | .readContent => "read_content"

inductive MetadataOp where
  | insertRecord (id : PhotoId) (key : BlobKey) (creator : String)
  | getRecord (id : PhotoId)
  deriving DecidableEq, Repr

inductive BlobOp where
  | generateKey (id : PhotoId)
  | writeContent (key : BlobKey) (content : ByteArray)
  | readContent (key : BlobKey)
  deriving DecidableEq

/-- The union of two kinds of operations is their sum. Here: all five operations. -/
abbrev PhotoOp := MetadataOp ⊕ BlobOp

namespace MetadataOp

def name : MetadataOp → OperationName
  | .insertRecord _ _ _ => .insertRecord
  | .getRecord _ => .getRecord

/-- The line that a trace has for the operation. -/
def describe : MetadataOp → String
  | .insertRecord id _ _ => "Insert metadata record with ID " ++ id.text
  | .getRecord id => "Get metadata record with ID " ++ id.text

def form : MetadataOp → String
  | .insertRecord id key creator =>
    Text.labelled "InsertRecord"
      [("id", id.form), ("key", key.form), ("creator", Text.quoted creator)]
  | .getRecord id => Text.labelled "GetRecord" [("id", id.form)]

end MetadataOp

namespace BlobOp

def name : BlobOp → OperationName
  | .generateKey _ => .generateKey
  | .writeContent _ _ => .writeContent
  | .readContent _ => .readContent

def describe : BlobOp → String
  | .generateKey id => "Generate key for ID " ++ id.text
  | .writeContent key _ => "Write content with key " ++ key.toHex
  | .readContent key => "Get content with key " ++ key.toHex

def form : BlobOp → String
  | .generateKey id => Text.labelled "GenerateKey" [("id", id.form)]
  | .writeContent key content =>
    Text.labelled "WriteContent" [("key", key.form), ("content", Text.quotedBytes content)]
  | .readContent key => Text.labelled "ReadContent" [("key", key.form)]

end BlobOp

namespace PhotoOp

def name : PhotoOp → OperationName :=
  Sum.elim MetadataOp.name BlobOp.name

def describe : PhotoOp → String :=
  Sum.elim MetadataOp.describe BlobOp.describe

def form : PhotoOp → String :=
  Sum.elim MetadataOp.form BlobOp.form

end PhotoOp

/-- The operations of one kind are among those of another. -/
class Includes (Part Whole : Type) where
  inject : Part → Whole

instance (T : Type) : Includes T T := ⟨id⟩

instance (L R : Type) : Includes L (L ⊕ R) := ⟨Sum.inl⟩

instance (L R T : Type) [Includes T R] : Includes T (L ⊕ R) :=
  ⟨fun op => .inr (Includes.inject op)⟩

/-- The form of an operation with its place in the union. -/
def unionForm {L R : Type} (left : L → String) (right : R → String) : L ⊕ R → String
  | .inl op => "Inl(" ++ left op ++ ")"
  | .inr op => "Inr(" ++ right op ++ ")"

end PhotoArchive
