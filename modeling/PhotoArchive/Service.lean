import PhotoArchive.Program.Meaning

/-!
# Services

`MetadataAlg` and `BlobAlg`, the five operations as actions in a context: two on records, three on
contents. A service is all that an interpreter provides. Services handle the operations that
programs issue, and a pair of services the union of theirs (`PhotoAlg`).
-/
namespace PhotoArchive

structure MetadataService (C : Context) (σ : Type) where
  insertRecord : PhotoId → BlobKey → String → Action C σ MetadataRecord
  getRecord : PhotoId → Action C σ MetadataRecord

structure BlobService (C : Context) (σ : Type) where
  generateKey : PhotoId → Action C σ BlobKey
  writeContent : BlobKey → ByteArray → Action C σ Unit
  readContent : BlobKey → Action C σ ByteArray

structure Services (C : Context) (σ : Type) where
  metadata : MetadataService C σ
  blobs : BlobService C σ

variable {C : Context} {σ V : Type}

def MetadataService.handler [CarriesAnswers V] (s : MetadataService C σ) :
    Handler C σ MetadataOp V
  | .insertRecord id key creator => Carries.wrap <$> s.insertRecord id key creator
  | .getRecord id => Carries.wrap <$> s.getRecord id

def BlobService.handler [CarriesAnswers V] (s : BlobService C σ) : Handler C σ BlobOp V
  | .generateKey id => Carries.wrap <$> s.generateKey id
  | .writeContent key content => Carries.wrap <$> s.writeContent key content
  | .readContent key => Carries.wrap <$> s.readContent key

/-- Handles all five operations. -/
def Services.handler [CarriesAnswers V] (s : Services C σ) : Handler C σ PhotoOp V :=
  s.metadata.handler.sum s.blobs.handler

end PhotoArchive
