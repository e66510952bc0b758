import PhotoArchive.Service

/-!
# Workflows on services

The five workflows of the archive (`direct`), carried out on services as they are described.
-/
namespace PhotoArchive

variable {C : Context} {σ : Type}

def MetadataService.getCreator (s : MetadataService C σ) (id : PhotoId) : Action C σ String := do
  let record ← s.getRecord id
  pure record.creator

def BlobService.copyContent (s : BlobService C σ) (source target : BlobKey) : Action C σ Unit := do
  let content ← s.readContent source
  s.writeContent target content

namespace Services

def savePhoto (s : Services C σ) (id : PhotoId) (creator : String) (content : ByteArray) :
    Action C σ Unit := do
  let key ← s.blobs.generateKey id
  let _ ← s.metadata.insertRecord id key creator
  s.blobs.writeContent key content

def getPhoto (s : Services C σ) (id : PhotoId) : Action C σ Photo := do
  let record ← s.metadata.getRecord id
  let content ← s.blobs.readContent record.key
  pure (Photo.assemble record content)

def saveThenGetPhoto (s : Services C σ) (id : PhotoId) (creator : String) (content : ByteArray) :
    Action C σ Photo := do
  s.savePhoto id creator content
  s.getPhoto id

end Services

end PhotoArchive
