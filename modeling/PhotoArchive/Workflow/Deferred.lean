import PhotoArchive.Program.Basic

/-!
# Workflows as programs

The five workflows of the archive (`deferred`), as programs over any operations that include those
they need.
-/
namespace PhotoArchive.Program

variable {O V : Type} [CarriesAnswers V]

def getCreator [Includes MetadataOp O] [Carries V String] (id : PhotoId) : Program O V String :=
  (getRecord id).map MetadataRecord.creator

def copyContent [Includes BlobOp O] (source target : BlobKey) : Program O V Unit :=
  (readContent source).bind fun content => writeContent target content

variable [Includes MetadataOp O] [Includes BlobOp O]

/-- Files a record for a photo under a new key and keeps the content under that key. -/
def savePhoto (id : PhotoId) (creator : String) (content : ByteArray) : Program O V Unit :=
  (generateKey id).bind fun key =>
    (insertRecord id key creator).bind fun _ => writeContent key content

variable [Carries V Photo]

/-- The photo that the record of an identifier leads to. -/
def getPhoto (id : PhotoId) : Program O V Photo :=
  (getRecord id).bind fun record => (readContent record.key).map (Photo.assemble record)

def saveThenGetPhoto (id : PhotoId) (creator : String) (content : ByteArray) :
    Program O V Photo :=
  (savePhoto id creator content).bind fun (_ : Unit) => getPhoto id

end PhotoArchive.Program
