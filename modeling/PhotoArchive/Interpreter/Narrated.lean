import PhotoArchive.Service

/-!
# Narrated services

`TracingInterpreter`: a service in the immediate context, narrated. It does the same, and each
operation leaves one line in the trace, the one by which the operation is described (`describe`).
-/
namespace PhotoArchive

variable {σ α : Type}

/-- Does the same and notes a line with the value. -/
def Action.narrate (line : String) (x : Action .immediate σ α) : Action .traced σ α :=
  ⟨fun w =>
    match x.run w with
    | (.ok r, w₁) => (.ok ⟨r.value, .single line⟩, w₁)
    | (.error reason, w₁) => (.error reason, w₁)⟩

def MetadataService.narrated (s : MetadataService .immediate σ) : MetadataService .traced σ where
  insertRecord id key creator :=
    (s.insertRecord id key creator).narrate (MetadataOp.insertRecord id key creator).describe
  getRecord id := (s.getRecord id).narrate (MetadataOp.getRecord id).describe

def BlobService.narrated (s : BlobService .immediate σ) : BlobService .traced σ where
  generateKey id := (s.generateKey id).narrate (BlobOp.generateKey id).describe
  writeContent key content :=
    (s.writeContent key content).narrate (BlobOp.writeContent key content).describe
  readContent key := (s.readContent key).narrate (BlobOp.readContent key).describe

def Services.narrated (s : Services .immediate σ) : Services .traced σ :=
  ⟨s.metadata.narrated, s.blobs.narrated⟩

end PhotoArchive
