import PhotoArchive.BlobKey

/-!
# Store errors

`StoreError`, what can go wrong when a store is asked. That no record is held for a photo is not an
error.
-/
namespace PhotoArchive

inductive StoreError where
  | blobNotFound (key : BlobKey)
  | unavailable (reason : String)
  deriving DecidableEq, Repr

namespace StoreError

def message : StoreError → String
  | .blobNotFound key => "blob not found: " ++ key.toHex
  | .unavailable reason => "store unavailable: " ++ reason

def form : StoreError → String
  | .blobNotFound key => "BlobNotFound(" ++ key.form ++ ")"
  | .unavailable reason => "Unavailable(" ++ Text.quoted reason ++ ")"

end StoreError

end PhotoArchive
