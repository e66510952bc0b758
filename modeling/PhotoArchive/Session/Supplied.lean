import PhotoArchive.Interpreter.Narrated
import PhotoArchive.Interpreter.Supplied
import PhotoArchive.Session.Run

/-!
# Sessions with supplied maps

Several supplied maps with names, and requests one after another. More than one name may stand for
the same maps. Some identifiers can be given keys of their own. A run takes the records of one
name and the contents of another, and may be narrated.
-/
namespace PhotoArchive

/-- Supplied maps as they are described at the start of a session, with the keys that are not
derived. Of these the later replace the earlier. -/
structure NamedMaps where
  name : String
  records : List MetadataRecord
  contents : List (BlobKey × ByteArray)
  keys : List (PhotoId × BlobKey)

/-- The key of a photo where some keys are not derived. -/
def NamedMaps.keyOf (m : NamedMaps) (id : PhotoId) : BlobKey :=
  (m.keys.reverse.lookup id).getD (.derive id)

inductive SuppliedRequest where
  | run (r : Run) (metadata blobs : String)
  | withRecord (r : MetadataRecord) (name : String)
  | withContent (key : BlobKey) (content : ByteArray) (name : String)
  | record (id : PhotoId) (name : String)
  | content (key : BlobKey) (name : String)
  | alias (fresh name : String)

inductive SuppliedReply where
  | ran (outcome : Outcome .immediate Value)
  | narrated (outcome : Outcome .traced Value)
  | sameCount
  | done
  | record (found : Option MetadataRecord)
  | content (found : Option ByteArray)
  | unknownName (name : String)

structure SuppliedSession (n : Nat) where
  described : Vector NamedMaps n
  maps : Vector Supplied n
  names : List (String × Fin n)

namespace SuppliedSession

def start (described : List NamedMaps) : SuppliedSession described.length where
  described := ⟨described.toArray, by simp⟩
  maps := ⟨(described.map fun m => Supplied.ofLists m.records m.contents).toArray, by simp⟩
  names := (List.finRange described.length).map fun i => ((described.get i).name, i)

variable {n : Nat}

/-- The services of the maps that two names stand for. -/
def services (s : SuppliedSession n) (metadata blobs : Fin n) :
    Services .immediate (Vector Supplied n) :=
  ⟨Supplied.metadataService (.place metadata),
    Supplied.blobService ((s.described.get blobs).keyOf) (.place blobs)⟩

def change (s : SuppliedSession n) (i : Fin n) (f : Supplied → Supplied) : SuppliedSession n :=
  { s with maps := (Slot.place i).modify f s.maps }

/-- Carries out a run and gives its outcome, the maps after it, and what was reported. -/
def carryOut (s : SuppliedSession n) (narrated : Bool) (r : Run) (metadata blobs : Fin n) :
    SuppliedReply × SuppliedSession n × List Event :=
  let services := s.services metadata blobs
  let world : World (Vector Supplied n) := ⟨s.maps, #[]⟩
  if narrated then
    let (outcome, w) := (r.action services.narrated).run world
    (.narrated outcome, { s with maps := w.state }, w.events.toList)
  else
    let (outcome, w) := (r.action services).run world
    (.ran outcome, { s with maps := w.state }, w.events.toList)

def handle (s : SuppliedSession n) (narrated : Bool) (q : SuppliedRequest) :
    SuppliedReply × SuppliedSession n × List Event :=
  let named (name : String) (f : Fin n → SuppliedReply × SuppliedSession n × List Event) :=
    match s.names.lookup name with
    | some i => f i
    | none => (.unknownName name, s, [])
  match q with
  | .run r metadata blobs => named metadata fun i => named blobs fun j => s.carryOut narrated r i j
  | .withRecord r name => named name fun i => (.sameCount, s.change i (·.withRecord r), [])
  | .withContent key content name =>
    named name fun i => (.done, s.change i (·.withContent key content), [])
  | .record id name => named name fun i => (.record ((s.maps.get i).records.get? id), s, [])
  | .content key name => named name fun i => (.content ((s.maps.get i).contents.get? key), s, [])
  | .alias fresh name =>
    named name fun i => (.done, { s with names := s.names ++ [(fresh, i)] }, [])

end SuppliedSession

end PhotoArchive
