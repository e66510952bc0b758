import PhotoArchive.Json.Photo
import PhotoArchive.Proofs.Encoding
import PhotoArchive.Proofs.Narration
import PhotoArchive.Proofs.Substitution
import PhotoArchive.Session.Backed
import PhotoArchive.Session.Chain
import PhotoArchive.Session.Countdown
import PhotoArchive.Session.Supplied
import PhotoArchive.Settings.Json
import PhotoArchive.Settings.Toml
import PhotoArchive.Proofs.Typing
import PhotoArchive.Proofs.Course
import PhotoArchive.Proofs.Errand
import PhotoArchive.Proofs.LastSave
import PhotoArchive.Proofs.SameSave
import PhotoArchive.Proofs.Interleaving
import PhotoArchive.Proofs.Ownership
import PhotoArchive.Proofs.Decimal
import PhotoArchive.Proofs.JsonTokens
import PhotoArchive.Proofs.TimeLimit
import PhotoArchive.Proofs.JsonRoundTrip
import PhotoArchive.Proofs.TomlRoundTrip
import PhotoArchive.Proofs.StoreHistory
import PhotoArchive.Proofs.Sequencing
import PhotoArchive.Proofs.Traversal
import PhotoArchive.Proofs.UnionIndependence
import PhotoArchive.Proofs.Chaining
import PhotoArchive.Proofs.Recursion
import PhotoArchive.Proofs.Telling
import PhotoArchive.Proofs.Completion
import PhotoArchive.Proofs.DispatchLog
import PhotoArchive.Proofs.Frame
import PhotoArchive.Proofs.HexCodec
import PhotoArchive.Proofs.KeyReading
import PhotoArchive.Proofs.RecordReading
import PhotoArchive.Proofs.SettingsReading
import PhotoArchive.Proofs.Trimming
import PhotoArchive.Proofs.TraceText
import PhotoArchive.Proofs.TextOrder
import PhotoArchive.Proofs.TraceAppend
