import SceneScript.Number.Decimal
import SceneScript.Text.Blank
import SceneScript.Text.Search
import SceneScript.Text.UpperCase
import SceneScript.Text.Visible
import SceneScript.Json.Reader
import SceneScript.Json.Error
import SceneScript.Json.Codec
import SceneScript.Json.Record
import SceneScript.Json.Tagged
import SceneScript.Scene.Body
import SceneScript.Scene.Engine
import SceneScript.Scene.Model
import SceneScript.Config
import SceneScript.Script.Boilerplate
import SceneScript.Script.Generation
import SceneScript.Script.OutputFile
import SceneScript.Command.Directory
import SceneScript.Command.Program
import SceneScript.Main
import SceneScript.Number.Reader
import SceneScript.Proofs.Occurrence
import SceneScript.Proofs.RegionSearch
import SceneScript.Proofs.ByteOffsets
import SceneScript.Proofs.RegionOffsets
import SceneScript.Proofs.StarFree
import SceneScript.Proofs.OwnText
import SceneScript.Proofs.Regeneration
import SceneScript.Proofs.MarkerPlaces
import SceneScript.Proofs.FileHistory
import SceneScript.Proofs.Stability
import SceneScript.Proofs.Placement
import SceneScript.Proofs.PhysicsBodies
import SceneScript.Proofs.Nesting
import SceneScript.Proofs.Pruning
import SceneScript.Proofs.Digits
import SceneScript.Proofs.ObjectBlock
import SceneScript.Proofs.PublicVariables
import SceneScript.Proofs.MakingLines
import SceneScript.Proofs.SceneOutline
import SceneScript.Proofs.SoundValue
import SceneScript.Proofs.CodecLaws
import SceneScript.Proofs.RecordLaws
import SceneScript.Proofs.SceneRoundTrip
import SceneScript.Proofs.DoubleGrid
import SceneScript.Proofs.ShortestDecimal
import SceneScript.Proofs.NumeralText
import SceneScript.Proofs.TextPieces
import SceneScript.Proofs.LostMarkers
import SceneScript.Proofs.NameClashes
import SceneScript.Proofs.WriteLines
import SceneScript.Proofs.EngineDefaults
import SceneScript.Proofs.ScriptScanner
import SceneScript.Proofs.QuotedTexts
import SceneScript.Proofs.WellFormedScript
import SceneScript.Proofs.DirectoryWrites
import SceneScript.Proofs.CommandRuns
import SceneScript.Proofs.BlankExpressions
import SceneScript.Proofs.PrintedNumbers
import SceneScript.Proofs.BodyLines
import SceneScript.Proofs.RecordMembers
import SceneScript.Proofs.AbsentKeys
import SceneScript.Proofs.LiteralReader
import SceneScript.Proofs.Reparenting
import SceneScript.Proofs.ArgumentPositions
import SceneScript.Proofs.WholePixels
import SceneScript.Proofs.TextLines
import SceneScript.Proofs.ExtraData
import SceneScript.Proofs.BlankLines
import SceneScript.Proofs.WholeValues
import SceneScript.Proofs.TaggedContent
import SceneScript.Proofs.ContainerReading
import SceneScript.Proofs.ReaderAgreement
import SceneScript.Proofs.ObjectPlaces
import SceneScript.Proofs.MemberOrder
import SceneScript.Proofs.UnknownMembers
import SceneScript.Proofs.JsonTokens
import SceneScript.Proofs.JsonLayout
import SceneScript.Proofs.TextEdits
