import StyleTree.Text.Blank
import StyleTree.Text.Lines
import StyleTree.Text.SpinalCase
import StyleTree.Decimal.Shortest
import StyleTree.Table
import StyleTree.Json.Reader
import StyleTree.Json.Writer
import StyleTree.Style.Decoding
import StyleTree.Style.Key
import StyleTree.Style.Text
import StyleTree.Options.Decoding
import StyleTree.Document
import StyleTree.Rule.Layout
import StyleTree.Rule.Trace
import StyleTree.Minify
import StyleTree.Naming.Reservation
import StyleTree.Session.Call
import StyleTree.CommandLine.Directory
import StyleTree.Main
import StyleTree.Proofs.FailedCalls
import StyleTree.Proofs.ClassRules
import StyleTree.Proofs.LayoutReader
import StyleTree.Proofs.DocumentSteps
import StyleTree.Proofs.WritableValues
import StyleTree.Proofs.Faults
import StyleTree.Proofs.MinifiedLines
import StyleTree.Proofs.CompactLayout
import StyleTree.Proofs.MinifiedSessions
import StyleTree.Proofs.TakenNames
import StyleTree.Proofs.ReceivedText
import StyleTree.Proofs.SplitSections
import StyleTree.Proofs.Deliveries
import StyleTree.Proofs.NamingAlone
import StyleTree.Proofs.DocumentReading
import StyleTree.Proofs.NameRequests
import StyleTree.Proofs.MinifiedCharacters
import StyleTree.Proofs.LongValues
import StyleTree.Proofs.OptionHistory
import StyleTree.Proofs.DocumentLayouts
import StyleTree.Proofs.CommandRuns
import StyleTree.Proofs.StyleParts
import StyleTree.Proofs.SelectorPieces
import StyleTree.Proofs.VendorCopies
import StyleTree.Proofs.EmptyRules
import StyleTree.Proofs.Longhands
import StyleTree.Proofs.EntryOrder
import StyleTree.Proofs.FirstFreeName
import StyleTree.Proofs.JoinedLeaves
import StyleTree.Proofs.ReservedNames
import StyleTree.Proofs.DistinctProperties
import StyleTree.Proofs.OptionReading
import StyleTree.Proofs.StyleEncoding
import StyleTree.Proofs.MinifiedTwice
import StyleTree.Proofs.InsertedHyphens
