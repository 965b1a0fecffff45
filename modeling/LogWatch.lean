import LogWatch.Main
import LogWatch.Proofs.Text.Decimal
import LogWatch.Proofs.Text.Reader
import LogWatch.Proofs.Text.Case
import LogWatch.Proofs.Json.Blank
import LogWatch.Proofs.Json.Pretty
import LogWatch.Proofs.Event.Record
import LogWatch.Proofs.Report.Json
import LogWatch.Proofs.Report.Lines
import LogWatch.Proofs.Time.Calendar
import LogWatch.Proofs.Time.Text
import LogWatch.Proofs.Time.Limit
import LogWatch.Proofs.Time.Window
import LogWatch.Proofs.Digest.Base
import LogWatch.Proofs.Store.Record
import LogWatch.Proofs.Identity.Canonical
import LogWatch.Proofs.Identity.Event
import LogWatch.Proofs.Identity.Configuration
import LogWatch.Proofs.Filter.Grammar
import LogWatch.Proofs.Filter.Parsing
import LogWatch.Proofs.Filter.Spelling
import LogWatch.Proofs.Filter.Compiling
import LogWatch.Proofs.Filter.Rendering
import LogWatch.Proofs.Filter.Concatenation
import LogWatch.Proofs.Filter.Composition
import LogWatch.Proofs.Filter.Shape
import LogWatch.Proofs.Filter.Negation
import LogWatch.Proofs.Filter.Refusal
import LogWatch.Proofs.Filter.Spread
import LogWatch.Proofs.Filter.Renaming
import LogWatch.Proofs.Filter.Quotes
import LogWatch.Proofs.Filter.Respelling
import LogWatch.Proofs.Moments
import LogWatch.Proofs.Disk.File
import LogWatch.Proofs.Disk.Folder
import LogWatch.Proofs.Store.Open
import LogWatch.Proofs.Store.Save
import LogWatch.Proofs.Store.Lookup
import LogWatch.Proofs.Store.Calm
import LogWatch.Proofs.Store.Map
import LogWatch.Proofs.Store.Interruption
import LogWatch.Proofs.Store.Migration
import LogWatch.Proofs.Source.Events
import LogWatch.Proofs.Scanner.Cycle
import LogWatch.Proofs.Scanner.Acknowledgement
import LogWatch.Proofs.Scanner.Watermark
import LogWatch.Proofs.Delivery.News
import LogWatch.Proofs.Delivery.Log
import LogWatch.Proofs.Delivery.Payload
import LogWatch.Proofs.Delivery.Rerun
import LogWatch.Proofs.Selection.Kept
import LogWatch.Proofs.Selection.Volatile
import LogWatch.Proofs.Store.Confinement
import LogWatch.Proofs.Time.Grammar
import LogWatch.Proofs.Time.RoundTrip
import LogWatch.Proofs.Reading.Log
import LogWatch.Proofs.Reading.Window
import LogWatch.Proofs.Reading.Payload
import LogWatch.Proofs.Store.Removal
import LogWatch.Proofs.Program.Execution
import LogWatch.Proofs.Program.Reset
import LogWatch.Proofs.Event.Decoding
import LogWatch.Proofs.Reading.Saturation
import LogWatch.Proofs.Filter.Tiling
import LogWatch.Proofs.Time.Rendering
