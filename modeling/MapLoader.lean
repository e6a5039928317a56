import MapLoader.Command.Error
import MapLoader.Command.Line
import MapLoader.Command.Run
import MapLoader.Config.Arguments
import MapLoader.Config.Layers
import MapLoader.Config.Setting
import MapLoader.Config.Settings
import MapLoader.Config.Toml.Document
import MapLoader.Config.Toml.Scalar
import MapLoader.Config.Toml.Text
import MapLoader.Config.Toml.Tree
import MapLoader.Config.Variable
import MapLoader.Database.Basic
import MapLoader.Database.Cell
import MapLoader.Database.Draft
import MapLoader.Database.Error
import MapLoader.Database.Schema
import MapLoader.Database.Script
import MapLoader.Duration
import MapLoader.Element
import MapLoader.Extract.Blob
import MapLoader.Extract.Element
import MapLoader.Extract.Malformed
import MapLoader.Extract.Message
import MapLoader.Extract.Record
import MapLoader.Extract.Stream
import MapLoader.Files.Path
import MapLoader.Files.Tree
import MapLoader.Flate.Bits
import MapLoader.Flate.Huffman
import MapLoader.Flate.Inflate
import MapLoader.Load.Accumulator
import MapLoader.Load.Buffers
import MapLoader.Load.Counters
import MapLoader.Load.Extract
import MapLoader.Load.Filter
import MapLoader.Load.Handover
import MapLoader.Load.Ingest
import MapLoader.Load.Thresholds
import MapLoader.Main
import MapLoader.Notice
import MapLoader.Number.Binary64
import MapLoader.Number.Numeral
import MapLoader.Number.Shortest
import MapLoader.Number.Width
import MapLoader.Proofs.Load.Completeness
import MapLoader.Proofs.Load.Lockstep
import MapLoader.Proofs.Load.Monitor
import MapLoader.Proofs.Load.Moves
import MapLoader.Proofs.Session.Lockstep
import MapLoader.Proofs.Session.Monitor
import MapLoader.Proofs.Store.Faults
import MapLoader.Proofs.Store.Lockstep
import MapLoader.Proofs.Store.Monitor
import MapLoader.Proofs.Store.Transactions
import MapLoader.Report
import MapLoader.Row
import MapLoader.Session.Basic
import MapLoader.Session.Batch
import MapLoader.Session.Error
import MapLoader.SortedMap
import MapLoader.SortedMap.Lemmas
import MapLoader.Store.Basic
import MapLoader.Store.DatabaseFile
import MapLoader.Store.Error
import MapLoader.Store.Faulty
import MapLoader.Store.Memory
import MapLoader.Store.Relational
import MapLoader.Table
import MapLoader.Text.Blank
import MapLoader.Text.Invisible
import MapLoader.Text.Json
import MapLoader.Text.Quoted
import MapLoader.Text.Utf8
import MapLoader.Wire.Field
import MapLoader.Wire.Varint
import MapLoader.Proofs.Session.Ledger
import MapLoader.Proofs.Session.Refinement
import MapLoader.Proofs.Load.Bookkeeping
import MapLoader.Proofs.Load.Conservation
import MapLoader.Proofs.Load.Content
import MapLoader.Proofs.Load.Exactness
import MapLoader.Proofs.Load.Metering
import MapLoader.Proofs.Load.Reckoning
import MapLoader.Proofs.Session.Fate
import MapLoader.Proofs.Load.Windows
import MapLoader.Proofs.Load.Handover
import MapLoader.Proofs.Load.Lists
import MapLoader.Proofs.Database.Insertion
import MapLoader.Proofs.Database.Calls
import MapLoader.Proofs.Database.Fit
import MapLoader.Proofs.Files.Tree
import MapLoader.Proofs.Store.DatabaseFile
import MapLoader.Proofs.Store.Twins
import MapLoader.Proofs.Load.Mirror
import MapLoader.Proofs.Load.Connections
import MapLoader.Proofs.Load.Recovery
import MapLoader.Proofs.Load.Rows
import MapLoader.Proofs.Load.Interruption
import MapLoader.Proofs.Load.Extract
import MapLoader.Proofs.Load.Append
import MapLoader.Proofs.Command.Run
import MapLoader.Proofs.Load.Outcomes
import MapLoader.Proofs.Load.Cuts
import MapLoader.Proofs.Load.Pacing
import MapLoader.Proofs.Store.Transcript
import MapLoader.Proofs.Load.Filtering
import MapLoader.Proofs.Text.Grammar
import MapLoader.Proofs.Text.Json
import MapLoader.Proofs.Text.Utf8
import MapLoader.Proofs.Extract.References
import MapLoader.Proofs.Load.Authors
import MapLoader.Proofs.Files.Directories
import MapLoader.Proofs.Store.Directory
import MapLoader.Proofs.Database.Atomicity
import MapLoader.Proofs.Text.Blank
import MapLoader.Proofs.Config.Settings
import MapLoader.Proofs.Extract.Encoding
import MapLoader.Proofs.Session.Listing
import MapLoader.Proofs.Session.Database
import MapLoader.Proofs.Session.Recall
