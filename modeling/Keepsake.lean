import Keepsake.Backup
import Keepsake.Backup.Name
import Keepsake.Codec
import Keepsake.CommandLine
import Keepsake.CommandLine.Arguments
import Keepsake.CommandLine.Size
import Keepsake.Disk
import Keepsake.Engine
import Keepsake.Engine.Load
import Keepsake.Engine.Save
import Keepsake.Failure
import Keepsake.Json.Number
import Keepsake.Json.Reader
import Keepsake.Json.Text
import Keepsake.Json.Token
import Keepsake.Json.Writer
import Keepsake.Log
import Keepsake.Log.Filter
import Keepsake.Log.Sink
import Keepsake.Main
import Keepsake.Metrics
import Keepsake.NameMap
import Keepsake.Number.Binary64
import Keepsake.Number.Decimal
import Keepsake.Number.Layout
import Keepsake.Number.Shortest
import Keepsake.Number.Whole
import Keepsake.Outcome
import Keepsake.Proofs.Act
import Keepsake.Proofs.Agreement
import Keepsake.Proofs.AllOrNothing
import Keepsake.Proofs.BackupFolder
import Keepsake.Proofs.BackupList
import Keepsake.Proofs.BackupListing
import Keepsake.Proofs.BackupName
import Keepsake.Proofs.BackupOrder
import Keepsake.Proofs.BackupSpelling
import Keepsake.Proofs.ByteOrder
import Keepsake.Proofs.CellKind
import Keepsake.Proofs.Cells
import Keepsake.Proofs.Collision
import Keepsake.Proofs.Content
import Keepsake.Proofs.Course
import Keepsake.Proofs.Disabled
import Keepsake.Proofs.Encoding
import Keepsake.Proofs.Entry
import Keepsake.Proofs.FileNames
import Keepsake.Proofs.Flush
import Keepsake.Proofs.FreeName
import Keepsake.Proofs.Isolation
import Keepsake.Proofs.Json.Document
import Keepsake.Proofs.Json.Float
import Keepsake.Proofs.Json.Kept
import Keepsake.Proofs.Json.Literal
import Keepsake.Proofs.Json.Number
import Keepsake.Proofs.Json.Text
import Keepsake.Proofs.LastSave
import Keepsake.Proofs.LoadIsolation
import Keepsake.Proofs.LoadReport
import Keepsake.Proofs.Moment
import Keepsake.Proofs.Name
import Keepsake.Proofs.NameSpace
import Keepsake.Proofs.Neighbour
import Keepsake.Proofs.NextBackup
import Keepsake.Proofs.Number.Digits
import Keepsake.Proofs.Number.Nearest
import Keepsake.Proofs.Number.Rounding
import Keepsake.Proofs.Number.Shortest
import Keepsake.Proofs.Operation
import Keepsake.Proofs.Pass
import Keepsake.Proofs.Period
import Keepsake.Proofs.Prune
import Keepsake.Proofs.PruneFront
import Keepsake.Proofs.Puts
import Keepsake.Proofs.Reading
import Keepsake.Proofs.Registration
import Keepsake.Proofs.Restart
import Keepsake.Proofs.Restore
import Keepsake.Proofs.Rows
import Keepsake.Proofs.SavedNames
import Keepsake.Proofs.Schedule
import Keepsake.Proofs.Staging
import Keepsake.Proofs.Sweep
import Keepsake.Proofs.Tally
import Keepsake.Proofs.Temporary
import Keepsake.Proofs.Tick
import Keepsake.Proofs.Turn
import Keepsake.Proofs.Unchanged
import Keepsake.Proofs.Version
import Keepsake.Proofs.Yaml.Allowed
import Keepsake.Proofs.Yaml.Document
import Keepsake.Proofs.Yaml.EntryLine
import Keepsake.Proofs.Yaml.Folding
import Keepsake.Proofs.Yaml.Kept
import Keepsake.Proofs.Yaml.Line
import Keepsake.Proofs.Yaml.Number
import Keepsake.Proofs.Yaml.Numeric
import Keepsake.Proofs.Yaml.Plain
import Keepsake.Proofs.Yaml.Quoted
import Keepsake.Proofs.Yaml.Row
import Keepsake.Proofs.Yaml.Scalar
import Keepsake.Proofs.Yaml.Standing
import Keepsake.Proofs.Yaml.Written
import Keepsake.Registry
import Keepsake.SaveFile
import Keepsake.Settings
import Keepsake.Settings.Document
import Keepsake.Snapshot
import Keepsake.Stamp
import Keepsake.Storage
import Keepsake.Text.Blank
import Keepsake.Text.Columns
import Keepsake.Text.Hex
import Keepsake.Text.Invisible
import Keepsake.Text.Quoted
import Keepsake.Text.Table
import Keepsake.Text.Width
import Keepsake.Toml.Item
import Keepsake.Toml.Number
import Keepsake.Toml.Reader
import Keepsake.Toml.Text
import Keepsake.Value
import Keepsake.Variable
import Keepsake.Variable.Cell
import Keepsake.Variable.Record
import Keepsake.Variable.Shelf
import Keepsake.Worker
import Keepsake.World
import Keepsake.Yaml.BlockScalar
import Keepsake.Yaml.Chars
import Keepsake.Yaml.Event
import Keepsake.Yaml.Flow
import Keepsake.Yaml.Folding
import Keepsake.Yaml.Reader
import Keepsake.Yaml.Scalar
import Keepsake.Yaml.Tag
import Keepsake.Yaml.Token
import Keepsake.Yaml.Writer
