import Receipt.Text.Ranges
import Receipt.Text.Letter
import Receipt.Text.Digit
import Receipt.Text.Word
import Receipt.Text.Blank
import Receipt.Text.Printable
import Receipt.Text.Split
import Receipt.Text.Hex
import Receipt.Text.Quoted
import Receipt.Text.Utf8
import Receipt.Text.Base64
import Receipt.Number.Double
import Receipt.Number.Shortest
import Receipt.Number.Reader
import Receipt.Time.Calendar
import Receipt.Time.Moment
import Receipt.Time.Zone
import Receipt.Time.Pattern
import Receipt.Value.Basic
import Receipt.Host
import Receipt.Value.Literal
import Receipt.Json.Writer
import Receipt.Value.Printed
import Receipt.Json.Reader
import Receipt.Time.Epoch
import Receipt.Time.Lexeme
import Receipt.Time.Reader
import Receipt.Template.Path
import Receipt.Template.Operator
import Receipt.Template.Pipeline
import Receipt.Template.Token
import Receipt.Template.Expand
import Receipt.Settings
import Receipt.Layout.Row
import Receipt.Layout.Registry
import Receipt.Element
import Receipt.Compose
import Receipt.Build
import Receipt.Codec.Varint
import Receipt.Codec.Chunk
import Receipt.Codec.Item
import Receipt.Codec.Format
import Receipt.Codec.Envelope
import Receipt.Yaml.Scalar
import Receipt.Yaml.Cursor
import Receipt.Yaml.Problem
import Receipt.Yaml.Node
import Receipt.Yaml.Token
import Receipt.Yaml.Reader
import Receipt.Command.Disk
import Receipt.Command.Document
import Receipt.Command.Failure
import Receipt.Command.Request
import Receipt.Command.Output
import Receipt.Command.Batch
import Receipt.Command.Run
import Receipt.Command.Options
import Receipt.Host.Standard
import Receipt.Main
import Receipt.Proofs.Text.Utf8
import Receipt.Proofs.Codec.Varint
import Receipt.Proofs.Codec.Chunk
import Receipt.Proofs.Codec.Frames
import Receipt.Proofs.Codec.Item
import Receipt.Proofs.Codec.Normal
import Receipt.Proofs.Value.Literal
import Receipt.Proofs.Codec.RoundTrip
import Receipt.Proofs.Codec.Inserted
import Receipt.Proofs.Json.Reader
import Receipt.Proofs.Codec.Decoded
import Receipt.Proofs.Layout.Registry
import Receipt.Proofs.Compose.Within
import Receipt.Proofs.Compose.Agreement
import Receipt.Proofs.Compose.TwoRuns
import Receipt.Proofs.Compose.Paths
import Receipt.Proofs.Compose.Reachable
import Receipt.Proofs.Compose.Termination
import Receipt.Proofs.Compose.Circle
import Receipt.Proofs.Compose.Guards
import Receipt.Proofs.Compose.Inline
import Receipt.Proofs.Template.Grammar
import Receipt.Proofs.Command.Batch
import Receipt.Proofs.Command.OutputNames
import Receipt.Proofs.Command.Escapes
import Receipt.Proofs.Number.Limit
import Receipt.Proofs.Number.Numeral
import Receipt.Proofs.Json.Number
import Receipt.Proofs.Json.Text
import Receipt.Proofs.Json.Written
import Receipt.Proofs.Codec.Accepted
import Receipt.Proofs.Codec.Outline
import Receipt.Proofs.Codec.Truncated
import Receipt.Proofs.Element
import Receipt.Proofs.Layout.Row
import Receipt.Proofs.Compose.Composed
import Receipt.Proofs.Codec.Elements
import Receipt.Proofs.Text.Base64
import Receipt.Proofs.Command.Decode
import Receipt.Proofs.Command.Failure
import Receipt.Proofs.Command.Places
import Receipt.Proofs.Command.Schedule
import Receipt.Proofs.Command.Serial
import Receipt.Proofs.Command.Apart
import Receipt.Proofs.Compose.OwnName
import Receipt.Proofs.Command.Session
import Receipt.Proofs.Compose.Ring
import Receipt.Proofs.Layout.Fault
import Receipt.Proofs.Codec.Objects
import Receipt.Proofs.Codec.Refused
import Receipt.Proofs.Codec.Envelope
import Receipt.Proofs.Command.Untouched
import Receipt.Proofs.Text.Trim
import Receipt.Proofs.Compose.Splicing
import Receipt.Proofs.Template.Seam
import Receipt.Proofs.Template.Operations
import Receipt.Proofs.Number.Leading
import Receipt.Proofs.Template.Filling
import Receipt.Proofs.Template.Quoted
import Receipt.Proofs.Time.Calendar
import Receipt.Proofs.Number.Whole
import Receipt.Proofs.Time.Moment
import Receipt.Proofs.Time.Epoch
import Receipt.Proofs.Time.Pattern
import Receipt.Proofs.Template.Moments
import Receipt.Proofs.Template.Width
import Receipt.Proofs.Codec.Groups
import Receipt.Proofs.Template.Session
import Receipt.Proofs.Template.Unseen
import Receipt.Proofs.Template.Path
