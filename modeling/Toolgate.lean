import Toolgate.Call.Assembly
import Toolgate.Call.Outcome
import Toolgate.Call.Redaction
import Toolgate.Call.Template
import Toolgate.Catalog.Compile
import Toolgate.Catalog.Endpoint
import Toolgate.Catalog.Operation
import Toolgate.Catalog.Slot
import Toolgate.Decimal.Binary
import Toolgate.Decimal.Integer
import Toolgate.Decimal.Notation
import Toolgate.Decimal.Reading
import Toolgate.Decimal.Shortest
import Toolgate.Http.Client
import Toolgate.Http.Response
import Toolgate.Http.Target
import Toolgate.Http.Url
import Toolgate.Json.Basic
import Toolgate.Json.Display
import Toolgate.Json.Loaded
import Toolgate.Json.Pointer
import Toolgate.Json.Printer
import Toolgate.Json.Reader
import Toolgate.Launch
import Toolgate.Main
import Toolgate.Naming.Attribute
import Toolgate.Naming.Names
import Toolgate.Naming.Slug
import Toolgate.Pacing.Bucket
import Toolgate.Pacing.Gate
import Toolgate.Pacing.Rate
import Toolgate.Pattern.Basic
import Toolgate.Pattern.Escape
import Toolgate.Pattern.Groups
import Toolgate.Pattern.Match
import Toolgate.Pattern.Reader
import Toolgate.Pattern.Switches
import Toolgate.Proofs.Call.Assembly
import Toolgate.Proofs.Call.Redaction
import Toolgate.Proofs.Call.Template
import Toolgate.Proofs.Catalog.Distinct
import Toolgate.Proofs.Catalog.Faults
import Toolgate.Proofs.Catalog.Growth
import Toolgate.Proofs.Catalog.Parameters
import Toolgate.Proofs.Catalog.Referred
import Toolgate.Proofs.Catalog.Registration
import Toolgate.Proofs.Catalog.Resources
import Toolgate.Proofs.Catalog.Restriction
import Toolgate.Proofs.Catalog.Routing
import Toolgate.Proofs.Catalog.Slots
import Toolgate.Proofs.Catalog.Tags
import Toolgate.Proofs.Decimal.Bits
import Toolgate.Proofs.Decimal.Digits
import Toolgate.Proofs.Decimal.Nearest
import Toolgate.Proofs.Decimal.Numeral
import Toolgate.Proofs.Decimal.Rounding
import Toolgate.Proofs.Decimal.Shortest
import Toolgate.Proofs.Http.Address
import Toolgate.Proofs.Http.Body
import Toolgate.Proofs.Http.Query
import Toolgate.Proofs.Http.Substitution
import Toolgate.Proofs.Http.Target
import Toolgate.Proofs.Json.Fields
import Toolgate.Proofs.Json.Numbers
import Toolgate.Proofs.Json.Pointer
import Toolgate.Proofs.Json.Proper
import Toolgate.Proofs.Json.Readable
import Toolgate.Proofs.Json.RoundTrip
import Toolgate.Proofs.Json.Strings
import Toolgate.Proofs.Naming.Attribute
import Toolgate.Proofs.Naming.Distinct
import Toolgate.Proofs.Naming.NormalForm
import Toolgate.Proofs.Naming.Slug
import Toolgate.Proofs.Pacing.Acquire
import Toolgate.Proofs.Pacing.Balance
import Toolgate.Proofs.Pacing.Gate
import Toolgate.Proofs.Pacing.Ideal
import Toolgate.Proofs.Pacing.Window
import Toolgate.Proofs.Pattern.Row
import Toolgate.Proofs.Result
import Toolgate.Proofs.Schema.Advert
import Toolgate.Proofs.Schema.Akin
import Toolgate.Proofs.Schema.Alike
import Toolgate.Proofs.Schema.Bounds
import Toolgate.Proofs.Schema.Complaint
import Toolgate.Proofs.Schema.Dates
import Toolgate.Proofs.Schema.Definite
import Toolgate.Proofs.Schema.Document
import Toolgate.Proofs.Schema.Expansion
import Toolgate.Proofs.Schema.Faults
import Toolgate.Proofs.Schema.Forms
import Toolgate.Proofs.Schema.Keys
import Toolgate.Proofs.Schema.Linked
import Toolgate.Proofs.Schema.Members
import Toolgate.Proofs.Schema.Merged
import Toolgate.Proofs.Schema.Missing
import Toolgate.Proofs.Schema.Network
import Toolgate.Proofs.Schema.Nullable
import Toolgate.Proofs.Schema.Object
import Toolgate.Proofs.Schema.Places
import Toolgate.Proofs.Schema.Record
import Toolgate.Proofs.Schema.RecordNames
import Toolgate.Proofs.Schema.References
import Toolgate.Proofs.Schema.Sameness
import Toolgate.Proofs.Schema.Stable
import Toolgate.Proofs.Schema.Standing
import Toolgate.Proofs.Schema.Termination
import Toolgate.Proofs.Schema.Transparent
import Toolgate.Proofs.Schema.Union
import Toolgate.Proofs.Schema.Unnamed
import Toolgate.Proofs.Server.Description
import Toolgate.Proofs.Server.Front
import Toolgate.Proofs.Service.Advertised
import Toolgate.Proofs.Service.Agreement
import Toolgate.Proofs.Service.Arguments
import Toolgate.Proofs.Service.Keys
import Toolgate.Proofs.Service.Payload
import Toolgate.Proofs.Service.Payment
import Toolgate.Proofs.Service.Recheck
import Toolgate.Proofs.Service.Report
import Toolgate.Proofs.Service.Session
import Toolgate.Proofs.Service.Target
import Toolgate.Proofs.Spec.Loading
import Toolgate.Proofs.Spec.Session
import Toolgate.Proofs.Text.Case
import Toolgate.Proofs.Text.Percent
import Toolgate.Proofs.Text.Pieces
import Toolgate.Proofs.Text.Timestamp
import Toolgate.Proofs.Text.Trim
import Toolgate.Proofs.Yaml.Faults
import Toolgate.Schema.Accept
import Toolgate.Schema.Advert
import Toolgate.Schema.Complaint
import Toolgate.Schema.Description
import Toolgate.Schema.Form
import Toolgate.Schema.Lax
import Toolgate.Schema.Shape
import Toolgate.Schema.Translation
import Toolgate.Server.Front
import Toolgate.Server.Offer
import Toolgate.Service.Invoke
import Toolgate.Service.Session
import Toolgate.Settings
import Toolgate.Spec.Session
import Toolgate.Spec.Store
import Toolgate.Text.Case
import Toolgate.Text.CaseTable
import Toolgate.Text.Class
import Toolgate.Text.ClassTable
import Toolgate.Text.Edit
import Toolgate.Text.Encoding
import Toolgate.Text.Percent
import Toolgate.Text.Quoted
import Toolgate.Text.Timestamp
import Toolgate.Yaml.BlockScalar
import Toolgate.Yaml.Cursor
import Toolgate.Yaml.Fault
import Toolgate.Yaml.Folding
import Toolgate.Yaml.Lexer
import Toolgate.Yaml.Meaning
import Toolgate.Yaml.PlainScalar
import Toolgate.Yaml.QuotedScalar
import Toolgate.Yaml.Tag
import Toolgate.Yaml.Timestamp
import Toolgate.Yaml.Token
import Toolgate.Yaml.Tree
import Toolgate.Yaml.Value
