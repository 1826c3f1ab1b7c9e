import Hypermark.Decimal.Shortest
import Hypermark.Hast.Edit
import Hypermark.Mdast.Edit
import Hypermark.Mdast.Printer
import Hypermark.Options.Reader
import Hypermark.Processor
import Hypermark.Text.Replace
import Hypermark.Proofs.Json.Parts
import Hypermark.Proofs.Json.ReadBack
import Hypermark.Proofs.Json.ReadOrder
import Hypermark.Proofs.Hast.Fields
import Hypermark.Proofs.Hast.Position
import Hypermark.Proofs.Hast.Codec
import Hypermark.Proofs.Diagram.Search
import Hypermark.Proofs.Diagram.Values
import Hypermark.Proofs.Diagram.Reach
import Hypermark.Proofs.Diagram.Frame
import Hypermark.Proofs.Diagram.Texts
import Hypermark.Proofs.Diagram.Local
import Hypermark.Proofs.Hast.Grammar
import Hypermark.Proofs.Conversion.Made
import Hypermark.Proofs.Conversion.Related
import Hypermark.Proofs.Conversion.Marked
import Hypermark.Proofs.Conversion.Canonical
import Hypermark.Proofs.Hast.Built
import Hypermark.Proofs.Html.Token
import Hypermark.Proofs.Html.ReadBack
import Hypermark.Proofs.Html.Nesting
import Hypermark.Proofs.Conversion.Allowed
import Hypermark.Proofs.Hast.NormalForm
import Hypermark.Proofs.Decimal.Rounding
import Hypermark.Proofs.Decimal.Shortest
import Hypermark.Proofs.Json.ReadNumber
import Hypermark.Proofs.Json.Fits
import Hypermark.Proofs.Json.ReadDepth
import Hypermark.Proofs.Hast.Reread
import Hypermark.Proofs.Hast.Room
import Hypermark.Proofs.Diagram.Room
import Hypermark.Proofs.Diagram.Commute
import Hypermark.Proofs.Conversion.Gathered
import Hypermark.Proofs.Conversion.Content
import Hypermark.Proofs.Conversion.Erased
import Hypermark.Proofs.Preorder
import Hypermark.Proofs.Conversion.Positions
import Hypermark.Proofs.Conversion.Tasks
import Hypermark.Proofs.Conversion.Grid
import Hypermark.Proofs.Html.Classes
import Hypermark.Proofs.Hast.Same
import Hypermark.Proofs.Diagram.Verdict
import Hypermark.Proofs.Conversion.Records
import Hypermark.Proofs.Html.Comments
import Hypermark.Proofs.Json.StringText
import Hypermark.Proofs.Json.ValueText
import Hypermark.Proofs.Json.ReadRecord
import Hypermark.Proofs.Options.Spellings
import Hypermark.Proofs.Html.AttributeName
