import CborPath.Cbor.Encoding
import CborPath.Engine.Session
import CborPath.Main
import CborPath.Query.Printer
import CborPath.Query.Scope
import CborPath.Tree.Cursor
import CborPath.Tree.Description
import CborPath.Proofs.Number.Binary64
import CborPath.Proofs.Number.Decimal
import CborPath.Proofs.Query.NodeSets
import CborPath.Proofs.Tree.Reading
import CborPath.Proofs.Tree.WellFormed
import CborPath.Proofs.Query.Failure
import CborPath.Proofs.Query.Composition
import CborPath.Proofs.Query.WalkOrder
import CborPath.Proofs.Query.NestingLimit
import CborPath.Proofs.Query.Lexeme
import CborPath.Proofs.Query.Writable
import CborPath.Proofs.Query.Reading
import CborPath.Proofs.Engine.Cache
import CborPath.Proofs.Engine.Session
import CborPath.Proofs.Engine.Replies
import CborPath.Proofs.Document.Rearrangement
import CborPath.Proofs.Tree.EntryOrder
import CborPath.Proofs.Tree.Text
import CborPath.Proofs.Query.Locality
import CborPath.Proofs.Cbor.Abreast
import CborPath.Proofs.Cbor.Endings
import CborPath.Proofs.Query.PlainText
import CborPath.Proofs.Text.Utf8
import CborPath.Proofs.Cbor.Taking
import CborPath.Proofs.Cbor.RoundTrip
import CborPath.Proofs.Query.Unions
import CborPath.Proofs.Query.PositionFree
import CborPath.Proofs.Query.Comparison
import CborPath.Proofs.Query.Positions
import CborPath.Proofs.Query.Descendants
import CborPath.Proofs.Query.Remainder
import CborPath.Proofs.Query.Rounds
import CborPath.Proofs.Query.Boundaries
import CborPath.Proofs.Query.Continuation
import CborPath.Proofs.Query.Settling
import CborPath.Proofs.Query.Steps
import CborPath.Proofs.Query.Accepted
import CborPath.Proofs.Query.Operands
import CborPath.Proofs.Query.Embedding
import CborPath.Proofs.Query.Grouping
import CborPath.Proofs.Query.Precedence
import CborPath.Proofs.Query.Building
import CborPath.Proofs.Query.Depth
import CborPath.Proofs.Query.Nesting
import CborPath.Proofs.Tree.Contents
import CborPath.Proofs.Query.Names
import CborPath.Proofs.Tree.Markup
import CborPath.Proofs.Tree.NumericLeaves
import CborPath.Proofs.Query.Scanning
import CborPath.Proofs.Query.Mirroring
import CborPath.Proofs.Query.Numerals
import CborPath.Proofs.Query.RoundFunction
import CborPath.Proofs.Number.Numeral
import CborPath.Proofs.Number.ExactValue
import CborPath.Proofs.Number.HalfUp
import CborPath.Proofs.Number.ReadBack
import CborPath.Proofs.Number.RoundedValue
import CborPath.Proofs.Query.Splitting
import CborPath.Proofs.Tree.Linking
import CborPath.Proofs.CommandLine.Conversions
import CborPath.Proofs.Query.Respacing
