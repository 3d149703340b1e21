import TypeLang.Text.Pieces
import TypeLang.Text.Blank
import TypeLang.Text.Numeral
import TypeLang.Checksum.Crc32
import TypeLang.Checksum.Adler32
import TypeLang.Log
import TypeLang.Text.Letters
import TypeLang.Text.Controls
import TypeLang.Pattern.CharSet
import TypeLang.Pattern.Basic
import TypeLang.Pattern.Fault
import TypeLang.Pattern.Written
import TypeLang.Pattern.Reader
import TypeLang.Pattern.Token
import TypeLang.Pattern.Brackets
import TypeLang.Pattern.Groups
import TypeLang.Pattern.Meaning
import TypeLang.Pattern.Parse
import TypeLang.Log.Filter
import TypeLang.Kind
import TypeLang.Decl.Fault
import TypeLang.Decl.TypeExpr
import TypeLang.Decl.Param
import TypeLang.Decl.Basic
import TypeLang.Decl.Hash
import TypeLang.Decl.Source
import TypeLang.Dict
import TypeLang.Schema.Ty
import TypeLang.Schema.Fault
import TypeLang.Schema.Entry
import TypeLang.Schema.Basic
import TypeLang.Schema.Layered
import TypeLang.Schema.Groups
import TypeLang.Schema.Merge
import TypeLang.Schema.Diff
import TypeLang.Schema.Packed
import TypeLang.Json.Tree
import TypeLang.Json.Outline
import TypeLang.Command.Resolver
import TypeLang.Block
import TypeLang.Decimal.Double
import TypeLang.Decimal.Shortest
import TypeLang.Decimal.Layout
import TypeLang.Text.Hidden
import TypeLang.Text.Quoted
import TypeLang.Text.Nested
import TypeLang.Value.Basic
import TypeLang.Value.Render
import TypeLang.Wire.LittleEndian
import TypeLang.Wire.Fault
import TypeLang.Wire.Cursor
import TypeLang.Wire.Primitive
import TypeLang.Deflate.Bits
import TypeLang.Deflate.Huffman
import TypeLang.Deflate.Inflate
import TypeLang.Deflate.Container
import TypeLang.Codec.Plan
import TypeLang.Codec.Width
import TypeLang.Codec.Basic
import TypeLang.Codec.Decode
import TypeLang.Codec.Encode
import TypeLang.Codec.Stream
import TypeLang.Command.Args
import TypeLang.Command.Report
import TypeLang.Command.Run
import TypeLang.Main
import TypeLang.Proofs.Read.Takes
import TypeLang.Proofs.Read.Primitive
import TypeLang.Proofs.Codec.Compiled
import TypeLang.Proofs.Codec.Readers
import TypeLang.Proofs.Codec.Width
import TypeLang.Proofs.Codec.Framing
import TypeLang.Proofs.Codec.Body
import TypeLang.Proofs.Codec.InStep
import TypeLang.Proofs.Codec.Normal
import TypeLang.Proofs.Codec.RoundTrip
import TypeLang.Proofs.Codec.Reencode
import TypeLang.Proofs.Codec.Levels
import TypeLang.Proofs.Codec.Guard
import TypeLang.Proofs.Codec.Limits
import TypeLang.Proofs.Codec.Appending
import TypeLang.Proofs.Codec.Nesting
import TypeLang.Proofs.Read.Ahead
import TypeLang.Proofs.Codec.Ahead
import TypeLang.Proofs.Codec.Packed
import TypeLang.Proofs.Codec.Agreement
import TypeLang.Proofs.Codec.Conforms
import TypeLang.Proofs.Decl.Guarded
import TypeLang.Proofs.Schema.Guards
import TypeLang.Proofs.Codec.Plannable
import TypeLang.Proofs.Merge.Newest
import TypeLang.Proofs.Schema.Rebuild
import TypeLang.Proofs.Merge.Course
import TypeLang.Proofs.Merge.Outcome
import TypeLang.Proofs.Merge.Strict
import TypeLang.Proofs.Merge.Order
import TypeLang.Proofs.Json.Scalar
import TypeLang.Proofs.Json.Reread
import TypeLang.Proofs.Text.Pieces
import TypeLang.Proofs.Decl.Expr
import TypeLang.Proofs.Schema.Legible
import TypeLang.Proofs.Schema.Packed
import TypeLang.Proofs.Schema.Interchange
import TypeLang.Proofs.Int32
import TypeLang.Proofs.Schema.Clash
import TypeLang.Proofs.Schema.Lookups
import TypeLang.Proofs.Diff.Matching
import TypeLang.Proofs.Diff.Entries
import TypeLang.Proofs.Diff.Unions
import TypeLang.Proofs.Diff.Exact
import TypeLang.Proofs.Decl.Attribution
import TypeLang.Proofs.Codec.Onward
import TypeLang.Proofs.Codec.Stream
import TypeLang.Proofs.Command.Decode
import TypeLang.Proofs.Read.Bytes
import TypeLang.Proofs.Codec.Aligned
import TypeLang.Proofs.Codec.WellFormed
import TypeLang.Proofs.Codec.InRange
import TypeLang.Proofs.Codec.Results
import TypeLang.Proofs.Decl.Closed
import TypeLang.Proofs.Decl.RoundTrip
import TypeLang.Proofs.Schema.Resolved
import TypeLang.Proofs.Codec.Bareness
import TypeLang.Proofs.Schema.Syntax
import TypeLang.Proofs.Schema.Repack
import TypeLang.Proofs.Diff.Mirror
import TypeLang.Proofs.Diff.Same
import TypeLang.Proofs.Decl.Spacing
import TypeLang.Proofs.Codec.Settled
import TypeLang.Proofs.Read.Inside
import TypeLang.Proofs.Command.Prompt
