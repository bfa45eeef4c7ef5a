import MarkupForms.Text.Blank
import MarkupForms.Text.Split
import MarkupForms.Text.Alphanumeric
import MarkupForms.Text.Quoted
import MarkupForms.Text.UpperCase
import MarkupForms.Decimal.Reading
import MarkupForms.Decimal.Shortest
import MarkupForms.Value.Same
import MarkupForms.Value.Print
import MarkupForms.Objects.Context
import MarkupForms.Objects.Search
import MarkupForms.Objects.Outline
import MarkupForms.Forms.Faces
import MarkupForms.Expression.Basic
import MarkupForms.Markup.Declaration
import MarkupForms.Markup.Attribute
import MarkupForms.Markup.Cursor
import MarkupForms.Hydration.Document
import MarkupForms.Showcase.Program
import MarkupForms.Accessors.Source
import MarkupForms.Main
import MarkupForms.Proofs.Markup.Feed
import MarkupForms.Proofs.Hydration.Evaluation
import MarkupForms.Proofs.Hydration.Streaming
import MarkupForms.Proofs.Hydration.Balance
import MarkupForms.Proofs.Hydration.Invariant
import MarkupForms.Proofs.Objects.Context
import MarkupForms.Proofs.Objects.Kinds
import MarkupForms.Proofs.Hydration.Assignment
import MarkupForms.Proofs.Hydration.KindSafety
import MarkupForms.Proofs.Hydration.Frame
import MarkupForms.Proofs.Hydration.Kept
import MarkupForms.Proofs.Objects.Search
import MarkupForms.Proofs.Hydration.Reading
import MarkupForms.Proofs.Hydration.Mirror
import MarkupForms.Proofs.Accessors.Scan
import MarkupForms.Proofs.Accessors.Lookup
import MarkupForms.Proofs.Expression.Grammar
import MarkupForms.Proofs.Hydration.Isolation
import MarkupForms.Proofs.Hydration.Growth
import MarkupForms.Proofs.Objects.ObjectFree
import MarkupForms.Proofs.Objects.Traversal
import MarkupForms.Proofs.Objects.Rows
import MarkupForms.Proofs.Objects.WalkOnce
import MarkupForms.Proofs.Hydration.TreeShape
import MarkupForms.Proofs.Objects.Given
import MarkupForms.Proofs.Objects.Calm
import MarkupForms.Proofs.Objects.Settled
import MarkupForms.Proofs.Objects.Propagation
import MarkupForms.Proofs.Objects.ContextSet
import MarkupForms.Proofs.Markup.Scoping
import MarkupForms.Proofs.Markup.Recovery
import MarkupForms.Proofs.Objects.RowWalk
import MarkupForms.Proofs.Hydration.RowIsolation
import MarkupForms.Proofs.Types.Consistency
import MarkupForms.Proofs.Hydration.Stability
import MarkupForms.Proofs.Accessors.Prefixes
import MarkupForms.Proofs.Accessors.Completeness
import MarkupForms.Proofs.Accessors.Identifier
import MarkupForms.Proofs.CommandLine.Batch
import MarkupForms.Proofs.Hydration.Atomicity
import MarkupForms.Proofs.Hydration.Bystanders
import MarkupForms.Proofs.Hydration.LastWrite
import MarkupForms.Proofs.Markup.Pieces
import MarkupForms.Proofs.Markup.Interruption
import MarkupForms.Proofs.Hydration.Interruption
import MarkupForms.Proofs.Accessors.Asides
import MarkupForms.Proofs.Types.Declared
import MarkupForms.Proofs.Hydration.Chronicle
import MarkupForms.Proofs.Hydration.Ledger
import MarkupForms.Proofs.Hydration.Resources
import MarkupForms.Proofs.Hydration.Children
import MarkupForms.Proofs.Hydration.Resolution
import MarkupForms.Proofs.Objects.QueueSearch
import MarkupForms.Proofs.Objects.ContextSequence
import MarkupForms.Proofs.Hydration.RowStamping
import MarkupForms.Proofs.Forms.PlainProperties
import MarkupForms.Proofs.Hydration.PropertyValue
import MarkupForms.Proofs.Hydration.AttributeOrder
import MarkupForms.Proofs.Markup.EmptyElement
import MarkupForms.Proofs.Accessors.EmptyElement
import MarkupForms.Proofs.Accessors.FieldList
import MarkupForms.Proofs.Accessors.ClassName
import MarkupForms.Proofs.Accessors.TypePath
import MarkupForms.Proofs.Accessors.Folding
import MarkupForms.Proofs.Markup.Offsets
import MarkupForms.Proofs.Markup.Position
import MarkupForms.Proofs.Markup.Loops
import MarkupForms.Proofs.Hydration.Loops
import MarkupForms.Proofs.Accessors.Loops
