import Stencil.Main
import Stencil.Parsing.Move
import Stencil.Value.Encode
import Stencil.Proofs.Grouping
import Stencil.Proofs.Reading
import Stencil.Proofs.Spelling
import Stencil.Proofs.Layout
import Stencil.Proofs.Numeral
import Stencil.Proofs.PrimaryReader
import Stencil.Proofs.ExprReader
import Stencil.Proofs.ChainReader
import Stencil.Proofs.ReadBack
import Stencil.Proofs.NodeReader
import Stencil.Proofs.Condition
import Stencil.Proofs.Scopes
import Stencil.Proofs.Effects
import Stencil.Proofs.HeadReader
import Stencil.Proofs.Outline
import Stencil.Proofs.Fragments
import Stencil.Proofs.FragmentReader
import Stencil.Proofs.Nesting
import Stencil.Proofs.Consuming
import Stencil.Proofs.Grammar
import Stencil.Proofs.ExprForms
import Stencil.Proofs.Inert
import Stencil.Proofs.Supported
import Stencil.Proofs.ExprMoving
import Stencil.Proofs.Joining
import Stencil.Proofs.Quoting
import Stencil.Proofs.Composition
import Stencil.Proofs.Mentions
import Stencil.Proofs.Extent
import Stencil.Proofs.NodeExtent
import Stencil.Proofs.Placement
import Stencil.Proofs.Diagnostics
import Stencil.Proofs.Scanner
import Stencil.Proofs.ScanOperand
import Stencil.Proofs.ScanChain
import Stencil.Proofs.ScanNode
import Stencil.Proofs.Steady
import Stencil.Proofs.Climbing
import Stencil.Proofs.FlatArithmetic
import Stencil.Proofs.Silence
import Stencil.Proofs.ArithmeticReader
import Stencil.Proofs.Gaps
import Stencil.Proofs.Gathering
import Stencil.Proofs.Ink
import Stencil.Proofs.Ranges
import Stencil.Proofs.Iteration
import Stencil.Proofs.LoopSplitting
import Stencil.Proofs.JoinedLists
import Stencil.Proofs.Branching
import Stencil.Proofs.MethodCalls
import Stencil.Proofs.IntegerOperators
import Stencil.Proofs.SortedEntries
import Stencil.Proofs.Equality
import Stencil.Proofs.Containers
import Stencil.Proofs.Persistence
import Stencil.Proofs.Connectives
import Stencil.Proofs.OpaqueRegions
import Stencil.Proofs.ArgumentLists
import Stencil.Proofs.Violations
import Stencil.Proofs.MacroCalls
import Stencil.Proofs.SortedDocuments
import Stencil.Proofs.OptionGroups
import Stencil.Proofs.DocumentConversion
import Stencil.Proofs.RenderCommand
import Stencil.Proofs.Assignments
import Stencil.Proofs.Stepping
