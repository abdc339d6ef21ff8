import Chalk.Main
import Chalk.Proofs.Contract
import Chalk.Proofs.Write
import Chalk.Session
import Chalk.Text.Lines
import Chalk.Value.Inspect
import Chalk.Yaml.Cursor
import Chalk.Yaml.Scalar
import Chalk.Yaml.Token
import Chalk.Proofs.Evolution
import Chalk.Proofs.Evaluation
import Chalk.Proofs.Failure
import Chalk.Proofs.Lexical
import Chalk.Proofs.Scoping
import Chalk.Proofs.Checking
import Chalk.Proofs.Typing
import Chalk.Proofs.Reachable
import Chalk.Proofs.Comparison
import Chalk.Proofs.Containment
import Chalk.Proofs.Ending
import Chalk.Proofs.Bisimulation
import Chalk.Proofs.Symmetry
import Chalk.Proofs.Reading
import Chalk.Proofs.Precedence
import Chalk.Proofs.RoundTrip
import Chalk.Proofs.Grammar
import Chalk.Proofs.Acceptance
import Chalk.Proofs.Tiling
import Chalk.Proofs.Scanning
import Chalk.Proofs.Parallel.Tree
import Chalk.Proofs.Parallel.Reading
import Chalk.Proofs.Parallel.Store
import Chalk.Proofs.Parallel.Run
import Chalk.Proofs.Placement
import Chalk.Proofs.Independence
import Chalk.Proofs.Environment
import Chalk.Proofs.Composition
import Chalk.Proofs.Control
import Chalk.Proofs.Declaration
import Chalk.Proofs.Relocation
import Chalk.Proofs.Lookahead
import Chalk.Proofs.Boundary
import Chalk.Proofs.Junction
import Chalk.Proofs.Concatenation
import Chalk.Proofs.Script
import Chalk.Proofs.Script.Expression
import Chalk.Proofs.Script.Program
import Chalk.Proofs.Script.Moment
import Chalk.Proofs.Limits
import Chalk.Proofs.Fragment
import Chalk.Proofs.Fragment.Run
import Chalk.Proofs.Halting
import Chalk.Proofs.Naming
import Chalk.Proofs.Script.Creation
import Chalk.Proofs.Fragment.Moment
import Chalk.Proofs.Receiver
import Chalk.Proofs.Script.Text
import Chalk.Proofs.Occurrence
import Chalk.Proofs.Diagnosis
import Chalk.Proofs.Layout
import Chalk.Proofs.Nesting
import Chalk.Proofs.Descent
import Chalk.Proofs.Descent.Agreement
import Chalk.Proofs.Viability
import Chalk.Proofs.Viability.Grammar
import Chalk.Proofs.OffendingToken
import Chalk.Proofs.Stream
import Chalk.Proofs.Longest
import Chalk.Proofs.Spacing
import Chalk.Proofs.OrderedMap
import Chalk.Proofs.Transitivity
import Chalk.Proofs.MapEquality
import Chalk.Proofs.Unfolding
import Chalk.Proofs.Atomicity
import Chalk.Proofs.Progress
import Chalk.Proofs.Identity
import Chalk.Proofs.Nominal
