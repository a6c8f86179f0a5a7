import Flowgraph.Main
import Flowgraph.Fragment.Reachable
import Flowgraph.Machine.Register
import Flowgraph.Proofs.Fragment.Associativity
import Flowgraph.Proofs.Fragment.Monoid
import Flowgraph.Proofs.Raw.Plan
import Flowgraph.Proofs.Run.Chain
import Flowgraph.Proofs.Run.Feedback
import Flowgraph.Proofs.Run.SideBySide
import Flowgraph.Proofs.Run.Sliding
import Flowgraph.Proofs.Fragment.Superposition
import Flowgraph.Proofs.Fragment.Reachable
import Flowgraph.Proofs.Run.Hidden
import Flowgraph.Proofs.Fragment.Exchange
import Flowgraph.Proofs.Run.Relabel
import Flowgraph.Proofs.Fragment.Exploration
import Flowgraph.Proofs.Run.Interface
import Flowgraph.Proofs.Run.Reachable
import Flowgraph.Proofs.Draft.Assemble
import Flowgraph.Proofs.Draft.Calls
import Flowgraph.Proofs.Draft.Interpret
import Flowgraph.Proofs.Draft.Session
import Flowgraph.Proofs.Fragment.Refusal
import Flowgraph.Proofs.Draft.Order
import Flowgraph.Proofs.Fragment.Printer
import Flowgraph.Proofs.Machine.Spelling
import Flowgraph.Proofs.Draft.Rebuild
import Flowgraph.Proofs.Fragment.Layout
import Flowgraph.Proofs.Fragment.Naturality
import Flowgraph.Proofs.Word.Exact
import Flowgraph.Proofs.Countdown.ClosedForm
import Flowgraph.Proofs.Renaming.Naturality
import Flowgraph.Proofs.Fragment.Linking
import Flowgraph.Proofs.Fragment.Symmetry
import Flowgraph.Proofs.Renaming.Category
import Flowgraph.Proofs.Renaming.Symmetry
import Flowgraph.Proofs.Raw.Renaming
import Flowgraph.Proofs.Raw.Inverse
import Flowgraph.Proofs.Raw.Totality
import Flowgraph.Proofs.Fragment.Lifting
import Flowgraph.Proofs.Run.Orbit
import Flowgraph.Proofs.Run.Pipeline
import Flowgraph.Proofs.Run.Acyclic
import Flowgraph.Proofs.Draft.Faults
import Flowgraph.Proofs.Draft.Interleaving
import Flowgraph.Proofs.Fragment.ReachableParts
import Flowgraph.Proofs.Machine.Output
import Flowgraph.Proofs.BlockMap.Monoidal
import Flowgraph.Proofs.Fragment.Validation
import Flowgraph.Proofs.Machine.Requests
import Flowgraph.Proofs.Block.Traversal
import Flowgraph.Proofs.Renaming.Summands
import Flowgraph.Proofs.Renaming.Evaluation
