import Intel8080.Board
import Intel8080.Main
import Intel8080.Rehearsal
import Intel8080.Proofs.Series
import Intel8080.Proofs.Slices
import Intel8080.Proofs.Cost
import Intel8080.Proofs.Pace
import Intel8080.Proofs.Offers
import Intel8080.Proofs.Termination
import Intel8080.Proofs.Frames
import Intel8080.Proofs.Fetching
import Intel8080.Proofs.Cascade
import Intel8080.Proofs.Footprint
import Intel8080.Proofs.InPlace
import Intel8080.Proofs.Stopping
import Intel8080.Proofs.Atomicity
import Intel8080.Proofs.Sessions
import Intel8080.Proofs.Halting
import Intel8080.Proofs.Accounting
import Intel8080.Proofs.Morphisms
import Intel8080.Proofs.Verdict
import Intel8080.Proofs.StackRefinement
import Intel8080.Proofs.Composition
import Intel8080.Proofs.Exceptions
import Intel8080.Proofs.Reports
import Intel8080.Proofs.WarmBoot
import Intel8080.Proofs.Locality
import Intel8080.Proofs.Protection
import Intel8080.Proofs.Strictness
import Intel8080.Proofs.Ports
import Intel8080.Proofs.Nesting
import Intel8080.Proofs.Encoding
import Intel8080.Proofs.Disassembly
import Intel8080.Proofs.AccumulatorGroup
import Intel8080.Proofs.Chains
import Intel8080.Proofs.Decimal
import Intel8080.Proofs.Entry
import Intel8080.Proofs.Bounds
import Intel8080.Proofs.Rejections
import Intel8080.Proofs.Undoing
import Intel8080.Proofs.Loading
import Intel8080.Proofs.TraceLines
import Intel8080.Proofs.Ranges
