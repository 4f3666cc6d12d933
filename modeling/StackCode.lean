import StackCode.Main
import StackCode.Proofs.Balance.Entry
import StackCode.Proofs.Cascade.Program
import StackCode.Proofs.Dispatch.Chain
import StackCode.Proofs.Evaluation.Program
import StackCode.Proofs.Format.RoundTrip
import StackCode.Proofs.Generation.Constants
import StackCode.Proofs.Generation.Coverage
import StackCode.Proofs.Listing.Modules
import StackCode.Proofs.Parallel.Places
import StackCode.Proofs.Resolution.Declarations
import StackCode.Proofs.Stores.Writes
import StackCode.Proofs.Tree.Renumbering
import StackCode.Proofs.Types.Allocation
import StackCode.Proofs.Types.Names
