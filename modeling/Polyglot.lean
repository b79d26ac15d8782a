import Polyglot.Json.Printer
import Polyglot.Proofs.Beside
import Polyglot.Proofs.Bystanders
import Polyglot.Proofs.Calls
import Polyglot.Proofs.Carets
import Polyglot.Script.Inspect
import Polyglot.Session.Steps
import Polyglot.Settings.Load
import Polyglot.Proofs.Courses
import Polyglot.Proofs.Commit
import Polyglot.Proofs.Nesting
import Polyglot.Proofs.Overriding
import Polyglot.Proofs.Printing
import Polyglot.Proofs.Retry
import Polyglot.Proofs.Stock
import Polyglot.Proofs.Factories
import Polyglot.Proofs.Excerpt
import Polyglot.Proofs.Outside
import Polyglot.Proofs.Fitting
import Polyglot.Proofs.Listing
import Polyglot.Proofs.Replacement
import Polyglot.Proofs.Alignment
import Polyglot.Proofs.LineEnds
import Polyglot.Proofs.Treatments
import Polyglot.Proofs.Layers
import Polyglot.Proofs.Origins
import Polyglot.Proofs.Loading
import Polyglot.Proofs.Quoting
import Polyglot.Proofs.Verbatim
import Polyglot.Proofs.TextKeys
import Polyglot.Proofs.Trimming
import Polyglot.Proofs.Documents
import Polyglot.Proofs.Rereading
import Polyglot.Proofs.Blocks
import Polyglot.Proofs.Fences
import Polyglot.Proofs.Statelessness
import Polyglot.Proofs.Siblings
import Polyglot.Proofs.Steady
import Polyglot.Proofs.Laziness
import Polyglot.Proofs.Omissions
import Polyglot.Proofs.Placement
