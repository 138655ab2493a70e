import Rulebook.Session
import Rulebook.Proofs.Combination.Meaning
import Rulebook.Proofs.Persistence
import Rulebook.Proofs.Portable.RoundTrip
import Rulebook.Proofs.Text.Cuts
import Rulebook.Proofs.Rule.Token
import Rulebook.Proofs.Rule.Display
import Rulebook.Proofs.Combination.Conjunction
import Rulebook.Proofs.WriteOnce
import Rulebook.Proofs.WellFormed
import Rulebook.Proofs.Dependence
import Rulebook.Proofs.Blame
import Rulebook.Proofs.Height
import Rulebook.Proofs.Capacity
import Rulebook.Proofs.Session
import Rulebook.Proofs.Rule.Fault
import Rulebook.Proofs.Json.Float
import Rulebook.Proofs.Retrieval
import Rulebook.Proofs.Decision
import Rulebook.Proofs.Rule.Scan
import Rulebook.Proofs.Binary64.Nearest
import Rulebook.Proofs.Comparison
import Rulebook.Proofs.Binary64.Moderate
import Rulebook.Proofs.Rule.Float
import Rulebook.Proofs.Portable.Inverse
import Rulebook.Proofs.Portable.Rendering
import Rulebook.Proofs.Rule.Name
import Rulebook.Proofs.Combination.Height
import Rulebook.Proofs.Combination.Chain
import Rulebook.Proofs.Rule.Spacing
import Rulebook.Proofs.Threshold
import Rulebook.Proofs.Rule.Literal
import Rulebook.Proofs.Host.Record
import Rulebook.Proofs.Host.Settings
