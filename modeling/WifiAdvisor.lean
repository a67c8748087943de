import WifiAdvisor.Main
import WifiAdvisor.Forms.Event
import WifiAdvisor.Proofs.Lifecycle
import WifiAdvisor.Proofs.Persistence
import WifiAdvisor.Proofs.Rejection
import WifiAdvisor.Proofs.Timers
import WifiAdvisor.Proofs.PhaseStep
import WifiAdvisor.Proofs.Debounce
import WifiAdvisor.Proofs.Display
import WifiAdvisor.Proofs.Turns
import WifiAdvisor.Proofs.Independence
import WifiAdvisor.Proofs.Bookkeeping
import WifiAdvisor.Proofs.Ledger
import WifiAdvisor.Proofs.Attempts
import WifiAdvisor.Proofs.Coherence
import WifiAdvisor.Proofs.Silence
import WifiAdvisor.Proofs.StoredSets
import WifiAdvisor.Proofs.WrittenForms
import WifiAdvisor.Proofs.Announcements
import WifiAdvisor.Proofs.Loop
import WifiAdvisor.Proofs.Punctuality
import WifiAdvisor.Proofs.Completion
import WifiAdvisor.Proofs.Tidying
import WifiAdvisor.Proofs.Fidelity
import WifiAdvisor.Proofs.RepeatedScans
import WifiAdvisor.Proofs.Reports
import WifiAdvisor.Proofs.Respelling
import WifiAdvisor.Proofs.Documents
import WifiAdvisor.Proofs.FlagGroups
import WifiAdvisor.Proofs.Listing
import WifiAdvisor.Proofs.Membership
