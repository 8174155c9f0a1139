import MiniLex.Proofs.Bootstrap.Lines
import MiniLex.Proofs.Store.Tokenize
import MiniLex.Session.Run
import MiniLex.Store.Trace
import MiniLex.Version
import MiniLex.Proofs.Standby.Listing
import MiniLex.Proofs.Memory.Refused
import MiniLex.Proofs.Standby.Quoting
import MiniLex.Proofs.Scan.Refused
import MiniLex.Proofs.Bootstrap.LostLines
import MiniLex.Proofs.Standby.Resuming
import MiniLex.Proofs.Memory.Custody
import MiniLex.Proofs.Scan.Custody
import MiniLex.Proofs.Scan.Teardown
import MiniLex.Proofs.Bootstrap.CleanPrefix
import MiniLex.Proofs.Scan.Upkeep
import MiniLex.Proofs.Memory.Books
import MiniLex.Proofs.Memory.Balance
import MiniLex.Proofs.Store.Balance
import MiniLex.Proofs.Store.Operation
import MiniLex.Proofs.Store.Estate
import MiniLex.Proofs.Store.Routine
import MiniLex.Proofs.Store.Intervention
import MiniLex.Proofs.Memory.Cares
import MiniLex.Proofs.Store.Attribution
import MiniLex.Proofs.Store.BulkRelease
import MiniLex.Proofs.Memory.Order
import MiniLex.Proofs.Store.Ownership
import MiniLex.Proofs.Bootstrap.Quoting
import MiniLex.Proofs.Bootstrap.Seam
import MiniLex.Proofs.Bootstrap.Joining
import MiniLex.Proofs.Standby.Seam
import MiniLex.Proofs.Standby.Joining
import MiniLex.Proofs.Memory.Growth
import MiniLex.Proofs.Memory.Usage
import MiniLex.Proofs.Scan.Usage
import MiniLex.Proofs.Store.Interleaving
import MiniLex.Proofs.Store.Mode
import MiniLex.Proofs.Store.Transparency
import MiniLex.Proofs.Memory.Step
import MiniLex.Proofs.Store.Steps
import MiniLex.Proofs.Memory.Calls
import MiniLex.Proofs.Store.Finality
import MiniLex.Proofs.Memory.Reserved
import MiniLex.Proofs.Standby.Reserving
import MiniLex.Proofs.Store.Reservation
import MiniLex.Proofs.Bootstrap.OpenString
import MiniLex.Proofs.Store.Frozen
import MiniLex.Proofs.Store.Sharing
import MiniLex.Proofs.Scan.Deeds
import MiniLex.Proofs.Store.Occurrences
import MiniLex.Proofs.Store.Surroundings
import MiniLex.Proofs.Standby.OpenName
import MiniLex.Proofs.Standby.FirstError
import MiniLex.Proofs.Store.Copies
import MiniLex.Proofs.Standby.Folding
import MiniLex.Proofs.Scan.Standstill
import MiniLex.Proofs.Store.Spacing
import MiniLex.Proofs.Store.Buffers
import MiniLex.Proofs.Store.Blocks
