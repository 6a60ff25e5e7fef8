import Proposer.Ledger
import Proposer.Gateway
import Proposer.Store
import Proposer.Retry
import Proposer.Aggregation
import Proposer.Passes
import Proposer.System
import Proposer.Lifecycle
import Proposer.Checkpoint
import Proposer.Coverage
import Proposer.SpanBatches
import Proposer.Bytes32
import Proposer.LoadConfig
import Proposer.Subproofs
