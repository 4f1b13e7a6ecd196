import RiskProvider.Interleaving.Program
import RiskProvider.Interleaving.Ownership
import RiskProvider.Isolation
import RiskProvider.Lifecycle.Terminal
import RiskProvider.Lifecycle.Forward
import RiskProvider.Freshness
import RiskProvider.Provenance
import RiskProvider.Deduplication
import RiskProvider.Coherence
import RiskProvider.Decisions
import RiskProvider.RoundTrip
import RiskProvider.Idempotence
import RiskProvider.Relay.Batches
import RiskProvider.Relay.Order
import RiskProvider.Relay.Conservation
import RiskProvider.Database.Encoding
import RiskProvider.Recovery
import RiskProvider.Fidelity
import RiskProvider.Sequential.Consumer
import RiskProvider.Sequential.Envelope
import RiskProvider.Sequential.Reconciler
import RiskProvider.Forwarding
import RiskProvider.Locking
import RiskProvider.Limits
import RiskProvider.Audit
import RiskProvider.Inbox
import RiskProvider.Release
import RiskProvider.Progress
import RiskProvider.Provider.Envelopes
import RiskProvider.Sequential.Standing
import RiskProvider.Relay.Drain
import RiskProvider.Lookup
import RiskProvider.Sequential.Texts
