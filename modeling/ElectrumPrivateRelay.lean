import ElectrumPrivateRelay.Configuration.Aliases
import ElectrumPrivateRelay.Configuration.Spelling
import ElectrumPrivateRelay.Protocol.Interception
import ElectrumPrivateRelay.Protocol.ObjectFrames
import ElectrumPrivateRelay.Proxy.ChunkedFrames
import ElectrumPrivateRelay.Proxy.Collision
import ElectrumPrivateRelay.Proxy.FrameBoundary
import ElectrumPrivateRelay.Proxy.GracefulShutdown
import ElectrumPrivateRelay.Proxy.Identifiers
import ElectrumPrivateRelay.Proxy.LocalResponses
import ElectrumPrivateRelay.Proxy.Process
import ElectrumPrivateRelay.Proxy.Provenance
import ElectrumPrivateRelay.Proxy.Routing
import ElectrumPrivateRelay.Proxy.Server
import ElectrumPrivateRelay.Proxy.Settling
import ElectrumPrivateRelay.Proxy.Shutdown
import ElectrumPrivateRelay.Proxy.Startup
import ElectrumPrivateRelay.Proxy.Supervision
import ElectrumPrivateRelay.Proxy.WalletStream
import ElectrumPrivateRelay.Proxy.Window
import ElectrumPrivateRelay.Relay.Chaining
import ElectrumPrivateRelay.Relay.Confirmation
import ElectrumPrivateRelay.Relay.Deadlines
import ElectrumPrivateRelay.Relay.DrainPublication
import ElectrumPrivateRelay.Relay.PayloadBudget
import ElectrumPrivateRelay.Relay.Stack
import ElectrumPrivateRelay.Release.CreateOnce
import ElectrumPrivateRelay.Release.Evidence
