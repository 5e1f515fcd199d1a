import PonsWarp.Data.Run
import PonsWarp.Core.Registration
import PonsWarp.Core.ReceiveFailures
import PonsWarp.Core.Cancellation
import PonsWarp.Core.RequestBudget
import PonsWarp.Core.RarestFirst
import PonsWarp.Core.InFlight
import PonsWarp.Core.Convergence
import PonsWarp.Core.Isolation
import PonsWarp.Core.Committed
import PonsWarp.Core.Restarts
import PonsWarp.Core.Acceptance
import PonsWarp.Core.Joining
import PonsWarp.Core.SendFailures
import PonsWarp.Core.Endgame
import PonsWarp.Core.WindowCap
import PonsWarp.Core.Timeouts
import PonsWarp.Core.Stranding
import PonsWarp.Core.Replay
import PonsWarp.Core.Disposal
import PonsWarp.Core.SelectiveCancel
import PonsWarp.Core.CompleteAnswers
import PonsWarp.Core.ProviderChecks
import PonsWarp.Core.MetadataBounds
import PonsWarp.Core.Link
import PonsWarp.Cli.RoundTrip
import PonsWarp.Signaling.Identity
import PonsWarp.Signaling.Membership
import PonsWarp.Signaling.LiveSocket
import PonsWarp.Signaling.History
import PonsWarp.Signaling.Sweep
import PonsWarp.Signaling.Capacity
import PonsWarp.Signaling.Roster
import PonsWarp.Signaling.Departures
import PonsWarp.Signaling.TokenGate
import PonsWarp.Signaling.RelayOrder
import PonsWarp.Signaling.ShareHistory
import PonsWarp.Core.SharedStorage
import PonsWarp.Signaling.WebSocketConnection
import PonsWarp.Cli.SocketReceiver
import PonsWarp.Cli.OutboundQueue
import PonsWarp.Cli.Downloads
import PonsWarp.Cli.ShareIdentity
import PonsWarp.Cli.ShareCodeRoundTrip
import PonsWarp.Cli.RawHandshake
import PonsWarp.Cli.Faults
import PonsWarp.Demo.CompletedArtifacts
import PonsWarp.Demo.ControllerSettlement
import PonsWarp.Scripts.SameEvidence
import PonsWarp.Webrtc.SendQueue
import PonsWarp.Webrtc.FirstOffers
import PonsWarp.Webrtc.CongestionWindow
import PonsWarp.Cli.FrameReaders
import PonsWarp.Cli.OffsetStates
import PonsWarp.Core.ChunkRoundTrip
import PonsWarp.Webrtc.CongestionReset
import PonsWarp.Core.FlushDrains
import PonsWarp.Core.WindowPromises
import PonsWarp.Cli.DirectHints
import PonsWarp.Signaling.EnvelopeRoundTrip
import PonsWarp.Webrtc.ChunkCeiling
import PonsWarp.Core.RetryChains
import PonsWarp.Core.SharedFile
import PonsWarp.Cli.ReceivedFile
import PonsWarp.Cli.Shutdown
import PonsWarp.Core.SharedDatabase
import PonsWarp.Core.StorageKinds
