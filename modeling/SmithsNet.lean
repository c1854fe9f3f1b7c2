import SmithsNet.Transport.Stream
import SmithsNet.Uas.CancelHonoured
import SmithsNet.Cluster.Convergence
import SmithsNet.Raft.LogRefinement
import SmithsNet.Raft.NoLostUpdate
import SmithsNet.Uas.Dispatch
import SmithsNet.Uas.SessionTimers
import SmithsNet.Uas.Unacked
import SmithsNet.Uas.SideTables
import SmithsNet.Uas.PairedCalls
import SmithsNet.Uas.InDialog
import SmithsNet.Uas.ParkedMedia
import SmithsNet.Ice.Nomination
import SmithsNet.Sidecar.Framings
import SmithsNet.Uas.Orphans
import SmithsNet.Mixer.Rooms
import SmithsNet.Plugin.Reload
import SmithsNet.Plugin.ScriptProvider
import SmithsNet.Webrtc.RelayOnly
import SmithsNet.Fax.Udptl
import SmithsNet.Ice.Coverage
import SmithsNet.Ice.StunCodec
import SmithsNet.Ice.TurnAccounting
import SmithsNet.Ice.TurnCodec
import SmithsNet.Media.JitterBounds
import SmithsNet.Media.JitterOrder
import SmithsNet.Media.JitterSlices
import SmithsNet.Sdp.CodecChoice
import SmithsNet.Webrtc.Parking
import SmithsNet.Webrtc.Release
import SmithsNet.Media.LossReport
import SmithsNet.Auth.Nonces
import SmithsNet.Auth.Header
import SmithsNet.Uas.Tags
import SmithsNet.Uas.Shedding
import SmithsNet.Media.DtmfRoundTrip
import SmithsNet.Raft.ServedSnapshot
import SmithsNet.Media.Prompts
import SmithsNet.Media.Egress
import SmithsNet.Uas.InDialogRequest
import SmithsNet.Uac.PlaceCall
import SmithsNet.Mixer.Gauges
import SmithsNet.Mixer.Mix
import SmithsNet.Mcp.FrameReader
import SmithsNet.Mcp.RateLimiter
import SmithsNet.Sidecar.Deadlines
import SmithsNet.Core.Canary
import SmithsNet.Plugin.Loader
import SmithsNet.Auth.Migrations
import SmithsNet.Txn.Backoff
import SmithsNet.Fax.Renegotiate
import SmithsNet.Mcp.HttpSessions
import SmithsNet.Mcp.Schema
