import SmithsNet.Lib.Keyed

/-!
# SmithsNet.Core.Dialog

The dialog record the engine holds for each call leg, the changes of it that
are carried between cluster nodes, and the shared dialog table
(`smiths-core/src/call.rs`).
-/

namespace SmithsNet.Core

open Lib

/-- `(Call-ID, local tag, remote tag)`. -/
abbrev DialogKey := String × String × String

/-- Dialog lifecycle state. -/
inductive DialogState
  | early
  | confirmed
  deriving DecidableEq

/-- An address and a port. -/
inductive SocketAddr
  | v4 (ip : BitVec 32) (port : UInt16)
  | v6 (ip : BitVec 128) (port : UInt16) (flowinfo scopeId : UInt32)
  deriving DecidableEq

inductive IpAddr
  | v4 (ip : BitVec 32)
  | v6 (ip : BitVec 128)
  deriving DecidableEq

def IpAddr.isIpv4 : IpAddr → Bool
  | v4 _ => true
  | v6 _ => false

namespace SocketAddr

/-- `SocketAddr::new` -/
def new (ip : IpAddr) (port : UInt16) : SocketAddr :=
  match ip with
  | .v4 ip => .v4 ip port
  | .v6 ip => .v6 ip port 0 0

def ip : SocketAddr → IpAddr
  | v4 ip _ => .v4 ip
  | v6 ip _ _ _ => .v6 ip

def port : SocketAddr → UInt16
  | v4 _ port => port
  | v6 _ port _ _ => port

end SocketAddr

/-- Codec negotiated for one leg. -/
inductive NegotiatedCodec
  | pcmu | pcma | g722 | opus | h264 | vp8 | vp9 | t38
  | other (name : String)
  deriving DecidableEq

/-- ICE agent role. -/
inductive IceRole
  | controlling
  | controlled
  deriving DecidableEq

/-- ICE parameters of a dialog. -/
structure IceParams where
  localUfrag : String
  localPwd : String
  remoteUfrag : String
  remotePwd : String
  role : IceRole
  tieBreaker : UInt64
  deriving DecidableEq

/-- Serializable dialog record. -/
structure DialogRecord where
  callId : String
  localTag : String
  remoteTag : String
  state : DialogState
  peerSignal : SocketAddr
  rendezvous : Option String
  /-- Handle of the media endpoint. -/
  media : Option UInt64
  remoteMedia : Option SocketAddr
  /-- The 2xx being retransmitted until the ACK. -/
  pending2xx : Option (List UInt8) := none
  /-- Codec of each leg, by leg number. -/
  perLegCodec : List (UInt64 × NegotiatedCodec) := []
  ice : Option IceParams := none
  remoteTarget : Option String := none
  routeSet : List String := []
  localUri : Option String := none
  remoteUri : Option String := none
  localCseq : UInt32 := 0
  /-- Highest CSeq received from the remote party. -/
  remoteCseq : Option UInt32 := none
  transport : Option String := none
  lastInviteBranch : Option String := none
  localMedia : Option SocketAddr := none
  sessionExpiresSecs : Option UInt32 := none
  deriving DecidableEq

/-- A record of a confirmed call. -/
def sampleRecord (callId : String) (remoteCseq : UInt32) : DialogRecord where
  callId := callId
  localTag := "lt"
  remoteTag := "rt"
  state := .confirmed
  peerSignal := .v4 0x7f000001#32 5060
  rendezvous := none
  media := none
  remoteMedia := none
  remoteCseq := some remoteCseq

/-- Compose the dialog key. -/
def DialogRecord.key (r : DialogRecord) : DialogKey := (r.callId, r.localTag, r.remoteTag)

instance : KeyOf DialogRecord DialogKey := ⟨DialogRecord.key⟩

/-- Dialog state mutation for replication. -/
abbrev DialogDelta := Change DialogKey DialogRecord

/-- The shared dialog table.  Every record stands under its own key: the
engine stores records with `insert(record.key(), record)` only and never
changes a stored record's identity. -/
abbrev DialogTable := Keyed DialogRecord

end SmithsNet.Core
