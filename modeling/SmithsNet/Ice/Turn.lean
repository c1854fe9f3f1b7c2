import SmithsNet.Ice.Stun
import SmithsNet.Lib.Table

/-!
# SmithsNet.Ice.Turn

The embedded TURN server (`smiths-ice/src/turn.rs`).

A datagram of a client is handled as a whole: the server's loop takes the next
one, or a sweep, when it is done, and the relay tasks beside it only read.  The
clock is read several times on the way; `Env` has the readings, the fresh nonce
and what becomes of a relay socket.
-/

namespace SmithsNet.Ice.Turn

open Lib SmithsNet.Core

/-! ## numbers -/

def METHOD_ALLOCATE : Nat := 0x003

def METHOD_REFRESH : Nat := 0x004

def METHOD_SEND : Nat := 0x006

def METHOD_DATA : Nat := 0x007

def METHOD_CREATE_PERMISSION : Nat := 0x008

def METHOD_CHANNEL_BIND : Nat := 0x009

def ATTR_CHANNEL_NUMBER : Nat := 0x000C

def ATTR_LIFETIME : Nat := 0x000D

def ATTR_XOR_PEER_ADDRESS : Nat := 0x0012

def ATTR_DATA : Nat := 0x0013

def ATTR_REALM : Nat := 0x0014

def ATTR_NONCE : Nat := 0x0015

def ATTR_XOR_RELAYED_ADDRESS : Nat := 0x0016

def ATTR_REQUESTED_TRANSPORT : Nat := 0x0019

def CLASS_REQUEST : Nat := 0b00

def CLASS_INDICATION : Nat := 0b01

def CLASS_SUCCESS : Nat := 0b10

def CLASS_ERROR : Nat := 0b11

/-- Times are in nanoseconds. -/
def SECOND : Nat := 1000000000

def DEFAULT_LIFETIME_S : Nat := 600

def PERMISSION_LIFETIME : Nat := 300 * SECOND

def CHANNEL_LIFETIME : Nat := 600 * SECOND

def CHALLENGE_LIFETIME : Nat := 60 * SECOND

def CHANNEL_MIN : Nat := 0x4000

def CHANNEL_MAX : Nat := 0x7FFF

/-! ## the server's data -/

structure LongTermCredential where
  username : Text
  longTermKey : Bytes

structure TurnServerConfig where
  realm : Text
  relayIp : IpAddr
  /-- The cap of an allocation's lifetime. -/
  allocationLifetime : Nat
  credentials : List LongTermCredential

structure Allocation where
  /-- Every later request on the allocation must authenticate as this user. -/
  username : Text
  relayAddr : SocketAddr
  nonce : Text
  expiresAt : Nat
  permissions : Table IpAddr Nat
  channelsToPeer : Table UInt16 (SocketAddr × Nat)
  peerToChannel : Table SocketAddr UInt16

namespace Allocation

def isLive (a : Allocation) (now : Nat) : Bool := decide (now < a.expiresAt)

def permissionLive (a : Allocation) (ip : IpAddr) (now : Nat) : Bool :=
  (a.permissions ip).any fun exp => decide (now < exp)

/-- Peer bound to `channel`, if the binding is still live. -/
def channelPeer (a : Allocation) (channel : UInt16) (now : Nat) : Option SocketAddr :=
  ((a.channelsToPeer channel).filter fun b => decide (now < b.2)).map Prod.fst

/-- Channel bound to `peer`, if the binding is still live. -/
def peerChannel (a : Allocation) (peer : SocketAddr) (now : Nat) : Option UInt16 := do
  let channel ← a.peerToChannel peer
  (a.channelPeer channel now).map fun _ => channel

/-- Drop expired permissions and channel bindings. -/
def prune (a : Allocation) (now : Nat) : Allocation :=
  let channels := a.channelsToPeer.retain fun _ b => decide (now < b.2)
  { a with
    permissions := a.permissions.retain fun _ exp => decide (now < exp)
    channelsToPeer := channels
    peerToChannel := a.peerToChannel.retain fun _ channel => (channels channel).isSome }

end Allocation

structure TurnServer where
  realm : Text
  relayIp : IpAddr
  allocationLifetime : Nat
  allocations : Table SocketAddr Allocation
  /-- Nonces issued in challenges, with their expiry. -/
  challenges : Table SocketAddr (Text × Nat)
  credentials : Table Text LongTermCredential

/-- `TurnServer::new` -/
def TurnServer.new (config : TurnServerConfig) : TurnServer where
  realm := config.realm
  relayIp := config.relayIp
  allocationLifetime := config.allocationLifetime
  allocations := .empty
  challenges := .empty
  credentials := config.credentials.foldl (fun t c => t.insert c.username c) .empty

/-- What becomes of the relay socket of an allocation. -/
inductive RelaySocket
  | bindFailed
  | noAddress
  | bound (port : UInt16)

/-- What the handling of a datagram takes from outside, the readings of the
clock in the order they are made. -/
structure Env where
  /-- In `nonce_valid`. -/
  nonceAt : Nat
  /-- In `issue_nonce`. -/
  issueAt : Nat
  /-- Where the client's allocation is looked up. -/
  ownerAt : Nat
  /-- Where the allocation is used or changed. -/
  applyAt : Nat
  nonce : Text
  relay : RelaySocket

/-! ## reading -/

structure ParsedStun where
  method : Nat
  kind : Nat
  txid : TransactionId
  raw : Bytes
  body : Bytes

/-- The class in two-bit form. -/
def classBits (bits : Nat) : Nat := ((bits >>> 4) &&& 0x01) ||| ((bits >>> 7) &&& 0x02)

namespace ParsedStun

def parse (bytes : Bytes) : Option ParsedStun :=
  if h : bytes.length < HEADER_LEN then none
  else if beNat (slice bytes 4 4) ≠ MAGIC_COOKIE then none
  else
    let length := beNat (slice bytes 2 2)
    if bytes.length < HEADER_LEN + length then none
    else
      some
        { method := methodBits (beNat (slice bytes 0 2))
          kind := classBits (beNat (slice bytes 0 2))
          txid := ⟨slice bytes 8 12, length_transactionId h⟩
          raw := bytes.take (HEADER_LEN + length)
          body := slice bytes HEADER_LEN length }

/-- `AttrIter`: like the one of `stun.rs`, but one that does not fit just ends it. -/
def attrIter : Nat → Bytes → List (Nat × Bytes)
  | 0, _ => []
  | fuel + 1, body =>
    if body.length < 4 then []
    else
      let (kind, len) := attrHead body
      if body.length < 4 + len then []
      else (kind, slice body 4 len) :: attrIter fuel (body.drop (attrSpan len))

def iterAttrs (msg : ParsedStun) : List (Nat × Bytes) := attrIter msg.body.length msg.body

/-- The first attribute of a type. -/
def attr (msg : ParsedStun) (kind : Nat) : Option Bytes :=
  (msg.iterAttrs.find? fun a => a.1 = kind).map Prod.snd

end ParsedStun

def decodeXorAddr (raw : Bytes) (txid : TransactionId) : Option SocketAddr :=
  (decodeXorMappedAddress raw txid).toOption

/-- What the first MESSAGE-INTEGRITY covers, its length adjusted, and its value.
The walk goes by the announced lengths. -/
def sealOf (raw : Bytes) : Option (Bytes × Bytes) := do
  let msg ← ParsedStun.parse raw
  let m ← findAttr ATTR_MESSAGE_INTEGRITY msg.body.length msg.body
  let cursor := HEADER_LEN + m
  if beNat (slice raw (cursor + 2) 2) ≠ INTEGRITY_LEN ∨ raw.length < cursor + 4 + INTEGRITY_LEN then none
  else
    let covered := raw.take cursor
    let adjusted := covered.take 2 ++ beBytes 2 (cursor + 4 + INTEGRITY_LEN - HEADER_LEN) ++
      covered.drop 4
    some (adjusted, slice raw (cursor + 4) INTEGRITY_LEN)

def verifyMessageIntegrity (hmac : Hmac) (raw key : Bytes) : Bool :=
  (sealOf raw).any fun (covered, observed) => decide (observed = (hmac key covered).1)

/-! ## writing -/

def encodeType (method kind : Nat) : Nat :=
  ((method &&& 0x0F00) <<< 2) ||| (((kind >>> 1) &&& 0b01) <<< 8) ||| ((method &&& 0x0070) <<< 1) |||
    ((kind &&& 0b01) <<< 4) ||| (method &&& 0x000F)

/-- The header, its length field still zero. -/
def header (method kind : Nat) (txid : TransactionId) : Bytes :=
  beBytes 2 (encodeType method kind) ++ [0, 0] ++ beBytes 4 MAGIC_COOKIE ++ txid.1

theorem length_header (method kind : Nat) (txid : TransactionId) :
    (header method kind txid).length = HEADER_LEN := by
  simp [header, txid.2, HEADER_LEN]

def setLength (buf : Bytes) (len : Nat) : Bytes := buf.take 2 ++ beBytes 2 len ++ buf.drop 4

def finalizeLength (buf : Bytes) : Bytes := setLength buf (buf.length - HEADER_LEN)

def appendAttr (buf : Bytes) (kind : Nat) (value : Bytes) : Bytes :=
  buf ++ beBytes 2 kind ++ beBytes 2 value.length ++ value ++ List.replicate (pad4 value.length) 0

def appendErrorCode (buf : Bytes) (code : Nat) (reason : Text) : Bytes :=
  appendAttr buf ATTR_ERROR_CODE
    ([0, 0, UInt8.ofNat (code / 100), UInt8.ofNat (code % 100)] ++ toUtf8 reason)

def appendAttrLifetime (buf : Bytes) (lifetimeS : Nat) : Bytes :=
  appendAttr buf ATTR_LIFETIME (beBytes 4 lifetimeS)

def appendAttrXorAddr (buf : Bytes) (kind : Nat) (addr : SocketAddr) (txid : TransactionId) : Bytes :=
  appendAttr buf kind (xorMappedValue addr txid)

def appendMessageIntegrity (hmac : Hmac) (buf key : Bytes) : Bytes :=
  let buf := setLength buf (buf.length + 4 + INTEGRITY_LEN - HEADER_LEN)
  appendAttr buf ATTR_MESSAGE_INTEGRITY (hmac key buf).1

def buildSuccessHeader (method : Nat) (txid : TransactionId) : Bytes := header method CLASS_SUCCESS txid

def buildError (method : Nat) (txid : TransactionId) (code : Nat) (reason : String) : Bytes :=
  finalizeLength (appendErrorCode (header method CLASS_ERROR txid) code reason.toList)

/-- A 401 or 438 reply with REALM and NONCE. -/
def buildChallenge (method : Nat) (txid : TransactionId) (code : Nat) (realm nonce : Text) : Bytes :=
  let reason := if code = 438 then "Stale Nonce" else "Unauthorized"
  let out := appendErrorCode (header method CLASS_ERROR txid) code reason.toList
  let out := appendAttr out ATTR_REALM (toUtf8 realm)
  finalizeLength (appendAttr out ATTR_NONCE (toUtf8 nonce))

def channelDataFrame (channel : UInt16) (data : Bytes) : Bytes :=
  beBytes 2 channel.toNat ++ beBytes 2 data.length ++ data

def dataIndication (txid : TransactionId) (peer : SocketAddr) (data : Bytes) : Bytes :=
  let msg := header METHOD_DATA CLASS_INDICATION txid
  let msg := appendAttrXorAddr msg ATTR_XOR_PEER_ADDRESS peer txid
  finalizeLength (appendAttr msg ATTR_DATA data)

/-! ## who asks -/

structure Authenticated where
  username : Text
  key : Bytes
  nonce : Text

/-- A datagram sent on from a client to a peer, or from a peer to a client. -/
structure Relayed where
  client : SocketAddr
  peer : SocketAddr
  bytes : Bytes
  toPeer : Bool
  /-- When it was decided. -/
  now : Nat
  deriving DecidableEq

namespace TurnServer

def setAllocation (s : TurnServer) (client : SocketAddr) (a : Allocation) : TurnServer :=
  { s with allocations := s.allocations.insert client a }

def issueNonce (s : TurnServer) (client : SocketAddr) (env : Env) : TurnServer :=
  { s with challenges := s.challenges.insert client (env.nonce, env.issueAt + CHALLENGE_LIFETIME) }

def nonceValid (s : TurnServer) (client : SocketAddr) (nonce : Text) (now : Nat) : Bool :=
  (s.allocations client).any (fun a => a.isLive now && decide (a.nonce = nonce)) ||
    (s.challenges client).any fun c => decide (c.1 = nonce ∧ now < c.2)

/-- USERNAME, REALM and NONCE, where all three are there and are text. -/
def credentialsOf (msg : ParsedStun) : Option (Text × Text × Text) := do
  let username ← (msg.attr ATTR_USERNAME).bind fromUtf8
  let realm ← (msg.attr ATTR_REALM).bind fromUtf8
  let nonce ← (msg.attr ATTR_NONCE).bind fromUtf8
  return (username, realm, nonce)

/-- Who sent the request, or the reply that refuses it; a refusal may issue a nonce. -/
def authenticate (hmac : Hmac) (s : TurnServer) (msg : ParsedStun) (client : SocketAddr) (env : Env) :
    Except (TurnServer × Bytes) Authenticated :=
  if (msg.attr ATTR_MESSAGE_INTEGRITY).isNone then
    .error (s.issueNonce client env, buildChallenge msg.method msg.txid 401 s.realm env.nonce)
  else
    match credentialsOf msg with
    | none => .error (s, buildError msg.method msg.txid 400 "Bad Request")
    | some (username, realm, nonce) =>
      if ¬ s.nonceValid client nonce env.nonceAt ∨ realm ≠ s.realm then
        .error (s.issueNonce client env, buildChallenge msg.method msg.txid 438 s.realm env.nonce)
      else
        match s.credentials username with
        | none => .error (s, buildError msg.method msg.txid 401 "Unauthorized")
        | some cred =>
          if verifyMessageIntegrity hmac msg.raw cred.longTermKey then
            .ok ⟨username, cred.longTermKey, nonce⟩
          else .error (s, buildError msg.method msg.txid 401 "Unauthorized")

/-- The request is of the user whose allocation it is about. -/
def authenticateOnAllocation (hmac : Hmac) (s : TurnServer) (msg : ParsedStun) (client : SocketAddr)
    (env : Env) : Except (TurnServer × Bytes) Authenticated := do
  let auth ← s.authenticate hmac msg client env
  match (s.allocations client).filter fun a => a.isLive env.ownerAt with
  | none => .error (s, buildError msg.method msg.txid 437 "Allocation Mismatch")
  | some a =>
    if a.username = auth.username then .ok auth
    else .error (s, buildError msg.method msg.txid 441 "Wrong Credentials")

/-! ## the requests -/

/-- LIFETIME in seconds. -/
def requestedLifetime (msg : ParsedStun) : Nat :=
  match (msg.attr ATTR_LIFETIME).filter fun v => decide (v.length = 4) with
  | none => DEFAULT_LIFETIME_S
  | some v => beNat v

/-- The configured maximum, as a `u32` of seconds. -/
def maxLifetime (s : TurnServer) : Nat := s.allocationLifetime / SECOND % 2 ^ 32

def transportOk (msg : ParsedStun) : Bool :=
  (msg.attr ATTR_REQUESTED_TRANSPORT).any fun v => decide (4 ≤ v.length ∧ v.getD 0 0 = 17)

/-- The end of every success reply. -/
def sealReply (hmac : Hmac) (reply key : Bytes) : Bytes :=
  finalizeLength (appendMessageIntegrity hmac reply key)

def handleAllocate (hmac : Hmac) (s : TurnServer) (msg : ParsedStun) (client : SocketAddr) (env : Env) :
    TurnServer × Bytes :=
  if ¬ transportOk msg then (s, buildError METHOD_ALLOCATE msg.txid 442 "Unsupported Transport Protocol")
  else
    match s.authenticate hmac msg client env with
    | .error refused => refused
    | .ok auth =>
      if (s.allocations client).any fun a => a.isLive env.ownerAt then
        (s, buildError METHOD_ALLOCATE msg.txid 437 "Allocation Mismatch")
      else
        match env.relay with
        | .bindFailed => (s, buildError METHOD_ALLOCATE msg.txid 508 "Insufficient Capacity")
        | .noAddress => (s, buildError METHOD_ALLOCATE msg.txid 500 "Server Error")
        | .bound port =>
          let relayAddr := SocketAddr.new s.relayIp port
          let lifetime := min (requestedLifetime msg) s.maxLifetime
          let fresh : Allocation :=
            { username := auth.username
              relayAddr := relayAddr
              nonce := auth.nonce
              expiresAt := env.ownerAt + lifetime * SECOND
              permissions := .empty
              channelsToPeer := .empty
              peerToChannel := .empty }
          let reply := buildSuccessHeader METHOD_ALLOCATE msg.txid
          let reply := appendAttrXorAddr reply ATTR_XOR_RELAYED_ADDRESS relayAddr msg.txid
          let reply := appendAttrXorAddr reply ATTR_XOR_MAPPED_ADDRESS client msg.txid
          let reply := appendAttrLifetime reply lifetime
          ({ s.setAllocation client fresh with challenges := s.challenges.erase client },
            sealReply hmac reply auth.key)

def handleRefresh (hmac : Hmac) (s : TurnServer) (msg : ParsedStun) (client : SocketAddr) (env : Env) :
    TurnServer × Bytes :=
  match s.authenticateOnAllocation hmac msg client env with
  | .error refused => refused
  | .ok auth =>
    let requested := requestedLifetime msg
    let reply := buildSuccessHeader METHOD_REFRESH msg.txid
    if requested = 0 then
      ({ s with allocations := s.allocations.erase client },
        sealReply hmac (appendAttrLifetime reply 0) auth.key)
    else
      match s.allocations client with
      | none => (s, buildError METHOD_REFRESH msg.txid 437 "Allocation Mismatch")
      | some a =>
        let lifetime := min requested s.maxLifetime
        (s.setAllocation client { a with expiresAt := env.applyAt + lifetime * SECOND },
          sealReply hmac (appendAttrLifetime reply lifetime) auth.key)

/-- Every XOR-PEER-ADDRESS that can be read. -/
def peersOf (msg : ParsedStun) : List SocketAddr :=
  (msg.iterAttrs.filter fun a => a.1 = ATTR_XOR_PEER_ADDRESS).filterMap fun a =>
    decodeXorAddr a.2 msg.txid

def handleCreatePermission (hmac : Hmac) (s : TurnServer) (msg : ParsedStun) (client : SocketAddr)
    (env : Env) : TurnServer × Bytes :=
  match s.authenticateOnAllocation hmac msg client env with
  | .error refused => refused
  | .ok auth =>
    if (peersOf msg).isEmpty then (s, buildError METHOD_CREATE_PERMISSION msg.txid 400 "Bad Request")
    else
      match s.allocations client with
      | none => (s, buildError METHOD_CREATE_PERMISSION msg.txid 437 "Allocation Mismatch")
      | some a =>
        let deadline := env.applyAt + PERMISSION_LIFETIME
        let permissions := (peersOf msg).foldl (fun t peer => t.insert peer.ip deadline) a.permissions
        (s.setAllocation client { a with permissions },
          sealReply hmac (buildSuccessHeader METHOD_CREATE_PERMISSION msg.txid) auth.key)

/-- The channel and the first peer a request names, where both are right. -/
def bindingOf (msg : ParsedStun) : Option (UInt16 × SocketAddr) := do
  let value ← (msg.attr ATTR_CHANNEL_NUMBER).filter fun v => decide (v.length = 4)
  let channel := UInt16.ofNat (beNat (slice value 0 2))
  if CHANNEL_MIN ≤ channel.toNat ∧ channel.toNat ≤ CHANNEL_MAX then
    let peer ← (msg.attr ATTR_XOR_PEER_ADDRESS).bind fun v => decodeXorAddr v msg.txid
    return (channel, peer)
  else none

def handleChannelBind (hmac : Hmac) (s : TurnServer) (msg : ParsedStun) (client : SocketAddr)
    (env : Env) : TurnServer × Bytes :=
  match s.authenticateOnAllocation hmac msg client env with
  | .error refused => refused
  | .ok auth =>
    let badRequest := buildError METHOD_CHANNEL_BIND msg.txid 400 "Bad Request"
    match bindingOf msg with
    | none => (s, badRequest)
    | some (channel, peer) =>
      match s.allocations client with
      | none => (s, buildError METHOD_CHANNEL_BIND msg.txid 437 "Allocation Mismatch")
      | some a =>
        let now := env.applyAt
        let a := a.prune now
        let channelConflict := (a.channelPeer channel now).any fun bound => decide (bound ≠ peer)
        let peerConflict := (a.peerChannel peer now).any fun bound => decide (bound ≠ channel)
        if channelConflict || peerConflict then (s.setAllocation client a, badRequest)
        else
          let bound := { a with
            channelsToPeer := a.channelsToPeer.insert channel (peer, now + CHANNEL_LIFETIME)
            peerToChannel := a.peerToChannel.insert peer channel
            permissions := a.permissions.insert peer.ip (now + PERMISSION_LIFETIME) }
          (s.setAllocation client bound,
            sealReply hmac (buildSuccessHeader METHOD_CHANNEL_BIND msg.txid) auth.key)

/-! ## the data -/

def handleSend (s : TurnServer) (msg : ParsedStun) (client : SocketAddr) (now : Nat) : Option Relayed := do
  let peer ← (msg.attr ATTR_XOR_PEER_ADDRESS).bind fun v => decodeXorAddr v msg.txid
  let data ← msg.attr ATTR_DATA
  let a ← (s.allocations client).filter fun a => a.isLive now
  if a.permissionLive peer.ip now then some ⟨client, peer, data, true, now⟩ else none

def handleChannelData (s : TurnServer) (bytes : Bytes) (client : SocketAddr) (now : Nat) :
    Option Relayed := do
  let channel := UInt16.ofNat (beNat (slice bytes 0 2))
  let len := beNat (slice bytes 2 2)
  if bytes.length < 4 + len then none
  else
    let a ← (s.allocations client).filter fun a => a.isLive now
    let peer ← a.channelPeer channel now
    some ⟨client, peer, slice bytes 4 len, true, now⟩

/-- A relay task has received a datagram for its client. -/
def relayPeerToClient (s : TurnServer) (client peer : SocketAddr) (data : Bytes) (now : Nat)
    (txid : TransactionId) : Option Relayed := do
  let a ← (s.allocations client).filter fun a => a.isLive now
  if a.permissionLive peer.ip now then
    let frame := match a.peerChannel peer now with
      | some channel => channelDataFrame channel data
      | none => dataIndication txid peer data
    some ⟨client, peer, frame, false, now⟩
  else none

/-- The high bits of a ChannelData frame. -/
def isChannelData (bytes : Bytes) : Bool := decide (4 ≤ bytes.length ∧ bytes.getD 0 0 &&& 0xC0 = 0x40)

/-- The state after a datagram of a client, the reply and what is sent on. -/
def dispatch (hmac : Hmac) (s : TurnServer) (bytes : Bytes) (client : SocketAddr) (env : Env) :
    TurnServer × Option Bytes × Option Relayed :=
  if isChannelData bytes then (s, none, s.handleChannelData bytes client env.applyAt)
  else
    match ParsedStun.parse bytes with
    | none => (s, none, none)
    | some msg =>
      let answered (r : TurnServer × Bytes) := (r.1, some r.2, none)
      if msg.kind = CLASS_REQUEST then
        if msg.method = METHOD_ALLOCATE then answered (s.handleAllocate hmac msg client env)
        else if msg.method = METHOD_REFRESH then answered (s.handleRefresh hmac msg client env)
        else if msg.method = METHOD_CREATE_PERMISSION then
          answered (s.handleCreatePermission hmac msg client env)
        else if msg.method = METHOD_CHANNEL_BIND then answered (s.handleChannelBind hmac msg client env)
        else answered (s, buildError msg.method msg.txid 400 "Bad Request")
      else if msg.kind = CLASS_INDICATION ∧ msg.method = METHOD_SEND then
        (s, none, s.handleSend msg client env.applyAt)
      else (s, none, none)

/-- Reap what has expired. -/
def sweep (s : TurnServer) (now : Nat) : TurnServer :=
  { s with
    allocations := fun client =>
      ((s.allocations client).filter fun a => a.isLive now).map fun a => a.prune now
    challenges := s.challenges.retain fun _ c => decide (now < c.2) }

def shutdownAllocations (s : TurnServer) : TurnServer := { s with allocations := .empty }

end TurnServer

end SmithsNet.Ice.Turn
