import SmithsNet.Sdp.Types

/-!
# SmithsNet.Sdp.Parse

The line-oriented SDP parser (`smiths-sdp/src/parse.rs`).  A line that is no
text of a known kind is skipped; only the session lines, `m=`, `c=` and
`a=rtpmap:` can fail the parse.
-/

namespace SmithsNet.Sdp

open Lib SmithsNet.Core

/-! ## errors -/

inductive ParseError
  | missingSessionLine (line : Text)
  | malformed (line : Nat) (reason : Text)
  | unsupported (what : Text)
  deriving DecidableEq

/-- What `ParseIntError` says of the digits. -/
def digitsError (bits acc : Nat) : Text → Text
  | [] => []
  | c :: cs =>
    match digitVal 10 c with
    | none => "invalid digit found in string".toList
    | some d =>
      if acc * 10 + d < 2 ^ bits then digitsError bits (acc * 10 + d) cs
      else "number too large to fit in target type".toList

def intError (bits : Nat) (t : Text) : Text :=
  if t = [] then "cannot parse integer from empty string".toList
  else
    let ds := if t.head? = some '+' then t.tail else t
    if ds = [] then "invalid digit found in string".toList else digitsError bits 0 ds

/-- `parse` with its error. -/
def parseInt (bits : Nat) (t : Text) (line : Nat) (what : Text) : Except ParseError Nat :=
  match parseUnsigned bits t with
  | some n => .ok n
  | none => .error (.malformed line (what ++ intError bits t))

section Parse

variable (conv : Conv)

/-- `IpAddr::from_str` -/
def parseIp (t : Text) (line : Nat) (what : Text) : Except ParseError IpAddr :=
  match conv.readIp t with
  | some ip => .ok ip
  | none => .error (.malformed line (what ++ "invalid IP address syntax".toList))

/-! ## session lines -/

def parseOrigin (value : Text) (line : Nat) : Except ParseError Origin :=
  match splitWhitespace value with
  | [user, sid, ver, _, _, addr] => do
      let sessionId ← parseInt 64 sid line "o= session-id: ".toList
      let sessionVersion ← parseInt 64 ver line "o= session-version: ".toList
      let address ← parseIp conv addr line "o= address: ".toList
      return ⟨user, .ofNat sessionId, .ofNat sessionVersion, address⟩
  | _ => .error (.malformed line "o= expects 6 tokens".toList)

def parseConnection (value : Text) (line : Nat) : Except ParseError ConnectionInfo :=
  match splitWhitespace value with
  | [_, _, addr] => do
      let address ← parseIp conv addr line "c= address: ".toList
      return ⟨address⟩
  | _ => .error (.malformed line "c= expects 3 tokens".toList)

/-- The number of ports is ignored. -/
def parseMedia (value : Text) (line : Nat) : Except ParseError MediaDescription :=
  match splitWhitespace value with
  | [] => .error (.malformed line "m= missing media token".toList)
  | [_] => .error (.malformed line "m= missing port".toList)
  | kind :: portToken :: rest => do
      let portStr := (splitBy (· == '/') portToken).headD portToken
      let port ← parseInt 16 portStr line "m= port: ".toList
      match rest with
      | [] => .error (.malformed line "m= missing protocol".toList)
      | protocol :: formats =>
        return { kind := .parse kind, port := .ofNat port, protocol, formats }

/-! ## attributes -/

def parseFingerprint (rest : Text) : Option Fingerprint :=
  (splitOnceBy isWhitespace (trim rest)).map fun e => ⟨toAsciiLowercase e.1, trim e.2⟩

/-- Session-level attributes that blocks inherit. -/
structure SessionLevel where
  fingerprint : Option Fingerprint := none
  setup : Option DtlsSetup := none
  iceUfrag : Option Text := none
  icePwd : Option Text := none
  iceOptions : List Text := []
  direction : Option Direction := none
  groups : List Group := []
  iceLite : Bool := false

def SessionLevel.seed (s : SessionLevel) (m : MediaDescription) : MediaDescription :=
  { m with
    fingerprint := s.fingerprint
    setup := s.setup
    iceUfrag := s.iceUfrag
    icePwd := s.icePwd
    iceOptions := s.iceOptions
    direction := s.direction.getD m.direction }

def SessionLevel.addGroup (s : SessionLevel) (rest : Text) : SessionLevel :=
  match splitWhitespace rest with
  | [] => s
  | semantics :: mids => { s with groups := s.groups ++ [⟨semantics, mids⟩] }

/-- An `a=` line before the first `m=`. -/
def applySessionAttribute (value : Text) (s : SessionLevel) : SessionLevel :=
  match stripLead "group:".toList value with
  | some rest => s.addGroup rest
  | none =>
  if value = "ice-lite".toList then { s with iceLite := true } else
  match stripLead "fingerprint:".toList value with
  | some rest => { s with fingerprint := parseFingerprint rest }
  | none =>
  match stripLead "setup:".toList value with
  | some rest => { s with setup := DtlsSetup.parse (trim rest) }
  | none =>
  match stripLead "ice-ufrag:".toList value with
  | some rest => { s with iceUfrag := some (trim rest) }
  | none =>
  match stripLead "ice-pwd:".toList value with
  | some rest => { s with icePwd := some (trim rest) }
  | none =>
  match stripLead "ice-options:".toList value with
  | some rest => { s with iceOptions := splitWhitespace rest }
  | none =>
  match Direction.parse value with
  | some d => { s with direction := some d }
  | none => s

def parseChannels (line : Nat) : List Text → Except ParseError (Option UInt8)
  | [channels] => do
      let n ← parseInt 8 channels line "rtpmap channels: ".toList
      return some (.ofNat n)
  | _ => .ok none

def parseRtpmap (rest : Text) (line : Nat) : Except ParseError RtpMap :=
  match splitOnceBy (· == ' ') rest with
  | none => .error (.malformed line "rtpmap missing space".toList)
  | some (ptTok, rest) => do
      let payloadType ← parseInt 8 ptTok line
        ("rtpmap pt ".toList ++ '\x60' :: ptTok ++ '\x60' :: ": ".toList)
      match splitBy (· == '/') rest with
      | codec :: clock :: channels =>
        if 1 < channels.length then
          .error (.malformed line ("rtpmap value ".toList ++ '\x60' :: rest ++ ['\x60']))
        else
          let clockRate ← parseInt 32 clock line "rtpmap clock: ".toList
          let channels ← parseChannels line channels
          return ⟨.ofNat payloadType, codec, .ofNat clockRate, channels⟩
      | _ => .error (.malformed line ("rtpmap value ".toList ++ '\x60' :: rest ++ ['\x60']))

/-- `SdesCrypto::parse`; why a line is no good is only logged. -/
def parseCrypto (body : Text) : Option SdesCrypto :=
  match splitWhitespace body with
  | tag :: suite :: keyParams :: _ => do
      let tag ← parseUnsigned 32 tag
      let suite ← SrtpSuite.fromSdpName suite
      let inline ← stripLead "inline:".toList keyParams
      let keyMaterial ← conv.decode64 ((splitBy (· == '|') inline).headD [])
      if keyMaterial.length ≠ suite.keyMaterialLen then none
      else return ⟨.ofNat tag, suite, keyMaterial⟩
  | _ => none

/-- The tokens behind `typ <type>`, two at a time. -/
def parseExtras (c : IceCandidate) : List Text → Option IceCandidate
  | [] => some c
  | [_] => none
  | key :: value :: rest =>
    if key = "raddr".toList then
      (conv.readIp value).bind fun ip => parseExtras { c with relatedAddress := some ip } rest
    else if key = "rport".toList then
      (parseUnsigned 16 value).bind fun p =>
        parseExtras { c with relatedPort := some (.ofNat p) } rest
    else parseExtras { c with rawParams := c.rawParams ++ [(key, value)] } rest

/-- `parse_candidate`; why a line is no good is only logged. -/
def parseCandidate (rest : Text) : Option IceCandidate :=
  match splitWhitespace rest with
  | foundation :: component :: transport :: priority :: addr :: port :: typ :: candidateType :: extras => do
      let component ← parseUnsigned 8 component
      let priority ← parseUnsigned 32 priority
      let address ← conv.readIp addr
      let port ← parseUnsigned 16 port
      if !eqIgnoreAsciiCase typ "typ".toList then none
      else
        parseExtras conv
          { foundation, component := .ofNat component, transport, priority := .ofNat priority, address,
            port := .ofNat port, candidateType, relatedAddress := none, relatedPort := none,
            rawParams := [] } extras
  | _ => none

/-- The id of an extension, with its direction. -/
def parseExtId (tok : Text) : Option (UInt16 × Option Direction) :=
  match splitOnceBy (· == '/') tok with
  | some (id, dir) => do
      let direction ← Direction.parse dir
      let id ← parseUnsigned 16 id
      return (.ofNat id, some direction)
  | none => do
      let id ← parseUnsigned 16 tok
      return (.ofNat id, none)

/-- `splitn(3, char::is_whitespace)` -/
def parseExtmap (rest : Text) : Option ExtMap := do
  let (idTok, more) ← splitOnceBy isWhitespace (trim rest)
  let (uri, attributes) := match splitOnceBy isWhitespace more with
    | none => (more, none)
    | some (uri, attrs) => (uri, if trim attrs = [] then none else some (trim attrs))
  let (id, direction) ← parseExtId idTok
  return ⟨id, direction, uri, attributes⟩

def parseRtcp (rest : Text) : Option RtcpAttr :=
  match splitWhitespace rest with
  | [port] => do
      let port ← parseUnsigned 16 port
      return ⟨.ofNat port, none⟩
  | [port, _, _, addr] => do
      let port ← parseUnsigned 16 port
      let address ← conv.readIp addr
      return ⟨.ofNat port, some address⟩
  | _ => none

/-- A bare flag is true. -/
def flagValue : Option Text → Bool
  | none => true
  | some v => !(decide (v = ['0']) || eqIgnoreAsciiCase v "false".toList)

def parseField {α : Type} (bits : Nat) (ofNat : Nat → α) (value : Option Text) : Option α :=
  (value.bind (parseUnsigned bits)).map ofNat

/-- The name and the value of a T.38 attribute. -/
def t38Parts (attr : Text) : Text × Option Text :=
  match splitOnceBy (· == ':') attr with
  | some (n, v) => (trim n, some (trim v))
  | none => (trim attr, none)

def T38Params.setField (t : T38Params) (name : Text) (value : Option Text) : T38Params :=
  if name = "T38FaxVersion".toList then { t with version := parseField 8 UInt8.ofNat value }
  else if name = "T38MaxBitRate".toList then
    { t with maxBitRate := parseField 32 UInt32.ofNat value }
  else if name = "T38FaxFillBitRemoval".toList then { t with fillBitRemoval := flagValue value }
  else if name = "T38FaxTranscodingMMR".toList then { t with transcodingMmr := flagValue value }
  else if name = "T38FaxTranscodingJBIG".toList then { t with transcodingJbig := flagValue value }
  else if name = "T38FaxRateManagement".toList then { t with rateManagement := value }
  else if name = "T38FaxMaxBuffer".toList then
    { t with maxBuffer := parseField 32 UInt32.ofNat value }
  else if name = "T38FaxMaxDatagram".toList then
    { t with maxDatagram := parseField 32 UInt32.ofNat value }
  else if name = "T38FaxUdpEC".toList then { t with udpEc := value }
  else { t with extra := t.extra ++ [(name, value)] }

/-- `T38Params::apply_attribute`, for an attribute that starts with `T38`. -/
def T38Params.applyAttribute (t : T38Params) (attr : Text) : T38Params :=
  t.setField (t38Parts attr).1 (t38Parts attr).2

/-- DTLS-SRTP and ICE attributes. -/
def applySecurityAttribute (value : Text) (m : MediaDescription) : Option MediaDescription :=
  match stripLead "fingerprint:".toList value with
  | some rest =>
    some (match parseFingerprint rest with
      | some fp => { m with fingerprint := some fp }
      | none => m)
  | none =>
  match stripLead "setup:".toList value with
  | some rest =>
    some (match DtlsSetup.parse (trim rest) with
      | some s => { m with setup := some s }
      | none => m)
  | none =>
  match stripLead "ice-ufrag:".toList value with
  | some rest => some { m with iceUfrag := some (trim rest) }
  | none =>
  match stripLead "ice-pwd:".toList value with
  | some rest => some { m with icePwd := some (trim rest) }
  | none =>
  match stripLead "ice-options:".toList value with
  | some rest => some { m with iceOptions := splitWhitespace rest }
  | none =>
  match stripLead "candidate:".toList value with
  | some rest => some { m with candidates := m.candidates ++ (parseCandidate conv rest).toList }
  | none =>
  if value = "end-of-candidates".toList then some { m with endOfCandidates := true } else none

/-- Grouping, header extensions and RTCP attributes. -/
def applyMultiplexAttribute (value : Text) (m : MediaDescription) : Option MediaDescription :=
  match stripLead "mid:".toList value with
  | some rest => some { m with mid := some (trim rest) }
  | none =>
  match stripLead "extmap:".toList value with
  | some rest => some { m with extmap := m.extmap ++ (parseExtmap rest).toList }
  | none =>
  if value = "rtcp-mux".toList then some { m with rtcpMux := true } else
  match stripLead "rtcp:".toList value with
  | some rest =>
    some (match parseRtcp conv rest with
      | some r => { m with rtcp := some r }
      | none => m)
  | none =>
  match stripLead "rtcp-fb:".toList value with
  | some rest =>
    some { m with rtcpFb := m.rtcpFb ++
      ((splitOnceBy isWhitespace (trim rest)).map fun e => ⟨e.1, trim e.2⟩).toList }
  | none => none

/-- The attributes that are read last. -/
def applyOtherAttribute (value : Text) (m : MediaDescription) : MediaDescription :=
  if "T38".toList.isPrefixOf value then
    { m with t38 := some ((m.t38.getD {}).applyAttribute value) }
  else
    match Direction.parse value with
    | some d => { m with direction := d }
    | none => m

/-- An `a=` line of a block. -/
def applyMediaAttribute (value : Text) (m : MediaDescription) (line : Nat) :
    Except ParseError MediaDescription :=
  match stripLead "rtpmap:".toList value with
  | some rest => do
      let r ← parseRtpmap rest line
      return { m with rtpmap := m.rtpmap ++ [r] }
  | none =>
  match stripLead "fmtp:".toList value with
  | some rest =>
    .ok { m with fmtp := m.fmtp ++
      ((splitOnceBy isWhitespace (trim rest)).map fun e => ⟨e.1, trim e.2⟩).toList }
  | none =>
  match stripLead "ptime:".toList value with
  | some rest => .ok { m with ptime := (parseUnsigned 32 (trim rest)).map UInt32.ofNat }
  | none =>
  match stripLead "maxptime:".toList value with
  | some rest => .ok { m with maxptime := (parseUnsigned 32 (trim rest)).map UInt32.ofNat }
  | none =>
  match stripLead "crypto:".toList value with
  | some rest => .ok { m with crypto := m.crypto ++ (parseCrypto conv rest).toList }
  | none =>
  match applySecurityAttribute conv value m with
  | some m => .ok m
  | none =>
  match applyMultiplexAttribute conv value m with
  | some m => .ok m
  | none => .ok (applyOtherAttribute value m)

/-! ## lines -/

structure ParseState where
  origin : Option Origin := none
  sessionName : Option Text := none
  connection : Option ConnectionInfo := none
  session : SessionLevel := {}
  media : List MediaDescription := []
  cur : Option MediaDescription := none
  versionSeen : Bool := false

/-- The blocks with the one being read. -/
def ParseState.finished (st : ParseState) : List MediaDescription := st.media ++ st.cur.toList

def ParseState.applyKind (st : ParseState) (kind value : Text) (line : Nat) :
    Except ParseError ParseState :=
  if kind = ['v'] then
    if value ≠ ['0'] then .error (.unsupported ("SDP version ".toList ++ value))
    else .ok { st with versionSeen := true }
  else if kind = ['o'] then do
    let o ← parseOrigin conv value line
    return { st with origin := some o }
  else if kind = ['s'] then .ok { st with sessionName := some value }
  else if kind = ['c'] then do
    let c ← parseConnection conv value line
    match st.cur with
    | some m => return { st with cur := some { m with connection := some c } }
    | none => return { st with connection := some c }
  else if kind = ['m'] then do
    let m ← parseMedia value line
    return { st with media := st.finished, cur := some (st.session.seed m) }
  else if kind = ['a'] then
    match st.cur with
    | some m => do
        let m ← applyMediaAttribute conv value m line
        return { st with cur := some m }
    | none => .ok { st with session := applySessionAttribute value st.session }
  else .ok st

/-- The line without its end. -/
def stripEnd (raw : Text) : Text := trimEndMatches '\n' (trimEndMatches '\r' raw)

def ParseState.applyLine (st : ParseState) (entry : Text × Nat) : Except ParseError ParseState :=
  let line := stripEnd entry.1
  if line = [] then .ok st
  else
    match splitOnceBy (· == '=') line with
    | none => .error (.malformed (entry.2 + 1) ("missing '=' in ".toList ++ '\x60' :: line ++ ['\x60']))
    | some (kind, value) => st.applyKind conv kind value (entry.2 + 1)

def ParseState.finish (st : ParseState) : Except ParseError SessionDescription :=
  if !st.versionSeen then .error (.missingSessionLine ['v'])
  else
    match st.origin with
    | none => .error (.missingSessionLine ['o'])
    | some origin =>
      match st.sessionName with
      | none => .error (.missingSessionLine ['s'])
      | some sessionName =>
        .ok { origin, sessionName, connection := st.connection, groups := st.session.groups,
              iceLite := st.session.iceLite, media := st.finished }

def SessionDescription.parse (input : Text) : Except ParseError SessionDescription := do
  let st ← (splitBy (· == '\n') input).zipIdx.foldlM (ParseState.applyLine conv) {}
  st.finish

end Parse

end SmithsNet.Sdp
