import SmithsNet.Lib.Lines
import SmithsNet.Lib.Utf8
import SmithsNet.Txn.Ack

/-!
# SmithsNet.Uas.Headers

The header lines of a request, scanned twice (`smiths-sip/src/uas.rs`): `summarize_request`
takes them apart for the server, `build_response` copies those that a response repeats.

The scanners know a line in different ways: the first trims the name before the colon, the
second asks how the line begins.  `SmithsNet.Uas.Echo` says when they agree.
-/

namespace SmithsNet.Uas.Headers

open Lib Txn

/-! ## header values -/

/-- `split_headers_body`: a `\n\n` is tolerated. -/
def splitHeadersBody (text : Text) : Text × Text :=
  match splitOnce "\r\n\r\n".toList text with
  | some parts => parts
  | none => (splitOnce "\n\n".toList text).getD (text, [])

/-- What stands behind the first `;name=`, up to a character that ends it; nothing if that is
empty. -/
def paramAfter (name : String) (ends : Char → Bool) (value : Text) : Option Text :=
  (findSub name.toList (toAsciiLowercase value)).bind fun idx =>
    let found := (value.drop (idx + name.toList.length)).takeWhile fun c => !ends c
    if found.isEmpty then none else some found

/-- `via_branch_param` -/
def viaBranchParam (value : Text) : Option Text :=
  paramAfter ";branch=" (fun c => c == ';' || c == ',' || isWhitespace c) value

/-- `extract_tag_param` -/
def extractTagParam (headerValue : Text) : Option Text :=
  paramAfter ";tag=" (fun c => c == ';' || c == ',' || c == '>' || isWhitespace c) headerValue

/-- `ruri_user_from` -/
def ruriUserFrom (requestUri : Text) : Option Text := do
  let rest ← (((stripLead "sip:".toList requestUri).or (stripLead "sips:".toList requestUri)).or
    (stripLead "<sip:".toList requestUri)).or (stripLead "<sips:".toList requestUri)
  let (user, _) ← splitOnce ['@'] rest
  if user.isEmpty then none else some user

/-- What stands between the first `<` and the `>` behind it. -/
def bracketed (trimmed : Text) : Option Text := do
  let (_, after) ← splitOnce ['<'] trimmed
  let (inner, _) ← splitOnce ['>'] after
  if inner.isEmpty then none else some inner

/-- `first_contact_uri` -/
def firstContactUri (header : Text) : Option Text :=
  let trimmed := trim header
  if trimmed.isEmpty || trimmed == ['*'] then none
  else (bracketed trimmed).or <|
    let first := trim (((splitBy (fun c => c == ',' || c == ' ' || c == '\t') trimmed).head?).getD trimmed)
    let uri := trim (((splitBy (· == ';') first).head?).getD first)
    if uri.isEmpty then none else some uri

/-- The element collected so far, if it is not blank. -/
def pushItem (out : List Text) (current : Text) : List Text :=
  if (trim current).isEmpty then out else out ++ [trim current]

def splitHeaderListGo (out : List Text) (depth : Nat) (current : Text) : Text → List Text
  | [] => pushItem out current
  | c :: cs =>
    if c = '<' then splitHeaderListGo out (depth + 1) (current ++ [c]) cs
    else if c = '>' then splitHeaderListGo out (depth - 1) (current ++ [c]) cs
    else if c = ',' ∧ depth = 0 then splitHeaderListGo (pushItem out current) depth [] cs
    else splitHeaderListGo out depth (current ++ [c]) cs

/-- `split_header_list`: commas inside `<...>` do not separate. -/
def splitHeaderList (value : Text) : List Text := splitHeaderListGo [] 0 [] value

/-- `parse_session_expires` -/
def parseSessionExpires (value : Text) : Option Nat × Option Text :=
  let parts := splitBy (· == ';') value
  let secs := parts.head?.bind fun n => parseUnsigned 32 (trim n)
  let refresher := parts.tail.findSome? fun p => do
    let (k, v) ← splitOnce ['='] p
    if eqIgnoreAsciiCase (trim k) "refresher".toList then some (toAsciiLowercase (trim v)) else none
  (secs, refresher)

/-! ## the summary -/

/-- What `summarize_request` collects from the header lines. -/
structure HeaderFields where
  branch : Option Text := none
  callId : Option Text := none
  fromTag : Option Text := none
  toTag : Option Text := none
  cseq : Option Nat := none
  contentType : Option Text := none
  authorization : Option Text := none
  contact : Option Text := none
  recordRoute : List Text := []
  fromUri : Option Text := none
  toUri : Option Text := none
  expires : Option Nat := none
  sessionExpires : Option Nat := none
  sessionRefresher : Option Text := none
  minSe : Option Nat := none
  supportsTimer : Bool := false
  webrtcTag : Option Text := none

/-- One of the given names. -/
def oneOf (names : List String) (name : Text) : Bool := names.any fun n => n.toList == name

def nonEmpty (value : Text) : Option Text := if value.isEmpty then none else some value

/-- The sequence number of a `CSeq` value. -/
def cseqNumber (value : Text) : Option Nat := (splitWhitespace value).head?.bind (parseUnsigned 32)

/-- `Content-Type` without parameters. -/
def mediaType (value : Text) : Text :=
  toAsciiLowercase (trim (((splitBy (· == ';') value).head?).getD value))

/-- One header, by its trimmed lower-case name and its trimmed value: the first occurrence
wins; `Record-Route` and `Supported` accumulate. -/
def HeaderFields.addHeader (h : HeaderFields) (name value : Text) : HeaderFields :=
  if oneOf ["via", "v"] name && h.branch.isNone then { h with branch := viaBranchParam value }
  else if oneOf ["call-id", "i"] name && h.callId.isNone && !value.isEmpty then { h with callId := some value }
  else if oneOf ["from", "f"] name && h.fromTag.isNone then
    { h with fromTag := extractTagParam value, fromUri := firstContactUri value }
  else if oneOf ["to", "t"] name && h.toTag.isNone then
    { h with toTag := extractTagParam value, toUri := firstContactUri value }
  else if oneOf ["cseq"] name && h.cseq.isNone then { h with cseq := cseqNumber value }
  else if oneOf ["content-type", "c"] name && h.contentType.isNone then
    if (mediaType value).isEmpty then h else { h with contentType := some (mediaType value) }
  else if oneOf ["authorization"] name && h.authorization.isNone && !value.isEmpty then
    { h with authorization := some value }
  else if oneOf ["contact", "m"] name && h.contact.isNone && !value.isEmpty then { h with contact := some value }
  else if oneOf ["record-route"] name then { h with recordRoute := h.recordRoute ++ splitHeaderList value }
  else if oneOf ["expires"] name && h.expires.isNone then { h with expires := parseUnsigned 32 value }
  else if oneOf ["session-expires", "x"] name && h.sessionExpires.isNone then
    { h with sessionExpires := (parseSessionExpires value).1, sessionRefresher := (parseSessionExpires value).2 }
  else if oneOf ["min-se"] name && h.minSe.isNone then
    { h with minSe := (splitBy (· == ';') value).head?.bind fun n => parseUnsigned 32 (trim n) }
  else if oneOf ["supported", "k"] name then
    { h with
      supportsTimer := h.supportsTimer || (splitHeaderList value).any fun tok => eqIgnoreAsciiCase tok "timer".toList }
  else if oneOf ["x-smiths-webrtc-tag"] name && h.webrtcTag.isNone && !value.isEmpty then
    { h with webrtcTag := some value }
  else h

/-- A header line as the scanner reads it: name in lower case and value, both trimmed; none
without a colon. -/
def nameValue (line : Text) : Option (Text × Text) :=
  (splitOnce [':'] line).map fun p => (toAsciiLowercase (trim p.1), trim p.2)

/-- One turn of the loop. -/
def HeaderFields.addLine (h : HeaderFields) (line : Text) : HeaderFields :=
  match nameValue line with
  | some (name, value) => h.addHeader name value
  | none => h

structure RequestSummary extends HeaderFields where
  method : Text
  ruriUser : Option Text
  requestUri : Option Text
  body : Option Text
  raw : Bytes

/-- The lines of the header block of a raw message, the first line included. -/
def messageLines (raw : Bytes) : List Text := splitSub crlf (splitHeadersBody (fromUtf8Lossy raw)).1

/-- `summarize_request` -/
def summarizeRequest (raw : Bytes) : RequestSummary :=
  let lines := messageLines raw
  let tokens := splitWhitespace ((lines.head?).getD [])
  let body := (splitHeadersBody (fromUtf8Lossy raw)).2
  { lines.tail.foldl HeaderFields.addLine {} with
    method := toAsciiUppercase ((tokens.head?).getD [])
    ruriUser := tokens[1]?.bind ruriUserFrom
    requestUri := tokens[1]?
    body := nonEmpty body
    raw := raw }

/-! ## the response -/

/-- A `To` line that does not say `;tag=` is given the local one. -/
def answerTo (localTag : Option Text) (line : Text) : Text :=
  match localTag with
  | some tag => if (findSub ";tag=".toList (toAsciiLowercase line)).isNone then line ++ (";tag=".toList ++ tag) else line
  | none => line

/-- The line a header line of the request becomes in a response. -/
def echoLine (localTag : Option Text) (line : Text) : Option Text :=
  if line.isEmpty then none
  else if startsWithAny ["via:", "v:", "from:", "f:", "call-id:", "i:", "cseq:"] line then some line
  else if startsWithAny ["to:", "t:"] line then some (answerTo localTag line)
  else none

/-- The lines of a response, its empty line left out. -/
def responseLines (requestLines : List Text) (status : UInt16) (reason : Text) (localTag : Option Text)
    (extras : List (Text × Text)) (bodyLength : Nat) : List Text :=
  ("SIP/2.0 ".toList ++ (showNat status.toNat ++ ' ' :: reason)) ::
    (requestLines.tail.filterMap (echoLine localTag) ++
      (extras.map fun p => p.1 ++ (": ".toList ++ p.2)) ++ ["Content-Length: ".toList ++ showNat bodyLength])

/-- `build_response` -/
def buildResponse (request : Bytes) (status : UInt16) (reason : Text) (localTag : Option Text)
    (extras : List (Text × Text)) (body : Bytes) : Bytes :=
  let lines := responseLines (messageLines request) status reason localTag extras body.length
  toUtf8 ((lines.map (· ++ crlf)).flatten ++ crlf) ++ body

end SmithsNet.Uas.Headers
