import SmithsNet.Txn.Basic

/-!
# SmithsNet.Txn.Ack

ACK construction for non-2xx finals (`txn/ack.rs`, RFC 3261 §17.1.1.3): the
client INVITE transaction reuses the INVITE's request line, `Via`, `From`,
`Call-ID`, `CSeq` number and `Route` headers verbatim and takes `To`, with the
server's tag, from the response.  Every missing header makes the construction
fail; the machine then goes on without an ACK.
-/

namespace SmithsNet.Txn

open Lib

/-- The header separator. -/
def crlf : Text := "\r\n".toList

/-- Header block of a message: everything before the first empty line, or the
whole text. -/
def headerBlock (s : Text) : Text :=
  match splitOnce "\r\n\r\n".toList s with
  | some (headers, _) => headers
  | none => s

/-- `extract_request_uri`: second token of the request line. -/
def extractRequestUri (requestLine : Text) : Option Text :=
  match splitWhitespace requestLine with
  | _ :: uri :: _ => some uri
  | _ => none

/-- `parse_cseq_num`: first token after the colon. -/
def parseCseqNum (line : Text) : Option Text :=
  (splitOnce [':'] line).bind fun (_, v) => (splitWhitespace (trim v)).head?

/-- The line starts with one of the (lowercase) header names, ignoring case. -/
def startsWithAny (names : List String) (line : Text) : Bool :=
  names.any fun n => n.toList.isPrefixOf (toAsciiLowercase line)

/-- What the loop over the INVITE's header lines collects: the first line of
each kind, and every `Route` line. -/
structure InviteHeaders where
  via : Option Text := none
  hdrFrom : Option Text := none
  callId : Option Text := none
  cseqNum : Option Text := none
  maxForwards : Option Text := none
  routes : List Text := []

/-- One turn of the loop, with the source's order of tests. -/
def InviteHeaders.addLine (h : InviteHeaders) (line : Text) : InviteHeaders :=
  if h.via.isNone && startsWithAny ["via:", "v:"] line then { h with via := some line }
  else if h.hdrFrom.isNone && startsWithAny ["from:", "f:"] line then
    { h with hdrFrom := some line }
  else if h.callId.isNone && startsWithAny ["call-id:", "i:"] line then
    { h with callId := some line }
  else if h.cseqNum.isNone && startsWithAny ["cseq:"] line then
    { h with cseqNum := parseCseqNum line }
  else if h.maxForwards.isNone && startsWithAny ["max-forwards:"] line then
    { h with maxForwards := some line }
  else if startsWithAny ["route:"] line then { h with routes := h.routes ++ [line] }
  else h

/-- The loop stops at the first empty line. -/
def InviteHeaders.collect (lines : List Text) : InviteHeaders :=
  (lines.takeWhile (! ·.isEmpty)).foldl InviteHeaders.addLine {}

/-- The ACK's lines, in wire order. -/
def ackLines (requestUri via : Text) (routes : List Text) (hdrFrom responseTo callId cseqNum : Text)
    (maxForwards : Option Text) : List Text :=
  ["ACK ".toList ++ requestUri ++ " SIP/2.0".toList, via] ++ routes ++
    [hdrFrom, responseTo, callId, "CSeq: ".toList ++ cseqNum ++ " ACK".toList,
      maxForwards.getD "Max-Forwards: 70".toList, "Content-Length: 0".toList]

/-- `build_non_ok_ack`, on text. -/
def buildNonOkAckText (invite response : Text) : Option Text := do
  let lines := splitSub crlf (headerBlock invite)
  let requestLine ← lines.head?
  let requestUri ← extractRequestUri requestLine
  let h := InviteHeaders.collect lines.tail
  let responseTo ← (splitSub crlf (headerBlock response)).find? (startsWithAny ["to:", "t:"])
  let via ← h.via
  let hdrFrom ← h.hdrFrom
  let callId ← h.callId
  let cseqNum ← h.cseqNum
  let out := ackLines requestUri via h.routes hdrFrom responseTo callId cseqNum h.maxForwards
  pure ((out.map (· ++ crlf)).flatten ++ crlf)

/-- `build_non_ok_ack`: both messages must be UTF-8. -/
def buildNonOkAck (invite response : Bytes) : Option Bytes := do
  let i ← fromUtf8 invite
  let r ← fromUtf8 response
  (buildNonOkAckText i r).map toUtf8

end SmithsNet.Txn
