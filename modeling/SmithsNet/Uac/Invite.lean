import SmithsNet.Lib.Blocks
import SmithsNet.Lib.Lines
import SmithsNet.Lib.Wire
import SmithsNet.Txn.Ack

/-!
# SmithsNet.Uac.Invite

The INVITE the user-agent client builds (`smiths-sip/src/uac.rs`, `build_invite`), and the
ACK the transaction layer makes of it and of a final response (`txn/ack.rs`).

The ACK is found by reading the INVITE's text again.  Its lines are read back as they were
written, whatever the fields hold besides line ends (`lines_text`), so the ACK repeats them;
only the Request-URI is read as a word (`nonOkAck_invite`).
-/

namespace SmithsNet.Uac

open Lib Txn
open InviteHeaders (addLine collect)

/-! ## the request -/

/-- What an INVITE is made of; `viaSentBy` is the address as it is displayed. -/
structure InviteFields where
  requestUri : Text
  viaTransport : Text
  viaSentBy : Text
  branch : Text
  fromUri : Text
  fromTag : Text
  toUri : Text
  callId : Text
  cseq : UInt32
  contact : Text
  sdp : Text

/-- A header line. -/
def header (name : String) (value : Text) : Text := name.toList ++ (": ".toList ++ value)

namespace InviteFields

def requestLine (f : InviteFields) : Text := "INVITE".toList ++ ' ' :: (f.requestUri ++ ' ' :: "SIP/2.0".toList)

def viaLine (f : InviteFields) : Text :=
  header "Via" ("SIP/2.0/".toList ++ f.viaTransport ++ ' ' :: f.viaSentBy ++ ";branch=".toList ++ f.branch ++ ";rport".toList)

def fromLine (f : InviteFields) : Text := header "From" (f.fromUri ++ ";tag=".toList ++ f.fromTag)

def callIdLine (f : InviteFields) : Text := header "Call-ID" f.callId

/-- The header lines behind the request line. -/
def headerLines (f : InviteFields) : List Text :=
  [f.viaLine, f.fromLine, header "To" f.toUri, f.callIdLine,
    header "CSeq" (showNat f.cseq.toNat ++ ' ' :: "INVITE".toList), header "Max-Forwards" "70".toList,
    header "Contact" f.contact, header "Content-Type" "application/sdp".toList,
    header "Content-Length" (showNat (toUtf8 f.sdp).length)]

/-- `build_invite`, as text. -/
def text (f : InviteFields) : Text :=
  ((f.requestLine :: f.headerLines).map (· ++ crlf)).flatten ++ crlf ++ f.sdp

end InviteFields

/-- `build_invite`. -/
def buildInvite (f : InviteFields) : Bytes := toUtf8 f.text

/-- No line ends inside. -/
def LineFree (s : Text) : Prop := ∀ c ∈ s, c ≠ '\r' ∧ c ≠ '\n'

instance (s : Text) : Decidable (LineFree s) := inferInstanceAs (Decidable (∀ _ ∈ _, _))

/-- No field of a header line holds a line end; the body may. -/
structure InviteFields.Plain (f : InviteFields) : Prop where
  requestUri : LineFree f.requestUri
  viaTransport : LineFree f.viaTransport
  viaSentBy : LineFree f.viaSentBy
  branch : LineFree f.branch
  fromUri : LineFree f.fromUri
  fromTag : LineFree f.fromTag
  toUri : LineFree f.toUri
  callId : LineFree f.callId
  contact : LineFree f.contact

/-! ## the lines are read back -/

theorem LineFree.append {s t : Text} (hs : LineFree s) (ht : LineFree t) : LineFree (s ++ t) := by
  intro c hc
  exact (List.mem_append.mp hc).elim (hs c) (ht c)

theorem LineFree.space {t : Text} (ht : LineFree t) : LineFree (' ' :: t) := by
  intro c hc
  obtain rfl | hc := List.mem_cons.mp hc
  · decide
  · exact ht c hc

theorem lineFree_showNat (n : Nat) : LineFree (showNat n) := by
  intro c hc
  have hdigit := digit_of_mem_showNat hc
  constructor
  · rintro rfl
    cases hdigit
  · rintro rfl
    cases hdigit

theorem LineFree.pairFree {s : Text} (h : LineFree s) : PairFree '\r' '\n' s :=
  pairFree_of_not_mem fun hin => (h _ hin).1 rfl

theorem LineFree.header {name : String} {value : Text} (hname : LineFree name.toList) (h : LineFree value) :
    LineFree (header name value) := hname.append (LineFree.append (by decide) h)

theorem header_ne_nil (name : String) (value : Text) : header name value ≠ [] :=
  List.append_ne_nil_of_right_ne_nil _ (List.append_ne_nil_of_left_ne_nil (by decide) _)

theorem InviteFields.Plain.requestLine {f : InviteFields} (h : f.Plain) : LineFree f.requestLine :=
  .append (by decide) (.space (h.requestUri.append (.space (by decide))))

theorem InviteFields.Plain.headerLines {f : InviteFields} (h : f.Plain) :
    ∀ line ∈ f.headerLines, line ≠ [] ∧ LineFree line := by
  have hvia : LineFree ("SIP/2.0/".toList ++ f.viaTransport ++ ' ' :: f.viaSentBy ++ ";branch=".toList ++ f.branch ++
      ";rport".toList) :=
    ((((LineFree.append (by decide) h.viaTransport).append h.viaSentBy.space).append (by decide)).append h.branch).append
      (by decide)
  have hfrom : LineFree (f.fromUri ++ ";tag=".toList ++ f.fromTag) := (h.fromUri.append (by decide)).append h.fromTag
  have hcseq : LineFree (showNat f.cseq.toNat ++ ' ' :: "INVITE".toList) :=
    (lineFree_showNat _).append (.space (by decide))
  unfold InviteFields.headerLines
  simp only [List.forall_mem_cons, List.not_mem_nil, false_implies, implies_true, and_true]
  exact ⟨⟨header_ne_nil _ _, .header (by decide) hvia⟩, ⟨header_ne_nil _ _, .header (by decide) hfrom⟩,
    ⟨header_ne_nil _ _, .header (by decide) h.toUri⟩, ⟨header_ne_nil _ _, .header (by decide) h.callId⟩,
    ⟨header_ne_nil _ _, .header (by decide) hcseq⟩, ⟨header_ne_nil _ _, .header (by decide) (by decide)⟩,
    ⟨header_ne_nil _ _, .header (by decide) h.contact⟩, ⟨header_ne_nil _ _, .header (by decide) (by decide)⟩,
    ⟨header_ne_nil _ _, .header (by decide) (lineFree_showNat _)⟩⟩

theorem lines_text {f : InviteFields} (h : f.Plain) :
    splitSub crlf (headerBlock f.text) = f.requestLine :: f.headerLines := by
  have hne : f.requestLine :: f.headerLines ≠ [] := List.cons_ne_nil _ _
  have hlines : ∀ line ∈ f.requestLine :: f.headerLines, line ≠ [] ∧ PairFree '\r' '\n' line := by
    intro line hline
    obtain rfl | hline := List.mem_cons.mp hline
    · exact ⟨List.append_ne_nil_of_left_ne_nil (by decide) _, h.requestLine.pairFree⟩
    · exact ⟨(h.headerLines line hline).1, (h.headerLines line hline).2.pairFree⟩
  have hcut : splitOnce "\r\n\r\n".toList f.text = some (crlf.intercalate (f.requestLine :: f.headerLines), f.sdp) := by
    unfold InviteFields.text
    rw [List.append_assoc]
    exact splitOnce_block (by decide) hne hlines f.sdp
  rw [headerBlock, hcut]
  exact splitSub_intercalate (by decide) hne fun line hline => (hlines line hline).2

/-! ## what the ACK takes from them -/

theorem extractRequestUri_requestLine {f : InviteFields} (h : Token f.requestUri) :
    extractRequestUri f.requestLine = some f.requestUri := by
  have hinvite : Token "INVITE".toList := ⟨by decide, by decide⟩
  have hversion : Token "SIP/2.0".toList := ⟨by decide, by decide⟩
  have hwords : splitWhitespace ("INVITE".toList ++ ' ' :: (f.requestUri ++ ' ' :: "SIP/2.0".toList)) =
      ["INVITE".toList, f.requestUri, "SIP/2.0".toList] := by
    rw [splitWhitespace_token_cons hinvite, splitWhitespace_token_cons h, splitWhitespace_token hversion]
  unfold extractRequestUri InviteFields.requestLine
  rw [hwords]

theorem trim_space (s : Text) : trim (' ' :: s) = trim s := by
  have hwhite : isWhitespace ' ' = true := by decide
  rw [trim, List.dropWhile_cons_of_pos hwhite, trim]

theorem parseCseqNum_header (n : Nat) (method : Text) (hmethod : Token method) :
    parseCseqNum (header "CSeq" (showNat n ++ ' ' :: method)) = some (showNat n) := by
  have hcut : splitOnce [':'] (header "CSeq" (showNat n ++ ' ' :: method)) =
      some ("CSeq".toList, ' ' :: (showNat n ++ ' ' :: method)) := splitOnce_char (by decide) _
  have htrim : trim (showNat n ++ ' ' :: method) = showNat n ++ ' ' :: method :=
    trim_token_append (token_showNat n) hmethod.ne fun c hc => hmethod.plain c (List.mem_of_getLast? hc)
  rw [parseCseqNum, hcut]
  simp only [Option.bind_some]
  rw [trim_space, htrim, splitWhitespace_token_cons (token_showNat n), List.head?_cons]

theorem addLines_identity (via hdrFrom hdrTo callId : Text) :
    [header "Via" via, header "From" hdrFrom, header "To" hdrTo, header "Call-ID" callId].foldl addLine {} =
      { via := some (header "Via" via), hdrFrom := some (header "From" hdrFrom),
        callId := some (header "Call-ID" callId) } := rfl

theorem addLine_cseq (via hdrFrom callId cseq : Text) :
    addLine { via := some via, hdrFrom := some hdrFrom, callId := some callId } (header "CSeq" cseq) =
      { via := some via, hdrFrom := some hdrFrom, callId := some callId,
        cseqNum := parseCseqNum (header "CSeq" cseq) } := rfl

theorem addLine_maxForwards (via hdrFrom callId cseqNum maxForwards : Text) :
    addLine { via := some via, hdrFrom := some hdrFrom, callId := some callId, cseqNum := some cseqNum }
        (header "Max-Forwards" maxForwards) =
      { via := some via, hdrFrom := some hdrFrom, callId := some callId, cseqNum := some cseqNum,
        maxForwards := some (header "Max-Forwards" maxForwards) } := rfl

theorem addLines_others (via hdrFrom callId cseqNum maxForwards contact contentType contentLength : Text) :
    [header "Contact" contact, header "Content-Type" contentType, header "Content-Length" contentLength].foldl
        addLine
        { via := some via, hdrFrom := some hdrFrom, callId := some callId, cseqNum := some cseqNum,
          maxForwards := some maxForwards } =
      { via := some via, hdrFrom := some hdrFrom, callId := some callId, cseqNum := some cseqNum,
        maxForwards := some maxForwards } := rfl

theorem collect_headerLines {f : InviteFields} (h : f.Plain) : collect f.headerLines =
      { via := some f.viaLine, hdrFrom := some f.fromLine, callId := some f.callIdLine,
        cseqNum := some (showNat f.cseq.toNat), maxForwards := some (header "Max-Forwards" "70".toList) } := by
  have hall : f.headerLines.takeWhile (! ·.isEmpty) = f.headerLines := by
    rw [List.takeWhile_eq_self_iff]
    intro line hline
    simpa using (h.headerLines line hline).1
  have hnum := parseCseqNum_header f.cseq.toNat "INVITE".toList ⟨by decide, by decide⟩
  have hsplit : f.headerLines = [f.viaLine, f.fromLine, header "To" f.toUri, f.callIdLine] ++
      header "CSeq" (showNat f.cseq.toNat ++ ' ' :: "INVITE".toList) :: header "Max-Forwards" "70".toList ::
        [header "Contact" f.contact, header "Content-Type" "application/sdp".toList,
          header "Content-Length" (showNat (toUtf8 f.sdp).length)] := rfl
  rw [collect, hall, hsplit, List.foldl_append]
  unfold InviteFields.viaLine InviteFields.fromLine InviteFields.callIdLine
  rw [addLines_identity, List.foldl_cons, addLine_cseq, hnum, List.foldl_cons, addLine_maxForwards, addLines_others]

/-! ## the ACK -/

/-- The line is the first of the response's header block that starts with `To:` or `t:`. -/
def FirstTo (response toLine : Text) : Prop :=
  (splitSub crlf (headerBlock response)).find? (startsWithAny ["to:", "t:"]) = some toLine

/-- The ACK of an INVITE: its Request-URI, `Via`, `From`, `Call-ID` and number, the `To` of the
response; no route, as the INVITE has none. -/
def ackText (f : InviteFields) (toLine : Text) : Text :=
  ((["ACK ".toList ++ f.requestUri ++ " SIP/2.0".toList, f.viaLine, f.fromLine, toLine, f.callIdLine,
    "CSeq: ".toList ++ showNat f.cseq.toNat ++ " ACK".toList, "Max-Forwards: 70".toList,
    "Content-Length: 0".toList]).map (· ++ crlf)).flatten ++ crlf

theorem nonOkAck_plain (f : InviteFields) (h : f.Plain) (response : Text) :
    buildNonOkAck (buildInvite f) (toUtf8 response) = (do
      let requestUri ← extractRequestUri f.requestLine
      let toLine ← (splitSub crlf (headerBlock response)).find? (startsWithAny ["to:", "t:"])
      pure (toUtf8 (ackText { f with requestUri := requestUri } toLine))) := by
  rw [buildNonOkAck, buildInvite, fromUtf8_toUtf8, fromUtf8_toUtf8]
  simp only [buildNonOkAckText, Option.bind_eq_bind, Option.bind_some, lines_text h, List.head?_cons, List.tail_cons,
    collect_headerLines h]
  cases extractRequestUri f.requestLine with
  | none => rfl
  | some requestUri =>
    cases (splitSub crlf (headerBlock response)).find? (startsWithAny ["to:", "t:"]) with
    | none => rfl
    | some toLine => rfl

/-- **The ACK of an INVITE repeats it**, for a Request-URI that is one word and a response in
UTF-8 that has a `To` line. -/
theorem nonOkAck_invite (f : InviteFields) (h : f.Plain) (huri : Token f.requestUri) (response toLine : Text)
    (hto : FirstTo response toLine) :
    buildNonOkAck (buildInvite f) (toUtf8 response) = some (toUtf8 (ackText f toLine)) := by
  have hto' : (splitSub crlf (headerBlock response)).find? (startsWithAny ["to:", "t:"]) = some toLine := hto
  rw [nonOkAck_plain f h, extractRequestUri_requestLine huri, hto']
  rfl

/-- A call that is refused. -/
def busyInvite : InviteFields where
  requestUri := "sip:bob@192.0.2.7".toList
  viaTransport := "UDP".toList
  viaSentBy := "192.0.2.1:5060".toList
  branch := "z9hG4bK-1".toList
  fromUri := "<sip:alice@192.0.2.1>".toList
  fromTag := "a1".toList
  toUri := "<sip:bob@192.0.2.7>".toList
  callId := "c1".toList
  cseq := 1
  contact := "<sip:alice@192.0.2.1>".toList
  sdp := "v=0\r\n".toList

theorem plain_busyInvite : busyInvite.Plain := by
  constructor <;> decide +kernel

/-- The refusal. -/
def busyResponse : Text := "SIP/2.0 486 Busy Here\r\nTo: <sip:bob@192.0.2.7>;tag=b1\r\n\r\n".toList

theorem firstTo_busyResponse : FirstTo busyResponse "To: <sip:bob@192.0.2.7>;tag=b1".toList := by
  rw [FirstTo, show busyResponse = _ from String.toList_ofList]
  decide +kernel

theorem nonOkAck_busy : buildNonOkAck (buildInvite busyInvite) (toUtf8 busyResponse) =
    some (toUtf8 (ackText busyInvite "To: <sip:bob@192.0.2.7>;tag=b1".toList)) :=
  nonOkAck_invite busyInvite plain_busyInvite ⟨by decide, by decide⟩ busyResponse _ firstTo_busyResponse

/-- A Request-URI of two words is cut; no ACK comes of a response that is not UTF-8, or has
a space before the colon. -/
theorem nonOkAck_two_words :
    (¬ ∀ (f : InviteFields) (response toLine : Text), f.Plain → FirstTo response toLine →
      buildNonOkAck (buildInvite f) (toUtf8 response) = some (toUtf8 (ackText f toLine))) ∧
    buildNonOkAck (buildInvite busyInvite) (toUtf8 busyResponse ++ [255]) = none ∧
    buildNonOkAck (buildInvite busyInvite)
      (toUtf8 "SIP/2.0 486 Busy Here\r\nTo : <sip:bob@192.0.2.7>;tag=b1\r\n\r\n".toList) = none := by
  refine ⟨?_, ?_, ?_⟩
  · intro h
    have hplain : ({ busyInvite with requestUri := "sip:bob 2".toList } : InviteFields).Plain :=
      { plain_busyInvite with requestUri := by decide }
    have hack := h { busyInvite with requestUri := "sip:bob 2".toList } busyResponse _ hplain firstTo_busyResponse
    have huri : extractRequestUri ({ busyInvite with requestUri := "sip:bob 2".toList } : InviteFields).requestLine =
        some "sip:bob".toList := by decide +kernel
    have hto : (splitSub crlf (headerBlock busyResponse)).find? (startsWithAny ["to:", "t:"]) = some _ :=
      firstTo_busyResponse
    rw [nonOkAck_plain _ hplain, huri, hto] at hack
    have hletter := congrArg (·[12]?) (toUtf8_inj (Option.some.inj hack))
    revert hletter
    decide +kernel
  · have hbroken : fromUtf8 (toUtf8 busyResponse ++ [255]) = none := by
      rw [show busyResponse = _ from String.toList_ofList]
      decide +kernel
    rw [buildNonOkAck, buildInvite, fromUtf8_toUtf8, hbroken]
    rfl
  · have hnone : (splitSub crlf
      (headerBlock "SIP/2.0 486 Busy Here\r\nTo : <sip:bob@192.0.2.7>;tag=b1\r\n\r\n".toList)).find?
        (startsWithAny ["to:", "t:"]) = none := by
      rw [show "SIP/2.0 486 Busy Here\r\nTo : <sip:bob@192.0.2.7>;tag=b1\r\n\r\n".toList = _ from String.toList_ofList]
      decide +kernel
    rw [nonOkAck_plain _ plain_busyInvite, extractRequestUri_requestLine ⟨by decide, by decide⟩, hnone]
    rfl

end SmithsNet.Uac
