import SmithsNet.Proto.FixedFrame
import SmithsNet.Sidecar.Supervisor

/-!
# SmithsNet.Sidecar.Framings

The two framings of a sidecar's stdout (`smiths-sidecar/src/framing.rs` and the
readers of `supervisor.rs`): JSON objects, one a line, and envelopes behind their
lengths.

Both readers give the same `RpcResponse` to the same `deliver`, and the framings
are meant to be interchangeable.  They are not in two places: the envelope has no
way to say that there is an error but for its message, so that an error without
one is a success; and a frame that cannot be read is passed over as a line and
ends the connection as an envelope.  `framings_alike_iff` says exactly which
sequences of frames look the same to every caller and to the child.

JSON itself (`serde_json`) is a parameter.
-/

namespace SmithsNet.Sidecar

open Lib Proto

/-- What is used of `serde_json`. -/
structure Json (Value : Type) where
  /-- `from_str::<Value>` -/
  fromStr : Text → Option Value
  /-- `from_str::<RpcResponse>` -/
  frame : Text → Option (RpcResponse Value)
  /-- `Value::String` -/
  string : Text → Value

inductive FrameError
  | tooLarge (declared cap : Nat)
  | malformed (what : Text)
  | empty

/-- What becomes of a frame: it is given to `deliver`, it is passed over, or the
reader ends, which the supervisor takes for the child's death. -/
inductive Treatment (Value : Type)
  | routed (resp : RpcResponse Value)
  | skipped
  | ended

variable {Value : Type}

/-! ## the readers -/

namespace Json

variable (json : Json Value)

/-- Text that is not JSON is a string. -/
def textValue (text : Text) : Value := (json.fromStr text).getD (json.string text)

def decodeBinaryBody (body : Bytes) : Except FrameError (RpcResponse Value) :=
  match decodeEnvelopeFixed body with
  | .error (.malformed what) => .error (.malformed ("wire format: malformed: ".toList ++ what.toList))
  | .ok ⟨none⟩ => .error .empty
  | .ok ⟨some (.response r)⟩ => .ok {
      id := some r.id.toNat
      result := if r.result = [] then none else some (json.textValue r.result)
      error := if r.errorMessage = [] then none else some ⟨r.errorCode.toInt, r.errorMessage⟩
      method := none
      params := none }
  | .ok ⟨some (.notification n)⟩ => .ok {
      id := none
      result := none
      error := none
      method := some n.method
      params := some (json.textValue n.params) }
  | .ok ⟨some (.request r)⟩ => .error (.malformed
      ("child sent a request (`".toList ++ r.method ++ "`); sidecars only reply and notify".toList))

/-- The body of the line reader's loop, and `dispatch_frame`. -/
def treatLine (buf : Bytes) : Treatment Value :=
  match fromUtf8 buf with
  | none => .skipped
  | some line =>
    if trim line = [] then .skipped
    else
      match json.frame (trim line) with
      | some resp => .routed resp
      | none => .skipped

/-- The line reader, with what it has of the next line: it reads until the newline,
but for at most one byte more than the cap. -/
def readLines (cap : Nat) (buf : Bytes) : Bytes → List (Treatment Value)
  | [] => [.ended]
  | b :: bytes =>
    if b = 10 then json.treatLine (buf ++ [b]) :: readLines cap [] bytes
    else if cap ≤ buf.length then [.ended]
    else readLines cap (buf ++ [b]) bytes

end Json

def checkDeclaredLen (declared cap : Nat) : Except FrameError Unit :=
  if declared > cap then .error (.tooLarge declared cap) else .ok ()

/-- `read_binary_frames` -/
def Json.readBinaryFrames (json : Json Value) (cap : Nat) (bytes : Bytes) : List (Treatment Value) :=
  match bytes with
  | b₀ :: b₁ :: b₂ :: b₃ :: rest =>
    let declared := beNat [b₀, b₁, b₂, b₃]
    match checkDeclaredLen declared cap with
    | .error _ => [.ended]
    | .ok () =>
      if rest.length < declared then [.ended]
      else
        match json.decodeBinaryBody (rest.take declared) with
        | .ok resp => .routed resp :: json.readBinaryFrames cap (rest.drop declared)
        | .error _ => [.ended]
  | _ => [.ended]
termination_by bytes.length
decreasing_by
  simp only [List.length_cons, List.length_drop]
  omega

/-! ## what callers see -/

/-- What happens to the map of pending calls. -/
inductive Event
  /-- A call enters its id. -/
  | enter (id : Nat)
  /-- A call gives up. -/
  | leave (id : Nat)
  /-- The reader gets to its next response or, past the last, to its end. -/
  | next

/-- Which calls get what: `deliver` for each response, `fail_pending` at the end. -/
def serve [Inhabited Value] : List (RpcResponse Value) → List Nat → List Event → List (Nat × Outcome Value)
  | _, _, [] => []
  | resps, pending, .enter id :: events => serve resps (id :: pending) events
  | resps, pending, .leave id :: events => serve resps (pending.filter (· ≠ id)) events
  | [], pending, .next :: events => pending.map (fun id => (id, .closed)) ++ serve [] [] events
  | resp :: resps, pending, .next :: events =>
    match resp.id with
    | some id =>
      if id ∈ pending then (id, resp.outcome) :: serve resps (pending.filter (· ≠ id)) events
      else serve resps pending events
    | none => serve resps pending events

namespace Treatment

/-- Without what is routed. -/
def fate : Treatment Value → Treatment Unit
  | .routed _ => .routed ⟨none, none, none, none, none⟩
  | .skipped => .skipped
  | .ended => .ended

def response : Treatment Value → Option (RpcResponse Value)
  | .routed resp => some resp
  | .skipped | .ended => none

end Treatment

/-- Two readings look the same: the child's frames are treated alike, and however
calls come and go, each gets the same. -/
structure SameToAll [Inhabited Value] (a b : List (Treatment Value)) : Prop where
  fates : a.map Treatment.fate = b.map Treatment.fate
  callers : ∀ events, serve (a.filterMap Treatment.response) [] events =
    serve (b.filterMap Treatment.response) [] events

/-! ## what is sent -/

/-- What a response says. -/
inductive Answer (Value : Type)
  | result (value : Value)
  | error (code : Int32) (message : Text)

structure Logical (Value : Type) where
  id : UInt64
  answer : Answer Value

def Logical.outcome (r : Logical Value) : Outcome Value :=
  match r.answer with
  | .result value => .ok value
  | .error code message => .plugin code.toInt message

/-- An error without a message. -/
def Logical.mute (r : Logical Value) : Bool :=
  match r.answer with
  | .error _ [] => true
  | _ => false

/-- The line, with its newline, is this response in JSON.  A `null` and no result
are the same. -/
def Json.LineCarries [Inhabited Value] (json : Json Value) (buf : Bytes) (r : Logical Value) : Prop :=
  ∃ line resp, fromUtf8 buf = some line ∧ trim line ≠ [] ∧ json.frame (trim line) = some resp ∧
    resp.id = some r.id.toNat ∧
    match r.answer with
    | .result value => resp.error = none ∧ resp.result.getD default = value
    | .error code message => resp.error = some ⟨code.toInt, message⟩

/-- The body is this response as an envelope. -/
def Json.BodyCarries [Inhabited Value] (json : Json Value) (body : Bytes) (r : Logical Value) : Prop :=
  ∃ result errorMessage errorCode,
    body = encodeEnvelopeFixed ⟨some (.response ⟨r.id, result, errorMessage, errorCode⟩)⟩ ∧
    match r.answer with
    | .result value => errorMessage = [] ∧
        (if result = [] then default else json.textValue result) = value
    | .error code message => errorMessage = message ∧ errorCode = code

/-- A frame in both framings. -/
structure Item [Inhabited Value] (json : Json Value) where
  /-- The response it is, if it is one. -/
  said : Option (Logical Value)
  line : Bytes
  body : Bytes
  oneLine : 10 ∉ line
  short : body.length < 2 ^ 32
  carries : ∀ r, said = some r → json.LineCarries (line ++ [10]) r ∧ json.BodyCarries body r
  malformed : said = none →
    (∀ text, fromUtf8 (line ++ [10]) = some text → trim text = [] ∨ json.frame (trim text) = none) ∧
    ∀ resp, json.decodeBinaryBody body ≠ .ok resp

section

variable [Inhabited Value] {json : Json Value}

def jsonStream (items : List (Item json)) (tail : Bytes) : Bytes :=
  (items.map fun i => i.line ++ [10]).flatten ++ tail

def binaryStream (items : List (Item json)) (tail : Bytes) : Bytes :=
  (items.map fun i => beBytes 4 i.body.length ++ i.body).flatten ++ tail

end

/-- No line is whole: the end, a part of a line, or one over the cap. -/
def JsonTail (cap : Nat) (tail : Bytes) : Prop := 10 ∉ tail.take (cap + 1)

/-- No frame is whole: the end, a part of a frame, or a length over the cap. -/
def BinaryTail (cap : Nat) (tail : Bytes) : Prop :=
  tail.length < 4 ∨ cap < beNat (tail.take 4) ∨ tail.length < 4 + beNat (tail.take 4)

/-- Up to the first frame over the cap, every response is over it in both framings
or in neither and is no error without a message, and what is malformed is over the
cap as a line. -/
def Alike [Inhabited Value] {json : Json Value} (cap : Nat) : List (Item json) → Prop
  | [] => True
  | i :: items =>
    match i.said with
    | some r => (i.line.length ≤ cap ↔ i.body.length ≤ cap) ∧
        (i.line.length ≤ cap → r.mute = false ∧ Alike cap items)
    | none => cap < i.line.length

/-! ## one frame at a time -/

section Readers

variable (json : Json Value) {cap : Nat}

theorem readLines_line {line : Bytes} (hline : 10 ∉ line) (rest buf : Bytes) (hbuf : buf.length ≤ cap) :
    json.readLines cap buf (line ++ 10 :: rest) =
      if buf.length + line.length ≤ cap then json.treatLine (buf ++ line ++ [10]) :: json.readLines cap [] rest
      else [.ended] := by
  induction line generalizing buf with
  | nil => simp [Json.readLines, hbuf]
  | cons b line ih =>
    have hb := List.ne_of_not_mem_cons hline
    have hline := List.not_mem_of_not_mem_cons hline
    rw [List.cons_append, Json.readLines, if_neg (Ne.symm hb)]
    by_cases hfull : cap ≤ buf.length
    · rw [if_pos hfull, if_neg (by simp only [List.length_cons]; omega)]
    · rw [if_neg hfull, ih hline (buf ++ [b]) (by simp only [List.length_append, List.length_singleton]; omega)]
      simp only [List.length_append, List.length_cons, List.length_nil, List.append_assoc, List.cons_append,
        List.nil_append, Nat.zero_add]
      rw [Nat.add_assoc, Nat.add_comm 1]

theorem readLines_tail {tail : Bytes} {buf : Bytes} (hbuf : buf.length ≤ cap)
    (htail : 10 ∉ tail.take (cap - buf.length + 1)) : json.readLines cap buf tail = [.ended] := by
  induction tail generalizing buf with
  | nil => rfl
  | cons b tail ih =>
    rw [List.take_succ_cons] at htail
    have hb := List.ne_of_not_mem_cons htail
    have htail := List.not_mem_of_not_mem_cons htail
    rw [Json.readLines, if_neg (Ne.symm hb)]
    by_cases hfull : cap ≤ buf.length
    · rw [if_pos hfull]
    · rw [if_neg hfull]
      refine ih (by simp only [List.length_append, List.length_singleton]; omega) ?_
      rwa [List.length_append, List.length_singleton, show cap - (buf.length + 1) + 1 = cap - buf.length by omega]

theorem readBinaryFrames_frame {body : Bytes} (hshort : body.length < 2 ^ 32) (rest : Bytes) :
    json.readBinaryFrames cap (beBytes 4 body.length ++ body ++ rest) =
      if body.length ≤ cap then
        match json.decodeBinaryBody body with
        | .ok resp => .routed resp :: json.readBinaryFrames cap rest
        | .error _ => [.ended]
      else [.ended] := by
  have hlen : beNat (beBytes 4 body.length) = body.length := beNat_beBytes_of_lt (by omega)
  match hbytes : beBytes 4 body.length, length_beBytes 4 body.length with
  | [b₀, b₁, b₂, b₃], _ =>
    rw [hbytes] at hlen
    rw [List.append_assoc]
    simp only [List.cons_append, List.nil_append]
    rw [Json.readBinaryFrames]
    simp only [hlen, checkDeclaredLen]
    by_cases hcap : body.length ≤ cap
    · rw [if_neg (by omega), if_pos hcap]
      simp
    · rw [if_pos (by omega), if_neg hcap]

theorem readBinaryFrames_tail {tail : Bytes} (htail : BinaryTail cap tail) :
    json.readBinaryFrames cap tail = [.ended] := by
  unfold Json.readBinaryFrames
  split
  · next b₀ b₁ b₂ b₃ rest =>
    unfold BinaryTail at htail
    simp only [List.length_cons, List.take_succ_cons, List.take_zero] at htail
    obtain htail | htail | htail := htail
    · omega
    · simp only [checkDeclaredLen, if_pos htail]
    · simp only [checkDeclaredLen]
      split
      · rfl
      · rw [if_pos (by omega)]
  · rfl

theorem treatLine_of_malformed {buf : Bytes}
    (h : ∀ text, fromUtf8 buf = some text → trim text = [] ∨ json.frame (trim text) = none) :
    json.treatLine buf = .skipped := by
  unfold Json.treatLine
  split
  · rfl
  · next line hline =>
    obtain hblank | hframe := h line hline
    · rw [if_pos hblank]
    · split
      · rfl
      · rw [hframe]

end Readers

section Frames

variable [Inhabited Value] {json : Json Value}

theorem treatLine_of_carries {buf : Bytes} {r : Logical Value} (h : json.LineCarries buf r) :
    ∃ resp, json.treatLine buf = .routed resp ∧ resp.id = some r.id.toNat ∧ resp.outcome = r.outcome := by
  obtain ⟨line, resp, htext, hblank, hframe, hid, hanswer⟩ := h
  refine ⟨resp, ?_, hid, ?_⟩
  · unfold Json.treatLine
    simp only [htext, hframe, if_neg hblank]
  · unfold RpcResponse.outcome Logical.outcome
    cases hr : r.answer with
    | result value =>
      rw [hr] at hanswer
      obtain ⟨herror, hresult⟩ := hanswer
      rw [herror, ← hresult]
    | error code message =>
      rw [hr] at hanswer
      rw [hanswer]

theorem decode_response {r : Proto.Response}
    (hshort : (encodeEnvelopeFixed ⟨some (.response r)⟩).length < 2 ^ 32) :
    decodeEnvelopeFixed (encodeEnvelopeFixed ⟨some (.response r)⟩) = .ok ⟨some (.response r)⟩ := by
  have hpiece : ∀ p ∈ Proto.envPieces (Proto.splitEnvelope ⟨some (.response r)⟩), p.length < 2 ^ 32 := by
    intro p hp
    exact Nat.lt_of_le_of_lt (List.sublist_flatten_of_mem hp).length_le hshort
  apply Proto.decode_encode_envelope
  refine ⟨?_, ?_, ?_, ?_⟩ <;> apply hpiece <;> simp [Proto.envPieces]

/-- An envelope that carries a response gives its caller what it says, but for an
error without a message, which is a success. -/
theorem decodeBinaryBody_of_carries {body : Bytes} {r : Logical Value} (h : json.BodyCarries body r)
    (hshort : body.length < 2 ^ 32) :
    ∃ resp, json.decodeBinaryBody body = .ok resp ∧ resp.id = some r.id.toNat ∧
      (resp.outcome = r.outcome ↔ r.mute = false) := by
  obtain ⟨result, errorMessage, errorCode, rfl, hanswer⟩ := h
  refine ⟨_, by rw [Json.decodeBinaryBody, decode_response hshort], rfl, ?_⟩
  unfold RpcResponse.outcome Logical.outcome Logical.mute
  cases hr : r.answer with
  | result value =>
    rw [hr] at hanswer
    obtain ⟨rfl, hresult⟩ := hanswer
    simp only [if_true, ← hresult]
    split <;> simp
  | error code message =>
    rw [hr] at hanswer
    obtain ⟨rfl, rfl⟩ := hanswer
    cases errorMessage with
    | nil => simp
    | cons c errorMessage => simp

end Frames

/-! ## callers -/

section Callers

variable [Inhabited Value] {a b : List (RpcResponse Value)}

theorem serve_enter (a : List (RpcResponse Value)) (pending others : List Nat) (events : List Event) :
    serve a others (pending.reverse.map .enter ++ events) = serve a (pending ++ others) events := by
  induction pending generalizing events with
  | nil => rfl
  | cons id pending ih =>
    rw [List.reverse_cons, List.map_append, List.append_assoc, ih]
    simp only [List.map_cons, List.map_nil, List.cons_append, List.nil_append, serve]

theorem serve_cons_congr {r t : RpcResponse Value} (hid : r.id = t.id) (hout : r.outcome = t.outcome)
    (h : ∀ events, serve a [] events = serve b [] events) (pending : List Nat) (events : List Event) :
    serve (r :: a) pending events = serve (t :: b) pending events := by
  have hrest : ∀ pending events, serve a pending events = serve b pending events := by
    intro pending events
    rw [← List.append_nil pending, ← serve_enter, ← serve_enter, h]
  induction events generalizing pending with
  | nil => simp only [serve]
  | cons event events ih =>
    cases event with
    | enter id =>
      simp only [serve]
      exact ih _
    | leave id =>
      simp only [serve]
      exact ih _
    | next => simp only [serve, hid, hout, hrest]

theorem serve_tail {r t : RpcResponse Value}
    (h : ∀ events, serve (r :: a) [] events = serve (t :: b) [] events) :
    ∀ events, serve a [] events = serve b [] events := by
  intro events
  have hnext := h (.next :: events)
  simp only [serve, List.not_mem_nil, if_false] at hnext
  split at hnext <;> split at hnext <;> exact hnext

theorem serve_head {r t : RpcResponse Value} {id : Nat} (hr : r.id = some id) (ht : t.id = some id)
    (h : ∀ events, serve (r :: a) [] events = serve (t :: b) [] events) : r.outcome = t.outcome := by
  have hcall := h [.enter id, .next]
  simp only [serve, hr, ht, List.mem_singleton, if_true] at hcall
  exact (Prod.mk.inj (List.cons.inj hcall).1).2

end Callers

/-! ## both framings -/

section Same

variable [Inhabited Value] {json : Json Value} {cap : Nat}

theorem sameToAll_routed {r t : RpcResponse Value} {id : Nat} (hr : r.id = some id) (ht : t.id = some id)
    {a b : List (Treatment Value)} :
    SameToAll (.routed r :: a) (.routed t :: b) ↔ t.outcome = r.outcome ∧ SameToAll a b := by
  constructor
  · rintro ⟨hfates, hcallers⟩
    exact ⟨(serve_head hr ht hcallers).symm, (List.cons.inj hfates).2, serve_tail hcallers⟩
  · rintro ⟨hout, hfates, hcallers⟩
    exact ⟨congrArg (_ :: ·) hfates, serve_cons_congr (hr.trans ht.symm) hout.symm hcallers []⟩

theorem not_sameToAll_of_fate {t u : Treatment Value} (hne : t.fate ≠ u.fate) {a b : List (Treatment Value)} :
    ¬ SameToAll (t :: a) (u :: b) := by
  rintro ⟨hfates, -⟩
  exact hne (List.cons.inj hfates).1

theorem jsonStream_cons (i : Item json) (items : List (Item json)) (tail : Bytes) :
    jsonStream (i :: items) tail = i.line ++ 10 :: jsonStream items tail := by
  simp [jsonStream]

theorem binaryStream_cons (i : Item json) (items : List (Item json)) (tail : Bytes) :
    binaryStream (i :: items) tail = beBytes 4 i.body.length ++ i.body ++ binaryStream items tail := by
  simp [binaryStream]

/-- The framings look the same to every caller and to the child exactly where no
response is an error without a message and nothing malformed comes (unless it is
over the cap), up to the first frame over the cap. -/
theorem framings_alike_iff (items : List (Item json)) {jsonTail binaryTail : Bytes} (hjson : JsonTail cap jsonTail)
    (hbinary : BinaryTail cap binaryTail) :
    SameToAll (json.readLines cap [] (jsonStream items jsonTail))
      (json.readBinaryFrames cap (binaryStream items binaryTail)) ↔ Alike cap items := by
  induction items with
  | nil =>
    show SameToAll (json.readLines cap [] jsonTail) (json.readBinaryFrames cap binaryTail) ↔ True
    have hlines : json.readLines cap [] jsonTail = [.ended] := readLines_tail json (Nat.zero_le _) hjson
    rw [hlines, readBinaryFrames_tail json hbinary]
    exact iff_true_intro ⟨rfl, fun _ => rfl⟩
  | cons i items ih =>
    rw [jsonStream_cons, binaryStream_cons, readLines_line json i.oneLine _ [] (Nat.zero_le _),
      readBinaryFrames_frame json i.short, List.length_nil, Nat.zero_add, List.nil_append, Alike]
    cases hsaid : i.said with
    | some r =>
      obtain ⟨hline, hbody⟩ := i.carries r hsaid
      obtain ⟨resp, htreat, hid, hout⟩ := treatLine_of_carries hline
      obtain ⟨resp', hdecode, hid', hout'⟩ := decodeBinaryBody_of_carries hbody i.short
      simp only [htreat, hdecode]
      by_cases hfits : i.line.length ≤ cap
      · by_cases hfits' : i.body.length ≤ cap
        · rw [if_pos hfits, if_pos hfits', sameToAll_routed hid hid', ih, hout, hout']
          simp only [hfits, hfits', true_and, forall_true_left]
        · rw [if_pos hfits, if_neg hfits']
          simp only [hfits, hfits', iff_false, not_true_eq_false, false_and]
          exact not_sameToAll_of_fate (by simp [Treatment.fate])
      · by_cases hfits' : i.body.length ≤ cap
        · rw [if_neg hfits, if_pos hfits']
          simp only [hfits, hfits', iff_true, false_and, iff_false]
          exact not_sameToAll_of_fate (by simp [Treatment.fate])
        · rw [if_neg hfits, if_neg hfits']
          simp only [hfits, hfits', true_and, false_implies, iff_true]
          exact ⟨rfl, fun _ => rfl⟩
    | none =>
      obtain ⟨hline, hbody⟩ := i.malformed hsaid
      have hends : (if i.body.length ≤ cap then
          match json.decodeBinaryBody i.body with
          | .ok resp => .routed resp :: json.readBinaryFrames cap (binaryStream items binaryTail)
          | .error _ => [.ended]
        else [.ended]) = [Treatment.ended] := by
        split
        · split
          · next resp hok => exact absurd hok (hbody resp)
          · rfl
        · rfl
      rw [hends, treatLine_of_malformed json hline]
      by_cases hfits : i.line.length ≤ cap
      · rw [if_pos hfits]
        simp only [Nat.not_lt.mpr hfits, iff_false]
        exact not_sameToAll_of_fate (by simp [Treatment.fate])
      · rw [if_neg hfits]
        simp only [Nat.lt_of_not_le hfits, iff_true]
        exact ⟨rfl, fun _ => rfl⟩

end Same

/-- A result and an error without a message, as JSON. -/
def resultLine : Text := "\x7b\"id\":1,\"result\":\"ok\"\x7d".toList

def muteLine : Text := "\x7b\"id\":1,\"error\":\x7b\"code\":-32000,\"message\":\"\"\x7d\x7d".toList

/-- `serde_json` on these; a value is `null` or a string. -/
def sampleJson : Json (Option Text) where
  fromStr text := if text = "\"ok\"".toList then some (some "ok".toList) else none
  frame text :=
    if text = resultLine then some ⟨some 1, some (some "ok".toList), none, none, none⟩
    else if text = muteLine then some ⟨some 1, none, some ⟨-32000, []⟩, none, none⟩
    else none
  string := some

def resultItem : Item sampleJson where
  said := some ⟨1, .result (some "ok".toList)⟩
  line := toUtf8 resultLine
  body := encodeEnvelopeFixed ⟨some (.response ⟨1, "\"ok\"".toList, [], 0⟩)⟩
  oneLine := by decide +kernel
  short := by decide +kernel
  carries := by
    intro r hr
    obtain rfl := Option.some.inj hr
    refine ⟨⟨resultLine ++ ['\n'], ⟨some 1, some (some "ok".toList), none, none, none⟩, ?_, ?_, ?_, rfl, rfl, rfl⟩,
      ⟨_, _, _, rfl, rfl, ?_⟩⟩ <;> decide +kernel
  malformed := nofun

def muteItem : Item sampleJson where
  said := some ⟨1, .error (-32000) []⟩
  line := toUtf8 muteLine
  body := encodeEnvelopeFixed ⟨some (.response ⟨1, [], [], -32000⟩)⟩
  oneLine := by decide +kernel
  short := by decide +kernel
  carries := by
    intro r hr
    obtain rfl := Option.some.inj hr
    refine ⟨⟨muteLine ++ ['\n'], ⟨some 1, none, some ⟨-32000, []⟩, none, none⟩, ?_, ?_, ?_, rfl, ?_⟩,
      ⟨_, _, _, rfl, rfl, rfl⟩⟩ <;> decide +kernel
  malformed := nofun

/-- A result looks the same in both framings. -/
theorem framings_alike_resultItem :
    SameToAll (sampleJson.readLines 100 [] (jsonStream [resultItem] []))
      (sampleJson.readBinaryFrames 100 (binaryStream [resultItem] [])) := by
  have htail : JsonTail 100 [] := List.not_mem_nil
  have htail' : BinaryTail 100 [] := .inl (by decide)
  refine (framings_alike_iff [resultItem] htail htail').mpr ⟨?_, fun _ => ⟨rfl, trivial⟩⟩
  decide +kernel

/-- An error without a message does not. -/
theorem mute_error_differs : ¬ SameToAll (sampleJson.readLines 100 [] (jsonStream [muteItem] []))
      (sampleJson.readBinaryFrames 100 (binaryStream [muteItem] [])) := by
  rintro ⟨-, hcallers⟩
  have hcall := hcallers [.enter 1, .next]
  have hline : (sampleJson.readLines 100 [] (jsonStream [muteItem] [])).filterMap Treatment.response =
      [⟨some 1, none, some ⟨-32000, []⟩, none, none⟩] := by decide +kernel
  have hframe : (sampleJson.readBinaryFrames 100 (binaryStream [muteItem] [])).filterMap Treatment.response =
      [⟨some 1, none, none, none, none⟩] := by
    decide +kernel
  rw [hline, hframe] at hcall
  contradiction

end SmithsNet.Sidecar
