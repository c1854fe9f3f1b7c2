import SmithsNet.Sdp.WellFormed

/-!
# SmithsNet.Sdp.RoundTrip

Rendering a description and parsing the text.

`parse_toText_iff`: a parsed description is read back as it was (a channel count
of one being the same as none) exactly when no block of the text has T.38
attributes of which nothing is left to render.  `t38_lost` is such a text.

What the parser yields is well formed (`wf_of_parse`), and what is well formed
is read back line by line.
-/

namespace SmithsNet.Sdp

open Lib SmithsNet.Core Option List
open ParseState (applyKind applyLine)
open T38Params SessionDescription

/-! ## lines -/

instance (t : Text) : Decidable (Plain t) :=
  decidable_of_iff (t.all (· ≠ '\n') = true ∧ t.getLast? ≠ some '\r') (by
    simp only [List.all_eq_true, decide_eq_true_eq]
    exact ⟨fun h => ⟨h.1, h.2⟩, fun h => ⟨h.1, h.2⟩⟩)

variable {lite : Bool} {e : ExtMap} {c : IceCandidate} {gs : List Group} {ls' ls ts : List Text}
    {m : MediaDescription} {g : MediaDescription → MediaDescription} {n : Nat} {st' st : ParseState}
    {r : RtpMap} {d : SessionDescription} {x y t l lead a b name : Text} {α : Type}
    {line : α → Text}

theorem Plain.append (hx : ∀ c ∈ x, c ≠ '\n') (hy : Plain y) (hne : y ≠ []) : Plain (x ++ y) := by
  refine ⟨?_, ?_⟩
  · intro c hc
    obtain hc | hc := mem_append.mp hc
    · exact hx c hc
    · exact hy.line c hc
  · rw [List.getLast?_append_of_ne_nil _ hne]
    exact hy.last

theorem Plain.cons {c : Char} (hc : c ≠ '\n') (hy : Plain y) (hne : y ≠ []) :
    Plain (c :: y) := Plain.append (x := [c]) (by simpa using hc) hy hne

theorem Plain.keyword (hx : Plain x) (hy : Plain y) : Plain (x ++ y) := by
  by_cases hne : y = []
  · rw [hne, append_nil]
    exact hx
  · exact .append hx.line hy hne

theorem plain_of_white (hline : ∀ c ∈ t, c ≠ '\n')
    (hlast : ∀ c, t.getLast? = some c → isWhitespace c = false) : Plain t := by
  refine ⟨hline, fun h => ?_⟩
  have := hlast '\r' h
  contradiction

theorem token_line (h : Token t) : ∀ c ∈ t, c ≠ '\n' := by
  rintro c hc rfl
  have := h.plain _ hc
  contradiction

theorem plain_token (h : Token t) : Plain t :=
  plain_of_white (token_line h) fun c hc => h.plain c (List.mem_of_getLast? hc)

theorem plain_trim (hline : ∀ c ∈ t, c ≠ '\n') (htrim : trim t = t) : Plain t :=
  plain_of_white hline (last_of_trim_eq htrim)

section Reads

variable (conv : Conv)

/-- The line takes the parser from one state to the other. -/
def Reads (st : ParseState) (l : Text) (st' : ParseState) : Prop :=
  Plain l ∧ ∀ i, st.applyLine conv (l, i) = .ok st'

/-- So do lines, one after the other. -/
inductive ReadsAll : ParseState → List Text → ParseState → Prop
  | nil (st : ParseState) : ReadsAll st [] st
  | cons {st st' st'' : ParseState} {l : Text} {ls : List Text} :
      Reads conv st l st' → ReadsAll st' ls st'' → ReadsAll st (l :: ls) st''

end Reads

variable {conv : Conv}

theorem ReadsAll.append {st'' : ParseState}
    (h : ReadsAll conv st ls st') (h' : ReadsAll conv st' ls' st'') :
    ReadsAll conv st (ls ++ ls') st'' := by
  induction h with
  | nil st => exact h'
  | cons hl _ ih => exact .cons hl (ih h')

theorem ReadsAll.one (h : Reads conv st l st') : ReadsAll conv st [l] st' := .cons h (.nil _)

theorem stripEnd_append (h : Plain l) : stripEnd (l ++ ['\r']) = l ∧ stripEnd l = l := by
  have hlast : l.getLast? ≠ some '\n' := by
    intro hc
    exact h.line _ (List.mem_of_getLast? hc) rfl
  refine ⟨?_, ?_⟩
  · rw [stripEnd, trimEndMatches_append h.last, trimEndMatches_of_ne hlast]
  · rw [stripEnd, trimEndMatches_of_ne h.last, trimEndMatches_of_ne hlast]

theorem ReadsAll.foldlM (h : ReadsAll conv st ls st') (k : Nat) :
    ((ls.map (· ++ ['\r']) ++ [[]]).zipIdx k).foldlM (applyLine conv) st = .ok st' := by
  induction h generalizing k with
  | nil st => rfl
  | @cons st st₁ st₂ l ls hl _ ih =>
    have hline : st.applyLine conv (l ++ ['\r'], k) = .ok st₁ := by
      obtain ⟨hreturn, hsame⟩ := stripEnd_append hl.1
      have happly := hl.2 k
      unfold applyLine at happly ⊢
      rw [hreturn]
      rwa [hsame] at happly
    rw [List.map_cons, cons_append, List.zipIdx_cons, List.foldlM_cons, hline]
    exact ih (k + 1)

theorem ReadsAll.plain (h : ReadsAll conv st ls st') : ∀ l ∈ ls, Plain l := by
  induction h with
  | nil st => simp
  | cons hl _ ih => simpa using ⟨hl.1, ih⟩

theorem parse_of_readsAll (h : ReadsAll conv {} (d.lines conv) st) :
    parse conv (d.toText conv) = st.finish := by
  have hlines : splitBy (· == '\n') (d.toText conv) = (d.lines conv).map (· ++ ['\r']) ++ [[]] := by
    have htext : d.toText conv = ((d.lines conv).map (· ++ ['\r'])).flatMap fun l => l ++ ['\n'] := by
      simp [toText, List.flatMap_map]
    rw [htext, splitBy_lines (by decide)]
    intro l hl c hc
    obtain ⟨l', hl', rfl⟩ := List.mem_map.mp hl
    simp only [beq_eq_false_iff_ne]
    obtain hc | hc := mem_append.mp hc
    · exact (h.plain l' hl').line c hc
    · obtain rfl := List.mem_singleton.mp hc
      decide
  unfold parse
  rw [hlines, h.foldlM 0]
  rfl

/-! ## blocks -/

theorem reads_kind {k : Char} {v : Text} (hlead : l = [k, '='])
    (hk : k ≠ '=' ∧ k ≠ '\n') (hvalue : Plain v)
    (happly : ∀ i, st.applyKind conv [k] v i = .ok st') : Reads conv st (l ++ v) st' := by
  subst hlead
  have hplain : Plain ([k, '='] ++ v) := by
    refine Plain.keyword ⟨?_, by simp⟩ hvalue
    simpa using hk.2
  refine ⟨hplain, fun i => ?_⟩
  have hsplit : splitOnceBy (· == '=') ([k, '='] ++ v) = some ([k], v) :=
    splitOnceBy_append (x := [k]) (by simpa using hk.1) (by decide) v
  unfold applyLine
  rw [(stripEnd_append hplain).2, if_neg (by simp), hsplit]
  exact happly (i + 1)

section Feeds

variable (conv : Conv)

/-- The lines change the block being read. -/
def Feeds (ls : List Text) (g : MediaDescription → MediaDescription) : Prop :=
  ∀ (st : ParseState) (m : MediaDescription),
    ReadsAll conv { st with cur := some m } ls { st with cur := some (g m) }

end Feeds

theorem Feeds.append {g' : MediaDescription → MediaDescription}
    (h : Feeds conv ls g) (h' : Feeds conv ls' g') : Feeds conv (ls ++ ls') fun m => g' (g m) :=
  fun st m => (h st m).append (h' st (g m))

theorem feeds_nil : Feeds conv [] fun m => m := fun _ _ => .nil _

/-- The letters of the attributes, so that two of them are compared as lists. -/
theorem attribute_letters : "rtpmap:".toList = ['r', 't', 'p', 'm', 'a', 'p', ':'] ∧
    "fmtp:".toList = ['f', 'm', 't', 'p', ':'] ∧ "ptime:".toList = ['p', 't', 'i', 'm', 'e', ':'] ∧
    "maxptime:".toList = ['m', 'a', 'x', 'p', 't', 'i', 'm', 'e', ':'] ∧
    "crypto:".toList = ['c', 'r', 'y', 'p', 't', 'o', ':'] ∧
    "fingerprint:".toList = ['f', 'i', 'n', 'g', 'e', 'r', 'p', 'r', 'i', 'n', 't', ':'] ∧
    "setup:".toList = ['s', 'e', 't', 'u', 'p', ':'] ∧
    "ice-ufrag:".toList = ['i', 'c', 'e', '-', 'u', 'f', 'r', 'a', 'g', ':'] ∧
    "ice-pwd:".toList = ['i', 'c', 'e', '-', 'p', 'w', 'd', ':'] ∧
    "ice-options:".toList = ['i', 'c', 'e', '-', 'o', 'p', 't', 'i', 'o', 'n', 's', ':'] ∧
    "candidate:".toList = ['c', 'a', 'n', 'd', 'i', 'd', 'a', 't', 'e', ':'] ∧
    "end-of-candidates".toList = ['e', 'n', 'd', '-', 'o', 'f', '-', 'c', 'a', 'n', 'd', 'i', 'd', 'a', 't', 'e', 's'] ∧
    "mid:".toList = ['m', 'i', 'd', ':'] ∧ "extmap:".toList = ['e', 'x', 't', 'm', 'a', 'p', ':'] ∧
    "rtcp-mux".toList = ['r', 't', 'c', 'p', '-', 'm', 'u', 'x'] ∧
    "rtcp:".toList = ['r', 't', 'c', 'p', ':'] ∧
    "rtcp-fb:".toList = ['r', 't', 'c', 'p', '-', 'f', 'b', ':'] := by
  repeat' apply And.intro
  all_goals exact String.toList_ofList

theorem feeds_attr (word : Text) {rest : Text}
    (hlead : lead = "a=".toList ++ word) (hplain : Plain (word ++ rest))
    (happly : ∀ m i, applyMediaAttribute conv (word ++ rest) m i = .ok (g m)) :
    Feeds conv [lead ++ rest] g := by
  intro st m
  subst hlead
  rw [append_assoc]
  refine .one (reads_kind rfl (by decide) hplain fun i => ?_)
  have hm := happly m i
  simp only [applyKind, hm]
  rfl

theorem feeds_option (conv : Conv) (o : Option α)
    (g : Option α → MediaDescription → MediaDescription) (hnone : ∀ m, g none m = m)
    (h : ∀ a ∈ o, Feeds conv [line a] (g (some a))) : Feeds conv (o.map line).toList (g o) := by
  cases o with
  | none =>
    intro st m
    rw [hnone]
    exact .nil _
  | some a => exact h a rfl

theorem feeds_flag (conv : Conv) (flag : Bool) (g : Bool → MediaDescription → MediaDescription)
    (hfalse : ∀ m, g false m = m) (h : Feeds conv [l] (g true)) :
    Feeds conv (if flag then [l] else []) (g flag) := by
  cases flag with
  | false =>
    intro st m
    rw [hfalse]
    exact .nil _
  | true => exact h

/-! ## attributes -/

theorem plain_entry (h : Entry a b) : Plain (a ++ ' ' :: b) := by
  refine Plain.append (token_line h.word) (Plain.cons (by decide) ?_ h.ne) (by simp)
  exact plain_trim h.rest.line h.rest.ends

theorem split_entry (h : Entry a b) :
    splitOnceBy isWhitespace (trim (a ++ ' ' :: b)) = some (a, b) := by
  rw [trim_token_append h.word h.ne (last_of_trim_eq h.rest.ends)]
  exact splitOnceBy_append h.word.plain (by decide) b

/-- A channel count of one is the default. -/
def RtpMap.canonical (r : RtpMap) : RtpMap :=
  { r with channels := if r.channels = some 1 then none else r.channels }

theorem parseInt_showNat (bits : Nat) (h : n < 2 ^ bits) (i : Nat) (what : Text) :
    parseInt bits (showNat n) i what = .ok n := by
  rw [parseInt, parseUnsigned_showNat h]

theorem showNat_slash (n : Nat) : ∀ c ∈ showNat n, (c == '/') = false := showNat_ne (by decide)

/-- The channels of an `a=rtpmap:` line. -/
def RtpMap.tail (r : RtpMap) : Text :=
  match r.channels with
  | none => []
  | some n => if n = 1 then [] else '/' :: showNat n.toNat

theorem RtpMap.line_eq (r : RtpMap) :
    r.line = "a=rtpmap:".toList ++ (showNat r.payloadType.toNat ++ ' ' ::
      (r.codec ++ '/' :: (showNat r.clockRate.toNat ++ r.tail))) := by
  unfold RtpMap.line RtpMap.tail
  cases r.channels with
  | none => simp only [append_assoc, cons_append, append_nil]
  | some n =>
    dsimp only
    split
    · simp only [append_assoc, cons_append, append_nil]
    · simp only [append_assoc, cons_append]

theorem parseRtpmap_line (h : r.WF) (i : Nat) : parseRtpmap (showNat r.payloadType.toNat ++ ' ' ::
      (r.codec ++ '/' :: (showNat r.clockRate.toNat ++ r.tail))) i = .ok r.canonical := by
  have hspace : ∀ c ∈ showNat r.payloadType.toNat, (c == ' ') = false := showNat_ne (by decide)
  have hcodec : ∀ c ∈ r.codec, (c == '/') = false := fun c hc => by simpa using (h c hc).1
  have hpt := parseInt_showNat 8 r.payloadType.toNat_lt i
  have hclock := parseInt_showNat 32 r.clockRate.toNat_lt i
  have hstep : ∀ tail channels, splitBy (· == '/') (showNat r.clockRate.toNat ++ tail) =
      showNat r.clockRate.toNat :: channels → channels.length ≤ 1 →
      parseChannels i channels = .ok r.canonical.channels →
      parseRtpmap (showNat r.payloadType.toNat ++ ' ' ::
        (r.codec ++ '/' :: (showNat r.clockRate.toNat ++ tail))) i = .ok r.canonical := by
    intro tail channels hpieces hlen hchannels
    unfold parseRtpmap
    rw [splitOnceBy_append hspace (by decide)]
    dsimp only
    rw [hpt, splitBy_append hcodec (by decide), hpieces]
    dsimp only [bind, Except.bind]
    rw [if_neg (by omega), hclock]
    dsimp only
    rw [hchannels]
    simp [RtpMap.canonical, pure, Except.pure]
  unfold RtpMap.tail
  cases hchan : r.channels with
  | none =>
    refine hstep [] [] ?_ (by simp) (by simp [parseChannels, RtpMap.canonical, hchan])
    rw [append_nil]
    exact splitBy_of_forall (showNat_slash _)
  | some n =>
    dsimp only
    split
    · next hone =>
      refine hstep [] [] ?_ (by simp) (by simp [parseChannels, RtpMap.canonical, hchan, hone])
      rw [append_nil]
      exact splitBy_of_forall (showNat_slash _)
    · next hone =>
      refine hstep _ [showNat n.toNat] ?_ (by simp) ?_
      · rw [splitBy_append (showNat_slash _) (by decide), splitBy_of_forall (showNat_slash _)]
      · rw [parseChannels, parseInt_showNat 8 n.toNat_lt]
        simp [RtpMap.canonical, hchan, hone, bind, Except.bind, pure, Except.pure]

theorem plain_tail : Plain (showNat r.clockRate.toNat ++ r.tail) := by
  unfold RtpMap.tail
  have hclock := plain_token (token_showNat r.clockRate.toNat)
  refine Plain.keyword hclock ?_
  split
  · decide
  · split
    · decide
    · exact Plain.cons (by decide) (plain_token (token_showNat _)) (token_showNat _).ne

theorem feeds_rtpmap (h : r.WF) :
    Feeds conv [r.line] fun m => { m with rtpmap := m.rtpmap ++ [r.canonical] } := by
  rw [r.line_eq]
  refine feeds_attr "rtpmap:".toList rfl (.keyword (by decide) ?_) fun m i => ?_
  · refine .append (token_line (token_showNat _)) (.cons (by decide) ?_ (by simp)) (by simp)
    refine .append (fun c hc => (h c hc).2) (.cons (by decide) plain_tail ?_) (by simp)
    simp [(token_showNat r.clockRate.toNat).ne]
  · simp only [applyMediaAttribute, stripLead_append, parseRtpmap_line h]
    rfl

theorem feeds_fmtp {f : Fmtp} (h : f.WF) :
    Feeds conv [f.line] fun m => { m with fmtp := m.fmtp ++ [f] } := by
  have hline : f.line = "a=fmtp:".toList ++ (f.format ++ ' ' :: f.params) := by
    unfold Fmtp.line
    rw [append_assoc]
  have hentry : Entry f.format f.params := h
  rw [hline]
  refine feeds_attr "fmtp:".toList rfl (.keyword (by decide) (plain_entry hentry))
    fun m i => ?_
  simp (disch := decide) only [attribute_letters, applyMediaAttribute, stripLead_of_clash, stripLead_append,
    split_entry hentry, hentry.rest.ends, map_some, toList_some]

theorem feeds_ptime (n : UInt32) :
    Feeds conv ["a=ptime:".toList ++ showNat n.toNat] fun m => { m with ptime := some n } := by
  have htoken := token_showNat n.toNat
  refine feeds_attr "ptime:".toList rfl (.keyword (by decide) (plain_token htoken))
    fun m i => ?_
  simp (disch := decide) only [attribute_letters, applyMediaAttribute, stripLead_of_clash, stripLead_append,
    trim_token htoken, parseUnsigned_showNat n.toNat_lt]
  simp

theorem feeds_maxptime (n : UInt32) :
    Feeds conv ["a=maxptime:".toList ++ showNat n.toNat] fun m => { m with maxptime := some n } := by
  have htoken := token_showNat n.toNat
  refine feeds_attr "maxptime:".toList rfl (.keyword (by decide) (plain_token htoken))
    fun m i => ?_
  simp (disch := decide) only [attribute_letters, applyMediaAttribute, stripLead_of_clash, stripLead_append,
    trim_token htoken, parseUnsigned_showNat n.toNat_lt]
  simp

theorem token_inline (bs : Bytes) : Token ("inline:".toList ++ conv.encode64 bs) := by
  refine ⟨by simp, fun c hc => ?_⟩
  obtain hc | hc := mem_append.mp hc
  · exact (by decide : ∀ c ∈ "inline:".toList, isWhitespace c = false) c hc
  · exact (conv.plain_encode64 bs c hc).1

theorem feeds_crypto {c : SdesCrypto} (h : c.WF) :
    Feeds conv [c.line conv] fun m => { m with crypto := m.crypto ++ [c] } := by
  have hline : c.line conv = "a=crypto:".toList ++ (showNat c.tag.toNat ++ ' ' ::
      (c.suite.sdpName ++ ' ' :: ("inline:".toList ++ conv.encode64 c.keyMaterial))) := by
    unfold SdesCrypto.line
    simp only [append_assoc, cons_append]
  have hname : Token c.suite.sdpName := by
    cases c.suite
    exact ⟨by decide, by decide⟩
  have hsuite : SrtpSuite.fromSdpName c.suite.sdpName = some c.suite := by
    cases c.suite
    rfl
  have hbar : ∀ d ∈ conv.encode64 c.keyMaterial, (d == '|') = false := by
    intro d hd
    simpa using (conv.plain_encode64 _ d hd).2
  have hcrypto : parseCrypto conv (showNat c.tag.toNat ++ ' ' ::
      (c.suite.sdpName ++ ' ' :: ("inline:".toList ++ conv.encode64 c.keyMaterial))) = some c := by
    unfold parseCrypto
    rw [splitWhitespace_token_cons (token_showNat _), splitWhitespace_token_cons hname,
      splitWhitespace_token (token_inline _)]
    simp only [parseUnsigned_showNat c.tag.toNat_lt, hsuite, stripLead_append,
      splitBy_of_forall hbar, List.headD_cons, conv.decode64_encode64, bind_eq_bind,
      bind_some]
    have hlen : c.keyMaterial.length = c.suite.keyMaterialLen := h
    rw [if_neg (not_not.mpr hlen)]
    simp
  rw [hline]
  refine feeds_attr "crypto:".toList rfl (.keyword (by decide) ?_) fun m i => ?_
  · refine .append (token_line (token_showNat _)) (.cons (by decide) ?_ (by simp)) (by simp)
    refine .append (token_line hname) (.cons (by decide) (plain_token (token_inline _)) (by simp))
      (by simp)
  · simp (disch := decide) only [attribute_letters, applyMediaAttribute, stripLead_of_clash, stripLead_append, hcrypto,
      toList_some]

/-! ## security attributes -/

theorem feeds_fingerprint {f : Fingerprint} (h : f.WF) :
    Feeds conv [f.line] fun m => { m with fingerprint := some f } := by
  have hline : f.line = "a=fingerprint:".toList ++ (f.algorithm ++ ' ' :: f.value) := by
    unfold Fingerprint.line
    rw [append_assoc]
  have hparse : parseFingerprint (f.algorithm ++ ' ' :: f.value) = some f := by
    simp only [parseFingerprint, split_entry h.entry, map_some, h.lower, h.entry.rest.ends]
  rw [hline]
  refine feeds_attr "fingerprint:".toList rfl (.keyword (by decide) (plain_entry h.entry))
    fun m i => ?_
  simp (disch := decide) only [attribute_letters, applyMediaAttribute, applySecurityAttribute, stripLead_of_clash,
    stripLead_append, hparse]

theorem feeds_setup (s : DtlsSetup) :
    Feeds conv ["a=setup:".toList ++ s.asStr] fun m => { m with setup := some s } := by
  have hplain : Plain s.asStr := by cases s <;> decide
  have hparse : DtlsSetup.parse (trim s.asStr) = some s := by cases s <;> decide
  refine feeds_attr "setup:".toList rfl (.keyword (by decide) hplain) fun m i => ?_
  simp (disch := decide) only [attribute_letters, applyMediaAttribute, applySecurityAttribute, stripLead_of_clash,
    stripLead_append, hparse]

theorem feeds_iceUfrag {u : Text} (h : Trimmed u) :
    Feeds conv ["a=ice-ufrag:".toList ++ u] fun m => { m with iceUfrag := some u } := by
  refine feeds_attr "ice-ufrag:".toList rfl
    (.keyword (by decide) (plain_trim h.line h.ends)) fun m i => ?_
  simp (disch := decide) only [attribute_letters, applyMediaAttribute, applySecurityAttribute, stripLead_of_clash,
    stripLead_append, h.ends]

theorem feeds_icePwd {p : Text} (h : Trimmed p) :
    Feeds conv ["a=ice-pwd:".toList ++ p] fun m => { m with icePwd := some p } := by
  refine feeds_attr "ice-pwd:".toList rfl
    (.keyword (by decide) (plain_trim h.line h.ends)) fun m i => ?_
  simp (disch := decide) only [attribute_letters, applyMediaAttribute, applySecurityAttribute, stripLead_of_clash,
    stripLead_append, h.ends]

theorem intercalate_cons (t : Text) (ts : List Text) :
    intercalate [' '] (t :: ts) = t ++ spaced ts := by
  induction ts generalizing t with
  | nil => simp [spaced]
  | cons u ts ih =>
    rw [List.intercalate_cons_cons, ih]
    simp [spaced]

theorem plain_spaced (ht : Plain t) (hts : ∀ u ∈ ts, Token u) : Plain (t ++ spaced ts) := by
  induction ts generalizing t with
  | nil => simpa [spaced] using ht
  | cons u ts ih =>
    obtain ⟨hu, hts⟩ := forall_mem_cons.mp hts
    have hsplit : t ++ spaced (u :: ts) = t ++ ' ' :: u ++ spaced ts := by simp [spaced]
    rw [hsplit]
    refine ih ?_ hts
    exact .append ht.line (.cons (by decide) (plain_token hu) hu.ne) (by simp)

theorem feeds_iceOptions (conv : Conv) (h : ∀ t ∈ ts, Token t) :
    Feeds conv (if ts.isEmpty then [] else ["a=ice-options:".toList ++ intercalate [' '] ts])
      fun m => { m with iceOptions := if ts.isEmpty then m.iceOptions else ts } := by
  cases ts with
  | nil => exact feeds_nil
  | cons t ts =>
    obtain ⟨ht, hts⟩ := forall_mem_cons.mp h
    rw [List.isEmpty_cons, intercalate_cons]
    refine feeds_attr "ice-options:".toList rfl
      (.keyword (by decide) (plain_spaced (plain_token ht) hts)) fun m i => ?_
    simp (disch := decide) only [attribute_letters, applyMediaAttribute, applySecurityAttribute, stripLead_of_clash,
      stripLead_append, splitWhitespace_token_spaced ht hts]
    rfl

/-- The words of a candidate behind its type. -/
def IceCandidate.extras (conv : Conv) (c : IceCandidate) : List Text :=
  (c.relatedAddress.map fun a => ["raddr".toList, conv.showIp a]).getD [] ++
    (c.relatedPort.map fun p => ["rport".toList, showNat p.toNat]).getD [] ++
    c.rawParams.flatMap fun e => [e.1, e.2]

theorem parseExtras_rawParams {ps : List (Text × Text)} (h : ∀ e ∈ ps, RawParam e) :
    parseExtras conv c (ps.flatMap fun e => [e.1, e.2]) =
      some { c with rawParams := c.rawParams ++ ps } := by
  induction ps generalizing c with
  | nil => simp [parseExtras]
  | cons e ps ih =>
    obtain ⟨he, hps⟩ := forall_mem_cons.mp h
    have hwords : ((e :: ps).flatMap fun e => [e.1, e.2]) =
        e.1 :: e.2 :: ps.flatMap fun e => [e.1, e.2] := by simp
    rw [hwords, parseExtras, if_neg he.raddr, if_neg he.rport, ih hps]
    simp

theorem parseExtras_extras (h : c.WF) :
    parseExtras conv { c with relatedAddress := none, relatedPort := none, rawParams := [] }
      (c.extras conv) = some c := by
  unfold IceCandidate.extras
  have hraddr : ∀ (c' : IceCandidate) (o : Option IpAddr) rest, c'.relatedAddress = none →
      parseExtras conv c' ((o.map fun a => ["raddr".toList, conv.showIp a]).getD [] ++ rest) =
        parseExtras conv { c' with relatedAddress := o } rest := by
    intro c' o rest hnone
    cases o with
    | none =>
      have hsame : ({ c' with relatedAddress := none } : IceCandidate) = c' := by
        cases c'
        cases hnone
        rfl
      rw [hsame]
      rfl
    | some a =>
      simp only [map_some, getD_some, cons_append, nil_append, parseExtras,
        if_true, conv.readIp_showIp, bind_some]
  have hrport : ∀ (c' : IceCandidate) (o : Option UInt16) rest, c'.relatedPort = none →
      parseExtras conv c' ((o.map fun p => ["rport".toList, showNat p.toNat]).getD [] ++ rest) =
        parseExtras conv { c' with relatedPort := o } rest := by
    intro c' o rest hnone
    cases o with
    | none =>
      have hsame : ({ c' with relatedPort := none } : IceCandidate) = c' := by
        cases c'
        cases hnone
        rfl
      rw [hsame]
      rfl
    | some p =>
      have hne : ("rport".toList = "raddr".toList) = False := eq_false (by decide)
      simp only [map_some, getD_some, cons_append, nil_append, parseExtras,
        hne, if_true, if_false, parseUnsigned_showNat p.toNat_lt, bind_some]
      simp
  rw [append_assoc, hraddr _ _ _ rfl, hrport _ _ _ rfl, parseExtras_rawParams h.rawParams]
  rfl

theorem token_extras (h : c.WF) : ∀ t ∈ c.extras conv, Token t := by
  unfold IceCandidate.extras
  refine forall_mem_append (forall_mem_append ?_ ?_) ?_
  · cases c.relatedAddress with
    | none => simp
    | some a => simpa using ⟨⟨by decide, by decide⟩, conv.token_showIp a⟩
  · cases c.relatedPort with
    | none => simp
    | some p => simpa using ⟨⟨by decide, by decide⟩, token_showNat _⟩
  · intro t ht
    obtain ⟨e, he, ht⟩ := List.mem_flatMap.mp ht
    obtain rfl | rfl : t = e.1 ∨ t = e.2 := by simpa using ht
    · exact (h.rawParams e he).key
    · exact (h.rawParams e he).value

theorem IceCandidate.line_eq (c : IceCandidate) :
    c.line conv = "a=candidate:".toList ++ (c.foundation ++ spaced ([showNat c.component.toNat,
      c.transport, showNat c.priority.toNat, conv.showIp c.address, showNat c.port.toNat,
      "typ".toList, c.candidateType] ++ c.extras conv)) := by
  have hspaced : ∀ xs ys, spaced (xs ++ ys) = spaced xs ++ spaced ys := by simp [spaced]
  have htyp : " typ ".toList = ' ' :: ("typ".toList ++ [' ']) := rfl
  have hraddr : (c.relatedAddress.map fun a => " raddr ".toList ++ conv.showIp a).getD [] =
      spaced ((c.relatedAddress.map fun a => ["raddr".toList, conv.showIp a]).getD []) := by
    cases c.relatedAddress with
    | none => rfl
    | some a => simp [spaced]
  have hrport : (c.relatedPort.map fun p => " rport ".toList ++ showNat p.toNat).getD [] =
      spaced ((c.relatedPort.map fun p => ["rport".toList, showNat p.toNat]).getD []) := by
    cases c.relatedPort with
    | none => rfl
    | some p => simp [spaced]
  have hraw : (c.rawParams.flatMap fun e => ' ' :: e.1 ++ ' ' :: e.2) =
      spaced (c.rawParams.flatMap fun e => [e.1, e.2]) := by
    simp [spaced, List.flatMap_assoc]
  unfold IceCandidate.line IceCandidate.extras
  rw [hraddr, hrport, hraw, hspaced, hspaced, hspaced, htyp]
  simp [spaced]

theorem feeds_candidate (h : c.WF) :
    Feeds conv [c.line conv] fun m => { m with candidates := m.candidates ++ [c] } := by
  have hwords : ∀ t ∈ [showNat c.component.toNat, c.transport, showNat c.priority.toNat,
      conv.showIp c.address, showNat c.port.toNat, "typ".toList, c.candidateType] ++ c.extras conv,
      Token t := by
    refine forall_mem_append ?_ (token_extras h)
    have htyp : Token "typ".toList := ⟨by decide, by decide⟩
    simpa only [forall_mem_cons, List.not_mem_nil, false_implies, implies_true, and_true] using
      ⟨token_showNat _, h.transport, token_showNat _, conv.token_showIp _, token_showNat _, htyp,
        h.candidateType⟩
  have hparse : parseCandidate conv (c.foundation ++ spaced ([showNat c.component.toNat, c.transport,
      showNat c.priority.toNat, conv.showIp c.address, showNat c.port.toNat, "typ".toList,
      c.candidateType] ++ c.extras conv)) = some c := by
    unfold parseCandidate
    rw [splitWhitespace_token_spaced h.foundation hwords]
    simp only [cons_append, nil_append, parseUnsigned_showNat c.component.toNat_lt,
      parseUnsigned_showNat c.priority.toNat_lt, parseUnsigned_showNat c.port.toNat_lt,
      conv.readIp_showIp, bind_eq_bind, bind_some]
    rw [if_neg (by decide)]
    simpa using parseExtras_extras h
  rw [c.line_eq]
  refine feeds_attr "candidate:".toList rfl
    (.keyword (by decide) (plain_spaced (plain_token h.foundation) hwords)) fun m i => ?_
  simp (disch := decide) only [attribute_letters, applyMediaAttribute, applySecurityAttribute, stripLead_of_clash,
    stripLead_append, hparse, toList_some]

theorem feeds_endOfCandidates :
    Feeds conv ["a=end-of-candidates".toList] fun m => { m with endOfCandidates := true } := by
  refine feeds_attr "end-of-candidates".toList rfl (by decide) fun m i => ?_
  rfl

/-! ## multiplexing attributes -/

theorem feeds_mid {i : Text} (h : Trimmed i) :
    Feeds conv ["a=mid:".toList ++ i] fun m => { m with mid := some i } := by
  refine feeds_attr "mid:".toList rfl (.keyword (by decide) (plain_trim h.line h.ends))
    fun m i => ?_
  simp (disch := decide) only [attribute_letters, applyMediaAttribute, applySecurityAttribute, applyMultiplexAttribute,
    stripLead_of_clash, stripLead_append, append_eq_of_clash, if_false, h.ends]

/-- The id of an extension. -/
def ExtMap.head (e : ExtMap) : Text :=
  showNat e.id.toNat ++ (e.direction.map fun d => '/' :: d.asStr).getD []

/-- The URI and what follows it. -/
def ExtMap.body (e : ExtMap) : Text := e.uri ++ (e.attributes.map fun a => ' ' :: a).getD []

theorem token_head (e : ExtMap) : Token e.head := by
  refine ⟨by simp [ExtMap.head, (token_showNat _).ne], ?_⟩
  unfold ExtMap.head
  refine forall_mem_append (token_showNat _).plain ?_
  cases e.direction with
  | none => simp
  | some d => cases d <;> decide

theorem parseExtId_head (e : ExtMap) : parseExtId e.head = some (e.id, e.direction) := by
  unfold ExtMap.head parseExtId
  cases e.direction with
  | none =>
    rw [map_none, getD_none, append_nil, splitOnceBy_of_forall (showNat_slash _)]
    simp [parseUnsigned_showNat e.id.toNat_lt]
  | some d =>
    have hdir : Direction.parse d.asStr = some d := by cases d <;> decide
    rw [map_some, getD_some, splitOnceBy_append (showNat_slash _) (by decide)]
    simp [hdir, parseUnsigned_showNat e.id.toNat_lt]

theorem body_spec (h : e.WF) :
    e.body ≠ [] ∧ (∀ c, e.body.getLast? = some c → isWhitespace c = false) ∧
      ∀ c ∈ e.body, c ≠ '\n' := by
  have huri : ∀ c ∈ e.uri, c ≠ '\n' := by
    rintro c hc rfl
    have := h.uri _ hc
    contradiction
  unfold ExtMap.body
  cases hattrs : e.attributes with
  | none =>
    have hne : e.uri ≠ [] := fun hnil => h.ne hnil hattrs
    simp only [map_none, getD_none, append_nil]
    exact ⟨hne, fun c hc => h.uri c (List.mem_of_getLast? hc), huri⟩
  | some a =>
    obtain ⟨htrim, hne⟩ := h.attributes a hattrs
    refine ⟨by simp, ?_, forall_mem_append huri ?_⟩
    · intro c hc
      rw [map_some, getD_some, List.getLast?_append_of_ne_nil _ (by simp),
        List.getLast?_cons_of_ne_nil hne] at hc
      exact last_of_trim_eq htrim.ends c hc
    · simpa using htrim.line

theorem parseExtmap_body (h : e.WF) : parseExtmap (e.head ++ ' ' :: e.body) = some e := by
  obtain ⟨hne, hlast, -⟩ := body_spec h
  have hid : splitOnceBy isWhitespace (trim (e.head ++ ' ' :: e.body)) = some (e.head, e.body) := by
    rw [trim_token_append (token_head e) hne hlast]
    exact splitOnceBy_append (token_head e).plain (by decide) _
  simp only [parseExtmap, hid, bind_eq_bind, bind_some, parseExtId_head]
  unfold ExtMap.body
  cases hattrs : e.attributes with
  | none =>
    rw [map_none, getD_none, append_nil, splitOnceBy_of_forall h.uri]
    obtain ⟨id, direction, uri, attributes⟩ := e
    obtain rfl : attributes = none := hattrs
    rfl
  | some a =>
    obtain ⟨htrim, hfull⟩ := h.attributes a hattrs
    rw [map_some, getD_some, splitOnceBy_append h.uri (by decide)]
    obtain ⟨id, direction, uri, attributes⟩ := e
    obtain rfl : attributes = some a := hattrs
    simp [htrim.ends, hfull]

theorem feeds_extmap (h : e.WF) :
    Feeds conv [e.line] fun m => { m with extmap := m.extmap ++ [e] } := by
  have hline : e.line = "a=extmap:".toList ++ (e.head ++ ' ' :: e.body) := by
    unfold ExtMap.line ExtMap.head ExtMap.body
    simp only [append_assoc, cons_append]
  obtain ⟨hne, hlast, hbreak⟩ := body_spec h
  rw [hline]
  refine feeds_attr "extmap:".toList rfl (.keyword (by decide) ?_) fun m i => ?_
  · exact .append (token_line (token_head e)) (.cons (by decide) (plain_of_white hbreak hlast) hne)
      (by simp)
  · simp (disch := decide) only [attribute_letters, applyMediaAttribute, applySecurityAttribute,
      applyMultiplexAttribute, stripLead_of_clash, stripLead_append, append_eq_of_clash, if_false,
      parseExtmap_body h, toList_some]

theorem feeds_rtcpMux : Feeds conv ["a=rtcp-mux".toList] fun m => { m with rtcpMux := true } := by
  refine feeds_attr "rtcp-mux".toList rfl (by decide) fun m i => ?_
  rfl

theorem splitWhitespace_net (a : IpAddr) (rest : Text) :
    ∃ x y, splitWhitespace (ipNetTokens a ++ ' ' :: rest) = x :: y :: splitWhitespace rest := by
  have hin : Token "IN".toList := ⟨by decide, by decide⟩
  cases a with
  | v4 ip =>
    have hfour : Token "IP4".toList := ⟨by decide, by decide⟩
    have hwords := splitWhitespace_token_cons hin ("IP4".toList ++ ' ' :: rest)
    rw [splitWhitespace_token_cons hfour] at hwords
    exact ⟨_, _, hwords⟩
  | v6 ip =>
    have hsix : Token "IP6".toList := ⟨by decide, by decide⟩
    have hwords := splitWhitespace_token_cons hin ("IP6".toList ++ ' ' :: rest)
    rw [splitWhitespace_token_cons hsix] at hwords
    exact ⟨_, _, hwords⟩

theorem plain_net (a : IpAddr) : Plain (ipNetTokens a ++ ' ' :: conv.showIp a) := by
  have htoken := conv.token_showIp a
  refine .append ?_ (.cons (by decide) (plain_token htoken) htoken.ne) (by simp)
  cases a with
  | v4 ip => exact (by decide : ∀ c ∈ "IN IP4".toList, c ≠ '\n')
  | v6 ip => exact (by decide : ∀ c ∈ "IN IP6".toList, c ≠ '\n')

theorem feeds_rtcp (r : RtcpAttr) :
    Feeds conv [r.line conv] fun m => { m with rtcp := some r } := by
  obtain ⟨port, address⟩ := r
  have hport := token_showNat port.toNat
  have hpart : ∀ rest : Text, Plain (showNat port.toNat ++ rest) →
      parseRtcp conv (showNat port.toNat ++ rest) = some ⟨port, address⟩ →
      Feeds conv ["a=rtcp:".toList ++ (showNat port.toNat ++ rest)]
        fun m => { m with rtcp := some ⟨port, address⟩ } := by
    intro rest hplain hparse
    refine feeds_attr "rtcp:".toList rfl (.keyword (by decide) hplain) fun m i => ?_
    simp (disch := decide) only [attribute_letters, applyMediaAttribute, applySecurityAttribute,
      applyMultiplexAttribute, stripLead_of_clash, stripLead_append, append_eq_of_clash, if_false,
      hparse]
  unfold RtcpAttr.line
  rw [append_assoc]
  cases address with
  | none =>
    refine hpart [] (by simpa using plain_token hport) ?_
    rw [append_nil, parseRtcp, splitWhitespace_token hport]
    simp [parseUnsigned_showNat port.toNat_lt]
  | some a =>
    have htoken := conv.token_showIp a
    have hrest : ' ' :: ipNetTokens a ++ ' ' :: conv.showIp a =
        ' ' :: (ipNetTokens a ++ ' ' :: conv.showIp a) := rfl
    refine hpart (' ' :: ipNetTokens a ++ ' ' :: conv.showIp a) ?_ ?_
    · rw [hrest]
      exact .append (token_line hport) (.cons (by decide) (plain_net a) (by simp)) (by simp)
    · obtain ⟨x, y, hwords⟩ := splitWhitespace_net a (conv.showIp a)
      rw [hrest, parseRtcp, splitWhitespace_token_cons hport, hwords, splitWhitespace_token htoken]
      simp [parseUnsigned_showNat port.toNat_lt, conv.readIp_showIp]

theorem feeds_rtcpFb {fb : RtcpFeedback} (h : fb.WF) :
    Feeds conv [fb.line] fun m => { m with rtcpFb := m.rtcpFb ++ [fb] } := by
  have hline : fb.line = "a=rtcp-fb:".toList ++ (fb.format ++ ' ' :: fb.value) := by
    unfold RtcpFeedback.line
    rw [append_assoc]
  have hentry : Entry fb.format fb.value := h
  rw [hline]
  refine feeds_attr "rtcp-fb:".toList rfl (.keyword (by decide) (plain_entry hentry))
    fun m i => ?_
  simp (disch := decide) only [attribute_letters, applyMediaAttribute, applySecurityAttribute, applyMultiplexAttribute,
    stripLead_of_clash, stripLead_append, append_eq_of_clash, if_false, split_entry hentry,
    hentry.rest.ends, map_some, toList_some]

theorem feeds_direction (conv : Conv) (d : Direction) :
    Feeds conv ["a=".toList ++ d.asStr] fun m => { m with direction := d } := by
  refine feeds_attr [] rfl ?_ fun m i => ?_
  · cases d <;> decide
  · cases d <;> rfl

theorem parseConnection_net (c : ConnectionInfo) (i : Nat) :
    parseConnection conv (ipNetTokens c.address ++ ' ' :: conv.showIp c.address) i = .ok c := by
  have htoken := conv.token_showIp c.address
  obtain ⟨x, y, hwords⟩ := splitWhitespace_net c.address (conv.showIp c.address)
  rw [parseConnection, hwords, splitWhitespace_token htoken]
  simp only [parseIp, conv.readIp_showIp]
  rfl

theorem feeds_connection (c : ConnectionInfo) :
    Feeds conv [c.line conv] fun m => { m with connection := some c } := by
  intro st m
  unfold ConnectionInfo.line
  rw [append_assoc]
  refine .one (reads_kind rfl (by decide) (plain_net c.address) fun i => ?_)
  simp only [applyKind, parseConnection_net]
  rfl

/-! ## T.38 attributes -/

theorem t38Parts_colon {value : Text} (hname : Trimmed name) (hcolon : ∀ c ∈ name, c ≠ ':')
    (hvalue : trim value = value) : t38Parts (name ++ ':' :: value) = (name, some value) := by
  have hsplit : splitOnceBy (· == ':') (name ++ ':' :: value) = some (name, value) :=
    splitOnceBy_append (fun c hc => by simpa using hcolon c hc) (by decide) value
  simp only [t38Parts, hsplit, hname.ends, hvalue]

theorem t38Parts_bare (hname : Trimmed name) (hcolon : ∀ c ∈ name, c ≠ ':') :
    t38Parts name = (name, none) := by
  have hsplit : splitOnceBy (· == ':') name = none :=
    splitOnceBy_of_forall fun c hc => by simpa using hcolon c hc
  simp only [t38Parts, hsplit, hname.ends]

section Fields

variable {p : T38Params}

theorem foldl_field {α : Type} (name : Text) {lead : Text} (hlead : lead = name ++ [':'])
    (hname : Trimmed name) (hcolon : ∀ c ∈ name, c ≠ ':') {o : Option α} {text : α → Text}
    (htext : ∀ v ∈ o, trim (text v) = text v) (set : Option α → T38Params) (hnone : set none = p)
    (hset : ∀ v ∈ o, p.setField name (some (text v)) = set (some v)) :
    (o.map fun v => lead ++ text v).toList.foldl applyAttribute p = set o := by
  subst hlead
  cases o with
  | none => exact hnone.symm
  | some v =>
    rw [map_some, toList_some, foldl_cons, List.foldl_nil, append_assoc,
      List.singleton_append, applyAttribute, t38Parts_colon hname hcolon (htext v rfl)]
    exact hset v rfl

theorem foldl_flag {name : Text} (hname : Trimmed name) (hcolon : ∀ c ∈ name, c ≠ ':') {flag : Bool}
    (set : Bool → T38Params) (hfalse : set false = p) (hset : p.setField name none = set true) :
    (if flag then [name] else []).foldl applyAttribute p = set flag := by
  cases flag with
  | false => exact hfalse.symm
  | true =>
    rw [if_pos rfl, foldl_cons, List.foldl_nil, applyAttribute,
      t38Parts_bare hname hcolon]
    exact hset

variable {e : Text × Option Text}

theorem setField_extra (h : e.1 ∉ t38Names) :
    p.setField e.1 e.2 = { p with extra := p.extra ++ [e] } := by
  simp only [t38Names, List.mem_cons, List.not_mem_nil, or_false, not_or] at h
  obtain ⟨h₁, h₂, h₃, h₄, h₅, h₆, h₇, h₈, h₉⟩ := h
  unfold setField
  rw [if_neg h₁, if_neg h₂, if_neg h₃, if_neg h₄, if_neg h₅, if_neg h₆, if_neg h₇, if_neg h₈,
    if_neg h₉]

/-- The text of an attribute without a field. -/
def extraText (e : Text × Option Text) : Text :=
  match e.2 with
  | some v => e.1 ++ ':' :: v
  | none => e.1

theorem t38Parts_extra (h : T38Extra e) : t38Parts (extraText e) = e := by
  obtain ⟨name, value⟩ := e
  cases value with
  | none => exact t38Parts_bare h.name h.colon
  | some v => exact t38Parts_colon h.name h.colon (h.value v rfl).ends

theorem foldl_extra {es : List (Text × Option Text)} (h : ∀ e ∈ es, T38Extra e) :
    (es.map extraText).foldl applyAttribute p = { p with extra := p.extra ++ es } := by
  induction es generalizing p with
  | nil => simp
  | cons e es ih =>
    obtain ⟨he, hes⟩ := forall_mem_cons.mp h
    rw [List.map_cons, foldl_cons, applyAttribute, t38Parts_extra he,
      setField_extra he.other, ih hes]
    simp

end Fields

theorem parseField_showNat (bits : Nat) (h : n < 2 ^ bits) (f : Nat → α) :
    parseField bits f (some (showNat n)) = some (f n) := by
  simp [parseField, parseUnsigned_showNat h]

section Fields

variable {p : T38Params}

theorem foldl_version (o : Option UInt8) :
    (o.map fun v => "T38FaxVersion:".toList ++ showNat v.toNat).toList.foldl applyAttribute p =
      { p with version := o.or p.version } := by
  refine foldl_field "T38FaxVersion".toList rfl ⟨by decide, by decide⟩ (by decide)
    (fun v _ => trim_token (token_showNat _)) (fun o => { p with version := o.or p.version })
    rfl fun v _ => ?_
  have hvalue := parseField_showNat 8 v.toNat_lt UInt8.ofNat
  rw [UInt8.ofNat_toNat] at hvalue
  exact congrArg (fun o => { p with version := o }) hvalue

theorem foldl_maxBitRate (o : Option UInt32) :
    (o.map fun v => "T38MaxBitRate:".toList ++ showNat v.toNat).toList.foldl applyAttribute p =
      { p with maxBitRate := o.or p.maxBitRate } := by
  refine foldl_field "T38MaxBitRate".toList rfl ⟨by decide, by decide⟩ (by decide)
    (fun v _ => trim_token (token_showNat _)) (fun o => { p with maxBitRate := o.or p.maxBitRate })
    rfl fun v _ => ?_
  have hvalue := parseField_showNat 32 v.toNat_lt UInt32.ofNat
  rw [UInt32.ofNat_toNat] at hvalue
  exact congrArg (fun o => { p with maxBitRate := o }) hvalue

theorem foldl_fillBitRemoval (flag : Bool) :
    (if flag then ["T38FaxFillBitRemoval".toList] else []).foldl applyAttribute p =
      { p with fillBitRemoval := flag || p.fillBitRemoval } :=
  foldl_flag ⟨by decide, by decide⟩ (by decide)
    (fun flag => { p with fillBitRemoval := flag || p.fillBitRemoval }) rfl rfl

theorem foldl_transcodingMmr (flag : Bool) :
    (if flag then ["T38FaxTranscodingMMR".toList] else []).foldl applyAttribute p =
      { p with transcodingMmr := flag || p.transcodingMmr } :=
  foldl_flag ⟨by decide, by decide⟩ (by decide)
    (fun flag => { p with transcodingMmr := flag || p.transcodingMmr }) rfl rfl

theorem foldl_transcodingJbig (flag : Bool) :
    (if flag then ["T38FaxTranscodingJBIG".toList] else []).foldl applyAttribute p =
      { p with transcodingJbig := flag || p.transcodingJbig } :=
  foldl_flag ⟨by decide, by decide⟩ (by decide)
    (fun flag => { p with transcodingJbig := flag || p.transcodingJbig }) rfl rfl

variable {o : Option Text}

theorem foldl_rateManagement (h : ∀ v ∈ o, Trimmed v) :
    (o.map fun v => "T38FaxRateManagement:".toList ++ v).toList.foldl applyAttribute p =
      { p with rateManagement := o.or p.rateManagement } :=
  foldl_field "T38FaxRateManagement".toList rfl ⟨by decide, by decide⟩ (by decide)
    (fun v hv => (h v hv).ends) (fun o => { p with rateManagement := o.or p.rateManagement }) rfl
    fun _ _ => rfl

theorem foldl_maxBuffer (o : Option UInt32) :
    (o.map fun v => "T38FaxMaxBuffer:".toList ++ showNat v.toNat).toList.foldl applyAttribute p =
      { p with maxBuffer := o.or p.maxBuffer } := by
  refine foldl_field "T38FaxMaxBuffer".toList rfl ⟨by decide, by decide⟩ (by decide)
    (fun v _ => trim_token (token_showNat _)) (fun o => { p with maxBuffer := o.or p.maxBuffer })
    rfl fun v _ => ?_
  have hvalue := parseField_showNat 32 v.toNat_lt UInt32.ofNat
  rw [UInt32.ofNat_toNat] at hvalue
  exact congrArg (fun o => { p with maxBuffer := o }) hvalue

theorem foldl_maxDatagram (o : Option UInt32) :
    (o.map fun v => "T38FaxMaxDatagram:".toList ++ showNat v.toNat).toList.foldl applyAttribute p =
      { p with maxDatagram := o.or p.maxDatagram } := by
  refine foldl_field "T38FaxMaxDatagram".toList rfl ⟨by decide, by decide⟩ (by decide)
    (fun v _ => trim_token (token_showNat _)) (fun o => { p with maxDatagram := o.or p.maxDatagram })
    rfl fun v _ => ?_
  have hvalue := parseField_showNat 32 v.toNat_lt UInt32.ofNat
  rw [UInt32.ofNat_toNat] at hvalue
  exact congrArg (fun o => { p with maxDatagram := o }) hvalue

theorem foldl_udpEc (h : ∀ v ∈ o, Trimmed v) :
    (o.map fun v => "T38FaxUdpEC:".toList ++ v).toList.foldl applyAttribute p =
      { p with udpEc := o.or p.udpEc } :=
  foldl_field "T38FaxUdpEC".toList rfl ⟨by decide, by decide⟩ (by decide)
    (fun v hv => (h v hv).ends) (fun o => { p with udpEc := o.or p.udpEc }) rfl
    fun _ _ => rfl

end Fields

theorem parseAttrs_renderAttrs {t : T38Params} (h : t.WF) : parseAttrs t.renderAttrs = t := by
  unfold parseAttrs renderAttrs
  simp only [List.foldl_append, foldl_version, foldl_maxBitRate, foldl_fillBitRemoval,
    foldl_transcodingMmr, foldl_transcodingJbig, foldl_rateManagement h.rateManagement,
    foldl_maxBuffer, foldl_maxDatagram, foldl_udpEc h.udpEc, Option.or_none, Bool.or_false]
  exact foldl_extra h.extra

theorem fax_lead {text : Text} (hlead : "T38".toList.isPrefixOf lead = true) (hplain : Plain lead)
    (htext : Plain text) : "T38".toList.isPrefixOf (lead ++ text) = true ∧ Plain (lead ++ text) := by
  refine ⟨?_, .keyword hplain htext⟩
  rw [List.isPrefixOf_iff_prefix] at hlead ⊢
  exact hlead.trans (List.prefix_append _ _)

theorem renderAttrs_spec {t : T38Params} (h : t.WF) :
    ∀ l ∈ t.renderAttrs, "T38".toList.isPrefixOf l = true ∧ Plain l := by
  have hfield : ∀ {α : Type} {lead : Text} {o : Option α} {text : α → Text},
      "T38".toList.isPrefixOf lead = true → Plain lead → (∀ v ∈ o, Plain (text v)) →
      ∀ l ∈ (o.map fun v => lead ++ text v).toList, "T38".toList.isPrefixOf l = true ∧ Plain l := by
    intro α lead o text hlead hplain htext l hl
    obtain ⟨v, hv, rfl⟩ := Option.map_eq_some_iff.mp (Option.mem_toList.mp hl)
    exact fax_lead hlead hplain (htext v hv)
  have hflag : ∀ {flag : Bool} {l : Text}, "T38".toList.isPrefixOf l = true ∧ Plain l →
      ∀ l' ∈ (if flag then [l] else []), "T38".toList.isPrefixOf l' = true ∧ Plain l' := by
    intro flag l hl l' hl'
    cases flag with
    | false => simp at hl'
    | true =>
      obtain rfl : l' = l := by simpa using hl'
      exact hl
  have hnum : ∀ n : Nat, Plain (showNat n) := fun n => plain_token (token_showNat n)
  have htext : ∀ {o : Option Text}, (∀ v ∈ o, Trimmed v) → ∀ v ∈ o, Plain v :=
    fun ho v hv => plain_trim (ho v hv).line (ho v hv).ends
  unfold renderAttrs
  refine forall_mem_append (forall_mem_append (forall_mem_append (forall_mem_append
    (forall_mem_append (forall_mem_append (forall_mem_append (forall_mem_append
    (forall_mem_append ?_ ?_) ?_) ?_) ?_) ?_) ?_) ?_) ?_) ?_
  · exact hfield (by decide) (by decide) fun v _ => hnum _
  · exact hfield (by decide) (by decide) fun v _ => hnum _
  · exact hflag (by decide)
  · exact hflag (by decide)
  · exact hflag (by decide)
  · exact hfield (by decide) (by decide) (htext h.rateManagement)
  · exact hfield (by decide) (by decide) fun v _ => hnum _
  · exact hfield (by decide) (by decide) fun v _ => hnum _
  · exact hfield (by decide) (by decide) (htext h.udpEc)
  · intro l hl
    obtain ⟨⟨name, value⟩, he, rfl⟩ := List.mem_map.mp hl
    obtain ⟨hlead, hname, -, -, hvalue⟩ := h.extra _ he
    have hplain := plain_trim hname.line hname.ends
    cases value with
    | none => exact ⟨hlead, hplain⟩
    | some v => exact fax_lead hlead hplain (.keyword (x := [':']) (by decide) (htext hvalue v rfl))

/-! ## a block -/

theorem feeds_list (conv : Conv) {β : Type} (as : List α) (f : α → β)
    (add : List β → MediaDescription → MediaDescription) (hnil : ∀ m, add [] m = m)
    (happend : ∀ xs ys m, add ys (add xs m) = add (xs ++ ys) m)
    (h : ∀ a ∈ as, Feeds conv [line a] (add [f a])) : Feeds conv (as.map line) (add (as.map f)) := by
  induction as with
  | nil =>
    intro st m
    rw [List.map_nil, List.map_nil, hnil]
    exact .nil _
  | cons a as ih =>
    obtain ⟨ha, has⟩ := forall_mem_cons.mp h
    intro st m
    have hboth := (ha.append (ih has)) st m
    simp only [happend] at hboth
    exact hboth

/-- T.38 attributes on top of others. -/
def addT38 (o : Option T38Params) (attrs : List Text) : Option T38Params :=
  attrs.foldl (fun o attr => some ((o.getD {}).applyAttribute attr)) o

theorem addT38_eq (o : Option T38Params) (attrs : List Text) : addT38 o attrs =
      if attrs = [] then o else some (attrs.foldl applyAttribute (o.getD {})) := by
  induction attrs generalizing o with
  | nil => rfl
  | cons attr attrs ih =>
    have hrest : addT38 o (attr :: attrs) =
        addT38 (some ((o.getD {}).applyAttribute attr)) attrs := rfl
    rw [hrest, ih]
    by_cases hnil : attrs = []
    · simp [hnil]
    · simp [hnil]

theorem feeds_t38 {t : T38Params} (h : t.WF) :
    Feeds conv (t.renderAttrs.map fun l => "a=".toList ++ l)
      fun m => { m with t38 := addT38 m.t38 t.renderAttrs } := by
  have hone : ∀ l ∈ t.renderAttrs, Feeds conv ["a=".toList ++ l]
      fun m => { m with t38 := addT38 m.t38 [l] } := by
    intro l hl
    obtain ⟨hlead, hplain⟩ := renderAttrs_spec h l hl
    refine feeds_attr [] rfl hplain fun m i => ?_
    rw [nil_append, applyMediaAttribute_t38 hlead, applyOtherAttribute, if_pos hlead]
    rfl
  have hlist := feeds_list conv t.renderAttrs id (fun xs m => { m with t38 := addT38 m.t38 xs })
    (fun m => rfl) (fun xs ys m => by simp [addT38, List.foldl_append]) hone
  simpa using hlist

/-- What is read back of a block. -/
def MediaDescription.canonical (m : MediaDescription) : MediaDescription :=
  { m with rtpmap := m.rtpmap.map RtpMap.canonical }

/-- Parameters of which nothing is rendered are gone. -/
def MediaDescription.reread (m : MediaDescription) : MediaDescription :=
  { m.canonical with t38 := m.t38.filter fun t => !t.renderAttrs.isEmpty }

/-- The rendered attributes on top of a block. -/
def MediaDescription.onto (m b : MediaDescription) : MediaDescription :=
  { b with
    connection := m.connection.or b.connection
    rtpmap := b.rtpmap ++ m.rtpmap.map RtpMap.canonical
    fmtp := b.fmtp ++ m.fmtp
    ptime := m.ptime.or b.ptime
    maxptime := m.maxptime.or b.maxptime
    crypto := b.crypto ++ m.crypto
    fingerprint := m.fingerprint.or b.fingerprint
    setup := m.setup.or b.setup
    iceUfrag := m.iceUfrag.or b.iceUfrag
    icePwd := m.icePwd.or b.icePwd
    iceOptions := if m.iceOptions.isEmpty then b.iceOptions else m.iceOptions
    candidates := b.candidates ++ m.candidates
    endOfCandidates := m.endOfCandidates || b.endOfCandidates
    mid := m.mid.or b.mid
    extmap := b.extmap ++ m.extmap
    rtcpMux := m.rtcpMux || b.rtcpMux
    rtcp := m.rtcp.or b.rtcp
    rtcpFb := b.rtcpFb ++ m.rtcpFb
    t38 := addT38 b.t38 ((m.t38.map renderAttrs).getD [])
    direction := m.direction }

theorem feeds_attrLines (h : m.WF) : Feeds conv (m.attrLines conv) m.onto := by
  have hconnection := feeds_option conv m.connection
    (fun o b => { b with connection := o.or b.connection }) (fun _ => rfl)
    fun c _ => feeds_connection c
  have hrtpmap := feeds_list conv m.rtpmap RtpMap.canonical
    (fun xs b => { b with rtpmap := b.rtpmap ++ xs }) (by simp) (by simp)
    fun r hr => feeds_rtpmap (h.rtpmap r hr)
  have hfmtp := feeds_list conv m.fmtp id
    (fun xs b => { b with fmtp := b.fmtp ++ xs }) (by simp) (by simp)
    fun f hf => feeds_fmtp (h.fmtp f hf)
  have hptime := feeds_option conv m.ptime
    (fun o b => { b with ptime := o.or b.ptime }) (fun _ => rfl) fun n _ => feeds_ptime n
  have hmaxptime := feeds_option conv m.maxptime
    (fun o b => { b with maxptime := o.or b.maxptime }) (fun _ => rfl)
    fun n _ => feeds_maxptime n
  have hcrypto := feeds_list conv m.crypto id
    (fun xs b => { b with crypto := b.crypto ++ xs }) (by simp) (by simp)
    fun c hc => feeds_crypto (h.crypto c hc)
  have hfingerprint := feeds_option conv m.fingerprint
    (fun o b => { b with fingerprint := o.or b.fingerprint }) (fun _ => rfl)
    fun f hf => feeds_fingerprint (h.fingerprint f hf)
  have hsetup := feeds_option conv m.setup
    (fun o b => { b with setup := o.or b.setup }) (fun _ => rfl) fun s _ => feeds_setup s
  have hufrag := feeds_option conv m.iceUfrag
    (fun o b => { b with iceUfrag := o.or b.iceUfrag }) (fun _ => rfl)
    fun u hu => feeds_iceUfrag (h.iceUfrag u hu)
  have hpwd := feeds_option conv m.icePwd
    (fun o b => { b with icePwd := o.or b.icePwd }) (fun _ => rfl)
    fun p hp => feeds_icePwd (h.icePwd p hp)
  have hoptions := feeds_iceOptions conv h.iceOptions
  have hcandidates := feeds_list conv m.candidates id
    (fun xs b => { b with candidates := b.candidates ++ xs }) (by simp) (by simp)
    fun c hc => feeds_candidate (h.candidates c hc)
  have hend := feeds_flag conv m.endOfCandidates
    (fun flag b => { b with endOfCandidates := flag || b.endOfCandidates }) (fun _ => rfl)
    feeds_endOfCandidates
  have hmid := feeds_option conv m.mid
    (fun o b => { b with mid := o.or b.mid }) (fun _ => rfl) fun i hi => feeds_mid (h.mid i hi)
  have hextmap := feeds_list conv m.extmap id
    (fun xs b => { b with extmap := b.extmap ++ xs }) (by simp) (by simp)
    fun e he => feeds_extmap (h.extmap e he)
  have hmux := feeds_flag conv m.rtcpMux
    (fun flag b => { b with rtcpMux := flag || b.rtcpMux }) (fun _ => rfl) feeds_rtcpMux
  have hrtcp := feeds_option conv m.rtcp
    (fun o b => { b with rtcp := o.or b.rtcp }) (fun _ => rfl) fun r _ => feeds_rtcp r
  have hrtcpFb := feeds_list conv m.rtcpFb id
    (fun xs b => { b with rtcpFb := b.rtcpFb ++ xs }) (by simp) (by simp)
    fun fb hfb => feeds_rtcpFb (h.rtcpFb fb hfb)
  have ht38 : Feeds conv (((m.t38.map renderAttrs).getD []).map fun l => "a=".toList ++ l)
      fun b => { b with t38 := addT38 b.t38 ((m.t38.map renderAttrs).getD []) } := by
    cases ht : m.t38 with
    | none => exact feeds_nil
    | some t => exact feeds_t38 (h.t38 t ht)
  have hdirection := feeds_direction conv m.direction
  simp only [List.map_id] at hfmtp hcrypto hcandidates hextmap hrtcpFb
  exact ((((((((((((((((((hconnection.append hrtpmap).append hfmtp).append hptime).append
    hmaxptime).append hcrypto).append hfingerprint).append hsetup).append hufrag).append hpwd).append
    hoptions).append hcandidates).append hend).append hmid).append hextmap).append hmux).append
    hrtcp).append hrtcpFb).append ht38).append hdirection

theorem reads_mLine (h : m.WF) (st : ParseState) : Reads conv st m.mLine
      { st with
        media := st.finished
        cur := some (st.session.seed
          { kind := m.kind, port := m.port, protocol := m.protocol, formats := m.formats }) } := by
  have hport := token_showNat m.port.toNat
  have hline : m.mLine = "m=".toList ++ (m.kind.asStr ++ ' ' ::
      (showNat m.port.toNat ++ ' ' :: (m.protocol ++ spaced m.formats))) := by
    unfold MediaDescription.mLine
    simp only [append_assoc, cons_append]
  have hparse : ∀ i, parseMedia (m.kind.asStr ++ ' ' ::
      (showNat m.port.toNat ++ ' ' :: (m.protocol ++ spaced m.formats))) i =
        .ok { kind := m.kind, port := m.port, protocol := m.protocol, formats := m.formats } := by
    intro i
    unfold parseMedia
    rw [splitWhitespace_token_cons h.kind.token, splitWhitespace_token_cons hport,
      splitWhitespace_token_spaced h.protocol h.formats]
    dsimp only
    rw [splitBy_of_forall (showNat_slash _), List.headD_cons, parseInt_showNat 16 m.port.toNat_lt,
      h.kind.parse]
    simp [bind, Except.bind, pure, Except.pure]
  rw [hline]
  refine reads_kind rfl (by decide) ?_ fun i => ?_
  · refine .append (token_line h.kind.token) (.cons (by decide) ?_ (by simp)) (by simp)
    refine .append (token_line hport) (.cons (by decide) ?_ ?_) (by simp)
    · exact plain_spaced (plain_token h.protocol) h.formats
    · simp [h.protocol.ne]
  · simp only [applyKind, hparse]
    rfl

/-- A session that passes nothing on. -/
def bare (groups : List Group) (iceLite : Bool) : SessionLevel := { groups, iceLite }

theorem onto_base (h : m.WF) (gs : List Group) (lite : Bool) : m.onto ((bare gs lite).seed
      { kind := m.kind, port := m.port, protocol := m.protocol, formats := m.formats }) =
        m.reread := by
  have ht38 : addT38 none ((m.t38.map renderAttrs).getD []) =
      m.t38.filter fun t => !t.renderAttrs.isEmpty := by
    cases ht : m.t38 with
    | none => rfl
    | some t =>
      rw [map_some, getD_some, addT38_eq]
      by_cases hnil : t.renderAttrs = []
      · simp [hnil, Option.filter]
      · have hback := parseAttrs_renderAttrs (h.t38 t ht)
        unfold parseAttrs at hback
        simp [hnil, hback, Option.filter]
  have hoptions : (if m.iceOptions.isEmpty then [] else m.iceOptions) = m.iceOptions := by
    cases m.iceOptions with
    | nil => rfl
    | cons t ts => rfl
  simp only [MediaDescription.onto, MediaDescription.reread, MediaDescription.canonical,
    SessionLevel.seed, bare, ht38, hoptions, Option.or_none, Bool.or_false, nil_append]

theorem readsAll_block (h : m.WF) (hsession : st.session = bare gs lite) :
    ReadsAll conv st (m.lines conv) { st with media := st.finished, cur := some m.reread } := by
  obtain ⟨origin, name, connection, session, media, cur, seen⟩ := st
  obtain rfl : session = bare gs lite := hsession
  refine .cons (reads_mLine h _) ?_
  rw [← onto_base h gs lite]
  exact feeds_attrLines h
    ⟨origin, name, connection, bare gs lite, media ++ cur.toList, cur, seen⟩ _

theorem readsAll_media {ms : List MediaDescription} (h : ∀ m ∈ ms, m.WF) (st : ParseState)
    (hsession : st.session = bare gs lite) :
    ∃ st', ReadsAll conv st (ms.flatMap (MediaDescription.lines conv)) st' ∧
      st'.finished = st.finished ++ ms.map MediaDescription.reread ∧
      st' = { st with media := st'.media, cur := st'.cur } := by
  induction ms generalizing st with
  | nil => exact ⟨st, .nil st, by simp, rfl⟩
  | cons m ms ih =>
    obtain ⟨hm, hms⟩ := forall_mem_cons.mp h
    obtain ⟨st', hreads, hfinished, hframe⟩ :=
      ih hms { st with media := st.finished, cur := some m.reread } hsession
    refine ⟨st', ?_, ?_, hframe⟩
    · rw [List.flatMap_cons]
      exact (readsAll_block hm hsession).append hreads
    · rw [hfinished]
      simp [ParseState.finished]

/-! ## session lines -/

theorem reads_origin {o : Origin} (h : Token o.username) (st : ParseState) :
    Reads conv st (o.line conv) { st with origin := some o } := by
  have hid := token_showNat o.sessionId.toNat
  have hversion := token_showNat o.sessionVersion.toNat
  have hip := conv.token_showIp o.address
  have hline : o.line conv = "o=".toList ++ (o.username ++ ' ' :: (showNat o.sessionId.toNat ++ ' ' ::
      (showNat o.sessionVersion.toNat ++ ' ' ::
        (ipNetTokens o.address ++ ' ' :: conv.showIp o.address)))) := by
    unfold Origin.line
    simp only [append_assoc, cons_append]
  have hparse : ∀ i, parseOrigin conv (o.username ++ ' ' :: (showNat o.sessionId.toNat ++ ' ' ::
      (showNat o.sessionVersion.toNat ++ ' ' ::
        (ipNetTokens o.address ++ ' ' :: conv.showIp o.address)))) i = .ok o := by
    intro i
    obtain ⟨x, y, hwords⟩ := splitWhitespace_net o.address (conv.showIp o.address)
    rw [parseOrigin, splitWhitespace_token_cons h, splitWhitespace_token_cons hid,
      splitWhitespace_token_cons hversion, hwords, splitWhitespace_token hip]
    dsimp only
    rw [parseInt_showNat 64 o.sessionId.toNat_lt, parseInt_showNat 64 o.sessionVersion.toNat_lt]
    simp [parseIp, conv.readIp_showIp, bind, Except.bind, pure, Except.pure]
  rw [hline]
  refine reads_kind rfl (by decide) ?_ fun i => ?_
  · refine .append (token_line h) (.cons (by decide) ?_ (by simp)) (by simp)
    refine .append (token_line hid) (.cons (by decide) ?_ (by simp)) (by simp)
    exact .append (token_line hversion) (.cons (by decide) (plain_net o.address) (by simp)) (by simp)
  · simp only [applyKind, hparse]
    rfl

theorem reads_sessionName {n : Text} (h : Plain n) (st : ParseState) :
    Reads conv st ("s=".toList ++ n) { st with sessionName := some n } :=
  reads_kind rfl (by decide) h fun _ => rfl

theorem reads_connection (c : ConnectionInfo) (hcur : st.cur = none) :
    Reads conv st (c.line conv) { st with connection := some c } := by
  unfold ConnectionInfo.line
  rw [append_assoc]
  refine reads_kind rfl (by decide) (plain_net c.address) fun i => ?_
  simp only [applyKind, parseConnection_net, hcur]
  rfl

theorem reads_group {g : Group} (h : g.WF) (hcur : st.cur = none) : Reads conv st g.line
      { st with session := { st.session with groups := st.session.groups ++ [g] } } := by
  have hline : g.line = "a=".toList ++ ("group:".toList ++
      (g.semantics ++ ' ' :: intercalate [' '] g.mids)) := by
    unfold Group.line
    rw [append_assoc]
    rfl
  have hwords : splitWhitespace (g.semantics ++ ' ' :: intercalate [' '] g.mids) =
      g.semantics :: g.mids := by
    rw [splitWhitespace_token_cons h.semantics]
    have hmids := h.mids
    cases hm : g.mids with
    | nil => rfl
    | cons t ts =>
      rw [hm] at hmids
      obtain ⟨ht, hts⟩ := forall_mem_cons.mp hmids
      rw [intercalate_cons, splitWhitespace_token_spaced ht hts]
  rw [hline]
  refine reads_kind rfl (by decide) (.keyword (by decide) ?_) fun i => ?_
  · refine .append (token_line h.semantics) ?_ (by simp)
    have hmids := h.mids
    cases hm : g.mids with
    | nil => decide
    | cons t ts =>
      rw [hm] at hmids
      obtain ⟨ht, hts⟩ := forall_mem_cons.mp hmids
      rw [intercalate_cons]
      exact .cons (by decide) (plain_spaced (plain_token ht) hts) (by simp [ht.ne])
  · simp only [applyKind, hcur, applySessionAttribute, stripLead_append,
      SessionLevel.addGroup, hwords]
    rfl

theorem readsAll_groups (h : ∀ g ∈ gs, g.WF) (st : ParseState) (hcur : st.cur = none) :
    ReadsAll conv st (gs.map Group.line)
      { st with session := { st.session with groups := st.session.groups ++ gs } } := by
  induction gs generalizing st with
  | nil =>
    rw [append_nil]
    exact .nil st
  | cons g gs ih =>
    obtain ⟨hg, hgs⟩ := forall_mem_cons.mp h
    have hrest := ih hgs
      { st with session := { st.session with groups := st.session.groups ++ [g] } } hcur
    simp only [append_assoc, List.singleton_append] at hrest
    exact .cons (reads_group hg hcur) hrest

theorem readsAll_sessionLines (h : d.WF) : ReadsAll conv {} (d.sessionLines conv)
      { origin := some d.origin, sessionName := some d.sessionName, connection := d.connection,
        session := bare d.groups d.iceLite, versionSeen := true } := by
  have hversion : Reads conv {} "v=0".toList { versionSeen := true } :=
    reads_kind (l := "v=".toList) (v := ['0']) rfl (by decide) (by decide) fun _ => rfl
  have hhead : ReadsAll conv {} ["v=0".toList, d.origin.line conv, "s=".toList ++ d.sessionName]
      { origin := some d.origin, sessionName := some d.sessionName, versionSeen := true } :=
    .cons hversion (.cons (reads_origin h.username _) (.one (reads_sessionName h.sessionName _)))
  have hconnection : ReadsAll conv
      { origin := some d.origin, sessionName := some d.sessionName, versionSeen := true }
      (d.connection.map (ConnectionInfo.line conv)).toList
      { origin := some d.origin, sessionName := some d.sessionName, connection := d.connection,
        versionSeen := true } := by
    cases d.connection with
    | none => exact .nil _
    | some c => exact .one (reads_connection c rfl)
  have htime : ∀ st, Reads conv st "t=0 0".toList st := fun st =>
    reads_kind (l := "t=".toList) (v := "0 0".toList) rfl (by decide) (by decide) fun _ => rfl
  have hlite : ∀ st : ParseState, st.cur = none →
      ReadsAll conv { st with session := bare d.groups false }
        (if d.iceLite then ["a=ice-lite".toList] else [])
        { st with session := bare d.groups d.iceLite } := by
    intro st hcur
    cases d.iceLite with
    | false => exact .nil _
    | true =>
      refine .one (reads_kind (k := 'a') (l := "a=".toList) (v := "ice-lite".toList) rfl (by decide)
        (by decide) fun i => ?_)
      simp only [applyKind, hcur]
      rfl
  have hgroups : ReadsAll conv
      { origin := some d.origin, sessionName := some d.sessionName, connection := d.connection,
        versionSeen := true } (d.groups.map Group.line)
      { origin := some d.origin, sessionName := some d.sessionName, connection := d.connection,
        session := bare d.groups false, versionSeen := true } := readsAll_groups h.groups _ rfl
  exact (((hhead.append hconnection).append (.one (htime _))).append hgroups).append
    (hlite { origin := some d.origin, sessionName := some d.sessionName, connection := d.connection,
             versionSeen := true } rfl)

/-- What is read back. -/
def SessionDescription.reread (d : SessionDescription) : SessionDescription :=
  { d with media := d.media.map MediaDescription.reread }

/-- A well-formed description is read back but for parameters of which nothing is
rendered. -/
theorem parse_toText (h : d.WF) : parse conv (d.toText conv) = .ok d.reread := by
  obtain ⟨st, hmedia, hfinished, hframe⟩ := readsAll_media h.media
    { origin := some d.origin, sessionName := some d.sessionName, connection := d.connection,
      session := bare d.groups d.iceLite, versionSeen := true } rfl
  rw [parse_of_readsAll ((readsAll_sessionLines h).append hmedia)]
  have hseen := congrArg ParseState.versionSeen hframe
  have horigin := congrArg ParseState.origin hframe
  have hname := congrArg ParseState.sessionName hframe
  have hconnection := congrArg ParseState.connection hframe
  have hlevel := congrArg ParseState.session hframe
  dsimp only at hseen horigin hname hconnection hlevel
  have hmedia : st.finished = d.media.map MediaDescription.reread := by
    rw [hfinished]
    rfl
  unfold ParseState.finish
  rw [hseen, horigin, hname, hconnection, hlevel, hmedia]
  rfl

/-! ## the round trip -/

/-- Equal but for a channel count of one. -/
def SessionDescription.canonical (d : SessionDescription) : SessionDescription :=
  { d with media := d.media.map MediaDescription.canonical }

/-- Where a block has T.38 attributes, something of them is rendered. -/
def KeepsT38 (input : Text) : Prop :=
  ∀ attrs ∈ t38Blocks input, attrs ≠ [] → (parseAttrs attrs).renderAttrs ≠ []

instance (input : Text) : Decidable (KeepsT38 input) :=
  inferInstanceAs (Decidable (∀ attrs ∈ t38Blocks input, _ → _))

theorem canonical_reread : m.reread.canonical = m.canonical ↔ ∀ t ∈ m.t38, t.renderAttrs ≠ [] := by
  have hrtpmap : m.reread.canonical = { m.canonical with t38 := m.reread.t38 } := by
    have htwice : RtpMap.canonical ∘ RtpMap.canonical = RtpMap.canonical := by
      funext r
      unfold RtpMap.canonical
      by_cases hone : r.channels = some 1
      · simp [hone]
      · simp [hone]
    simp [MediaDescription.canonical, MediaDescription.reread, htwice]
  rw [hrtpmap]
  refine ⟨fun h t ht hnil => ?_, fun h => ?_⟩
  · have hsame := congrArg MediaDescription.t38 h
    have hmt : m.t38 = some t := ht
    simp [MediaDescription.reread, MediaDescription.canonical, hmt, hnil, Option.filter] at hsame
  · have hsame : m.reread.t38 = m.canonical.t38 := by
      unfold MediaDescription.reread MediaDescription.canonical
      dsimp only
      cases ht : m.t38 with
      | none => rfl
      | some t => simp [Option.filter, h t ht]
    rw [hsame]

/-- A parsed description is read back as it was, and only then, when no block of
the text has T.38 attributes of which nothing is left to render. -/
theorem parse_toText_iff {input : Text} {d : SessionDescription}
    (h : parse conv input = .ok d) :
    (∃ d', parse conv (d.toText conv) = .ok d' ∧ d'.canonical = d.canonical) ↔
      KeepsT38 input := by
  obtain ⟨hwf, ht38⟩ := wf_of_parse h
  have hback : parse conv (d.toText conv) = .ok d.reread := parse_toText hwf
  have hfields : d.reread.canonical = d.canonical ↔
      ∀ m ∈ d.media, m.reread.canonical = m.canonical := by
    simp [canonical, reread, List.map_inj_left]
  have hblocks : (∀ m ∈ d.media, ∀ t ∈ m.t38, t.renderAttrs ≠ []) ↔ KeepsT38 input := by
    have hall : (∀ o ∈ d.media.map MediaDescription.t38, ∀ t ∈ o, t.renderAttrs ≠ []) ↔
        ∀ o ∈ (t38Blocks input).map t38Of, ∀ t ∈ o, t.renderAttrs ≠ [] := by rw [ht38]
    simp only [List.forall_mem_map] at hall
    rw [hall]
    unfold KeepsT38
    refine forall_congr' fun attrs => forall_congr' fun _ => ?_
    unfold t38Of
    by_cases hnil : attrs = []
    · simp [hnil]
    · simp [hnil]
  rw [hback, ← hblocks]
  refine Iff.trans ⟨?_, fun heq => ⟨d.reread, rfl, heq⟩⟩ (hfields.trans ?_)
  · rintro ⟨d', hd', heq⟩
    obtain rfl := Except.ok.inj hd'
    exact heq
  · exact forall_congr' fun m => forall_congr' fun _ => canonical_reread

/-- Lines with their ends. -/
def linesText (ls : List String) : Text := ls.flatMap fun l => l.toList ++ ['\r', '\n']

/-- An audio block and a fax block. -/
def roundTripText : Text :=
  linesText ["v=0", "o=- 7 8 IN IP4 10.0.0.1", "s= a call", "a=setup:PASSIVE",
    "m=audio 4000/2 RTP/SAVP 0", "a=rtpmap:0 PCMU/8000/1", "a=recvonly", "m=image 4002 udptl t38",
    "a=T38FaxVersion:0", "a=T38FaxFillBitRemoval:0"]

/-- What it is parsed to. -/
def sampleDescription : SessionDescription where
  origin := ⟨['-'], 7, 8, .v4 0x0A000001⟩
  sessionName := " a call".toList
  connection := none
  groups := []
  iceLite := false
  media :=
    [{ kind := .audio, port := 4000, protocol := "RTP/SAVP".toList, formats := [['0']],
       rtpmap := [⟨0, "PCMU".toList, 8000, some 1⟩], setup := some .passive, direction := .recvOnly },
     { kind := .image, port := 4002, protocol := "udptl".toList, formats := ["t38".toList],
       setup := some .passive, t38 := some { version := some 0 } }]

theorem parse_toText_roundTripText :
    parse sampleConv roundTripText = .ok sampleDescription ∧
      ∃ d', parse sampleConv (sampleDescription.toText sampleConv) = .ok d' ∧
        d'.canonical = sampleDescription.canonical := by
  have hparse : parse sampleConv roundTripText = .ok sampleDescription := by
    decide +kernel
  exact ⟨hparse, (parse_toText_iff hparse).mpr (by decide +kernel)⟩

/-- A fax block whose only attribute is a flag that is off. -/
def faxText : Text :=
  linesText ["v=0", "o=- 7 8 IN IP4 10.0.0.1", "s=-", "m=image 4002 udptl t38",
    "a=T38FaxFillBitRemoval:0"]

def faxDescription (t38 : Option T38Params) : SessionDescription where
  origin := ⟨['-'], 7, 8, .v4 0x0A000001⟩
  sessionName := ['-']
  connection := none
  groups := []
  iceLite := false
  media := [{ kind := .image, port := 4002, protocol := "udptl".toList, formats := ["t38".toList], t38 }]

/-- It is parsed to parameters, and read back as none. -/
theorem t38_lost : ∃ input d, parse sampleConv input = .ok d ∧
      ¬ ∃ d', parse sampleConv (d.toText sampleConv) = .ok d' ∧
        d'.canonical = d.canonical := by
  refine ⟨faxText, faxDescription (some {}), by decide +kernel, ?_⟩
  rintro ⟨d', hd', heq⟩
  have hback : parse sampleConv ((faxDescription (some {})).toText sampleConv) =
      .ok (faxDescription none) := by decide +kernel
  rw [hback] at hd'
  obtain rfl := Except.ok.inj hd'
  revert heq
  decide +kernel

end SmithsNet.Sdp
