import SmithsNet.Lib.Blocks
import SmithsNet.Uas.Headers

/-!
# SmithsNet.Uas.Echo

What a response says of the request it answers (`smiths-sip/src/uas.rs`, `build_response`):
its own header lines are read back with the scanner that summarised the request.

The response repeats the lines that begin with one of the names and the colon.  A line with
white space around its name is summarised and not repeated, and a `To` line with an empty
`;tag=` is given no tag: `answers_iff` says exactly when the peer can match the response.
-/

namespace SmithsNet.Uas.Headers

open Lib Txn Option List

/-! ## what one line says -/

/-- The value of a line under one of the names. -/
def valueUnder (names : List String) (line : Text) : Option Text :=
  (nameValue line).bind fun p => if oneOf names p.1 then some p.2 else none

/-- What is read of the value of a line under one of the names. -/
def field {β : Type} (names : List String) (read : Text → Option β) (line : Text) : Option β :=
  (valueUnder names line).bind read

def branchOf : Text → Option Text := field ["via", "v"] viaBranchParam
def callIdOf : Text → Option Text := field ["call-id", "i"] nonEmpty
def fromTagOf : Text → Option Text := field ["from", "f"] extractTagParam
def toTagOf : Text → Option Text := field ["to", "t"] extractTagParam
def cseqOf : Text → Option Nat := field ["cseq"] cseqNumber

/-- The scanner takes the line for a `Via`. -/
def isVia (line : Text) : Bool := (valueUnder ["via", "v"] line).isSome

/-- The line begins with a name that is repeated as it is. -/
def repeated (line : Text) : Bool :=
  startsWithAny ["via:", "v:", "from:", "f:", "call-id:", "i:", "cseq:"] line

/-- The line begins as a `To` line. -/
def startsTo (line : Text) : Bool := startsWithAny ["to:", "t:"] line

/-- The line does not say `;tag=`. -/
def untagged (line : Text) : Bool := (findSub ";tag=".toList (toAsciiLowercase line)).isNone

/-! ## the summary is the first line of each kind -/

variable {c : Char} {extras : List (Text × Text)} {names : List String} {lines : List Text}
    {localTag : Option Text} {name raw line part tag reason out : Text} {kept : Text → Bool}
    {β : Type} {read : Text → Option β}

theorem oneOf_iff : oneOf names name = true ↔ ∃ n ∈ names, n.toList = name := by
  simp [oneOf]

theorem oneOf_disjoint (others : List String) (h : oneOf names name = true)
    (hdisjoint : ∀ n ∈ names, n ∉ others) : oneOf others name = false := by
  rw [Bool.eq_false_iff]
  intro hother
  obtain ⟨n, hn, rfl⟩ := oneOf_iff.mp h
  obtain ⟨m, hm, hmn⟩ := oneOf_iff.mp hother
  exact hdisjoint n hn (String.toList_inj.mp hmn ▸ hm)

namespace HeaderFields

variable (h : HeaderFields) (name value : Text)

/-- A field that its own header sets, and only where it is not set yet. -/
theorem field_addHeader {get : HeaderFields → Option β} {names : List String} {read : Text → Option β}
    (hset : oneOf names name = true → get h = none → get (h.addHeader name value) = read value)
    (hkept : oneOf names name = false ∨ (get h).isNone = false → get (h.addHeader name value) = get h) :
    get (h.addHeader name value) = (get h).or (if oneOf names name then read value else none) := by
  cases hn : oneOf names name with
  | false => rw [hkept (.inl hn), if_neg Bool.false_ne_true, or_none]
  | true =>
    rw [if_pos rfl]
    cases hg : get h with
    | none => rw [hset hn hg, none_or]
    | some b => rw [hkept (.inr (by rw [hg]; rfl)), hg, some_or]

theorem branch_addHeader :
    (h.addHeader name value).branch = h.branch.or (if oneOf ["via", "v"] name then viaBranchParam value else none) := by
  refine field_addHeader h name value (fun hn hb => ?_) ?_
  · simp only [addHeader, hn, hb, isNone_none, Bool.true_and, if_true]
  · rintro (hn | hn) <;> simp [addHeader, apply_ite HeaderFields.branch, hn]

theorem callId_addHeader :
    (h.addHeader name value).callId = h.callId.or (if oneOf ["call-id", "i"] name then nonEmpty value else none) := by
  refine field_addHeader h name value (fun hn hb => ?_) ?_
  · have hvia := oneOf_disjoint ["via", "v"] hn (by decide)
    cases hv : value.isEmpty <;> simp [addHeader, apply_ite HeaderFields.callId, hvia, hn, hb, hv, nonEmpty]
  · rintro (hn | hn) <;> simp [addHeader, apply_ite HeaderFields.callId, hn]

theorem fromTag_addHeader :
    (h.addHeader name value).fromTag = h.fromTag.or (if oneOf ["from", "f"] name then extractTagParam value else none) := by
  refine field_addHeader h name value (fun hn hb => ?_) ?_
  · have hvia := oneOf_disjoint ["via", "v"] hn (by decide)
    have hcall := oneOf_disjoint ["call-id", "i"] hn (by decide)
    simp [addHeader, hvia, hcall, hn, hb]
  · rintro (hn | hn) <;> simp [addHeader, apply_ite HeaderFields.fromTag, hn]

theorem toTag_addHeader :
    (h.addHeader name value).toTag = h.toTag.or (if oneOf ["to", "t"] name then extractTagParam value else none) := by
  refine field_addHeader h name value (fun hn hb => ?_) ?_
  · have hvia := oneOf_disjoint ["via", "v"] hn (by decide)
    have hcall := oneOf_disjoint ["call-id", "i"] hn (by decide)
    have hfrom := oneOf_disjoint ["from", "f"] hn (by decide)
    simp [addHeader, hvia, hcall, hfrom, hn, hb]
  · rintro (hn | hn) <;> simp [addHeader, apply_ite HeaderFields.toTag, hn]

theorem cseq_addHeader :
    (h.addHeader name value).cseq = h.cseq.or (if oneOf ["cseq"] name then cseqNumber value else none) := by
  refine field_addHeader h name value (fun hn hb => ?_) ?_
  · have hvia := oneOf_disjoint ["via", "v"] hn (by decide)
    have hcall := oneOf_disjoint ["call-id", "i"] hn (by decide)
    have hfrom := oneOf_disjoint ["from", "f"] hn (by decide)
    have hto := oneOf_disjoint ["to", "t"] hn (by decide)
    simp [addHeader, hvia, hcall, hfrom, hto, hn, hb]
  · rintro (hn | hn) <;> simp [addHeader, apply_ite HeaderFields.cseq, hn]

variable {β : Type} {get : HeaderFields → Option β} {read : Text → Option β}

/-- A field that follows its own header is read by one line after the other. -/
theorem addLine_of {names : List String}
    (hset : ∀ h name value, get (addHeader h name value) = (get h).or (if oneOf names name then read value else none))
    (h : HeaderFields) (line : Text) : get (h.addLine line) = (get h).or (field names read line) := by
  unfold addLine field valueUnder
  cases hline : nameValue line with
  | none => simp
  | some p =>
    show get (h.addHeader p.1 p.2) = _
    rw [hset, bind_some]
    cases oneOf names p.1 <;> rfl

theorem foldl_addLine
    (hstep : ∀ h line, get (addLine h line) = (get h).or (read line)) (lines : List Text) (h : HeaderFields) :
    get (lines.foldl addLine h) = (get h).or (lines.findSome? read) := by
  induction lines generalizing h with
  | nil => simp
  | cons line lines ih =>
    rw [List.foldl_cons, ih, hstep, findSome?_cons, Option.or_assoc]
    cases read line <;> simp

end HeaderFields

/-- **The summary of a message**: for each field the first line that gives it. -/
theorem summarizeRequest_fields (raw : Bytes) :
    (summarizeRequest raw).branch = (messageLines raw).tail.findSome? branchOf ∧
      (summarizeRequest raw).callId = (messageLines raw).tail.findSome? callIdOf ∧
      (summarizeRequest raw).fromTag = (messageLines raw).tail.findSome? fromTagOf ∧
      (summarizeRequest raw).toTag = (messageLines raw).tail.findSome? toTagOf ∧
      (summarizeRequest raw).cseq = (messageLines raw).tail.findSome? cseqOf := by
  have hfield : ∀ {β : Type} (get : HeaderFields → Option β) {names : List String} {read : Text → Option β},
      (∀ h name value, get (h.addHeader name value) = (get h).or (if oneOf names name then read value else none)) →
      get {} = none →
      get ((messageLines raw).tail.foldl HeaderFields.addLine {}) =
        (messageLines raw).tail.findSome? (field names read) := by
    intro β get names read hset hempty
    rw [HeaderFields.foldl_addLine (HeaderFields.addLine_of hset), hempty, none_or]
  exact ⟨hfield HeaderFields.branch HeaderFields.branch_addHeader rfl,
    hfield HeaderFields.callId HeaderFields.callId_addHeader rfl,
    hfield HeaderFields.fromTag HeaderFields.fromTag_addHeader rfl,
      hfield HeaderFields.toTag HeaderFields.toTag_addHeader rfl,
    hfield HeaderFields.cseq HeaderFields.cseq_addHeader rfl⟩

/-! ## lines that begin with a name and its colon -/

theorem asciiLower_eq_colon_iff : asciiLower c = ':' ↔ c = ':' := by
  obtain ⟨hlow, hhigh, hval, -⟩ | ⟨-, hsame⟩ := asciiLower_cases c
  · constructor
    · intro heq
      rw [heq] at hval
      have hcolon : ':'.toNat = 58 := rfl
      omega
    · rintro rfl
      exact absurd hlow (by decide)
  · rw [hsame]

/-- A name of the scanners: no white space and no colon. -/
def Word (name : String) : Prop := name.toList ≠ [] ∧ ∀ c ∈ name.toList, isWhitespace c = false ∧ c ≠ ':'

/-- Letters in lower case are no white space when those they come from are none. -/
theorem isWhitespace_of_asciiLower (h : isWhitespace (asciiLower c) = false) : isWhitespace c = false := by
  obtain ⟨hlow, hhigh, -⟩ | ⟨-, hsame⟩ := asciiLower_cases c
  · unfold isWhitespace
    simp
    omega
  · rwa [hsame] at h

theorem nameValue_colon (h : ':' ∉ raw) (rest : Text) :
    nameValue (raw ++ ':' :: rest) = some (toAsciiLowercase (trim raw), trim rest) := by
  rw [nameValue, splitOnce_char h]
  rfl

/-- A line that begins with one of the names and its colon is known by that name. -/
theorem nameValue_of_startsWithAny (hwords : ∀ n ∈ names, Word n)
    (h : startsWithAny (names.map (· ++ ":")) line = true) :
    ∃ raw rest, line = raw ++ ':' :: rest ∧ ':' ∉ raw ∧ oneOf names (toAsciiLowercase (trim raw)) = true := by
  obtain ⟨lead, hlead, hpre⟩ := List.any_eq_true.mp h
  obtain ⟨name, hname, rfl⟩ := mem_map.mp hlead
  obtain ⟨hne, hword⟩ := hwords name hname
  obtain ⟨rest, hrest⟩ := List.isPrefixOf_iff_prefix.mp hpre
  rw [String.toList_append, append_assoc] at hrest
  obtain ⟨raw, tail, rfl, hraw, htail⟩ := List.map_eq_append_iff.mp hrest.symm
  obtain ⟨c, rest', rfl, hc, -⟩ := List.map_eq_cons_iff.mp htail
  obtain rfl := asciiLower_eq_colon_iff.mp hc
  have hmem : ∀ d ∈ raw, isWhitespace d = false ∧ d ≠ ':' := by
    intro d hd
    obtain ⟨hwhite, hcolon⟩ := hword (asciiLower d) (hraw ▸ List.mem_map_of_mem hd)
    exact ⟨isWhitespace_of_asciiLower hwhite, fun heq => hcolon (asciiLower_eq_colon_iff.mpr heq)⟩
  have htoken : Token raw := by
    refine ⟨?_, fun d hd => (hmem d hd).1⟩
    rintro rfl
    exact hne hraw.symm
  refine ⟨raw, rest', rfl, fun hin => (hmem _ hin).2 rfl, ?_⟩
  rw [trim_token htoken]
  exact oneOf_iff.mpr ⟨name, hname, hraw.symm⟩

/-- The names of the lines that are repeated. -/
def repeatedNames : List String := ["via", "v", "from", "f", "call-id", "i", "cseq"]

def toNames : List String := ["to", "t"]

theorem name_of_repeated (h : repeated line = true) :
    ∃ raw rest, line = raw ++ ':' :: rest ∧ ':' ∉ raw ∧ oneOf repeatedNames (toAsciiLowercase (trim raw)) = true :=
  nameValue_of_startsWithAny (by unfold Word repeatedNames; decide) h

theorem name_of_startsTo (h : startsTo line = true) :
    ∃ raw rest, line = raw ++ ':' :: rest ∧ ':' ∉ raw ∧ oneOf toNames (toAsciiLowercase (trim raw)) = true :=
  nameValue_of_startsWithAny (by unfold Word toNames; decide) h

theorem field_other {others : List String} (hraw : ':' ∉ raw)
    (hname : oneOf names (toAsciiLowercase (trim raw)) = true) (hdisjoint : ∀ n ∈ names, n ∉ others) (rest : Text) :
    field others read (raw ++ ':' :: rest) = none := by
  rw [field, valueUnder, nameValue_colon hraw, bind_some, oneOf_disjoint others hname hdisjoint]
  rfl

/-! ## what the response repeats of a line -/

theorem answerTo_append (localTag : Option Text) (line : Text) : ∃ suffix, answerTo localTag line = line ++ suffix := by
  unfold answerTo
  split
  · split
    · exact ⟨_, rfl⟩
    · exact ⟨[], (append_nil line).symm⟩
  · exact ⟨[], (append_nil line).symm⟩

/-- A field that is not the `To` tag is repeated with its line, or not at all. -/
theorem field_echoLine (hnames : ∀ n ∈ toNames, n ∉ names) (localTag : Option Text) (line : Text) :
    (echoLine localTag line).bind (field names read) = if repeated line then field names read line else none := by
  cases line with
  | nil => rfl
  | cons c line =>
    unfold echoLine
    rw [List.isEmpty_cons, if_neg Bool.false_ne_true]
    by_cases hrep : repeated (c :: line) = true
    · have hlead : startsWithAny ["via:", "v:", "from:", "f:", "call-id:", "i:", "cseq:"] (c :: line) = true := hrep
      rw [if_pos hlead, if_pos hrep, bind_some]
    · have hlead : ¬ startsWithAny ["via:", "v:", "from:", "f:", "call-id:", "i:", "cseq:"] (c :: line) = true := hrep
      rw [if_neg hlead, if_neg hrep]
      split
      · next hto =>
        obtain ⟨raw, rest, hline, hraw, hname⟩ := name_of_startsTo hto
        obtain ⟨suffix, hsuffix⟩ := answerTo_append localTag (c :: line)
        rw [bind_some, hsuffix, hline, append_assoc, List.cons_append]
        exact field_other hraw hname hnames _
      · rfl

/-! ## the tag of the response -/

/-- A tag that ends where its text ends. -/
structure TagWord (tag : Text) : Prop where
  ne : tag ≠ []
  plain : ∀ c ∈ tag, (c == ';' || c == ',' || c == '>' || isWhitespace c) = false

theorem untagged_iff : untagged line = true ↔ ¬ ";tag=".toList <:+: toAsciiLowercase line := by
  rw [untagged, isNone_iff_eq_none, findSub_eq_none_iff (by decide)]

theorem untagged_of_suffix (h : untagged line = true) (hpart : part <:+ line) : untagged part = true := by
  rw [untagged_iff] at h ⊢
  exact fun hin => h (hin.trans (hpart.map asciiLower).isInfix)

theorem extractTagParam_appended (hpart : untagged part = true) (htag : TagWord tag) :
    extractTagParam (part ++ (";tag=".toList ++ tag)) = some tag := by
  have hfound : findSub ";tag=".toList (toAsciiLowercase (part ++ (";tag=".toList ++ tag))) = some part.length := by
    have hlower : toAsciiLowercase (part ++ (";tag=".toList ++ tag)) =
        toAsciiLowercase part ++ (';' :: ("tag=".toList ++ toAsciiLowercase tag)) := by
      rw [toAsciiLowercase, List.map_append, List.map_append]
      rfl
    have hword := findSub_word (c := ';') (by decide) (untagged_iff.mp hpart) (toAsciiLowercase tag)
    rw [hlower]
    exact hword.trans (congrArg some (List.length_map _))
  have hdrop : (part ++ (";tag=".toList ++ tag)).drop (part.length + ";tag=".toList.length) = tag := by
    rw [← append_assoc, ← List.length_append]
    exact List.drop_left
  have htake : (tag.takeWhile fun c => !(c == ';' || c == ',' || c == '>' || isWhitespace c)) = tag := by
    rw [List.takeWhile_eq_self_iff]
    intro c hc
    rw [htag.plain c hc]
    rfl
  have hne : tag.isEmpty = false := by simpa using htag.ne
  rw [extractTagParam, paramAfter, hfound, bind_some]
  simp only [hdrop, htake, hne, Bool.false_eq_true, if_false]

theorem trim_appended (rest : Text) (htag : TagWord tag) :
    trim (rest ++ (";tag=".toList ++ tag)) = rest.dropWhile isWhitespace ++ (";tag=".toList ++ tag) := by
  have hwhite : White (rest.takeWhile isWhitespace) := fun c hc => List.mem_takeWhile_imp hc
  have htoken : Token tag := by
    refine ⟨htag.ne, fun c hc => ?_⟩
    have hplain := htag.plain c hc
    simp only [Bool.or_eq_false_iff] at hplain
    exact hplain.2
  have hsemi : Edged [';'] := edged_of_token ⟨by decide, by decide⟩
  have hlast : Edged (";tag=".toList ++ tag) := hsemi.append (edged_of_token htoken) "tag=".toList
  have hedged : Edged (rest.dropWhile isWhitespace ++ (";tag=".toList ++ tag)) := by
    refine ⟨List.append_ne_nil_of_right_ne_nil _ hlast.ne, ?_, ?_⟩
    · intro c hc
      cases hdrop : rest.dropWhile isWhitespace with
      | nil =>
        rw [hdrop] at hc
        exact hlast.first c hc
      | cons d tail =>
        rw [hdrop] at hc
        obtain rfl : d = c := Option.some.inj hc
        have hnot := List.head?_dropWhile_not isWhitespace rest
        rw [hdrop] at hnot
        simpa using hnot
    · intro c hc
      rw [List.getLast?_append_of_ne_nil _ hlast.ne] at hc
      exact hlast.last c hc
  have hsplit : rest ++ (";tag=".toList ++ tag) =
      rest.takeWhile isWhitespace ++ ((rest.dropWhile isWhitespace ++ (";tag=".toList ++ tag)) ++ []) := by
    rw [append_nil, ← append_assoc (rest.takeWhile isWhitespace), List.takeWhile_append_dropWhile]
  rw [hsplit, hedged.trim hwhite white_nil]

/-- The tag the peer finds in what becomes of a line. -/
def answeredTag (localTag : Option Text) (line : Text) : Option Text :=
  if startsTo line then
    match localTag with
    | some tag => if untagged line then some tag else toTagOf line
    | none => toTagOf line
  else none

theorem toTagOf_echoLine (htag : ∀ tag, localTag = some tag → TagWord tag) (line : Text) :
    (echoLine localTag line).bind toTagOf = answeredTag localTag line := by
  cases line with
  | nil => rfl
  | cons c line =>
    unfold echoLine answeredTag
    rw [List.isEmpty_cons, if_neg Bool.false_ne_true]
    by_cases hrep : repeated (c :: line) = true
    · have hlead : startsWithAny ["via:", "v:", "from:", "f:", "call-id:", "i:", "cseq:"] (c :: line) = true := hrep
      obtain ⟨raw, rest, hline, hraw, hname⟩ := name_of_repeated hrep
      have hnot : ¬ startsTo (c :: line) = true := by
        intro hto
        obtain ⟨raw', rest', hline', hraw', hname'⟩ := name_of_startsTo hto
        have hsame := hline.symm.trans hline'
        have hvalue := congrArg nameValue hsame
        rw [nameValue_colon hraw, nameValue_colon hraw'] at hvalue
        have hnames := congrArg Prod.fst (Option.some.inj hvalue)
        have hother := oneOf_disjoint toNames hname (by decide)
        rw [show toAsciiLowercase (trim raw) = toAsciiLowercase (trim raw') from hnames, hname'] at hother
        cases hother
      rw [if_pos hlead, if_neg hnot, bind_some, hline]
      exact field_other hraw hname (by decide) rest
    · have hlead : ¬ startsWithAny ["via:", "v:", "from:", "f:", "call-id:", "i:", "cseq:"] (c :: line) = true := hrep
      rw [if_neg hlead]
      by_cases hto : startsTo (c :: line) = true
      · have hto' : startsWithAny ["to:", "t:"] (c :: line) = true := hto
        rw [if_pos hto', if_pos hto, bind_some]
        cases hlocal : localTag with
        | none => rfl
        | some tag =>
          show toTagOf (if untagged (c :: line) then _ else _) = _
          split
          · next huntagged =>
            obtain ⟨raw, rest, hline, hraw, hname⟩ := name_of_startsTo hto
            have hrest : rest.dropWhile isWhitespace <:+ c :: line :=
              (List.dropWhile_suffix _).trans (hline ▸ (List.suffix_cons ':' rest).trans (List.suffix_append raw _))
            have hpart := untagged_of_suffix huntagged hrest
            rw [hline, append_assoc, List.cons_append, toTagOf, field, valueUnder, nameValue_colon hraw,
              trim_appended rest (htag tag hlocal), bind_some]
            simp only [show oneOf ["to", "t"] (toAsciiLowercase (trim raw)) = true from hname, if_true, bind_some]
            exact extractTagParam_appended hpart (htag tag hlocal)
          · rfl
      · have hto' : ¬ startsWithAny ["to:", "t:"] (c :: line) = true := hto
        rw [if_neg hto', if_neg hto]
        rfl

/-! ## the lines of a response -/

/-- What the callers pass besides the request: no line ends, a tag that is a word, and no header
that the response repeats. -/
structure Passed (reason : Text) (localTag : Option Text) (extras : List (Text × Text)) : Prop where
  reason : PairFree '\r' '\n' reason
  localTag : ∀ tag, localTag = some tag → TagWord tag
  names : ∀ p ∈ extras, '\r' ∉ p.1 ∧ ':' ∉ p.1 ∧ oneOf (repeatedNames ++ toNames) (toAsciiLowercase (trim p.1)) = false
  values : ∀ p ∈ extras, PairFree '\r' '\n' p.2

/-- A line of a block: not empty and without a line end. -/
def BlockLine (line : Text) : Prop := line ≠ [] ∧ PairFree '\r' '\n' line

theorem blockLine_append {lead rest : Text} (hne : lead ≠ []) (hlead : '\r' ∉ lead) (hrest : PairFree '\r' '\n' rest) :
    BlockLine (lead ++ rest) :=
  ⟨List.append_ne_nil_of_left_ne_nil hne _, (pairFree_of_not_mem hlead).append hrest (.inl hlead)⟩

theorem pairFree_showNat (n : Nat) : PairFree '\r' '\n' (showNat n) :=
  pairFree_of_not_mem fun hin => absurd (digit_of_mem_showNat hin) (by decide)

theorem blockLine_status (h : PairFree '\r' '\n' reason) (status : UInt16) :
    BlockLine ("SIP/2.0 ".toList ++ (showNat status.toNat ++ ' ' :: reason)) := by
  have hspace : PairFree '\r' '\n' (' ' :: reason) := (blockLine_append (cons_ne_nil ' ' []) (by decide) h).2
  have hdigits : '\r' ∉ showNat status.toNat := fun hin => absurd (digit_of_mem_showNat hin) (by decide)
  exact blockLine_append (by decide) (by decide) ((pairFree_showNat _).append hspace (.inl hdigits))

theorem blockLine_echo (htag : ∀ tag, localTag = some tag → TagWord tag)
    (hline : PairFree '\r' '\n' line) (h : echoLine localTag line = some out) : BlockLine out := by
  unfold echoLine at h
  split at h
  · cases h
  next hempty =>
  have hne : line ≠ [] := by simpa using hempty
  split at h
  · obtain rfl : line = out := Option.some.inj h
    exact ⟨hne, hline⟩
  split at h
  · obtain rfl : answerTo localTag line = out := Option.some.inj h
    unfold answerTo
    cases hlocal : localTag with
    | none => exact ⟨hne, hline⟩
    | some tag =>
      show BlockLine (if _ then _ else _)
      split
      · have hfeed : '\n' ∉ ";tag=".toList ++ tag := by
          rw [mem_append, not_or]
          exact ⟨by decide, fun hin => absurd ((htag tag hlocal).plain _ hin) (by decide)⟩
        have hreturn : '\r' ∉ ";tag=".toList ++ tag := by
          rw [mem_append, not_or]
          exact ⟨by decide, fun hin => absurd ((htag tag hlocal).plain _ hin) (by decide)⟩
        exact ⟨List.append_ne_nil_of_left_ne_nil hne _, hline.append (pairFree_of_not_mem hreturn) (.inr hfeed)⟩
      · exact ⟨hne, hline⟩
  · cases h

theorem blockLine_responseLines
    (h : Passed reason localTag extras) (hlines : ∀ line ∈ lines, PairFree '\r' '\n' line)
    (status : UInt16) (n : Nat) : ∀ line ∈ responseLines lines status reason localTag extras n, BlockLine line := by
  intro line hmem
  obtain rfl | hmem := List.mem_cons.mp hmem
  · exact blockLine_status h.reason status
  obtain hmem | hmem := mem_append.mp hmem
  · obtain hmem | hmem := mem_append.mp hmem
    · obtain ⟨source, hsource, hecho⟩ := List.mem_filterMap.mp hmem
      exact blockLine_echo h.localTag (hlines source (List.mem_of_mem_tail hsource)) hecho
    · obtain ⟨p, hp, rfl⟩ := mem_map.mp hmem
      have hvalue : PairFree '\r' '\n' (": ".toList ++ p.2) := (blockLine_append (by decide) (by decide) (h.values p hp)).2
      refine ⟨List.append_ne_nil_of_right_ne_nil _ (cons_ne_nil _ _), ?_⟩
      exact (pairFree_of_not_mem (h.names p hp).1).append hvalue (.inl (h.names p hp).1)
  · obtain rfl := mem_singleton.mp hmem
    exact blockLine_append (by decide) (by decide) (pairFree_showNat n)

theorem splitHeadersBody_of_splitOnce {text : Text} {parts : Text × Text}
    (h : splitOnce "\r\n\r\n".toList text = some parts) : splitHeadersBody text = parts := by
  rw [splitHeadersBody, h]

/-- A block of lines in front of any bytes is read back line by line. -/
theorem messageLines_block (hne : lines ≠ []) (h : ∀ line ∈ lines, BlockLine line) (body : Bytes) :
    messageLines (toUtf8 ((lines.map (· ++ crlf)).flatten ++ crlf) ++ body) = lines := by
  have hcut : splitHeadersBody (fromUtf8Lossy (toUtf8 ((lines.map (· ++ crlf)).flatten ++ crlf) ++ body)) =
      (crlf.intercalate lines, fromUtf8Lossy body) := by
    have hsplit := splitOnce_block (a := '\r') (b := '\n') (by decide) hne h (fromUtf8Lossy body)
    rw [fromUtf8Lossy_append, append_assoc]
    exact splitHeadersBody_of_splitOnce hsplit
  rw [messageLines, hcut]
  exact splitSub_intercalate (by decide) hne fun line hmem => (h line hmem).2

/-- **A response is read back line by line.** -/
theorem messageLines_buildResponse
    (h : Passed reason localTag extras) (request : Bytes) (status : UInt16) (body : Bytes) :
    messageLines (buildResponse request status reason localTag extras body) =
      responseLines (messageLines request) status reason localTag extras body.length :=
  messageLines_block (cons_ne_nil _ _)
    (blockLine_responseLines h (fun _ hmem => pairFree_of_mem_splitSub hmem) status body.length) body

/-! ## what is read back -/

theorem findSome?_filterMap {α γ : Type} (f : α → Option β) (g : β → Option γ) (l : List α) :
    (l.filterMap f).findSome? g = l.findSome? fun x => (f x).bind g := by
  induction l with
  | nil => rfl
  | cons x l ih =>
    rw [findSome?_cons]
    cases hx : f x with
    | none => rw [List.filterMap_cons_none hx, ih, bind_none]
    | some y => rw [List.filterMap_cons_some hx, findSome?_cons, ih, bind_some]

theorem valueUnder_added (hnames : ∀ n ∈ names, n ∈ repeatedNames ++ toNames)
    (h : Passed reason localTag extras) (n : Nat) :
    ∀ line ∈ (extras.map fun p => p.1 ++ (": ".toList ++ p.2)) ++ ["Content-Length: ".toList ++ showNat n],
      valueUnder names line = none := by
  have hforeign : ∀ {raw : Text}, ':' ∉ raw → oneOf (repeatedNames ++ toNames) (toAsciiLowercase (trim raw)) = false →
      ∀ rest, valueUnder names (raw ++ ':' :: rest) = none := by
    intro raw hraw hname rest
    have hother : oneOf names (toAsciiLowercase (trim raw)) = false := by
      rw [Bool.eq_false_iff] at hname ⊢
      intro hin
      obtain ⟨m, hm, heq⟩ := oneOf_iff.mp hin
      exact hname (oneOf_iff.mpr ⟨m, hnames m hm, heq⟩)
    rw [valueUnder, nameValue_colon hraw, bind_some, hother]
    rfl
  intro line hmem
  obtain hmem | hmem := mem_append.mp hmem
  · obtain ⟨p, hp, rfl⟩ := mem_map.mp hmem
    obtain ⟨-, hcolon, hname⟩ := h.names p hp
    exact hforeign hcolon hname _
  · obtain rfl := mem_singleton.mp hmem
    have hname : "Content-Length: ".toList = "Content-Length".toList ++ [':', ' '] := by decide +kernel
    rw [hname, append_assoc]
    exact hforeign (by decide) (by decide +kernel) (' ' :: showNat n)

/-- What is read of the response is what is read of the lines that the request's lines became. -/
theorem findSome?_responseLines (hnames : ∀ n ∈ names, n ∈ repeatedNames ++ toNames)
    (h : Passed reason localTag extras) (lines : List Text) (status : UInt16) (n : Nat) :
    (responseLines lines status reason localTag extras n).tail.findSome? (field names read) =
      lines.tail.findSome? fun line => (echoLine localTag line).bind (field names read) := by
  have hadded : ((extras.map fun p => p.1 ++ (": ".toList ++ p.2)) ++ ["Content-Length: ".toList ++ showNat n]).findSome?
      (field names read) = none := by
    rw [List.findSome?_eq_none_iff]
    intro line hmem
    rw [field, valueUnder_added hnames h n line hmem, bind_none]
  rw [responseLines, List.tail_cons, append_assoc, findSome?_append, findSome?_filterMap, hadded, or_none]

/-! ## the `Via` lines -/

/-- The `Via` lines of a message, in order. -/
def viaLines (raw : Bytes) : List Text := (messageLines raw).tail.filter isVia

theorem echoLine_of_repeated (h : repeated line = true) (localTag : Option Text) :
    echoLine localTag line = some line := by
  have hlead : startsWithAny ["via:", "v:", "from:", "f:", "call-id:", "i:", "cseq:"] line = true := h
  have hne : line.isEmpty = false := by
    cases line with
    | nil => cases h
    | cons c line => rfl
  rw [echoLine, hne, if_neg Bool.false_ne_true, if_pos hlead]

theorem isVia_echoLine (hrep : ¬ repeated line = true)
    (h : echoLine localTag line = some out) : isVia out = false := by
  have hfield : (echoLine localTag line).bind (field ["via", "v"] some) = _ := field_echoLine (by decide) localTag line
  rw [h, if_neg hrep] at hfield
  have hnone : valueUnder ["via", "v"] out = none := by
    cases hvalue : valueUnder ["via", "v"] out with
    | none => rfl
    | some value =>
      rw [bind_some, field, hvalue] at hfield
      cases hfield
  rw [isVia, hnone]
  rfl

theorem filter_isVia_filterMap (localTag : Option Text) (lines : List Text) :
    (lines.filterMap (echoLine localTag)).filter isVia = (lines.filter isVia).filter repeated := by
  rw [List.filter_filter]
  induction lines with
  | nil => rfl
  | cons line lines ih =>
    by_cases hrep : repeated line = true
    · rw [List.filterMap_cons_some (echoLine_of_repeated hrep localTag), filter_cons, filter_cons, ih, hrep,
        Bool.true_and]
    · rw [filter_cons, Bool.eq_false_iff.mpr hrep, Bool.false_and, if_neg Bool.false_ne_true, ← ih]
      cases hecho : echoLine localTag line with
      | none => rw [List.filterMap_cons_none hecho]
      | some out =>
        rw [List.filterMap_cons_some hecho, filter_cons, isVia_echoLine hrep hecho, if_neg Bool.false_ne_true]

theorem filter_isVia_responseLines
    (h : Passed reason localTag extras) (lines : List Text) (status : UInt16) (n : Nat) :
    (responseLines lines status reason localTag extras n).tail.filter isVia = (lines.tail.filter isVia).filter repeated := by
  have hadded : ((extras.map fun p => p.1 ++ (": ".toList ++ p.2)) ++ ["Content-Length: ".toList ++ showNat n]).filter
      isVia = [] := by
    rw [List.filter_eq_nil_iff]
    intro line hmem
    rw [isVia, valueUnder_added (by decide) h n line hmem]
    exact Bool.false_ne_true
  rw [responseLines, List.tail_cons, append_assoc, List.filter_append, filter_isVia_filterMap, hadded, append_nil]

/-! ## the top `Via` line -/

/-- The loop of `extract_via_branch`. -/
def topBranch : List Text → Option Text
  | [] => none
  | line :: lines =>
    if line.isEmpty then none
    else (splitOnce [':'] line).bind fun p =>
      if oneOf ["via", "v"] (toAsciiLowercase (trim p.1)) then viaBranchParam p.2
      else topBranch lines

/-- `extract_via_branch` -/
def extractViaBranch (raw : Bytes) : Option Text :=
  (fromUtf8 raw).bind fun text => topBranch (splitSub crlf text).tail

theorem topBranch_block (h : ∀ line ∈ lines, ':' ∈ line) (rest : List Text) :
    topBranch (lines ++ [] :: rest) =
      (lines.filter isVia).head?.bind fun line =>
        (splitOnce [':'] line).bind fun p => viaBranchParam p.2 := by
  induction lines with
  | nil => rfl
  | cons line lines ih =>
    obtain ⟨raw, value, rfl, hraw⟩ := List.eq_append_cons_of_mem (h line mem_cons_self)
    have hvia : isVia (raw ++ ':' :: value) = oneOf ["via", "v"] (toAsciiLowercase (trim raw)) := by
      rw [isVia, valueUnder, nameValue_colon hraw, bind_some]
      cases oneOf ["via", "v"] (toAsciiLowercase (trim raw)) <;> rfl
    have hne : (raw ++ ':' :: value).isEmpty = false := by simp
    rw [cons_append, topBranch, hne, if_neg Bool.false_ne_true, splitOnce_char hraw, bind_some,
      filter_cons, hvia]
    cases oneOf ["via", "v"] (toAsciiLowercase (trim raw)) with
    | false => exact ih fun l hl => h l (mem_cons_of_mem _ hl)
    | true =>
      exact (congrArg (Option.bind · fun p => viaBranchParam p.2) (splitOnce_char hraw value)).symm

theorem colon_mem_responseLines (status : UInt16) (n : Nat) :
    ∀ line ∈ (responseLines lines status reason localTag extras n).tail, ':' ∈ line := by
  intro line hmem
  obtain hmem | hmem := mem_append.mp hmem
  · obtain hmem | hmem := mem_append.mp hmem
    · obtain ⟨source, -, hecho⟩ := List.mem_filterMap.mp hmem
      unfold echoLine at hecho
      split at hecho
      · cases hecho
      split at hecho
      · next hrep =>
        obtain rfl := Option.some.inj hecho
        obtain ⟨raw, rest, rfl, -⟩ := name_of_repeated hrep
        simp
      split at hecho
      · next hto =>
        obtain rfl := Option.some.inj hecho
        obtain ⟨raw, rest, rfl, -⟩ := name_of_startsTo hto
        obtain ⟨suffix, heq⟩ := answerTo_append localTag (raw ++ ':' :: rest)
        simp [heq]
      · cases hecho
    · obtain ⟨p, -, rfl⟩ := mem_map.mp hmem
      exact mem_append_right _ mem_cons_self
  · obtain rfl := mem_singleton.mp hmem
    exact mem_append_left _ (by decide)

/-- Of a response `extract_via_branch` reads the first `Via` line and no other. -/
theorem extractViaBranch_buildResponse
    (h : Passed reason localTag extras) (request : Bytes) (status : UInt16) (body : Text) :
    extractViaBranch (buildResponse request status reason localTag extras (toUtf8 body)) =
      ((viaLines request).filter repeated).head?.bind fun line =>
        (splitOnce [':'] line).bind fun p => viaBranchParam p.2 := by
  have hfree : ∀ l ∈ responseLines (messageLines request) status reason localTag extras
      (toUtf8 body).length, PairFree '\r' '\n' l := fun l hl =>
    (blockLine_responseLines h (fun _ hmem => pairFree_of_mem_splitSub hmem) status _ l hl).2
  have hsplit := splitSub_block (a := '\r') (b := '\n') (by decide) hfree (crlf ++ body)
  have hcut : splitSub crlf (crlf ++ body) = [] :: splitSub crlf body :=
    splitGo_line (by decide) pairFree_nil [] body
  rw [extractViaBranch, buildResponse, ← toUtf8_append, fromUtf8_toUtf8, bind_some, append_assoc]
  refine (congrArg (fun parts => topBranch parts.tail) (hsplit.trans (congrArg _ hcut))).trans ?_
  exact (topBranch_block (colon_mem_responseLines status _) _).trans
    (congrArg (fun vias => (head? vias).bind _) (filter_isVia_responseLines h _ status _))

/-! ## when the response matches -/

/-- The first line that gives the field is kept, or the first kept line behind it gives the same. -/
def SaidAlike {β : Type} (kept : Text → Bool) (read : Text → Option β) (lines : List Text) : Prop :=
  ∀ pre line post value, lines = pre ++ line :: post → (∀ l ∈ pre, read l = none) → read line = some value →
    kept line = true ∨ (post.findSome? fun l => if kept l then read l else none) = some value

theorem saidAlike_iff :
    (lines.findSome? fun l => if kept l then read l else none) = lines.findSome? read ↔ SaidAlike kept read lines := by
  have hskip : ∀ {pre : List Text}, (∀ l ∈ pre, read l = none) →
      (pre.findSome? fun l => if kept l then read l else none) = none := by
    intro pre hpre
    rw [List.findSome?_eq_none_iff]
    intro l hl
    rw [hpre l hl, ite_self]
  constructor
  · intro heq pre line post value hlines hpre hread
    have hfirst : lines.findSome? read = some value := List.findSome?_eq_some_iff.mpr ⟨pre, line, post, hlines, hread, hpre⟩
    rw [hfirst, hlines, findSome?_append, hskip hpre, none_or, findSome?_cons, hread] at heq
    cases hkept : kept line with
    | true => exact .inl rfl
    | false =>
      rw [hkept, if_neg Bool.false_ne_true] at heq
      exact .inr heq
  · intro halike
    cases hfirst : lines.findSome? read with
    | none => exact hskip (List.findSome?_eq_none_iff.mp hfirst)
    | some value =>
      obtain ⟨pre, line, post, hlines, hread, hpre⟩ := List.findSome?_eq_some_iff.mp hfirst
      rw [hlines, findSome?_append, hskip hpre, none_or, findSome?_cons, hread]
      obtain hkept | hlater := halike pre line post value hlines hpre hread
      · rw [if_pos hkept]
      · split
        · next hsome =>
          split at hsome
          · exact hsome.symm
          · cases hsome
        · exact hlater

/-- Some `To` line is answered with a tag: it begins with its name and colon, and has a tag or
does not say `;tag=`.  If the first such line has a tag, the line that gives the request's tag
does not come before it with another; if it has none, no `To` line gives a tag but the local one. -/
def ToAnswered (tag : Text) (lines : List Text) : Prop :=
  ∃ pre line post, lines = pre ++ line :: post ∧
    (∀ l ∈ pre, startsTo l = true → untagged l = false ∧ toTagOf l = none) ∧ startsTo line = true ∧
    if untagged line then ∀ own, lines.findSome? toTagOf = some own → own = tag
    else ∃ own, toTagOf line = some own ∧ ∀ earlier, pre.findSome? toTagOf = some earlier → earlier = own

theorem answeredTag_eq_none_iff :
    answeredTag (some tag) line = none ↔ (startsTo line = true → untagged line = false ∧ toTagOf line = none) := by
  unfold answeredTag
  cases startsTo line with
  | false => simp
  | true => cases untagged line <;> simp

theorem toAnswered_iff :
    lines.findSome? (answeredTag (some tag)) = (lines.findSome? toTagOf).or (some tag) ↔ ToAnswered tag lines := by
  constructor
  · intro heq
    obtain ⟨value, hvalue⟩ : ∃ value, (lines.findSome? toTagOf).or (some tag) = some value := by
      cases lines.findSome? toTagOf with
      | none => exact ⟨tag, rfl⟩
      | some own => exact ⟨own, rfl⟩
    rw [hvalue] at heq
    obtain ⟨pre, line, post, hlines, hanswered, hpre⟩ := List.findSome?_eq_some_iff.mp heq
    have hpre' : ∀ l ∈ pre, startsTo l = true → untagged l = false ∧ toTagOf l = none :=
      fun l hl => answeredTag_eq_none_iff.mp (hpre l hl)
    refine ⟨pre, line, post, hlines, hpre', ?_⟩
    unfold answeredTag at hanswered
    split at hanswered
    · next hto =>
      refine ⟨hto, ?_⟩
      simp only at hanswered
      split at hanswered
      · next huntagged =>
        obtain rfl : tag = value := Option.some.inj hanswered
        rw [if_pos huntagged]
        intro own hown
        rw [hown] at hvalue
        exact Option.some.inj hvalue
      · next htagged =>
        rw [if_neg htagged]
        refine ⟨value, hanswered, fun earlier hearlier => ?_⟩
        rw [hlines, findSome?_append, hearlier] at hvalue
        exact Option.some.inj hvalue
    · cases hanswered
  · rintro ⟨pre, line, post, hlines, hpre, hto, hline⟩
    have hskip : pre.findSome? (answeredTag (some tag)) = none :=
      List.findSome?_eq_none_iff.mpr fun l hl => answeredTag_eq_none_iff.mpr (hpre l hl)
    have hfirst : ∀ {value : Text}, answeredTag (some tag) line = some value →
        lines.findSome? (answeredTag (some tag)) = some value := by
      intro value hvalue
      rw [hlines, findSome?_append, hskip, none_or, findSome?_cons, hvalue]
    split at hline
    · next huntagged =>
      have hvalue : answeredTag (some tag) line = some tag := by
        rw [answeredTag, if_pos hto]
        exact if_pos huntagged
      rw [hfirst hvalue]
      cases hown : lines.findSome? toTagOf with
      | none => rfl
      | some own => rw [hline own hown, some_or]
    · next htagged =>
      obtain ⟨own, hown, hearlier⟩ := hline
      have hvalue : answeredTag (some tag) line = some own := by
        rw [answeredTag, if_pos hto]
        exact (if_neg htagged).trans hown
      rw [hfirst hvalue, hlines, findSome?_append, findSome?_cons, hown]
      cases hpre' : pre.findSome? toTagOf with
      | none => rfl
      | some earlier => rw [hearlier earlier hpre', some_or, some_or]

/-- The response answers the request: it is read back with the request's `Via` branch, `Call-ID`,
`From` tag and sequence number, all `Via` lines in order, and the request's `To` tag, or the
local one if it has none. -/
structure Answers (request response : Bytes) (localTag : Option Text) : Prop where
  branch : (summarizeRequest response).branch = (summarizeRequest request).branch
  callId : (summarizeRequest response).callId = (summarizeRequest request).callId
  fromTag : (summarizeRequest response).fromTag = (summarizeRequest request).fromTag
  cseq : (summarizeRequest response).cseq = (summarizeRequest request).cseq
  vias : viaLines response = viaLines request
  toTag : (summarizeRequest response).toTag = (summarizeRequest request).toTag.or localTag

/-- The header lines of a request are written the way both scanners know them. -/
structure WrittenAlike (localTag : Option Text) (lines : List Text) : Prop where
  vias : ∀ line ∈ lines, isVia line = true → repeated line = true
  callId : SaidAlike repeated callIdOf lines
  fromTag : SaidAlike repeated fromTagOf lines
  cseq : SaidAlike repeated cseqOf lines
  toTag : match localTag with
    | some tag => ToAnswered tag lines
    | none => SaidAlike startsTo toTagOf lines

/-- What is read of a line that is kept, one of the lines repeated as they are. -/
theorem findSome?_repeated
    (hnames : ∀ n ∈ names, n ∈ repeatedNames ++ toNames) (hdisjoint : ∀ n ∈ toNames, n ∉ names)
    (h : Passed reason localTag extras) (lines : List Text) (status : UInt16) (n : Nat) :
    (responseLines lines status reason localTag extras n).tail.findSome? (field names read) =
      lines.tail.findSome? fun l => if repeated l then field names read l else none := by
  rw [findSome?_responseLines hnames h]
  simp only [field_echoLine hdisjoint]

theorem findSome?_answered
    (h : Passed reason localTag extras) (lines : List Text) (status : UInt16) (n : Nat) :
    (responseLines lines status reason localTag extras n).tail.findSome? toTagOf =
      lines.tail.findSome? (answeredTag localTag) := by
  rw [toTagOf, findSome?_responseLines (by decide) h]
  exact congrArg (fun read => lines.tail.findSome? read) (funext fun line => toTagOf_echoLine h.localTag line)

/-- **The summary of a response.** -/
theorem summarizeRequest_buildResponse
    (h : Passed reason localTag extras) (request : Bytes) (status : UInt16) (body : Bytes) {response : Bytes}
    (hresponse : response = buildResponse request status reason localTag extras body)
    (hlines : lines = (messageLines request).tail) :
    (summarizeRequest response).branch = lines.findSome? (fun l => if repeated l then branchOf l else none) ∧
      (summarizeRequest response).callId = lines.findSome? (fun l => if repeated l then callIdOf l else none) ∧
      (summarizeRequest response).fromTag = lines.findSome? (fun l => if repeated l then fromTagOf l else none) ∧
      (summarizeRequest response).toTag = lines.findSome? (answeredTag localTag) ∧
      (summarizeRequest response).cseq = lines.findSome? (fun l => if repeated l then cseqOf l else none) ∧
      viaLines response = (lines.filter isVia).filter repeated := by
  obtain ⟨hbranch, hcall, hfrom, hto, hcseq⟩ := summarizeRequest_fields response
  have hread : messageLines response = responseLines (messageLines request) status reason localTag extras body.length := by
    rw [hresponse, messageLines_buildResponse h]
  rw [hread] at hbranch hcall hfrom hto hcseq
  subst hlines
  refine ⟨hbranch.trans ?_, hcall.trans ?_, hfrom.trans ?_, hto.trans ?_, hcseq.trans ?_, ?_⟩
  · exact findSome?_repeated (by decide) (by decide) h _ status _
  · exact findSome?_repeated (by decide) (by decide) h _ status _
  · exact findSome?_repeated (by decide) (by decide) h _ status _
  · exact findSome?_answered h _ status _
  · exact findSome?_repeated (by decide) (by decide) h _ status _
  · rw [viaLines, hread, filter_isVia_responseLines h]

theorem saidAlike_branchOf (h : ∀ line ∈ lines, isVia line = true → repeated line = true) :
    SaidAlike repeated branchOf lines := by
  intro pre line post value hlines _ hread
  refine .inl (h line (by rw [hlines]; simp) ?_)
  rw [isVia]
  cases hvalue : valueUnder ["via", "v"] line with
  | some value => rfl
  | none =>
    rw [branchOf, field, hvalue] at hread
    cases hread

theorem filter_repeated_iff :
    (lines.filter isVia).filter repeated = lines.filter isVia ↔ ∀ line ∈ lines, isVia line = true → repeated line = true := by
  simp only [List.filter_eq_self, List.mem_filter, and_imp]

theorem answeredTag_iff :
    lines.findSome? (answeredTag localTag) = (lines.findSome? toTagOf).or localTag ↔
      match localTag with
      | some tag => ToAnswered tag lines
      | none => SaidAlike startsTo toTagOf lines := by
  cases localTag with
  | some tag => exact toAnswered_iff
  | none =>
    rw [or_none]
    exact saidAlike_iff

/-- **When a response answers its request.** -/
theorem answers_iff {reason : Text} {localTag : Option Text} {extras : List (Text × Text)}
    (h : Passed reason localTag extras) (request : Bytes) (status : UInt16) (body : Bytes) :
    Answers request (buildResponse request status reason localTag extras body) localTag ↔
      WrittenAlike localTag (messageLines request).tail := by
  obtain ⟨hbranch, hcall, hfrom, hto, hcseq⟩ := summarizeRequest_fields request
  generalize hresponse : buildResponse request status reason localTag extras body = response
  obtain ⟨hbranch', hcall', hfrom', hto', hcseq', hvias'⟩ :=
  summarizeRequest_buildResponse h request status body hresponse.symm rfl
  have hvias : viaLines request = (messageLines request).tail.filter isVia := rfl
  generalize (messageLines request).tail = lines at *
  constructor
  · intro hanswers
    constructor
    · exact filter_repeated_iff.mp (hvias'.symm.trans (hanswers.vias.trans hvias))
    · exact saidAlike_iff.mp (hcall'.symm.trans (hanswers.callId.trans hcall))
    · exact saidAlike_iff.mp (hfrom'.symm.trans (hanswers.fromTag.trans hfrom))
    · exact saidAlike_iff.mp (hcseq'.symm.trans (hanswers.cseq.trans hcseq))
    · have hread := hanswers.toTag
      rw [hto', hto] at hread
      exact answeredTag_iff.mp hread
  · intro halike
    constructor
    · exact hbranch'.trans ((saidAlike_iff.mpr (saidAlike_branchOf halike.vias)).trans hbranch.symm)
    · exact hcall'.trans ((saidAlike_iff.mpr halike.callId).trans hcall.symm)
    · exact hfrom'.trans ((saidAlike_iff.mpr halike.fromTag).trans hfrom.symm)
    · exact hcseq'.trans ((saidAlike_iff.mpr halike.cseq).trans hcseq.symm)
    · exact hvias'.trans ((filter_repeated_iff.mpr halike.vias).trans hvias.symm)
    · rw [hto', hto]
      exact answeredTag_iff.mpr halike.toTag

theorem saidAlike_of_forall
    (h : ∀ line ∈ lines, kept line = true ∨ read line = none) : SaidAlike kept read lines := by
  intro pre line post value hlines _ hread
  obtain hkept | hnone := h line (by rw [hlines]; simp)
  · exact .inl hkept
  · rw [hread] at hnone
    cases hnone

/-- The header lines of an INVITE with two `Via` lines, one in the compact form, and the given `To` line. -/
def inviteLines (via toLine : Text) : List Text :=
  ["INVITE sip:bob@x SIP/2.0".toList, via ++ ": SIP/2.0/UDP a;branch=z9".toList, "v: SIP/2.0/UDP b;branch=y8".toList,
    "Call-ID: c1".toList, "FROM: <sip:a@x>;tag=f1".toList, toLine, "CSeq: 7 INVITE".toList, "Subject : none".toList]

def inviteRequest (via toLine : Text) : Bytes := toUtf8 (((inviteLines via toLine).map (· ++ crlf)).flatten ++ crlf)

/-- What the server answers to such an INVITE. -/
def okResponse (request body : Bytes) : Bytes :=
  buildResponse request 200 "OK".toList (some "smiths-1".toList) [("Contact".toList, "<sip:engine@y>".toList)] body

theorem passed_ok : Passed "OK".toList (some "smiths-1".toList) [("Contact".toList, "<sip:engine@y>".toList)] where
  reason := pairFree_of_not_mem (by decide)
  localTag := by
    intro tag htag
    obtain rfl : "smiths-1".toList = tag := Option.some.inj htag
    exact ⟨by decide, by decide⟩
  names := by
    intro p hp
    obtain rfl := mem_singleton.mp hp
    decide +kernel
  values := by
    intro p hp
    obtain rfl := mem_singleton.mp hp
    exact pairFree_of_not_mem (by decide)

theorem messageLines_inviteRequest {via toLine : Text}
    (h : ∀ line ∈ inviteLines via toLine, line ≠ [] ∧ ∀ c ∈ line, c ≠ '\r') :
    messageLines (inviteRequest via toLine) = inviteLines via toLine := by
  have hblock : ∀ line ∈ inviteLines via toLine, BlockLine line :=
    fun line hmem => ⟨(h line hmem).1, pairFree_of_not_mem fun hin => (h line hmem).2 _ hin rfl⟩
  have hread := messageLines_block (cons_ne_nil _ _) hblock []
  rwa [append_nil] at hread

theorem answers_invite : Answers (inviteRequest "Via".toList "To: <sip:b@x>".toList)
      (okResponse (inviteRequest "Via".toList "To: <sip:b@x>".toList) [0xFF]) (some "smiths-1".toList) := by
  refine (answers_iff passed_ok _ 200 [0xFF]).mpr ?_
  rw [messageLines_inviteRequest (by decide +kernel)]
  refine ⟨by decide +kernel, saidAlike_of_forall (by decide +kernel), saidAlike_of_forall (by decide +kernel),
    saidAlike_of_forall (by decide +kernel), ?_⟩
  have huntagged : untagged "To: <sip:b@x>".toList = true := by decide +kernel
  refine ⟨_, _, _, (List.take_append_drop 4 _).symm, by decide +kernel, by decide +kernel, ?_⟩
  rw [if_pos huntagged]
  intro own hown
  have hnone : (inviteLines "Via".toList "To: <sip:b@x>".toList).tail.findSome? toTagOf = none := by decide +kernel
  rw [hnone] at hown
  cases hown

/-- A space before the colon costs the response a `Via` line; an empty `;tag=` costs it its tag. -/
theorem via_and_tag_lost :
    (¬ ∀ (request : Bytes) (status : UInt16) (reason : Text) (localTag : Option Text) (extras : List (Text × Text))
      (body : Bytes), Passed reason localTag extras →
        Answers request (buildResponse request status reason localTag extras body) localTag) ∧
    viaLines (okResponse (inviteRequest "Via ".toList "To: <sip:b@x>".toList) []) = ["v: SIP/2.0/UDP b;branch=y8".toList] ∧
    (summarizeRequest (okResponse (inviteRequest "Via".toList "To: <sip:b@x>;tag=".toList) [])).toTag = none := by
  have hlost : viaLines (okResponse (inviteRequest "Via ".toList "To: <sip:b@x>".toList) []) =
      ["v: SIP/2.0/UDP b;branch=y8".toList] := by
    rw [viaLines, okResponse, messageLines_buildResponse passed_ok, messageLines_inviteRequest (by decide +kernel)]
    decide +kernel
  refine ⟨?_, hlost, ?_⟩
  · intro hall
    have hvias := (hall (inviteRequest "Via ".toList "To: <sip:b@x>".toList) 200 "OK".toList (some "smiths-1".toList)
      [("Contact".toList, "<sip:engine@y>".toList)] [] passed_ok).vias
    rw [← okResponse, hlost, viaLines, messageLines_inviteRequest (by decide +kernel)] at hvias
    revert hvias
    decide +kernel
  · rw [(summarizeRequest_fields _).2.2.2.1, okResponse, messageLines_buildResponse passed_ok,
      messageLines_inviteRequest (by decide +kernel)]
    decide +kernel

end SmithsNet.Uas.Headers
