import SmithsNet.Core.Dialog
import SmithsNet.Lib.Infix
import SmithsNet.Uas.Echo

/-!
# SmithsNet.Uas.InDialogRequest

The request the engine originates inside a dialog (`smiths-sip/src/uas.rs`,
`build_in_dialog_request`), read back with the scanner that summarises requests.

The route set decides where the request goes.  The code takes the first router for a loose
one when `;lr` stands anywhere in its entry; what RFC 3261 asks for is a parameter `lr` of
its URI, and `rfcRouteTarget` is that rule.

* `routed_iff` — when the request line and the `Route` headers are those of the rule;
* `in_dialog_request_iff` — when everything that is read back is the dialog's.
-/

namespace SmithsNet.Uas.InDialogRequest

open Lib SmithsNet.Core Txn Headers List

/-! ## addresses -/

/-- Lower-case hexadecimal of a 16-bit number. -/
def showHex (n : Nat) : Text :=
  (([n / 4096 % 16, n / 256 % 16, n / 16 % 16].dropWhile (· == 0)) ++ [n % 16]).map Nat.digitChar

/-- `Display` of an IPv4 address. -/
def showIpv4 (ip : BitVec 32) : Text :=
  let octet (i : Nat) := showNat (ip.toNat / 256 ^ i % 256)
  octet 3 ++ '.' :: octet 2 ++ '.' :: octet 1 ++ '.' :: octet 0

/-- The eight groups of an IPv6 address. -/
def segments (ip : BitVec 128) : List Nat := (List.range 8).map fun i => ip.toNat / 65536 ^ (7 - i) % 65536

/-- Start and length of the first longest run of zeros. -/
def zeroSpan (longest current : Nat × Nat) (i : Nat) : List Nat → Nat × Nat
  | [] => longest
  | segment :: rest =>
    if segment = 0 then
      let current := if current.2 = 0 then (i, 1) else (current.1, current.2 + 1)
      zeroSpan (if longest.2 < current.2 then current else longest) current (i + 1) rest
    else zeroSpan longest (0, 0) (i + 1) rest

/-- Groups with colons between them. -/
def showGroups : List Nat → Text
  | [] => []
  | [group] => showHex group
  | group :: groups => showHex group ++ ':' :: showGroups groups

/-- `Display` of an IPv6 address. -/
def showIpv6 (ip : BitVec 128) : Text :=
  if ip.toNat / 2 ^ 32 = 0xFFFF then "::ffff:".toList ++ showIpv4 (ip.setWidth 32)
  else
    let zeroes := zeroSpan (0, 0) (0, 0) 0 (segments ip)
    if 1 < zeroes.2 then
      showGroups ((segments ip).take zeroes.1) ++ "::".toList ++
        showGroups ((segments ip).drop (zeroes.1 + zeroes.2))
    else showGroups (segments ip)

/-- `Display` of a socket address. -/
def showSocketAddr : SocketAddr → Text
  | .v4 ip port => showIpv4 ip ++ ':' :: showNat port.toNat
  | .v6 ip port _ scopeId =>
    '[' :: showIpv6 ip ++ (if scopeId = 0 then [] else '%' :: showNat scopeId.toNat) ++
      ']' :: ':' :: showNat port.toNat

/-- A text without a line end. -/
def Clean (t : Text) : Prop := '\r' ∉ t ∧ '\n' ∉ t

instance (t : Text) : Decidable (Clean t) := inferInstanceAs (Decidable (_ ∧ _))

@[simp] theorem clean_nil : Clean [] := ⟨nofun, nofun⟩

variable {c : Char} {t s uri tag method target : Text} {α : Type}

@[simp] theorem clean_append : Clean (s ++ t) ↔ Clean s ∧ Clean t := by
  simp only [Clean, mem_append, not_or]
  tauto

@[simp] theorem clean_cons : Clean (c :: t) ↔ (c ≠ '\r' ∧ c ≠ '\n') ∧ Clean t := by
  simp only [Clean, mem_cons, not_or, eq_comm]
  tauto

theorem Clean.of_infix (h : Clean t) (hin : s <:+: t) : Clean s :=
  ⟨fun hmem => h.1 (hin.subset hmem), fun hmem => h.2 (hin.subset hmem)⟩

theorem clean_of_forall (h : ∀ c ∈ t, c ≠ '\r' ∧ c ≠ '\n') : Clean t :=
  ⟨fun hin => (h _ hin).1 rfl, fun hin => (h _ hin).2 rfl⟩

@[simp] theorem clean_showNat (n : Nat) : Clean (showNat n) :=
  ⟨fun hin => absurd (digit_of_mem_showNat hin) (by decide),
    fun hin => absurd (digit_of_mem_showNat hin) (by decide)⟩

@[simp] theorem clean_showHex (n : Nat) : Clean (showHex n) := by
  have hdigit : ∀ d < 16, Nat.digitChar d ≠ '\r' ∧ Nat.digitChar d ≠ '\n' := by decide
  refine clean_of_forall fun c hc => ?_
  obtain ⟨d, hd, rfl⟩ := mem_map.mp hc
  have hlt : d < 16 := by
    obtain hd | hd := mem_append.mp hd
    · have hmem := (dropWhile_sublist _).mem hd
      simp only [mem_cons, not_mem_nil, or_false] at hmem
      omega
    · obtain rfl := mem_singleton.mp hd
      exact Nat.mod_lt _ (by decide)
  exact hdigit d hlt

@[simp] theorem clean_showIpv4 (ip : BitVec 32) : Clean (showIpv4 ip) := by
  simp [showIpv4]

@[simp] theorem clean_showGroups (groups : List Nat) : Clean (showGroups groups) := by
  fun_induction showGroups groups with
  | case1 => exact clean_nil
  | case2 group => exact clean_showHex group
  | case3 group groups _ ih => simp [ih]

@[simp] theorem clean_showIpv6 (ip : BitVec 128) : Clean (showIpv6 ip) := by
  simp only [showIpv6]
  split_ifs <;> simp

@[simp] theorem clean_showSocketAddr (addr : SocketAddr) : Clean (showSocketAddr addr) := by
  cases addr with
  | v4 ip port => simp [showSocketAddr]
  | v6 ip port flowinfo scopeId =>
    simp only [showSocketAddr]
    split_ifs <;> simp

/-! ## the request -/

/-- Where requests of the dialog go, unless the route set says otherwise. -/
def remoteTarget (record : DialogRecord) : Text :=
  (record.remoteTarget.map String.toList).getD ("sip:".toList ++ showSocketAddr record.peerSignal)

def routeSet (record : DialogRecord) : List Text := record.routeSet.map String.toList

/-- A URI as an entry of the route set. -/
def bracket (uri : Text) : Text := '<' :: uri ++ ['>']

/-- The first route is taken for a loose router. -/
def loose (first : Text) : Bool := (findSub ";lr".toList (toAsciiLowercase first)).isSome

/-- `dialog_route_target`: Request-URI and `Route` header values. -/
def dialogRouteTarget (target : Text) : List Text → Text × List Text
  | [] => (target, [])
  | first :: rest =>
    if loose first then (target, first :: rest)
    else ((firstContactUri first).getD first, rest ++ [bracket target])

/-- Fields for an engine-originated in-dialog request. -/
structure Request where
  method : Text
  record : DialogRecord
  viaSentBy : SocketAddr
  viaTransport : Text
  branch : Text

namespace Request

variable (f : Request)

def requestUri : Text := (dialogRouteTarget (remoteTarget f.record) (routeSet f.record)).1

def routes : List Text := (dialogRouteTarget (remoteTarget f.record) (routeSet f.record)).2

def localUri : Text :=
  (f.record.localUri.map String.toList).getD ("sip:smiths@".toList ++ showSocketAddr f.viaSentBy)

def remoteUri : Text :=
  (f.record.remoteUri.map String.toList).getD ("sip:".toList ++ showSocketAddr f.record.peerSignal)

def requestLine : Text := f.method ++ ' ' :: f.requestUri ++ " SIP/2.0".toList

/-- An address with its tag. -/
def tagged (uri tag : Text) : Text := '<' :: uri ++ ">".toList ++ (";tag=".toList ++ tag)

/-- Names and values of the headers. -/
def headers : List (String × Text) :=
  [("Via", "SIP/2.0/".toList ++ f.viaTransport ++ ' ' :: showSocketAddr f.viaSentBy ++
      ";branch=".toList ++ f.branch ++ ";rport".toList),
    ("Max-Forwards", "70".toList)] ++
    f.routes.map (fun route => ("Route", route)) ++
    [("From", tagged f.localUri f.record.localTag.toList),
      ("To", tagged f.remoteUri f.record.remoteTag.toList),
      ("Call-ID", f.record.callId.toList),
      ("CSeq", showNat f.record.localCseq.toNat ++ ' ' :: f.method),
      ("Content-Length", "0".toList)]

end Request

def headerLine (header : String × Text) : Text := header.1.toList ++ (": ".toList ++ header.2)

def Request.lines (f : Request) : List Text := f.requestLine :: f.headers.map headerLine

/-- `build_in_dialog_request` -/
def buildInDialogRequest (f : Request) : Bytes :=
  toUtf8 ((f.lines.map (· ++ crlf)).flatten ++ crlf)

/-! ## the rule -/

/-- The parameters of a URI: behind the user part, in front of the headers. -/
def uriParams (uri : Text) : List Text :=
  let host := ((splitBy (· == '@') uri).getLast?).getD uri
  (splitBy (· == ';') (((splitBy (· == '?') host).head?).getD host)).tail

/-- The name of a parameter is `lr`. -/
def isLr (param : Text) : Bool :=
  toAsciiLowercase (((splitBy (· == '=') param).head?).getD param) == "lr".toList

/-- The URI of the route has the parameter `lr`. -/
def looseRouter (route : Text) : Bool := (firstContactUri route).any fun uri => (uriParams uri).any isLr

/-- RFC 3261 12.2.1.1: Request-URI and `Route` header values. -/
def rfcRouteTarget (target : Text) : List Text → Text × List Text
  | [] => (target, [])
  | first :: rest =>
    if looseRouter first then (target, first :: rest)
    else ((firstContactUri first).getD first, rest ++ [bracket target])

theorem infix_getD_head_splitBy (p : α → Bool) (s : List α) : ((splitBy p s).head?).getD s <:+: s := by
  cases hhead : (splitBy p s).head? with
  | none => exact infix_refl s
  | some first => exact (prefix_head_splitBy hhead).isInfix

theorem infix_firstContactUri {header : Text} (h : firstContactUri header = some uri) : uri <:+: header := by
  refine List.IsInfix.trans ?_ (infix_trim header)
  unfold firstContactUri at h
  dsimp only at h
  split at h
  · contradiction
  obtain hbracketed | ⟨-, hbare⟩ := Option.or_eq_some_iff.mp h
  · unfold bracketed at hbracketed
    simp only [Option.bind_eq_bind, Option.bind_eq_some_iff, Prod.exists, Option.ite_none_left_eq_some,
      Option.some.injEq] at hbracketed
    obtain ⟨_, after, hafter, inner, _, hinner, -, rfl⟩ := hbracketed
    exact (infix_splitOnce hinner).1.trans (infix_splitOnce hafter).2
  · rw [Option.ite_none_left_eq_some, Option.some.injEq] at hbare
    obtain ⟨-, rfl⟩ := hbare
    have hpart := (infix_trim _).trans (infix_getD_head_splitBy (fun c => c == ',' || c == ' ' || c == '\t') (trim header))
    exact ((infix_trim _).trans (infix_getD_head_splitBy _ _)).trans hpart

theorem loose_of_looseRouter {first : Text} (h : looseRouter first = true) : loose first = true := by
  obtain ⟨uri, huri, hparams⟩ := (Option.any_eq_true _ _).mp h
  obtain ⟨param, hparam, hlr⟩ := List.any_eq_true.mp hparams
  have hhost : ((splitBy (· == '@') uri).getLast?).getD uri <:+: uri := by
    cases hlast : (splitBy (· == '@') uri).getLast? with
    | none => exact infix_refl uri
    | some host => exact infix_of_mem_splitBy (mem_of_getLast? hlast)
  have hname : ((splitBy (· == '=') param).head?).getD param <+: param := by
    cases hhead : (splitBy (· == '=') param).head? with
    | none => exact prefix_refl param
    | some name => exact prefix_head_splitBy hhead
  -- the semicolon, the parameter behind it, and its name in front
  obtain ⟨_, rest, hsplit, -, hrest⟩ := splitBy_pieces (· == ';')
    (((splitBy (· == '?') (((splitBy (· == '@') uri).getLast?).getD uri)).head?).getD
      (((splitBy (· == '@') uri).getLast?).getD uri))
  rw [uriParams, hsplit, tail_cons] at hparam
  obtain ⟨c, hc, hin⟩ := hrest param hparam
  obtain rfl : c = ';' := by simpa using hc
  have huri' := hin.trans ((infix_getD_head_splitBy _ _).trans hhost)
  have hfirst := ((List.cons_prefix_cons.mpr ⟨rfl, hname⟩).isInfix.trans huri').trans (infix_firstContactUri huri)
  have hlower := hfirst.map asciiLower
  rw [isLr, beq_iff_eq] at hlr
  have hword : ";lr".toList <:+: toAsciiLowercase first := by
    have hsemi : (';' :: ((splitBy (· == '=') param).head?).getD param).map asciiLower = ";lr".toList :=
      congrArg (';' :: ·) hlr
    rwa [hsemi] at hlower
  rw [loose, Option.isSome_iff_ne_none]
  exact fun hnone => (findSub_eq_none_iff (by decide)).mp hnone hword

/-! ## reading the headers back -/

/-- The names under which the scanner looks for a field. -/
def known (names : List String) (name : String) : Bool := oneOf names (toAsciiLowercase name.toList)

/-- What a header says to a reader of a field. -/
def said {β : Type} (names : List String) (read : Text → Option β) (header : String × Text) : Option β :=
  if known names header.1 then read (trim header.2) else none

theorem field_headerLine {β : Type} (names : List String) (read : Text → Option β) {header : String × Text}
    (hname : Word header.1) : field names read (headerLine header) = said names read header := by
  have htoken : Token header.1.toList := ⟨hname.1, fun c hc => (hname.2 c hc).1⟩
  have hcolon : ':' ∉ header.1.toList := fun hin => (hname.2 _ hin).2 rfl
  have hline : headerLine header = header.1.toList ++ ':' :: (' ' :: header.2) := rfl
  have hvalue : trim (' ' :: header.2) = trim header.2 := rfl
  rw [field, valueUnder, hline, nameValue_colon hcolon, Option.bind_some, trim_token htoken, hvalue, said, known]
  split <;> rfl

namespace Request

variable {f : Request}

theorem word_headers : ∀ header ∈ f.headers, Word header.1 := by
  intro header hmem
  have hnames : header.1 ∈ ["Via", "Max-Forwards", "Route", "From", "To", "Call-ID", "CSeq", "Content-Length"] := by
    simp only [headers, mem_append, mem_cons, mem_map, not_mem_nil, or_false] at hmem
    obtain ((rfl | rfl) | ⟨_, -, rfl⟩) | rfl | rfl | rfl | rfl | rfl := hmem <;> simp
  have hwords : ∀ name ∈ ["Via", "Max-Forwards", "Route", "From", "To", "Call-ID", "CSeq", "Content-Length"],
      Word name := by
    unfold Word
    decide
  exact hwords _ hnames

variable {β : Type}

theorem findSome?_congr {α : Type} {l : List α} {g h : α → Option β} (hsame : ∀ x ∈ l, g x = h x) :
    l.findSome? g = l.findSome? h := by
  induction l with
  | nil => rfl
  | cons x l ih =>
    obtain ⟨hx, hl⟩ := List.forall_mem_cons.mp hsame
    rw [findSome?_cons, findSome?_cons, hx, ih hl]

theorem findSome?_headers (names : List String) (read : Text → Option β) :
    (f.headers.map headerLine).findSome? (field names read) = f.headers.findSome? (said names read) := by
  rw [findSome?_map]
  refine findSome?_congr fun header hmem => ?_
  exact field_headerLine names read (word_headers header hmem)

theorem findSome?_front {names : List String} {read : Text → Option β}
    (h : known names "Via" = false ∧ known names "Max-Forwards" = false ∧ known names "Route" = false) :
    f.headers.findSome? (said names read) =
      [("From", tagged f.localUri f.record.localTag.toList),
        ("To", tagged f.remoteUri f.record.remoteTag.toList),
        ("Call-ID", f.record.callId.toList),
        ("CSeq", showNat f.record.localCseq.toNat ++ ' ' :: f.method),
        ("Content-Length", "0".toList)].findSome? (said names read) := by
  obtain ⟨hvia, hmax, hroute⟩ := h
  have hroutes : (f.routes.map fun route => ("Route", route)).findSome? (said names read) = none := by
    rw [findSome?_eq_none_iff]
    intro header hmem
    obtain ⟨route, -, rfl⟩ := mem_map.mp hmem
    rw [said, hroute]
    rfl
  rw [headers, findSome?_append, findSome?_append, hroutes, findSome?_cons, findSome?_cons,
    said, said, hvia, hmax]
  rfl

/-- The fields of the request that are texts have no line end. -/
structure CrlfFree (f : Request) : Prop where
  method : Clean f.method
  viaTransport : Clean f.viaTransport
  branch : Clean f.branch
  callId : Clean f.record.callId.toList
  localTag : Clean f.record.localTag.toList
  remoteTag : Clean f.record.remoteTag.toList
  remoteTarget : ∀ uri ∈ f.record.remoteTarget, Clean uri.toList
  routeSet : ∀ route ∈ f.record.routeSet, Clean route.toList
  localUri : ∀ uri ∈ f.record.localUri, Clean uri.toList
  remoteUri : ∀ uri ∈ f.record.remoteUri, Clean uri.toList

variable (h : f.CrlfFree)
include h

theorem CrlfFree.clean_remoteTarget : Clean (InDialogRequest.remoteTarget f.record) := by
  unfold InDialogRequest.remoteTarget
  cases htarget : f.record.remoteTarget with
  | none => simp
  | some uri => exact h.remoteTarget uri htarget

theorem CrlfFree.clean_routeSet : ∀ route ∈ InDialogRequest.routeSet f.record, Clean route := by
  intro route hmem
  obtain ⟨entry, hentry, rfl⟩ := mem_map.mp hmem
  exact h.routeSet entry hentry

theorem CrlfFree.clean_localUri : Clean f.localUri := by
  unfold Request.localUri
  cases huri : f.record.localUri with
  | none => simp
  | some uri => exact h.localUri uri huri

theorem CrlfFree.clean_remoteUri : Clean f.remoteUri := by
  unfold Request.remoteUri
  cases huri : f.record.remoteUri with
  | none => simp
  | some uri => exact h.remoteUri uri huri

omit h in
theorem clean_dialogRouteTarget {target : Text} {routes : List Text} (htarget : Clean target)
    (hroutes : ∀ route ∈ routes, Clean route) :
    Clean (dialogRouteTarget target routes).1 ∧ ∀ route ∈ (dialogRouteTarget target routes).2, Clean route := by
  cases routes with
  | nil => exact ⟨htarget, nofun⟩
  | cons first rest =>
    obtain ⟨hfirst, hrest⟩ := List.forall_mem_cons.mp hroutes
    by_cases hloose : loose first = true
    · rw [dialogRouteTarget, if_pos hloose]
      exact ⟨htarget, hroutes⟩
    · rw [dialogRouteTarget, if_neg hloose]
      refine ⟨?_, ?_⟩
      · dsimp only
        cases huri : firstContactUri first with
        | none => exact hfirst
        | some uri => exact hfirst.of_infix (infix_firstContactUri huri)
      · rintro route hmem
        obtain hmem | hmem := mem_append.mp hmem
        · exact hrest route hmem
        · obtain rfl := mem_singleton.mp hmem
          simpa [bracket] using htarget

theorem CrlfFree.clean_lines : ∀ line ∈ f.lines, Clean line := by
  obtain ⟨huri, hroutes⟩ := clean_dialogRouteTarget h.clean_remoteTarget h.clean_routeSet
  intro line hline
  obtain rfl | hline := mem_cons.mp hline
  · simp [requestLine, requestUri, h.method, huri]
  obtain ⟨header, hmem, rfl⟩ := mem_map.mp hline
  simp only [headers, mem_append, mem_cons, mem_map, not_mem_nil, or_false] at hmem
  obtain ((rfl | rfl) | ⟨route, hroute, rfl⟩) | rfl | rfl | rfl | rfl | rfl := hmem
  · simp [headerLine, h.viaTransport, h.branch]
  · decide
  · simp [headerLine, hroutes route hroute]
  · simp [headerLine, tagged, h.clean_localUri, h.localTag]
  · simp [headerLine, tagged, h.clean_remoteUri, h.remoteTag]
  · simp [headerLine, h.callId]
  · simp [headerLine, h.method]
  · decide

/-- **The request is read back line by line.** -/
theorem CrlfFree.messageLines_build : messageLines (buildInDialogRequest f) = f.lines := by
  have hblock : ∀ line ∈ f.lines, BlockLine line := by
    intro line hmem
    refine ⟨?_, pairFree_of_not_mem (h.clean_lines line hmem).1⟩
    obtain rfl | hmem := mem_cons.mp hmem
    · simp [requestLine]
    · obtain ⟨header, -, rfl⟩ := mem_map.mp hmem
      simp [headerLine]
  have hread := messageLines_block (cons_ne_nil _ _) hblock []
  rwa [append_nil] at hread

end Request

/-! ## tags -/

/-- The tag is a word that ends where it ends, and the URI in front of it has no other one. -/
structure TagSound (uri tag : Text) : Prop where
  word : TagWord tag
  uri : untagged uri = true ∨ extractTagParam uri = some tag

theorem tagWord_of_extractTagParam {value : Text} (h : extractTagParam value = some tag) : TagWord tag := by
  obtain ⟨i, -, htag⟩ := Option.bind_eq_some_iff.mp h
  rw [Option.ite_none_left_eq_some, Option.some.injEq] at htag
  obtain ⟨hne, rfl⟩ := htag
  refine ⟨by simpa using hne, fun c hc => ?_⟩
  simpa using mem_takeWhile_imp hc

theorem tagged_eq (uri tag : Text) : Request.tagged uri tag = bracket uri ++ (";tag=".toList ++ tag) := rfl

theorem trim_tagged (htag : TagWord tag) :
    trim (Request.tagged uri tag) = Request.tagged uri tag := by
  rw [tagged_eq, trim_appended _ htag]
  rfl

theorem untagged_bracket (h : untagged uri = true) : untagged (bracket uri) = true := by
  rw [untagged_iff] at h ⊢
  intro hin
  have hlower : toAsciiLowercase (bracket uri) = '<' :: (toAsciiLowercase uri ++ ['>']) := by
    simp [bracket, toAsciiLowercase]
    decide
  rw [hlower, infix_cons_iff, infix_concat_iff] at hin
  obtain hin | hin | hin := hin
  · exact absurd (List.cons_prefix_cons.mp hin).1 (by decide)
  · obtain ⟨before, hbefore⟩ := hin
    have hlast := congrArg getLast? hbefore
    rw [getLast?_append_of_ne_nil _ (by decide), getLast?_concat] at hlast
    exact absurd hlast (by decide)
  · exact h hin

theorem takeWhile_append_stop {p : α → Bool} {c : α} (hc : p c = false) (x rest : List α) :
    (x ++ c :: rest).takeWhile p = x.takeWhile p := by
  induction x with
  | nil => rw [nil_append, takeWhile_cons, hc]; rfl
  | cons d x ih => rw [cons_append, takeWhile_cons, takeWhile_cons, ih]

theorem extractTagParam_bracket (h : untagged uri = false) (rest : Text) :
    extractTagParam (bracket uri ++ rest) = extractTagParam uri := by
  obtain ⟨i, hi⟩ : ∃ i, findSub ";tag=".toList (toAsciiLowercase uri) = some i := by
    rw [untagged, Option.isNone_eq_false_iff] at h
    exact Option.isSome_iff_exists.mp h
  have hlower : toAsciiLowercase (bracket uri ++ rest) =
      '<' :: (toAsciiLowercase uri ++ '>' :: toAsciiLowercase rest) := by
    simp [bracket, toAsciiLowercase]
    decide
  have hfound : findSub ";tag=".toList (toAsciiLowercase (bracket uri ++ rest)) = some (i + 1) := by
    have hlead : (";tag=".toList.isPrefixOf ('<' :: (toAsciiLowercase uri ++ '>' :: toAsciiLowercase rest))) = false := rfl
    rw [hlower, findSub, hlead, if_neg Bool.false_ne_true, findSub_append hi]
    rfl
  have hlen : i + 5 ≤ uri.length := by
    have hle := (eq_append_of_findSub hi).2
    rwa [toAsciiLowercase, length_map] at hle
  have hdrop : (bracket uri ++ rest).drop (i + 1 + 5) = uri.drop (i + 5) ++ '>' :: rest := by
    have hshape : bracket uri ++ rest = '<' :: (uri ++ '>' :: rest) := by simp [bracket]
    rw [hshape, Nat.add_right_comm, drop_succ_cons, drop_append_of_le_length hlen]
  have htake := takeWhile_append_stop (p := fun c => !(c == ';' || c == ',' || c == '>' || isWhitespace c))
    (c := '>') (by decide) (uri.drop (i + 5)) rest
  have hpat : ";tag=".toList.length = 5 := rfl
  rw [extractTagParam, extractTagParam, paramAfter, paramAfter, hfound, hi, Option.bind_some, Option.bind_some,
    hpat, hdrop]
  simp only [htake]

/-- **The tag of an address is read back exactly when it is sound.** -/
theorem extractTagParam_tagged_iff :
    extractTagParam (trim (Request.tagged uri tag)) = some tag ↔ TagSound uri tag := by
  constructor
  · intro h
    have hword := tagWord_of_extractTagParam h
    rw [trim_tagged hword, tagged_eq] at h
    refine ⟨hword, ?_⟩
    cases huri : untagged uri with
    | true => exact .inl rfl
    | false => exact .inr (extractTagParam_bracket huri _ ▸ h)
  · rintro ⟨hword, huri⟩
    rw [trim_tagged hword, tagged_eq]
    cases hplain : untagged uri with
    | true => exact extractTagParam_appended (untagged_bracket hplain) hword
    | false =>
      rw [extractTagParam_bracket hplain]
      exact huri.resolve_left (by rw [hplain]; exact Bool.false_ne_true)

/-! ## the request line -/

theorem isWhitespace_asciiUpper (h : isWhitespace c = false) : isWhitespace (asciiUpper c) = false := by
  obtain ⟨hlow, hhigh, hval, -⟩ | ⟨-, hsame⟩ := asciiUpper_cases c
  · unfold isWhitespace
    simp
    omega
  · rwa [hsame]

theorem token_sip : Token "SIP/2.0".toList := ⟨by decide, by decide⟩

theorem splitWhitespace_requestLine (f : Request) : splitWhitespace f.requestLine =
    splitWhitespace f.method ++ (splitWhitespace f.requestUri ++ ["SIP/2.0".toList]) := by
  have hline : f.requestLine = f.method ++ ' ' :: (f.requestUri ++ ' ' :: "SIP/2.0".toList) := by
    rw [Request.requestLine, append_assoc]
    rfl
  rw [hline, splitWhitespace_append_space, splitWhitespace_append_space, splitWhitespace_token token_sip]

theorem method_iff {rest : List Text} (hne : rest ≠ []) (hrest : ∀ t ∈ rest, Token t) :
    toAsciiUppercase (((splitWhitespace method ++ rest).head?).getD []) = method ↔
      Token method ∧ toAsciiUppercase method = method := by
  constructor
  · intro h
    have htoken : Token method := by
      obtain ⟨word, words, hwords⟩ := exists_cons_of_ne_nil
        (append_ne_nil_of_right_ne_nil (splitWhitespace method) hne)
      have hword : Token word := by
        have hmem : word ∈ splitWhitespace method ++ rest := hwords ▸ mem_cons_self
        obtain hmem | hmem := mem_append.mp hmem
        · exact token_of_mem hmem
        · exact hrest word hmem
      have hupper : toAsciiUppercase word = method := by rwa [hwords] at h
      rw [← hupper]
      refine ⟨by simpa [toAsciiUppercase] using hword.ne, fun c hc => ?_⟩
      obtain ⟨d, hd, rfl⟩ := mem_map.mp hc
      exact isWhitespace_asciiUpper (hword.plain d hd)
    rw [splitWhitespace_token htoken] at h
    exact ⟨htoken, h⟩
  · rintro ⟨htoken, hupper⟩
    rw [splitWhitespace_token htoken]
    exact hupper

theorem head_words_iff :
    ((splitWhitespace uri ++ ["SIP/2.0".toList]).head?) = some uri ↔ Token uri := by
  constructor
  · intro h
    obtain hmem | hmem := mem_append.mp (mem_of_head? h)
    · exact token_of_mem hmem
    · obtain rfl := mem_singleton.mp hmem
      exact token_sip
  · intro htoken
    rw [splitWhitespace_token htoken]
    rfl

theorem cseqNumber_back (h : Token method) (n : UInt32) :
    cseqNumber (trim (showNat n.toNat ++ ' ' :: method)) = some n.toNat := by
  have hlast : ∀ c, method.getLast? = some c → isWhitespace c = false := fun c hc =>
    h.plain c (mem_of_getLast? hc)
  rw [cseqNumber, trim_token_append (token_showNat _) h.ne hlast, splitWhitespace_token_cons (token_showNat _)]
  exact parseUnsigned_showNat n.toNat_lt

/-! ## routing -/

/-- A first route that says `;lr` is a loose router, or the route set is nothing but the
remote target. -/
def Routed (target : Text) (routes : List Text) : Prop :=
  ∀ first ∈ routes.head?, loose first = true → looseRouter first = true ∨
    (∀ route ∈ routes, route = bracket target) ∧
      (splitWhitespace target).head? = some (rfcRouteTarget target routes).1

instance (target : Text) (routes : List Text) : Decidable (Routed target routes) :=
  inferInstanceAs (Decidable (∀ first ∈ routes.head?, _ → _))

theorem words_of_loose (h : loose (bracket target) = true) : splitWhitespace target ≠ [] := by
  rw [loose, Option.isSome_iff_ne_none, Ne, findSub_eq_none_iff (by decide), not_not] at h
  have hmem : 'l' ∈ toAsciiLowercase (bracket target) := h.subset (by decide)
  obtain ⟨c, hc, hlower⟩ := mem_map.mp hmem
  have htarget : c ∈ target := by
    simp only [bracket, mem_append, mem_cons, not_mem_nil, or_false] at hc
    obtain (rfl | hc) | rfl := hc
    · exact absurd hlower (by decide)
    · exact hc
    · exact absurd hlower (by decide)
  exact splitWhitespace_ne_nil htarget (isWhitespace_of_asciiLower (by rw [hlower]; decide))

theorem cons_eq_concat_iff {x y : α} {l : List α} : x :: l = l ++ [y] ↔ ∀ z ∈ x :: l, z = y := by
  induction l generalizing x with
  | nil => simp
  | cons a l ih =>
    rw [cons_append, List.cons.injEq, ih]
    constructor
    · rintro ⟨rfl, hl⟩ z hz
      obtain rfl | hz := mem_cons.mp hz
      · exact hl z mem_cons_self
      · exact hl z hz
    · intro h
      obtain ⟨hx, ha⟩ := List.forall_mem_cons.mp h
      exact ⟨hx.trans (ha a mem_cons_self).symm, ha⟩

theorem routed_of_agree {routes : List Text}
    (h : dialogRouteTarget target routes = rfcRouteTarget target routes) (hrouted : Routed target routes) :
    (splitWhitespace (dialogRouteTarget target routes).1 ++ ["SIP/2.0".toList]).head? =
          some (rfcRouteTarget target routes).1 ∧
        (dialogRouteTarget target routes).2 = (rfcRouteTarget target routes).2 ↔
      Token (rfcRouteTarget target routes).1 ∧ Routed target routes := by
  rw [h, head_words_iff]
  exact and_congr_right fun _ => iff_of_true rfl hrouted

/-- **Where the request goes is what the rule says exactly when it is a word and the first
route is taken for what it is.** -/
theorem routed_iff {routes : List Text} :
    (splitWhitespace (dialogRouteTarget target routes).1 ++ ["SIP/2.0".toList]).head? =
          some (rfcRouteTarget target routes).1 ∧
        (dialogRouteTarget target routes).2 = (rfcRouteTarget target routes).2 ↔
      Token (rfcRouteTarget target routes).1 ∧ Routed target routes := by
  cases routes with
  | nil => exact routed_of_agree rfl nofun
  | cons first rest =>
    cases hrouter : looseRouter first with
    | true =>
      refine routed_of_agree ?_ fun entry hentry _ => ?_
      · rw [dialogRouteTarget, rfcRouteTarget, if_pos (loose_of_looseRouter hrouter), if_pos hrouter]
      · exact .inl (Option.some.inj hentry ▸ hrouter)
    | false =>
      have hstrict : ¬ looseRouter first = true := by rw [hrouter]; exact Bool.false_ne_true
      cases hloose : loose first with
      | false =>
        have hnot : ¬ loose first = true := by rw [hloose]; exact Bool.false_ne_true
        refine routed_of_agree ?_ fun entry hentry hentryLoose => ?_
        · rw [dialogRouteTarget, rfcRouteTarget, if_neg hnot, if_neg hstrict]
        · exact absurd (Option.some.inj hentry ▸ hentryLoose) hnot
      | true =>
        -- taken for loose by mistake: the outcomes meet only where all routes are the target
        have hcode : dialogRouteTarget target (first :: rest) = (target, first :: rest) := by
          rw [dialogRouteTarget, if_pos hloose]
        have hrule : (rfcRouteTarget target (first :: rest)).2 = rest ++ [bracket target] := by
          rw [rfcRouteTarget, if_neg hstrict]
        rw [hcode, hrule, cons_eq_concat_iff]
        constructor
        · rintro ⟨hhead, hall⟩
          obtain rfl : first = bracket target := hall first mem_cons_self
          rw [head?_append_of_ne_nil _ (words_of_loose hloose)] at hhead
          exact ⟨token_of_mem (mem_of_head? hhead), fun _ _ _ => .inr ⟨hall, hhead⟩⟩
        · rintro ⟨-, hrouted⟩
          obtain hlr | ⟨hall, hhead⟩ := hrouted first rfl hloose
          · contradiction
          · obtain rfl : first = bracket target := hall first mem_cons_self
            rw [head?_append_of_ne_nil _ (words_of_loose hloose)]
            exact ⟨hhead, hall⟩

/-! ## the request read back -/

namespace Request

/-- The values of the `Route` headers. -/
def routeHeaders (raw : Bytes) : List Text := (messageLines raw).tail.filterMap (stripLead "Route: ".toList)

def rfcTarget (f : Request) : Text × List Text :=
  rfcRouteTarget (InDialogRequest.remoteTarget f.record) (InDialogRequest.routeSet f.record)

/-- What is read back is the dialog's, the method and number are those given, and the request
goes where the rule sends it. -/
structure ReadBack (f : Request) : Prop where
  callId : (summarizeRequest (buildInDialogRequest f)).callId = some f.record.callId.toList
  fromTag : (summarizeRequest (buildInDialogRequest f)).fromTag = some f.record.localTag.toList
  toTag : (summarizeRequest (buildInDialogRequest f)).toTag = some f.record.remoteTag.toList
  method : (summarizeRequest (buildInDialogRequest f)).method = f.method
  cseq : (summarizeRequest (buildInDialogRequest f)).cseq = some f.record.localCseq.toNat
  requestUri : (summarizeRequest (buildInDialogRequest f)).requestUri = some f.rfcTarget.1
  routes : routeHeaders (buildInDialogRequest f) = f.rfcTarget.2

/-- The method is a word in upper case, the Request-URI is a word, the Call-ID is not empty and
has no white space around it, the tags are sound, and the first route is taken for what it
is. -/
structure Sound (f : Request) : Prop where
  method : Token f.method ∧ toAsciiUppercase f.method = f.method
  requestUri : Token f.rfcTarget.1
  callId : f.record.callId.toList ≠ [] ∧ trim f.record.callId.toList = f.record.callId.toList
  fromTag : TagSound f.localUri f.record.localTag.toList
  toTag : TagSound f.remoteUri f.record.remoteTag.toList
  routed : Routed (InDialogRequest.remoteTarget f.record) (InDialogRequest.routeSet f.record)

variable {f : Request} (h : f.CrlfFree)
include h

theorem CrlfFree.routeHeaders_build : routeHeaders (buildInDialogRequest f) = f.routes := by
  have hname : "Route".toList ++ ": ".toList = "Route: ".toList := by decide
  have hroute : ∀ route : Text, stripLead "Route: ".toList (headerLine ("Route", route)) = some route := by
    intro route
    rw [headerLine, ← append_assoc, hname]
    exact stripLead_append _ route
  have hroutes : ((f.routes.map fun route => ("Route", route)).map headerLine).filterMap
      (stripLead "Route: ".toList) = f.routes := by
    rw [map_map, filterMap_map]
    exact (filterMap_congr fun route _ => hroute route).trans filterMap_some
  have hother : ∀ {name : String} (value : Text), clash "Route: ".toList name.toList = true →
      stripLead "Route: ".toList (headerLine (name, value)) = none := fun value hclash =>
    stripLead_of_clash hclash _
  rw [routeHeaders, h.messageLines_build, lines, tail_cons, headers, map_append, map_append,
    filterMap_append, filterMap_append, hroutes]
  simp (disch := decide) only [map_cons, map_nil, filterMap_cons, filterMap_nil, hother,
    nil_append, append_nil]

variable {names : List String} {name : String} {β : Type} {read : Text → Option β}

omit h in
theorem said_known
    (hname : known names name = true) (value : Text) : said names read (name, value) = read (trim value) := by
  rw [said, hname]
  rfl

omit h in
theorem said_unknown
    (hname : known names name = false) (value : Text) : said names read (name, value) = none := by
  rw [said, hname]
  rfl

omit h in
theorem first_said {β : Type} (x : Option β) : (match x with | some b => some b | none => none) = x := by
  cases x <;> rfl

theorem CrlfFree.summary_build :
    (summarizeRequest (buildInDialogRequest f)).callId = nonEmpty (trim f.record.callId.toList) ∧
      (summarizeRequest (buildInDialogRequest f)).fromTag =
        extractTagParam (trim (tagged f.localUri f.record.localTag.toList)) ∧
      (summarizeRequest (buildInDialogRequest f)).toTag =
        extractTagParam (trim (tagged f.remoteUri f.record.remoteTag.toList)) ∧
      (summarizeRequest (buildInDialogRequest f)).cseq =
        cseqNumber (trim (showNat f.record.localCseq.toNat ++ ' ' :: f.method)) := by
  obtain ⟨-, hcall, hfrom, hto, hcseq⟩ := summarizeRequest_fields (buildInDialogRequest f)
  rw [hcall, hfrom, hto, hcseq, h.messageLines_build, lines, tail_cons, callIdOf, fromTagOf, toTagOf, cseqOf,
    findSome?_headers, findSome?_headers, findSome?_headers, findSome?_headers, findSome?_front (by decide),
    findSome?_front (by decide), findSome?_front (by decide), findSome?_front (by decide)]
  simp (disch := decide) only [findSome?_cons, findSome?_nil, said_known, said_unknown]
  exact ⟨first_said _, first_said _, first_said _, first_said _⟩

theorem CrlfFree.summary_requestLine :
    (summarizeRequest (buildInDialogRequest f)).method = toAsciiUppercase
        (((splitWhitespace f.method ++ (splitWhitespace f.requestUri ++ ["SIP/2.0".toList])).head?).getD []) ∧
      (summarizeRequest (buildInDialogRequest f)).requestUri =
        (splitWhitespace f.method ++ (splitWhitespace f.requestUri ++ ["SIP/2.0".toList]))[1]? := by
  have hhead : (f.lines.head?).getD [] = f.requestLine := rfl
  unfold summarizeRequest
  dsimp only
  rw [h.messageLines_build, hhead, splitWhitespace_requestLine]
  exact ⟨rfl, rfl⟩

end Request

/-- **The request read back.**  It is the dialog's, with the method and the number given and
sent where the rule sends it, exactly when its fields are sound. -/
theorem in_dialog_request_iff {f : Request} (h : f.CrlfFree) : f.ReadBack ↔ f.Sound := by
  obtain ⟨hcallId, hfrom, hto, hcseq⟩ := h.summary_build
  obtain ⟨hmethod, huri⟩ := h.summary_requestLine
  have hwords : ∀ t ∈ splitWhitespace f.requestUri ++ ["SIP/2.0".toList], Token t := by
    intro t ht
    obtain ht | ht := mem_append.mp ht
    · exact token_of_mem ht
    · exact mem_singleton.mp ht ▸ token_sip
  have hne : splitWhitespace f.requestUri ++ ["SIP/2.0".toList] ≠ [] :=
    append_ne_nil_of_right_ne_nil _ (cons_ne_nil _ _)
  have hmethodIff : _ = f.method ↔ _ := method_iff hne hwords
  have hcallIff : nonEmpty (trim f.record.callId.toList) = some f.record.callId.toList ↔
      f.record.callId.toList ≠ [] ∧ trim f.record.callId.toList = f.record.callId.toList := by
    rw [nonEmpty, Option.ite_none_left_eq_some, Option.some.injEq, and_congr_left_iff]
    intro htrim
    rw [htrim, List.isEmpty_iff]
  have hline : Token f.method →
      (summarizeRequest (buildInDialogRequest f)).requestUri =
        (splitWhitespace f.requestUri ++ ["SIP/2.0".toList]).head? := by
    intro htoken
    rw [huri, splitWhitespace_token htoken, head?_eq_getElem?]
    rfl
  constructor
  · intro hread
    have hsound := hmethodIff.mp (hmethod ▸ hread.method)
    have hgoes := routed_iff.mp
      ⟨(hline hsound.1).symm.trans hread.requestUri, h.routeHeaders_build.symm.trans hread.routes⟩
    exact ⟨hsound, hgoes.1, hcallIff.mp (hcallId.symm.trans hread.callId),
      extractTagParam_tagged_iff.mp (hfrom.symm.trans hread.fromTag),
      extractTagParam_tagged_iff.mp (hto.symm.trans hread.toTag), hgoes.2⟩
  · intro hsound
    have hgoes := routed_iff.mpr ⟨hsound.requestUri, hsound.routed⟩
    exact ⟨hcallId.trans (hcallIff.mpr hsound.callId), hfrom.trans (extractTagParam_tagged_iff.mpr hsound.fromTag),
      hto.trans (extractTagParam_tagged_iff.mpr hsound.toTag), hmethod.trans (hmethodIff.mpr hsound.method),
      hcseq.trans (cseqNumber_back hsound.method.1 _), (hline hsound.method.1).trans hgoes.1,
      h.routeHeaders_build.trans hgoes.2⟩

/-- A `BYE` in a dialog with the given route set. -/
def sampleBye (routes : List String) : Request where
  method := "BYE".toList
  record :=
    { sampleRecord "c@x" 9 with
      remoteTarget := some "sip:bob@pc", routeSet := routes, localUri := some "sip:alice@smiths.local"
      remoteUri := some "sip:bob@smiths.local", localCseq := 3 }
  viaSentBy := .v4 0x0a000009#32 5060
  viaTransport := "TCP".toList
  branch := "z9hG4bK-b1".toList

theorem crlfFree_sampleBye {routes : List String} (h : ∀ route ∈ routes, Clean route.toList) :
    (sampleBye routes).CrlfFree where
  method := (by decide : Clean "BYE".toList)
  viaTransport := (by decide : Clean "TCP".toList)
  branch := (by decide : Clean "z9hG4bK-b1".toList)
  callId := (by decide : Clean "c@x".toList)
  localTag := (by decide : Clean "lt".toList)
  remoteTag := (by decide : Clean "rt".toList)
  remoteTarget uri huri := Option.some.inj huri ▸ (by decide : Clean "sip:bob@pc".toList)
  routeSet := h
  localUri uri huri := Option.some.inj huri ▸ (by decide : Clean "sip:alice@smiths.local".toList)
  remoteUri uri huri := Option.some.inj huri ▸ (by decide : Clean "sip:bob@smiths.local".toList)

theorem in_dialog_request_strict : (sampleBye ["<sip:strict.example>", "<sip:p2;lr>"]).ReadBack :=
  (in_dialog_request_iff (crlfFree_sampleBye (by decide))).mpr
    { method := ⟨⟨by decide, by decide⟩, by decide⟩
      requestUri := ⟨by decide, by decide⟩
      callId := by decide
      fromTag := ⟨⟨by decide, by decide⟩, by decide⟩
      toTag := ⟨⟨by decide, by decide⟩, by decide⟩
      routed := by decide }

/-- A strict router with a parameter whose name begins with `lr` is passed over. -/
theorem strict_router_taken_for_loose : ¬ ∀ f : Request, f.CrlfFree → f.ReadBack := by
  intro h
  have hclean : (sampleBye ["<sip:edge.example;lrx>"]).CrlfFree := crlfFree_sampleBye (by decide)
  have hroutes := (h _ hclean).routes
  rw [hclean.routeHeaders_build] at hroutes
  exact absurd hroutes (by decide)

end SmithsNet.Uas.InDialogRequest
