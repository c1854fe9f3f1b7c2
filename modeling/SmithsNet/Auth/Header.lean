import SmithsNet.Auth.Digest
import SmithsNet.Lib.Blocks
import SmithsNet.Lib.Lines

/-!
# SmithsNet.Auth.Header

The `Authorization` header as clients write it, and what the reader makes of it.

A parameter may be quoted or not, and white space may stand around its name, its value and
the commas; inside quotes commas and equals signs are part of the value.  Whatever the order,
every parameter is read with its own value (`parseAuthorization_render`), unless one that
every response needs is missing or empty.
-/

namespace SmithsNet.Auth

open Lib List

/-! ## what is written -/

/-- A parameter with the white space around its parts. -/
structure HeaderParam where
  before : Text
  name : Text
  afterName : Text
  beforeValue : Text
  value : Text
  quoted : Bool
  after : Text

namespace HeaderParam

/-- The value as it is written. -/
def written (p : HeaderParam) : Text := if p.quoted then '"' :: (p.value ++ ['"']) else p.value

/-- Without the white space around it. -/
def core (p : HeaderParam) : Text := p.name ++ (p.afterName ++ '=' :: (p.beforeValue ++ p.written))

def text (p : HeaderParam) : Text := p.before ++ (p.core ++ p.after)

/-- The name as the reader compares it. -/
def key (p : HeaderParam) : Text := toAsciiLowercase p.name

/-- A name is a word without separators, a value holds no quote, and one that is not quoted is
a word without commas. -/
structure Legal (p : HeaderParam) : Prop where
  before : White p.before
  afterName : White p.afterName
  beforeValue : White p.beforeValue
  after : White p.after
  name : Token p.name
  plainName : '"' ∉ p.name ∧ ',' ∉ p.name ∧ '=' ∉ p.name
  quoteFree : '"' ∉ p.value
  word : p.quoted = false → Token p.value ∧ ',' ∉ p.value

end HeaderParam

/-- The scheme, in one of the two spellings the reader knows, and the parameters between commas. -/
def render (scheme : Text) (params : List HeaderParam) : Text :=
  scheme ++ ' ' :: [','].intercalate (params.map HeaderParam.text)

/-! ## trimming -/

namespace HeaderParam.Legal

variable {p : HeaderParam}

section

variable (h : p.Legal)
include h

theorem edged_written : Edged p.written := by
  unfold HeaderParam.written
  split
  · refine ⟨cons_ne_nil _ _, ?_, ?_⟩
    · intro c hc
      obtain rfl : '"' = c := Option.some.inj hc
      decide
    · intro c hc
      rw [← cons_append, getLast?_concat] at hc
      obtain rfl : '"' = c := Option.some.inj hc
      decide
  · next hquoted => exact edged_of_token (h.word (by simpa using hquoted)).1

theorem edged_core : Edged p.core := by
  have hmid : p.core = p.name ++ ((p.afterName ++ '=' :: p.beforeValue) ++ p.written) := by
    simp [HeaderParam.core]
  rw [hmid]
  exact (edged_of_token h.name).append h.edged_written _

theorem trim_text : SmithsNet.Lib.trim p.text = p.core := h.edged_core.trim h.before h.after

theorem unquote_written : unquote p.written = p.value := by
  unfold HeaderParam.written unquote
  cases hquoted : p.quoted with
  | true =>
    have hlast : ('"' :: (p.value ++ ['"'])).getLast? = some '"' := by
      rw [← cons_append, getLast?_concat]
    simp [hlast]
  | false =>
    have hnot : ¬ (p.value.head? = some '"') := fun hhead => h.quoteFree (mem_of_head? hhead)
    simp [hnot]

theorem read_core (params : AuthParams) : params.read p.core = some (params.set p.key p.value) := by
  obtain ⟨-, -, hname⟩ := h.plainName
  have hequals : '=' ∉ p.name ++ p.afterName := by
    rw [mem_append, not_or]
    exact ⟨hname, h.afterName.not_mem (by decide)⟩
  have hcut : splitOnce ['='] p.core = some (p.name ++ p.afterName, p.beforeValue ++ p.written) := by
    rw [HeaderParam.core, ← append_assoc]
    exact splitOnce_char hequals _
  have htrim : SmithsNet.Lib.trim (p.name ++ p.afterName) = p.name :=
    (edged_of_token h.name).trim white_nil h.afterName
  have htrim' : SmithsNet.Lib.trim (p.beforeValue ++ p.written) = p.written := by
    have hback := h.edged_written.trim h.beforeValue white_nil
    rwa [append_nil] at hback
  simp only [AuthParams.read, hcut, Option.map_some, htrim, htrim', h.unquote_written, HeaderParam.key]

end

end HeaderParam.Legal

/-! ## splitting -/

/-- What holds no quote, and no comma outside of quotes, is collected. -/
theorem splitParamsGo_plain {x : Text} {inQuote : Bool} (hquote : '"' ∉ x) (hcomma : inQuote = false → ',' ∉ x)
    (cur rest : Text) : splitParamsGo inQuote cur (x ++ rest) = splitParamsGo inQuote (x.reverse ++ cur) rest := by
  induction x generalizing cur with
  | nil => rfl
  | cons c x ih =>
    have hc : ¬ c = '"' := fun heq => hquote (heq ▸ mem_cons_self)
    have hc' : ¬ (c = ',' ∧ inQuote = false) := fun hboth => hcomma hboth.2 (hboth.1 ▸ mem_cons_self)
    rw [cons_append, splitParamsGo, if_neg hc, if_neg hc',
      ih (fun hin => hquote (mem_cons_of_mem _ hin)) (fun hout hin => hcomma hout (mem_cons_of_mem _ hin)),
      reverse_cons, append_assoc]
    rfl

namespace HeaderParam.Legal

variable {p : HeaderParam}

theorem splitParamsGo_written (h : p.Legal) (cur rest : Text) :
    splitParamsGo false cur (p.written ++ rest) = splitParamsGo false (p.written.reverse ++ cur) rest := by
  unfold HeaderParam.written
  cases hquoted : p.quoted with
  | true =>
    simp only [if_true, cons_append, append_assoc, nil_append]
    rw [splitParamsGo, if_pos rfl, Bool.not_false, splitParamsGo_plain h.quoteFree (by simp), splitParamsGo, if_pos rfl]
    simp
  | false => exact splitParamsGo_plain h.quoteFree (fun _ => (h.word hquoted).2) cur rest

theorem splitParamsGo_text (h : p.Legal) (rest : Text) :
    splitParamsGo false [] (p.text ++ rest) = splitParamsGo false p.text.reverse rest := by
  obtain ⟨hquote, hcomma, -⟩ := h.plainName
  have hwhite : ∀ {s : Text}, White s →
    ∀ cur rest, splitParamsGo false cur (s ++ rest) = splitParamsGo false (s.reverse ++ cur) rest :=
    fun hs cur rest => splitParamsGo_plain (hs.not_mem (by decide)) (fun _ => hs.not_mem (by decide)) cur rest
  have hequals : ∀ cur rest, splitParamsGo false cur ('=' :: rest) = splitParamsGo false ('=' :: cur) rest :=
    fun cur rest => splitParamsGo_plain (x := ['=']) (by decide) (fun _ => by decide) cur rest
  simp only [HeaderParam.text, HeaderParam.core, append_assoc, cons_append]
  rw [hwhite h.before, splitParamsGo_plain hquote (fun _ => hcomma), hwhite h.afterName, hequals, hwhite h.beforeValue,
    h.splitParamsGo_written, hwhite h.after]
  simp

end HeaderParam.Legal

variable {p : HeaderParam} {params : List HeaderParam}

theorem splitParams_cons (h : p.Legal) (rest : Text) :
    splitParams (p.text ++ ',' :: rest) = p.core :: splitParams rest := by
  rw [splitParams, h.splitParamsGo_text, splitParamsGo, if_neg (by decide), if_pos ⟨rfl, rfl⟩, reverse_reverse,
    h.trim_text]
  rfl

theorem splitParams_last (h : p.Legal) : splitParams p.text = [p.core] := by
  have hwhole := h.splitParamsGo_text []
  rw [append_nil] at hwhole
  rw [splitParams, hwhole, splitParamsGo, reverse_reverse, h.trim_text, if_neg (by simpa using h.edged_core.ne)]

/-- The reader finds the parameters between the commas, with the white space at the end cut off. -/
theorem splitParams_trimmed (hne : params ≠ []) (h : ∀ p ∈ params, p.Legal) :
    ∃ body after, [','].intercalate (params.map HeaderParam.text) = body ++ after ∧ White after ∧ body ≠ [] ∧
      (∀ c, body.getLast? = some c → isWhitespace c = false) ∧ splitParams body = params.map HeaderParam.core := by
  induction params with
  | nil => contradiction
  | cons p params ih =>
    have hp := h p mem_cons_self
    cases params with
    | nil =>
      have hcut : ({ p with after := [] } : HeaderParam).Legal := { hp with after := white_nil }
      have htext : ({ p with after := [] } : HeaderParam).text = p.before ++ p.core := by
        show p.before ++ (p.core ++ []) = _
        rw [append_nil]
      have hsplit := splitParams_last hcut
      rw [htext] at hsplit
      have hcore := hp.edged_core
      refine ⟨p.before ++ p.core, p.after, ?_, hp.after, append_ne_nil_of_right_ne_nil _ hcore.ne, ?_, hsplit⟩
      · rw [map_singleton, intercalate_singleton, HeaderParam.text, append_assoc]
      · intro c hc
        rw [getLast?_append_of_ne_nil _ hcore.ne] at hc
        exact hcore.last c hc
    | cons q params =>
      obtain ⟨body, after, htext, hafter, hbody, hlast, hsplit⟩ :=
        ih (cons_ne_nil _ _) fun r hr => h r (mem_cons_of_mem _ hr)
      refine ⟨p.text ++ ',' :: body, after, ?_, hafter, append_ne_nil_of_right_ne_nil _ (cons_ne_nil _ _),
        ?_, ?_⟩
      · rw [map_cons] at htext ⊢
        rw [map_cons, intercalate_cons_cons, htext]
        simp
      · intro c hc
        rw [getLast?_append_of_ne_nil _ (cons_ne_nil _ _), ← singleton_append,
          getLast?_append_of_ne_nil _ hbody] at hc
        exact hlast c hc
      · rw [splitParams_cons hp, hsplit]
        rfl

/-! ## what is recovered -/

/-- The value a set of parameters has under a name. -/
def valueOf (params : List HeaderParam) (key : String) : Option Text :=
  (params.find? fun p => p.key == key.toList).map HeaderParam.value

/-- Every recognised parameter with its value. -/
def recovered (params : List HeaderParam) : AuthParams where
  username := (valueOf params "username").getD []
  realm := (valueOf params "realm").getD []
  nonce := (valueOf params "nonce").getD []
  uri := (valueOf params "uri").getD []
  response := (valueOf params "response").getD []
  algorithm := valueOf params "algorithm"
  qop := valueOf params "qop"
  nc := valueOf params "nc"
  cnonce := valueOf params "cnonce"

/-- Nothing every response needs is missing or empty. -/
def Complete (params : List HeaderParam) : Prop :=
  ∀ key ∈ ["username", "realm", "nonce", "uri", "response"], ∃ value, valueOf params key = some value ∧ value ≠ []

/-- The parameters stored one after the other. -/
def stored (start : AuthParams) (params : List HeaderParam) : AuthParams :=
  params.foldl (fun acc p => AuthParams.set acc p.key p.value) start

/-- What one parameter after the other leaves in a field that follows one name. -/
theorem stored_field {β : Type} (get : AuthParams → β) (conv : Text → β) (key : String)
    (hset : ∀ (params : AuthParams) (k val : Text), get (params.set k val) = if k = key.toList then conv val else get params)
    (hnodup : (params.map HeaderParam.key).Nodup) (start : AuthParams) : get (stored start params) =
      ((valueOf params key).map conv).getD (get start) := by
  induction params generalizing start with
  | nil => rfl
  | cons p params ih =>
    obtain ⟨hfresh, hnodup⟩ := List.nodup_cons.mp hnodup
    show get (stored (start.set p.key p.value) params) = _
    rw [ih hnodup, hset]
    by_cases hkey : p.key = key.toList
    · -- the name does not come again
      have hnone : valueOf params key = none := by
        rw [valueOf, Option.map_eq_none_iff, find?_eq_none]
        intro q hq heq
        exact hfresh (List.mem_map.mpr ⟨q, hq, (eq_of_beq heq).trans hkey.symm⟩)
      have hfirst : valueOf (p :: params) key = some p.value := by simp [valueOf, hkey]
      rw [hnone, hfirst, if_pos hkey]
      rfl
    · have hrest : valueOf (p :: params) key = valueOf params key := by
        simp [valueOf, hkey]
      rw [hrest, if_neg hkey]

theorem set_eq (params : AuthParams) (key val : Text) : params.set key val =
      { username := if key = "username".toList then val else params.username
        realm := if key = "realm".toList then val else params.realm
        nonce := if key = "nonce".toList then val else params.nonce
        uri := if key = "uri".toList then val else params.uri
        response := if key = "response".toList then val else params.response
        algorithm := if key = "algorithm".toList then some val else params.algorithm
        qop := if key = "qop".toList then some val else params.qop
        nc := if key = "nc".toList then some val else params.nc
        cnonce := if key = "cnonce".toList then some val else params.cnonce } := by
  unfold AuthParams.set
  by_cases husername : key = "username".toList
  · subst husername
    rfl
  by_cases hrealm : key = "realm".toList
  · subst hrealm
    rfl
  by_cases hnonce : key = "nonce".toList
  · subst hnonce
    rfl
  by_cases huri : key = "uri".toList
  · subst huri
    rfl
  by_cases hresponse : key = "response".toList
  · subst hresponse
    rfl
  by_cases halgorithm : key = "algorithm".toList
  · subst halgorithm
    rfl
  by_cases hqop : key = "qop".toList
  · subst hqop
    rfl
  by_cases hnc : key = "nc".toList
  · subst hnc
    rfl
  by_cases hcnonce : key = "cnonce".toList
  · subst hcnonce
    rfl
  simp only [if_neg husername, if_neg hrealm, if_neg hnonce, if_neg huri, if_neg hresponse, if_neg halgorithm, if_neg hqop,
    if_neg hnc, if_neg hcnonce]

theorem stored_eq (hnodup : (params.map HeaderParam.key).Nodup) :
    stored {} params = recovered params := by
  have husername := stored_field AuthParams.username id "username" (fun _ _ _ => by rw [set_eq]; rfl) hnodup {}
  have hrealm := stored_field AuthParams.realm id "realm" (fun _ _ _ => by rw [set_eq]; rfl) hnodup {}
  have hnonce := stored_field AuthParams.nonce id "nonce" (fun _ _ _ => by rw [set_eq]; rfl) hnodup {}
  have huri := stored_field AuthParams.uri id "uri" (fun _ _ _ => by rw [set_eq]; rfl) hnodup {}
  have hresponse := stored_field AuthParams.response id "response" (fun _ _ _ => by rw [set_eq]; rfl) hnodup {}
  have halgorithm := stored_field AuthParams.algorithm some "algorithm" (fun _ _ _ => by rw [set_eq]) hnodup {}
  have hqop := stored_field AuthParams.qop some "qop" (fun _ _ _ => by rw [set_eq]) hnodup {}
  have hnc := stored_field AuthParams.nc some "nc" (fun _ _ _ => by rw [set_eq]) hnodup {}
  have hcnonce := stored_field AuthParams.cnonce some "cnonce" (fun _ _ _ => by rw [set_eq]) hnodup {}
  have hsome : ∀ value : Option Text, (value.map some).getD none = value := by
    intro value
    cases value <;> rfl
  generalize stored {} params = result at *
  obtain ⟨⟩ := result
  simp only [Option.map_id, id_eq, hsome] at *
  subst husername hrealm hnonce huri hresponse halgorithm hqop hnc hcnonce
  rfl

theorem foldlM_read (h : ∀ p ∈ params, p.Legal) (start : AuthParams) :
    (params.map HeaderParam.core).foldlM AuthParams.read start = some (stored start params) := by
  induction params generalizing start with
  | nil => rfl
  | cons p params ih =>
    rw [map_cons, foldlM_cons, (h p mem_cons_self).read_core, stored, foldl_cons]
    exact ih (fun q hq => h q (mem_cons_of_mem _ hq)) _

/-! ## the whole header -/

theorem valueOf_nonempty_iff (params : List HeaderParam) (key : String) :
    ((valueOf params key).getD []).isEmpty = false ↔ ∃ value, valueOf params key = some value ∧ value ≠ [] := by
  cases valueOf params key with
  | none => simp
  | some value => simp

theorem complete_iff (params : List HeaderParam) :
    ((recovered params).username.isEmpty || (recovered params).realm.isEmpty || (recovered params).nonce.isEmpty ||
      (recovered params).uri.isEmpty || (recovered params).response.isEmpty) = false ↔ Complete params := by
  simp only [Bool.or_eq_false_iff, Complete, forall_mem_cons, not_mem_nil, false_implies, implies_true, and_true,
    and_assoc, ← valueOf_nonempty_iff]
  rfl

theorem parseAuthorization_body (h : ∀ p ∈ params, p.Legal)
    (hnodup : (params.map HeaderParam.key).Nodup) {scheme before after body : Text}
    (hscheme : scheme = "Digest".toList ∨ scheme = "digest".toList) (hbefore : White before) (hafter : White after)
    (hne : body ≠ []) (hlast : ∀ c, body.getLast? = some c → isWhitespace c = false)
    (hsplit : splitParams body = params.map HeaderParam.core) :
    parseAuthorization (before ++ ((scheme ++ ' ' :: body) ++ after)) =
      if (recovered params).username.isEmpty || (recovered params).realm.isEmpty || (recovered params).nonce.isEmpty ||
        (recovered params).uri.isEmpty || (recovered params).response.isEmpty then none else some (recovered params) := by
  have hedged : Edged (scheme ++ ' ' :: body) := by
    refine ⟨append_ne_nil_of_right_ne_nil _ (cons_ne_nil _ _), ?_, ?_⟩
    · intro c hc
      obtain rfl | rfl := hscheme
      · obtain rfl : 'D' = c := Option.some.inj hc
        decide
      · obtain rfl : 'd' = c := Option.some.inj hc
        decide
    · intro c hc
      rw [getLast?_append_of_ne_nil _ (cons_ne_nil _ _), ← singleton_append,
        getLast?_append_of_ne_nil _ hne] at hc
      exact hlast c hc
  have hstrip : ((stripLead "Digest ".toList (scheme ++ ' ' :: body)).orElse fun _ =>
      stripLead "digest ".toList (scheme ++ ' ' :: body)) = some body := by
    obtain rfl | rfl := hscheme
    · rfl
    · rfl
  have hread : (splitParams body).foldlM AuthParams.read {} = some (recovered params) := by
    rw [hsplit, foldlM_read h, stored_eq hnodup]
  simp only [parseAuthorization, hedged.trim hbefore hafter, hstrip, hread, Option.bind_eq_bind, Option.bind_some]

/-- **Every recognised parameter is read with its own value**, in whatever order and with
whatever white space it was written, provided that none of the five every response needs is
missing or empty; else nothing is read. -/
theorem parseAuthorization_render {params : List HeaderParam} (h : ∀ p ∈ params, p.Legal)
    (hnodup : (params.map HeaderParam.key).Nodup) {scheme before after : Text}
    (hscheme : scheme = "Digest".toList ∨ scheme = "digest".toList) (hbefore : White before) (hafter : White after) :
    (Complete params → parseAuthorization (before ++ (render scheme params ++ after)) = some (recovered params)) ∧
      (¬ Complete params → parseAuthorization (before ++ (render scheme params ++ after)) = none) := by
  cases hparams : params with
  | nil =>
    have hincomplete : ¬ Complete [] := by
      intro hcomplete
      obtain ⟨value, hvalue, -⟩ := hcomplete "username" (by simp)
      cases hvalue
    refine ⟨fun hcomplete => absurd hcomplete hincomplete, fun _ => ?_⟩
    have hedged : Edged scheme := by
      obtain rfl | rfl := hscheme
      · exact edged_of_token ⟨by decide, by decide⟩
      · exact edged_of_token ⟨by decide, by decide⟩
    have hempty : before ++ (render scheme [] ++ after) = before ++ (scheme ++ (' ' :: after)) := by
      simp [render]
    have hspace : White (' ' :: after) := by
      intro c hc
      obtain rfl | hc := List.mem_cons.mp hc
      · decide
      · exact hafter c hc
    rw [hempty, parseAuthorization, hedged.trim hbefore hspace]
    obtain rfl | rfl := hscheme
    · rfl
    · rfl
  | cons p rest =>
    rw [← hparams]
    have hsome : params ≠ [] := by
      rw [hparams]
      exact cons_ne_nil _ _
    obtain ⟨body, white, htext, hwhite, hne, hlast, hsplit⟩ := splitParams_trimmed hsome h
    have hafter' : White (white ++ after) := by
      intro c hc
      exact (List.mem_append.mp hc).elim (hwhite c) (hafter c)
    have hrender : render scheme params ++ after = (scheme ++ ' ' :: body) ++ (white ++ after) := by
      rw [render, htext]
      simp
    rw [hrender, parseAuthorization_body h hnodup hscheme hbefore hafter' hne hlast hsplit]
    constructor
    · intro hcomplete
      rw [(complete_iff params).mpr hcomplete]
      rfl
    · intro hincomplete
      rw [← complete_iff, Bool.not_eq_false] at hincomplete
      rw [hincomplete]
      rfl

/-- A parameter of a request by alice. -/
def spacedParam (name value : String) (quoted : Bool) (after : String) : HeaderParam where
  before := " ".toList
  name := name.toList
  afterName := []
  beforeValue := after.toList
  value := value.toList
  quoted := quoted
  after := after.toList

/-- A comma and an equals sign in a quoted realm, a nonce without quotes, blanks and tabs. -/
def spacedParams : List HeaderParam :=
  [spacedParam "uri" "sip:bob@example.com;transport=udp" true " ", spacedParam "Realm" "a, nonce=b" true "\t",
    spacedParam "nonce" "n1=" false "", spacedParam "response" "0f" false "  ", spacedParam "opaque" "" true "",
    spacedParam "username" "alice" true "", spacedParam "qop" "auth" false " "]

theorem legal_spacedParam {name value after : String} {quoted : Bool} (hafter : ∀ c ∈ after.toList, isWhitespace c = true)
    (hne : name.toList ≠ [])
    (hname : ∀ c ∈ name.toList, isWhitespace c = false ∧ c ≠ '"' ∧ c ≠ ',' ∧ c ≠ '=')
    (hquote : '"' ∉ value.toList)
    (hword : quoted = false → value.toList ≠ [] ∧ ∀ c ∈ value.toList, isWhitespace c = false ∧ c ≠ ',') :
    (spacedParam name value quoted after).Legal where
  before := by
    show White " ".toList
    intro c hc
    obtain rfl : c = ' ' := mem_singleton.mp hc
    decide
  afterName := white_nil
  beforeValue := hafter
  after := hafter
  name := ⟨hne, fun c hc => (hname c hc).1⟩
  plainName := ⟨fun hc => (hname _ hc).2.1 rfl, fun hc => (hname _ hc).2.2.1 rfl, fun hc => (hname _ hc).2.2.2 rfl⟩
  quoteFree := hquote
  word hquoted := ⟨⟨(hword hquoted).1, fun c hc => ((hword hquoted).2 c hc).1⟩, fun hc => ((hword hquoted).2 _ hc).2 rfl⟩

theorem legal_spacedParams : ∀ p ∈ spacedParams, p.Legal := by
  simp only [spacedParams, forall_mem_cons]
  refine ⟨?_, ?_, ?_, ?_, ?_, ?_, ?_, fun _ hin => absurd hin not_mem_nil⟩ <;>
    exact legal_spacedParam (by decide) (by decide) (by decide) (by decide) (by decide)

theorem parseAuthorization_render_alice :
    parseAuthorization (' ' :: (render "Digest".toList spacedParams ++ ['\n'])) =
      some { username := "alice".toList, realm := "a, nonce=b".toList, nonce := "n1=".toList,
             uri := "sip:bob@example.com;transport=udp".toList, response := "0f".toList, qop := some "auth".toList } := by
  have hspace : White [' '] := by
    intro c hc
    obtain rfl : c = ' ' := mem_singleton.mp hc
    decide
  have hline : White ['\n'] := by
    intro c hc
    obtain rfl : c = '\n' := mem_singleton.mp hc
    decide
  have hcomplete : Complete spacedParams := (complete_iff spacedParams).mp (by decide)
  exact (parseAuthorization_render legal_spacedParams (by decide) (.inl rfl) hspace hline).1 hcomplete

/-- A header with nothing but a username is refused as a whole. -/
theorem lone_username_refused :
    ¬ ∀ params : List HeaderParam, (∀ p ∈ params, p.Legal) → (params.map HeaderParam.key).Nodup →
      parseAuthorization (render "Digest".toList params) = some (recovered params) := by
  intro hall
  have hlegal : (spacedParam "username" "alice" true "").Legal :=
    legal_spacedParam (by decide) (by decide) (by decide) (by decide) (by decide)
  have hread := hall [spacedParam "username" "alice" true ""] (by simpa using hlegal) (by decide)
  have hrefused : parseAuthorization (render "Digest".toList [spacedParam "username" "alice" true ""]) = none := by decide
  rw [hrefused] at hread
  cases hread

end SmithsNet.Auth
