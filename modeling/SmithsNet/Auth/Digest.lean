import SmithsNet.Lib.Text

/-!
# SmithsNet.Auth.Digest

The pure half of digest authentication (`smiths-sip/src/auth/mod.rs`, module
`digest`): algorithms, the HA1/HA2/response strings, the `Authorization`
header reader, the nonce count, the permissive URI match and the constant-time
comparison.  The two hash functions come from outside the repository and are
a parameter, `hashHex`.
-/

namespace SmithsNet.Auth

open Lib

/-! ## algorithms and responses -/

/-- Supported digest algorithms. -/
inductive Algorithm
  | md5
  | sha256
  deriving DecidableEq

/-- Read the wire token; an absent token is MD5. -/
def Algorithm.parse (token : Text) : Option Algorithm :=
  let up := toAsciiUppercase token
  if up = "MD5".toList ∨ up = [] then some .md5
  else if up = "SHA-256".toList ∨ up = "SHA256".toList then some .sha256
  else none

/-- Hex digest of a byte string, for each algorithm. -/
abbrev HashHex := Algorithm → Bytes → Text

/-- Join pieces with `:`. -/
def colon : List Text → Text
  | [] => []
  | [s] => s
  | s :: ss => s ++ ':' :: colon ss

/-- `H(username:realm:password)`. -/
def ha1 (hashHex : HashHex) (alg : Algorithm) (username realm password : Text) : Text :=
  hashHex alg (toUtf8 (colon [username, realm, password]))

/-- `H(method:uri)`. -/
def ha2 (hashHex : HashHex) (alg : Algorithm) (method uri : Text) : Text :=
  hashHex alg (toUtf8 (colon [method, uri]))

/-- `H(HA1:nonce:nc:cnonce:auth:HA2)`. -/
def responseQopAuth (hashHex : HashHex) (alg : Algorithm) (ha1 nonce nc cnonce ha2 : Text) : Text :=
  hashHex alg (toUtf8 (colon [ha1, nonce, nc, cnonce, "auth".toList, ha2]))

/-- `H(HA1:nonce:HA2)`. -/
def responseNoQop (hashHex : HashHex) (alg : Algorithm) (ha1 nonce ha2 : Text) : Text :=
  hashHex alg (toUtf8 (colon [ha1, nonce, ha2]))

/-- One account's credentials; `ha1` wins over `password`. -/
structure Credentials where
  username : Text
  realm : Text
  password : Text
  ha1 : Option Text

/-! ## the header -/

/-- Parameters of an `Authorization` header. -/
structure AuthParams where
  username : Text := []
  realm : Text := []
  nonce : Text := []
  uri : Text := []
  response : Text := []
  algorithm : Option Text := none
  qop : Option Text := none
  nc : Option Text := none
  cnonce : Option Text := none
  deriving DecidableEq

/-- Worker of `splitParams`: `cur` is the current piece, reversed. -/
def splitParamsGo (inQuote : Bool) (cur : Text) : Text → List Text
  | [] => if (trim cur.reverse).isEmpty then [] else [trim cur.reverse]
  | c :: cs =>
    if c = '"' then splitParamsGo (!inQuote) (c :: cur) cs
    else if c = ',' ∧ inQuote = false then trim cur.reverse :: splitParamsGo false [] cs
    else splitParamsGo inQuote (c :: cur) cs

/-- Comma split that respects quotes; pieces are trimmed, an empty last piece
is dropped. -/
def splitParams (input : Text) : List Text := splitParamsGo false [] input

/-- Remove one pair of surrounding quotes. -/
def unquote (s : Text) : Text :=
  if 2 ≤ s.length ∧ s.head? = some '"' ∧ s.getLast? = some '"' then s.tail.dropLast else s

/-- Store one parameter; unknown names are ignored. -/
def AuthParams.set (p : AuthParams) (key val : Text) : AuthParams :=
  if key = "username".toList then { p with username := val }
  else if key = "realm".toList then { p with realm := val }
  else if key = "nonce".toList then { p with nonce := val }
  else if key = "uri".toList then { p with uri := val }
  else if key = "response".toList then { p with response := val }
  else if key = "algorithm".toList then { p with algorithm := some val }
  else if key = "qop".toList then { p with qop := some val }
  else if key = "nc".toList then { p with nc := some val }
  else if key = "cnonce".toList then { p with cnonce := some val }
  else p

/-- One `key=value` piece; a piece without `=` rejects the header. -/
def AuthParams.read (p : AuthParams) (raw : Text) : Option AuthParams :=
  (splitOnce ['='] raw).map fun kv => p.set (toAsciiLowercase (trim kv.1)) (unquote (trim kv.2))

/-- Read a `Digest ...` header value. -/
def parseAuthorization (headerValue : Text) : Option AuthParams := do
  let trimmed := trim headerValue
  let rest ← (stripLead "Digest ".toList trimmed).orElse fun _ =>
    stripLead "digest ".toList trimmed
  let params ← (splitParams rest).foldlM AuthParams.read {}
  if params.username.isEmpty || params.realm.isEmpty || params.nonce.isEmpty ||
      params.uri.isEmpty || params.response.isEmpty then none
  else some params

/-- The nonce count of a `qop=auth` request; `none` without `qop`.  A count
that cannot be read is the largest one. -/
def nonceCount (params : AuthParams) : Option Nat :=
  match params.qop, params.nc, params.cnonce with
  | some qop, some nc, some _ =>
    if qop = "auth".toList then some ((fromStrRadix 32 16 (trim nc)).getD (2 ^ 32 - 1)) else none
  | _, _, _ => none

/-- The response the client must have sent. -/
def expectedResponse (hashHex : HashHex) (alg : Algorithm) (method : Text) (params : AuthParams)
    (creds : Credentials) : Text :=
  let ha1 := creds.ha1.getD (ha1 hashHex alg creds.username creds.realm creds.password)
  let ha2 := ha2 hashHex alg method params.uri
  match params.qop, params.nc, params.cnonce with
  | some qop, some nc, some cnonce =>
    if qop = "auth".toList then responseQopAuth hashHex alg ha1 params.nonce nc cnonce ha2
    else responseNoQop hashHex alg ha1 params.nonce ha2
  | _, _, _ => responseNoQop hashHex alg ha1 params.nonce ha2

/-! ## matching -/

/-- `host[:port]` of a SIP URI: no scheme, no user part, no parameters. -/
def sipUriAuthority (uri : Text) : Text :=
  let body := ((stripLead "sips:".toList uri).orElse fun _ => stripLead "sip:".toList uri).getD uri
  let afterUser := (body.reverse.takeWhile (· ≠ '@')).reverse
  afterUser.takeWhile fun c => c ≠ ';' ∧ c ≠ '?'

/-- The signed URI matches the request line: exactly, as a part of it, or in
its authority. -/
def uriOk (uri requestUri : Text) : Bool :=
  uri == requestUri || (findSub uri requestUri).isSome ||
    sipUriAuthority uri == sipUriAuthority requestUri

/-- Equality without an early exit. -/
def constantTimeEq (a b : Bytes) : Bool :=
  if a.length ≠ b.length then false
  else (a.zip b).foldl (fun diff xy => diff ||| (xy.1 ^^^ xy.2)) 0 == 0

/-- Why a request is turned down. -/
inductive AuthError
  | missing
  | wrongRealm
  | staleNonce
  | nonceReplayed
  | unknownUser
  | badResponse
  | unsupportedAlgorithm
  | uriMismatch
  | backend (detail : Text)
  deriving DecidableEq

end SmithsNet.Auth
