import Mathlib
import SmithsNet.Core.Recordings
import SmithsNet.Lib.Like
import SmithsNet.Lib.Sorted

/-!
# SmithsNet.Auth.StoredRecords

What is asked of the stored call records and keys (`CdrStore` and `KvStore` of
`smiths-sip/src/auth/sqlite_store.rs`).  Both questions are put to SQLite as patterns of
`LIKE`: the texts of a `CdrFilter` as they are, the beginning of a key with its wildcards
escaped.  `LIKE` does not tell the case of ASCII letters.

The text of a filter may hold wildcards of its own and take in records that do not contain it;
the beginning of a key takes in keys that begin with it in another case.  `queries_right_iff`
says when this changes the answers.
-/

namespace SmithsNet.StoredRecords

open Lib
open Recordings (StorageError)

/-! ## `LIKE` -/

def readChar (c : Char) : Wild Char :=
  if c = '%' then .many else if c = '_' then .one else .literal c

/-- A pattern; `none` where it ends in the escape character. -/
def readPattern (escape : Option Char) : Text → Option (List (Wild Char))
  | [] => some []
  | [c] => if some c = escape then none else some [readChar c]
  | c :: d :: cs =>
    if some c = escape then (readPattern escape cs).map (.literal d :: ·)
    else (readPattern escape (d :: cs)).map (readChar c :: ·)

/-- `LIKE` as documented, for texts without NUL and below the pattern's length
limit (in SQLite a text ends at a NUL). -/
def like (escape : Option Char) (pattern s : Text) : Bool :=
  match readPattern escape pattern with
  | some ps => Wild.runs asciiLower ps s
  | none => false

/-! ## the store -/

structure CallDetailRecord where
  callId : Text
  fromUri : Text
  toUri : Text
  startedAtUnix : Int
  endedAtUnix : Int
  durationSecs : Int
  result : Text
  deriving DecidableEq

structure CdrFilter where
  sinceUnix : Option Int
  untilUnix : Option Int
  fromLike : Option Text
  toLike : Option Text
  result : Option Text
  limit : Nat

/-- The tables `cdr` and `kv`. -/
structure SqliteAuthStore where
  cdr : KeyMap Text CallDetailRecord
  kv : KeyMap Text Bytes

namespace SqliteAuthStore

variable (s : SqliteAuthStore)

def record (cdr : CallDetailRecord) : SqliteAuthStore := { s with cdr := s.cdr.insert cdr.callId cdr }

def rows : List CallDetailRecord := s.cdr.entries.map Sigma.snd

def get (key : Text) : Option Bytes := s.kv.lookup key

def put (key : Text) (value : Bytes) : SqliteAuthStore := { s with kv := s.kv.insert key value }

def delete (key : Text) : Bool × SqliteAuthStore := (decide (key ∈ s.kv), { s with kv := s.kv.erase key })

end SqliteAuthStore

/-- `format!("%{text}%")` -/
def around (text : Text) : Text := '%' :: (text ++ ['%'])

/-- The `WHERE` clause that is put together. -/
def CdrFilter.Selects (f : CdrFilter) (r : CallDetailRecord) : Prop :=
  (∀ since ∈ f.sinceUnix, since ≤ r.startedAtUnix) ∧
    (∀ until_ ∈ f.untilUnix, r.startedAtUnix ≤ until_) ∧
    (∀ text ∈ f.fromLike, like none (around text) r.fromUri = true) ∧
    (∀ text ∈ f.toLike, like none (around text) r.toUri = true) ∧
    ∀ result ∈ f.result, r.result = result

instance (f : CdrFilter) (r : CallDetailRecord) : Decidable (f.Selects r) := by
  unfold CdrFilter.Selects
  infer_instance

/-- `visited` are the rows, in the order the database comes by them: `ORDER BY` leaves that of
calls of one second open. -/
def list (f : CdrFilter) (visited : List CallDetailRecord) : Except StorageError (List CallDetailRecord) :=
  if f.limit = 0 then .error (.invalid "limit must be > 0".toList)
  else
    .ok (((visited.filter fun r => decide (f.Selects r)).mergeSort (falling CallDetailRecord.startedAtUnix)).take f.limit)

/-- `replace` of a character. -/
def replaceChar (c : Char) (by_ s : Text) : Text := s.flatMap fun x => if x = c then by_ else [x]

def escaped (start : Text) : Text :=
  replaceChar '_' ['\\', '_'] (replaceChar '%' ['\\', '%'] (replaceChar '\\' ['\\', '\\'] start))

def listPrefix (start : Text) (s : SqliteAuthStore) : List Text :=
  (s.kv.keys.filter (like (some '\\') (escaped start ++ ['%']))).mergeSort

/-! ## what is asked for -/

/-- A case-insensitive substring. -/
def Contains (text s : Text) : Prop := toAsciiLowercase text <:+: toAsciiLowercase s

instance (text s : Text) : Decidable (Contains text s) := inferInstanceAs (Decidable (_ <:+: _))

/-- What a filter documents. -/
def CdrFilter.Admits (f : CdrFilter) (r : CallDetailRecord) : Prop :=
  (∀ since ∈ f.sinceUnix, since ≤ r.startedAtUnix) ∧
    (∀ until_ ∈ f.untilUnix, r.startedAtUnix ≤ until_) ∧
    (∀ text ∈ f.fromLike, Contains text r.fromUri) ∧
    (∀ text ∈ f.toLike, Contains text r.toUri) ∧
    ∀ result ∈ f.result, r.result = result

instance (f : CdrFilter) (r : CallDetailRecord) : Decidable (f.Admits r) := by
  unfold CdrFilter.Admits
  infer_instance

/-- The newest of the records the filter admits are listed, in whatever order the database comes
by the rows. -/
def ListRight (s : SqliteAuthStore) (f : CdrFilter) : Prop :=
  ∀ visited : List CallDetailRecord, visited.Perm s.rows → ∃ out, list f visited = .ok out ∧
    Latest CallDetailRecord.startedAtUnix f.limit (s.rows.filter fun r => decide (f.Admits r)) out

/-- The stored keys that begin with it, in lexical order. -/
def PrefixRight (s : SqliteAuthStore) (start : Text) : Prop :=
  ((listPrefix start s).Pairwise fun a b => a < b) ∧
    ∀ key, key ∈ listPrefix start s ↔ (s.get key).isSome = true ∧ start <+: key

/-- A record that is taken in by a wildcard, and is not admitted, is too old to be listed. -/
def NoStray (s : SqliteAuthStore) (f : CdrFilter) : Prop :=
  ∀ r ∈ s.rows, f.Selects r → ¬ f.Admits r →
    f.limit ≤ (s.rows.filter fun q => decide (f.Selects q ∧ r.startedAtUnix < q.startedAtUnix)).length

instance (s : SqliteAuthStore) (f : CdrFilter) : Decidable (NoStray s f) := by
  unfold NoStray
  infer_instance

/-- No key begins with it in another case only. -/
def NoTwin (s : SqliteAuthStore) (start : Text) : Prop :=
  ∀ key ∈ s.kv.keys, toAsciiLowercase start <+: toAsciiLowercase key → start <+: key

instance (s : SqliteAuthStore) (start : Text) : Decidable (NoTwin s start) := by
  unfold NoTwin
  infer_instance

/-! ## the patterns -/

theorem readPattern_none (s : Text) : readPattern none s = some (s.map readChar) := by
  fun_induction readPattern none s with
  | case1 => rfl
  | case2 c h => contradiction
  | case3 c h => rfl
  | case4 c d cs h ih => contradiction
  | case5 c d cs h ih => rw [ih]; rfl

theorem readChar_cases (c : Char) : readChar c = .literal c ∨ readChar c = .one ∨ readChar c = .many := by
  unfold readChar
  split
  · exact .inr (.inr rfl)
  · split
    · exact .inr (.inl rfl)
    · exact .inl rfl

theorem readPattern_around (text : Text) :
    readPattern none (around text) = some (.many :: (text.map readChar ++ [.many])) := by
  rw [readPattern_none, around, List.map_cons, List.map_append]
  rfl

theorem like_of_contains {text s : Text} (h : Contains text s) : like none (around text) s = true := by
  unfold like
  rw [readPattern_around]
  obtain ⟨rest, hrest, hruns⟩ := Wild.runs_many.mp (Wild.runs_many_literals_many.mpr h)
  exact Wild.runs_many.mpr ⟨rest, hrest, Wild.runs_of_literals readChar_cases hruns⟩

theorem CdrFilter.Admits.selects {f : CdrFilter} {r : CallDetailRecord} (h : f.Admits r) : f.Selects r := by
  obtain ⟨hsince, huntil, hfrom, hto, hresult⟩ := h
  exact ⟨hsince, huntil, fun text htext => like_of_contains (hfrom text htext),
    fun text htext => like_of_contains (hto text htext), hresult⟩

/-- What escaping makes of one character. -/
def escapedChar (c : Char) : Text := if c = '\\' ∨ c = '%' ∨ c = '_' then ['\\', c] else [c]

theorem escaped_cons (c : Char) (start : Text) : escaped (c :: start) = escapedChar c ++ escaped start := by
  have hchar : escaped [c] = escapedChar c := by
    unfold escaped escapedChar replaceChar
    by_cases hback : c = '\\'
    · subst hback
      decide
    · by_cases hpercent : c = '%'
      · subst hpercent
        decide
      · by_cases hunder : c = '_'
        · subst hunder
          decide
        · simp [hback, hpercent, hunder]
  rw [← hchar]
  simp [escaped, replaceChar, List.flatMap_append]

theorem readPattern_escaped (start : Text) :
    readPattern (some '\\') (escaped start ++ ['%']) = some (start.map .literal ++ [.many]) := by
  induction start with
  | nil => rfl
  | cons c start ih =>
    rw [escaped_cons, escapedChar, List.append_assoc]
    obtain ⟨d, rest, hrest⟩ : ∃ d rest, escaped start ++ ['%'] = d :: rest := by
      cases escaped start with
      | nil => exact ⟨_, _, rfl⟩
      | cons d rest => exact ⟨_, _, rfl⟩
    split
    · rw [List.cons_append, List.cons_append, List.nil_append, readPattern, if_pos rfl, ih]
      rfl
    · next hplain =>
      obtain ⟨hback, hpercent, hunder⟩ := not_or.mp hplain |>.imp_right not_or.mp
      rw [List.cons_append, List.nil_append, hrest, readPattern,
        if_neg (fun heq => hback (Option.some.inj heq)), ← hrest, ih,
        readChar, if_neg hpercent, if_neg hunder]
      rfl

theorem like_escaped_iff {start key : Text} :
    like (some '\\') (escaped start ++ ['%']) key = true ↔ toAsciiLowercase start <+: toAsciiLowercase key := by
  unfold like
  rw [readPattern_escaped]
  exact Wild.runs_literals_many

/-! ## the answers -/

section answers

variable {s : SqliteAuthStore} {f : CdrFilter} {start key : Text}

theorem list_eq (hlimit : 0 < f.limit) (visited : List CallDetailRecord) :
    list f visited = .ok (((visited.filter fun r => decide (f.Selects r)).mergeSort
      (falling CallDetailRecord.startedAtUnix)).take f.limit) := by
  rw [list, if_neg (Nat.pos_iff_ne_zero.mp hlimit)]

theorem length_newer {visited : List CallDetailRecord} (hperm : visited.Perm s.rows) (r : CallDetailRecord) :
    ((visited.filter fun q => decide (f.Selects q)).filter fun q => decide (r.startedAtUnix < q.startedAtUnix)).length =
      (s.rows.filter fun q => decide (f.Selects q ∧ r.startedAtUnix < q.startedAtUnix)).length := by
  rw [List.filter_filter, (hperm.filter _).length_eq]
  refine congrArg List.length (List.filter_congr fun q _ => ?_)
  rw [Bool.decide_and, Bool.and_comm]

theorem listRight_iff (hlimit : 0 < f.limit) : ListRight s f ↔ NoStray s f := by
  constructor
  · intro hright r hr hselects hadmits
    by_contra hfew
    -- the database comes by this row first
    have hperm : (r :: s.rows.erase r).Perm s.rows := (List.perm_cons_erase hr).symm
    have hcount := length_newer (f := f) hperm r
    rw [List.filter_cons, if_pos (decide_eq_true hselects)] at hcount
    obtain ⟨out, hlist, ordered, hordered, -, rfl⟩ := hright _ hperm
    rw [list_eq hlimit, List.filter_cons, if_pos (decide_eq_true hselects)] at hlist
    have hlisted : r ∈ ordered.take f.limit := by
      rw [← Except.ok.inj hlist]
      exact mem_take_mergeSort_cons _ (by omega)
    have hmem := hordered.mem_iff.mp (List.mem_of_mem_take hlisted)
    exact hadmits (of_decide_eq_true (List.mem_filter.mp hmem).2)
  · intro hstray visited hperm
    refine ⟨_, list_eq hlimit visited, ?_⟩
    have hlatest := latest_mergeSort CallDetailRecord.startedAtUnix f.limit (visited.filter fun r => decide (f.Selects r))
    generalize ((visited.filter _).mergeSort _).take f.limit = out at hlatest
    have hadmitted : ∀ r ∈ out, decide (f.Admits r) = true := by
      intro r hr
      by_contra hadmits
      have hselected := hlatest.mem hr
      obtain ⟨hvisited, hselects⟩ := List.mem_filter.mp hselected
      have hcount := hlatest.count_lt hr
      rw [length_newer hperm] at hcount
      have hfew := hstray r (hperm.mem_iff.mp hvisited) (of_decide_eq_true hselects) (fun h => hadmits (decide_eq_true h))
      omega
    refine ((hlatest.filter_iff fun r => decide (f.Admits r)).mpr hadmitted).perm ?_
    rw [List.filter_filter]
    have hsame : (fun r => decide (f.Admits r) && decide (f.Selects r)) = fun r => decide (f.Admits r) := by
      funext r
      by_cases hadmits : f.Admits r
      · simp [hadmits, hadmits.selects]
      · simp [hadmits]
    rw [hsame]
    exact hperm.filter _

theorem mem_listPrefix : key ∈ listPrefix start s ↔
    (s.get key).isSome = true ∧ toAsciiLowercase start <+: toAsciiLowercase key := by
  unfold listPrefix SqliteAuthStore.get
  rw [List.mem_mergeSort, List.mem_filter, like_escaped_iff, AList.lookup_isSome, AList.mem_keys]

theorem sorted_listPrefix : (listPrefix start s).Pairwise fun a b => a < b := by
  have htrans : ∀ a b c : Text, decide (a ≤ b) = true → decide (b ≤ c) = true → decide (a ≤ c) = true :=
    fun _ _ _ hab hbc => decide_eq_true (le_trans (of_decide_eq_true hab) (of_decide_eq_true hbc))
  have htotal : ∀ a b : Text, (decide (a ≤ b) || decide (b ≤ a)) = true :=
    fun a b => (Bool.or_eq_true _ _).mpr ((le_total a b).imp decide_eq_true decide_eq_true)
  have hsorted : (listPrefix start s).Pairwise fun a b => decide (a ≤ b) = true :=
    List.pairwise_mergeSort htrans htotal _
  have hnodup : (listPrefix start s).Nodup :=
    (List.mergeSort_perm _ _).nodup_iff.mpr (s.kv.keys_nodup.filter _)
  exact (hsorted.and hnodup).imp fun ⟨hle, hne⟩ => lt_of_le_of_ne (of_decide_eq_true hle) hne

theorem prefixRight_iff : PrefixRight s start ↔ NoTwin s start := by
  constructor
  · rintro ⟨-, hkeys⟩ key hkey hfolded
    exact ((hkeys key).mp (mem_listPrefix.mpr ⟨AList.lookup_isSome.mpr (AList.mem_keys.mp hkey), hfolded⟩)).2
  · intro htwin
    refine ⟨sorted_listPrefix, fun key => mem_listPrefix.trans (and_congr_right fun hstored => ⟨?_, ?_⟩)⟩
    · exact htwin key (AList.mem_keys.mpr (AList.lookup_isSome.mp hstored))
    · exact fun hbegins => hbegins.map asciiLower

end answers

/-- The newest admitted records are listed exactly when every record that a wildcard takes in is
too old to be, and the keys with a beginning exactly when no key has it in another case only. -/
theorem queries_right_iff (s : SqliteAuthStore) (f : CdrFilter) (hlimit : 0 < f.limit) (start : Text) :
    (ListRight s f ↔ NoStray s f) ∧ (PrefixRight s start ↔ NoTwin s start) :=
  ⟨listRight_iff hlimit, prefixRight_iff⟩

/-- A call from a caller, at a time. -/
def sampleCall (callId fromUri : Text) (started : Int) : CallDetailRecord :=
  ⟨callId, fromUri, ['b'], started, started + 60, 60, ['o', 'k']⟩

/-- Two calls, and keys that differ in case only. -/
def sampleStore : SqliteAuthStore :=
  ((((⟨∅, ∅⟩ : SqliteAuthStore).record (sampleCall ['1'] ['a', 'x', 'c'] 5)).record (sampleCall ['2'] ['A', '_', 'C'] 9)).put
    ['k', '/', '1'] [1]).put ['K', '/', '2'] [2]

/-- Calls from whoever has the text in the address. -/
def sampleFilter (text : Text) (limit : Nat) : CdrFilter := ⟨none, none, some text, none, none, limit⟩

theorem queries_right_sampleStore : (0 < (sampleFilter ['a', '_', 'c'] 1).limit ∧
      NoStray sampleStore (sampleFilter ['a', '_', 'c'] 1) ∧ NoTwin sampleStore ['/']) ∧
    (ListRight sampleStore (sampleFilter ['a', '_', 'c'] 1) ↔ NoStray sampleStore (sampleFilter ['a', '_', 'c'] 1)) ∧
    (PrefixRight sampleStore ['/'] ↔ NoTwin sampleStore ['/']) :=
  ⟨by decide +kernel, queries_right_iff sampleStore _ (by decide) _⟩

/-- With room for both calls the wrong one is listed; and a key in another case is. -/
theorem wildcard_and_case_taken_in :
    ¬ ListRight sampleStore (sampleFilter ['a', '_', 'c'] 2) ∧ ¬ PrefixRight sampleStore ['k', '/'] := by
  constructor
  · intro hright
    obtain ⟨out, hlist, ordered, hordered, -, rfl⟩ := hright sampleStore.rows (List.Perm.refl _)
    rw [list_eq (by decide)] at hlist
    have hlen := congrArg List.length (Except.ok.inj hlist)
    rw [List.length_take, List.length_take, List.length_mergeSort, hordered.length_eq] at hlen
    revert hlen
    decide +kernel
  · rintro ⟨-, hkeys⟩
    have hlisted : ['K', '/', '2'] ∈ listPrefix ['k', '/'] sampleStore := mem_listPrefix.mpr (by decide +kernel)
    have hbegins := ((hkeys _).mp hlisted).2
    revert hbegins
    decide

end SmithsNet.StoredRecords
