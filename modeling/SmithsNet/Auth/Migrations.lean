import Mathlib
import SmithsNet.Auth.Digest
import SmithsNet.Auth.StoredRecords

/-!
# SmithsNet.Auth.Migrations

The schema migrations of the SQLite store (`MigrationRunner` of
`smiths-sip/src/auth/sqlite_store.rs`).  A database of an older version is brought to the current one
step by step, each in a transaction of its own; the last step replaces the passwords of the users by
their HA1 hashes.

A call of `run` may end anywhere, and other calls may be under way beside it.  `migrations_preserve`:
whatever calls there have been, nothing that was stored is lost, and after one that returned the
users are found by their hashes.
-/

namespace SmithsNet.Auth

open Lib
open StoredRecords (CallDetailRecord)

/-! ## tables -/

structure Realm where
  id : Int
  name : Text

/-- A user before version 3. -/
structure PlainUser where
  id : Int
  realmId : Int
  username : Text
  password : Text

structure HashedUser where
  id : Int
  realmId : Int
  username : Text
  ha1Md5 : Text
  ha1Sha256 : Text

/-- The table `users`, with the columns it has. -/
inductive Users
  | plain (rows : List PlainUser)
  | hashed (rows : List HashedUser)

structure StoredContact where
  id : Int
  aor : Text
  contact : Text
  expiresAtUnix : Int

/-- The rows of each table, where there is one. -/
structure Database where
  schemaVersion : Option (List Int) := none
  realms : Option (List Realm) := none
  users : Option Users := none
  usersV3 : Option (List HashedUser) := none
  contacts : Option (List StoredContact) := none
  cdr : Option (List CallDetailRecord) := none
  kv : Option (List (Text × Bytes)) := none

/-- What SQLite refuses. -/
inductive SqliteError
  | tableExists
  | noSuchTable
  | noSuchColumn
  | constraint
  | integralValueOutOfRange
  deriving DecidableEq

inductive SqliteStoreError
  | engine (e : SqliteError)
  | sqlite (reason : Text)
  | schemaTooNew (found maxSupported : Int)
  deriving DecidableEq

/-- The order in which SQLite comes by the rows of a query: which of so many is the next. -/
def Planner : Type := ∀ n, Equiv.Perm (Fin n)

namespace Planner

variable {α : Type} (plan : Planner)

def visit (l : List α) : List α := List.ofFn fun i => l.get (plan l.length i)

theorem perm (l : List α) : (plan.visit l).Perm l := by
  have hperm := Equiv.Perm.ofFn_comp_perm (plan l.length) l.get
  rwa [List.ofFn_get] at hperm

end Planner

def CURRENT_SCHEMA_VERSION : Int := 3

/-- The versions the steps lead to. -/
def MIGRATIONS : List Int := [1, 2, 3]

/-! ## statements -/

def createTable {α : Type} (t : Option α) (empty : α) : Except SqliteError (Option α) :=
  match t with
  | none => .ok (some empty)
  | some _ => .error .tableExists

/-- A row of the join of `users` and `realms`. -/
structure Joined where
  id : Int
  realmId : Int
  realm : Text
  username : Text
  password : Text

def join (users : List PlainUser) (realms : List Realm) : List Joined :=
  users.flatMap fun u => (realms.filter (·.id = u.realmId)).map fun r => ⟨u.id, u.realmId, r.name, u.username, u.password⟩

namespace Database

variable (db : Database)

/-- `CREATE TABLE IF NOT EXISTS _schema_version` -/
def createVersionTable : Database := { db with schemaVersion := some (db.schemaVersion.getD []) }

/-- The rows with their passwords, where the users have some. -/
def plainRows : Except SqliteError (List Joined) :=
  match db.users, db.realms with
  | some (.plain users), some realms => .ok (join users realms)
  | some (.hashed _), some _ => .error .noSuchColumn
  | _, _ => .error .noSuchTable

def insertUserV3 (row : HashedUser) : Except SqliteError Database :=
  match db.usersV3, db.realms with
  | some rows, some realms =>
    if row.id ∈ rows.map (·.id) ∨ (row.realmId, row.username) ∈ rows.map (fun u => (u.realmId, u.username)) ∨
        row.realmId ∉ realms.map (·.id) then .error .constraint
    else .ok { db with usersV3 := some (rows ++ [row]) }
  | _, _ => .error .noSuchTable

/-- `DROP TABLE users; ALTER TABLE users_v3 RENAME TO users` -/
def renameUsersV3 : Except SqliteError Database :=
  match db.users, db.usersV3 with
  | some _, some rows => .ok { db with users := some (.hashed rows), usersV3 := none }
  | _, _ => .error .noSuchTable

/-- The rows of `_schema_version` are deleted and one is inserted. -/
def replaceVersion (target : Int) : Except SqliteError Database :=
  match db.schemaVersion with
  | some _ => .ok { db with schemaVersion := some [target] }
  | none => .error .noSuchTable

end Database

/-! ## the steps -/

section Steps

variable (hashHex : HashHex) (plan : Planner)

def Joined.hashed (row : Joined) : HashedUser where
  id := row.id
  realmId := row.realmId
  username := row.username
  ha1Md5 := ha1 hashHex .md5 row.username row.realm row.password
  ha1Sha256 := ha1 hashHex .sha256 row.username row.realm row.password

def migrateUsersToHa1 (tx : Database) : Except SqliteError Database := do
  let usersV3 ← createTable tx.usersV3 []
  let tx := { tx with usersV3 := usersV3 }
  let rows ← tx.plainRows
  let tx ← (plan.visit rows).foldlM (fun tx row => tx.insertUserV3 (row.hashed hashHex)) tx
  tx.renameUsersV3

def applyMigration (target : Int) (tx : Database) : Except SqliteStoreError Database :=
  if target = 1 then
    (do let realms ← createTable tx.realms []
        let users ← createTable tx.users (.plain [])
        let contacts ← createTable tx.contacts []
        return { tx with realms := realms, users := users, contacts := contacts }).mapError .engine
  else if target = 2 then
    (do let cdr ← createTable tx.cdr []
        let kv ← createTable tx.kv []
        return { tx with cdr := cdr, kv := kv }).mapError .engine
  else if target = 3 then (migrateUsersToHa1 hashHex plan tx).mapError .engine
  else .error (.sqlite s!"unknown migration target v{target}".toList)

/-- The transaction of a step: what it leaves when it is committed. -/
def migrateTo (target : Int) (db : Database) : Except SqliteStoreError Database := do
  let tx ← applyMigration hashHex plan target db
  (tx.replaceVersion target).mapError .engine

/-- `SELECT version FROM _schema_version LIMIT 1`, as an `i32` -/
def readVersion (db : Database) : Except SqliteStoreError Int :=
  match db.schemaVersion with
  | none => .error (.engine .noSuchTable)
  | some rows =>
    match (plan.visit rows).head? with
    | none => .ok 0
    | some version =>
      if -2 ^ 31 ≤ version ∧ version < 2 ^ 31 then .ok version else .error (.engine .integralValueOutOfRange)

/-- The steps that are left. -/
def migrate (current : Int) : List Int → Database → Except SqliteStoreError Int × Database
  | [], db => (.ok CURRENT_SCHEMA_VERSION, db)
  | target :: rest, db =>
    if current ≥ target then migrate current rest db
    else
      match migrateTo hashHex plan target db with
      | .ok db => migrate current rest db
      | .error e => (.error e, db)

/-- `MigrationRunner::run` -/
def run (db : Database) : Except SqliteStoreError Int × Database :=
  let db := db.createVersionTable
  match readVersion plan db with
  | .error e => (.error e, db)
  | .ok current =>
    if current > CURRENT_SCHEMA_VERSION then (.error (.schemaTooNew current CURRENT_SCHEMA_VERSION), db)
    else migrate hashHex plan current MIGRATIONS db

end Steps

/-! ## calls under way -/

/-- How far a call of `run` has come. -/
inductive Phase
  | called
  | created
  | migrating (current : Int) (rest : List Int)
  | returned (result : Except SqliteStoreError Int)
  /-- The process is gone, or SQLite has failed for a reason of its own. -/
  | interrupted
  deriving DecidableEq

structure Migrations where
  db : Database
  calls : List Phase

open Migrations

inductive MigrationAction
  | call
  /-- The next statement, or transaction, of a call. -/
  | next (i : Nat) (plan : Planner)
  | interrupt (i : Nat)

section Calls

variable (hashHex : HashHex)

def advance (plan : Planner) (db : Database) : Phase → Option (Database × Phase)
  | .called => some (db.createVersionTable, .created)
  | .created =>
    match readVersion plan db with
    | .error e => some (db, .returned (.error e))
    | .ok current =>
      if current > CURRENT_SCHEMA_VERSION then some (db, .returned (.error (.schemaTooNew current CURRENT_SCHEMA_VERSION)))
      else some (db, .migrating current MIGRATIONS)
  | .migrating _ [] => some (db, .returned (.ok CURRENT_SCHEMA_VERSION))
  | .migrating current (target :: rest) =>
    if current ≥ target then some (db, .migrating current rest)
    else
      match migrateTo hashHex plan target db with
      | .ok db => some (db, .migrating current rest)
      | .error e => some (db, .returned (.error e))
  | .returned _ | .interrupted => none

def Migrations.step (s : Migrations) : MigrationAction → Option Migrations
  | .call => some { s with calls := s.calls ++ [.called] }
  | .next i plan =>
    (s.calls[i]?.bind (advance hashHex plan s.db)).map fun (db, phase) => ⟨db, s.calls.set i phase⟩
  | .interrupt i => some { s with calls := s.calls.set i .interrupted }

end Calls

/-! ## lookups -/

def Credentials.fromHa1 (username realm ha1 : Text) : Credentials := ⟨username, realm, [], some ha1⟩

/-- The column of an algorithm. -/
def HashedUser.ha1 (u : HashedUser) : Algorithm → Text
  | .md5 => u.ha1Md5
  | .sha256 => u.ha1Sha256

def lookupFor (plan : Planner) (db : Database) (realm username : Text) (alg : Algorithm) : Option Credentials :=
  match db.users, db.realms with
  | some (.hashed users), some realms =>
    (plan.visit (users.flatMap fun u =>
      (realms.filter fun r => r.id = u.realmId ∧ r.name = realm ∧ u.username = username).map fun r =>
        Credentials.fromHa1 u.username r.name (u.ha1 alg))).head?
  | _, _ => none

/-! ## what is asked for -/

/-- What an older version has stored, with the constraints of its tables. -/
structure Content where
  realms : List Realm
  users : List PlainUser
  contacts : List StoredContact
  cdr : List CallDetailRecord
  kv : List (Text × Bytes)
  realmIds : (realms.map (·.id)).Nodup
  realmNames : (realms.map (·.name)).Nodup
  userIds : (users.map (·.id)).Nodup
  usernames : (users.map fun u => (u.realmId, u.username)).Nodup
  references : ∀ u ∈ users, ∃ r ∈ realms, r.id = u.realmId

/-- A user has a password in a realm. -/
def Content.Stored (c : Content) (realm username password : Text) : Prop :=
  ∃ u ∈ c.users, ∃ r ∈ c.realms, r.id = u.realmId ∧ r.name = realm ∧ u.username = username ∧ u.password = password

/-- The content, written at a version. -/
inductive Written (hashHex : HashHex) (c : Content) : Int → Database → Prop
  | zero {versions : Option (List Int)} (hversions : versions.getD [] = [])
      (hrealms : c.realms = []) (hcontacts : c.contacts = [])
      (hcdr : c.cdr = []) (hkv : c.kv = []) : Written hashHex c 0 { schemaVersion := versions }
  | one (hcdr : c.cdr = []) (hkv : c.kv = []) :
      Written hashHex c 1
        { schemaVersion := some [1], realms := some c.realms, users := some (.plain c.users),
          contacts := some c.contacts }
  | two : Written hashHex c 2
      { schemaVersion := some [2], realms := some c.realms, users := some (.plain c.users), contacts := some c.contacts,
        cdr := some c.cdr, kv := some c.kv }
  | three {rows : List HashedUser}
      (hrows : rows.Perm ((join c.users c.realms).map (Joined.hashed hashHex))) : Written hashHex c 3
      { schemaVersion := some [3], realms := some c.realms, users := some (.hashed rows), contacts := some c.contacts,
        cdr := some c.cdr, kv := some c.kv }

/-- The content is all there, and the passwords are gone. -/
structure Migrated (hashHex : HashHex) (c : Content) (db : Database) : Prop where
  version : db.schemaVersion = some [CURRENT_SCHEMA_VERSION]
  found : ∀ u ∈ c.users, ∃ r ∈ c.realms, r.id = u.realmId ∧ ∀ plan alg,
    lookupFor plan db r.name u.username alg =
      some (.fromHa1 u.username r.name (ha1 hashHex alg u.username r.name u.password))
  nobodyElse : ∀ realm username, (∀ password, ¬ c.Stored realm username password) →
    ∀ plan alg, lookupFor plan db realm username alg = none
  contacts : db.contacts = some c.contacts
  cdr : db.cdr = some c.cdr
  kv : db.kv = some c.kv
  hashed : (∃ rows, db.users = some (.hashed rows)) ∧ db.usersV3 = none

/-- A database of a version to come. -/
def Newer (db : Database) : Prop := ∃ version, db.schemaVersion = some [version] ∧ version > CURRENT_SCHEMA_VERSION

/-! ## the join -/

section Joins

variable {c : Content} {realms : List Realm} {users : List PlainUser}

variable {row : Joined}

theorem mem_join : row ∈ join users realms ↔
    ∃ u ∈ users, ∃ r ∈ realms, r.id = u.realmId ∧ row = ⟨u.id, u.realmId, r.name, u.username, u.password⟩ := by
  simp only [join, List.mem_flatMap, List.mem_map, List.mem_filter, decide_eq_true_eq, and_assoc, @eq_comm _ row]

theorem filter_realm {r : Realm} (hnodup : (realms.map Realm.id).Nodup) (hr : r ∈ realms) :
    realms.filter (·.id = r.id) = [r] := by
  induction realms with
  | nil => contradiction
  | cons r' realms ih =>
    rw [List.map_cons, List.nodup_cons] at hnodup
    obtain ⟨hnot, hrest⟩ := hnodup
    obtain rfl | hr := List.mem_cons.mp hr
    · have hother : realms.filter (·.id = r.id) = [] := by
        refine List.filter_eq_nil_iff.mpr fun r' hr' heq => hnot ?_
        rw [← of_decide_eq_true heq]
        exact List.mem_map_of_mem hr'
      rw [List.filter_cons_of_pos (by simp), hother]
    · have hne : r'.id ≠ r.id := fun heq => hnot (by rw [heq]; exact List.mem_map_of_mem hr)
      rw [List.filter_cons_of_neg (by simpa using hne), ih hrest hr]

theorem map_join {β : Type} (f : Joined → β) (g : PlainUser → β)
    (h : ∀ u realm, f ⟨u.id, u.realmId, realm, u.username, u.password⟩ = g u) :
      (join c.users c.realms).map f = c.users.map g := by
  rw [join, List.map_flatMap, List.map_eq_flatMap]
  refine List.flatMap_congr fun u hu => ?_
  obtain ⟨r, hr, hid⟩ := c.references u hu
  rw [← hid, filter_realm c.realmIds hr, List.map_singleton, List.map_singleton, hid, h]

theorem realmId_of_mem_join (h : row ∈ join users realms) : row.realmId ∈ realms.map Realm.id := by
  obtain ⟨u, -, r, hr, hid, rfl⟩ := mem_join.mp h
  exact List.mem_map.mpr ⟨r, hr, hid⟩

end Joins

/-! ## a step -/

section Step

variable {hashHex : HashHex} {plan : Planner} {c : Content} {db : Database} {k : Int}

theorem foldlM_insertUserV3 {realms : List Realm} {rows : List Joined} {old : List HashedUser}
    (hrealms : db.realms = some realms)
    (hids : (old.map (·.id) ++ rows.map (·.id)).Nodup)
    (hnames : (old.map (fun u => (u.realmId, u.username)) ++ rows.map fun row => (row.realmId, row.username)).Nodup)
    (hrefs : ∀ row ∈ rows, row.realmId ∈ realms.map Realm.id) :
    rows.foldlM (fun tx row => tx.insertUserV3 (row.hashed hashHex)) { db with usersV3 := some old } =
      .ok { db with usersV3 := some (old ++ rows.map (Joined.hashed hashHex)) } := by
  induction rows generalizing old with
  | nil => rw [List.map_nil, List.append_nil]; rfl
  | cons row rows ih =>
    obtain ⟨href, hrefs⟩ := List.forall_mem_cons.mp hrefs
    have hid : row.id ∉ old.map (·.id) := fun hmem =>
      (List.nodup_append.mp hids).2.2 _ hmem _ List.mem_cons_self rfl
    have hname : (row.realmId, row.username) ∉ old.map fun u => (u.realmId, u.username) := fun hmem =>
      (List.nodup_append.mp hnames).2.2 _ hmem _ List.mem_cons_self rfl
    have hinsert : ({ db with usersV3 := some old } : Database).insertUserV3 (row.hashed hashHex) =
        .ok { db with usersV3 := some (old ++ [row.hashed hashHex]) } := by
      simp only [Database.insertUserV3, hrealms]
      refine if_neg ?_
      simp only [not_or, not_not]
      exact ⟨hid, hname, href⟩
    have hrest := @ih (old ++ [row.hashed hashHex]) (by simpa [Joined.hashed] using hids)
      (by simpa [Joined.hashed] using hnames) hrefs
    rw [List.append_assoc, List.singleton_append] at hrest
    rw [List.foldlM_cons, hinsert]
    exact hrest

theorem migrateUsersToHa1_eq (hrealms : db.realms = some c.realms)
    (husers : db.users = some (.plain c.users)) (hnone : db.usersV3 = none) :
    migrateUsersToHa1 hashHex plan db =
      .ok { db with users := some (.hashed ((plan.visit (join c.users c.realms)).map (Joined.hashed hashHex))) } := by
  have hperm := plan.perm (join c.users c.realms)
  have hids : ((plan.visit (join c.users c.realms)).map (·.id)).Nodup := by
    rw [(hperm.map _).nodup_iff, map_join _ (·.id) fun _ _ => rfl]
    exact c.userIds
  have hnames : ((plan.visit (join c.users c.realms)).map fun row => (row.realmId, row.username)).Nodup := by
    rw [(hperm.map _).nodup_iff, map_join _ (fun u => (u.realmId, u.username)) fun _ _ => rfl]
    exact c.usernames
  have hrefs : ∀ row ∈ plan.visit (join c.users c.realms), row.realmId ∈ c.realms.map Realm.id := fun row hrow =>
    realmId_of_mem_join (hperm.mem_iff.mp hrow)
  have hfold := @foldlM_insertUserV3 hashHex db _ _ [] hrealms hids hnames hrefs
  obtain ⟨version, realms, users, usersV3, contacts, cdr, kv⟩ := db
  cases hrealms
  cases husers
  cases hnone
  show ((plan.visit (join c.users c.realms)).foldlM (fun tx row => tx.insertUserV3 (row.hashed hashHex))
    (⟨version, some c.realms, some (.plain c.users), some [], contacts, cdr, kv⟩ : Database) >>= Database.renameUsersV3) = _
  rw [hfold]
  rfl

theorem Written.range (h : Written hashHex c k db) : 0 ≤ k ∧ k ≤ CURRENT_SCHEMA_VERSION := by
  cases h <;> decide

theorem Written.createVersionTable (h : Written hashHex c k db) : Written hashHex c k db.createVersionTable := by
  cases h with
  | zero hversions hrealms hcontacts hcdr hkv => exact .zero (by simpa using hversions) hrealms hcontacts hcdr hkv
  | one hcdr hkv => exact .one hcdr hkv
  | two => exact .two
  | three hrows => exact .three hrows

variable {α : Type}

theorem visit_singleton (a : α) : plan.visit [a] = [a] := List.perm_singleton.mp (plan.perm [a])

theorem visit_nil : plan.visit ([] : List α) = [] := List.perm_nil.mp (plan.perm [])

section

variable (h : Written hashHex c k db)
include h

theorem Written.reads (hcreated : db.schemaVersion.isSome) : readVersion plan db = .ok k := by
  cases h with
  | @zero versions hversions =>
    cases versions with
    | none => contradiction
    | some versions =>
      obtain rfl : versions = [] := hversions
      simp [readVersion, visit_nil]
  | one | two | three => simp [readVersion, visit_singleton]

theorem Written.migrates (plan : Planner) (hcreated : db.schemaVersion.isSome) (hold : k < CURRENT_SCHEMA_VERSION) :
    ∃ db', migrateTo hashHex plan (k + 1) db = .ok db' ∧ Written hashHex c (k + 1) db' ∧ db'.schemaVersion.isSome := by
  cases h with
  | @zero versions hversions hrealms hcontacts hcdr hkv =>
    obtain ⟨versions, rfl⟩ := Option.isSome_iff_exists.mp hcreated
    have husers : c.users = [] := by
      refine List.eq_nil_iff_forall_not_mem.mpr fun u hu => ?_
      obtain ⟨r, hr, -⟩ := c.references u hu
      rw [hrealms] at hr
      contradiction
    have hone := @Written.one hashHex _ hcdr hkv
    rw [hrealms, husers, hcontacts] at hone
    exact ⟨_, rfl, hone, rfl⟩
  | one hcdr hkv =>
    have htwo := @Written.two hashHex c
    rw [hcdr, hkv] at htwo
    exact ⟨_, rfl, htwo, rfl⟩
  | two =>
    refine ⟨_, ?_, .three ((plan.perm _).map _), rfl⟩
    show ((migrateUsersToHa1 hashHex plan _).mapError SqliteStoreError.engine >>= fun tx =>
      (Database.replaceVersion tx 3).mapError SqliteStoreError.engine) = _
    rw [migrateUsersToHa1_eq rfl rfl rfl]
    rfl
  | three => contradiction

theorem Written.refuses (plan : Planner) {target : Int} (hmem : target ∈ MIGRATIONS) (hle : target ≤ k) :
    ∃ e, migrateTo hashHex plan target db = .error e := by
  have htarget : target = 1 ∨ target = 2 ∨ target = 3 := by simpa [MIGRATIONS] using hmem
  cases h with
  | zero => omega
  | one =>
    obtain rfl : target = 1 := by omega
    exact ⟨_, rfl⟩
  | two =>
    obtain rfl | rfl : target = 1 ∨ target = 2 := by omega
    · exact ⟨_, rfl⟩
    · exact ⟨_, rfl⟩
  | three =>
    obtain rfl | rfl | rfl := htarget
    · exact ⟨_, rfl⟩
    · exact ⟨_, rfl⟩
    · exact ⟨_, rfl⟩

end

end Step

/-! ## lookups -/

section Lookups

variable {hashHex : HashHex} {plan : Planner} {c : Content} {db : Database} {rows : List HashedUser}

theorem head?_visit {α : Type} {l : List α} {a : α} (hmem : a ∈ l) (hall : ∀ b ∈ l, b = a) :
    (plan.visit l).head? = some a := by
  have hperm := plan.perm l
  cases hvisit : plan.visit l with
  | nil =>
    rw [hvisit] at hperm
    rw [List.nil_perm.mp hperm] at hmem
    contradiction
  | cons b bs =>
    have hb : b ∈ l := hperm.mem_iff.mp (hvisit ▸ List.mem_cons_self)
    rw [List.head?_cons, hall b hb]

theorem mem_found (hrows : rows.Perm ((join c.users c.realms).map (Joined.hashed hashHex)))
    {realm username : Text} {alg : Algorithm}
    {creds : Credentials} :
    creds ∈ (rows.flatMap fun u => (c.realms.filter fun r => r.id = u.realmId ∧ r.name = realm ∧
      u.username = username).map fun r =>
      Credentials.fromHa1 u.username r.name (u.ha1 alg)) ↔
    ∃ u ∈ c.users, ∃ r ∈ c.realms, r.id = u.realmId ∧ r.name = realm ∧ u.username = username ∧
      creds = .fromHa1 username realm (ha1 hashHex alg username realm u.password) := by
  simp only [List.mem_flatMap, List.mem_map, List.mem_filter, decide_eq_true_eq]
  constructor
  · rintro ⟨row, hrow, r, ⟨hr, hid, rfl, rfl⟩, rfl⟩
    obtain ⟨j, hj, rfl⟩ := List.mem_map.mp (hrows.mem_iff.mp hrow)
    obtain ⟨u, hu, r', hr', hid', rfl⟩ := mem_join.mp hj
    obtain rfl : r = r' := List.inj_on_of_nodup_map c.realmIds hr hr' (hid.trans hid'.symm)
    refine ⟨u, hu, r, hr, hid, rfl, rfl, ?_⟩
    cases alg <;> rfl
  · rintro ⟨u, hu, r, hr, hid, rfl, rfl, rfl⟩
    refine ⟨_, hrows.mem_iff.mpr (List.mem_map_of_mem (mem_join.mpr ⟨u, hu, r, hr, hid, rfl⟩)), r, ⟨hr, hid, rfl, rfl⟩, ?_⟩
    cases alg <;> rfl

theorem Written.migrated (h : Written hashHex c CURRENT_SCHEMA_VERSION db) : Migrated hashHex c db := by
  obtain ⟨rows, hrows, rfl⟩ : ∃ rows : List HashedUser, rows.Perm ((join c.users c.realms).map (Joined.hashed hashHex)) ∧
      db = ⟨some [3], some c.realms, some (.hashed rows), none, some c.contacts, some c.cdr, some c.kv⟩ := by
    cases h with
    | three hrows => exact ⟨_, hrows, rfl⟩
  refine ⟨rfl, fun u hu => ?_, fun realm username hnone plan alg => ?_, rfl, rfl, rfl, ⟨rows, rfl⟩, rfl⟩
  · obtain ⟨r, hr, hid⟩ := c.references u hu
    refine ⟨r, hr, hid, fun plan alg =>
      head?_visit ((mem_found hrows).mpr ⟨u, hu, r, hr, hid, rfl, rfl, rfl⟩) fun creds hcreds => ?_⟩
    obtain ⟨u', hu', r', hr', hid', hrealm, husername, rfl⟩ := (mem_found hrows).mp hcreds
    -- the realm is known by its name, and in it the user
    obtain rfl : r' = r := List.inj_on_of_nodup_map c.realmNames hr' hr hrealm
    obtain rfl : u' = u := List.inj_on_of_nodup_map c.usernames hu' hu (Prod.ext (hid'.symm.trans hid) husername)
    rfl
  · have hempty : (rows.flatMap fun u => (c.realms.filter fun r => r.id = u.realmId ∧ r.name =
      realm ∧ u.username = username).map fun r =>
        Credentials.fromHa1 u.username r.name (u.ha1 alg)) = [] := by
      refine List.eq_nil_iff_forall_not_mem.mpr fun creds hcreds => ?_
      obtain ⟨u, hu, r, hr, hid, hrealm, husername, -⟩ := (mem_found hrows).mp hcreds
      exact hnone u.password ⟨u, hu, r, hr, hid, hrealm, husername, rfl⟩
    show (plan.visit _).head? = none
    rw [hempty, visit_nil]
    rfl

end Lookups

/-! ## a whole call -/

section Run

variable {hashHex : HashHex} {plan : Planner} {c : Content} {db : Database} {k : Int}

variable {n : Nat}

theorem drop_migrations {target : Int} {rest : List Int} (h : MIGRATIONS.drop n = target :: rest) :
    target = n + 1 ∧ rest = MIGRATIONS.drop (n + 1) ∧ target ∈ MIGRATIONS ∧ target ≤ CURRENT_SCHEMA_VERSION := by
  match n, h with
  | 0, h | 1, h | 2, h =>
    obtain ⟨rfl, rfl⟩ := List.cons.inj h
    decide
  | n + 3, h => simp [MIGRATIONS] at h

theorem drop_migrations_nil (h : MIGRATIONS.drop n = []) : CURRENT_SCHEMA_VERSION ≤ n := by
  have hlen := List.drop_eq_nil_iff.mp h
  simp only [MIGRATIONS, List.length_cons, List.length_nil] at hlen
  unfold CURRENT_SCHEMA_VERSION
  omega

theorem Written.migrate_eq (plan : Planner) {current : Int}
    (h : Written hashHex c (max current n) db) (hcreated : db.schemaVersion.isSome) :
    ∃ db', migrate hashHex plan current (MIGRATIONS.drop n) db = (.ok CURRENT_SCHEMA_VERSION, db') ∧
      Written hashHex c CURRENT_SCHEMA_VERSION db' := by
  generalize hrest : MIGRATIONS.drop n = rest
  induction rest generalizing n db with
  | nil =>
    refine ⟨db, rfl, ?_⟩
    have hdone : max current n = CURRENT_SCHEMA_VERSION :=
      le_antisymm h.range.2 ((drop_migrations_nil hrest).trans (le_max_right _ _))
    exact hdone ▸ h
  | cons target rest ih =>
    obtain ⟨htarget, hrest', -, hle⟩ := drop_migrations hrest
    rw [migrate]
    split
    · next hskip =>
      have hsame : max current ((n + 1 : Nat) : Int) = max current n := by push_cast; omega
      exact ih (hsame ▸ h) hcreated hrest'.symm
    · next hdue =>
      have hat : max current n = n := by omega
      rw [hat] at h
      obtain ⟨db', hmigrate, hwritten, hcreated'⟩ := h.migrates plan hcreated (by omega)
      rw [htarget, hmigrate]
      have hnext : (n : Int) + 1 = max current ((n + 1 : Nat) : Int) := by push_cast; omega
      exact ih (hnext ▸ hwritten) hcreated' hrest'.symm

theorem Written.run_eq (h : Written hashHex c k db) (plan : Planner) :
    ∃ db', run hashHex plan db = (.ok CURRENT_SCHEMA_VERSION, db') ∧ Written hashHex c CURRENT_SCHEMA_VERSION db' := by
  have hrange := h.range
  have hwritten := h.createVersionTable
  have hstart : max k ((0 : Nat) : Int) = k := max_eq_left (by exact_mod_cast hrange.1)
  obtain ⟨db', hmigrate, hdone⟩ := Written.migrate_eq plan (n := 0) (hstart.symm ▸ hwritten) rfl
  refine ⟨db', ?_, hdone⟩
  simp only [run, hwritten.reads rfl]
  rw [if_neg (not_lt.mpr hrange.2)]
  exact hmigrate

theorem createVersionTable_of_some {versions : List Int} (h : db.schemaVersion = some versions) :
    db.createVersionTable = db := by
  rw [Database.createVersionTable, h]
  exact congrArg (fun v => { db with schemaVersion := v }) h.symm

theorem run_newer {version : Int} (hversion : db.schemaVersion = some [version])
    (hnewer : version > CURRENT_SCHEMA_VERSION) :
    run hashHex plan db = (.error (if version < 2 ^ 31 then .schemaTooNew version CURRENT_SCHEMA_VERSION
      else .engine .integralValueOutOfRange), db) := by
  unfold CURRENT_SCHEMA_VERSION at hnewer
  simp only [run, createVersionTable_of_some hversion, readVersion, hversion, visit_singleton, List.head?_cons]
  by_cases hrange : version < 2 ^ 31
  · rw [if_pos ⟨by omega, hrange⟩, if_pos hrange]
    exact if_pos hnewer
  · rw [if_neg fun hin => hrange hin.2, if_neg hrange]

end Run

/-! ## all runs -/

section Runs

variable {hashHex : HashHex} {c : Content} {db db' : Database} {k : Int} {s s' : Migrations}

/-- What a call under way knows of the database. -/
def Phase.Knows (k : Int) (db : Database) : Phase → Prop
  | .created => db.schemaVersion.isSome
  | .migrating current rest => db.schemaVersion.isSome ∧ current ≤ k ∧ ∃ n : Nat, n ≤ k ∧ rest = MIGRATIONS.drop n
  | .returned (.ok version) => version = CURRENT_SCHEMA_VERSION ∧ k = CURRENT_SCHEMA_VERSION
  | .called | .returned (.error _) | .interrupted => True

variable {a : MigrationAction} {i : Nat} {phase phase' last : Phase} {plan : Planner}

theorem Phase.Knows.mono {k' : Int} (h : phase.Knows k db) (hle : k ≤ k') (hlast : k' ≤ CURRENT_SCHEMA_VERSION)
    (hcreated : db.schemaVersion.isSome → db'.schemaVersion.isSome) : phase.Knows k' db' := by
  cases phase with
  | created => exact hcreated h
  | migrating current rest =>
    obtain ⟨hsome, hcurrent, n, hn, hrest⟩ := h
    exact ⟨hcreated hsome, hcurrent.trans hle, n, hn.trans hle, hrest⟩
  | returned result =>
    cases result with
    | ok version => exact ⟨h.1, le_antisymm hlast (h.2 ▸ hle)⟩
    | error e => trivial
  | called | interrupted => trivial

theorem Written.advances (h : Written hashHex c k db) (hknows : phase.Knows k db)
    (hadvance : advance hashHex plan db phase = some (db', phase')) :
    ∃ k', k ≤ k' ∧ Written hashHex c k' db' ∧ phase'.Knows k' db' ∧
      (db.schemaVersion.isSome → db'.schemaVersion.isSome) := by
  cases phase with
  | called =>
    obtain ⟨rfl, rfl⟩ := Prod.mk.inj (Option.some.inj hadvance)
    exact ⟨k, le_refl k, h.createVersionTable, rfl, fun _ => rfl⟩
  | created =>
    simp only [advance, h.reads hknows] at hadvance
    rw [if_neg (not_lt.mpr h.range.2)] at hadvance
    obtain ⟨rfl, rfl⟩ := Prod.mk.inj (Option.some.inj hadvance)
    exact ⟨k, le_refl k, h, ⟨hknows, le_refl k, 0, h.range.1, rfl⟩, id⟩
  | migrating current rest =>
    obtain ⟨hcreated, hcurrent, n, hn, hrest⟩ := hknows
    cases rest with
    | nil =>
      obtain ⟨rfl, rfl⟩ := Prod.mk.inj (Option.some.inj hadvance)
      exact ⟨k, le_refl k, h, ⟨rfl, le_antisymm h.range.2 ((drop_migrations_nil hrest.symm).trans hn)⟩, id⟩
    | cons target rest =>
      obtain ⟨htarget, hrest', hmem, hlast⟩ := drop_migrations hrest.symm
      simp only [advance] at hadvance
      by_cases htaken : target ≤ k
      · have hstale : ∃ result : Phase, result.Knows k db ∧ some (db, result) = some (db', phase') := by
          split at hadvance
          · exact ⟨.migrating current rest, ⟨hcreated, hcurrent, n + 1, by omega, hrest'⟩, hadvance⟩
          · obtain ⟨e, he⟩ := h.refuses plan hmem htaken
            rw [he] at hadvance
            exact ⟨.returned (.error e), trivial, hadvance⟩
        obtain ⟨result, hknows, heq⟩ := hstale
        obtain ⟨rfl, rfl⟩ := Prod.mk.inj (Option.some.inj heq)
        exact ⟨k, le_refl k, h, hknows, id⟩
      · obtain rfl : k = n := by omega
        obtain ⟨tx, hmigrate, hwritten, hcreated'⟩ := h.migrates plan hcreated (by omega)
        rw [if_neg (by omega), htarget, hmigrate] at hadvance
        obtain ⟨rfl, rfl⟩ := Prod.mk.inj (Option.some.inj hadvance)
        exact ⟨n + 1, by omega, hwritten, ⟨hcreated', by omega, n + 1, by omega, hrest'⟩, fun _ => hcreated'⟩
  | returned result => contradiction
  | interrupted => contradiction

/-- The content is there in some version, and each call knows no more than is so. -/
def Kept (hashHex : HashHex) (c : Content) (s : Migrations) : Prop :=
  ∃ k, Written hashHex c k s.db ∧ ∀ phase ∈ s.calls, phase.Knows k s.db

theorem Kept.step (h : Kept hashHex c s) (hstep : s.step hashHex a = some s') : Kept hashHex c s' := by
  obtain ⟨k, hwritten, hcalls⟩ := h
  cases a with
  | call =>
    obtain rfl := Option.some.inj hstep
    exact ⟨k, hwritten, List.forall_mem_append.mpr ⟨hcalls, List.forall_mem_singleton.mpr trivial⟩⟩
  | interrupt i =>
    obtain rfl := Option.some.inj hstep
    refine ⟨k, hwritten, fun phase hphase => ?_⟩
    obtain hphase | rfl := List.mem_or_eq_of_mem_set hphase
    · exact hcalls phase hphase
    · trivial
  | next i plan =>
    obtain ⟨⟨db', phase'⟩, hadvance, rfl⟩ := Option.map_eq_some_iff.mp hstep
    obtain ⟨phase, hphase, hadvance⟩ := Option.bind_eq_some_iff.mp hadvance
    obtain ⟨k', hle, hwritten', hknows, hcreated⟩ := hwritten.advances (hcalls phase (List.mem_of_getElem? hphase)) hadvance
    refine ⟨k', hwritten', fun p hp => ?_⟩
    obtain hp | rfl := List.mem_or_eq_of_mem_set hp
    · exact (hcalls p hp).mono hle hwritten'.range.2 hcreated
    · exact hknows

/-- What a call can come to with a version that is too new. -/
def Phase.Refused : Phase → Prop
  | .called | .created | .returned (.error _) | .interrupted => True
  | .migrating _ _ | .returned (.ok _) => False

theorem Newer.step (h : Newer s.db) (hcalls : ∀ phase ∈ s.calls, phase.Refused) (hstep : s.step hashHex a = some s') :
    s'.db = s.db ∧ ∀ phase ∈ s'.calls, phase.Refused := by
  cases a with
  | call =>
    obtain rfl := Option.some.inj hstep
    exact ⟨rfl, List.forall_mem_append.mpr ⟨hcalls, List.forall_mem_singleton.mpr trivial⟩⟩
  | interrupt i =>
    obtain rfl := Option.some.inj hstep
    refine ⟨rfl, fun phase hphase => ?_⟩
    obtain hphase | rfl := List.mem_or_eq_of_mem_set hphase
    · exact hcalls phase hphase
    · trivial
  | next i plan =>
    obtain ⟨⟨db', phase'⟩, hadvance, rfl⟩ := Option.map_eq_some_iff.mp hstep
    obtain ⟨phase, hphase, hadvance⟩ := Option.bind_eq_some_iff.mp hadvance
    have hrefused := hcalls phase (List.mem_of_getElem? hphase)
    suffices hnext : db' = s.db ∧ phase'.Refused by
      refine ⟨hnext.1, fun p hp => ?_⟩
      obtain hp | rfl := List.mem_or_eq_of_mem_set hp
      · exact hcalls p hp
      · exact hnext.2
    obtain ⟨version, hversion, hnewer⟩ := h
    cases phase with
    | called =>
      obtain ⟨rfl, rfl⟩ := Prod.mk.inj (Option.some.inj hadvance)
      exact ⟨createVersionTable_of_some hversion, trivial⟩
    | created =>
      simp only [advance] at hadvance
      split at hadvance
      · obtain ⟨rfl, rfl⟩ := Prod.mk.inj (Option.some.inj hadvance)
        exact ⟨rfl, trivial⟩
      · next current hread =>
        obtain rfl : current = version := by
          simp only [readVersion, hversion, visit_singleton, List.head?_cons] at hread
          split at hread
          · exact (Except.ok.inj hread).symm
          · contradiction
        rw [if_pos hnewer] at hadvance
        obtain ⟨rfl, rfl⟩ := Prod.mk.inj (Option.some.inj hadvance)
        exact ⟨rfl, trivial⟩
    | migrating current rest => exact hrefused.elim
    | returned result => contradiction
    | interrupted => contradiction

section

variable (hphase : s.calls[i]? = some phase)
include hphase

theorem step_next (hadvance : advance hashHex plan s.db phase = some (db', phase')) :
    s.step hashHex (.next i plan) = some ⟨db', s.calls.set i phase'⟩ := by
  simp only [step, hphase, Option.bind_some, hadvance, Option.map_some]

theorem exec_next {dbLast : Database}
    (hadvance : advance hashHex plan s.db phase = some (db', phase'))
    (hrest : (s.calls.set i phase')[i]? = some phase' → ∃ n, exec (step hashHex) ⟨db', s.calls.set i phase'⟩
      (List.replicate n (.next i plan)) = some ⟨dbLast, (s.calls.set i phase').set i last⟩) :
    ∃ n, exec (step hashHex) s (List.replicate n (.next i plan)) = some ⟨dbLast, s.calls.set i last⟩ := by
  obtain ⟨hlt, -⟩ := List.getElem?_eq_some_iff.mp hphase
  obtain ⟨n, hn⟩ := hrest (List.getElem?_set_self hlt)
  refine ⟨n + 1, ?_⟩
  rw [List.replicate_succ, exec, step_next hphase hadvance, Option.bind_some, hn, List.set_set]

theorem exec_last (hadvance : advance hashHex plan s.db phase = some (db', last)) :
    ∃ n, exec (step hashHex) s (List.replicate n (.next i plan)) = some ⟨db', s.calls.set i last⟩ :=
  ⟨1, by rw [List.replicate_one, exec, step_next hphase hadvance]; rfl⟩

end

theorem exec_migrate {current : Int} {rest : List Int} (hphase : s.calls[i]? = some (.migrating current rest)) :
    ∃ n, exec (step hashHex) s (List.replicate n (.next i plan)) =
      some ⟨(migrate hashHex plan current rest s.db).2,
        s.calls.set i (.returned (migrate hashHex plan current rest s.db).1)⟩ := by
  induction rest generalizing s with
  | nil => exact exec_last hphase rfl
  | cons target rest ih =>
    rw [migrate]
    by_cases hskip : current ≥ target
    · rw [if_pos hskip]
      exact exec_next hphase (if_pos hskip) (ih (s := ⟨_, _⟩))
    · rw [if_neg hskip]
      cases hto : migrateTo hashHex plan target s.db with
      | ok tx =>
        have hadvance : advance hashHex plan s.db (.migrating current (target :: rest)) =
          some (tx, .migrating current rest) := by
          simp only [advance, if_neg hskip, hto]
        exact exec_next hphase hadvance (ih (s := ⟨_, _⟩))
      | error e =>
        have hadvance : advance hashHex plan s.db (.migrating current (target :: rest)) =
          some (s.db, .returned (.error e)) := by
          simp only [advance, if_neg hskip, hto]
        exact exec_last hphase hadvance

theorem exec_run (hcall : s.calls[i]? = some .called) (plan : Planner) :
    ∃ n, exec (step hashHex) s (List.replicate n (.next i plan)) =
      some ⟨(run hashHex plan s.db).2, s.calls.set i (.returned (run hashHex plan s.db).1)⟩ := by
  refine exec_next hcall rfl fun hcreated => ?_
  simp only [run]
  cases hread : readVersion plan s.db.createVersionTable with
  | error e =>
    have hadvance : advance hashHex plan s.db.createVersionTable .created =
      some (s.db.createVersionTable, .returned (.error e)) := by
      simp only [advance, hread]
    exact exec_last hcreated hadvance
  | ok current =>
    by_cases hnewer : current > CURRENT_SCHEMA_VERSION
    · have hadvance : advance hashHex plan s.db.createVersionTable .created =
          some (s.db.createVersionTable, .returned (.error (.schemaTooNew current CURRENT_SCHEMA_VERSION))) := by
        simp only [advance, hread, if_pos hnewer]
      simp only [if_pos hnewer]
      exact exec_last hcreated hadvance
    · have hadvance : advance hashHex plan s.db.createVersionTable .created =
          some (s.db.createVersionTable, .migrating current MIGRATIONS) := by
        simp only [advance, hread, if_neg hnewer]
      simp only [if_neg hnewer]
      exact exec_next hcreated hadvance (exec_migrate (s := ⟨_, _⟩))

end Runs

/-- Whatever calls of `run` there have been, interrupted or beside each other, a call that returned has
left the content at the current version, and so does the next that is made; a database of a version to
come is left as it is. -/
theorem migrations_preserve (hashHex : HashHex) :
    (∀ c version db, Written hashHex c version db → ∀ acts s, exec (step hashHex) ⟨db, []⟩ acts = some s →
      (∀ version, .returned (.ok version) ∈ s.calls → version = CURRENT_SCHEMA_VERSION ∧ Migrated hashHex c s.db) ∧
      ∀ plan, ∃ db', run hashHex plan s.db = (.ok CURRENT_SCHEMA_VERSION, db') ∧ Migrated hashHex c db') ∧
    ∀ db, Newer db → ∀ acts s, exec (step hashHex) ⟨db, []⟩ acts = some s →
      s.db = db ∧ (∀ version, .returned (.ok version) ∉ s.calls) ∧ ∀ plan, ∃ e, run hashHex plan s.db = (.error e, db) := by
  refine ⟨fun c version db hwritten acts s hexec => ?_, fun db hnewer acts s hexec => ?_⟩
  · have hstart : Kept hashHex c ⟨db, []⟩ := ⟨version, hwritten, nofun⟩
    obtain ⟨k, hk, hcalls⟩ := exec_invariant (fun _ _ _ h hstep => h.step hstep) hexec hstart
    refine ⟨fun version hreturned => ?_, fun plan => ?_⟩
    · obtain ⟨rfl, rfl⟩ := hcalls _ hreturned
      exact ⟨rfl, hk.migrated⟩
    · obtain ⟨db', hrun, hdone⟩ := hk.run_eq plan
      exact ⟨db', hrun, hdone.migrated⟩
  · have hrun : s.db = db ∧ ∀ phase ∈ s.calls, phase.Refused := by
      refine exec_invariant (I := fun s => s.db = db ∧ ∀ phase ∈ s.calls,
        phase.Refused) (fun s a s' h hstep => ?_) hexec ⟨rfl, nofun⟩
      obtain ⟨hsame, hcalls⟩ := Newer.step (h.1.symm ▸ hnewer) h.2 hstep
      exact ⟨hsame.trans h.1, hcalls⟩
    obtain ⟨rfl, hcalls⟩ := hrun
    obtain ⟨version, hversion, hnew⟩ := hnewer
    exact ⟨rfl, fun version hin => hcalls _ hin, fun plan => ⟨_, run_newer hversion hnew⟩⟩

/-- Two realms with a user each, written at version 1. -/
def legacyContent : Content where
  realms := [⟨1, "smiths.local".toList⟩, ⟨2, "other.example".toList⟩]
  users := [⟨7, 1, "alice".toList, "pw-a".toList⟩, ⟨9, 2, "bob".toList, "pw-b".toList⟩]
  contacts := [⟨1, "sip:alice@smiths.local".toList, "sip:alice@192.0.2.10".toList, 3600⟩]
  cdr := []
  kv := []
  realmIds := by decide
  realmNames := by decide
  userIds := by decide
  usernames := by decide
  references := by decide

/-- What it was at version 1. -/
def legacyDatabase : Database where
  schemaVersion := some [1]
  realms := some legacyContent.realms
  users := some (.plain legacyContent.users)
  contacts := some legacyContent.contacts

/-- The call is interrupted before its last step, the next one is not, and a third is overtaken by it. -/
def interruptedRun : List MigrationAction :=
  let next (i : Nat) : MigrationAction := .next i fun n => Equiv.refl (Fin n)
  [.call, next 0, next 0, next 0, next 0, .interrupt 0, .call, next 1, next 1, .call, next 2,
    next 2, next 1, next 1, next 1, next 2,
    next 1, next 2, next 2]

theorem migrations_preserve_interruptedRun : ∃ s, exec (step fun _ bytes => bytes.map fun b => Char.ofNat b.toNat)
    ⟨legacyDatabase, []⟩ interruptedRun = some s ∧ .returned (.ok 3) ∈ s.calls ∧
    Migrated (fun _ bytes => bytes.map fun b => Char.ofNat b.toNat) legacyContent s.db := by
  obtain ⟨s, hexec⟩ := Option.isSome_iff_exists.mp (by decide +kernel :
    (exec (step fun _ bytes => bytes.map fun b => Char.ofNat b.toNat) ⟨legacyDatabase, []⟩ interruptedRun).isSome = true)
  have hview : (exec (step fun _ bytes => bytes.map fun b => Char.ofNat b.toNat) ⟨legacyDatabase,
    []⟩ interruptedRun).map (·.calls) =
      some [.interrupted, .returned (.ok 3), .returned (.error (.engine .noSuchColumn))] := by
    decide +kernel
  rw [hexec, Option.map_some, Option.some.injEq] at hview
  have hreturned : .returned (.ok 3) ∈ s.calls := hview ▸ List.mem_cons_of_mem _ List.mem_cons_self
  exact ⟨s, hexec, hreturned, (((migrations_preserve _).1 legacyContent 1 legacyDatabase
    (.one rfl rfl) interruptedRun s hexec).1 3 hreturned).2⟩

end SmithsNet.Auth
