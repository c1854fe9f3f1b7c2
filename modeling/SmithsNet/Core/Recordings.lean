import Mathlib
import SmithsNet.Lib.Exec
import SmithsNet.Lib.Hex
import SmithsNet.Lib.KeyMap
import SmithsNet.Lib.Lines
import SmithsNet.Lib.Wire

/-!
# SmithsNet.Core.Recordings

The recordings on disk (`FsRecordingStore` of `smiths-core/src/storage.rs`): two files for a
call, its audio and a `.cid` file with its id, under a name made of the id.

Every operation on a file takes effect, fails, or is the one the process dies in; a call of
the store is interrupted or fails with it.  `put` keeps to the rule its comment states, that
no listed id is without audio.  `delete` and `prune_older_than` remove the audio first and
let the removal of the `.cid` file fail, or are interrupted before it.
`recordings_right_iff`: the store is right along a run exactly when no listed id loses its
audio in this way, and none stays listed behind a `delete` that succeeds.
-/

namespace SmithsNet.Recordings

open Lib AList

/-! ## files -/

/-- What becomes of an operation on a file. -/
inductive Fate
  | done
  | fails
  /-- The process dies before it takes effect. -/
  | crash
  deriving DecidableEq

/-- How far the operations of a call have come. -/
inductive Attempt
  | ok
  | err
  | crashed
  deriving DecidableEq

structure File where
  bytes : Bytes
  mtime : Int

/-- The directory: files by their names. -/
abbrev Disk := KeyMap Text File

/-- Operations one after the other, up to the first that fails. -/
def attempt : List ((Disk → Disk) × Fate) → Disk → Attempt × Disk
  | [], d => (.ok, d)
  | (effect, .done) :: effects, d => attempt effects (effect d)
  | (_, .fails) :: _, d => (.err, d)
  | (_, .crash) :: _, d => (.crashed, d)

/-- `file_stem` and `extension` of a file name. -/
def splitName (name : Text) : Option (Text × Text) :=
  match splitOnceBy (· == '.') name.reverse with
  | some (ext, stem) => if stem = [] then none else some (stem.reverse, ext.reverse)
  | none => none

def extension (name : Text) : Option Text := (splitName name).map Prod.snd

/-- `"wav"` -/
def wav : Text := ['w', 'a', 'v']

/-- `"cid"` -/
def cid : Text := ['c', 'i', 'd']

/-- `"tmp"` -/
def tmp : Text := ['t', 'm', 'p']

theorem splitName_append {stem ext : Text} (hstem : stem ≠ []) (hext : '.' ∉ ext) :
    splitName (stem ++ '.' :: ext) = some (stem, ext) := by
  have hplain : ∀ c ∈ ext.reverse, (c == '.') = false := by
    intro c hc
    have hne : c ≠ '.' := fun hdot => hext (hdot ▸ List.mem_reverse.mp hc)
    simpa using hne
  have hreverse : (stem ++ '.' :: ext).reverse = ext.reverse ++ '.' :: stem.reverse := by simp
  unfold splitName
  rw [hreverse, splitOnceBy_append hplain rfl]
  simp [hstem]

theorem eq_of_splitName {name stem ext : Text} (h : splitName name = some (stem, ext)) :
    name = stem ++ '.' :: ext := by
  unfold splitName at h
  split at h
  · next ext' stem' hsplit =>
    split at h
    · contradiction
    · obtain ⟨c, hc, hname, -⟩ := splitOnceBy_eq_some hsplit
      obtain ⟨rfl, rfl⟩ := Prod.mk.inj (Option.some.inj h)
      have hback := congrArg List.reverse hname
      rw [eq_of_beq hc, List.reverse_reverse] at hback
      simpa using hback
  · contradiction

theorem dot_not_mem_wav : '.' ∉ wav := by decide

theorem dot_not_mem_cid : '.' ∉ cid := by decide

/-- `hex::encode`, and what the store relies on. -/
class HexEncode where
  encode : Bytes → Text
  nil : encode [] = []
  inj {a b : Bytes} (h : encode a = encode b) : a = b

section

variable [HexEncode]

def hexKey (callId : Text) : Text := HexEncode.encode (toUtf8 callId)

def blobPath (callId : Text) : Text := hexKey callId ++ '.' :: wav

def metaPath (callId : Text) : Text := hexKey callId ++ '.' :: cid

/-! ## writing -/

/-- What decides how a write goes: the name of the temporary file, the time, and the fate of
each operation. -/
structure WriteLuck where
  pid : Nat
  seq : Nat
  now : Int
  create : Fate
  /-- Writes of part of the bytes. -/
  parts : List (Nat × Fate)
  write : Fate
  sync : Fate
  rename : Fate
  cleanup : Fate

/-- `{file_name}.{pid}.{seq}.tmp` -/
def tmpPath (path : Text) (pid seq : Nat) : Text :=
  path ++ '.' :: (showNat pid ++ '.' :: (showNat seq ++ '.' :: tmp))

/-- The operations on the temporary file. -/
def scratchWork (tmpFile : Text) (bytes : Bytes) (luck : WriteLuck) : List ((Disk → Disk) × Fate) :=
  let store (bytes : Bytes) (d : Disk) : Disk := d.insert tmpFile ⟨bytes, luck.now⟩
  (store [], luck.create) :: (luck.parts.map fun (n, fate) => (store (bytes.take n), fate)) ++
    [(store bytes, luck.write), (id, luck.sync)]

def writeAtomic (path : Text) (bytes : Bytes) (luck : WriteLuck) (d : Disk) : Attempt × Disk :=
  let tmpFile := tmpPath path luck.pid luck.seq
  let rename := fun d : Disk => (d.erase tmpFile).insert path ⟨bytes, luck.now⟩
  match attempt (scratchWork tmpFile bytes luck ++ [(rename, luck.rename)]) d with
  | (.err, d) =>
    match luck.cleanup with
    | .done => (.err, d.erase tmpFile)
    | .fails => (.err, d)
    | .crash => (.crashed, d)
  | result => result

/-! ## the store -/

inductive StorageError
  | invalid (reason : Text)
  | notFound (callId : Text)
  | backend
  deriving DecidableEq

/-- What a call returns; `none` when it is interrupted. -/
abbrev Reply (α : Type) := Option (Except StorageError α)

def replyOf : Attempt → Reply Unit
  | .ok => some (.ok ())
  | .err => some (.error .backend)
  | .crashed => none

def put (callId : Text) (audio : Bytes) (blobLuck metaLuck : WriteLuck) (d : Disk) : Reply Unit × Disk :=
  if callId = [] then (some (.error (.invalid "call_id must not be empty".toList)), d)
  else
    match writeAtomic (blobPath callId) audio blobLuck d with
    | (.ok, d) =>
      let (result, d) := writeAtomic (metaPath callId) (toUtf8 callId) metaLuck d
      (replyOf result, d)
    | (result, d) => (replyOf result, d)

/-- `read` of a file that is there succeeds. -/
def get (callId : Text) (d : Disk) : Except StorageError Bytes :=
  match d.lookup (blobPath callId) with
  | some file => .ok file.bytes
  | none => .error (.notFound callId)

structure DeleteLuck where
  blobExists : Fate
  blobUnlink : Fate
  metaExists : Fate
  metaUnlink : Fate

/-- The `.cid` file is removed if it is there. -/
def deleteMeta (callId : Text) (luck : DeleteLuck) (d : Disk) : Option Disk :=
  match luck.metaExists with
  | .crash => none
  -- `exists` is `false` where it fails
  | .fails => some d
  | .done =>
    if metaPath callId ∈ d then
      match luck.metaUnlink with
      | .crash => none
      | .fails => some d
      | .done => some (d.erase (metaPath callId))
    else some d

def delete (callId : Text) (luck : DeleteLuck) (d : Disk) : Reply Bool × Disk :=
  let finish (hadBlob : Bool) (d : Disk) : Reply Bool × Disk :=
    match deleteMeta callId luck d with
    | some d => (some (.ok hadBlob), d)
    | none => (none, d)
  match luck.blobExists with
  | .crash => (none, d)
  | .fails => finish false d
  | .done =>
    if blobPath callId ∈ d then
      match luck.blobUnlink with
      | .crash => (none, d)
      | .fails => (some (.error .backend), d)
      | .done => finish true (d.erase (blobPath callId))
    else finish false d

/-- What `read_dir` and reading the files of it come to. -/
structure ReadLuck where
  opens : Bool
  reads : Text → Bool

/-- The ids in the `.cid` files that can be read. -/
def listedIds (reads : Text → Bool) (d : Disk) : List Text :=
  d.entries.filterMap fun e => if extension e.1 = some cid ∧ reads e.1 = true then fromUtf8 e.2.bytes else none

def list (luck : ReadLuck) (d : Disk) : Except StorageError (List Text) :=
  if luck.opens then .ok (listedIds luck.reads d).mergeSort else .error .backend

structure SweepLuck where
  metadata : Fate
  modified : Fate
  blobUnlink : Fate
  metaUnlink : Fate

/-- Removing a file, whatever comes of it; `none` when the process dies. -/
def removeFile (name : Text) (fate : Fate) (d : Disk) : Option Disk :=
  match fate with
  | .done => some (d.erase name)
  | .fails => some d
  | .crash => none

/-- One round of `prune_older_than`: whether the process lives on, and what it counts. -/
def sweepEntry (cutoff : Int) (name : Text) (luck : SweepLuck) (d : Disk) : Option Nat × Disk :=
  match splitName name with
  | none => (some 0, d)
  | some (stem, ext) =>
    if ext ≠ wav then (some 0, d)
    else
      match luck.metadata, d.lookup name with
      | .crash, _ => (none, d)
      | .fails, _ | _, none => (some 0, d)
      | .done, some file =>
        match luck.modified with
        | .crash => (none, d)
        | .fails => (some 0, d)
        | .done =>
          if file.mtime < cutoff then
            match removeFile name luck.blobUnlink d with
            | none => (none, d)
            | some d =>
              match removeFile (stem ++ '.' :: cid) luck.metaUnlink d with
              | none => (none, d)
              | some d => (some 1, d)
          else (some 0, d)

/-- The rounds over the entries, in the order the directory is read in. -/
def sweep (cutoff : Int) : List (Text × SweepLuck) → Nat → Disk → Reply Nat × Disk
  | [], removed, d => (some (.ok removed), d)
  | (name, luck) :: entries, removed, d =>
    match sweepEntry cutoff name luck d with
    | (some n, d) => sweep cutoff entries (removed + n) d
    | (none, d) => (none, d)

/-- `checked_sub` is of a clock that counts seconds in 64 bits; `entries` is what `read_dir`
gives. -/
def pruneOlderThan (now maxAge : Int) (entries : Option (List (Text × SweepLuck))) (d : Disk) : Reply Nat × Disk :=
  if now - maxAge < -(2 ^ 63) then (some (.error (.invalid "max_age overflows the clock".toList)), d)
  else
    match entries with
    | none => (some (.error .backend), d)
    | some entries => sweep (now - maxAge) entries 0 d

/-! ## names -/

theorem hexKey_inj {a b : Text} (h : hexKey a = hexKey b) : a = b := toUtf8_inj (HexEncode.inj h)

theorem hexKey_nil : hexKey [] = [] := HexEncode.nil

theorem hexKey_ne_nil {callId : Text} (h : callId ≠ []) : hexKey callId ≠ [] := fun hnil =>
  h (hexKey_inj (hnil.trans hexKey_nil.symm))

theorem blobPath_inj {a b : Text} (h : blobPath a = blobPath b) : a = b := hexKey_inj (List.append_cancel_right h)

theorem metaPath_inj {a b : Text} (h : metaPath a = metaPath b) : a = b := hexKey_inj (List.append_cancel_right h)

theorem blobPath_ne_metaPath (a b : Text) : blobPath a ≠ metaPath b := by
  intro h
  have hends := (List.append_inj' h rfl).2
  exact absurd hends (by decide)

theorem splitName_blobPath {callId : Text} (h : callId ≠ []) : splitName (blobPath callId) = some (hexKey callId, wav) :=
  splitName_append (hexKey_ne_nil h) dot_not_mem_wav

theorem extension_blobPath {callId : Text} (h : callId ≠ []) : extension (blobPath callId) = some wav := by
  rw [extension, splitName_blobPath h]
  rfl

theorem extension_metaPath {callId : Text} (h : callId ≠ []) : extension (metaPath callId) = some cid := by
  rw [extension, metaPath, splitName_append (hexKey_ne_nil h) dot_not_mem_cid]
  rfl

theorem extension_blobPath_ne_tmp (callId : Text) : extension (blobPath callId) ≠ some tmp := by
  by_cases hnil : callId = []
  · rw [hnil, blobPath, hexKey_nil]
    decide
  · rw [extension_blobPath hnil]
    decide

theorem extension_metaPath_ne_tmp (callId : Text) : extension (metaPath callId) ≠ some tmp := by
  by_cases hnil : callId = []
  · rw [hnil, metaPath, hexKey_nil]
    decide
  · rw [extension_metaPath hnil]
    decide

omit [HexEncode] in
theorem extension_tmpPath (path : Text) (pid seq : Nat) : extension (tmpPath path pid seq) = some tmp := by
  have hsplit : tmpPath path pid seq = (path ++ '.' :: (showNat pid ++ '.' :: showNat seq)) ++ '.' :: tmp := by
    simp [tmpPath]
  rw [extension, hsplit, splitName_append (by simp) (by decide)]
  rfl

/-! ## what operations on files leave -/

section files

omit [HexEncode]

variable {d d' : Disk} {name : Text}

theorem lookup_attempt {effects : List ((Disk → Disk) × Fate)}
    (h : ∀ e ∈ effects, ∀ d : Disk, (e.1 d).lookup name = d.lookup name) (d : Disk) :
    (attempt effects d).2.lookup name = d.lookup name := by
  induction effects generalizing d with
  | nil => rfl
  | cons e effects ih =>
    obtain ⟨he, hrest⟩ := List.forall_mem_cons.mp h
    obtain ⟨effect, fate⟩ := e
    cases fate with
    | done => exact (ih hrest (effect d)).trans (he d)
    | fails => rfl
    | crash => rfl

theorem attempt_append (effects : List ((Disk → Disk) × Fate)) (last : Disk → Disk) (fate : Fate) (d : Disk) :
    attempt (effects ++ [(last, fate)]) d =
      match attempt effects d with
      | (.ok, d) => attempt [(last, fate)] d
      | result => result := by
  induction effects generalizing d with
  | nil => rfl
  | cons e effects ih =>
    obtain ⟨effect, fate'⟩ := e
    cases fate' with
    | done => exact ih (effect d)
    | fails => rfl
    | crash => rfl

/-- What an atomic write comes to: nothing, or the file is there with its bytes; temporary
files apart. -/
structure Wrote (path : Text) (bytes : Bytes) (d : Disk) (result : Attempt × Disk) : Prop where
  others : ∀ name, name ≠ path → extension name ≠ some tmp → result.2.lookup name = d.lookup name
  ok : result.1 = .ok → (result.2.lookup path).map File.bytes = some bytes
  not_ok : result.1 ≠ .ok → result.2.lookup path = d.lookup path

theorem lookup_scratchWork {tmpFile : Text} (hne : name ≠ tmpFile) (bytes : Bytes) (luck : WriteLuck) :
    ∀ e ∈ scratchWork tmpFile bytes luck, ∀ d : Disk, (e.1 d).lookup name = d.lookup name := by
  intro e he d
  simp only [scratchWork, List.cons_append, List.mem_cons, List.mem_append, List.mem_map, List.not_mem_nil,
    or_false] at he
  obtain rfl | ⟨⟨n, fate⟩, -, rfl⟩ | rfl | rfl := he
  · exact lookup_insert_ne hne
  · exact lookup_insert_ne hne
  · exact lookup_insert_ne hne
  · rfl

theorem wrote_nothing {path : Text} {bytes : Bytes} {result : Attempt × Disk} (hpath : extension path ≠ some tmp)
    (hresult : result.1 ≠ .ok) (hsame : ∀ name, extension name ≠ some tmp → result.2.lookup name = d.lookup name) :
    Wrote path bytes d result :=
  ⟨fun name _ htmp => hsame name htmp, fun hok => absurd hok hresult, fun _ => hsame path hpath⟩

theorem wrote_writeAtomic {path : Text} (hpath : extension path ≠ some tmp) (bytes : Bytes) (luck : WriteLuck)
    (d : Disk) : Wrote path bytes d (writeAtomic path bytes luck d) := by
  have hne : ∀ name, extension name ≠ some tmp → name ≠ tmpPath path luck.pid luck.seq :=
    fun name hname heq => hname (heq ▸ extension_tmpPath path luck.pid luck.seq)
  have hscratch : ∀ name, extension name ≠ some tmp →
      (attempt (scratchWork (tmpPath path luck.pid luck.seq) bytes luck) d).2.lookup name = d.lookup name :=
    fun name hname => lookup_attempt (lookup_scratchWork (hne name hname) bytes luck) d
  have herase : ∀ (name) (d : Disk), extension name ≠ some tmp →
      (d.erase (tmpPath path luck.pid luck.seq)).lookup name = d.lookup name :=
    fun name d hname => lookup_erase_ne (hne name hname)
  unfold writeAtomic
  simp only
  rw [attempt_append]
  generalize attempt (scratchWork (tmpPath path luck.pid luck.seq) bytes luck) d = scratch at hscratch
  obtain ⟨result, d₁⟩ := scratch
  have hcleaned : Wrote path bytes d (match luck.cleanup with
      | .done => (.err, d₁.erase (tmpPath path luck.pid luck.seq))
      | .fails => (.err, d₁)
      | .crash => (.crashed, d₁)) := by
    cases luck.cleanup with
    | done => exact wrote_nothing hpath nofun fun name htmp => (herase name d₁ htmp).trans (hscratch name htmp)
    | fails => exact wrote_nothing hpath nofun hscratch
    | crash => exact wrote_nothing hpath nofun hscratch
  cases result with
  | err => exact hcleaned
  | crashed => exact wrote_nothing hpath nofun hscratch
  | ok =>
    cases luck.rename with
    | fails => exact hcleaned
    | crash => exact wrote_nothing hpath nofun hscratch
    | done =>
      refine ⟨fun name hname htmp => ?_, fun _ => ?_, fun hnot => absurd rfl hnot⟩
      · show ((d₁.erase _).insert path _).lookup name = d.lookup name
        rw [lookup_insert_ne hname, herase name d₁ htmp, hscratch name htmp]
      · show (((d₁.erase _).insert path _).lookup path).map File.bytes = some bytes
        rw [lookup_insert]
        rfl

end files

/-! ## calls, and what is known of them -/

/-- What the calls so far have done. -/
structure Ledger where
  /-- The bytes of the last `put` whose rename of the audio took effect. -/
  audio : Text → Option Bytes
  /-- A `delete` has succeeded, and no `put` has stored audio since. -/
  deleted : Text → Bool

structure State where
  disk : Disk
  ledger : Ledger

open State

def State.new : State := ⟨∅, ⟨fun _ => none, fun _ => false⟩⟩

inductive Call
  | put (callId : Text) (audio : Bytes) (blobLuck metaLuck : WriteLuck)
  | get (callId : Text)
  | delete (callId : Text) (luck : DeleteLuck)
  | list (luck : ReadLuck)
  | prune (now maxAge : Int) (entries : Option (List (Text × SweepLuck)))

/-- The call it is about, if it is about one. -/
def Call.callId : Call → Option Text
  | .put callId _ _ _ | .get callId | .delete callId _ => some callId
  | .list _ | .prune _ _ _ => none

/-- The directory after a call. -/
def Call.disk (d : Disk) : Call → Disk
  | .put callId audio blobLuck metaLuck => (Recordings.put callId audio blobLuck metaLuck d).2
  | .delete callId luck => (Recordings.delete callId luck d).2
  | .prune now maxAge entries => (pruneOlderThan now maxAge entries d).2
  | .get _ | .list _ => d

def Call.ledger (s : State) : Call → Ledger
  | .put callId audio blobLuck _ =>
    if callId ≠ [] ∧ (writeAtomic (blobPath callId) audio blobLuck s.disk).1 = .ok then
      ⟨Function.update s.ledger.audio callId (some audio), Function.update s.ledger.deleted callId false⟩
    else s.ledger
  | .delete callId luck =>
    match (Recordings.delete callId luck s.disk).1 with
    | some (.ok _) => { s.ledger with deleted := Function.update s.ledger.deleted callId true }
    | _ => s.ledger
  | _ => s.ledger

def State.step (s : State) (c : Call) : Option State := some ⟨c.disk s.disk, c.ledger s⟩

/-- The store is right: what is listed can be read, and is what was stored last; and what was
deleted is not listed. -/
structure State.Right (s : State) : Prop where
  audio : ∀ luck ids, list luck s.disk = .ok ids → ∀ callId ∈ ids, ∃ bytes,
    get callId s.disk = .ok bytes ∧ s.ledger.audio callId = some bytes
  deleted : ∀ luck ids, list luck s.disk = .ok ids → ∀ callId ∈ ids, s.ledger.deleted callId = false

/-- A call about one id changes neither the audio of another nor whether it is listed. -/
def State.Isolated (s : State) : Prop :=
  ∀ (c : Call) (id callId : Text), c.callId = some id → id ≠ callId →
    get callId (c.disk s.disk) = get callId s.disk ∧
      ∀ luck ids ids', list luck s.disk = .ok ids → list luck (c.disk s.disk) = .ok ids' → (callId ∈ ids' ↔ callId ∈ ids)

/-- The entry is a listed recording that is removed: then its listing is. -/
def SweepLuck.Clears (cutoff : Int) (name : Text) (luck : SweepLuck) (d : Disk) : Prop :=
  match splitName name, d.lookup name with
  | some (stem, ext), some file =>
    ext = wav ∧ luck.metadata = .done ∧ luck.modified = .done ∧ file.mtime < cutoff ∧ luck.blobUnlink = .done ∧
      stem ++ '.' :: cid ∈ d → luck.metaUnlink = .done
  | _, _ => True

instance (cutoff : Int) (name : Text) (luck : SweepLuck) (d : Disk) : Decidable (luck.Clears cutoff name d) := by
  unfold SweepLuck.Clears
  split <;> infer_instance

/-- Every round of a sweep removes a listed recording as a whole. -/
def SweepClears (cutoff : Int) : List (Text × SweepLuck) → Disk → Prop
  | [], _ => True
  | (name, luck) :: entries, d => luck.Clears cutoff name d ∧
      match sweepEntry cutoff name luck d with
      | (some _, d) => SweepClears cutoff entries d
      | (none, _) => True

instance decidableSweepClears (cutoff : Int) : ∀ entries d, Decidable (SweepClears cutoff entries d)
  | [], _ => isTrue trivial
  | (name, luck) :: entries, d =>
    match h : sweepEntry cutoff name luck d with
    | (some _, d') =>
      have := decidableSweepClears cutoff entries d'
      decidable_of_iff (luck.Clears cutoff name d ∧ SweepClears cutoff entries d') (by simp only [SweepClears, h])
    | (none, _) => decidable_of_iff (luck.Clears cutoff name d) (by simp only [SweepClears, h, and_true])

/-- The removal of a listed recording that takes effect on its audio takes effect on its `.cid`
file; and a `delete` that comes to the end does not pass over a failure to remove it. -/
def Clears (s : State) : Call → Prop
  | .delete callId luck => metaPath callId ∈ s.disk →
      (luck.blobExists = .done → luck.blobUnlink = .done → luck.metaExists = .done ∧ luck.metaUnlink = .done) ∧
      (luck.blobExists = .fails → luck.metaExists ≠ .fails ∧ (luck.metaExists = .done → luck.metaUnlink ≠ .fails))
  | .prune now maxAge entries => -(2 ^ 63) ≤ now - maxAge → SweepClears (now - maxAge) (entries.getD []) s.disk
  | _ => True

instance (s : State) : ∀ c, Decidable (Clears s c)
  | .put _ _ _ _ | .get _ | .list _ => isTrue trivial
  | .delete _ _ => inferInstanceAs (Decidable (_ → (_ → _ → _ ∧ _) ∧ (_ → _ ∧ (_ → _))))
  | .prune _ _ _ => inferInstanceAs (Decidable (_ → _))

/-! ## the invariant -/

/-- The files are audio and listings of calls, temporary files apart. -/
def Named (d : Disk) : Prop :=
  ∀ name file, d.lookup name = some file → extension name ≠ some tmp →
    ∃ callId, callId ≠ [] ∧ (name = blobPath callId ∨ name = metaPath callId ∧ file.bytes = toUtf8 callId)

/-- A listing has its audio, and what was deleted has none. -/
structure State.Kept (s : State) : Prop where
  names : Named s.disk
  audio : ∀ callId, metaPath callId ∈ s.disk → ∃ file, s.disk.lookup (blobPath callId) = some file ∧
    s.ledger.audio callId = some file.bytes
  deleted : ∀ callId, metaPath callId ∈ s.disk → s.ledger.deleted callId = false

section names

variable {d : Disk} {callId : Text}

theorem Named.listing (h : Named d) (hlisted : metaPath callId ∈ d) :
    callId ≠ [] ∧ ∃ file, d.lookup (metaPath callId) = some file ∧ file.bytes = toUtf8 callId := by
  obtain ⟨file, hlookup⟩ := Option.isSome_iff_exists.mp (AList.lookup_isSome.mpr hlisted)
  obtain ⟨callId', hne, hblob | ⟨hmeta, hbytes⟩⟩ := h _ file hlookup (extension_metaPath_ne_tmp callId)
  · exact absurd hblob.symm (blobPath_ne_metaPath callId' callId)
  · obtain rfl := metaPath_inj hmeta
    exact ⟨hne, file, hlookup, hbytes⟩

omit [HexEncode] in
theorem mem_of_list_eq_ok {luck : ReadLuck} {d : Disk} {ids : List Text} (h : list luck d = .ok ids) (callId : Text) :
    callId ∈ ids ↔ callId ∈ listedIds luck.reads d := by
  unfold list at h
  split at h
  · rw [← Except.ok.inj h]
    exact List.mem_mergeSort
  · contradiction

theorem Named.mem_listedIds (h : Named d) {reads : Text → Bool} :
    callId ∈ listedIds reads d ↔ metaPath callId ∈ d ∧ reads (metaPath callId) = true := by
  simp only [listedIds, List.mem_filterMap, Option.ite_none_right_eq_some]
  constructor
  · rintro ⟨⟨name, file⟩, hentry, ⟨hext, hreads⟩, hid⟩
    have hlookup := KeyMap.mem_entries_iff.mp hentry
    obtain ⟨callId', hne, rfl | ⟨rfl, hbytes⟩⟩ := h name file hlookup (by rw [hext]; decide)
    · rw [extension_blobPath hne] at hext
      exact absurd hext (by decide)
    · simp only [hbytes, fromUtf8_toUtf8, Option.some.injEq] at hid
      subst hid
      exact ⟨AList.lookup_isSome.mp (Option.isSome_iff_exists.mpr ⟨file, hlookup⟩), hreads⟩
  · rintro ⟨hlisted, hreads⟩
    obtain ⟨hne, file, hlookup, hbytes⟩ := h.listing hlisted
    refine ⟨⟨metaPath callId, file⟩, KeyMap.mem_entries_iff.mpr hlookup, ⟨extension_metaPath hne, hreads⟩, ?_⟩
    rw [hbytes, fromUtf8_toUtf8]

theorem Named.erase (h : Named d) (name : Text) : Named (d.erase name) := by
  intro name' file hlookup
  rw [KeyMap.lookup_erase_apply] at hlookup
  split at hlookup
  · contradiction
  · exact h name' file hlookup

end names

/-! ## how calls go -/

/-- How the removal of the `.cid` file goes. -/
inductive Unlisting (callId : Text) (luck : DeleteLuck) (d : Disk) : Reply Bool × Disk → Prop
  | died (h : luck.metaExists = .crash ∨ luck.metaExists = .done ∧ luck.metaUnlink = .crash ∧ metaPath callId ∈ d) :
      Unlisting callId luck d (none, d)
  | failed {b : Bool} (h : luck.metaExists = .fails ∨ luck.metaExists = .done ∧ luck.metaUnlink = .fails) :
      Unlisting callId luck d (some (.ok b), d)
  | absent {b : Bool} (h : metaPath callId ∉ d) : Unlisting callId luck d (some (.ok b), d)
  | removed {b : Bool} (hexists : luck.metaExists = .done) (hunlink : luck.metaUnlink = .done) :
      Unlisting callId luck d (some (.ok b), d.erase (metaPath callId))

/-- How a `delete` goes. -/
inductive Deletion (callId : Text) (luck : DeleteLuck) (d : Disk) : Reply Bool × Disk → Prop
  | nothing {reply : Reply Bool} (hreply : ∀ b, reply ≠ some (.ok b)) (hexists : luck.blobExists ≠ .fails)
      (hunlink : luck.blobExists = .done → luck.blobUnlink ≠ .done) : Deletion callId luck d (reply, d)
  | unlinked {result : Reply Bool × Disk} (hexists : luck.blobExists = .done) (hunlink : luck.blobUnlink = .done)
      (hrest : Unlisting callId luck (d.erase (blobPath callId)) result) : Deletion callId luck d result
  | passed {result : Reply Bool × Disk} (hblob : luck.blobExists = .fails ∨ blobPath callId ∉ d)
      (hrest : Unlisting callId luck d result) : Deletion callId luck d result

theorem unlisting_deleteMeta (callId : Text) (luck : DeleteLuck) (b : Bool) (d : Disk) :
    Unlisting callId luck d
      (match deleteMeta callId luck d with
      | some d => (some (.ok b), d)
      | none => (none, d)) := by
  unfold deleteMeta
  cases hexists : luck.metaExists with
  | crash => exact .died (.inl hexists)
  | fails => exact .failed (.inl hexists)
  | done =>
    by_cases hlisted : metaPath callId ∈ d
    · simp only [if_pos hlisted]
      cases hunlink : luck.metaUnlink with
      | crash => exact .died (.inr ⟨hexists, hunlink, hlisted⟩)
      | fails => exact .failed (.inr ⟨hexists, hunlink⟩)
      | done => exact .removed hexists hunlink
    · simp only [if_neg hlisted]
      exact .absent hlisted

theorem deletion_delete (callId : Text) (luck : DeleteLuck) (d : Disk) :
    Deletion callId luck d (Recordings.delete callId luck d) := by
  unfold Recordings.delete
  cases hexists : luck.blobExists with
  | crash => exact .nothing nofun (by rw [hexists]; nofun) (by rw [hexists]; nofun)
  | fails => exact .passed (.inl hexists) (unlisting_deleteMeta callId luck false d)
  | done =>
    simp only
    split
    · cases hunlink : luck.blobUnlink with
      | crash => exact .nothing nofun (by rw [hexists]; nofun) (fun _ => by rw [hunlink]; nofun)
      | fails => exact .nothing nofun (by rw [hexists]; nofun) (fun _ => by rw [hunlink]; nofun)
      | done => exact .unlinked hexists hunlink (unlisting_deleteMeta callId luck true _)
    · next habsent => exact .passed (.inr habsent) (unlisting_deleteMeta callId luck false d)

/-- The entry is audio that is to go. -/
structure Overdue (cutoff : Int) (name : Text) (luck : SweepLuck) (d : Disk) (stem : Text) : Prop where
  split : splitName name = some (stem, wav)
  metadata : luck.metadata = .done
  modified : luck.modified = .done
  old : ∃ file, d.lookup name = some file ∧ file.mtime < cutoff

/-- How a round goes. -/
inductive Swept (cutoff : Int) (name : Text) (luck : SweepLuck) (d : Disk) : Option Nat × Disk → Prop
  | passed {n : Option Nat} (h : ∀ stem, ¬ Overdue cutoff name luck d stem) : Swept cutoff name luck d (n, d)
  | died {stem : Text} (h : Overdue cutoff name luck d stem) (hblob : luck.blobUnlink = .crash) :
      Swept cutoff name luck d (none, d)
  | listing {stem : Text} {n : Option Nat} {d₁ d₂ : Disk} (h : Overdue cutoff name luck d stem)
      (hblob : luck.blobUnlink = .fails ∧ d₁ = d ∨ luck.blobUnlink = .done ∧ d₁ = d.erase name)
      (hmeta : luck.metaUnlink ≠ .done ∧ d₂ = d₁ ∨ luck.metaUnlink = .done ∧ d₂ = d₁.erase (stem ++ '.' :: cid)) :
      Swept cutoff name luck d (n, d₂)

omit [HexEncode] in
theorem swept_sweepEntry (cutoff : Int) (name : Text) (luck : SweepLuck) (d : Disk) :
    Swept cutoff name luck d (sweepEntry cutoff name luck d) := by
  unfold sweepEntry
  split
  · next hsplit => exact .passed fun stem h => by rw [h.split] at hsplit; contradiction
  · next stem ext hsplit =>
    split
    · next hext =>
      refine .passed fun stem' h => hext ?_
      rw [h.split] at hsplit
      exact (Prod.mk.inj (Option.some.inj hsplit)).2.symm
    · next hext =>
      obtain rfl := Decidable.not_not.mp hext
      split
      · next hmeta => exact .passed fun stem' h => by rw [h.metadata] at hmeta; contradiction
      · next hmeta => exact .passed fun stem' h => by rw [h.metadata] at hmeta; contradiction
      · next hnone _ _ =>
        refine .passed fun stem' h => ?_
        obtain ⟨file, hfile, -⟩ := h.old
        rw [hfile] at hnone
        contradiction
      · next file hmeta hfile =>
        cases hmodified : luck.modified with
        | crash => exact .passed fun stem' h => by rw [h.modified] at hmodified; contradiction
        | fails => exact .passed fun stem' h => by rw [h.modified] at hmodified; contradiction
        | done =>
          simp only
          split
          · next hold =>
            have hover : Overdue cutoff name luck d stem := ⟨hsplit, hmeta, hmodified, file, hfile, hold⟩
            cases hblob : luck.blobUnlink with
            | crash => exact .died hover hblob
            | fails =>
              cases hunlist : luck.metaUnlink with
              | crash => exact .listing hover (.inl ⟨hblob, rfl⟩) (.inl ⟨by rw [hunlist]; nofun, rfl⟩)
              | fails => exact .listing hover (.inl ⟨hblob, rfl⟩) (.inl ⟨by rw [hunlist]; nofun, rfl⟩)
              | done => exact .listing hover (.inl ⟨hblob, rfl⟩) (.inr ⟨hunlist, rfl⟩)
            | done =>
              cases hunlist : luck.metaUnlink with
              | crash => exact .listing hover (.inr ⟨hblob, rfl⟩) (.inl ⟨by rw [hunlist]; nofun, rfl⟩)
              | fails => exact .listing hover (.inr ⟨hblob, rfl⟩) (.inl ⟨by rw [hunlist]; nofun, rfl⟩)
              | done => exact .listing hover (.inr ⟨hblob, rfl⟩) (.inr ⟨hunlist, rfl⟩)
          · next hyoung =>
            refine .passed fun stem' h => hyoung ?_
            obtain ⟨file', hfile', hold⟩ := h.old
            rwa [Option.mem_unique hfile' hfile] at hold

section calls

variable {d : Disk} {callId : Text}

/-! ### every call keeps the names -/

theorem put_snd (callId : Text) (bytes : Bytes) (blobLuck metaLuck : WriteLuck) (d : Disk) :
    (Recordings.put callId bytes blobLuck metaLuck d).2 =
      let blob := writeAtomic (blobPath callId) bytes blobLuck d
      if callId = [] then d
      else if blob.1 = .ok then (writeAtomic (metaPath callId) (toUtf8 callId) metaLuck blob.2).2
      else blob.2 := by
  unfold Recordings.put
  simp only
  split
  · rfl
  · generalize writeAtomic (blobPath callId) bytes blobLuck d = blob
    obtain ⟨result, d₁⟩ := blob
    cases result with
    | ok => rfl
    | err => rfl
    | crashed => rfl

section

variable (h : Named d)
include h

theorem Named.wrote {path : Text} {bytes : Bytes} {result : Attempt × Disk} (hne : callId ≠ [])
    (hpath : path = blobPath callId ∨ path = metaPath callId ∧ bytes = toUtf8 callId)
    (hwrote : Wrote path bytes d result) : Named result.2 := by
  intro name file hlookup htmp
  by_cases hname : name = path
  · subst hname
    by_cases hok : result.1 = .ok
    · have hbytes := hwrote.ok hok
      rw [hlookup] at hbytes
      exact ⟨callId, hne, hpath.imp_right fun ⟨hmeta, hid⟩ => ⟨hmeta, (Option.some.inj hbytes).trans hid⟩⟩
    · exact h name file ((hwrote.not_ok hok).symm.trans hlookup) htmp
  · exact h name file ((hwrote.others name hname htmp).symm.trans hlookup) htmp

theorem Named.put (callId : Text) (bytes : Bytes) (blobLuck metaLuck : WriteLuck) :
    Named (Recordings.put callId bytes blobLuck metaLuck d).2 := by
  rw [put_snd]
  simp only
  split
  · exact h
  · next hne =>
    have hblob := h.wrote hne (.inl rfl) (wrote_writeAtomic (extension_blobPath_ne_tmp callId) bytes blobLuck d)
    split
    · exact hblob.wrote hne (.inr ⟨rfl, rfl⟩) (wrote_writeAtomic (extension_metaPath_ne_tmp callId) _ metaLuck _)
    · exact hblob

theorem Named.unlisting {luck : DeleteLuck} {result : Reply Bool × Disk}
    (hgoes : Unlisting callId luck d result) : Named result.2 := by
  cases hgoes with
  | died => exact h
  | failed => exact h
  | absent => exact h
  | removed => exact h.erase _

theorem Named.delete (callId : Text) (luck : DeleteLuck) : Named (Recordings.delete callId luck d).2 := by
  have hgoes := deletion_delete callId luck d
  generalize Recordings.delete callId luck d = result at hgoes
  cases hgoes with
  | nothing => exact h
  | unlinked hexists hunlink hrest => exact (h.erase _).unlisting hrest
  | passed hblob hrest => exact h.unlisting hrest

theorem Named.sweep (cutoff : Int) (entries : List (Text × SweepLuck)) (n : Nat) :
    Named (Recordings.sweep cutoff entries n d).2 := by
  induction entries generalizing n d with
  | nil => exact h
  | cons entry entries ih =>
    obtain ⟨name, luck⟩ := entry
    have hgoes := swept_sweepEntry cutoff name luck d
    have hround : Named (sweepEntry cutoff name luck d).2 := by
      generalize sweepEntry cutoff name luck d = round at hgoes
      cases hgoes with
      | passed => exact h
      | died => exact h
      | listing hover hblob hmeta =>
        obtain ⟨-, rfl⟩ | ⟨-, rfl⟩ := hblob <;> obtain ⟨-, rfl⟩ | ⟨-, rfl⟩ := hmeta
        · exact h
        · exact h.erase _
        · exact h.erase _
        · exact (h.erase _).erase _
    unfold Recordings.sweep
    generalize sweepEntry cutoff name luck d = round at hround
    obtain ⟨count, d₁⟩ := round
    cases count with
    | none => exact hround
    | some m => exact ih hround (n + m)

theorem Named.call (c : Call) : Named (c.disk d) := by
  cases c with
  | put callId audio blobLuck metaLuck => exact h.put callId audio blobLuck metaLuck
  | get callId => exact h
  | delete callId luck => exact h.delete callId luck
  | list luck => exact h
  | prune now maxAge entries =>
    show Named (pruneOlderThan now maxAge entries d).2
    unfold pruneOlderThan
    split
    · exact h
    · cases entries with
      | none => exact h
      | some entries => exact h.sweep _ entries 0

end

/-! ### what a call leaves -/

theorem lookup_unlisting {luck : DeleteLuck} {result : Reply Bool × Disk} {name : Text} (hname : name ≠ metaPath callId)
    (hgoes : Unlisting callId luck d result) : result.2.lookup name = d.lookup name := by
  cases hgoes with
  | died => rfl
  | failed => rfl
  | absent => rfl
  | removed => exact lookup_erase_ne hname

theorem lookup_call {c : Call} {id name : Text} (hid : c.callId = some id) (htmp : extension name ≠ some tmp)
    (hblob : name ≠ blobPath id) (hmeta : name ≠ metaPath id) (d : Disk) : (c.disk d).lookup name = d.lookup name := by
  cases c with
  | get callId => rfl
  | list luck => rfl
  | prune now maxAge entries => contradiction
  | put callId audio blobLuck metaLuck =>
    obtain rfl := Option.some.inj hid
    show (put callId audio blobLuck metaLuck d).2.lookup name = d.lookup name
    rw [put_snd]
    have hfirst := (wrote_writeAtomic (extension_blobPath_ne_tmp callId) audio blobLuck d).others name hblob htmp
    simp only
    split
    · rfl
    · split
      · exact ((wrote_writeAtomic (extension_metaPath_ne_tmp callId) _ metaLuck _).others name hmeta htmp).trans hfirst
      · exact hfirst
  | delete callId luck =>
    obtain rfl := Option.some.inj hid
    show (delete callId luck d).2.lookup name = d.lookup name
    have hgoes := deletion_delete callId luck d
    generalize delete callId luck d = result at hgoes
    cases hgoes with
    | nothing => rfl
    | unlinked hexists hunlink hrest => exact (lookup_unlisting hmeta hrest).trans (lookup_erase_ne hblob)
    | passed hexists hrest => exact lookup_unlisting hmeta hrest

theorem Named.isolated_names {s : State} (h : Named s.disk) : s.Isolated := by
  intro c id callId hid hne
  have hblob := lookup_call hid (extension_blobPath_ne_tmp callId) (fun heq => hne (blobPath_inj heq).symm)
    (blobPath_ne_metaPath _ _) s.disk
  have hmeta := lookup_call hid (extension_metaPath_ne_tmp callId) (blobPath_ne_metaPath _ _).symm
    (fun heq => hne (metaPath_inj heq).symm) s.disk
  constructor
  · rw [get, hblob, get]
  · intro luck ids ids' hlist hlist'
    rw [mem_of_list_eq_ok hlist', mem_of_list_eq_ok hlist, (h.call c).mem_listedIds, h.mem_listedIds,
      ← lookup_isSome, hmeta, lookup_isSome]

end calls

namespace State

variable {s : State}

theorem kept_new : State.new.Kept := by
  refine ⟨fun name file h => ?_, fun callId h => absurd h (notMem_empty _), fun callId h => absurd h (notMem_empty _)⟩
  rw [new, lookup_empty] at h
  contradiction

theorem Kept.right (h : s.Kept) : s.Right := by
  constructor
  · intro luck ids hlist callId hmem
    obtain ⟨file, hlookup, haudio⟩ := h.audio callId (h.names.mem_listedIds.mp ((mem_of_list_eq_ok hlist callId).mp hmem)).1
    refine ⟨file.bytes, ?_, haudio⟩
    rw [get, hlookup]
  · intro luck ids hlist callId hmem
    exact h.deleted callId (h.names.mem_listedIds.mp ((mem_of_list_eq_ok hlist callId).mp hmem)).1

/-! ### files that go -/

variable {d : Disk} {l : Ledger} {callId : Text}

section

variable (h : Kept ⟨d, l⟩)
include h

theorem Kept.erase_meta (callId : Text) : Kept ⟨d.erase (metaPath callId), l⟩ := by
  refine ⟨h.names.erase _, fun callId' hlisted => ?_, fun callId' hlisted => ?_⟩
  · obtain ⟨-, hlisted⟩ := AList.mem_erase.mp hlisted
    obtain ⟨file, hlookup, haudio⟩ := h.audio callId' hlisted
    refine ⟨file, ?_, haudio⟩
    rwa [lookup_erase_ne (blobPath_ne_metaPath callId' callId)]
  · exact h.deleted callId' (AList.mem_erase.mp hlisted).2

theorem Kept.erase_blob (hunlisted : metaPath callId ∉ d) : Kept ⟨d.erase (blobPath callId), l⟩ := by
  refine ⟨h.names.erase _, fun callId' hlisted => ?_, fun callId' hlisted => ?_⟩
  · obtain ⟨-, hlisted⟩ := AList.mem_erase.mp hlisted
    obtain ⟨file, hlookup, haudio⟩ := h.audio callId' hlisted
    refine ⟨file, ?_, haudio⟩
    have hne : blobPath callId' ≠ blobPath callId := fun heq => hunlisted (blobPath_inj heq ▸ hlisted)
    rwa [lookup_erase_ne hne]
  · exact h.deleted callId' (AList.mem_erase.mp hlisted).2

theorem Kept.erase_both (callId : Text) :
    Kept ⟨(d.erase (blobPath callId)).erase (metaPath callId), l⟩ := by
  rw [erase_erase]
  exact (h.erase_meta callId).erase_blob fun hlisted => (AList.mem_erase.mp hlisted).1 rfl

theorem Kept.delete (hunlisted : metaPath callId ∉ d) :
    Kept ⟨d, { l with deleted := Function.update l.deleted callId true }⟩ := by
  refine ⟨h.names, h.audio, fun callId' hlisted => ?_⟩
  have hne : callId' ≠ callId := fun heq => hunlisted (heq ▸ hlisted)
  show Function.update l.deleted callId true callId' = false
  rw [Function.update_of_ne hne]
  exact h.deleted callId' hlisted

end

/-- A listing whose audio is gone, or that was deleted. -/
def Stale (s : State) (callId : Text) : Prop :=
  metaPath callId ∈ s.disk ∧ (blobPath callId ∉ s.disk ∨ s.ledger.deleted callId = true)

theorem Kept.not_right (h : Kept ⟨d, l⟩) {s' : State} {callId : Text} (hstale : s'.Stale callId)
    (hsame : s'.disk.lookup (metaPath callId) = d.lookup (metaPath callId)) : ¬ s'.Right := by
  intro hright
  obtain ⟨hlisted, hwrong⟩ := hstale
  have hlisted₀ : metaPath callId ∈ d := by
    rw [← lookup_isSome, ← hsame]
    exact AList.lookup_isSome.mpr hlisted
  obtain ⟨hne, file, hlookup, hbytes⟩ := h.names.listing hlisted₀
  have hlist : list ⟨true, fun _ => true⟩ s'.disk = .ok (listedIds (fun _ => true) s'.disk).mergeSort := rfl
  have hmem : callId ∈ (listedIds (fun _ => true) s'.disk).mergeSort := by
    simp only [listedIds, List.mem_mergeSort, List.mem_filterMap, Option.ite_none_right_eq_some]
    refine ⟨⟨metaPath callId, file⟩, KeyMap.mem_entries_iff.mpr (hsame.trans hlookup), ⟨extension_metaPath hne, trivial⟩, ?_⟩
    rw [hbytes, fromUtf8_toUtf8]
  obtain hgone | hdeleted := hwrong
  · obtain ⟨bytes, hget, -⟩ := hright.audio _ _ hlist callId hmem
    rw [get, AList.lookup_eq_none.mpr hgone] at hget
    contradiction
  · have hnot := hright.deleted _ _ hlist callId hmem
    rw [hdeleted] at hnot
    contradiction

/-! ### `delete` -/

/-- The state after a `delete` with this result. -/
def afterDelete (callId : Text) (l : Ledger) (result : Reply Bool × Disk) : State :=
  ⟨result.2, match result.1 with
    | some (.ok _) => { l with deleted := Function.update l.deleted callId true }
    | _ => l⟩

omit [HexEncode] in
theorem afterDelete_of_not_ok {reply : Reply Bool} (h : ∀ b, reply ≠ some (.ok b)) :
    afterDelete callId l (reply, d) = ⟨d, l⟩ := by
  unfold afterDelete
  split
  · next b hb => exact absurd hb (h b)
  · rfl

variable {luck : DeleteLuck} {result : Reply Bool × Disk}

theorem Kept.deletion (h : Kept ⟨d, l⟩) (hok : Clears ⟨d, l⟩ (.delete callId luck))
    (hgoes : Deletion callId luck d result) : (afterDelete callId l result).Kept := by
  cases hgoes with
  | nothing hreply hexists hunlink => rwa [afterDelete_of_not_ok hreply]
  | unlinked hexists hunlink hrest =>
    by_cases hlisted : metaPath callId ∈ d
    · -- both files go
      obtain ⟨hmetaExists, hmetaUnlink⟩ := (hok hlisted).1 hexists hunlink
      have hboth := h.erase_both callId
      have hunlisted : metaPath callId ∉ (d.erase (blobPath callId)).erase (metaPath callId) :=
        fun hmem => (AList.mem_erase.mp hmem).1 rfl
      cases hrest with
      | died hfate => simp [hmetaExists, hmetaUnlink] at hfate
      | failed hfate => simp [hmetaExists, hmetaUnlink] at hfate
      | absent habsent => exact absurd (AList.mem_erase.mpr ⟨(blobPath_ne_metaPath _ _).symm, hlisted⟩) habsent
      | removed => exact hboth.delete hunlisted
    · have hblob := h.erase_blob hlisted
      have hunlisted : metaPath callId ∉ d.erase (blobPath callId) := fun hmem => hlisted (AList.mem_erase.mp hmem).2
      cases hrest with
      | died hfate => exact hblob
      | failed hfate => exact hblob.delete hunlisted
      | absent habsent => exact hblob.delete hunlisted
      | removed => exact (hblob.erase_meta callId).delete fun hmem => (AList.mem_erase.mp hmem).1 rfl
  | passed hblob hrest =>
    cases hrest with
    | died hfate => exact h
    | removed => exact (h.erase_meta callId).delete fun hmem => (AList.mem_erase.mp hmem).1 rfl
    | absent habsent => exact h.delete habsent
    | failed hfate =>
      refine h.delete fun hlisted => ?_
      obtain hfails | habsent := hblob
      · obtain ⟨hexists, hunlink⟩ := (hok hlisted).2 hfails
        obtain hfate | ⟨hdone, hfate⟩ := hfate
        · exact hexists hfate
        · exact hunlink hdone hfate
      · obtain ⟨file, hlookup, -⟩ := h.audio callId hlisted
        rw [AList.lookup_eq_none.mpr habsent] at hlookup
        contradiction

theorem Kept.not_deletion (h : Kept ⟨d, l⟩) (hbad : ¬ Clears ⟨d, l⟩ (.delete callId luck))
    (hgoes : Deletion callId luck d result) : ¬ (afterDelete callId l result).Right := by
  obtain ⟨hlisted, hbad⟩ := Classical.not_imp.mp hbad
  change metaPath callId ∈ d at hlisted
  cases hgoes with
  | nothing hreply hexists hunlink =>
    exact absurd ⟨fun hdone hunlinked => absurd hunlinked (hunlink hdone), fun hfails => absurd hfails hexists⟩ hbad
  | unlinked hexists hunlink hrest =>
    have hstay : metaPath callId ∈ d.erase (blobPath callId) :=
      AList.mem_erase.mpr ⟨(blobPath_ne_metaPath _ _).symm, hlisted⟩
    have hgone : blobPath callId ∉ d.erase (blobPath callId) := fun hmem => (AList.mem_erase.mp hmem).1 rfl
    have hsame : (d.erase (blobPath callId)).lookup (metaPath callId) = d.lookup (metaPath callId) :=
      lookup_erase_ne (blobPath_ne_metaPath _ _).symm
    cases hrest with
    | died hfate => exact h.not_right ⟨hstay, .inl hgone⟩ hsame
    | failed hfate => exact h.not_right ⟨hstay, .inl hgone⟩ hsame
    | absent habsent => exact absurd hstay habsent
    | removed hmetaExists hmetaUnlink =>
      exact absurd ⟨fun _ _ => ⟨hmetaExists, hmetaUnlink⟩, fun hfails => by rw [hexists] at hfails; contradiction⟩ hbad
  | passed hblob hrest =>
    have hfails : luck.blobExists = .fails := by
      refine hblob.resolve_right fun habsent => ?_
      obtain ⟨file, hlookup, -⟩ := h.audio callId hlisted
      rw [AList.lookup_eq_none.mpr habsent] at hlookup
      contradiction
    have hdone : luck.blobExists ≠ .done := by rw [hfails]; nofun
    cases hrest with
    | died hfate =>
      refine absurd ⟨fun hd => absurd hd hdone, fun _ => ?_⟩ hbad
      obtain hfate | ⟨hexists, hunlink, -⟩ := hfate
      · simp [hfate]
      · simp [hexists, hunlink]
    | failed hfate =>
      exact h.not_right ⟨hlisted, .inr (Function.update_self ..)⟩ rfl
    | absent habsent => exact absurd hlisted habsent
    | removed hmetaExists hmetaUnlink =>
      exact absurd ⟨fun hd => absurd hd hdone, fun _ => by simp [hmetaExists, hmetaUnlink]⟩ hbad

/-! ### `prune_older_than` -/

variable {cutoff : Int} {name : Text} {sweepLuck : SweepLuck} {round : Option Nat × Disk}

theorem Kept.overdue (h : Kept ⟨d, l⟩) {stem : Text} (hover : Overdue cutoff name sweepLuck d stem) :
    ∃ callId, name = blobPath callId ∧ stem = hexKey callId := by
  obtain ⟨file, hlookup, -⟩ := hover.old
  have hext : extension name = some wav := by rw [extension, hover.split]; rfl
  obtain ⟨callId, hne, rfl | ⟨rfl, -⟩⟩ := h.names name file hlookup (by rw [hext]; decide)
  · refine ⟨callId, rfl, ?_⟩
    have hsplit := hover.split
    rw [splitName_blobPath hne] at hsplit
    exact (Prod.mk.inj (Option.some.inj hsplit)).1.symm
  · rw [extension_metaPath hne] at hext
    exact absurd hext (by decide)

theorem Kept.swept (h : Kept ⟨d, l⟩) (hok : sweepLuck.Clears cutoff name d) (hgoes : Swept cutoff name sweepLuck d round) :
    Kept ⟨round.2, l⟩ := by
  cases hgoes with
  | passed => exact h
  | died => exact h
  | listing hover hblob hmeta =>
    obtain ⟨callId, rfl, rfl⟩ := h.overdue hover
    obtain ⟨file, hlookup, hold⟩ := hover.old
    simp only [SweepLuck.Clears, hover.split, hlookup] at hok
    obtain ⟨-, rfl⟩ | ⟨hblob, rfl⟩ := hblob
    · obtain ⟨-, rfl⟩ | ⟨-, rfl⟩ := hmeta
      · exact h
      · exact h.erase_meta callId
    · obtain ⟨hmeta, rfl⟩ | ⟨-, rfl⟩ := hmeta
      · refine h.erase_blob fun hlisted => hmeta (hok ⟨trivial, hover.metadata, hover.modified, hold, hblob, hlisted⟩)
      · exact h.erase_both callId

/-- A listing without audio. -/
def Orphan (d : Disk) (callId : Text) : Prop := metaPath callId ∈ d ∧ blobPath callId ∉ d

theorem Kept.not_swept (h : Kept ⟨d, l⟩) (hbad : ¬ sweepLuck.Clears cutoff name d)
    (hgoes : Swept cutoff name sweepLuck d round) :
    ∃ callId, Orphan round.2 callId ∧ round.2.lookup (metaPath callId) = d.lookup (metaPath callId) := by
  unfold SweepLuck.Clears at hbad
  split at hbad
  · next stem ext file hsplit hlookup =>
    obtain ⟨⟨rfl, hmetadata, hmodified, hold, hblob, hlisted⟩, hmeta⟩ := Classical.not_imp.mp hbad
    have hover : Overdue cutoff name sweepLuck d stem := ⟨hsplit, hmetadata, hmodified, file, hlookup, hold⟩
    obtain ⟨callId, rfl, rfl⟩ := h.overdue hover
    refine ⟨callId, ?_⟩
    cases hgoes with
    | passed hnone => exact absurd hover (hnone _)
    | died _ hcrash => rw [hblob] at hcrash; contradiction
    | listing hover' hblob' hmeta' =>
      obtain ⟨hfails, -⟩ | ⟨-, rfl⟩ := hblob'
      · rw [hblob] at hfails
        contradiction
      · obtain ⟨-, rfl⟩ | ⟨hdone, -⟩ := hmeta'
        · refine ⟨⟨AList.mem_erase.mpr ⟨(blobPath_ne_metaPath _ _).symm, hlisted⟩, fun hmem => ?_⟩, ?_⟩
          · exact (AList.mem_erase.mp hmem).1 rfl
          · exact lookup_erase_ne (blobPath_ne_metaPath _ _).symm
        · exact absurd hdone hmeta
  · exact absurd trivial hbad

theorem orphan_swept (horphan : Orphan d callId) (hgoes : Swept cutoff name sweepLuck d round) :
    Orphan round.2 callId ∧ round.2.lookup (metaPath callId) = d.lookup (metaPath callId) := by
  cases hgoes with
  | passed => exact ⟨horphan, rfl⟩
  | died => exact ⟨horphan, rfl⟩
  | @listing stem n d₁ d₂ hover hblob hmeta =>
    obtain ⟨file, hlookup, -⟩ := hover.old
    have hname : name = stem ++ '.' :: wav := eq_of_splitName hover.split
    have hstem : stem ≠ hexKey callId := by
      rintro rfl
      rw [hname, show hexKey callId ++ '.' :: wav = blobPath callId from rfl,
        AList.lookup_eq_none.mpr horphan.2] at hlookup
      contradiction
    have hne₁ : metaPath callId ≠ name := by
      intro heq
      rw [hname] at heq
      exact absurd (List.append_inj' heq rfl).2 (by decide)
    have hne₂ : metaPath callId ≠ stem ++ '.' :: cid := fun heq => hstem (List.append_cancel_right heq).symm
    have hsame₁ : d₁.lookup (metaPath callId) = d.lookup (metaPath callId) := by
      obtain ⟨-, rfl⟩ | ⟨-, rfl⟩ := hblob
      · rfl
      · exact lookup_erase_ne hne₁
    have hsame₂ : d₂.lookup (metaPath callId) = d₁.lookup (metaPath callId) := by
      obtain ⟨-, rfl⟩ | ⟨-, rfl⟩ := hmeta
      · rfl
      · exact lookup_erase_ne hne₂
    have hgone₁ : blobPath callId ∉ d₁ := by
      obtain ⟨-, rfl⟩ | ⟨-, rfl⟩ := hblob
      · exact horphan.2
      · exact fun hmem => horphan.2 (AList.mem_erase.mp hmem).2
    have hgone₂ : blobPath callId ∉ d₂ := by
      obtain ⟨-, rfl⟩ | ⟨-, rfl⟩ := hmeta
      · exact hgone₁
      · exact fun hmem => hgone₁ (AList.mem_erase.mp hmem).2
    refine ⟨⟨?_, hgone₂⟩, hsame₂.trans hsame₁⟩
    rw [← lookup_isSome, hsame₂, hsame₁]
    exact AList.lookup_isSome.mpr horphan.1

theorem orphan_sweep (horphan : Orphan d callId) (cutoff : Int) (entries : List (Text × SweepLuck)) (n : Nat) :
    Orphan (sweep cutoff entries n d).2 callId ∧
      (sweep cutoff entries n d).2.lookup (metaPath callId) = d.lookup (metaPath callId) := by
  induction entries generalizing n d with
  | nil => exact ⟨horphan, rfl⟩
  | cons entry entries ih =>
    obtain ⟨name, luck⟩ := entry
    obtain ⟨horphan₁, hsame₁⟩ := orphan_swept horphan (swept_sweepEntry cutoff name luck d)
    unfold sweep
    generalize sweepEntry cutoff name luck d = swept at horphan₁ hsame₁
    obtain ⟨count, d₁⟩ := swept
    cases count with
    | none => exact ⟨horphan₁, hsame₁⟩
    | some m =>
      obtain ⟨hlater, hsame⟩ := ih horphan₁ (n + m)
      exact ⟨hlater, hsame.trans hsame₁⟩

section

variable (h : Kept ⟨d, l⟩)
include h

theorem Kept.sweep {entries : List (Text × SweepLuck)} (hok : SweepClears cutoff entries d) (n : Nat) :
    Kept ⟨(Recordings.sweep cutoff entries n d).2, l⟩ := by
  induction entries generalizing n d with
  | nil => exact h
  | cons entry entries ih =>
    obtain ⟨name, luck⟩ := entry
    obtain ⟨hclears, hrest⟩ := hok
    have hkept := h.swept hclears (swept_sweepEntry cutoff name luck d)
    unfold Recordings.sweep
    generalize sweepEntry cutoff name luck d = swept at hkept hrest
    obtain ⟨count, d₁⟩ := swept
    cases count with
    | none => exact hkept
    | some m => exact ih hkept hrest (n + m)

theorem Kept.not_sweep {entries : List (Text × SweepLuck)} (hbad : ¬ SweepClears cutoff entries d)
    (n : Nat) : ¬ Right ⟨(Recordings.sweep cutoff entries n d).2, l⟩ := by
  induction entries generalizing n d with
  | nil => exact absurd trivial hbad
  | cons entry entries ih =>
    obtain ⟨name, luck⟩ := entry
    have hswept := swept_sweepEntry cutoff name luck d
    unfold Recordings.sweep
    by_cases hclears : luck.Clears cutoff name d
    · have hkept := h.swept hclears hswept
      have hrest : ¬ _ := fun hrest => hbad ⟨hclears, hrest⟩
      generalize sweepEntry cutoff name luck d = swept at hkept hrest
      obtain ⟨count, d₁⟩ := swept
      cases count with
      | none => exact absurd trivial hrest
      | some m => exact ih hkept hrest (n + m)
    · obtain ⟨callId, horphan, hsame⟩ := h.not_swept hclears hswept
      generalize sweepEntry cutoff name luck d = swept at horphan hsame
      obtain ⟨count, d₁⟩ := swept
      cases count with
      | none => exact h.not_right ⟨horphan.1, .inl horphan.2⟩ hsame
      | some m =>
        obtain ⟨hlater, hsame'⟩ := orphan_sweep horphan cutoff entries (n + m)
        exact h.not_right ⟨hlater.1, .inl hlater.2⟩ (hsame'.trans hsame)

/-! ### `put` -/

theorem Kept.write_blob {bytes : Bytes} {result : Attempt × Disk} (hne : callId ≠ [])
    (hwrote : Wrote (blobPath callId) bytes d result) (hok : result.1 = .ok) :
    Kept ⟨result.2, Function.update l.audio callId (some bytes), Function.update l.deleted callId false⟩ := by
  have hlisted : ∀ id, metaPath id ∈ result.2 → metaPath id ∈ d := by
    intro id hmem
    rw [← lookup_isSome] at hmem ⊢
    rwa [hwrote.others _ (blobPath_ne_metaPath _ _).symm (extension_metaPath_ne_tmp id)] at hmem
  refine ⟨h.names.wrote hne (.inl rfl) hwrote, fun id hmem => ?_, fun id hmem => ?_⟩
  · show ∃ file, _ ∧ Function.update l.audio callId (some bytes) id = _
    by_cases heq : id = callId
    · subst heq
      obtain ⟨file, hlookup, hbytes⟩ := Option.map_eq_some_iff.mp (hwrote.ok hok)
      exact ⟨file, hlookup, by rw [Function.update_self, hbytes]⟩
    · obtain ⟨file, hlookup, haudio⟩ := h.audio id (hlisted id hmem)
      refine ⟨file, ?_, by rw [Function.update_of_ne heq]; exact haudio⟩
      rw [hwrote.others _ (fun hsame => heq (blobPath_inj hsame)) (extension_blobPath_ne_tmp id)]
      exact hlookup
  · show Function.update l.deleted callId false id = false
    by_cases heq : id = callId
    · rw [heq, Function.update_self]
    · rw [Function.update_of_ne heq]
      exact h.deleted id (hlisted id hmem)

theorem Kept.write_meta {bytes : Bytes} {result : Attempt × Disk} (hne : callId ≠ [])
    (haudio : ∃ file, d.lookup (blobPath callId) = some file ∧ l.audio callId = some file.bytes)
    (hdeleted : l.deleted callId = false) (hid : bytes = toUtf8 callId) (hwrote : Wrote (metaPath callId) bytes d result) :
    Kept ⟨result.2, l⟩ := by
  have hblob : ∀ id, result.2.lookup (blobPath id) = d.lookup (blobPath id) := fun id =>
    hwrote.others _ (blobPath_ne_metaPath _ _) (extension_blobPath_ne_tmp id)
  have hlisted : ∀ id, id ≠ callId → metaPath id ∈ result.2 → metaPath id ∈ d := by
    intro id heq hmem
    rw [← lookup_isSome] at hmem ⊢
    rwa [hwrote.others _ (fun hsame => heq (metaPath_inj hsame)) (extension_metaPath_ne_tmp id)] at hmem
  refine ⟨h.names.wrote hne (.inr ⟨rfl, hid⟩) hwrote, fun id hmem => ?_, fun id hmem => ?_⟩
  · show ∃ file, result.2.lookup (blobPath id) = _ ∧ _
    rw [hblob id]
    by_cases heq : id = callId
    · exact heq ▸ haudio
    · exact h.audio id (hlisted id heq hmem)
  · by_cases heq : id = callId
    · exact heq ▸ hdeleted
    · exact h.deleted id (hlisted id heq hmem)

theorem Kept.not_written {path bytes} {result : Attempt × Disk} (hwrote : Wrote path bytes d result)
    (hok : result.1 ≠ .ok) : Kept ⟨result.2, l⟩ := by
  have hsame : ∀ name, extension name ≠ some tmp → result.2.lookup name = d.lookup name := by
    intro name htmp
    by_cases hname : name = path
    · rw [hname]
      exact hwrote.not_ok hok
    · exact hwrote.others name hname htmp
  have hlisted : ∀ id, metaPath id ∈ result.2 → metaPath id ∈ d := by
    intro id hmem
    rw [← lookup_isSome] at hmem ⊢
    rwa [hsame _ (extension_metaPath_ne_tmp id)] at hmem
  refine ⟨fun name file hlookup htmp => ?_, fun id hmem => ?_, fun id hmem => h.deleted id (hlisted id hmem)⟩
  · exact h.names name file ((hsame name htmp).symm.trans hlookup) htmp
  · show ∃ file, result.2.lookup (blobPath id) = _ ∧ _
    rw [hsame _ (extension_blobPath_ne_tmp id)]
    exact h.audio id (hlisted id hmem)

theorem Kept.put (callId : Text) (bytes : Bytes) (blobLuck metaLuck : WriteLuck) :
    Kept ⟨(Recordings.put callId bytes blobLuck metaLuck d).2,
      (Call.put callId bytes blobLuck metaLuck).ledger ⟨d, l⟩⟩ := by
  have hwrote := wrote_writeAtomic (extension_blobPath_ne_tmp callId) bytes blobLuck d
  rw [put_snd]
  simp only [Call.ledger]
  split
  · next hnil => simpa [hnil] using h
  · next hne =>
    by_cases hok : (writeAtomic (blobPath callId) bytes blobLuck d).1 = .ok
    · simp only [if_pos hok, if_pos (And.intro hne hok)]
      have hblob := h.write_blob hne hwrote hok
      have hmeta := wrote_writeAtomic (extension_metaPath_ne_tmp callId) (toUtf8 callId) metaLuck
        (writeAtomic (blobPath callId) bytes blobLuck d).2
      refine hblob.write_meta hne ?_ (Function.update_self ..) rfl hmeta
      obtain ⟨file, hlookup, hbytes⟩ := Option.map_eq_some_iff.mp (hwrote.ok hok)
      exact ⟨file, hlookup, by simp [hbytes]⟩
    · simp only [if_neg hok, if_neg (fun hboth : _ ∧ _ => hok hboth.2)]
      exact h.not_written hwrote hok

end

/-! ## runs -/

theorem Kept.step {s s' : State} {c : Call} (h : s.Kept) (hok : Clears s c) (hstep : s.step c = some s') : s'.Kept := by
  obtain rfl := Option.some.inj hstep
  cases c with
  | put callId audio blobLuck metaLuck => exact h.put callId audio blobLuck metaLuck
  | get callId => exact h
  | list luck => exact h
  | delete callId luck => exact h.deletion hok (deletion_delete callId luck s.disk)
  | prune now maxAge entries =>
    show Kept ⟨(pruneOlderThan now maxAge entries s.disk).2, s.ledger⟩
    unfold pruneOlderThan
    split
    · exact h
    · next hclock =>
      cases entries with
      | none => exact h
      | some entries => exact h.sweep (hok (Int.not_lt.mp hclock)) 0

theorem Kept.not_step {s s' : State} {c : Call} (h : s.Kept) (hbad : ¬ Clears s c) (hstep : s.step c = some s') :
    ¬ s'.Right := by
  obtain rfl := Option.some.inj hstep
  cases c with
  | put callId audio blobLuck metaLuck => exact absurd trivial hbad
  | get callId => exact absurd trivial hbad
  | list luck => exact absurd trivial hbad
  | delete callId luck => exact h.not_deletion hbad (deletion_delete callId luck s.disk)
  | prune now maxAge entries =>
    show ¬ Right ⟨(pruneOlderThan now maxAge entries s.disk).2, s.ledger⟩
    obtain ⟨hclock, hbad⟩ := Classical.not_imp.mp hbad
    unfold pruneOlderThan
    rw [if_neg (Int.not_lt.mpr hclock)]
    cases entries with
    | none => exact absurd trivial hbad
    | some entries => exact h.not_sweep hbad 0

end State

/-- Along a run of calls that are cut short anywhere, the store is right after every call
exactly when nothing removes the audio of a listing without removing the listing. -/
theorem recordings_right_iff {calls : List Call} {s : State} (hexec : exec step new calls = some s) :
    (∀ before after s₁, calls = before ++ after → exec step new before = some s₁ →
        s₁.Right ∧ s₁.Isolated) ↔
      Meets step Clears new calls :=
  meets_iff (I := State.Kept) (fun _ h => ⟨h.right, h.names.isolated_names⟩) (fun _ _ _ h hok hstep => h.step hok hstep)
    (fun _ _ _ h hbad hstep hboth => h.not_step hbad hstep hboth.1) hexec State.kept_new

end

open State

instance : HexEncode := ⟨hexEncode, rfl, hexEncode_inj⟩

/-- Every operation takes effect. -/
def smoothWrite (seq : Nat) (now : Int) : WriteLuck := ⟨7, seq, now, .done, [], .done, .done, .done, .done⟩

def smoothDelete : DeleteLuck := ⟨.done, .done, .done, .done⟩

def callA : Text := ['a']

def callB : Text := ['b']

/-- A call is stored twice and deleted in between; the write of another is cut short, and the
sweep takes what is left of it. -/
def sampleCalls : List Call :=
  [.put callA [1] (smoothWrite 0 10) (smoothWrite 1 10), .delete callA smoothDelete,
    .put callA [2, 3] (smoothWrite 2 50) (smoothWrite 3 50),
    .put callB [4] (smoothWrite 4 20) { smoothWrite 5 20 with write := .crash, parts := [(0, .done)] },
    .prune 60 30 (some [(blobPath callB, ⟨.done, .done, .done, .fails⟩), (blobPath callA, ⟨.done, .done, .done, .done⟩)]),
    .list ⟨true, fun _ => true⟩, .get callA]

theorem recordings_right_sampleCalls : ∃ s, exec step new sampleCalls = some s ∧
    ((∀ before after s₁, sampleCalls = before ++ after → exec step new before = some s₁ →
        s₁.Right ∧ s₁.Isolated) ↔
      Meets step Clears new sampleCalls) ∧
    Meets step Clears new sampleCalls :=
  ⟨_, rfl, recordings_right_iff rfl, by decide +kernel⟩

/-- The process dies in `delete`, between the two files. -/
def cutDelete : List Call :=
  [.put callA [1] (smoothWrite 0 10) (smoothWrite 1 10), .delete callA { smoothDelete with metaUnlink := .crash }]

/-- The call is listed and has no audio. -/
theorem listed_without_audio : ∃ s, exec step new cutDelete = some s ∧
    list ⟨true, fun _ => true⟩ s.disk = .ok [callA] ∧ get callA s.disk = .error (.notFound callA) ∧ ¬ s.Right := by
  have hlist : ∃ s, exec step new cutDelete = some s ∧
      list ⟨true, fun _ => true⟩ s.disk = .ok [callA] ∧ get callA s.disk = .error (.notFound callA) :=
    ⟨_, rfl, by decide +kernel, by decide +kernel⟩
  obtain ⟨s, hexec, hlist, hget⟩ := hlist
  refine ⟨s, hexec, hlist, hget, fun hright => ?_⟩
  obtain ⟨bytes, hgot, -⟩ := hright.audio _ _ hlist callA (List.mem_singleton_self _)
  rw [hget] at hgot
  contradiction

end SmithsNet.Recordings
