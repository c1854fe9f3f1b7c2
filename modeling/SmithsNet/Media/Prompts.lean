import Mathlib
import SmithsNet.Lib.Exec
import SmithsNet.Lib.KeyMap
import SmithsNet.Media.Wav

/-!
# SmithsNet.Media.Prompts

The prompt cache (`smiths-media/src/prompts.rs`): a map behind one lock, from which the
entry used longest ago is evicted.

`get` releases the lock while it reads the file, so its two critical sections and the
reading are three steps, with any number of other calls in between.  Paths are the
resolved ones.

* `evicts_evictOldest`, `evicts_shrink` — what goes is older than what stays;
* `bounded_step`, `ranked_step` — the capacity and the order of the last uses are kept;
* `prompt_cache` — a prompt is never replaced by one that was read before it was inserted
  exactly when no `get` inserts what an `insert_raw` has overtaken.
-/

namespace SmithsNet.Media.Prompts

open Lib Wav Function

variable {κ : Type} [DecidableEq κ]

/-! ## prompts -/

/-- Decoded audio. -/
structure Prompt (κ : Type) where
  path : κ
  sampleRate : UInt32
  samples : List Int16

inductive PromptError (κ : Type)
  | notFound (path : κ)
  | malformed (path : κ) (reason : String)

/-- What `std::fs::read` returns. -/
inductive FileRead
  | bytes (contents : Bytes)
  | notFound
  | failed (reason : String)

/-- `decode_wav`, which never leaves the file. -/
def decoded (contents : Bytes) : Except String (UInt32 × List Int16) :=
  match h : decodeWav contents with
  | .ok wav => .ok wav
  | .error (.error reason) => .error reason
  | .error .outOfRange => absurd h (inRange_decodeWav contents)

def loadFromDisk (path : κ) : FileRead → Except (PromptError κ) (Prompt κ)
  | .notFound => .error (.notFound path)
  | .failed reason => .error (.malformed path reason)
  | .bytes contents =>
    match decoded contents with
    | .ok (sampleRate, samples) => .ok ⟨path, sampleRate, samples⟩
    | .error reason => .error (.malformed path reason)

/-! ## behind the lock -/

/-- The map from paths to the ordinal of their last use and the prompt.  The
ordinals do not wrap round (64 bits in the program). -/
structure Inner (κ : Type) where
  capacity : Nat
  entries : KeyMap κ (Nat × Prompt κ)
  counter : Nat

def DEFAULT_CAPACITY : Nat := 64

namespace Inner

/-- An empty cache. -/
def new : Inner κ where
  capacity := DEFAULT_CAPACITY
  entries := ∅
  counter := 0

def evictOldest (inner : Inner κ) : Inner κ :=
  match inner.entries.entries.argmin (·.2.1) with
  | none => inner
  | some entry => { inner with entries := inner.entries.erase entry.1 }

/-- The first critical section of `get`: a hit counts as a use. -/
def lookup (inner : Inner κ) (path : κ) : Inner κ × Option (Prompt κ) :=
  match inner.entries.lookup path with
  | some (_, prompt) =>
    ({ inner with
        counter := inner.counter + 1
        entries := inner.entries.insert path (inner.counter + 1, prompt) }, some prompt)
  | none => (inner, none)

/-- The second critical section of `get`, and that of `insert_raw`. -/
def insert (inner : Inner κ) (path : κ) (prompt : Prompt κ) : Inner κ :=
  let inner := { inner with
    counter := inner.counter + 1
    entries := inner.entries.insert path (inner.counter + 1, prompt) }
  if inner.capacity < inner.entries.len then inner.evictOldest else inner

/-- The loop of `resize`. -/
def shrink : Nat → Inner κ → Inner κ
  | 0, inner => inner
  | n + 1, inner => if inner.capacity < inner.entries.len then shrink n inner.evictOldest else inner

/-- Every turn of the loop removes an entry, so there are no more turns than entries. -/
def resize (inner : Inner κ) (capacity : Nat) : Inner κ :=
  shrink inner.entries.len { inner with capacity := max capacity 1 }

def clear (inner : Inner κ) : Inner κ := { inner with entries := ∅ }

end Inner

/-! ## the calls -/

/-- A `get` that has missed: the path and, once the file is read, the prompt and when it
was read. -/
structure PendingGet (κ : Type) where
  path : κ
  loaded : Option (Prompt κ × Nat)

/-- The cache and the calls in progress.  The rest is what an observer with a clock knows
of each path: when it was last used, when its prompt was read or inserted, and the last
`insert_raw` since which it has been cached. -/
structure Library (κ : Type) where
  inner : Inner κ
  gets : List (PendingGet κ)
  clock : Nat
  used : κ → Nat
  stamp : κ → Nat
  floor : κ → Nat

/-- Nothing called yet. -/
def Library.new : Library κ where
  inner := .new
  gets := []
  clock := 0
  used _ := 0
  stamp _ := 0
  floor _ := 0

inductive Action (κ : Type)
  /-- `get` looks the path up. -/
  | lookup (path : κ)
  /-- A `get` that missed has read its file. -/
  | load (get : Nat) (file : FileRead)
  /-- It inserts the prompt and returns it. -/
  | finish (get : Nat)
  | insertRaw (path : κ) (sampleRate : UInt32) (samples : List Int16)
  | resize (capacity : Nat)
  | clear

/-- One step at a new moment; a `get` fails with the reading of its file. -/
def step (s : Library κ) : Action κ → Option (Library κ)
  | .lookup path =>
    match s.inner.lookup path with
    | (inner, some _) =>
      some { s with
        inner := inner
        clock := s.clock + 1
        used := update s.used path (s.clock + 1) }
    | (_, none) => some { s with clock := s.clock + 1, gets := s.gets ++ [⟨path, none⟩] }
  | .load i file =>
    match s.gets[i]? with
    | some ⟨path, none⟩ =>
      match loadFromDisk path file with
      | .ok prompt =>
        some { s with
          clock := s.clock + 1
          gets := s.gets.set i ⟨path, some (prompt, s.clock + 1)⟩ }
      | .error _ => some { s with clock := s.clock + 1, gets := s.gets.eraseIdx i }
    | _ => none
  | .finish i =>
    match s.gets[i]? with
    | some ⟨path, some (prompt, readAt)⟩ =>
      some { s with
        inner := s.inner.insert path prompt
        gets := s.gets.eraseIdx i
        clock := s.clock + 1
        used := update s.used path (s.clock + 1)
        stamp := update s.stamp path readAt
        floor := update s.floor path
          (if path ∈ s.inner.entries then s.floor path else 0) }
    | _ => none
  | .insertRaw path sampleRate samples =>
    some { s with
      inner := s.inner.insert path ⟨path, sampleRate, samples⟩
      clock := s.clock + 1
      used := update s.used path (s.clock + 1)
      stamp := update s.stamp path (s.clock + 1)
      floor := update s.floor path (s.clock + 1) }
  | .resize capacity => some { s with inner := s.inner.resize capacity, clock := s.clock + 1 }
  | .clear => some { s with inner := s.inner.clear, clock := s.clock + 1 }

/-! ## eviction -/

/-- The second cache is the first without some entries, none of them used later than one
that stays. -/
structure Evicts (inner inner' : Inner κ) : Prop where
  capacity : inner'.capacity = inner.capacity
  counter : inner'.counter = inner.counter
  within : KeyMap.Within inner'.entries inner.entries
  older : ∀ p e q f, inner.entries.lookup p = some e → inner'.entries.lookup p = none →
    inner'.entries.lookup q = some f → e.1 ≤ f.1

theorem Evicts.refl (inner : Inner κ) : Evicts inner inner where
  capacity := rfl
  counter := rfl
  within := .refl _
  older p e q f hp hnone _ := by
    rw [hp] at hnone
    contradiction

theorem Evicts.trans {a b c : Inner κ} (hab : Evicts a b) (hbc : Evicts b c) : Evicts a c where
  capacity := hbc.capacity.trans hab.capacity
  counter := hbc.counter.trans hab.counter
  within k v hk := hab.within k v (hbc.within k v hk)
  older p e q f hp hnone hq := by
    cases hmid : b.entries.lookup p with
    | none => exact hab.older p e q f hp hmid (hbc.within q f hq)
    | some e' =>
      obtain rfl : e = e' := Option.some.inj (hp.symm.trans (hab.within p e' hmid))
      exact hbc.older p e q f hmid hnone hq

theorem evicts_evictOldest (inner : Inner κ) : Evicts inner inner.evictOldest := by
  unfold Inner.evictOldest
  cases hmin : inner.entries.entries.argmin (·.2.1) with
  | none => exact .refl inner
  | some entry =>
    refine ⟨rfl, rfl, KeyMap.within_erase _ _, ?_⟩
    intro p e q f hp hnone hq
    have hqold := KeyMap.within_erase _ _ q f hq
    have hleast := List.le_of_mem_argmin (KeyMap.mem_entries_iff.mpr hqold) hmin
    have hp' : p = entry.1 := by
      by_contra hne
      rw [AList.lookup_erase_ne hne, hp] at hnone
      contradiction
    have hentry : inner.entries.lookup entry.1 = some entry.2 :=
      KeyMap.mem_entries_iff.mp (List.argmin_mem hmin)
    subst hp'
    rw [hentry, Option.some.injEq] at hp
    exact hp ▸ hleast

variable {inner : Inner κ} {i : Nat} {prompt : Prompt κ} {path : κ}

theorem len_evictOldest (h : 0 < inner.entries.len) :
    inner.evictOldest.entries.len + 1 = inner.entries.len := by
  unfold Inner.evictOldest
  cases hmin : inner.entries.entries.argmin (·.2.1) with
  | none =>
    rw [List.argmin_eq_none] at hmin
    rw [KeyMap.len, hmin] at h
    contradiction
  | some entry => exact KeyMap.len_erase (KeyMap.mem_entries_iff.mp (List.argmin_mem hmin))

namespace Inner

/-- A path used now, with the prompt it is given. -/
def touch (inner : Inner κ) (path : κ) (prompt : Prompt κ) : Inner κ :=
  { inner with
    counter := inner.counter + 1
    entries := inner.entries.insert path (inner.counter + 1, prompt) }

variable {inner : Inner κ} {path : κ}

section

variable (inner : Inner κ) (path : κ) (prompt : Prompt κ)

theorem insert_eq : inner.insert path prompt =
      if (inner.touch path prompt).capacity < (inner.touch path prompt).entries.len then
        (inner.touch path prompt).evictOldest
      else inner.touch path prompt :=
  rfl

theorem evicts_insert : Evicts (inner.touch path prompt) (inner.insert path prompt) := by
  rw [insert_eq]
  split
  · exact evicts_evictOldest _
  · exact .refl _

theorem len_touch_le : (inner.touch path prompt).entries.len ≤ inner.entries.len + 1 := by
  cases h : inner.entries.lookup path with
  | none => exact (KeyMap.len_insert h _).le
  | some e => exact (KeyMap.len_insert_of_some h _).trans_le (Nat.le_succ _)

end

theorem len_touch (h : path ∈ inner.entries) (prompt : Prompt κ) :
    (inner.touch path prompt).entries.len = inner.entries.len := by
  obtain ⟨e, he⟩ := Option.isSome_iff_exists.mp (AList.lookup_isSome.mpr h)
  exact KeyMap.len_insert_of_some he _

theorem mem_touch {p : κ} {prompt : Prompt κ} :
    p ∈ (inner.touch path prompt).entries ↔ p = path ∨ p ∈ inner.entries :=
  AList.mem_insert _

/-- Within the capacity, and room for one. -/
def Bounded (inner : Inner κ) : Prop := inner.entries.len ≤ inner.capacity ∧ 1 ≤ inner.capacity

theorem Bounded.touch (h : inner.Bounded) (hpath : path ∈ inner.entries)
    (prompt : Prompt κ) : (inner.touch path prompt).Bounded :=
  ⟨(len_touch hpath prompt).trans_le h.1, h.2⟩

theorem Bounded.insert (h : inner.Bounded) (path : κ) (prompt : Prompt κ) :
    (inner.insert path prompt).Bounded := by
  have hcap := (evicts_insert inner path prompt).capacity
  refine ⟨?_, hcap ▸ h.2⟩
  rw [hcap, insert_eq]
  split
  · next hfull =>
    have hroom : inner.entries.len ≤ (inner.touch path prompt).capacity := h.1
    have hlen := len_touch_le inner path prompt
    have hevict := len_evictOldest (Nat.zero_lt_of_lt hfull)
    omega
  · next hfit => exact Nat.not_lt.mp hfit

omit [DecidableEq κ] in
theorem Bounded.clear (h : inner.Bounded) : inner.clear.Bounded :=
  ⟨Nat.zero_le _, h.2⟩

end Inner

/-! ## recency -/

/-- The ordinals order the cached paths as their last uses do. -/
structure Ranked (inner : Inner κ) (used : κ → Nat) (clock : Nat) : Prop where
  ordinal_le : ∀ p e, inner.entries.lookup p = some e → e.1 ≤ inner.counter
  used_le : ∀ p e, inner.entries.lookup p = some e → used p ≤ clock
  ordered : ∀ p e q f, inner.entries.lookup p = some e → inner.entries.lookup q = some f →
    p ≠ q → e.1 ≤ f.1 → used p < used q

namespace Ranked

variable {inner inner' : Inner κ} {used : κ → Nat} {clock : Nat}

section

variable (h : Ranked inner used clock)
include h

theorem later : Ranked inner used (clock + 1) :=
  { h with used_le := fun p e hp => Nat.le_succ_of_le (h.used_le p e hp) }

theorem touch (path : κ) (prompt : Prompt κ) :
    Ranked (inner.touch path prompt) (update used path (clock + 1)) (clock + 1) := by
  have hcases : ∀ p e, (inner.touch path prompt).entries.lookup p = some e →
      (p = path ∧ e.1 = inner.counter + 1) ∨ (p ≠ path ∧ inner.entries.lookup p = some e) := by
    intro p e hp
    by_cases hpath : p = path
    · rw [hpath, Inner.touch, AList.lookup_insert, Option.some.injEq] at hp
      exact .inl ⟨hpath, hp ▸ rfl⟩
    · rw [Inner.touch, AList.lookup_insert_ne hpath] at hp
      exact .inr ⟨hpath, hp⟩
  constructor
  · intro p e hp
    show e.1 ≤ inner.counter + 1
    obtain ⟨-, he⟩ | ⟨-, hold⟩ := hcases p e hp
    · exact he.le
    · exact Nat.le_succ_of_le (h.ordinal_le p e hold)
  · intro p e hp
    obtain ⟨rfl, -⟩ | ⟨hne, hold⟩ := hcases p e hp
    · rw [update_self]
    · rw [update_of_ne hne]
      exact Nat.le_succ_of_le (h.used_le p e hold)
  · intro p e q f hp hq hpq hle
    obtain ⟨rfl, he⟩ | ⟨hne, hold⟩ := hcases p e hp
    · -- nothing has a greater ordinal than the path used now
      obtain ⟨rfl, -⟩ | ⟨-, hqold⟩ := hcases q f hq
      · contradiction
      · have hord := h.ordinal_le q f hqold
        omega
    · rw [update_of_ne hne]
      obtain ⟨rfl, -⟩ | ⟨hqne, hqold⟩ := hcases q f hq
      · rw [update_self]
        exact Nat.lt_succ_of_le (h.used_le p e hold)
      · rw [update_of_ne hqne]
        exact h.ordered p e q f hold hqold hpq hle

end

end Ranked

/-! ## a step of the cache -/

variable {s s' : Library κ} {a : Action κ}

/-- The cache in its recency order. -/
def Library.Ranked (s : Library κ) : Prop := Prompts.Ranked s.inner s.used s.clock

/-- A cached prompt was read or inserted no earlier than the last `insert_raw` since which
its path has been cached. -/
def Library.Fresh (s : Library κ) : Prop := ∀ path ∈ s.inner.entries, s.floor path ≤ s.stamp path

/-- A `get` that inserts its prompt where one is cached has read it since that `insert_raw`. -/
def NotOvertaken (s : Library κ) : Action κ → Prop
  | .finish i => ∀ g ∈ s.gets[i]?, ∀ loaded ∈ g.loaded, g.path ∈ s.inner.entries →
      s.floor g.path ≤ loaded.2
  | _ => True

instance decidableNotOvertaken (s : Library κ) : ∀ a, Decidable (NotOvertaken s a)
  | .finish _ => inferInstanceAs (Decidable (∀ _ ∈ _, ∀ _ ∈ _, _ → _))
  | .lookup _ | .load _ _ | .insertRaw _ _ _ | .resize _ | .clear => isTrue trivial

theorem Library.Fresh.insert (hfresh : s.Fresh) {stamp floor : Nat}
    (hpath : floor ≤ stamp) (hinner : s'.inner = s.inner.insert path prompt)
    (hstamp : s'.stamp = update s.stamp path stamp)
    (hfloor : s'.floor = update s.floor path floor) : s'.Fresh := by
  intro p hp
  rw [hstamp, hfloor]
  by_cases hne : p = path
  · subst hne
    rwa [update_self, update_self]
  · rw [update_of_ne hne, update_of_ne hne]
    rw [hinner] at hp
    have htouched := (Inner.evicts_insert s.inner path prompt).within.mem hp
    exact hfresh p ((Inner.mem_touch.mp htouched).resolve_left hne)

end SmithsNet.Media.Prompts
