import SmithsNet.Lib.Exec
import SmithsNet.Lib.Slots
import SmithsNet.Lib.Table

/-!
# SmithsNet.Mixer.Rooms

Conference rooms (`smiths-mixer/src/orchestrator.rs` and `registry.rs`): the
orchestrator maps a room's name to the conference minted on its first join, the
registry holds the conferences that have not been shut down.

A join gets the lock of the room map, keeps it over the creation of a conference,
and then resolves the id it has found or made to the conference's handle.  The
registry's `shutdown` removes the conference from the registry and leaves the room
map as it is, so a room whose conference was shut down is mapped to it for good.

`joins_right`: in every run in which no join is made to such a room, joins to one
room enter one conference, joins to different rooms different ones, and no join is
declined but for a shutdown that comes while it is under way.
-/

namespace SmithsNet.Mixer

open Lib

abbrev ConferenceId := Nat

/-- Where an `orchestrate_room` is. -/
inductive Phase
  /-- It asks for the lock of the room map. -/
  | waiting
  /-- It has the lock, and the room has no conference. -/
  | locked
  | minted (id : ConferenceId)
  /-- The conference is in the registry, and not yet in the room map. -/
  | created (id : ConferenceId)
  | resolving (id : ConferenceId)
  /-- It has the handle, and awaits `Conference::join`. -/
  | joining (id : ConferenceId)
  /-- `Ok(Some(session))`; and whether the conference was still in the registry. -/
  | entered (id : ConferenceId) (live : Bool)
  /-- `Ok(None)` -/
  | declined (id : ConferenceId)
  /-- `Err(UnknownEndpoint)` -/
  | failed
  | dropped
  deriving DecidableEq

namespace Phase

/-- It holds the lock of the room map. -/
def locks : Phase → Bool
  | .locked | .minted _ | .created _ => true
  | _ => false

/-- The conference a join was sent to by the room map. -/
def conference : Phase → Option ConferenceId
  | .resolving id | .joining id | .entered id _ | .declined id => some id
  | _ => none

def finished : Phase → Bool
  | .entered _ _ | .declined _ | .failed | .dropped => true
  | _ => false

end Phase

structure Join where
  room : String
  phase : Phase
  /-- The conferences shut down since it was made. -/
  shut : List ConferenceId
  deriving DecidableEq

/-- A shutdown while the join is under way. -/
def Join.mark (id : ConferenceId) (j : Join) : Join :=
  if j.phase.finished then j else { j with shut := id :: j.shut }

structure State where
  roomMap : Table String ConferenceId
  /-- The join that holds the lock of the room map. -/
  holder : Option Nat
  nextId : ConferenceId
  conferences : List ConferenceId
  joins : List Join

open State

def State.new : State where
  roomMap := .empty
  holder := none
  nextId := 0
  conferences := []
  joins := []

inductive Action
  /-- A call of `orchestrate_room`. -/
  | make (room : String)
  | lock (n : Nat)
  | mint (n : Nat)
  | insert (n : Nat)
  | store (n : Nat)
  /-- `try_orchestrate_conference`, and whether the fabric knows the endpoint. -/
  | resolve (n : Nat) (known : Bool)
  | enter (n : Nat)
  /-- The caller gives up at an await. -/
  | drop (n : Nat)
  /-- `ConferenceRegistry::create`, by others. -/
  | create
  | shutdown (id : ConferenceId)

namespace State

/-- Join `n` moves on. -/
def move (s : State) (n : Nat) (j : Join) (phase : Phase) : State :=
  { s with joins := s.joins.set n { j with phase := phase } }

def step (s : State) : Action → Option State
  | .make room => some { s with joins := s.joins ++ [⟨room, .waiting, []⟩] }
  | .lock n => do
      let j ← s.joins[n]?
      if j.phase = .waiting ∧ s.holder = none then
        match s.roomMap j.room with
        | some id => some (s.move n j (.resolving id))
        | none => some { s.move n j .locked with holder := some n }
      else none
  | .mint n => do
      let j ← s.joins[n]?
      match j.phase with
      | .locked => some { s.move n j (.minted s.nextId) with nextId := s.nextId + 1 }
      | _ => none
  | .insert n => do
      let j ← s.joins[n]?
      match j.phase with
      | .minted id => some { s.move n j (.created id) with conferences := id :: s.conferences }
      | _ => none
  | .store n => do
      let j ← s.joins[n]?
      match j.phase with
      | .created id =>
        some { s.move n j (.resolving id) with roomMap := s.roomMap.insert j.room id, holder := none }
      | _ => none
  | .resolve n known => do
      let j ← s.joins[n]?
      match j.phase with
      | .resolving id =>
        -- the endpoint is looked up first
        if !known then some (s.move n j .failed)
        else if id ∈ s.conferences then some (s.move n j (.joining id))
        else some (s.move n j (.declined id))
      | _ => none
  | .enter n => do
      let j ← s.joins[n]?
      match j.phase with
      | .joining id => some (s.move n j (.entered id (id ∈ s.conferences)))
      | _ => none
  | .drop n => do
      let j ← s.joins[n]?
      match j.phase with
      | .waiting | .joining _ => some (s.move n j .dropped)
      | _ => none
  | .create => some { s with nextId := s.nextId + 1, conferences := s.nextId :: s.conferences }
  | .shutdown id =>
    if id ∈ s.conferences then
      some { s with
        conferences := s.conferences.filter (· ≠ id)
        joins := s.joins.map (Join.mark id) }
    else some s

/-- The conferences of a room: the one in the map, or the one on its way there. -/
def assigned (s : State) (room : String) : List ConferenceId :=
  (s.roomMap room).toList ++ s.joins.filterMap fun j =>
    match j.phase with
    | .created id => if j.room = room then some id else none
    | _ => none

/-- What joins come to. -/
structure Right (s : State) : Prop where
  /-- One room, one conference. -/
  same : ∀ (n m : Nat) j k a b live live', s.joins[n]? = some j → s.joins[m]? = some k →
    j.phase = .entered a live → k.phase = .entered b live' → j.room = k.room → a = b
  different : ∀ (n m : Nat) j k a b live live', s.joins[n]? = some j → s.joins[m]? = some k →
    j.phase = .entered a live → k.phase = .entered b live' → j.room ≠ k.room → a ≠ b
  /-- Only a shutdown while the join is under way makes it enter a dead conference. -/
  live : ∀ (n : Nat) j id, s.joins[n]? = some j → j.phase = .entered id false → id ∈ j.shut
  declined : ∀ (n : Nat) j id, s.joins[n]? = some j → j.phase = .declined id → id ∈ j.shut

end State

/-- No join is made to a room whose conference was shut down. -/
def Open (s : State) : Action → Prop
  | .make room => ∀ id ∈ s.assigned room, id ∈ s.conferences
  | _ => True

instance (s : State) : DecidablePred (Open s)
  | .make _ => inferInstanceAs (Decidable (∀ id ∈ _, _))
  | .lock _ | .mint _ | .insert _ | .store _ | .resolve _ _ | .enter _ | .drop _ | .create | .shutdown _ =>
    isTrue trivial

/-! ## the invariant -/

theorem mem_assigned {s : State} {room : String} {id : ConferenceId} :
    id ∈ s.assigned room ↔ s.roomMap room = some id ∨
      ∃ (n : Nat) (j : Join), s.joins[n]? = some j ∧ j.room = room ∧ j.phase = .created id := by
  simp only [State.assigned, List.mem_append, Option.mem_toList, List.mem_filterMap]
  refine or_congr Iff.rfl ⟨?_, ?_⟩
  · rintro ⟨j, hmem, hj⟩
    obtain ⟨n, hn⟩ := List.getElem?_of_mem hmem
    split at hj
    · next hphase =>
      split at hj
      · next hroom => exact ⟨n, j, hn, hroom, Option.some.inj hj ▸ hphase⟩
      · contradiction
    · contradiction
  · rintro ⟨n, j, hn, rfl, hphase⟩
    exact ⟨j, List.mem_of_getElem? hn, by simp [hphase]⟩

/-- What holds of join `n`. -/
structure Fits (s : State) (n : Nat) (j : Join) : Prop where
  holder : j.phase.locks = true → s.holder = some n ∧ s.roomMap j.room = none
  /-- A conference under way to the map is nobody's yet. -/
  own : ∀ id, j.phase = .minted id ∨ j.phase = .created id → id < s.nextId ∧ ∀ room, s.roomMap room ≠ some id
  room : ∀ id, j.phase.conference = some id → s.roomMap j.room = some id
  live : j.phase.finished = false → ∀ id ∈ s.assigned j.room, id ∈ s.conferences ∨ id ∈ j.shut
  entered : ∀ id, j.phase = .entered id false → id ∈ j.shut
  declined : ∀ id, j.phase = .declined id → id ∈ j.shut

structure Inv (s : State) : Prop where
  injective : ∀ a b id, s.roomMap a = some id → s.roomMap b = some id → a = b
  bounded : ∀ room id, s.roomMap room = some id → id < s.nextId
  fits : ∀ (n : Nat) j, s.joins[n]? = some j → Fits s n j

theorem Inv.new : Inv new := ⟨nofun, nofun, nofun⟩

section Steps

variable {s s' : State} {n : Nat} {j : Join}

/-- A join does not mind what the others do, as long as they leave the lock and
the conferences alone. -/
theorem Fits.mono (h : Fits s n j)
    (hlock : j.phase.locks = true → s'.holder = s.holder ∧ s'.roomMap = s.roomMap)
    (hmap : ∀ room id, s.roomMap room = some id → s'.roomMap room = some id) (hnext : s.nextId ≤ s'.nextId)
    (hconferences : s.conferences ⊆ s'.conferences)
    (hassigned : ∀ id ∈ s'.assigned j.room, id ∈ s.assigned j.room ∨ id ∈ s'.conferences) : Fits s' n j where
  holder hlocks := by
    obtain ⟨hholder, hsame⟩ := hlock hlocks
    rw [hholder, hsame]
    exact h.holder hlocks
  own id hid := by
    have hlocks : j.phase.locks = true := by
      obtain hid | hid := hid <;> rw [hid] <;> rfl
    obtain ⟨hlt, hfree⟩ := h.own id hid
    rw [(hlock hlocks).2]
    exact ⟨Nat.lt_of_lt_of_le hlt hnext, hfree⟩
  room id hid := hmap _ _ (h.room id hid)
  live hfinished id hid := by
    obtain hid | hid := hassigned id hid
    · exact (h.live hfinished id hid).imp (fun hmem => hconferences hmem) (fun hshut => hshut)
    · exact .inl hid
  entered := h.entered
  declined := h.declined

section

variable (h : Inv s)
include h

theorem Inv.holder_unique (hj : s.joins[n]? = some j) (hlocks : j.phase.locks = true) {m : Nat} {k : Join}
    (hk : s.joins[m]? = some k) (hne : m ≠ n) : k.phase.locks = false := by
  rw [← Bool.not_eq_true]
  intro hlocks'
  have hn := ((h.fits n j hj).holder hlocks).1
  have hm := ((h.fits m k hk).holder hlocks').1
  exact hne (Option.mem_unique hm hn)

theorem Inv.moves {phase : Phase} (hj : s.joins[n]? = some j)
    (hjoins : s'.joins = s.joins.set n { j with phase := phase }) (hmap : s'.roomMap = s.roomMap)
    (hholder : s'.holder = s.holder ∨ s.holder = none) (hnext : s.nextId ≤ s'.nextId)
    (hconferences : s.conferences ⊆ s'.conferences) (hcreated : ∀ id, phase = .created id → id ∈ s'.conferences)
    (hlocks : phase.locks = true → s'.holder = some n ∧ s.roomMap j.room = none)
    (hown : ∀ id, phase = .minted id ∨ phase = .created id → id < s'.nextId ∧ ∀ room, s.roomMap room ≠ some id)
    (hroom : ∀ id, phase.conference = some id → s.roomMap j.room = some id)
    (hbegun : phase.finished = false → j.phase.finished = false)
    (hentered : ∀ id, phase = .entered id false → id ∈ j.shut)
    (hdeclined : ∀ id, phase = .declined id → id ∈ j.shut) : Inv s' := by
  -- the conferences of a room stay, but for one that is in the registry
  have hassigned : ∀ room id, id ∈ s'.assigned room → id ∈ s.assigned room ∨ id ∈ s'.conferences := by
    intro room id hid
    obtain hid | ⟨m, k, hk, rfl, hphase⟩ := mem_assigned.mp hid
    · exact .inl (mem_assigned.mpr (.inl (hmap ▸ hid)))
    · rw [hjoins] at hk
      obtain ⟨-, hk⟩ | ⟨-, rfl⟩ := slot_set hk
      · exact .inl (mem_assigned.mpr (.inr ⟨m, k, hk, rfl, hphase⟩))
      · exact .inr (hcreated id hphase)
  refine ⟨by rw [hmap]; exact h.injective, fun room id hid => ?_, fun m k hk => ?_⟩
  · rw [hmap] at hid
    exact Nat.lt_of_lt_of_le (h.bounded room id hid) hnext
  · rw [hjoins] at hk
    obtain ⟨hne, hk⟩ | ⟨rfl, rfl⟩ := slot_set hk
    · refine (h.fits m k hk).mono (fun hl => ⟨?_, hmap⟩) (fun room id hid => by rwa [hmap]) hnext hconferences
        (hassigned k.room)
      obtain hsame | hnone := hholder
      · exact hsame
      · exact absurd (hnone.symm.trans ((h.fits m k hk).holder hl).1) nofun
    · have hfits := h.fits m j hj
      refine ⟨by rw [hmap]; exact hlocks, by rw [hmap]; exact hown, by rw [hmap]; exact hroom, ?_, hentered, hdeclined⟩
      intro hfinished id hid
      obtain hid | hid := hassigned _ id hid
      · exact (hfits.live (hbegun hfinished) id hid).imp (fun hmem => hconferences hmem) (fun hshut => hshut)
      · exact .inl hid

theorem Inv.make {room : String} (hopen : Open s (.make room)) (hstep : s.step (.make room) = some s') :
    Inv s' := by
  obtain rfl := Option.some.inj hstep
  have hassigned : ∀ room' id, id ∈ State.assigned { s with joins := s.joins ++ [⟨room, .waiting, []⟩] } room' →
      id ∈ s.assigned room' := by
    intro room' id hid
    obtain hid | ⟨m, k, hk, rfl, hphase⟩ := mem_assigned.mp hid
    · exact mem_assigned.mpr (.inl hid)
    · obtain hk | rfl := slot_append hk
      · exact mem_assigned.mpr (.inr ⟨m, k, hk, rfl, hphase⟩)
      · contradiction
  refine ⟨h.injective, h.bounded, fun m k hk => ?_⟩
  obtain hk | rfl := slot_append hk
  · exact (h.fits m k hk).mono (fun _ => ⟨rfl, rfl⟩) (fun _ _ hid => hid) (Nat.le_refl _) (fun _ hid => hid)
      (fun id hid => .inl (hassigned _ id hid))
  · exact ⟨nofun, nofun, nofun, fun _ id hid => .inl (hopen id (hassigned _ id hid)), nofun, nofun⟩

theorem Inv.lock (hstep : s.step (.lock n) = some s') : Inv s' := by
  obtain ⟨j, hj, hstep⟩ := Option.bind_eq_some_iff.mp hstep
  split at hstep
  · next hfree =>
    obtain ⟨hphase, hholder⟩ := hfree
    cases hmap : s.roomMap j.room with
    | some id =>
      simp only [hmap, Option.some.injEq] at hstep
      obtain rfl := hstep
      refine h.moves hj rfl rfl (.inl rfl) (Nat.le_refl _) (fun _ hid => hid) nofun nofun (by simp) ?_
        (fun _ => by rw [hphase]; rfl) nofun nofun
      intro id' hid
      obtain rfl := Option.some.inj hid
      exact hmap
    | none =>
      simp only [hmap, Option.some.injEq] at hstep
      obtain rfl := hstep
      exact h.moves hj rfl rfl (.inr hholder) (Nat.le_refl _) (fun _ hid => hid) nofun (fun _ => ⟨rfl, hmap⟩)
        (by simp) nofun (fun _ => by rw [hphase]; rfl) nofun nofun
  · contradiction

theorem Inv.mint (hstep : s.step (.mint n) = some s') : Inv s' := by
  obtain ⟨j, hj, hstep⟩ := Option.bind_eq_some_iff.mp hstep
  split at hstep
  · next hphase =>
    obtain rfl := Option.some.inj hstep
    have hlocks := (h.fits n j hj).holder (by rw [hphase]; rfl)
    refine h.moves hj rfl rfl (.inl rfl) (Nat.le_succ _) (fun _ hid => hid) nofun (fun _ => hlocks) ?_ nofun
      (fun _ => by rw [hphase]; rfl) nofun nofun
    rintro id (hid | hid)
    · obtain rfl := Phase.minted.inj hid
      exact ⟨Nat.lt_succ_self _, fun room hroom => Nat.lt_irrefl _ (h.bounded room _ hroom)⟩
    · contradiction
  · contradiction

theorem Inv.insert (hstep : s.step (.insert n) = some s') : Inv s' := by
  obtain ⟨j, hj, hstep⟩ := Option.bind_eq_some_iff.mp hstep
  split at hstep
  · next id hphase =>
    obtain rfl := Option.some.inj hstep
    have hfits := h.fits n j hj
    refine h.moves hj rfl rfl (.inl rfl) (Nat.le_refl _) (fun _ hid => List.mem_cons_of_mem _ hid) ?_
      (fun _ => hfits.holder (by rw [hphase]; rfl)) ?_ nofun (fun _ => by rw [hphase]; rfl) nofun nofun
    · intro id' hid
      obtain rfl := Phase.created.inj hid
      exact List.mem_cons_self
    · rintro id' (hid | hid)
      · contradiction
      · obtain rfl := Phase.created.inj hid
        exact hfits.own id (.inl hphase)
  · contradiction

theorem Inv.store (hstep : s.step (.store n) = some s') : Inv s' := by
  obtain ⟨j, hj, hstep⟩ := Option.bind_eq_some_iff.mp hstep
  split at hstep
  · next id hphase =>
    obtain rfl := Option.some.inj hstep
    have hfits := h.fits n j hj
    have hlocks : j.phase.locks = true := by rw [hphase]; rfl
    obtain ⟨hlt, hfree⟩ := hfits.own id (.inr hphase)
    have hfirst := (hfits.holder hlocks).2
    have hmap : ∀ room id', s.roomMap.insert j.room id room = some id' ↔
        room = j.room ∧ id' = id ∨ s.roomMap room = some id' := by
      intro room id'
      rw [Table.insert_apply]
      by_cases hroom : room = j.room
      · subst hroom
        simp [hfirst, eq_comm]
      · simp [hroom]
    have hassigned : ∀ room id', id' ∈ State.assigned { s.move n j (.resolving id) with
        roomMap := s.roomMap.insert j.room id, holder := none } room → id' ∈ s.assigned room := by
      intro room id' hid
      obtain hid | ⟨m, k, hk, hroom, hcreated⟩ := mem_assigned.mp hid
      · obtain ⟨rfl, rfl⟩ | hid := (hmap room id').mp hid
        · exact mem_assigned.mpr (.inr ⟨n, j, hj, rfl, hphase⟩)
        · exact mem_assigned.mpr (.inl hid)
      · obtain ⟨-, hk⟩ | ⟨-, rfl⟩ := slot_set hk
        · exact mem_assigned.mpr (.inr ⟨m, k, hk, hroom, hcreated⟩)
        · contradiction
    refine ⟨fun a b id' ha hb => ?_, fun room id' hid => ?_, fun m k hk => ?_⟩
    · obtain ⟨rfl, rfl⟩ | hold := (hmap a id').mp ha
      · obtain ⟨rfl, -⟩ | hold := (hmap b id').mp hb
        · rfl
        · exact absurd hold (hfree b)
      · obtain ⟨rfl, rfl⟩ | hold' := (hmap b id').mp hb
        · exact absurd hold (hfree a)
        · exact h.injective a b id' hold hold'
    · obtain ⟨rfl, rfl⟩ | hid := (hmap room id').mp hid
      · exact hlt
      · exact h.bounded room id' hid
    · obtain ⟨hne, hk⟩ | ⟨rfl, rfl⟩ := slot_set hk
      · refine (h.fits m k hk).mono (fun hl => ?_) (fun room id' hid => (hmap room id').mpr (.inr hid))
          (Nat.le_refl _) (fun _ hid => hid) (fun id' hid => .inl (hassigned _ id' hid))
        exact absurd (h.holder_unique hj hlocks hk hne) (by rw [hl]; nofun)
      · refine ⟨nofun, by simp, fun id' hid => ?_, fun _ id' hid => ?_, nofun, nofun⟩
        · obtain rfl := Option.some.inj hid
          exact Table.insert_self _ _ _
        · exact hfits.live (by rw [hphase]; rfl) id' (hassigned _ id' hid)
  · contradiction

theorem Inv.goes {phase : Phase} (hj : s.joins[n]? = some j) (hlocks : phase.locks = false)
    (hconference : ∀ id, phase.conference = some id → j.phase.conference = some id)
    (hbegun : phase.finished = false → j.phase.finished = false)
    (hentered : ∀ id, phase = .entered id false → id ∈ j.shut)
    (hdeclined : ∀ id, phase = .declined id → id ∈ j.shut) : Inv (s.move n j phase) := by
  refine h.moves hj rfl rfl (.inl rfl) (Nat.le_refl _) (fun _ hid => hid) ?_ (by rw [hlocks]; nofun) ?_
    (fun id hid => (h.fits n j hj).room id (hconference id hid)) hbegun hentered hdeclined
  · rintro id rfl
    contradiction
  · rintro id (rfl | rfl) <;> contradiction

/-- What a join was sent to is in the registry, or was shut down meanwhile. -/
theorem Inv.resolvable (hj : s.joins[n]? = some j) {id : ConferenceId}
    (hconference : j.phase.conference = some id) (hbegun : j.phase.finished = false) :
    id ∈ s.conferences ∨ id ∈ j.shut :=
  (h.fits n j hj).live hbegun id (mem_assigned.mpr (.inl ((h.fits n j hj).room id hconference)))

theorem Inv.resolve {known : Bool} (hstep : s.step (.resolve n known) = some s') : Inv s' := by
  obtain ⟨j, hj, hstep⟩ := Option.bind_eq_some_iff.mp hstep
  split at hstep
  · next id hphase =>
    have hconference : j.phase.conference = some id := by rw [hphase]; rfl
    have hbegun : j.phase.finished = false := by rw [hphase]; rfl
    split at hstep
    · obtain rfl := Option.some.inj hstep
      exact h.goes hj rfl nofun nofun nofun nofun
    · split at hstep
      · obtain rfl := Option.some.inj hstep
        exact h.goes hj rfl (fun _ hid => hconference.trans hid) (fun _ => hbegun) nofun nofun
      · next hgone =>
        obtain rfl := Option.some.inj hstep
        refine h.goes hj rfl (fun _ hid => hconference.trans hid) nofun nofun fun id' hid => ?_
        obtain rfl := Phase.declined.inj hid
        exact (h.resolvable hj hconference hbegun).resolve_left hgone
  · contradiction

theorem Inv.enter (hstep : s.step (.enter n) = some s') : Inv s' := by
  obtain ⟨j, hj, hstep⟩ := Option.bind_eq_some_iff.mp hstep
  split at hstep
  · next id hphase =>
    obtain rfl := Option.some.inj hstep
    have hconference : j.phase.conference = some id := by rw [hphase]; rfl
    have hbegun : j.phase.finished = false := by rw [hphase]; rfl
    refine h.goes hj rfl (fun _ hid => hconference.trans hid) nofun (fun id' hid => ?_) nofun
    obtain ⟨rfl, hgone⟩ := Phase.entered.inj hid
    exact (h.resolvable hj hconference hbegun).resolve_left (of_decide_eq_false hgone)
  · contradiction

theorem Inv.drop (hstep : s.step (.drop n) = some s') : Inv s' := by
  obtain ⟨j, hj, hstep⟩ := Option.bind_eq_some_iff.mp hstep
  split at hstep
  · obtain rfl := Option.some.inj hstep
    exact h.goes hj rfl nofun nofun nofun nofun
  · obtain rfl := Option.some.inj hstep
    exact h.goes hj rfl nofun nofun nofun nofun
  · contradiction

theorem Inv.create (hstep : s.step .create = some s') : Inv s' := by
  obtain rfl := Option.some.inj hstep
  refine ⟨h.injective, fun room id hid => Nat.lt_succ_of_lt (h.bounded room id hid), fun m k hk => ?_⟩
  exact (h.fits m k hk).mono (fun _ => ⟨rfl, rfl⟩) (fun _ _ hid => hid) (Nat.le_succ _)
    (fun _ hid => List.mem_cons_of_mem _ hid) (fun id hid => .inl hid)

end

@[simp] theorem mark_phase (id : ConferenceId) (j : Join) : (j.mark id).phase = j.phase := by
  unfold Join.mark
  split <;> rfl

@[simp] theorem mark_room (id : ConferenceId) (j : Join) : (j.mark id).room = j.room := by
  unfold Join.mark
  split <;> rfl

theorem mem_mark_shut {id id' : ConferenceId} {j : Join} (h : id' ∈ j.shut) : id' ∈ (j.mark id).shut := by
  unfold Join.mark
  split
  · exact h
  · exact List.mem_cons_of_mem _ h

theorem Inv.shutdown (h : Inv s) {id : ConferenceId} (hstep : s.step (.shutdown id) = some s') : Inv s' := by
  simp only [State.step] at hstep
  split at hstep
  · obtain rfl := Option.some.inj hstep
    have hassigned : ∀ room id', id' ∈ State.assigned { s with
        conferences := s.conferences.filter (· ≠ id), joins := s.joins.map (Join.mark id) } room →
        id' ∈ s.assigned room := by
      intro room id' hid
      obtain hid | ⟨m, k, hk, rfl, hcreated⟩ := mem_assigned.mp hid
      · exact mem_assigned.mpr (.inl hid)
      · obtain ⟨j, hj, rfl⟩ := Option.map_eq_some_iff.mp (List.getElem?_map ▸ hk)
        exact mem_assigned.mpr (.inr ⟨m, j, hj, (mark_room id j).symm, mark_phase id j ▸ hcreated⟩)
    refine ⟨h.injective, h.bounded, fun m k hk => ?_⟩
    obtain ⟨j, hj, rfl⟩ := Option.map_eq_some_iff.mp (List.getElem?_map ▸ hk)
    have hfits := h.fits m j hj
    constructor
    · simpa using hfits.holder
    · simpa using hfits.own
    · simpa using hfits.room
    · intro hbegun id' hid
      rw [mark_phase] at hbegun
      rw [mark_room] at hid
      by_cases hsame : id' = id
      · subst hsame
        right
        simp [Join.mark, hbegun]
      · obtain hmem | hshut := hfits.live hbegun id' (hassigned _ id' hid)
        · exact .inl (List.mem_filter.mpr ⟨hmem, decide_eq_true hsame⟩)
        · exact .inr (mem_mark_shut hshut)
    · intro id' hid
      exact mem_mark_shut (hfits.entered id' (mark_phase id j ▸ hid))
    · intro id' hid
      exact mem_mark_shut (hfits.declined id' (mark_phase id j ▸ hid))
  · obtain rfl := Option.some.inj hstep
    exact h

end Steps

/-! ## runs -/

theorem Inv.step {s s' : State} {a : Action} (h : Inv s) (hopen : Open s a) (hstep : s.step a = some s') : Inv s' := by
  cases a with
  | make room => exact h.make hopen hstep
  | lock n => exact h.lock hstep
  | mint n => exact h.mint hstep
  | insert n => exact h.insert hstep
  | store n => exact h.store hstep
  | resolve n known => exact h.resolve hstep
  | enter n => exact h.enter hstep
  | drop n => exact h.drop hstep
  | create => exact h.create hstep
  | shutdown id => exact h.shutdown hstep

/-- In every run in which no join is made to a room whose conference was shut down,
joins come to what they should. -/
theorem joins_right {acts : List Action} {s : State} (hexec : exec State.step new acts = some s)
    (hmeets : Meets State.step Open new acts) : s.Right := by
  have h : Inv s := exec_invariant_of_meets (fun _ _ _ h ha hstep => h.step ha hstep) hexec hmeets .new
  constructor
  · intro n m j k a b live live' hj hk ha hb hroom
    have hja := (h.fits n j hj).room a (by rw [ha]; rfl)
    have hkb := (h.fits m k hk).room b (by rw [hb]; rfl)
    rw [hroom, hkb] at hja
    exact (Option.some.inj hja).symm
  · intro n m j k a b live live' hj hk ha hb hroom hab
    have hja := (h.fits n j hj).room a (by rw [ha]; rfl)
    have hkb := (h.fits m k hk).room b (by rw [hb]; rfl)
    exact hroom (h.injective _ _ _ hja (hab ▸ hkb))
  · intro n j id hj
    exact (h.fits n j hj).entered id
  · intro n j id hj
    exact (h.fits n j hj).declined id

/-- Two first joins race to one room, a third goes to another. -/
def racingJoins : List Action :=
  [.make "room-a", .make "room-a", .make "room-b", .lock 1, .mint 1, .create, .insert 1, .store 1, .lock 0, .lock 2,
    .mint 2, .insert 2, .store 2, .resolve 0 true, .resolve 1 true, .resolve 2 true, .enter 0, .enter 1, .enter 2,
    .shutdown 0]

theorem joins_right_racingJoins : ∃ s, exec State.step new racingJoins = some s ∧
      s.joins.map (·.phase) = [.entered 0 true, .entered 0 true, .entered 2 true] ∧ s.Right := by
  obtain ⟨s, hexec⟩ := Option.isSome_iff_exists.mp
    (by decide +kernel : (exec State.step new racingJoins).isSome = true)
  have hview : (exec State.step new racingJoins).map (fun s => s.joins.map (·.phase)) =
      some [.entered 0 true, .entered 0 true, .entered 2 true] := by
    decide +kernel
  rw [hexec, Option.map_some, Option.some.injEq] at hview
  exact ⟨s, hexec, hview, joins_right hexec (by decide +kernel)⟩

/-- A room's conference is shut down, and the room joined again. -/
def joinAfterShutdown : List Action :=
  [.make "room-a", .lock 0, .mint 0, .insert 0, .store 0, .resolve 0 true, .enter 0, .shutdown 0, .make "room-a",
    .lock 1, .resolve 1 true]

/-- The second join is declined, and with it every later one. -/
theorem join_declined : ∃ s, exec State.step new joinAfterShutdown = some s ∧
      s.joins[1]? = some ⟨"room-a", .declined 0, []⟩ ∧ ¬ s.Right := by
  obtain ⟨s, hexec⟩ := Option.isSome_iff_exists.mp
    (by decide +kernel : (exec State.step new joinAfterShutdown).isSome = true)
  have hview : (exec State.step new joinAfterShutdown).map (fun s => s.joins[1]?) =
      some (some ⟨"room-a", .declined 0, []⟩) := by
    decide +kernel
  rw [hexec, Option.map_some, Option.some.injEq] at hview
  exact ⟨s, hexec, hview, fun h => absurd (h.declined 1 _ 0 hview rfl) List.not_mem_nil⟩

end SmithsNet.Mixer
