import SmithsNet.Lib.Exec
import SmithsNet.Lib.Slots
import SmithsNet.Mixer.Conference

/-!
# SmithsNet.Mixer.Gauges

Conferences that share one `MixerMetrics`, and the two gauges their `spawn`, `join`,
`leave` and `shutdown` write.

The first `shutdown` of a conference takes its whole roster off `participants_active` and
leaves the roster as it is, so a `leave` that follows counts its participant down again,
and a `join` that follows is counted although its conference is gone.
`gauges_right_iff`: the gauges are right along a run exactly when nobody enters a conference
that was shut down and nobody on its roster leaves it.
-/

namespace SmithsNet.Mixing

open Lib

structure MixerMetrics where
  conferencesActive : Int := 0
  participantsActive : Int := 0

/-- A conference as its callers hold it: `live` until `shutdown` has taken the tick task. -/
structure Handle (α ν : Type) where
  state : ConferenceState α ν
  live : Bool

/-- The conferences, in the order they were spawned in. -/
structure Fleet (α ν : Type) where
  conferences : List (Handle α ν) := []
  metrics : MixerMetrics := {}

inductive Request
  | spawn
  | join (n : Nat)
  | leave (n : Nat) (id : ParticipantId)
  | shutdown (n : Nat)

variable {α ν σ : Type}

namespace Fleet

/-- Conference `n` becomes `h`. -/
def put (s : Fleet α ν) (n : Nat) (h : Handle α ν) : Fleet α ν :=
  { s with conferences := s.conferences.set n h }

/-- One more conference. -/
def push (s : Fleet α ν) : Fleet α ν := { s with conferences := s.conferences ++ [⟨.new, true⟩] }

/-- `participants_active.inc()`, `dec()` and `dec_by(_)` -/
def countParticipants (s : Fleet α ν) (d : Int) : Fleet α ν :=
  { s with metrics := { s.metrics with participantsActive := s.metrics.participantsActive + d } }

def countConferences (s : Fleet α ν) (d : Int) : Fleet α ν :=
  { s with metrics := { s.metrics with conferencesActive := s.metrics.conferencesActive + d } }

/-- One call; `none` for a conference that was not spawned. -/
def step (st : Stages α ν σ) (cfg : ConferenceConfig) (s : Fleet α ν) : Request → Option (Fleet α ν)
  | .spawn => some (s.push.countConferences 1)
  | .join n => do
      let h ← s.conferences[n]?
      some ((s.put n { h with state := (h.state.join st cfg).2 }).countParticipants 1)
  | .leave n id => do
      let h ← s.conferences[n]?
      match h.state.leave id with
      | .ok state => some ((s.put n { h with state := state }).countParticipants (-1))
      | .error _ => some s
  | .shutdown n => do
      let h ← s.conferences[n]?
      if h.live then
        let s := (s.put n { h with live := false }).countConferences (-1)
        -- the roster is counted off, and kept
        some (s.countParticipants (-(h.state.participants.len : Int)))
      else some s

/-! ## what the gauges are to show -/

/-- A conference that was not shut down counts once. -/
def liveness (h : Handle α ν) : Nat := if h.live then 1 else 0

/-- The participants of a conference that was not shut down. -/
def headcount (h : Handle α ν) : Nat := if h.live then h.state.participants.len else 0

/-- The gauges show the conferences that were not shut down and their participants. -/
structure Shown (s : Fleet α ν) : Prop where
  conferences : s.metrics.conferencesActive = total liveness s.conferences
  participants : s.metrics.participantsActive = total headcount s.conferences

/-- Every id on the roster was given away by `join`. -/
def Fresh (s : Fleet α ν) : Prop :=
  ∀ h ∈ s.conferences, ∀ r ∈ h.state.participants.rows, r.1 < h.state.nextParticipant

/-- A conference that was shut down is left alone: nobody joins it, and nobody on its
roster leaves it. -/
def Settled (s : Fleet α ν) : Request → Prop
  | .join n => ∀ h ∈ s.conferences[n]?, h.live = true
  | .leave n id => ∀ h ∈ s.conferences[n]?, h.live = true ∨ h.state.participants.get id = none
  | _ => True

instance (s : Fleet α ν) : ∀ a, Decidable (s.Settled a)
  | .spawn | .shutdown _ => isTrue trivial
  | .join _ => inferInstanceAs (Decidable (∀ _ ∈ _, _))
  | .leave _ _ => inferInstanceAs (Decidable (∀ _ ∈ _, _ ∨ _))

end Fleet

/-! ## rosters -/

namespace ConferenceState

theorem len_join (st : Stages α ν σ) (cfg : ConferenceConfig) {s : ConferenceState α ν}
    (hfresh : ∀ r ∈ s.participants.rows, r.1 < s.nextParticipant) :
    (s.join st cfg).2.participants.len = s.participants.len + 1 := by
  refine Sorted.len_put ?_
  cases hget : s.participants.get s.nextParticipant with
  | none => rfl
  | some r =>
    obtain ⟨hr, hkey⟩ := Sorted.get_eq_some hget
    exact absurd hkey (hfresh r hr).ne

theorem fresh_join (st : Stages α ν σ) (cfg : ConferenceConfig) {s : ConferenceState α ν}
    (hfresh : ∀ r ∈ s.participants.rows, r.1 < s.nextParticipant) :
    ∀ r ∈ (s.join st cfg).2.participants.rows, r.1 < (s.join st cfg).2.nextParticipant := by
  intro r hr
  obtain rfl | ⟨hr, -⟩ := Sorted.mem_put.mp hr
  · exact Nat.lt_succ_self _
  · exact (hfresh r hr).trans (Nat.lt_succ_self _)

end ConferenceState

/-! ## one call -/

namespace Fleet

variable {st : Stages α ν σ} {cfg : ConferenceConfig} {s s' : Fleet α ν} {n : Nat} {h : Handle α ν}

theorem new_shown : Shown ({} : Fleet α ν) := ⟨rfl, rfl⟩

theorem new_fresh : Fresh ({} : Fleet α ν) := nofun

theorem total_put (w : Handle α ν → Nat) (hn : s.conferences[n]? = some h) (h' : Handle α ν) :
    (total w (s.put n h').conferences : Int) = total w s.conferences + w h' - w h := by
  have hset := total_set w hn h'
  show (total w (s.conferences.set n h') : Int) = _
  omega

/-- What a call does: the conference it is about, and what the gauges are changed by. -/
inductive Moves (st : Stages α ν σ) (cfg : ConferenceConfig) (s : Fleet α ν) : Request → Fleet α ν → Prop
  | spawn : Moves st cfg s .spawn (s.push.countConferences 1)
  | join {n : Nat} {h : Handle α ν} (hn : s.conferences[n]? = some h) : Moves st cfg s (.join n)
      ((s.put n { h with state := (h.state.join st cfg).2 }).countParticipants 1)
  | leave {n : Nat} {id : ParticipantId} {h : Handle α ν} {r : Row α ν} (hn : s.conferences[n]? = some h)
      (hr : h.state.participants.get id = some r) : Moves st cfg s (.leave n id)
      ((s.put n { h with state := { h.state with participants := h.state.participants.remove id } }).countParticipants
        (-1))
  | unknown {n : Nat} {id : ParticipantId} {h : Handle α ν} (hn : s.conferences[n]? = some h)
      (hr : h.state.participants.get id = none) : Moves st cfg s (.leave n id) s
  | shutdown {n : Nat} {h : Handle α ν} (hn : s.conferences[n]? = some h) (hlive : h.live = true) :
      Moves st cfg s (.shutdown n)
      (((s.put n { h with live := false }).countConferences (-1)).countParticipants
        (-(h.state.participants.len : Int)))
  | again {n : Nat} {h : Handle α ν} (hn : s.conferences[n]? = some h) (hlive : h.live = false) :
      Moves st cfg s (.shutdown n) s

theorem step_moves {a : Request} (hstep : s.step st cfg a = some s') : Moves st cfg s a s' := by
  cases a with
  | spawn =>
    rw [← Option.some.inj hstep]
    exact .spawn
  | join n =>
    obtain ⟨h, hn, hs'⟩ := Option.bind_eq_some_iff.mp hstep
    rw [← Option.some.inj hs']
    exact .join hn
  | leave n id =>
    obtain ⟨h, hn, hs'⟩ := Option.bind_eq_some_iff.mp hstep
    unfold ConferenceState.leave at hs'
    cases hr : h.state.participants.get id with
    | none =>
      rw [hr] at hs'
      rw [← Option.some.inj hs']
      exact .unknown hn hr
    | some r =>
      rw [hr] at hs'
      rw [← Option.some.inj hs']
      exact .leave hn hr
  | shutdown n =>
    obtain ⟨h, hn, hs'⟩ := Option.bind_eq_some_iff.mp hstep
    split at hs'
    · next hlive =>
      rw [← Option.some.inj hs']
      exact .shutdown hn hlive
    · next hlive =>
      rw [← Option.some.inj hs']
      exact .again hn (Bool.eq_false_iff.mpr hlive)

theorem Fresh.set (hfresh : s.Fresh) {h' : Handle α ν}
    (hroster : ∀ r ∈ h'.state.participants.rows, r.1 < h'.state.nextParticipant) :
    ∀ h ∈ s.conferences.set n h', ∀ r ∈ h.state.participants.rows, r.1 < h.state.nextParticipant := by
  intro h hmem
  obtain hmem | rfl := List.mem_or_eq_of_mem_set hmem
  · exact hfresh h hmem
  · exact hroster

theorem Fresh.moves (hfresh : s.Fresh) {a : Request} (hmoves : Moves st cfg s a s') : s'.Fresh := by
  cases hmoves with
  | spawn =>
    intro h hmem
    obtain hmem | hmem := List.mem_append.mp hmem
    · exact hfresh h hmem
    · rw [List.mem_singleton.mp hmem]
      nofun
  | join hn => exact hfresh.set (ConferenceState.fresh_join st cfg (hfresh _ (List.mem_of_getElem? hn)))
  | leave hn hr =>
    refine hfresh.set fun r hr => ?_
    exact hfresh _ (List.mem_of_getElem? hn) r (Sorted.mem_keep.mp hr).1
  | @shutdown n h hn hlive => exact @Fresh.set _ _ _ _ hfresh { h with live := false } (hfresh h (List.mem_of_getElem? hn))
  | unknown hn hr => exact hfresh
  | again hn hlive => exact hfresh

/-- A call that leaves alone what was shut down keeps the gauges right. -/
theorem Shown.moves (hshown : s.Shown) (hfresh : s.Fresh) {a : Request} (hok : s.Settled a)
    (hmoves : Moves st cfg s a s') : s'.Shown := by
  obtain ⟨hconferences, hparticipants⟩ := hshown
  cases hmoves with
  | spawn =>
    constructor
    · show s.metrics.conferencesActive + 1 = (total _ (s.conferences ++ [⟨.new, true⟩]) : Int)
      rw [hconferences, total_append]
      rfl
    · show s.metrics.participantsActive = (total _ (s.conferences ++ [⟨.new, true⟩]) : Int)
      rw [hparticipants, total_append]
      rfl
  | @join n h hn =>
    have hlive : h.live = true := hok h hn
    have hlen := ConferenceState.len_join st cfg (hfresh h (List.mem_of_getElem? hn))
    constructor
    · show s.metrics.conferencesActive = (total _ (s.put n _).conferences : Int)
      rw [hconferences, total_put liveness hn]
      simp [liveness]
    · show s.metrics.participantsActive + 1 = (total _ (s.put n _).conferences : Int)
      rw [hparticipants, total_put headcount hn]
      simp only [headcount, hlive, hlen, if_true]
      omega
  | @leave n id h r hn hr =>
    have hlive : h.live = true := by
      obtain hlive | hnone := hok h hn
      · exact hlive
      · rw [hnone] at hr
        contradiction
    have hlen := Sorted.len_remove hr
    constructor
    · show s.metrics.conferencesActive = (total _ (s.put n _).conferences : Int)
      rw [hconferences, total_put liveness hn]
      simp [liveness]
    · show s.metrics.participantsActive + -1 = (total _ (s.put n _).conferences : Int)
      rw [hparticipants, total_put headcount hn]
      simp only [headcount, hlive, if_true]
      omega
  | @shutdown n h hn hlive =>
    constructor
    · show s.metrics.conferencesActive + -1 = (total _ (s.put n _).conferences : Int)
      rw [hconferences, total_put liveness hn]
      simp [liveness, hlive]
      omega
    · show s.metrics.participantsActive + -(h.state.participants.len : Int) = (total _ (s.put n _).conferences : Int)
      rw [hparticipants, total_put headcount hn]
      simp [headcount, hlive]
      omega
  | unknown hn hr => exact ⟨hconferences, hparticipants⟩
  | again hn hlive => exact ⟨hconferences, hparticipants⟩

theorem Shown.not_moves (hshown : s.Shown) {a : Request} (hbad : ¬ s.Settled a)
    (hmoves : Moves st cfg s a s') : ¬ s'.Shown := by
  rintro ⟨-, hshows⟩
  have hparticipants := hshown.participants
  cases hmoves with
  | @join n h hn =>
    have hlive : h.live = false := by
      rw [← Bool.not_eq_true]
      intro hlive
      refine hbad fun h' hn' => ?_
      rw [← Option.mem_unique hn hn']
      exact hlive
    change s.metrics.participantsActive + 1 = (total _ (s.put n _).conferences : Int) at hshows
    rw [total_put headcount hn, hparticipants] at hshows
    simp [headcount, hlive] at hshows
  | @leave n id h r hn hr =>
    have hlive : h.live = false := by
      rw [← Bool.not_eq_true]
      intro hlive
      refine hbad fun h' hn' => .inl ?_
      rw [← Option.mem_unique hn hn']
      exact hlive
    change s.metrics.participantsActive + -1 = (total _ (s.put n _).conferences : Int) at hshows
    rw [total_put headcount hn, hparticipants] at hshows
    simp [headcount, hlive] at hshows
  | unknown hn hr =>
    refine hbad fun h' hn' => .inr ?_
    rw [← Option.mem_unique hn hn']
    exact hr
  | spawn => exact hbad trivial
  | shutdown hn hlive => exact hbad trivial
  | again hn hlive => exact hbad trivial

/-- What the gauges are for. -/
def Right (s : Fleet α ν) : Prop := s.Shown ∧ 0 ≤ s.metrics.participantsActive

theorem Shown.right (h : s.Shown) : s.Right := ⟨h, by rw [h.participants]; exact Int.natCast_nonneg _⟩

end Fleet

/-! ## runs -/

/-- The gauges are right all along a run exactly when no call of the run joins a conference
that was shut down, or leaves one as a participant on its roster. -/
theorem gauges_right_iff (st : Stages α ν σ) (cfg : ConferenceConfig) {calls : List Request} {s : Fleet α ν}
    (hrun : exec (Fleet.step st cfg) {} calls = some s) :
    (∀ before after s₁, calls = before ++ after → exec (Fleet.step st cfg) {} before = some s₁ → s₁.Right) ↔
      Meets (Fleet.step st cfg) Fleet.Settled {} calls :=
  meets_iff (I := fun s => s.Shown ∧ s.Fresh) (fun _ h => h.1.right)
    (fun _ _ _ h hok hstep =>
      ⟨h.1.moves h.2 hok (Fleet.step_moves hstep), h.2.moves (Fleet.step_moves hstep)⟩)
    (fun _ _ _ h hbad hstep hright => h.1.not_moves hbad (Fleet.step_moves hstep) hright.1)
    hrun ⟨Fleet.new_shown, Fleet.new_fresh⟩

/-- Two conferences with a participant each; one of them is shut down, twice. -/
def sampleCalls : List Request :=
  [.spawn, .spawn, .join 0, .join 1, .leave 1 7, .shutdown 0, .shutdown 0, .leave 1 0]

theorem gauges_right_sampleCalls : ∃ s, exec (Fleet.step plainStages {}) {} sampleCalls = some s ∧
      ∀ before after s₁, sampleCalls = before ++ after →
        exec (Fleet.step plainStages {}) {} before = some s₁ → s₁.Right := by
  obtain ⟨s, hs⟩ := Option.isSome_iff_exists.mp
    (show (exec (Fleet.step plainStages {}) {} sampleCalls).isSome = true from rfl)
  refine ⟨s, hs, (gauges_right_iff plainStages {} hs).mpr ?_⟩
  decide +kernel

/-- A participant that leaves after the shutdown is counted down twice. -/
theorem leave_after_shutdown_negative :
    ∃ s, exec (Fleet.step plainStages {}) {} [.spawn, .join 0, .shutdown 0, .leave 0 0] = some s ∧
      s.metrics.participantsActive = -1 ∧ ¬ s.Right := by
  obtain ⟨s, hs⟩ := Option.isSome_iff_exists.mp (show
    (exec (Fleet.step plainStages {}) {} [.spawn, .join 0, .shutdown 0, .leave 0 0]).isSome = true from rfl)
  have hgauge : s.metrics.participantsActive = -1 := by
    have hrun : (exec (Fleet.step plainStages {}) {} [.spawn, .join 0, .shutdown 0, .leave 0 0]).map
        (fun s => s.metrics.participantsActive) = some (-1) := by decide +kernel
    rw [hs] at hrun
    exact Option.some.inj hrun
  refine ⟨s, hs, hgauge, fun hright => ?_⟩
  have hpos := hright.2
  omega

end SmithsNet.Mixing
