import SmithsNet.Webrtc.Handler

/-!
# SmithsNet.Webrtc.Parking

The legs that wait under a tag for their partner.

A leg that finds no partner looks first and is parked afterwards, byes find a leg
first and remove whatever is parked under its tag afterwards, and the end of a dialog
does nothing to its parked leg.  Seen from the map of parked legs the rest of the
handler does not matter: `Legs` is an invariant of the map and of what the offers and
dialogs are to it (`Leg`), and every other step leaves both as they are.

`parking_iff`: in the states of a run each parked leg is in the map until it is paired,
its own session hangs up or its own deadline passes, no two legs wait under one tag, and
none waits whose dialog has ended, exactly when every step of the run is `Fair`.
-/

namespace SmithsNet.Webrtc

open Lib Option

/-! ## statements -/

/-- Between looking for a partner and being taken. -/
def Phase.waits : Phase → Bool
  | .parking | .parked => true
  | _ => false

/-- Neither in the map nor on the way into it or out of it. -/
def Phase.calm : Phase → Bool
  | .parking | .parked | .bridging _ | .taken _ | .gone _ => false
  | _ => true

/-- Only offers come here. -/
def Phase.ofOffer : Phase → Bool
  | .negotiating | .checking | .securing | .single => true
  | _ => false

/-- A leg is no longer on its way to a partner. -/
def Phase.over : Phase → Bool
  | .taken _ | .paired _ | .failed | .gone _ => true
  | _ => false

/-- A leg may leave for a bye of its own session, and for its own deadline. -/
def Rightly (i : Nat) (conn : Option Nat) (session : Option SessionId) (how : Departure) : Prop :=
  how = .deadline i ∨ ∃ own, how = .bye own ∧ session = some own ∧ conn.isSome = true

namespace State

variable (s : State)

/-- The rendezvous of the legs is kept. -/
structure Parking : Prop where
  /-- A parked leg is in the map. -/
  parked : ∀ (i : Nat) (op : Op), s.ops[i]? = some op → op.phase = .parked →
    ∃ tag, op.tag = some tag ∧ s.pending tag = some i
  left : ∀ (i : Nat) (op : Op) (how : Departure), s.ops[i]? = some op → op.phase = .gone how →
    Rightly i op.conn op.session how
  /-- Two legs under one tag do not miss each other. -/
  met : ∀ (i j : Nat) (op op' : Op) (tag : String), s.ops[i]? = some op → s.ops[j]? = some op' →
    op.tag = some tag → op'.tag = some tag → op.phase.waits = true → op'.phase.waits = true → i = j
  ended : ∀ (i : Nat) (op : Op), s.ops[i]? = some op → op.ended = true → op.phase.waits = false

/-- The session and the tag of the bye that is about to remove a leg. -/
def removing (c : Nat) : Option (SessionId × String) :=
  match s.conns[c]?.bind Conn.task with
  | some (.removing session tag) => some (session, tag)
  | _ => none

/-- The step does not come between another's looking and parking, or finding and removing;
a bridge is installed; and no dialog ends whose leg is parked. -/
def Fair : Action → Prop
  | .look i => ∀ op ∈ s.ops[i]?, ∀ tag ∈ op.tag, s.pending tag = none →
      ∀ op' ∈ s.ops, op'.tag = some tag → op'.phase ≠ .parking
  | .remove c => ∀ bye ∈ s.removing c, ∀ i ∈ s.pending bye.2, ∀ op ∈ s.ops[i]?,
      op.session = some bye.1 ∧ op.conn.isSome = true
  | .bridged _ ok => ok = true
  | .endDialog i => ∀ op ∈ s.ops[i]?, op.phase ≠ .parked
  | _ => True

instance decidableFair : ∀ a, Decidable (s.Fair a)
  | .look _ => inferInstanceAs (Decidable (∀ _ ∈ _, ∀ _ ∈ _, _ → ∀ _ ∈ _, _ → _))
  | .remove _ => inferInstanceAs (Decidable (∀ _ ∈ _, ∀ _ ∈ _, ∀ _ ∈ _, _))
  | .bridged _ ok => inferInstanceAs (Decidable (ok = true))
  | .endDialog _ => inferInstanceAs (Decidable (∀ _ ∈ _, _))
  | .connect | .init _ _ | .offer _ _ _ _ | .candidate _ _ _ _ | .bye _ _ | .find _ _ | .other _ | .close _
  | .negotiated _ _ | .checked _ _ | .secured _ _ | .park _ | .evict _ | .stopKeepalive _ | .invite _ => isTrue trivial

end State

/-! ## the map and its legs -/

/-- What an offer or a dialog is to the map of parked legs. -/
structure Leg where
  conn : Option Nat
  session : Option SessionId
  tag : Option String
  phase : Phase
  evictor : Bool
  ended : Bool

def Op.leg (op : Op) : Leg := ⟨op.conn, op.session, op.tag, op.phase, op.evictor, op.ended⟩

def State.legs (s : State) : List Leg := s.ops.map Op.leg

structure Legs (pending : Table String Nat) (legs : List Leg) : Prop where
  found : ∀ (tag : String) (i : Nat), pending tag = some i →
    ∃ leg : Leg, legs[i]? = some leg ∧ leg.tag = some tag ∧ leg.phase = .parked
  parked : ∀ (i : Nat) (leg : Leg), legs[i]? = some leg → leg.phase = .parked →
    ∃ tag : String, leg.tag = some tag ∧ pending tag = some i
  parking : ∀ (i : Nat) (leg : Leg), legs[i]? = some leg → leg.phase = .parking →
    ∃ tag : String, leg.tag = some tag ∧ pending tag = none ∧
    ∀ (j : Nat) (leg' : Leg), legs[j]? = some leg' → leg'.phase = .parking → leg'.tag = some tag → j = i
  /-- Only parked legs have an evictor. -/
  evictor : ∀ (i : Nat) (leg : Leg), legs[i]? = some leg → leg.evictor = true → leg.phase = .parked
  left : ∀ (i : Nat) (leg : Leg) (how : Departure), legs[i]? = some leg → leg.phase = .gone how →
    Rightly i leg.conn leg.session how
  dialog : ∀ (i : Nat) (leg : Leg), legs[i]? = some leg → leg.conn = none → leg.phase.ofOffer = false
  ended : ∀ (i : Nat) (leg : Leg), legs[i]? = some leg → leg.ended = true → leg.phase.over = true
  bridging : ∀ (i : Nat) (leg : Leg) (j : Nat), legs[i]? = some leg → leg.phase = .bridging j →
    ∃ leg' : Leg, legs[j]? = some leg' ∧ leg'.phase = .taken i

namespace Legs

variable {pending : Table String Nat} {legs : List Leg} {leg leg' : Leg} {i j : Nat} {tag : String}

theorem nil : Legs .empty [] := by
  refine ⟨?_, ?_, ?_, ?_, ?_, ?_, ?_, ?_⟩
  all_goals
    intros
    simp_all

theorem append (h : Legs pending legs)
    (hphase : (leg.phase = .negotiating ∧ leg.conn.isSome = true) ∨ leg.phase = .looking)
    (hevictor : leg.evictor = false) (hended : leg.ended = false) : Legs pending (legs ++ [leg]) := by
  have hkept : ∀ {k : Nat} {x : Leg}, legs[k]? = some x → (legs ++ [leg])[k]? = some x := by
    intro k x hx
    rw [List.getElem?_append_left (List.getElem?_eq_some_iff.mp hx).1, hx]
  have hplain : leg.phase.waits = false ∧ (∀ how, leg.phase ≠ .gone how) ∧ ∀ j, leg.phase ≠ .bridging j := by
    obtain ⟨hphase, -⟩ | hphase := hphase <;> rw [hphase] <;> exact ⟨rfl, nofun, nofun⟩
  constructor
  · intro tag k hk
    obtain ⟨x, hx, hrest⟩ := h.found tag k hk
    exact ⟨x, hkept hx, hrest⟩
  · intro k x hx hparked
    obtain hx | rfl := slot_append hx
    · exact h.parked k x hx hparked
    · rw [hparked] at hplain
      exact absurd hplain.1 nofun
  · intro k x hx hparking
    obtain hx | rfl := slot_append hx
    · obtain ⟨tag, htag, hnone, halone⟩ := h.parking k x hx hparking
      refine ⟨tag, htag, hnone, ?_⟩
      intro m y hy hyparking hytag
      obtain hy | rfl := slot_append hy
      · exact halone m y hy hyparking hytag
      · rw [hyparking] at hplain
        exact absurd hplain.1 nofun
    · rw [hparking] at hplain
      exact absurd hplain.1 nofun
  · intro k x hx harmed
    obtain hx | rfl := slot_append hx
    · exact h.evictor k x hx harmed
    · rw [hevictor] at harmed
      contradiction
  · intro k x how hx hgone
    obtain hx | rfl := slot_append hx
    · exact h.left k x how hx hgone
    · exact absurd hgone (hplain.2.1 how)
  · intro k x hx hconn
    obtain hx | rfl := slot_append hx
    · exact h.dialog k x hx hconn
    · obtain ⟨-, hsome⟩ | hphase := hphase
      · rw [hconn] at hsome
        contradiction
      · rw [hphase]
        rfl
  · intro k x hx hover
    obtain hx | rfl := slot_append hx
    · exact h.ended k x hx hover
    · rw [hended] at hover
      contradiction
  · intro k x m hx hbridging
    obtain hx | rfl := slot_append hx
    · obtain ⟨y, hy, htaken⟩ := h.bridging k x m hx hbridging
      exact ⟨y, hkept hy, htaken⟩
    · exact absurd hbridging (hplain.2.2 m)

/-- What a leg may become where the map stays as it is. -/
structure Moves (pending : Table String Nat) (legs : List Leg) (i : Nat) (leg leg' : Leg) : Prop where
  tag : leg'.tag = leg.tag
  dialog : leg'.conn = none → leg'.phase.ofOffer = false
  parked : leg'.phase = .parked ↔ leg.phase = .parked
  parking : leg'.phase = .parking → leg.phase = .parking ∨ ∃ tag : String, leg.tag = some tag ∧
    pending tag = none ∧ ∀ x ∈ legs, x.tag = some tag → x.phase ≠ .parking
  evictor : leg'.evictor = true → leg'.phase = .parked
  left : ∀ how, leg'.phase = .gone how → Rightly i leg'.conn leg'.session how
  ended : leg'.ended = true → leg'.phase.over = true
  bridging : ∀ j, leg'.phase = .bridging j → j ≠ i ∧ ∃ x, legs[j]? = some x ∧ x.phase = .taken i
  taken : ∀ k, leg.phase = .taken k → leg'.phase = .taken k ∨ ∀ x, legs[k]? = some x → x.phase ≠ .bridging i

section

variable (h : Legs pending legs)
include h

theorem set (hleg : legs[i]? = some leg) (hmoves : Moves pending legs i leg leg') :
    Legs pending (legs.set i leg') := by
  obtain ⟨hlt, -⟩ := List.getElem?_eq_some_iff.mp hleg
  have hself : (legs.set i leg')[i]? = some leg' := List.getElem?_set_self hlt
  have hother : ∀ {k : Nat}, k ≠ i → (legs.set i leg')[k]? = legs[k]? :=
    fun hne => List.getElem?_set_ne hne.symm
  constructor
  · intro tag k hk
    obtain ⟨x, hx, htag, hparked⟩ := h.found tag k hk
    by_cases hki : k = i
    · subst hki
      rw [hleg, Option.some.injEq] at hx
      subst hx
      exact ⟨leg', hself, hmoves.tag.trans htag, hmoves.parked.mpr hparked⟩
    · exact ⟨x, (hother hki).trans hx, htag, hparked⟩
  · intro k x hx hparked
    obtain ⟨-, hx⟩ | ⟨rfl, rfl⟩ := slot_set hx
    · exact h.parked k x hx hparked
    · rw [hmoves.tag]
      exact h.parked k leg hleg (hmoves.parked.mp hparked)
  · intro k x hx hparking
    obtain ⟨hki, hold⟩ | ⟨rfl, rfl⟩ := slot_set hx
    · obtain ⟨tag, htag, hnone, halone⟩ := h.parking k x hold hparking
      refine ⟨tag, htag, hnone, ?_⟩
      intro m y hy hyparking hytag
      obtain ⟨-, hy⟩ | ⟨rfl, rfl⟩ := slot_set hy
      · exact halone m y hy hyparking hytag
      · obtain hwas | ⟨tag', htag', -, hnobody⟩ := hmoves.parking hyparking
        · exact halone m leg hleg hwas (hmoves.tag.symm.trans hytag)
        · rw [hmoves.tag, htag', Option.some.injEq] at hytag
          subst hytag
          exact absurd hparking (hnobody x (List.mem_of_getElem? hold) htag)
    · obtain hwas | ⟨tag, htag, hnone, hnobody⟩ := hmoves.parking hparking
      · obtain ⟨tag, htag, hnone, halone⟩ := h.parking k leg hleg hwas
        refine ⟨tag, hmoves.tag.trans htag, hnone, ?_⟩
        intro m y hy hyparking hytag
        obtain ⟨-, hy⟩ | ⟨rfl, -⟩ := slot_set hy
        · exact halone m y hy hyparking hytag
        · rfl
      · refine ⟨tag, hmoves.tag.trans htag, hnone, ?_⟩
        intro m y hy hyparking hytag
        obtain ⟨-, hy⟩ | ⟨rfl, -⟩ := slot_set hy
        · exact absurd hyparking (hnobody y (List.mem_of_getElem? hy) hytag)
        · rfl
  · intro k x hx harmed
    obtain ⟨-, hx⟩ | ⟨rfl, rfl⟩ := slot_set hx
    · exact h.evictor k x hx harmed
    · exact hmoves.evictor harmed
  · intro k x how hx hgone
    obtain ⟨-, hx⟩ | ⟨rfl, rfl⟩ := slot_set hx
    · exact h.left k x how hx hgone
    · exact hmoves.left how hgone
  · intro k x hx hconn
    obtain ⟨-, hx⟩ | ⟨rfl, rfl⟩ := slot_set hx
    · exact h.dialog k x hx hconn
    · exact hmoves.dialog hconn
  · intro k x hx hended
    obtain ⟨-, hx⟩ | ⟨rfl, rfl⟩ := slot_set hx
    · exact h.ended k x hx hended
    · exact hmoves.ended hended
  · intro k x m hx hbridging
    obtain ⟨hki, hold⟩ | ⟨rfl, rfl⟩ := slot_set hx
    · obtain ⟨y, hy, htaken⟩ := h.bridging k x m hold hbridging
      by_cases hmi : m = i
      · subst hmi
        rw [hleg, Option.some.injEq] at hy
        subst hy
        obtain hstill | hnone := hmoves.taken k htaken
        · exact ⟨leg', hself, hstill⟩
        · exact absurd hbridging (hnone x hold)
      · exact ⟨y, (hother hmi).trans hy, htaken⟩
    · obtain ⟨hne, y, hy, htaken⟩ := hmoves.bridging m hbridging
      exact ⟨y, (hother hne).trans hy, htaken⟩

theorem unpark (hpending : pending tag = some i) (hleg : legs[i]? = some leg)
    (htag : leg'.tag = leg.tag) (hevictor : leg'.evictor = false)
    (hphase : (∃ j, leg'.phase = .taken j) ∨ ∃ how, leg'.phase = .gone how ∧ Rightly i leg'.conn leg'.session how) :
    Legs (pending.erase tag) (legs.set i leg') := by
  obtain ⟨x, hx, hxtag, hparked⟩ := h.found tag i hpending
  obtain rfl : x = leg := mem_unique hx hleg
  have hout : leg'.phase ≠ .parked ∧ leg'.phase ≠ .parking ∧ leg'.phase.over = true ∧
      leg'.phase.ofOffer = false ∧ ∀ j, leg'.phase ≠ .bridging j := by
    obtain ⟨j, hj⟩ | ⟨how, hhow, -⟩ := hphase
    · rw [hj]
      exact ⟨nofun, nofun, rfl, rfl, nofun⟩
    · rw [hhow]
      exact ⟨nofun, nofun, rfl, rfl, nofun⟩
  have hother : ∀ {k : Nat}, k ≠ i → (legs.set i leg')[k]? = legs[k]? :=
    fun hne => List.getElem?_set_ne hne.symm
  constructor
  · intro tag' k hk
    rw [Table.erase_apply] at hk
    split at hk
    · contradiction
    · next hne =>
      obtain ⟨y, hy, hytag, hyparked⟩ := h.found tag' k hk
      have hki : k ≠ i := by
        rintro rfl
        rw [hleg, Option.some.injEq] at hy
        subst hy
        rw [hxtag, Option.some.injEq] at hytag
        exact hne hytag.symm
      exact ⟨y, (hother hki).trans hy, hytag, hyparked⟩
  · intro k y hy hyparked
    obtain ⟨hki, hold⟩ | ⟨rfl, rfl⟩ := slot_set hy
    · obtain ⟨tag', htag', hk⟩ := h.parked k y hold hyparked
      refine ⟨tag', htag', ?_⟩
      rw [Table.erase_apply, if_neg]
      · exact hk
      · rintro rfl
        exact hki (mem_unique hk hpending)
    · exact absurd hyparked hout.1
  · intro k y hy hparking
    obtain ⟨-, hold⟩ | ⟨rfl, rfl⟩ := slot_set hy
    · obtain ⟨tag', htag', hnone, halone⟩ := h.parking k y hold hparking
      refine ⟨tag', htag', ?_, ?_⟩
      · rw [Table.erase_apply, hnone, ite_self]
      · intro m z hz hzparking hztag
        obtain ⟨-, hzold⟩ | ⟨rfl, rfl⟩ := slot_set hz
        · exact halone m z hzold hzparking hztag
        · exact absurd hzparking hout.2.1
    · exact absurd hparking hout.2.1
  · intro k y hy harmed
    obtain ⟨-, hold⟩ | ⟨rfl, rfl⟩ := slot_set hy
    · exact h.evictor k y hold harmed
    · rw [hevictor] at harmed
      contradiction
  · intro k y how hy hgone
    obtain ⟨-, hold⟩ | ⟨rfl, rfl⟩ := slot_set hy
    · exact h.left k y how hold hgone
    · obtain ⟨j, hj⟩ | ⟨how', hhow, hrightly⟩ := hphase
      · rw [hj] at hgone
        contradiction
      · rw [hhow, Phase.gone.injEq] at hgone
        exact hgone ▸ hrightly
  · intro k y hy hconn
    obtain ⟨-, hold⟩ | ⟨rfl, rfl⟩ := slot_set hy
    · exact h.dialog k y hold hconn
    · exact hout.2.2.2.1
  · intro k y hy hended
    obtain ⟨-, hold⟩ | ⟨rfl, rfl⟩ := slot_set hy
    · exact h.ended k y hold hended
    · exact hout.2.2.1
  · intro k y m hy hbridging
    obtain ⟨-, hold⟩ | ⟨rfl, rfl⟩ := slot_set hy
    · obtain ⟨z, hz, htaken⟩ := h.bridging k y m hold hbridging
      have hmi : m ≠ i := by
        rintro rfl
        rw [hleg, Option.some.injEq] at hz
        subst hz
        rw [hparked] at htaken
        contradiction
      exact ⟨z, (hother hmi).trans hz, htaken⟩
    · exact absurd hbridging (hout.2.2.2.2 m)

theorem park (hleg : legs[i]? = some leg) (hlegtag : leg.tag = some tag)
    (hparking : leg.phase = .parking) (htag : leg'.tag = leg.tag) (hphase : leg'.phase = .parked)
    (hended : leg'.ended = leg.ended) :
    pending tag = none ∧ Legs (pending.insert tag i) (legs.set i leg') := by
  obtain ⟨tag', htag', hnone, halone⟩ := h.parking i leg hleg hparking
  obtain rfl : tag = tag' := mem_unique hlegtag htag'
  refine ⟨hnone, ?_⟩
  obtain ⟨hlt, -⟩ := List.getElem?_eq_some_iff.mp hleg
  have hself : (legs.set i leg')[i]? = some leg' := List.getElem?_set_self hlt
  have hother : ∀ {k : Nat}, k ≠ i → (legs.set i leg')[k]? = legs[k]? :=
    fun hne => List.getElem?_set_ne hne.symm
  constructor
  · intro tag' k hk
    rw [Table.insert_apply] at hk
    split at hk
    · next heq =>
      cases hk
      exact ⟨leg', hself, by rw [htag, hlegtag, heq], hphase⟩
    · obtain ⟨y, hy, hytag, hyparked⟩ := h.found tag' k hk
      have hki : k ≠ i := by
        rintro rfl
        rw [hleg, Option.some.injEq] at hy
        subst hy
        rw [hparking] at hyparked
        contradiction
      exact ⟨y, (hother hki).trans hy, hytag, hyparked⟩
  · intro k y hy hyparked
    obtain ⟨hki, hold⟩ | ⟨rfl, rfl⟩ := slot_set hy
    · obtain ⟨tag', htag', hk⟩ := h.parked k y hold hyparked
      refine ⟨tag', htag', ?_⟩
      rw [Table.insert_apply, if_neg]
      · exact hk
      · rintro rfl
        rw [hnone] at hk
        contradiction
    · exact ⟨tag, htag.trans hlegtag, Table.insert_self ..⟩
  · intro k y hy hyparking
    obtain ⟨hki, hold⟩ | ⟨rfl, rfl⟩ := slot_set hy
    · obtain ⟨tag', hytag, hynone, hyalone⟩ := h.parking k y hold hyparking
      refine ⟨tag', hytag, ?_, ?_⟩
      · rw [Table.insert_apply, if_neg]
        · exact hynone
        · rintro rfl
          exact hki (halone k y hold hyparking hytag)
      · intro m z hz hzparking hztag
        obtain ⟨-, hzold⟩ | ⟨rfl, rfl⟩ := slot_set hz
        · exact hyalone m z hzold hzparking hztag
        · rw [hphase] at hzparking
          contradiction
    · rw [hphase] at hyparking
      contradiction
  · intro k y hy harmed
    obtain ⟨-, hold⟩ | ⟨rfl, rfl⟩ := slot_set hy
    · exact h.evictor k y hold harmed
    · exact hphase
  · intro k y how hy hgone
    obtain ⟨-, hold⟩ | ⟨rfl, rfl⟩ := slot_set hy
    · exact h.left k y how hold hgone
    · rw [hphase] at hgone
      contradiction
  · intro k y hy hconn
    obtain ⟨-, hold⟩ | ⟨rfl, rfl⟩ := slot_set hy
    · exact h.dialog k y hold hconn
    · rw [hphase]
      rfl
  · intro k y hy hyended
    obtain ⟨-, hold⟩ | ⟨rfl, rfl⟩ := slot_set hy
    · exact h.ended k y hold hyended
    · have := h.ended k leg hleg (hended ▸ hyended)
      rw [hparking] at this
      contradiction
  · intro k y m hy hbridging
    obtain ⟨-, hold⟩ | ⟨rfl, rfl⟩ := slot_set hy
    · obtain ⟨z, hz, htaken⟩ := h.bridging k y m hold hbridging
      have hmi : m ≠ i := by
        rintro rfl
        rw [hleg, Option.some.injEq] at hz
        subst hz
        rw [hparking] at htaken
        contradiction
      exact ⟨z, (hother hmi).trans hz, htaken⟩
    · rw [hphase] at hbridging
      contradiction

end

theorem Moves.calm (hleg : legs[i]? = some leg) (h : Legs pending legs) (hoffer : leg.phase.ofOffer = true)
    (hcalm : leg'.phase.calm = true) (hconn : leg'.conn = leg.conn) (htag : leg'.tag = leg.tag)
    (hevictor : leg'.evictor = leg.evictor) (hended : leg'.ended = leg.ended) : Moves pending legs i leg leg' := by
  have hout : leg.phase ≠ .parked ∧ leg.phase.over = false ∧ ∀ k, leg.phase ≠ .taken k := by
    cases hphase : leg.phase <;> rw [hphase] at hoffer <;> first | contradiction | exact ⟨nofun, rfl, nofun⟩
  have hout' : leg'.phase ≠ .parked ∧ leg'.phase ≠ .parking ∧ (∀ how, leg'.phase ≠ .gone how) ∧
      ∀ j, leg'.phase ≠ .bridging j := by
    cases hphase : leg'.phase <;> rw [hphase] at hcalm <;> first | contradiction | exact ⟨nofun, nofun, nofun, nofun⟩
  obtain ⟨hparked, hover, htaken⟩ := hout
  obtain ⟨hparked', hparking', hgone', hbridging'⟩ := hout'
  refine ⟨htag, ?_, iff_of_false hparked' hparked, ?_, ?_, ?_, ?_, ?_, ?_⟩
  · intro hnone
    rw [hconn] at hnone
    rw [h.dialog i leg hleg hnone] at hoffer
    contradiction
  · exact fun hparking => absurd hparking hparking'
  · intro harmed
    exact absurd (h.evictor i leg hleg (hevictor ▸ harmed)) hparked
  · exact fun how hgone => absurd hgone (hgone' how)
  · intro hend
    rw [h.ended i leg hleg (hended ▸ hend)] at hover
    contradiction
  · exact fun j hbridging => absurd hbridging (hbridging' j)
  · exact fun k hk => absurd hk (htaken k)

theorem pair (h : Legs pending legs) (hleg : legs[i]? = some leg) (hbridging : leg.phase = .bridging j)
    {partner : Leg} (hpartner : legs[j]? = some partner) (b : Nat) :
    i ≠ j ∧ Legs pending ((legs.set i { leg with phase := .paired b }).set j { partner with phase := .paired b }) := by
  obtain ⟨x, hx, htaken⟩ := h.bridging i leg j hleg hbridging
  obtain rfl : x = partner := mem_unique hx hpartner
  have hne : i ≠ j := by
    rintro rfl
    rw [hleg, Option.some.injEq] at hx
    subst hx
    rw [hbridging] at htaken
    contradiction
  have hplain : ∀ {k : Nat} {y : Leg}, legs[k]? = some y → y.phase ≠ .parked → y.evictor ≠ true :=
    fun hy hnot harmed => hnot (h.evictor _ _ hy harmed)
  have hleft : leg.evictor ≠ true := hplain hleg (by rw [hbridging]; nofun)
  have hright : x.evictor ≠ true := hplain hpartner (by rw [htaken]; nofun)
  have hfirst : Legs pending (legs.set i { leg with phase := .paired b }) := by
    refine h.set hleg ⟨rfl, fun _ => rfl, ?_, nofun, ?_, nofun, fun _ => rfl, nofun, ?_⟩
    · rw [hbridging]
      exact iff_of_false nofun nofun
    · exact fun harmed => absurd harmed hleft
    · intro k hk
      rw [hbridging] at hk
      contradiction
  have hself : (legs.set i { leg with phase := .paired b })[i]? = some { leg with phase := .paired b } :=
    List.getElem?_set_self (List.getElem?_eq_some_iff.mp hleg).1
  refine ⟨hne, hfirst.set ((List.getElem?_set_ne hne).trans hpartner)
    ⟨rfl, fun _ => rfl, ?_, nofun, ?_, nofun, fun _ => rfl, nofun, ?_⟩⟩
  · rw [htaken]
    exact iff_of_false nofun nofun
  · exact fun harmed => absurd harmed hright
  · intro k hk
    right
    rw [htaken, Phase.taken.injEq] at hk
    subst hk
    intro y hy
    rw [hself, Option.some.injEq] at hy
    rw [← hy]
    nofun

end Legs

/-! ## what the handler does to them -/

namespace State

variable {s s' : State} {i c : Nat}

theorem legs_setOp {f : Op → Op} {op : Op} (hop : s.ops[i]? = some op) :
    (s.setOp i f).legs = s.legs.set i (f op).leg := by
  apply List.ext_getElem?
  intro k
  simp only [legs, setOp_frame, List.getElem?_map, List.getElem?_modify, List.getElem?_set, List.length_map]
  by_cases hik : i = k
  · subst hik
    obtain ⟨hlt, -⟩ := List.getElem?_eq_some_iff.mp hop
    rw [hop, if_pos hlt]
    simp
  · simp [hik]

theorem legs_setOp_setOp {j : Nat} {f g : Op → Op} {op partner : Op} (hop : s.ops[i]? = some op)
    (hpartner : s.ops[j]? = some partner) (hne : i ≠ j) :
    ((s.setOp j f).setOp i g).legs = (s.legs.set i (g op).leg).set j (f partner).leg := by
  have hop' : (s.setOp j f).ops[i]? = some op := (List.getElem?_modify_ne _ _ hne.symm).trans hop
  rw [legs_setOp hop', legs_setOp hpartner, List.set_comm _ _ hne.symm]

theorem legs_setOp_same {f : Op → Op} (hf : ∀ op, (f op).leg = op.leg) : (s.setOp i f).legs = s.legs := by
  apply List.ext_getElem?
  intro k
  simp only [legs, setOp_frame, List.getElem?_map]
  exact map_getElem?_modify hf

@[simp] theorem legs_reply (i : Nat) (r : Reply) : (s.reply i r).legs = s.legs := by
  simp [legs]

@[simp] theorem legs_cancelKeepalive (session : SessionId) : (s.cancelKeepalive session).legs = s.legs := by
  unfold cancelKeepalive
  split
  · next j _ =>
    have hsame : (s.setOp j fun op => { op with keepalive := false }).legs = s.legs := legs_setOp_same fun _ => rfl
    exact hsame
  · rfl

@[simp] theorem legs_removeAgent (session : SessionId) (fate : Nat → AgentFate) :
    (s.removeAgent session fate).legs = s.legs := by
  unfold removeAgent
  split
  · next j _ =>
    have hsame : (s.setOp j fun op => { op with agent := fate j }).legs = s.legs := legs_setOp_same fun _ => rfl
    exact hsame
  · rfl

@[simp] theorem legs_releaseBridge (session : SessionId) : (s.releaseBridge session).legs = s.legs := by
  simp [legs]

@[simp] theorem legs_registerAgent (i : Nat) (session : SessionId) (remotes : List String) :
    (s.registerAgent i session remotes).legs = s.legs := by
  have hregistered : ∀ s₁ : State,
    (s₁.setOp i fun op => { op with agent := .registered, remotes := remotes }).legs = s₁.legs :=
    fun _ => legs_setOp_same fun _ => rfl
  unfold registerAgent
  split
  · next j _ =>
    have hdisplaced : (s.setOp j fun op => { op with agent := .displaced i }).legs = s.legs := legs_setOp_same fun _ => rfl
    exact (hregistered _).trans hdisplaced
  · exact hregistered s

theorem leg_of_op {op : Op} (h : s.ops[i]? = some op) : s.legs[i]? = some op.leg := by
  rw [legs, List.getElem?_map, h]
  rfl

theorem op_of_leg {leg : Leg} (h : s.legs[i]? = some leg) : ∃ op, s.ops[i]? = some op ∧ op.leg = leg := by
  rw [legs, List.getElem?_map] at h
  exact map_eq_some_iff.mp h

end State

/-- The invariant of the states that are reached. -/
def State.Board (s : State) : Prop := Legs s.pending s.legs

namespace State.Board

variable {s s' : State} {i c : Nat} {op : Op}

section

variable (h : s.Board)
include h

theorem congr (hpending : s'.pending = s.pending) (hlegs : s'.legs = s.legs) : s'.Board := by
  rw [State.Board, hpending, hlegs]
  exact h

theorem calm (hop : s.ops[i]? = some op) (hoffer : op.phase.ofOffer = true) {f : Op → Op}
    (hcalm : (f op).phase.calm = true) (hconn : (f op).conn = op.conn) (htag : (f op).tag = op.tag)
    (hevictor : (f op).evictor = op.evictor) (hended : (f op).ended = op.ended) : (s.setOp i f).Board := by
  rw [State.Board, State.legs_setOp hop]
  have hleg := State.leg_of_op hop
  exact h.set hleg (.calm hleg h hoffer hcalm hconn htag hevictor hended)

theorem reply (i : Nat) (r : Reply) : (s.reply i r).Board :=
  h.congr (by simp) (by simp)

theorem reject (hop : s.ops[i]? = some op) (hoffer : op.phase.ofOffer = true) : (s.reject i).Board := by
  have hfailed := h.calm hop hoffer (f := fun op => { op with phase := .failed, endpoint := false }) rfl rfl rfl rfl rfl
  exact hfailed.reply i _

theorem unseen {f : Op → Op} (hf : ∀ op, (f op).leg = op.leg) : (s.setOp i f).Board :=
  h.congr rfl (State.legs_setOp_same hf)

theorem failChecks (hop : s.ops[i]? = some op) (hoffer : op.phase.ofOffer = true) (session : SessionId) :
    (s.failChecks i session).Board := by
  have hremoved : (s.removeAgent session fun j => if j = i then .dropped else .displaced i).Board :=
    h.congr (by simp) (by simp)
  obtain ⟨op', hop', hleg⟩ := State.op_of_leg ((State.legs_removeAgent ..).symm ▸ State.leg_of_op hop)
  have hphase : op'.phase = op.phase := congrArg Leg.phase hleg
  exact hremoved.reject hop' (hphase ▸ hoffer)

theorem remove (hfair : s.Fair (.remove c)) {session : SessionId} {tag : String} {k : Conn}
    (hk : s.conns[c]? = some k) (htask : k.task = some (.removing session tag)) (hpending : s.pending tag = some i) :
    (({ s with pending := s.pending.erase tag } : State).setOp i fun op =>
      { op with evictor := false, endpoint := false, phase := .gone (.bye session) }).Board := by
  have hremoving : s.removing c = some (session, tag) := by
    simp only [State.removing, hk, bind_some, htask]
  obtain ⟨leg, hleg, -⟩ := h.found tag i hpending
  obtain ⟨op, hop, -⟩ := State.op_of_leg hleg
  obtain ⟨hsession, hconn⟩ := hfair (session, tag) hremoving i hpending op hop
  rw [State.Board, State.legs_setOp (s := { s with pending := s.pending.erase tag }) hop]
  exact h.unpark hpending (State.leg_of_op hop) rfl rfl (.inr ⟨_, rfl, .inr ⟨session, rfl, hsession, hconn⟩⟩)

end

section looking

variable (h : s.Board) (hop : s.ops[i]? = some op) (hphase : op.phase = .looking)
include h hop hphase

theorem of_looking : op.leg.phase ≠ .parked ∧ op.leg.evictor ≠ true ∧ op.leg.ended ≠ true ∧ ∀ k,
    op.leg.phase ≠ .taken k := by
  have hleg := State.leg_of_op hop
  have hlooking : op.leg.phase = .looking := hphase
  have hunparked : op.leg.phase ≠ .parked := by
    rw [hlooking]
    nofun
  refine ⟨hunparked, fun harmed => hunparked (h.evictor i _ hleg harmed), fun hended => ?_, ?_⟩
  · have hover := h.ended i _ hleg hended
    rw [hlooking] at hover
    contradiction
  · rw [hlooking]
    nofun

theorem meet {tag : String} {j : Nat} (hpending : s.pending tag = some j) :
    ((({ s with pending := s.pending.erase tag } : State).setOp j fun op =>
      { op with evictor := false, phase := .taken i }).setOp i fun op => { op with phase := .bridging j }).Board := by
  obtain ⟨hunparked, hunarmed, hgoing, huntaken⟩ := h.of_looking hop hphase
  obtain ⟨leg, hj, -, hparked⟩ := h.found tag j hpending
  obtain ⟨partner, hpartner, rfl⟩ := State.op_of_leg hj
  have hne : j ≠ i := by
    rintro rfl
    rw [hop, Option.some.injEq] at hpartner
    subst hpartner
    exact hunparked hparked
  let s₁ : State := { s with pending := s.pending.erase tag }
  let s₂ := s₁.setOp j fun op => { op with evictor := false, phase := .taken i }
  have hlegs : s₂.legs = s.legs.set j { partner.leg with evictor := false, phase := .taken i } :=
    State.legs_setOp (s := s₁) hpartner
  have htaken : Legs (s.pending.erase tag) s₂.legs := by
    rw [hlegs]
    exact h.unpark hpending hj rfl rfl (.inl ⟨i, rfl⟩)
  have hop₂ : s₂.ops[i]? = some op := (List.getElem?_modify_ne _ _ hne).trans hop
  show Legs (s.pending.erase tag) (s₂.setOp i _).legs
  rw [State.legs_setOp hop₂]
  refine htaken.set (State.leg_of_op hop₂) ⟨rfl, fun _ => rfl, iff_of_false nofun hunparked, nofun, ?_, nofun, ?_, ?_, ?_⟩
  · exact fun harmed => absurd harmed hunarmed
  · exact fun hended => absurd hended hgoing
  · intro k hk
    obtain rfl : j = k := Phase.bridging.inj hk
    refine ⟨hne, { partner.leg with evictor := false, phase := .taken i }, ?_, rfl⟩
    rw [hlegs]
    exact List.getElem?_set_self (List.getElem?_eq_some_iff.mp hj).1
  · exact fun k hk => absurd hk (huntaken k)

theorem wait (hfair : s.Fair (.look i)) {tag : String} (htag : op.tag = some tag) (hnone : s.pending tag = none) :
    (s.setOp i fun op => { op with phase := .parking }).Board := by
  obtain ⟨hunparked, hunarmed, hgoing, huntaken⟩ := h.of_looking hop hphase
  rw [State.Board, State.legs_setOp hop]
  refine h.set (State.leg_of_op hop) ⟨rfl, fun _ => rfl, iff_of_false nofun hunparked, ?_, ?_, nofun, ?_, nofun, ?_⟩
  · refine fun _ => .inr ⟨tag, htag, hnone, ?_⟩
    intro x hx hxtag
    obtain ⟨op', hop', rfl⟩ := List.mem_map.mp hx
    exact hfair op hop tag htag hnone op' hop' hxtag
  · exact fun harmed => absurd harmed hunarmed
  · exact fun hended => absurd hended hgoing
  · exact fun k hk => absurd hk (huntaken k)

end looking

section

variable (h : s.Board) (hop : s.ops[i]? = some op)
include h hop

theorem park {tag : String} (htag : op.tag = some tag) (hphase : op.phase = .parking)
    {f : Op → Op} (hftag : (f op).tag = op.tag) (hfphase : (f op).phase = .parked) (hfended : (f op).ended = op.ended) :
    ((s.overwrite i tag).setOp i f).Board := by
  have hleg := State.leg_of_op hop
  obtain ⟨tag', htag', hnone, -⟩ := h.parking i _ hleg hphase
  obtain rfl : tag = tag' := mem_unique htag htag'
  have hoverwrite : s.overwrite i tag = { s with pending := s.pending.insert tag i } := by
    simp only [State.overwrite, hnone]
  rw [hoverwrite, State.Board, State.legs_setOp (s := { s with pending := s.pending.insert tag i }) hop]
  exact (Legs.park h hleg htag hphase hftag hfphase hfended).2

theorem pending_of_evictor {tag : String} (htag : op.tag = some tag)
    (harmed : op.evictor = true) : s.pending tag = some i := by
  have hleg := State.leg_of_op hop
  obtain ⟨tag', htag', hpending⟩ := h.parked i _ hleg (h.evictor i _ hleg harmed)
  obtain rfl : tag = tag' := mem_unique htag htag'
  exact hpending

theorem endDialog (hover : op.phase.over = true) :
    (s.setOp i fun op => { op with ended := true, endpoint := false }).Board := by
  have hleg := State.leg_of_op hop
  rw [State.Board, State.legs_setOp hop]
  have hdialog := h.dialog i op.leg hleg
  have hevictor := h.evictor i op.leg hleg
  have hleft := fun how => h.left i op.leg how hleg
  refine h.set hleg ⟨rfl, hdialog, Iff.rfl, .inl, hevictor, hleft, fun _ => hover, ?_, fun _ hk => .inl hk⟩
  intro j hj
  have hbridging : op.phase = .bridging j := hj
  rw [hbridging] at hover
  contradiction

end

theorem step {a : Action} (h : s.Board) (hfair : s.Fair a) (hstep : s.step a = some s') : s'.Board := by
  have hopens : ∀ {op : Op}, op.phase = .negotiating ∨ op.phase = .checking ∨ op.phase = .securing →
    op.phase.ofOffer = true := by
    rintro op (hphase | hphase | hphase) <;> rw [hphase] <;> rfl
  cases State.moves_of_step hstep with
  | connect | init | turnDown | note | found | miss | removeNothing | other | close => exact h
  | offer =>
    show Legs s.pending (List.map Op.leg (s.ops ++ [_]))
    rw [List.map_append]
    exact h.append (.inl ⟨rfl, rfl⟩) rfl rfl
  | candidate =>
    have hlogged : ∀ c f, (s.setConn c f).Board := fun _ _ => h
    exact (hlogged _ _).unseen fun _ => rfl
  | @bye c session =>
    have hdropped : (((s.cancelKeepalive session).removeAgent session fun _ => .dropped).releaseBridge session).Board :=
      h.congr (by simp) (by simp)
    exact hdropped
  | remove hk htask hpending => exact h.remove hfair hk htask hpending
  | rejected hop _ _ hphase => exact h.reject hop (hopens (.inl hphase))
  | withoutIce hop _ _ hphase => exact h.calm hop (hopens (.inl hphase)) rfl rfl rfl rfl rfl
  | brokenIce hop _ _ hphase => exact h.failChecks hop (hopens (.inl hphase)) _
  | @withIce i _ session remotes _ _ hop _ _ hphase =>
    have hregistered : (s.registerAgent i session remotes).Board := h.congr (by simp) (by simp)
    obtain ⟨op', hop', hleg⟩ := State.op_of_leg ((State.legs_registerAgent ..).symm ▸ State.leg_of_op hop)
    have hsame : op'.phase = _ := (congrArg Leg.phase hleg).trans hphase
    exact hregistered.calm hop' (hopens (.inl hsame)) rfl rfl rfl rfl rfl
  | checked hop _ _ hphase =>
    exact h.calm hop (hopens (.inr (.inl hphase))) (f := fun op => { op with keepalive := true, phase := .securing })
      rfl rfl rfl rfl rfl
  | unchecked hop _ _ hphase => exact h.failChecks hop (hopens (.inr (.inl hphase))) _
  | tagged hop hphase => exact h.calm hop (hopens (.inr (.inr hphase))) rfl rfl rfl rfl rfl
  | @single i _ hop hphase =>
    have hsingle := h.calm hop (hopens (.inr (.inr hphase))) (f := fun op => { op with phase := .single }) rfl rfl rfl rfl rfl
    exact hsingle.reply i _
  | unsecured hop hphase => exact h.reject hop (hopens (.inr (.inr hphase)))
  | meet hop _ hphase hpending => exact h.meet hop hphase hpending
  | wait hop htag hphase hnone => exact h.wait hop hphase hfair htag hnone
  | @park i _ _ _ hop htag hphase =>
    have hset := h.park hop htag hphase (f := fun op => { op with phase := .parked, evictor := true }) rfl rfl rfl
    exact hset.reply i _
  | parkDialog hop htag hphase =>
    exact h.park hop htag hphase (f := fun op =>
      { op with phase := .parked, evictor := true, session := some s.syntheticSession }) rfl rfl rfl
  | @bridge i j op partner hop hphase hpartner =>
    obtain ⟨hne, hpaired⟩ := h.pair (State.leg_of_op hop) hphase (State.leg_of_op hpartner) s.bridges.length
    have hset : ∀ s₁ : State, s₁.pending = s.pending → s₁.ops = s.ops →
        ((s₁.setOp j fun op => { op with phase := .paired s.bridges.length }).setOp i
          fun op => { op with phase := .paired s.bridges.length }).Board := by
      intro s₁ hpending hops
      have hlegs : s₁.legs = s.legs := congrArg (List.map Op.leg) hops
      rw [← hops] at hop hpartner
      rw [State.Board, State.legs_setOp_setOp hop hpartner hne, hlegs]
      show Legs s₁.pending _
      rw [hpending]
      exact hpaired
    exact (hset _ (by simp) (by simp)).reply i _
  | strand => exact absurd hfair Bool.false_ne_true
  | @evict i j tag session op hop htag hsession harmed hpending =>
    -- the evictor of a leg evicts that leg
    obtain rfl : j = i := Option.some.inj (hpending.symm.trans (h.pending_of_evictor hop htag harmed))
    let fired := s.setOp j fun op => { op with evictor := false }
    have hop' : fired.ops[j]? = some { op with evictor := false } := by
      simp [fired, hop]
    have hevicted : Legs (s.pending.erase tag)
        (fired.setOp j fun op => { op with endpoint := false, phase := .gone (.deadline j) }).legs := by
      rw [State.legs_setOp (s := fired) hop', State.legs_setOp hop, List.set_set]
      exact h.unpark hpending (State.leg_of_op hop) rfl rfl (.inr ⟨_, rfl, .inl rfl⟩)
    exact hevicted
  | @spare i tag session op hop htag hsession harmed hspare =>
    have hpending := h.pending_of_evictor hop htag harmed
    have hown : (s.setOp i fun op => { op with evictor := false }).parkedFor session tag = true := by
      simp [State.parkedFor, hpending, hop, hsession]
    rw [hspare i hpending] at hown
    contradiction
  | stopKeepalive => exact h.unseen fun _ => rfl
  | invite =>
    show Legs s.pending (List.map Op.leg (s.ops ++ [_]))
    rw [List.map_append]
    exact h.append (.inr rfl) rfl rfl
  | hangUp hop _ hphase => exact h.endDialog hop (by rw [hphase]; rfl)
  | @endDialog i op hop hdialog hquiet =>
    apply h.endDialog hop
    have hoffer : op.phase.ofOffer = false := h.dialog i _ (State.leg_of_op hop) hdialog
    cases hphase : op.phase with
    | taken | paired | failed | gone => rfl
    | parked => exact absurd hphase (hfair op hop)
    | negotiating | checking | securing | single =>
      rw [hphase] at hoffer
      contradiction
    | looking | parking | bridging => simp_all

theorem kept (h : s.Board) : s.Parking where
  parked i op hop hparked := h.parked i _ (State.leg_of_op hop) hparked
  left i op how hop hgone := h.left i _ how (State.leg_of_op hop) hgone
  met i j op op' tag hop hop' htag htag' hwaits hwaits' := by
    have hleg := State.leg_of_op hop
    have hleg' := State.leg_of_op hop'
    have hcases : ∀ {o : Op}, o.phase.waits = true → o.leg.phase = .parking ∨ o.leg.phase = .parked := by
      intro o ho
      show o.phase = .parking ∨ o.phase = .parked
      cases hphase : o.phase <;> rw [hphase] at ho <;> first | contradiction | simp
    -- who is about to be parked is alone, and who is parked is the one in the map
    have halone : ∀ {k m : Nat} {x y : Leg}, s.legs[k]? = some x → s.legs[m]? = some y → x.phase = .parking →
        x.tag = some tag → y.tag = some tag → y.phase = .parking ∨ y.phase = .parked → m = k := by
      intro k m x y hx hy hparking hxtag hytag hy'
      obtain ⟨tag', htag', hnone, halone⟩ := h.parking k x hx hparking
      obtain rfl : tag = tag' := mem_unique hxtag htag'
      obtain hyparking | hyparked := hy'
      · exact halone m y hy hyparking hytag
      · obtain ⟨tag', htag', hm⟩ := h.parked m y hy hyparked
        obtain rfl : tag = tag' := mem_unique hytag htag'
        rw [hnone] at hm
        contradiction
    obtain hparking | hparked := hcases hwaits
    · exact (halone hleg hleg' hparking htag htag' (hcases hwaits')).symm
    · obtain hparking' | hparked' := hcases hwaits'
      · exact halone hleg' hleg hparking' htag' htag (.inr hparked)
      · obtain ⟨tag₁, htag₁, hi⟩ := h.parked i _ hleg hparked
        obtain ⟨tag₂, htag₂, hj⟩ := h.parked j _ hleg' hparked'
        obtain rfl : tag = tag₁ := mem_unique htag htag₁
        obtain rfl : tag = tag₂ := mem_unique htag' htag₂
        exact mem_unique hi hj
  ended i op hop hended := by
    have hover : op.phase.over = true := h.ended i _ (State.leg_of_op hop) hended
    cases hphase : op.phase <;> rw [hphase] at hover <;> first | contradiction | rfl

theorem broken {a : Action} (h : s.Board) (hunfair : ¬ s.Fair a) (hstep : s.step a = some s') : ¬ s'.Parking := by
  intro hkept
  cases a with
  | look i =>
    simp only [State.Fair, not_forall, not_not] at hunfair
    obtain ⟨op, hop, tag, htag, hnone, op', hmem, htag', hparking⟩ := hunfair
    rw [mem_def] at hop htag
    obtain ⟨k, hk⟩ := List.getElem?_of_mem hmem
    simp only [State.step, State.look, hop, bind_eq_bind, bind_some, htag, hnone] at hstep
    split at hstep
    · next hlooking =>
      cases hstep
      have hne : i ≠ k := by
        rintro rfl
        rw [hop, Option.some.injEq] at hk
        rw [hk, hparking] at hlooking
        contradiction
      have hi : (s.setOp i fun op => { op with phase := .parking }).ops[i]? = some { op with phase := .parking } := by
        simp [hop]
      have hk' : (s.setOp i fun op => { op with phase := .parking }).ops[k]? = some op' :=
        (List.getElem?_modify_ne _ _ hne).trans hk
      exact hne (hkept.met i k _ _ tag hi hk' htag htag' rfl (by rw [hparking]; rfl))
    · contradiction
  | remove c =>
    simp only [State.Fair, not_forall] at hunfair
    obtain ⟨⟨session, tag⟩, hremoving, i, hpending, op, hop, hforeign⟩ := hunfair
    rw [mem_def] at hremoving hpending hop
    obtain ⟨k, hk, htask⟩ : ∃ k, s.conns[c]? = some k ∧ k.task = some (.removing session tag) := by
      unfold State.removing at hremoving
      split at hremoving
      · next htask =>
        cases hremoving
        exact bind_eq_some_iff.mp htask
      · contradiction
    simp only [State.step, State.remove, hk, bind_eq_bind, bind_some, htask, hpending] at hstep
    cases hstep
    have hi : (s.setOp i fun op => { op with evictor := false, endpoint := false, phase := .gone (.bye session) }).ops[i]? =
        some { op with evictor := false, endpoint := false, phase := .gone (.bye session) } := by
      simp [hop]
    obtain hdeadline | ⟨own, hown, hsession, hconn⟩ := hkept.left i _ (.bye session) hi rfl
    · contradiction
    · obtain rfl : session = own := Departure.bye.inj hown
      exact hforeign ⟨hsession, hconn⟩
  | bridged i ok =>
    obtain rfl : ok = false := by simpa [State.Fair] using hunfair
    simp only [State.step, State.bridged] at hstep
    obtain ⟨op, hop, hstep⟩ := bind_eq_some_iff.mp hstep
    split at hstep
    · next j hphase =>
      obtain ⟨partner, hpartner, hstep⟩ := bind_eq_some_iff.mp hstep
      cases hstep
      obtain ⟨hne, -⟩ := h.pair (State.leg_of_op hop) hphase (State.leg_of_op hpartner) 0
      have hj : (((s.setOp j fun op => { op with phase := .gone (.stranded i) }).setOp i
          fun op => { op with phase := .failed }).reply i (.error "offer-rejected")).ops[j]? =
          some { partner with phase := .gone (.stranded i) } := by
        simp [hpartner, hne]
      obtain hdeadline | ⟨own, hown, -⟩ := hkept.left j _ (.stranded i) hj rfl
      · contradiction
      · contradiction
    · contradiction
  | endDialog i =>
    simp only [State.Fair, not_forall, not_not] at hunfair
    obtain ⟨op, hop, hparked⟩ := hunfair
    rw [mem_def] at hop
    simp only [State.step, State.endDialog, hop, bind_eq_bind, bind_some, hparked] at hstep
    split at hstep
    · cases hstep
      have hi : (s.setOp i fun op => { op with ended := true, endpoint := false }).ops[i]? =
          some { op with ended := true, endpoint := false } := by
        simp [hop]
      have hover := hkept.ended i _ hi rfl
      rw [show ({ op with ended := true, endpoint := false } : Op).phase = op.phase from rfl, hparked] at hover
      contradiction
    · contradiction
  | _ => exact hunfair trivial

end State.Board

theorem board_empty : ({} : State).Board := Legs.nil

/-- **Along a run every parked leg keeps its rendezvous exactly when every step is fair.** -/
theorem parking_iff {as : List Action} {s' : State} (hexec : exec State.step {} as = some s') :
    (∀ before after s, as = before ++ after → exec State.step {} before = some s → s.Parking) ↔
      Meets State.step State.Fair {} as :=
  meets_iff (I := State.Board) (fun _ h => h.kept) (fun _ _ _ h hfair hstep => h.step hfair hstep)
    (fun _ _ _ h hunfair hstep => h.broken hunfair hstep) hexec board_empty

/-- Two legs that meet under a tag. -/
def sampleMeeting : List Action :=
  [.connect, .init 0 (some "t"), .offer 0 0 true true, .negotiated 0 (.accepted .off false), .secured 0 true, .look 0,
    .park 0, .invite "t", .look 1, .bridged 1 true]

theorem parking_sampleMeeting :
    ∃ s', exec State.step {} sampleMeeting = some s' ∧ s'.ops.map Op.phase = [.paired 0, .paired 0] ∧
      ∀ before after s, sampleMeeting = before ++ after → exec State.step {} before = some s → s.Parking := by
  have hphases : (exec State.step {} sampleMeeting).map (fun s => s.ops.map Op.phase) =
      some [.paired 0, .paired 0] := by
    decide +kernel
  obtain ⟨s', hexec, hphases⟩ := map_eq_some_iff.mp hphases
  exact ⟨s', hexec, hphases, (parking_iff hexec).mpr (by decide +kernel)⟩

/-- Two offers under one tag, each of which looks before the other is parked. -/
def sampleMissing : List Action :=
  [.connect, .connect, .init 0 (some "t"), .init 1 (some "t"), .offer 0 0 true true, .offer 1 1 true true,
    .negotiated 0 (.accepted .off false), .negotiated 1 (.accepted .off false), .secured 0 true, .secured 1 true,
    .look 0, .look 1, .park 0, .park 1]

/-- The second of them overwrites the first. -/
theorem parked_overwritten :
    ¬ ∀ (as : List Action) (s' : State), exec State.step {} as = some s' → s'.Parking := by
  intro h
  have hphases : (exec State.step {} sampleMissing).map (fun s => s.ops.map Op.phase) =
      some [.gone (.overwritten 1), .parked] := by
    decide +kernel
  obtain ⟨s', hexec, hphases⟩ := map_eq_some_iff.mp hphases
  have hfirst : (s'.ops.map Op.phase)[0]? = some (.gone (.overwritten 1)) := by
    rw [hphases]
    rfl
  rw [List.getElem?_map] at hfirst
  obtain ⟨op, hop, hgone⟩ := map_eq_some_iff.mp hfirst
  obtain hdeadline | ⟨own, hown, -⟩ := (h sampleMissing s' hexec).left 0 op (.overwritten 1) hop hgone
  · contradiction
  · contradiction

end SmithsNet.Webrtc
