import SmithsNet.Media.G711
import SmithsNet.Media.Jitter

/-!
# SmithsNet.Mixer.Conference

A conference (`smiths-mixer/src/conference.rs`) and its mixer (`mixer.rs`): the roster
that `join` and `leave` change, the frames that are pushed into the jitter buffer of each
participant, and `tick_once`, which sums one frame of each and queues to every participant
the sum without its own.

Accumulators are 32-bit numbers that wrap around.  The gain control and the speech
detector compute in floating point: with the choice of the dominant speaker they are
`Stages`, over states of their own.  Metrics are left out.
-/

namespace SmithsNet.Mixing

open Lib Media

/-! ## the mixer -/

structure MixerConfig where
  samplesPerFrame : Nat := 160

structure Mixer where
  cfg : MixerConfig
  /-- The sum of the current frame. -/
  sum : List Int32

/-- The loop of `add_input`. -/
def addSamples : List Int32 → List Int16 → List Int32
  | acc :: accs, s :: ss => (acc + s.toInt32) :: addSamples accs ss
  | accs, _ => accs

namespace Mixer

def new (cfg : MixerConfig) : Mixer := ⟨cfg, List.replicate cfg.samplesPerFrame 0⟩

def beginFrame (m : Mixer) : Mixer := { m with sum := List.replicate m.cfg.samplesPerFrame 0 }

def addInput (m : Mixer) (input : List Int16) : Mixer := { m with sum := addSamples m.sum input }

/-- One sample of `leave_one_out`. -/
def leaveOut (m : Mixer) (own : List Int16) (i : Nat) : Int16 :=
  let total := m.sum[i]?.getD 0
  let mine := (own[i]?.map Int16.toInt32).getD 0
  Companding.clipI32ToI16 (total - mine).toInt

def leaveOneOut (m : Mixer) (own out : List Int16) : List Int16 := out.mapIdx fun i _ => m.leaveOut own i

@[simp] theorem cfg_addInput (m : Mixer) (input : List Int16) : (m.addInput input).cfg = m.cfg := rfl

end Mixer

/-! ## the roster -/

abbrev ParticipantId := Nat

structure ParticipantFrame where
  participant : ParticipantId
  samples : List Int16

/-- The channel a participant's frames are queued in. -/
structure Egress where
  queue : List ParticipantFrame := []
  /-- The receiver was dropped. -/
  closed : Bool := false

namespace Egress

/-- `mpsc::channel(32)` -/
def capacity : Nat := 32

/-- A frame can be queued. -/
def Open (tx : Egress) : Prop := tx.closed = false ∧ tx.queue.length < capacity

instance (tx : Egress) : Decidable tx.Open := by unfold Open; infer_instance

def trySend (tx : Egress) (f : ParticipantFrame) : Egress :=
  if tx.Open then { tx with queue := tx.queue ++ [f] } else tx

/-- The caller takes a frame. -/
def recv (tx : Egress) : Egress := { tx with queue := tx.queue.tail }

end Egress

/-- What is computed in floating point, over the states `α` of a gain control and `ν` of a
speech detector, with scores `σ`; and the gain of a concealment frame. -/
structure Stages (α ν σ : Type) where
  newAgc : α
  newVad : ν
  fade : Fade
  applyInplace : α → List Int16 → List Int16 × α
  observe : ν → List Int16 → σ × ν
  dominantSpeaker : List σ → Option Nat

/-- Gain control and speech detector that do nothing. -/
def plainStages : Stages Unit Unit Unit where
  newAgc := ()
  newVad := ()
  fade := fun _ => none
  applyInplace := fun agc frame => (frame, agc)
  observe := fun vad _ => ((), vad)
  dominantSpeaker := fun _ => none

structure Participant (α ν : Type) where
  agc : α
  vad : ν
  jitter : JitterBuffer
  /-- What `push_frame` numbers the next frame. -/
  nextSeq : UInt16
  txOut : Egress

structure ConferenceConfig where
  mixer : MixerConfig := {}
  jitter : JitterConfig := { initialTarget := 2, minTarget := 1 }

/-- A participant under its id. -/
abbrev Row (α ν : Type) := ParticipantId × Participant α ν

/-- Participants in the order of their ids. -/
abbrev Roster (α ν : Type) := Sorted (Prod.fst : Row α ν → ParticipantId)

structure ConferenceState (α ν : Type) where
  participants : Roster α ν
  nextParticipant : Nat
  ticks : UInt64
  dominant : Option ParticipantId

inductive ConferenceError
  | unknownParticipant (id : ParticipantId)
  | frameSizeMismatch (expected got : Nat)
  | ingressFull (id : ParticipantId)

variable {α ν σ : Type}

namespace ConferenceState

def new : ConferenceState α ν := ⟨.empty, 0, 0, none⟩

/-- A participant as `join` makes it. -/
def newParticipant (st : Stages α ν σ) (cfg : ConferenceConfig) : Participant α ν where
  agc := st.newAgc
  vad := st.newVad
  jitter := .withConfig cfg.mixer.samplesPerFrame cfg.jitter
  nextSeq := 0
  txOut := {}

def join (st : Stages α ν σ) (cfg : ConferenceConfig) (s : ConferenceState α ν) :
    ParticipantId × ConferenceState α ν :=
  let id := s.nextParticipant
  (id, { s with
    nextParticipant := id + 1
    participants := s.participants.put (id, newParticipant st cfg) })

def leave (s : ConferenceState α ν) (id : ParticipantId) : Except ConferenceError (ConferenceState α ν) :=
  match s.participants.get id with
  | none => .error (.unknownParticipant id)
  | some _ => .ok { s with participants := s.participants.remove id }

/-- The number a frame is pushed under, and the participant with it given away. -/
def number (p : Participant α ν) : Option UInt16 → UInt16 × Participant α ν
  | some seq => (seq, p)
  | none => (p.nextSeq, { p with nextSeq := p.nextSeq + 1 })

def pushInner (cfg : ConferenceConfig) (s : ConferenceState α ν) (id : ParticipantId) (seq : Option UInt16)
    (samples : List Int16) : Except ConferenceError Unit × ConferenceState α ν :=
  if samples.length ≠ cfg.mixer.samplesPerFrame then
    (.error (.frameSizeMismatch cfg.mixer.samplesPerFrame samples.length), s)
  else
    match s.participants.get id with
    | none => (.error (.unknownParticipant id), s)
    | some (_, p) =>
      let (seq, p) := number p seq
      let (outcome, jitter) := p.jitter.insert seq samples
      (if outcome = .overflow then .error (.ingressFull id) else .ok (),
        { s with participants := s.participants.put (id, { p with jitter := jitter }) })

/-- The caller of a participant drains its queue, or drops the receiver. -/
def egress (s : ConferenceState α ν) (id : ParticipantId) (change : Egress → Egress) : ConferenceState α ν :=
  match s.participants.get id with
  | none => s
  | some (_, p) => { s with participants := s.participants.put (id, { p with txOut := change p.txOut }) }

end ConferenceState

/-! ## the tick -/

/-- What the tick task keeps from one frame to the next. -/
structure TickScratch (σ : Type) where
  /-- One frame of each participant, one after the other. -/
  inputs : List Int16 := []
  out : List Int16 := []
  /-- Participants in the order of `inputs`. -/
  ids : List ParticipantId := []
  scores : List σ := []

/-- The loop of the first phase over the participants and the chunks of `inputs`: the
participants after it, `inputs`, the mixer and the ids. -/
def gather (fade : Fade) (frameLen : Nat) :
    List (Row α ν) → List Int16 → Mixer → List (Row α ν) × List Int16 × Mixer × List ParticipantId
  | [], inputs, mixer => ([], inputs, mixer, [])
  | (id, p) :: rows, inputs, mixer =>
    if inputs.length < frameLen then ((id, p) :: rows, inputs, mixer, [])
    else
      let ((_, input), jitter) := p.jitter.tickInto fade frameLen
      let (rows', rest, mixer', ids) := gather fade frameLen rows (inputs.drop frameLen) (mixer.addInput input)
      ((id, { p with jitter := jitter }) :: rows', input ++ rest, mixer', id :: ids)

/-- The loop of the second phase: the participants after it, `out` and the scores. -/
def distribute (st : Stages α ν σ) (frameLen : Nat) (mixer : Mixer) :
    List (Row α ν) → List Int16 → List Int16 → List (Row α ν) × List Int16 × List σ
  | [], _, out => ([], out, [])
  | (id, p) :: rows, inputs, out =>
    if inputs.length < frameLen then ((id, p) :: rows, out, [])
    else
      let input := inputs.take frameLen
      let (out', agc) := st.applyInplace p.agc (mixer.leaveOneOut input (List.replicate frameLen 0))
      let (score, vad) := st.observe p.vad input
      let p' := { p with agc := agc, vad := vad, txOut := p.txOut.trySend ⟨id, out'⟩ }
      let (rows', out'', scores) := distribute st frameLen mixer rows (inputs.drop frameLen) out'
      ((id, p') :: rows', out'', score :: scores)

theorem keys_gather (fade : Fade) (frameLen : Nat) (rows : List (Row α ν)) (inputs : List Int16)
    (mixer : Mixer) : (gather fade frameLen rows inputs mixer).1.map Prod.fst = rows.map Prod.fst := by
  induction rows generalizing inputs mixer with
  | nil => rfl
  | cons row rows ih =>
    unfold gather
    split
    · rfl
    · simp [ih]

theorem keys_distribute (st : Stages α ν σ) (frameLen : Nat) (mixer : Mixer) (rows : List (Row α ν))
    (inputs out : List Int16) :
    (distribute st frameLen mixer rows inputs out).1.map Prod.fst = rows.map Prod.fst := by
  induction rows generalizing inputs out with
  | nil => rfl
  | cons row rows ih =>
    unfold distribute
    split
    · rfl
    · simp [ih]

/-- One tick; `none` where it panics: there are no chunks of length zero. -/
def tickOnce (st : Stages α ν σ) (s : ConferenceState α ν) (mixer : Mixer) (scratch : TickScratch σ) :
    Option (ConferenceState α ν × Mixer × TickScratch σ) :=
  let s := { s with ticks := s.ticks + 1 }
  if s.participants.rows.isEmpty then some (s, mixer, scratch)
  else
    let frameLen := mixer.cfg.samplesPerFrame
    if frameLen = 0 then none
    else
      let inputs := List.replicate (s.participants.len * frameLen) 0
      let gathered := gather st.fade frameLen s.participants.rows inputs mixer.beginFrame
      let participants := s.participants.rewrite gathered.1 (keys_gather ..)
      let (inputs, mixer, ids) := gathered.2
      let distributed := distribute st frameLen mixer participants.rows inputs scratch.out
      let (out, scores) := distributed.2
      some ({ s with
          participants := participants.rewrite distributed.1 (keys_distribute ..)
          dominant := (st.dominantSpeaker scores).bind fun i => ids[i]? },
        mixer, { inputs := inputs, out := out, ids := ids, scores := scores })

/-! ## a conference and its tick task -/

structure Conference (α ν σ : Type) where
  cfg : ConferenceConfig
  state : ConferenceState α ν
  mixer : Mixer
  scratch : TickScratch σ

inductive Op
  | join
  | leave (id : ParticipantId)
  /-- `push_frame`, or `push_frame_seq`. -/
  | push (id : ParticipantId) (seq : Option UInt16) (samples : List Int16)
  | recv (id : ParticipantId)
  /-- The caller drops the receiver. -/
  | hangUp (id : ParticipantId)
  | tick
  deriving DecidableEq

namespace Conference

def spawn (cfg : ConferenceConfig) : Conference α ν σ where
  cfg := cfg
  state := .new
  mixer := .new cfg.mixer
  scratch := {}

/-- One operation; `none` where the tick task panics, after which there are no ticks. -/
def step (st : Stages α ν σ) (c : Conference α ν σ) : Op → Option (Conference α ν σ)
  | .join => some { c with state := (c.state.join st c.cfg).2 }
  | .leave id =>
    match c.state.leave id with
    | .ok state => some { c with state := state }
    | .error _ => some c
  | .push id seq samples => some { c with state := (c.state.pushInner c.cfg id seq samples).2 }
  | .recv id => some { c with state := c.state.egress id Egress.recv }
  | .hangUp id => some { c with state := c.state.egress id fun tx => { tx with closed := true } }
  | .tick => do
      let (state, mixer, scratch) ← tickOnce st c.state c.mixer c.scratch
      some { c with state := state, mixer := mixer, scratch := scratch }

end Conference

end SmithsNet.Mixing
