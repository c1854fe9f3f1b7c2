import SmithsNet.Core.Reloader

/-!
# SmithsNet.Core.Canary

Who watches a config change, and what the metrics say of it: `spawn_auto_rollback` and
`rollback_with_metrics` of `smiths-core/src/reloader.rs`, the error-rate probe of
`smiths-core/src/probe.rs`, `reload_from_file` and `spawn_canary_watchdogs` of
`smiths-cli/src/reload_driver.rs`, and `put_config` of `smiths-mcp/src/tools/config.rs`.

The reloader is locked for one operation at a time, and what follows from it for the metrics is
written one by one, after the lock is free again.  Who has such writes left has them in a list.

`canary_observed_iff`: the metrics tell what happens to the changes, and a probe ends with its
change, just when nobody confirms a change or rolls one back that its probe still watches, and the
last to write the gauge has not been overtaken.
-/

namespace SmithsNet.Reload

open Lib

/-! ## the metrics -/

inductive RollbackReason
  | manual
  | timeout
  | errorBudget
  deriving DecidableEq

def RollbackReason.asStr : RollbackReason → Text
  | .manual => "manual".toList
  | .timeout => "timeout".toList
  | .errorBudget => "error_budget".toList

inductive ProbeVerdict
  | ok
  | pluginErrorRate
  | sipParseErrors

def ProbeVerdict.asMetricLabel : ProbeVerdict → Option Text
  | .ok => none
  | .pluginErrorRate => some "plugin_error_rate".toList
  | .sipParseErrors => some "sip_parse_errors".toList

/-- Two counters have labels. -/
structure Metrics where
  configCanaryActive : Int
  configRollbacks : Text → Nat
  configProbeTriggered : Text → Nat

def Metrics.zero : Metrics := ⟨0, fun _ => 0, fun _ => 0⟩

/-- The sum of `config_rollbacks` over the reasons. -/
def Metrics.rollbacks (m : Metrics) : Nat :=
  ([.manual, .timeout, .errorBudget].map fun r : RollbackReason => m.configRollbacks r.asStr).sum

/-- The sum of `config_probe_triggered` over the probes. -/
def Metrics.triggers (m : Metrics) : Nat :=
  (["plugin_error_rate".toList, "sip_parse_errors".toList].map m.configProbeTriggered).sum

/-- One label is counted up. -/
def inc (counter : Text → Nat) (label : Text) : Text → Nat := Function.update counter label (counter label + 1)

inductive Write
  /-- `config_canary_active.set(_)` -/
  | active (value : Int)
  /-- `config_rollbacks.get_or_create(_).inc()` -/
  | rollback (reason : RollbackReason)
  deriving DecidableEq

open Write

def Write.isActive : Write → Bool
  | .active _ => true
  | .rollback _ => false

def Write.isRollback : Write → Bool
  | .active _ => false
  | .rollback _ => true

def Metrics.perform (m : Metrics) : Write → Metrics
  | .active value => { m with configCanaryActive := value }
  | .rollback reason => { m with configRollbacks := inc m.configRollbacks reason.asStr }

/-! ## the probe -/

/-- `F` stands for the 32-bit floats. -/
structure CanaryConfig (F : Type) where
  deadlineS : UInt64
  pluginErrorRateCeiling : F
  sipParseErrorsPerSecCeiling : Nat

structure ProbeConfig (F : Type) where
  pluginErrorRateCeiling : F
  sipParseErrorsPerSecCeiling : Nat

def ProbeConfig.from {F : Type} (c : CanaryConfig F) : ProbeConfig F :=
  ⟨c.pluginErrorRateCeiling, c.sipParseErrorsPerSecCeiling⟩

def U64_MAX : Nat := 2 ^ 64 - 1

/-- In nanoseconds. -/
def TICK : Nat := 1000000000

def WINDOW_SECS : Nat := 30

structure ProbeSample where
  at_ : Nat
  pluginErrors : Nat
  pluginOks : Nat
  sipParseErrors : Nat

section Probe

variable {F : Type} [LT F] [LE F] [OfNat F 1] [DecidableLT F] [DecidableLE F]

def ProbeConfig.isDisabled (c : ProbeConfig F) : Bool :=
  decide (1 ≤ c.pluginErrorRateCeiling) && c.sipParseErrorsPerSecCeiling == U64_MAX

/-- `quotient` divides two counts as floats. -/
def classify (quotient : Nat → Nat → F) (oldest newest : ProbeSample) (cfg : ProbeConfig F) : ProbeVerdict :=
  let window := newest.at_ - oldest.at_
  if window < TICK then .ok
  else
    let pluginErrors := newest.pluginErrors - oldest.pluginErrors
    let pluginTotal := pluginErrors + (newest.pluginOks - oldest.pluginOks)
    if 0 < pluginTotal ∧ cfg.pluginErrorRateCeiling < 1 ∧
        cfg.pluginErrorRateCeiling < quotient pluginErrors pluginTotal then .pluginErrorRate
    else
      let perSec := (newest.sipParseErrors - oldest.sipParseErrors) / max (window / TICK) 1
      if cfg.sipParseErrorsPerSecCeiling ≠ U64_MAX ∧ cfg.sipParseErrorsPerSecCeiling < perSec then .sipParseErrors
      else .ok

/-- One more sample, and those that are too old for it go. -/
def slide (window : List ProbeSample) (s : ProbeSample) : List ProbeSample :=
  (window ++ [s]).dropWhile fun oldest => decide (WINDOW_SECS * TICK < s.at_ - oldest.at_)

/-- What a tick decides. -/
def verdict (quotient : Nat → Nat → F) (window : List ProbeSample) (s : ProbeSample) (cfg : ProbeConfig F) : ProbeVerdict :=
  match (slide window s).head? with
  | some oldest => classify quotient oldest s cfg
  | none => .ok

end Probe

/-! ## the parties -/

/-- `reload_from_file` once its apply has changed something. -/
inductive Driver (F : Type)
  | arming (id : ChangeId) (config : ProbeConfig F)
  /-- The gauge is set. -/
  | spawning (id : ChangeId) (config : ProbeConfig F)
  | done

/-- The task of `spawn_auto_rollback`, and the one that waits for it. -/
inductive Timer
  | sleeping
  | due
  | writing (left : List Write)
  /-- The token is cancelled. -/
  | joined
  deriving DecidableEq

inductive Probe
  | off
  | watching (window : List ProbeSample)
  /-- It has counted itself and asks for the rollback. -/
  | tripped (verdict : ProbeVerdict)
  | writing (left : List Write) (verdict : ProbeVerdict)
  | returned (verdict : ProbeVerdict)

/-- What `spawn_canary_watchdogs` has spawned for a change. -/
structure Watchdogs (F : Type) where
  id : ChangeId
  config : ProbeConfig F
  /-- The token of the two. -/
  cancelled : Bool
  timer : Timer
  probe : Probe

structure Engine (F C : Type) where
  reloader : Reloader C
  metrics : Metrics
  drivers : List (Driver F)
  /-- What each manual rollback has left to write. -/
  operators : List (List Write)
  watchdogs : List (Watchdogs F)
  /-- How many rollbacks there were, and how many of them by a probe. -/
  performed : Nat
  byProbe : Nat

inductive Duty
  | wake
  | fire
  /-- The timer sees the engine shut down. -/
  | stop
  | timerWrites
  | join
  | tick (s : ProbeSample)
  /-- The probe that has tripped rolls its change back. -/
  | trip
  | probeWrites
  /-- The probe cancels the token. -/
  | cancel
  /-- It sees it cancelled. -/
  | leave

inductive Event (C : Type)
  | putConfig (candidate : C) (canaryWindow : UInt64) (now : Int64)
  | reload (candidate : C) (now : Int64)
  | confirm (id : ChangeId)
  /-- `rollback_with_metrics`, with or without them. -/
  | rollback (id : ChangeId) (reason : RollbackReason) (metrics : Bool)
  | report (n : Nat)
  | arm (n : Nat)
  | watch (n : Nat) (duty : Duty)
  | shutdown

namespace Engine

variable {F C : Type}

def init (boot : C) : Engine F C where
  reloader := .init boot
  metrics := .zero
  drivers := []
  operators := []
  watchdogs := []
  performed := 0
  byProbe := 0

def setWatch (s : Engine F C) (n : Nat) (w : Watchdogs F) : Engine F C := { s with watchdogs := s.watchdogs.set n w }

def perform (s : Engine F C) (w : Write) : Engine F C := { s with metrics := s.metrics.perform w }

/-- The engine once a change is rolled back. -/
def rolledBack (s : Engine F C) (id : ChangeId) : Option (Engine F C) :=
  match s.reloader.rollback id with
  | (.ok (), reloader) => some { s with reloader, performed := s.performed + 1 }
  | (.error _, _) => none

section Steps

variable [LT F] [LE F] [OfNat F 1] [DecidableLT F] [DecidableLE F] (quotient : Nat → Nat → F)

def spawnWatchdogs (id : ChangeId) (config : ProbeConfig F) : Watchdogs F where
  id := id
  config := config
  cancelled := false
  timer := .sleeping
  probe := if config.isDisabled then .off else .watching []

/-- A step of the `n`th watchdogs. -/
def watch (s : Engine F C) (n : Nat) (w : Watchdogs F) : Duty → Option (Engine F C)
  | .wake =>
    if w.timer = .sleeping ∧ s.reloader.cancelled = false then some (s.setWatch n { w with timer := .due }) else none
  | .stop =>
    if w.timer = .sleeping ∧ s.reloader.cancelled = true then some (s.setWatch n { w with timer := .writing [] }) else none
  | .fire =>
    if w.timer = .due then
      some (match s.rolledBack w.id with
        | some s' => s'.setWatch n { w with timer := .writing [.active 0, .rollback .timeout] }
        | none => s.setWatch n { w with timer := .writing [.active 0] })
    else none
  | .timerWrites =>
    match w.timer with
    | .writing (v :: left) => some ((s.setWatch n { w with timer := .writing left }).perform v)
    | _ => none
  | .join =>
    if w.timer = .writing [] then some (s.setWatch n { w with timer := .joined, cancelled := true }) else none
  | .tick sample =>
    match w.probe with
    | .watching window =>
      if w.cancelled then none
      else
        match (verdict quotient window sample w.config).asMetricLabel with
        | none => some (s.setWatch n { w with probe := .watching (slide window sample) })
        | some label =>
          some { s.setWatch n { w with probe := .tripped (verdict quotient window sample w.config) } with
            metrics := { s.metrics with configProbeTriggered := inc s.metrics.configProbeTriggered label } }
    | _ => none
  | .trip =>
    match w.probe with
    | .tripped v =>
      some (match s.rolledBack w.id with
        | some s' =>
          { s'.setWatch n { w with probe := .writing [.active 0, .rollback .errorBudget] v } with
            byProbe := s.byProbe + 1 }
        | none => s.setWatch n { w with probe := .writing [] .ok })
    | _ => none
  | .probeWrites =>
    match w.probe with
    | .writing (v :: left) verdict => some ((s.setWatch n { w with probe := .writing left verdict }).perform v)
    | _ => none
  | .cancel =>
    match w.probe with
    | .writing [] verdict => some (s.setWatch n { w with probe := .returned verdict, cancelled := true })
    | _ => none
  | .leave =>
    match w.probe with
    | .watching _ => if w.cancelled then some (s.setWatch n { w with probe := .returned .ok }) else none
    | _ => none

def arm (s : Engine F C) (n : Nat) : Driver F → Option (Engine F C)
  | .arming id config => some ({ s with drivers := s.drivers.set n (.spawning id config) }.perform (.active 1))
  | .spawning id config =>
    some { s with
      drivers := s.drivers.set n .done
      watchdogs := s.watchdogs ++ [spawnWatchdogs id config] }
  | .done => none

end Steps

end Engine

section Run

variable {F V E : Type} [LT F] [LE F] [OfNat F 1] [DecidableLT F] [DecidableLE F] [DecidableEq V] {fs : Fields}
  (quotient : Nat → Nat → F) (canary : Config V fs → CanaryConfig F) (validate : Config V fs → Except E Unit)

def Engine.step (s : Engine F (Config V fs)) : Event (Config V fs) → Option (Engine F (Config V fs))
  | .putConfig candidate canaryWindow now =>
    some { s with reloader := (s.reloader.apply validate candidate canaryWindow now).2 }
  | .reload candidate now =>
    match s.reloader.apply validate candidate (canary candidate).deadlineS now with
    | (.ok receipt, reloader) =>
      if receipt.report.reloaded = [] ∧ receipt.report.restartRequired = [] then some { s with reloader }
      else some { s with
        reloader
        drivers := s.drivers ++ [.arming receipt.id (.from (canary candidate))] }
    | (.error _, reloader) => some { s with reloader }
  | .confirm id => some { s with reloader := (s.reloader.confirm id).2 }
  | .rollback id reason metrics =>
    some (match s.rolledBack id with
      | some s' => if metrics then { s' with operators := s.operators ++ [[.active 0, .rollback reason]] } else s'
      | none => s)
  | .report n =>
    match s.operators[n]? with
    | some (v :: left) => some ({ s with operators := s.operators.set n left }.perform v)
    | _ => none
  | .arm n => (s.drivers[n]?).bind (s.arm n)
  | .watch n duty => (s.watchdogs[n]?).bind fun w => s.watch quotient n w duty
  | .shutdown => some { s with reloader := { s.reloader with cancelled := true } }

end Run

/-! ## what is to be observed -/

def Timer.left : Timer → List Write
  | .writing left => left
  | _ => []

def Probe.left : Probe → List Write
  | .writing left _ => left
  | _ => []

def Probe.isTripped : Probe → Bool
  | .tripped _ => true
  | _ => false

def Probe.isWatching : Probe → Bool
  | .watching _ => true
  | _ => false

section Observed

variable {F C : Type}

def Driver.left : Driver F → List Write
  | .arming _ _ => [.active 1]
  | _ => []

/-- The change that its probe watches, while nothing is about to end that. -/
def Watchdogs.watches (w : Watchdogs F) : Option ChangeId :=
  if w.probe.isWatching ∧ w.cancelled = false ∧ w.timer = .sleeping then some w.id else none

namespace Engine

/-- The writes under way of one kind. -/
def left (s : Engine F C) (kind : Write → Bool) : Nat :=
  total (List.countP kind) s.operators + total (fun d : Driver F => d.left.countP kind) s.drivers +
    total (fun w : Watchdogs F => w.timer.left.countP kind + w.probe.left.countP kind) s.watchdogs

/-- The probes between counting themselves and their rollback. -/
def tripped (s : Engine F C) : Nat := total (fun w : Watchdogs F => if w.probe.isTripped then 1 else 0) s.watchdogs

/-- The changes that probes watch. -/
def watched (s : Engine F C) : List ChangeId := s.watchdogs.filterMap Watchdogs.watches

def pendingId (s : Engine F C) : Option ChangeId := s.reloader.pending.map PendingChange.id

/-- The gauge is right with such a value. -/
def Tells (s : Engine F C) (value : Int) : Prop := value = 1 ↔ s.pendingId ≠ none

instance (s : Engine F C) (value : Int) : Decidable (s.Tells value) := inferInstanceAs (Decidable (_ ↔ _))

/-- What the metrics are to say, but for the writes under way, and which probes there are to be. -/
structure Observed (s : Engine F C) : Prop where
  gauge : s.left isActive = 0 → s.Tells s.metrics.configCanaryActive
  rollbacks : s.metrics.rollbacks + s.left isRollback = s.performed
  triggers : s.metrics.triggers = s.byProbe + s.tripped
  outlives : ∀ id ∈ s.watched, s.pendingId = some id

/-- A write of the gauge that is the last under way says what is pending. -/
def Last (s : Engine F C) : List Write → Prop
  | .active value :: _ => s.left isActive = 1 → s.Tells value
  | _ => True

instance (s : Engine F C) : (ws : List Write) → Decidable (s.Last ws)
  | .active _ :: _ => inferInstanceAs (Decidable (_ → _))
  | .rollback _ :: _ | [] => isTrue trivial

end Engine

end Observed

section Kept

variable {F V E : Type} [LT F] [LE F] [OfNat F 1] [DecidableLT F] [DecidableLE F] [DecidableEq V] {fs : Fields}
  (validate : Config V fs → Except E Unit)

namespace Engine

def KeptBy (s : Engine F (Config V fs)) (w : Watchdogs F) : Duty → Prop
  | .fire => w.timer = .due → s.pendingId = some w.id → s.watched = []
  | .trip => w.probe.isTripped = true → s.pendingId = some w.id ∧ s.watched = []
  | .timerWrites => s.Last w.timer.left
  | .probeWrites => s.Last w.probe.left
  | _ => True

def KeptArm (s : Engine F (Config V fs)) : Driver F → Prop
  | .arming _ _ => s.Last [.active 1]
  | .spawning id config => config.isDisabled = false → s.pendingId = some id
  | .done => True

/-- A change that is confirmed, rolled back or put without a timer comes while the gauge is being
written or is rolled back with the metrics; none that a probe watches is resolved by others; a probe
that trips finds its change, and one that begins too; and the last write of the gauge is not late. -/
def Kept (s : Engine F (Config V fs)) : Event (Config V fs) → Prop
  | .putConfig candidate _ _ => Swaps validate s.reloader candidate → s.left isActive ≠ 0
  | .confirm id => s.pendingId = some id → s.left isActive ≠ 0 ∧ s.watched = []
  | .rollback id _ metrics => s.pendingId = some id → metrics = true ∧ s.watched = []
  | .report n => ∀ ws ∈ s.operators[n]?, s.Last ws
  | .arm n => ∀ d ∈ s.drivers[n]?, s.KeptArm d
  | .watch n duty => ∀ w ∈ s.watchdogs[n]?, s.KeptBy w duty
  | .reload _ _ | .shutdown => True

instance (s : Engine F (Config V fs)) (w : Watchdogs F) : (duty : Duty) → Decidable (s.KeptBy w duty)
  | .fire | .trip => inferInstanceAs (Decidable (_ → _))
  | .timerWrites | .probeWrites => inferInstanceAs (Decidable (s.Last _))
  | .wake | .stop | .join | .tick _ | .cancel | .leave => isTrue trivial

instance (s : Engine F (Config V fs)) : (d : Driver F) → Decidable (s.KeptArm d)
  | .arming _ _ => inferInstanceAs (Decidable (s.Last [.active 1]))
  | .spawning _ _ => inferInstanceAs (Decidable (_ → _))
  | .done => isTrue trivial

instance (s : Engine F (Config V fs)) : (e : Event (Config V fs)) → Decidable (s.Kept validate e)
  | .putConfig _ _ _ | .confirm _ | .rollback _ _ _ => inferInstanceAs (Decidable (_ → _))
  | .report _ => inferInstanceAs (Decidable (∀ _ ∈ _, _))
  | .arm _ => inferInstanceAs (Decidable (∀ _ ∈ _, _))
  | .watch _ _ => inferInstanceAs (Decidable (∀ _ ∈ _, _))
  | .reload _ _ | .shutdown => isTrue trivial

end Engine

end Kept

/-! ## what the parts of a step do -/

section Parts

variable {F C : Type} {s s' : Engine F C} {n : Nat}

theorem sum_inc {labels : List Text} (hnodup : labels.Nodup) {label : Text} (h : label ∈ labels) (counter : Text → Nat) :
    (labels.map (inc counter label)).sum = (labels.map counter).sum + 1 := by
  induction labels with
  | nil => contradiction
  | cons l ls ih =>
    obtain ⟨hnot, hnodup⟩ := List.nodup_cons.mp hnodup
    simp only [List.map_cons, List.sum_cons]
    obtain rfl | h := List.mem_cons.mp h
    · have hrest : ls.map (inc counter label) = ls.map counter :=
        List.map_congr_left fun l' hl' => Function.update_of_ne (fun heq => hnot (by rwa [← heq])) ..
      rw [hrest, inc, Function.update_self]
      omega
    · have hne : l ≠ label := fun heq => hnot (heq ▸ h)
      rw [ih hnodup h, inc, Function.update_of_ne hne]
      omega

theorem rollbacks_perform (m : Metrics) (w : Write) :
    (m.perform w).rollbacks = m.rollbacks + if w.isRollback then 1 else 0 := by
  cases w with
  | active value => rfl
  | rollback reason =>
    have hnodup : ([.manual, .timeout, .errorBudget].map RollbackReason.asStr).Nodup := by decide
    have hmem : reason.asStr ∈ [.manual, .timeout, .errorBudget].map RollbackReason.asStr := by cases reason <;> decide
    exact sum_inc hnodup hmem m.configRollbacks

theorem triggers_inc (m : Metrics) {v : ProbeVerdict} {label : Text} (h : v.asMetricLabel = some label) :
    ({ m with configProbeTriggered := inc m.configProbeTriggered label } : Metrics).triggers = m.triggers + 1 := by
  refine sum_inc (by decide) ?_ m.configProbeTriggered
  cases v with
  | ok => contradiction
  | pluginErrorRate | sipParseErrors =>
    obtain rfl := Option.some.inj h
    decide

namespace Engine

variable {w : Watchdogs F}

section

variable (h : s.watchdogs[n]? = some w)
include h

theorem left_setWatch (w' : Watchdogs F) (kind : Write → Bool) :
    (s.setWatch n w').left kind + (w.timer.left.countP kind + w.probe.left.countP kind) =
      s.left kind + (w'.timer.left.countP kind + w'.probe.left.countP kind) := by
  have htotal := total_set (fun w : Watchdogs F => w.timer.left.countP kind + w.probe.left.countP kind) h w'
  simp only [left, setWatch] at htotal ⊢
  omega

theorem tripped_setWatch (w' : Watchdogs F) :
    (s.setWatch n w').tripped + (if w.probe.isTripped then 1 else 0) = s.tripped + if w'.probe.isTripped then 1 else 0 :=
  total_set (fun w : Watchdogs F => if w.probe.isTripped then 1 else 0) h w'

theorem watched_setWatch {w' : Watchdogs F} (heq : w'.watches = w.watches) :
    (s.setWatch n w').watched = s.watched := by
  have hview : (s.watchdogs.set n w').map Watchdogs.watches = s.watchdogs.map Watchdogs.watches :=
    List.ext_getElem? fun m => by grind
  have hids : ∀ ws : List (Watchdogs F),
    ws.filterMap Watchdogs.watches = (ws.map Watchdogs.watches).filterMap id := fun ws => by
    rw [List.filterMap_map]
    rfl
  show (s.watchdogs.set n w').filterMap Watchdogs.watches = _
  rw [hids, hview, ← hids]
  rfl

end

theorem mem_watched_setWatch {w' : Watchdogs F} (hnone : w'.watches = none) {id : ChangeId}
    (h : id ∈ (s.setWatch n w').watched) : id ∈ s.watched := by
  obtain ⟨w, hmem, hw⟩ := List.mem_filterMap.mp h
  obtain hmem | rfl := List.mem_or_eq_of_mem_set hmem
  · exact List.mem_filterMap.mpr ⟨w, hmem, hw⟩
  · rw [hnone] at hw
    contradiction

end Engine

end Parts

/-! ## steps and what is observed -/

section Moves

variable {F C : Type} {s s' : Engine F C} {n : Nat}

namespace Engine

theorem observed_perform {s₁ : Engine F C} (h : s.Observed) {v : Write} {rest : List Write}
    (hleft : ∀ kind, s₁.left kind + (if kind v then 1 else 0) = s.left kind) (hmetrics : s₁.metrics = s.metrics)
    (hpending : s₁.pendingId = s.pendingId) (hperformed : s₁.performed = s.performed) (hbyProbe : s₁.byProbe = s.byProbe)
    (htripped : s₁.tripped = s.tripped) (hwatched : s₁.watched = s.watched) :
    (s₁.perform v).Observed ↔ s.Last (v :: rest) := by
  have hrollbacks : (s₁.perform v).metrics.rollbacks + s₁.left isRollback = s₁.performed := by
    have hcount := rollbacks_perform s₁.metrics v
    have hold := h.rollbacks
    have hback := hleft isRollback
    rw [hmetrics] at hcount
    simp only [perform, hmetrics]
    omega
  have htriggers : (s₁.perform v).metrics.triggers = s₁.byProbe + s₁.tripped := by
    rw [hbyProbe, htripped, ← h.triggers]
    simp only [perform, hmetrics]
    cases v <;> rfl
  have houtlives : ∀ id ∈ s₁.watched, s₁.pendingId = some id := by
    rw [hwatched, hpending]
    exact h.outlives
  have hactive := hleft isActive
  cases v with
  | active value =>
    have htells : s₁.Tells value ↔ s.Tells value := by
      unfold Tells
      rw [hpending]
    simp only [isActive, if_true] at hactive
    constructor
    · intro hobserved hone
      exact htells.mp (hobserved.gauge (by show s₁.left _ = 0; omega))
    · intro hlast
      refine ⟨fun hzero => htells.mpr (hlast ?_), hrollbacks, htriggers, houtlives⟩
      have hzero : s₁.left isActive = 0 := hzero
      omega
  | rollback reason =>
    refine iff_of_true ⟨fun hzero => ?_, hrollbacks, htriggers, houtlives⟩ trivial
    have hzero : s₁.left isActive = 0 := hzero
    have htells : s₁.Tells s.metrics.configCanaryActive := by
      unfold Tells
      rw [hpending]
      exact h.gauge (by simpa [hzero, isActive] using hactive.symm)
    show s₁.Tells s₁.metrics.configCanaryActive
    rwa [hmetrics]

theorem Observed.quiet (h : s.Observed) (hleft : ∀ kind, s'.left kind = s.left kind) (hmetrics : s'.metrics = s.metrics)
    (hpending : s'.pendingId = s.pendingId) (hperformed : s'.performed = s.performed) (hbyProbe : s'.byProbe = s.byProbe)
    (htripped : s'.tripped = s.tripped) (hwatched : ∀ id ∈ s'.watched, id ∈ s.watched) : s'.Observed := by
  refine ⟨fun hzero => ?_, ?_, ?_, fun id hid => ?_⟩
  · unfold Tells
    rw [hpending, hmetrics]
    exact h.gauge (hleft _ ▸ hzero)
  · rw [hmetrics, hleft, hperformed]
    exact h.rollbacks
  · rw [hmetrics, hbyProbe, htripped]
    exact h.triggers
  · rw [hpending]
    exact h.outlives id (hwatched id hid)

theorem observed_resolve (hactive : s'.left isActive ≠ 0)
    (hrollbacks : s'.metrics.rollbacks + s'.left isRollback = s'.performed)
    (htriggers : s'.metrics.triggers = s'.byProbe + s'.tripped) (hpending : s'.pendingId = none)
    (hwatched : s'.watched = s.watched) : s'.Observed ↔ s.watched = [] := by
  rw [← hwatched]
  constructor
  · intro hobserved
    refine List.eq_nil_iff_forall_not_mem.mpr fun id hid => ?_
    have hpend := hobserved.outlives id hid
    rw [hpending] at hpend
    contradiction
  · intro hnone
    refine ⟨fun hzero => absurd hzero hactive, hrollbacks, htriggers, fun id hid => ?_⟩
    rw [hnone] at hid
    contradiction

theorem rolledBack_cases (s : Engine F C) (id : ChangeId) :
    s.rolledBack id = none ∧ s.pendingId ≠ some id ∨
      s.pendingId = some id ∧ ∃ r : Reloader C, r.pending = none ∧
        s.rolledBack id = some { s with reloader := r, performed := s.performed + 1 } := by
  unfold rolledBack pendingId
  obtain ⟨heq, hne⟩ | ⟨p, hp, rfl, heq⟩ := rollback_cases s.reloader id
  · rw [heq]
    refine .inl ⟨rfl, fun hid => ?_⟩
    obtain ⟨p, hp, rfl⟩ := Option.map_eq_some_iff.mp hid
    exact hne p hp rfl
  · rw [heq, hp]
    exact .inr ⟨rfl, _, rfl, rfl⟩

theorem observed_pending (h : s.Observed) {r : Reloader C} (hpending : r.pending = none ↔ s.pendingId ≠ none) :
    ({ s with reloader := r } : Engine F C).Observed ↔ s.left isActive ≠ 0 ∧ s.watched = [] := by
  have hnew : ∀ id, r.pending.map PendingChange.id = some id → r.pending ≠ none := by
    rintro id hid hnone
    rw [hnone] at hid
    contradiction
  constructor
  · intro hobserved
    refine ⟨fun hzero => ?_, List.eq_nil_iff_forall_not_mem.mpr fun id hid => ?_⟩
    · -- the gauge cannot be right before and after
      have hbefore : s.metrics.configCanaryActive = 1 ↔ s.pendingId ≠ none := h.gauge hzero
      have hafter : s.metrics.configCanaryActive = 1 ↔ r.pending.map PendingChange.id ≠ none := hobserved.gauge hzero
      rw [hbefore, ← hpending, ne_eq, Option.map_eq_none_iff] at hafter
      exact iff_not_self hafter
    · have hold : s.pendingId ≠ none := by
        rw [h.outlives id hid]
        exact Option.some_ne_none id
      exact hnew id (hobserved.outlives id hid) (hpending.mpr hold)
  · rintro ⟨hactive, hwatched⟩
    refine ⟨fun hzero => absurd hzero hactive, h.rollbacks, h.triggers, fun id hid => ?_⟩
    have hid : id ∈ s.watched := hid
    rw [hwatched] at hid
    contradiction

end Engine

end Moves

section Duties

variable {F V : Type} {fs : Fields} {s s' : Engine F (Config V fs)} {n : Nat} {w w' : Watchdogs F}

namespace Engine

/-- Watchdogs move on and write nothing. -/
structure Idle (w w' : Watchdogs F) : Prop where
  left : w'.timer.left = w.timer.left ∧ w'.probe.left = w.probe.left
  tripped : w'.probe.isTripped = w.probe.isTripped
  watches : w'.watches = w.watches ∨ w'.watches = none

theorem Observed.setWatch (h : s.Observed) (hn : s.watchdogs[n]? = some w) (hidle : Idle w w') :
    (s.setWatch n w').Observed := by
  refine h.quiet (fun kind => ?_) rfl rfl rfl rfl ?_ fun id hid => ?_
  · have hmoved := left_setWatch hn w' kind
    rw [hidle.left.1, hidle.left.2] at hmoved
    omega
  · have hmoved := tripped_setWatch hn w'
    rw [hidle.tripped] at hmoved
    omega
  · obtain heq | hnone := hidle.watches
    · rwa [watched_setWatch hn heq] at hid
    · exact mem_watched_setWatch hnone hid

theorem watches_eq_none (h : w.probe.isWatching = false ∨ w.cancelled = true ∨ w.timer ≠ .sleeping) : w.watches = none := by
  refine if_neg ?_
  rintro ⟨hprobe, hcancelled, htimer⟩
  obtain h | h | h := h
  · rw [hprobe] at h
    contradiction
  · rw [hcancelled] at h
    contradiction
  · exact h htimer

theorem idle_timer {timer : Timer} {cancelled : Bool} (hleft : timer.left = w.timer.left)
    (hover : cancelled = true ∨ timer ≠ .sleeping) :
    Idle w { w with timer := timer, cancelled := cancelled } :=
  ⟨⟨hleft, rfl⟩, rfl, .inr (watches_eq_none (.inr hover))⟩

theorem idle_returned (verdict : ProbeVerdict) (cancelled : Bool) (hleft : w.probe.left = [])
    (htripped : w.probe.isTripped = false) :
    Idle w { w with probe := .returned verdict, cancelled := cancelled } :=
  ⟨⟨rfl, hleft.symm⟩, htripped.symm, .inr (watches_eq_none (.inl rfl))⟩

/-- The change is rolled back, if it is pending, by one that no longer watches it and will write so. -/
theorem observed_rolledBack (h : s.Observed) (hn : s.watchdogs[n]? = some w)
    {r : Reloader (Config V fs)} (hr : r.pending = none)
    (reason : RollbackReason) {byProbe : Nat} (hleft : ∀ kind, w'.timer.left.countP kind + w'.probe.left.countP kind =
      w.timer.left.countP kind + w.probe.left.countP kind + [Write.active 0, .rollback reason].countP kind)
    (htripped : byProbe + (if w'.probe.isTripped then 1 else 0) = s.byProbe + if w.probe.isTripped then 1 else 0)
    (hold : w.watches = none) (hnew : w'.watches = none) :
    ({ s.setWatch n w' with reloader := r, performed := s.performed + 1, byProbe := byProbe } :
      Engine F (Config V fs)).Observed ↔
      s.watched = [] := by
  have hactive := left_setWatch hn w' isActive
  have hrollback := left_setWatch hn w' isRollback
  simp only [hleft, List.countP_cons, List.countP_nil, isActive, isRollback, if_true,
    Bool.false_eq_true, if_false] at hactive hrollback
  refine observed_resolve ?_ ?_ ?_ ?_ (watched_setWatch hn (hnew.trans hold.symm))
  · show (s.setWatch n _).left _ ≠ 0
    omega
  · have hbefore := h.rollbacks
    show s.metrics.rollbacks + (s.setWatch n _).left _ = s.performed + 1
    omega
  · have hbefore := h.triggers
    have hmoved := tripped_setWatch hn w'
    show s.metrics.triggers = byProbe + (s.setWatch n _).tripped
    omega
  · show r.pending.map _ = none
    rw [hr]
    rfl

variable [LT F] [OfNat F 1] [DecidableLT F] {quotient : Nat → Nat → F}

section

variable (h : s.Observed) (hn : s.watchdogs[n]? = some w)
include h hn

theorem observed_fire (hstep : s.watch quotient n w .fire = some s') :
    s'.Observed ↔ s.KeptBy w .fire := by
  obtain ⟨htimer, hs'⟩ := Option.ite_none_right_eq_some.mp hstep
  have hover : ∀ timer, timer ≠ .sleeping → ({ w with timer := timer } : Watchdogs F).watches = none :=
    fun _ hne => watches_eq_none (.inr (.inr hne))
  have hold : w.watches = none := watches_eq_none (.inr (.inr (by rw [htimer]; nofun)))
  obtain ⟨hnone, hother⟩ | ⟨hmine, r, hr, hsome⟩ := rolledBack_cases s w.id
  · -- the gauge is written all the same
    rw [hnone] at hs'
    obtain rfl : s.setWatch n { w with timer := .writing [.active 0] } = s' := Option.some.inj hs'
    have hactive := left_setWatch hn { w with timer := .writing [.active 0] } isActive
    have hrollback := left_setWatch hn { w with timer := .writing [.active 0] } isRollback
    simp only [htimer, Timer.left, List.countP_cons, List.countP_nil, isActive, isRollback, if_true,
      Bool.false_eq_true, if_false] at hactive hrollback
    refine iff_of_true ⟨fun hzero => by omega, ?_, ?_, ?_⟩ fun _ hmine => absurd hmine hother
    · have hbefore := h.rollbacks
      show s.metrics.rollbacks + _ = s.performed
      omega
    · show s.metrics.triggers = s.byProbe + _
      rw [Nat.add_right_cancel (tripped_setWatch hn { w with timer := .writing [.active 0] })]
      exact h.triggers
    · rw [watched_setWatch hn ((hover (.writing [.active 0]) nofun).trans hold.symm)]
      exact h.outlives
  · rw [hsome] at hs'
    cases hs'
    have hkept : s.KeptBy w .fire ↔ s.watched = [] :=
      ⟨fun hkept => hkept htimer hmine, fun hwatched _ _ => hwatched⟩
    rw [hkept]
    refine observed_rolledBack h hn hr .timeout (fun kind => ?_) rfl hold (hover _ nofun)
    simp only [htimer, Timer.left, List.countP_nil]
    omega

theorem observed_trip {v : ProbeVerdict} (hprobe : w.probe = .tripped v)
    (hstep : s.watch quotient n w .trip = some s') : s'.Observed ↔ s.KeptBy w .trip := by
  have htrips : w.probe.isTripped = true := by rw [hprobe]; rfl
  simp only [watch, hprobe] at hstep
  obtain ⟨hnone, hother⟩ | ⟨hmine, r, hr, hsome⟩ := rolledBack_cases s w.id
  · -- it has counted itself for nothing
    rw [hnone] at hstep
    cases hstep
    refine iff_of_false (fun hobserved => ?_) fun hkept => hother (hkept htrips).1
    have hmoved := tripped_setWatch hn { w with probe := .writing [] .ok }
    have hnow : s.metrics.triggers =
      s.byProbe + (s.setWatch n { w with probe := .writing [] .ok }).tripped := hobserved.triggers
    have hbefore := h.triggers
    rw [if_pos htrips, if_neg nofun] at hmoved
    omega
  · rw [hsome] at hstep
    cases hstep
    have hkept : s.KeptBy w .trip ↔ s.watched = [] :=
      ⟨fun hkept => (hkept htrips).2, fun hwatched _ => ⟨hmine, hwatched⟩⟩
    rw [hkept]
    refine observed_rolledBack h hn hr .errorBudget (fun kind => ?_) ?_
      (watches_eq_none (.inl (by rw [hprobe]; rfl))) (watches_eq_none (.inl rfl))
    · simp only [hprobe, Probe.left, List.countP_nil]
      omega
    · rw [if_pos htrips]
      rfl

theorem observed_tick {window : List ProbeSample}
    (hprobe : w.probe = .watching window) {sample : ProbeSample} {label : Text}
    (hlabel : (verdict quotient window sample w.config).asMetricLabel = some label) :
    ({ s.setWatch n { w with probe := .tripped (verdict quotient window sample w.config) } with
      metrics := { s.metrics with
        configProbeTriggered := inc s.metrics.configProbeTriggered label } } : Engine F _).Observed := by
  have hleft := fun kind => left_setWatch hn { w with probe := .tripped (verdict quotient window sample w.config) } kind
  have htripped := tripped_setWatch hn { w with probe := .tripped (verdict quotient window sample w.config) }
  simp only [hprobe, Probe.left, Probe.isTripped] at hleft htripped
  have hsame : ∀ kind, (s.setWatch n { w with probe := .tripped (verdict quotient window sample w.config) }).left kind =
      s.left kind := fun kind => Nat.add_right_cancel (hleft kind)
  refine ⟨fun hzero => h.gauge (hsame _ ▸ hzero), (congrArg _ (hsame _)).trans h.rollbacks, ?_,
    fun id hid => h.outlives id ?_⟩
  · refine (triggers_inc s.metrics hlabel).trans ?_
    rw [h.triggers]
    exact (congrArg (s.byProbe + ·) htripped).symm
  · exact mem_watched_setWatch (watches_eq_none (.inl rfl)) hid

theorem observed_watch {duty : Duty}
    (hstep : s.watch quotient n w duty = some s') : s'.Observed ↔ s.KeptBy w duty := by
  cases duty with
  | wake | stop =>
    obtain ⟨htimer, hs'⟩ := Option.ite_none_right_eq_some.mp hstep
    cases hs'
    exact iff_of_true (h.setWatch hn (idle_timer (by rw [htimer.1]; rfl) (.inr nofun))) trivial
  | join =>
    obtain ⟨htimer, hs'⟩ := Option.ite_none_right_eq_some.mp hstep
    cases hs'
    exact iff_of_true (h.setWatch hn (idle_timer (by rw [htimer]; rfl) (.inl rfl))) trivial
  | fire => exact observed_fire h hn hstep
  | leave =>
    simp only [watch] at hstep
    split at hstep
    · next window hprobe =>
      obtain ⟨-, hs'⟩ := Option.ite_none_right_eq_some.mp hstep
      cases hs'
      exact iff_of_true (h.setWatch hn (idle_returned .ok _ (by rw [hprobe]; rfl) (by rw [hprobe]; rfl))) trivial
    · contradiction
  | cancel =>
    simp only [watch] at hstep
    split at hstep
    · next v hprobe =>
      cases hstep
      exact iff_of_true (h.setWatch hn (idle_returned v true (by rw [hprobe]; rfl) (by rw [hprobe]; rfl))) trivial
    · contradiction
  | tick sample =>
    simp only [watch] at hstep
    split at hstep
    · next window hprobe =>
      split at hstep
      · contradiction
      · split at hstep
        · cases hstep
          refine iff_of_true (h.setWatch hn ⟨?_, ?_, .inl ?_⟩) trivial
          · rw [hprobe]
            exact ⟨rfl, rfl⟩
          · rw [hprobe]
            rfl
          · unfold Watchdogs.watches
            rw [hprobe]
            rfl
        · next label hlabel =>
          cases hstep
          exact iff_of_true (observed_tick h hn hprobe hlabel) trivial
    · contradiction
  | trip =>
    cases hprobe : w.probe with
    | tripped v => exact observed_trip h hn hprobe hstep
    | _ => simp only [watch, hprobe, reduceCtorEq] at hstep
  | timerWrites =>
    simp only [watch] at hstep
    split at hstep
    · next v rest htimer =>
      cases hstep
      show _ ↔ s.Last w.timer.left
      rw [htimer]
      refine observed_perform h (fun kind => ?_) rfl rfl rfl rfl ?_ (watched_setWatch hn ?_)
      · have hleft := left_setWatch hn { w with timer := .writing rest } kind
        simp only [htimer, Timer.left, List.countP_cons] at hleft
        omega
      · exact Nat.add_right_cancel (tripped_setWatch hn { w with timer := .writing rest })
      · have hold : w.watches = none := watches_eq_none (.inr (.inr (by rw [htimer]; nofun)))
        rw [hold]
        exact watches_eq_none (.inr (.inr nofun))
    · contradiction
  | probeWrites =>
    simp only [watch] at hstep
    split at hstep
    · next v rest verdict hprobe =>
      cases hstep
      show _ ↔ s.Last w.probe.left
      rw [hprobe]
      refine observed_perform h (fun kind => ?_) rfl rfl rfl rfl ?_ (watched_setWatch hn ?_)
      · have hleft := left_setWatch hn { w with probe := .writing rest verdict } kind
        simp only [hprobe, Probe.left, List.countP_cons] at hleft
        omega
      · have htripped := tripped_setWatch hn { w with probe := .writing rest verdict }
        rw [hprobe] at htripped
        exact htripped
      · have hold : w.watches = none := watches_eq_none (.inl (by rw [hprobe]; rfl))
        rw [hold]
        exact watches_eq_none (.inl rfl)
    · contradiction

end

end Engine

end Duties

section Spawned

variable {F C : Type} [LE F] [OfNat F 1] [DecidableLE F] {s : Engine F C}

namespace Engine

theorem observed_spawn (h : s.Observed) {n : Nat} {id : ChangeId} {config : ProbeConfig F}
    (hn : s.drivers[n]? = some (.spawning id config)) :
    ({ s with
      drivers := s.drivers.set n .done
      watchdogs := s.watchdogs ++ [spawnWatchdogs id config] } : Engine F C).Observed ↔
      (config.isDisabled = false → s.pendingId = some id) := by
  obtain ⟨s₁, hs₁⟩ : ∃ s₁ : Engine F C, s₁ = { s with
      drivers := s.drivers.set n .done
      watchdogs := s.watchdogs ++ [spawnWatchdogs id config] } := ⟨_, rfl⟩
  have hleft : ∀ kind, s₁.left kind = s.left kind := by
    intro kind
    have htotal := total_set (fun d : Driver F => d.left.countP kind) hn .done
    have hnone : (spawnWatchdogs id config).probe.left = [] := by
      unfold spawnWatchdogs
      split <;> rfl
    simp only [hs₁, left, Driver.left, List.countP_nil, total_append, total_cons, total_nil, hnone] at htotal ⊢
    simp only [spawnWatchdogs, Timer.left, List.countP_nil]
    omega
  have htripped : s₁.tripped = s.tripped := by
    have hnot : (spawnWatchdogs id config).probe.isTripped = false := by
      unfold spawnWatchdogs
      split <;> rfl
    simp [hs₁, tripped, hnot]
  have hwatched : s₁.watched = s.watched ++ if config.isDisabled then [] else [id] := by
    simp only [hs₁, watched, List.filterMap_append]
    refine congrArg _ ?_
    cases hdisabled : config.isDisabled <;> simp [spawnWatchdogs, Watchdogs.watches, Probe.isWatching, hdisabled]
  rw [← hs₁]
  constructor
  · intro hobserved hdisabled
    have hmem : id ∈ s₁.watched := by simp [hwatched, hdisabled]
    have hpend := hobserved.outlives id hmem
    rw [hs₁] at hpend
    exact hpend
  · intro hpend
    refine ⟨fun hzero => ?_, ?_, ?_, fun id' hid => ?_⟩
    · rw [hleft] at hzero
      have htells := h.gauge hzero
      rw [hs₁]
      exact htells
    · rw [hleft, hs₁]
      exact h.rollbacks
    · rw [htripped, hs₁]
      exact h.triggers
    · have hsame : s₁.pendingId = s.pendingId := by rw [hs₁]; rfl
      rw [hsame]
      rw [hwatched] at hid
      obtain hold | hnew := List.mem_append.mp hid
      · exact h.outlives id' hold
      · split at hnew
        · contradiction
        · next hdisabled =>
          obtain rfl := List.mem_singleton.mp hnew
          exact hpend (Bool.eq_false_iff.mpr hdisabled)

end Engine

end Spawned

section Steps

variable {F V E : Type} [LE F] [OfNat F 1] [DecidableLE F] [DecidableEq V] {fs : Fields}
  {validate : Config V fs → Except E Unit} {s s' : Engine F (Config V fs)}

theorem apply_of_swaps {r : Reloader (Config V fs)} {candidate : Config V fs}
    (h : Swaps validate r candidate) (window : UInt64)
    (now : Int64) : r.apply validate candidate window now = (.ok (r.receiptFor candidate window now),
      ({ r with minted := r.minted + 1 }).swap candidate (r.receiptFor candidate window now)) := by
  obtain ⟨hnone, hvalid, hrestart, hreloaded⟩ := h
  unfold Reloader.apply
  cases hresult : validate candidate with
  | error e =>
    rw [hresult] at hvalid
    contradiction
  | ok u =>
    have hreport : (r.receiptFor candidate window now).report.reloaded ≠ [] := hreloaded
    simp only [hnone, Option.isSome_none, Bool.false_eq_true, if_false, hrestart, ne_eq, not_true_eq_false, hreport,
      not_false_eq_true, if_true]

theorem pending_of_not_swaps {r : Reloader (Config V fs)} {candidate : Config V fs}
    (h : ¬ Swaps validate r candidate) (window : UInt64)
    (now : Int64) : (r.apply validate candidate window now).2.pending = r.pending := by
  obtain ⟨e, heq⟩ | ⟨-, heq⟩ | ⟨hswaps, -⟩ := apply_cases validate r candidate window now
  · rw [heq]
  · rw [heq]
  · exact absurd hswaps h

namespace Engine

theorem observed_putConfig (h : s.Observed) (candidate : Config V fs) (window : UInt64) (now : Int64) :
    ({ s with reloader := (s.reloader.apply validate candidate window now).2 } : Engine F (Config V fs)).Observed ↔
      s.Kept validate (.putConfig candidate window now) := by
  by_cases hswaps : Swaps validate s.reloader candidate
  · have hnone : s.pendingId = none := by
      unfold pendingId
      rw [hswaps.1]
      rfl
    have hwatched : s.watched = [] := by
      refine List.eq_nil_iff_forall_not_mem.mpr fun id hid => ?_
      have hpend := h.outlives id hid
      rw [hnone] at hpend
      contradiction
    rw [observed_pending h]
    · exact ⟨fun hboth _ => hboth.1, fun hkept => ⟨hkept hswaps, hwatched⟩⟩
    · rw [apply_of_swaps hswaps]
      exact iff_of_false nofun fun hne => hne hnone
  · refine iff_of_true (h.quiet (fun _ => rfl) rfl ?_ rfl rfl rfl fun _ hid => hid) fun hs => absurd hs hswaps
    exact congrArg (Option.map PendingChange.id) (pending_of_not_swaps hswaps window now)

variable [LT F] [DecidableLT F] {quotient : Nat → Nat → F} {canary : Config V fs → CanaryConfig F}

theorem observed_reload (h : s.Observed) {candidate : Config V fs} {now : Int64}
    (hstep : s.step quotient canary validate (.reload candidate now) = some s') : s'.Observed := by
  -- the gauge is to be written whenever something is new
  have harms : ∀ (r : Reloader (Config V fs)) id config, (∀ id ∈ s.watched, r.pending.map PendingChange.id = some id) →
      ({ s with reloader := r, drivers := s.drivers ++ [.arming id config] } : Engine F (Config V fs)).Observed := by
    refine fun r id config hwatched => ⟨fun hzero => ?_, ?_, h.triggers, hwatched⟩
    · simp [left, Driver.left, isActive] at hzero
    · have hbefore := h.rollbacks
      simp [left, Driver.left, isRollback] at hbefore ⊢
      exact hbefore
  simp only [step] at hstep
  by_cases hswaps : Swaps validate s.reloader candidate
  · rw [apply_of_swaps hswaps] at hstep
    dsimp only at hstep
    rw [if_neg fun hnoop => hswaps.2.2.2 hnoop.1] at hstep
    obtain rfl := Option.some.inj hstep
    refine harms _ _ _ fun id hid => ?_
    have hold := h.outlives id hid
    unfold pendingId at hold
    rw [hswaps.1] at hold
    contradiction
  · have hsame := pending_of_not_swaps hswaps (canary candidate).deadlineS now
    split at hstep
    · next receipt r happly =>
      rw [happly] at hsame
      have hpending : r.pending.map PendingChange.id = s.pendingId := congrArg _ hsame
      split at hstep
      · obtain rfl := Option.some.inj hstep
        exact h.quiet (fun _ => rfl) rfl hpending rfl rfl rfl fun _ hid => hid
      · obtain rfl := Option.some.inj hstep
        exact harms r _ _ fun id hid => hpending.trans (h.outlives id hid)
    · next e r happly =>
      rw [happly] at hsame
      obtain rfl := Option.some.inj hstep
      have hpending : r.pending.map PendingChange.id = s.pendingId := congrArg _ hsame
      exact h.quiet (fun _ => rfl) rfl hpending rfl rfl rfl fun _ hid => hid

theorem observed_step (h : s.Observed) {e : Event (Config V fs)} (hstep : s.step quotient canary validate e = some s') :
    s'.Observed ↔ s.Kept validate e := by
  cases e with
  | putConfig candidate window now =>
    obtain rfl := Option.some.inj hstep
    exact observed_putConfig h candidate window now
  | reload candidate now => exact iff_of_true (observed_reload h hstep) trivial
  | confirm id =>
    obtain rfl := Option.some.inj hstep
    obtain ⟨heq, hne⟩ | ⟨p, hp, rfl, heq⟩ := confirm_cases s.reloader id
    · rw [heq]
      refine iff_of_true h fun hid => ?_
      obtain ⟨p, hp, rfl⟩ := Option.map_eq_some_iff.mp hid
      exact absurd rfl (hne p hp)
    · have hid : s.pendingId = some p.id := congrArg (Option.map PendingChange.id) hp
      rw [heq, observed_pending h]
      · exact ⟨fun hboth _ => hboth, fun hkept => hkept hid⟩
      · rw [hid]
        exact iff_of_true rfl (Option.some_ne_none p.id)
  | rollback id reason metrics =>
    obtain rfl := Option.some.inj hstep
    obtain ⟨hnone, hother⟩ | ⟨hmine, r, hr, hsome⟩ := rolledBack_cases s id
    · rw [hnone]
      exact iff_of_true h fun hid => absurd hid hother
    · rw [hsome]
      cases metrics with
      | false =>
        refine iff_of_false (fun hobserved => ?_) fun hkept => Bool.false_ne_true (hkept hmine).1
        have hafter : s.metrics.rollbacks + s.left isRollback = s.performed + 1 := hobserved.rollbacks
        have hbefore := h.rollbacks
        omega
      | true =>
        have hkept : s.Kept validate (.rollback id reason true) ↔ s.watched = [] :=
          ⟨fun hkept => (hkept hmine).2, fun hwatched _ => ⟨rfl, hwatched⟩⟩
        rw [hkept]
        refine observed_resolve ?_ ?_ h.triggers ?_ rfl
        · simp [left, isActive]
        · have hbefore := h.rollbacks
          simp [left, isRollback] at hbefore ⊢
          omega
        · show r.pending.map _ = none
          rw [hr]
          rfl
  | report n =>
    simp only [step] at hstep
    split at hstep
    · next v rest hn =>
      obtain rfl := Option.some.inj hstep
      have hkept : s.Kept validate (.report n) ↔ s.Last (v :: rest) :=
        ⟨fun hkept => hkept _ hn, fun hlast ws hws => Option.mem_unique hn hws ▸ hlast⟩
      rw [hkept]
      refine observed_perform h (fun kind => ?_) rfl rfl rfl rfl rfl rfl
      have htotal := total_set (List.countP kind) hn rest
      simp only [left, List.countP_cons] at htotal ⊢
      omega
    · contradiction
  | arm n =>
    obtain ⟨d, hn, hstep⟩ := Option.bind_eq_some_iff.mp hstep
    cases d with
    | arming id config =>
      obtain rfl := Option.some.inj hstep
      have hkept : s.Kept validate (.arm n) ↔ s.Last [.active 1] :=
        ⟨fun hkept => hkept _ hn, fun hlast d hd => Option.mem_unique hn hd ▸ hlast⟩
      rw [hkept]
      refine observed_perform h (fun kind => ?_) rfl rfl rfl rfl rfl rfl
      have htotal := total_set (fun d : Driver F => d.left.countP kind) hn (.spawning id config)
      simp only [left, Driver.left, List.countP_cons, List.countP_nil] at htotal ⊢
      omega
    | spawning id config =>
      obtain rfl := Option.some.inj hstep
      have hkept : s.Kept validate (.arm n) ↔ (config.isDisabled = false → s.pendingId = some id) :=
        ⟨fun hkept => hkept _ hn, fun hlast d hd => Option.mem_unique hn hd ▸ hlast⟩
      rw [hkept]
      exact observed_spawn h hn
    | done => contradiction
  | watch n duty =>
    obtain ⟨w, hn, hstep⟩ := Option.bind_eq_some_iff.mp hstep
    rw [observed_watch h hn hstep]
    exact ⟨fun hkept w' hw' => Option.mem_unique hn hw' ▸ hkept, fun hkept => hkept w hn⟩
  | shutdown =>
    obtain rfl := Option.some.inj hstep
    exact iff_of_true (h.quiet (fun _ => rfl) rfl rfl rfl rfl rfl fun _ hid => hid) trivial

end Engine

end Steps

/-! ## runs -/

section Runs

variable {F V E : Type} {fs : Fields}

namespace Engine

theorem observed_init (boot : Config V fs) : (init boot : Engine F (Config V fs)).Observed :=
  ⟨fun _ => iff_of_false nofun fun h => h rfl, rfl, rfl, nofun⟩

variable [LT F] [LE F] [OfNat F 1] [DecidableLT F] [DecidableLE F] [DecidableEq V] (quotient : Nat → Nat → F)
  (canary : Config V fs → CanaryConfig F) (validate : Config V fs → Except E Unit)

/-- In every state of a run the gauge tells whether a change is pending once nobody is writing it, each
rollback is counted or about to be, each trip of a probe is one of its rollbacks or about to be, and no
probe watches another change than the pending one, just when every step keeps to `Kept`. -/
theorem canary_observed_iff (boot : Config V fs) (events : List (Event (Config V fs))) (s : Engine F (Config V fs))
    (hexec : exec (step quotient canary validate) (.init boot) events = some s) :
    (∀ before after s₁, events = before ++ after →
      exec (step quotient canary validate) (.init boot) before = some s₁ → s₁.Observed) ↔
      Meets (step quotient canary validate) (Kept validate) (.init boot) events :=
  meets_iff (fun _ h => h) (fun _ _ _ h hkept hstep => (observed_step h hstep).mpr hkept)
    (fun _ _ _ h hnot hstep hobserved => hnot ((observed_step h hstep).mp hobserved)) hexec (observed_init boot)

end Engine

end Runs

/-! ## sample runs -/

def sampleQuotient (errors sum : Nat) : Rat := errors / sum

/-- A minute, and ten parse errors a second. -/
def sampleCanary (_ : Config Nat sampleFields) : CanaryConfig Rat := ⟨60, 1, 10⟩

def sampleStep : Engine Rat (Config Nat sampleFields) → Event (Config Nat sampleFields) →
    Option (Engine Rat (Config Nat sampleFields)) :=
  Engine.step sampleQuotient sampleCanary sampleValidate

/-- A hundred parse errors in a second. -/
def tripRun : List (Event (Config Nat sampleFields)) :=
  [.watch 0 (.tick ⟨0, 0, 0, 0⟩), .watch 0 (.tick ⟨1000000000, 0, 0, 100⟩), .watch 0 .trip]

/-- The probe rolls the change back, and the timer finds nothing to do. -/
def rolledBackRun : List (Event (Config Nat sampleFields)) :=
  ([.reload (sampleConfig 2 5060) 1000, .arm 0, .arm 0] : List (Event (Config Nat sampleFields))) ++ tripRun ++
    ([.watch 0 .probeWrites, .watch 0 .probeWrites, .watch 0 .cancel, .watch 0 .wake, .watch 0 .fire, .watch 0 .timerWrites,
      .watch 0 .join] : List (Event (Config Nat sampleFields)))

/-- The operator confirms the change, and its probe trips. -/
def confirmedRun : List (Event (Config Nat sampleFields)) :=
  ([.reload (sampleConfig 2 5060) 1000, .arm 0, .arm 0, .confirm 0] : List (Event (Config Nat sampleFields))) ++ tripRun

def rolledBack : Engine Rat (Config Nat sampleFields) :=
  (exec sampleStep (.init (sampleConfig 1 5060)) rolledBackRun).getD (.init (sampleConfig 1 5060))

def confirmed : Engine Rat (Config Nat sampleFields) :=
  (exec sampleStep (.init (sampleConfig 1 5060)) confirmedRun).getD (.init (sampleConfig 1 5060))

theorem canary_observed_rolledBackRun : exec sampleStep (.init (sampleConfig 1 5060)) rolledBackRun = some rolledBack ∧
    ∀ before after s₁, rolledBackRun = before ++ after →
      exec sampleStep (.init (sampleConfig 1 5060)) before = some s₁ → s₁.Observed :=
  ⟨rfl, (Engine.canary_observed_iff sampleQuotient sampleCanary sampleValidate (sampleConfig 1 5060) rolledBackRun rolledBack
    rfl).mpr (by decide +kernel)⟩

/-- The gauge stays up when the change is confirmed, and the probe counts itself. -/
theorem confirmed_and_tripped : exec sampleStep (.init (sampleConfig 1 5060)) confirmedRun = some confirmed ∧
    confirmed.left isActive = 0 ∧ confirmed.pendingId = none ∧ confirmed.metrics.configCanaryActive = 1 ∧
    confirmed.metrics.triggers = 1 ∧ confirmed.performed = 0 ∧ ¬ confirmed.Observed := by
  have hseen : confirmed.left isActive = 0 ∧ confirmed.pendingId = none ∧ confirmed.metrics.configCanaryActive = 1 ∧
      confirmed.metrics.triggers = 1 ∧ confirmed.performed = 0 := by decide +kernel
  obtain ⟨hleft, hpending, hgauge, htriggers, hperformed⟩ := hseen
  exact ⟨rfl, hleft, hpending, hgauge, htriggers, hperformed, fun hobserved => (hobserved.gauge hleft).mp hgauge hpending⟩

end SmithsNet.Reload
