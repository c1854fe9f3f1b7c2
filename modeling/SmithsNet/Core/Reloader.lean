import SmithsNet.Lib.Exec
import SmithsNet.Lib.Text

/-!
# SmithsNet.Core.Reloader

Config hot-reload with a canary (`smiths-core/src/reloader.rs`) and the
`Reloadable` diff (`smiths-config-macros/src/lib.rs`).

The operations hold the state lock from their first read to their last write, so
each is one step; a timer is the id it was armed with.  Subscribers come and go.
`send` on a watch channel without a receiver keeps the old value.

`canary_safe`: in a run that swaps the config only while someone is subscribed,
and mints less than `2 ^ 64` ids, the canary keeps its promises.
`broadcast_missed` is a run with no subscriber.
-/

namespace SmithsNet.Reload

open Lib

/-! ## the diff -/

/-- The fields of a config struct, with their attributes. -/
inductive Fields
  | nil
  | reloadable (name : Text) (path : Option Text) (rest : Fields)
  | restartRequired (name : Text) (group : Option Text) (rest : Fields)
  | nested (name : Text) (inner rest : Fields)

/-- The values of a struct. -/
def Config (V : Type) : Fields → Type
  | .nil => Unit
  | .reloadable _ _ rest => V × Config V rest
  | .restartRequired _ _ rest => V × Config V rest
  | .nested _ inner rest => Config V inner × Config V rest

def decEqConfig (V : Type) [DecidableEq V] : (fs : Fields) → DecidableEq (Config V fs)
  | .nil => inferInstanceAs (DecidableEq Unit)
  | .reloadable _ _ rest =>
    have := decEqConfig V rest
    inferInstanceAs (DecidableEq (V × Config V rest))
  | .restartRequired _ _ rest =>
    have := decEqConfig V rest
    inferInstanceAs (DecidableEq (V × Config V rest))
  | .nested _ inner rest =>
    have := decEqConfig V inner
    have := decEqConfig V rest
    inferInstanceAs (DecidableEq (Config V inner × Config V rest))

instance (V : Type) [DecidableEq V] (fs : Fields) : DecidableEq (Config V fs) := decEqConfig V fs

structure ApplyReport where
  reloaded : List Text := []
  restartRequired : List Text := []
  deriving DecidableEq

def ApplyReport.append (r r' : ApplyReport) : ApplyReport :=
  ⟨r.reloaded ++ r'.reloaded, r.restartRequired ++ r'.restartRequired⟩

/-- An explicit path wins over the prefix. -/
def pathExpr (pathPrefix name : Text) : Option Text → Text
  | some path => path
  | none => if pathPrefix = [] then name else pathPrefix ++ '.' :: name

/-- One more condition of a group; groups are sorted by label. -/
def insertCond (label : Text) (differs : Bool) : List (Text × Bool) → List (Text × Bool)
  | [] => [(label, differs)]
  | (l, d) :: rest =>
    if label = l then (l, d || differs) :: rest
    else if label < l then (label, differs) :: (l, d) :: rest
    else (l, d) :: insertCond label differs rest

section Diff

variable {V : Type} [DecidableEq V]

def reloadableEmits (pathPrefix : Text) : (fs : Fields) → Config V fs → Config V fs → List Text
  | .nil, _, _ => []
  | .reloadable name path rest, old, new =>
    (if old.1 ≠ new.1 then [pathExpr pathPrefix name path] else []) ++
      reloadableEmits pathPrefix rest old.2 new.2
  | .restartRequired _ _ rest, old, new => reloadableEmits pathPrefix rest old.2 new.2
  | .nested _ _ rest, old, new => reloadableEmits pathPrefix rest old.2 new.2

def restartPlain (pathPrefix : Text) : (fs : Fields) → Config V fs → Config V fs → List Text
  | .nil, _, _ => []
  | .reloadable _ _ rest, old, new => restartPlain pathPrefix rest old.2 new.2
  | .restartRequired name none rest, old, new =>
    (if old.1 ≠ new.1 then [pathExpr pathPrefix name none] else []) ++
      restartPlain pathPrefix rest old.2 new.2
  | .restartRequired _ (some _) rest, old, new => restartPlain pathPrefix rest old.2 new.2
  | .nested _ _ rest, old, new => restartPlain pathPrefix rest old.2 new.2

def restartGroups : (fs : Fields) → Config V fs → Config V fs → List (Text × Bool)
  | .nil, _, _ => []
  | .reloadable _ _ rest, old, new => restartGroups rest old.2 new.2
  | .restartRequired _ none rest, old, new => restartGroups rest old.2 new.2
  | .restartRequired _ (some label) rest, old, new =>
    insertCond label (decide (old.1 ≠ new.1)) (restartGroups rest old.2 new.2)
  | .nested _ _ rest, old, new => restartGroups rest old.2 new.2

/-- What the fields of one struct report. -/
def ownEmits (pathPrefix : Text) (fs : Fields) (old new : Config V fs) : ApplyReport where
  reloaded := reloadableEmits pathPrefix fs old new
  restartRequired := restartPlain pathPrefix fs old new ++
    ((restartGroups fs old new).filter Prod.snd).map Prod.fst

def nestedEmits (pathPrefix : Text) : (fs : Fields) → Config V fs → Config V fs → ApplyReport
  | .nil, _, _ => {}
  | .reloadable _ _ rest, old, new => nestedEmits pathPrefix rest old.2 new.2
  | .restartRequired _ _ rest, old, new => nestedEmits pathPrefix rest old.2 new.2
  | .nested name inner rest, old, new =>
    let path := pathExpr pathPrefix name none
    ((ownEmits path inner old.1 new.1).append (nestedEmits path inner old.1 new.1)).append
      (nestedEmits pathPrefix rest old.2 new.2)

def diffInto (pathPrefix : Text) (fs : Fields) (old new : Config V fs) : ApplyReport :=
  (ownEmits pathPrefix fs old new).append (nestedEmits pathPrefix fs old new)

def Config.applyReport {fs : Fields} (old new : Config V fs) : ApplyReport := diffInto [] fs old new

/-- The restart-required fields are the same. -/
def Agree : (fs : Fields) → Config V fs → Config V fs → Prop
  | .nil, _, _ => True
  | .reloadable _ _ rest, old, new => Agree rest old.2 new.2
  | .restartRequired _ _ rest, old, new => old.1 = new.1 ∧ Agree rest old.2 new.2
  | .nested _ inner rest, old, new => Agree inner old.1 new.1 ∧ Agree rest old.2 new.2

/-- The same without the nested ones. -/
def AgreeOwn : (fs : Fields) → Config V fs → Config V fs → Prop
  | .nil, _, _ => True
  | .reloadable _ _ rest, old, new => AgreeOwn rest old.2 new.2
  | .restartRequired _ _ rest, old, new => old.1 = new.1 ∧ AgreeOwn rest old.2 new.2
  | .nested _ _ rest, old, new => AgreeOwn rest old.2 new.2

theorem filter_insertCond (label : Text) (differs : Bool) (gs : List (Text × Bool)) :
    (insertCond label differs gs).filter Prod.snd = [] ↔
      differs = false ∧ gs.filter Prod.snd = [] := by
  induction gs with
  | nil => simp [insertCond]
  | cons g gs ih =>
    obtain ⟨l, d⟩ := g
    unfold insertCond
    split_ifs
    · cases differs <;> simp
    · simp
    · simp only [List.filter_cons]
      cases d with
      | false => simpa using ih
      | true => simp

theorem ownEmits_restartRequired (pathPrefix : Text) (fs : Fields) (old new : Config V fs) :
    (ownEmits pathPrefix fs old new).restartRequired = [] ↔ AgreeOwn fs old new := by
  have hpair : ∀ (fs : Fields) (old new : Config V fs),
      restartPlain pathPrefix fs old new = [] ∧ (restartGroups fs old new).filter Prod.snd = [] ↔
        AgreeOwn fs old new := by
    intro fs old new
    induction fs with
    | nil => simp [restartPlain, restartGroups, AgreeOwn]
    | reloadable name path rest ih => exact ih old.2 new.2
    | restartRequired name group rest ih =>
      have hrest := ih old.2 new.2
      cases group with
      | none =>
        by_cases hsame : old.1 = new.1
        · simpa [restartPlain, restartGroups, AgreeOwn, hsame] using hrest
        · simp [restartPlain, AgreeOwn, hsame]
      | some label =>
        simp only [restartPlain, restartGroups, AgreeOwn, filter_insertCond, ← hrest]
        by_cases hsame : old.1 = new.1
        · simp [hsame]
        · simp [hsame]
    | nested name inner rest _ ih => exact ih old.2 new.2
  rw [← hpair]
  simp [ownEmits]

variable {fs : Fields}

/-- The report names a restart-required field exactly when one differs. -/
theorem applyReport_restartRequired (old new : Config V fs) :
    (old.applyReport new).restartRequired = [] ↔ Agree fs old new := by
  have hall : ∀ (fs : Fields) (pathPrefix : Text) (old new : Config V fs),
      (AgreeOwn fs old new ∧ (nestedEmits pathPrefix fs old new).restartRequired = []) ↔
        Agree fs old new := by
    intro fs
    induction fs with
    | nil => simp [AgreeOwn, nestedEmits, Agree]
    | reloadable name path rest ih => exact fun pre old new => ih pre old.2 new.2
    | restartRequired name group rest ih =>
      intro pre old new
      have hrest := ih pre old.2 new.2
      simp only [AgreeOwn, nestedEmits, Agree, ← hrest, and_assoc]
    | nested name inner rest ihin ih =>
      intro pre old new
      have hrest := ih pre old.2 new.2
      have hinner := ihin (pathExpr pre name none) old.1 new.1
      simp only [AgreeOwn, nestedEmits, Agree, ApplyReport.append, List.append_eq_nil_iff,
        ownEmits_restartRequired, ← hrest, ← hinner]
      tauto
  rw [← hall fs []]
  simp [Config.applyReport, diffInto, ApplyReport.append, ownEmits_restartRequired]

/-- A reloadable field that differs, at any depth, is reported as `path`. -/
def Differs (pathPrefix : Text) : (fs : Fields) → Config V fs → Config V fs → Text → Prop
  | .nil, _, _, _ => False
  | .reloadable name own rest, old, new, path =>
    old.1 ≠ new.1 ∧ path = pathExpr pathPrefix name own ∨ Differs pathPrefix rest old.2 new.2 path
  | .restartRequired _ _ rest, old, new, path => Differs pathPrefix rest old.2 new.2 path
  | .nested name inner rest, old, new, path =>
    Differs (pathExpr pathPrefix name none) inner old.1 new.1 path ∨
      Differs pathPrefix rest old.2 new.2 path

/-- The report names, as reloaded, exactly the reloadable fields that differ. -/
theorem mem_diffInto_reloaded (path : Text) (pathPrefix : Text) (old new : Config V fs) :
    path ∈ (diffInto pathPrefix fs old new).reloaded ↔ Differs pathPrefix fs old new path := by
  induction fs generalizing pathPrefix with
  | nil => simp [diffInto, ownEmits, reloadableEmits, nestedEmits, ApplyReport.append, Differs]
  | reloadable name own rest ih =>
    have hrest := ih pathPrefix old.2 new.2
    simp only [diffInto, ApplyReport.append, List.mem_append] at hrest
    by_cases hsame : old.1 = new.1
    · simpa [diffInto, ownEmits, reloadableEmits, nestedEmits, ApplyReport.append, Differs,
        hsame] using hrest
    · simp [diffInto, ownEmits, reloadableEmits, nestedEmits, ApplyReport.append, Differs, hsame,
        ← hrest]
  | restartRequired name group rest ih => exact ih pathPrefix old.2 new.2
  | nested name inner rest ihin ih =>
    have hrest := ih pathPrefix old.2 new.2
    have hinner := ihin (pathExpr pathPrefix name none) old.1 new.1
    simp only [diffInto, ApplyReport.append, ownEmits, List.mem_append] at hrest hinner
    simp only [diffInto, ownEmits, reloadableEmits, nestedEmits, ApplyReport.append, Differs,
      List.mem_append, ← hrest, ← hinner]
    tauto

omit [DecidableEq V] in
theorem agree_refl (fs : Fields) (c : Config V fs) : Agree fs c c := by
  induction fs with
  | nil => trivial
  | reloadable name path rest ih => exact ih c.2
  | restartRequired name group rest ih => exact ⟨rfl, ih c.2⟩
  | nested name inner rest ihin ih => exact ⟨ihin c.1, ih c.2⟩

omit [DecidableEq V] in
theorem Agree.trans {a b c : Config V fs} (h : Agree fs a b) (h' : Agree fs b c) :
    Agree fs a c := by
  induction fs with
  | nil => trivial
  | reloadable name path rest ih => exact ih h h'
  | restartRequired name group rest ih => exact ⟨h.1.trans h'.1, ih h.2 h'.2⟩
  | nested name inner rest ihin ih => exact ⟨ihin h.1 h'.1, ih h.2 h'.2⟩

end Diff

/-! ## the reloader -/

abbrev ChangeId := UInt64

structure ChangeReceipt where
  id : ChangeId
  deadlineAtUnix : Int64
  report : ApplyReport
  deriving DecidableEq

/-- A watch channel. -/
structure Watch (C : Type) where
  value : C
  receivers : Nat
  deriving DecidableEq

/-- Without a receiver the value is handed back to the sender. -/
def Watch.send {C : Type} (w : Watch C) (c : C) : Watch C :=
  if w.receivers = 0 then w else { w with value := c }

inductive ApplyError (E : Type)
  | invalid (e : E)
  | pending
  | restartRequired (fields : List Text)

inductive CanaryError
  | unknownChange (id : ChangeId)

structure PendingChange (C : Type) where
  id : ChangeId
  priorSnapshot : C
  receipt : ChangeReceipt
  deriving DecidableEq

structure Reloader (C : Type) where
  current : C
  pending : Option (PendingChange C)
  /-- `next_change_id` before it wraps. -/
  minted : Nat
  watch : Watch C
  /-- The ids of the timers that have not fired. -/
  timers : List ChangeId
  cancelled : Bool
  deriving DecidableEq

def Reloader.init {C : Type} (boot : C) : Reloader C where
  current := boot
  pending := none
  minted := 0
  watch := ⟨boot, 0⟩
  timers := []
  cancelled := false

namespace Reloader

section Ops

variable {V E : Type} [DecidableEq V] {fs : Fields} (validate : Config V fs → Except E Unit)

/-- The receipt of a candidate. -/
def receiptFor (s : Reloader (Config V fs)) (candidate : Config V fs) (canaryWindow : UInt64)
    (now : Int64) : ChangeReceipt where
  id := .ofNat s.minted
  deadlineAtUnix := now + canaryWindow.toInt64
  report := s.current.applyReport candidate

/-- The candidate goes live, the old config waits for a rollback. -/
def swap (s : Reloader (Config V fs)) (candidate : Config V fs) (receipt : ChangeReceipt) :
    Reloader (Config V fs) :=
  { s with
    current := candidate
    pending := some ⟨receipt.id, s.current, receipt⟩
    watch := s.watch.send candidate }

def apply (s : Reloader (Config V fs)) (candidate : Config V fs) (canaryWindow : UInt64)
    (now : Int64) : Except (ApplyError E) ChangeReceipt × Reloader (Config V fs) :=
  match validate candidate with
  | .error e => (.error (.invalid e), s)
  | .ok () =>
    if s.pending.isSome then (.error .pending, s)
    else
      let report := s.current.applyReport candidate
      if report.restartRequired ≠ [] then (.error (.restartRequired report.restartRequired), s)
      else
        let receipt := s.receiptFor candidate canaryWindow now
        let s := { s with minted := s.minted + 1 }
        -- nothing to confirm when nothing changed
        if receipt.report.reloaded ≠ [] then (.ok receipt, s.swap candidate receipt)
        else (.ok receipt, s)

end Ops

section Canary

variable {C : Type}

def confirm (s : Reloader C) (id : ChangeId) : Except CanaryError Unit × Reloader C :=
  match s.pending with
  | some p => if p.id = id then (.ok (), { s with pending := none }) else (.error (.unknownChange id), s)
  | none => (.error (.unknownChange id), s)

def rollback (s : Reloader C) (id : ChangeId) : Except CanaryError Unit × Reloader C :=
  match s.pending with
  | some p =>
    if p.id = id then
      (.ok (), { s with
        pending := none
        current := p.priorSnapshot
        watch := s.watch.send p.priorSnapshot })
    else (.error (.unknownChange id), s)
  | none => (.error (.unknownChange id), s)

/-- A timer of `spawn_auto_rollback` wakes up. -/
def fire (s : Reloader C) (id : ChangeId) : Reloader C :=
  let s := { s with timers := s.timers.erase id }
  if s.cancelled then s else (s.rollback id).2

end Canary

end Reloader

/-! ## what an action does -/

section Frames

variable {C : Type}

theorem confirm_cases (s : Reloader C) (id : ChangeId) :
    (s.confirm id = (.error (.unknownChange id), s) ∧ ∀ p ∈ s.pending, p.id ≠ id) ∨
      ∃ p, s.pending = some p ∧ p.id = id ∧ s.confirm id = (.ok (), { s with pending := none }) := by
  unfold Reloader.confirm
  cases hp : s.pending with
  | none => exact .inl ⟨rfl, by simp⟩
  | some p =>
    by_cases hid : p.id = id
    · exact .inr ⟨p, rfl, hid, by simp [hid]⟩
    · exact .inl ⟨by simp [hid], by simpa using hid⟩

theorem rollback_cases (s : Reloader C) (id : ChangeId) :
    (s.rollback id = (.error (.unknownChange id), s) ∧ ∀ p ∈ s.pending, p.id ≠ id) ∨
      ∃ p, s.pending = some p ∧ p.id = id ∧
        s.rollback id = (.ok (), { s with
          pending := none
          current := p.priorSnapshot
          watch := s.watch.send p.priorSnapshot }) := by
  unfold Reloader.rollback
  cases hp : s.pending with
  | none => exact .inl ⟨rfl, by simp⟩
  | some p =>
    by_cases hid : p.id = id
    · exact .inr ⟨p, rfl, hid, by simp [hid]⟩
    · exact .inl ⟨by simp [hid], by simpa using hid⟩

/-- What is left of the reloader when timers, subscribers and ids are not looked
at. -/
structure Quiet (s s' : Reloader C) : Prop where
  current : s'.current = s.current
  pending : s'.pending = s.pending
  value : s'.watch.value = s.watch.value

theorem send_value {w : Watch C} (h : w.receivers ≠ 0) (c : C) : (w.send c).value = c := by
  simp [Watch.send, h]

theorem fire_cases (s : Reloader C) (id : ChangeId) :
    (s.fire id = { s with timers := s.timers.erase id } ∧
        (s.cancelled = true ∨ ∀ p ∈ s.pending, p.id ≠ id)) ∨
      ∃ p, s.pending = some p ∧ p.id = id ∧ s.cancelled = false ∧
        s.fire id = { s with
          timers := s.timers.erase id
          pending := none
          current := p.priorSnapshot
          watch := s.watch.send p.priorSnapshot } := by
  unfold Reloader.fire
  dsimp only
  split
  · next hc => exact .inl ⟨rfl, .inl hc⟩
  · next hc =>
    obtain ⟨heq, hne⟩ | ⟨p, hp, hid, heq⟩ := rollback_cases { s with timers := s.timers.erase id } id
    · rw [heq]
      exact .inl ⟨rfl, .inr hne⟩
    · rw [heq]
      exact .inr ⟨p, hp, hid, by simpa using hc, rfl⟩

end Frames

/-! ## runs -/

inductive Act (C : Type)
  | apply (candidate : C) (canaryWindow : UInt64) (now : Int64)
  | confirm (id : ChangeId)
  | rollback (id : ChangeId)
  | spawnAutoRollback (id : ChangeId)
  | fire (id : ChangeId)
  | subscribe
  | dropReceiver
  | shutdown

section Runs

variable {V E : Type} [DecidableEq V] {fs : Fields} (validate : Config V fs → Except E Unit)

def step (s : Reloader (Config V fs)) : Act (Config V fs) → Option (Reloader (Config V fs))
  | .apply candidate canaryWindow now => some (s.apply validate candidate canaryWindow now).2
  | .confirm id => some (s.confirm id).2
  | .rollback id => some (s.rollback id).2
  | .spawnAutoRollback id => some { s with timers := s.timers ++ [id] }
  | .fire id => if id ∈ s.timers then some (s.fire id) else none
  | .subscribe => some { s with watch := { s.watch with receivers := s.watch.receivers + 1 } }
  | .dropReceiver =>
    if s.watch.receivers = 0 then none
    else some { s with watch := { s.watch with receivers := s.watch.receivers - 1 } }
  | .shutdown => some { s with cancelled := true }

/-- The apply would put the candidate live. -/
def Swaps (s : Reloader (Config V fs)) (candidate : Config V fs) : Prop :=
  s.pending = none ∧ (validate candidate).isOk = true ∧
    (s.current.applyReport candidate).restartRequired = [] ∧
    (s.current.applyReport candidate).reloaded ≠ []

/-- Someone is subscribed when the live config is swapped, and ids are not minted
twice. -/
def Heard (s : Reloader (Config V fs)) : Act (Config V fs) → Prop
  | .apply candidate _ _ =>
    s.minted < 2 ^ 64 ∧ (Swaps validate s candidate → s.watch.receivers ≠ 0)
  | .rollback id | .fire id => s.pending.map PendingChange.id = some id → s.watch.receivers ≠ 0
  | _ => True

instance (s : Reloader (Config V fs)) (candidate : Config V fs) :
    Decidable (Swaps validate s candidate) := inferInstanceAs (Decidable (_ ∧ _))

instance (s : Reloader (Config V fs)) (a : Act (Config V fs)) : Decidable (Heard validate s a) :=
  match a with
  | .apply _ _ _ => inferInstanceAs (Decidable (_ ∧ _))
  | .rollback _ | .fire _ => inferInstanceAs (Decidable (_ → _))
  | .confirm _ | .spawnAutoRollback _ | .subscribe | .dropReceiver | .shutdown => isTrue trivial

/-- The changes that are neither confirmed nor rolled back after an action. -/
def stillOpen (s : Reloader (Config V fs)) (changes : List ChangeId) :
    Act (Config V fs) → List ChangeId
  | .apply candidate canaryWindow now =>
    match (s.apply validate candidate canaryWindow now).1 with
    | .ok receipt => if receipt.report.reloaded ≠ [] then changes ++ [receipt.id] else changes
    | .error _ => changes
  | .confirm id => if (s.confirm id).1.isOk then changes.erase id else changes
  | .rollback id => if (s.rollback id).1.isOk then changes.erase id else changes
  | .fire id => if !s.cancelled && (s.rollback id).1.isOk then changes.erase id else changes
  | _ => changes

/-- The same after a run. -/
def openChanges (s : Reloader (Config V fs)) (changes : List ChangeId) :
    List (Act (Config V fs)) → List ChangeId
  | [] => changes
  | a :: as =>
    match step validate s a with
    | some s' => openChanges s' (stillOpen validate s changes a) as
    | none => changes

variable {validate} {s s' : Reloader (Config V fs)}

theorem apply_cases (validate : Config V fs → Except E Unit) (s : Reloader (Config V fs))
    (candidate : Config V fs) (w : UInt64) (now : Int64) :
    (∃ e, s.apply validate candidate w now = (.error e, s)) ∨
      ((s.receiptFor candidate w now).report.reloaded = [] ∧
        s.apply validate candidate w now =
          (.ok (s.receiptFor candidate w now), { s with minted := s.minted + 1 })) ∨
      (Swaps validate s candidate ∧
        s.apply validate candidate w now =
          (.ok (s.receiptFor candidate w now),
            ({ s with minted := s.minted + 1 }).swap candidate (s.receiptFor candidate w now))) := by
  unfold Reloader.apply
  cases hvalid : validate candidate with
  | error e => exact .inl ⟨_, rfl⟩
  | ok u =>
    dsimp only
    split
    · exact .inl ⟨_, rfl⟩
    · next hnone =>
      split
      · exact .inl ⟨_, rfl⟩
      · next hrestart =>
        split
        · next hreloaded =>
          refine .inr (.inr ⟨⟨?_, by rw [hvalid]; rfl, not_not.mp hrestart, hreloaded⟩, rfl⟩)
          simpa using hnone
        · next hreloaded => exact .inr (.inl ⟨not_not.mp hreloaded, rfl⟩)

variable {a : Act (Config V fs)} {id : ChangeId} {as : List (Act (Config V fs))}
    {P : PendingChange (Config V fs) → Prop}

theorem step_cases (hheard : Heard validate s a) (h : step validate s a = some s') :
    (Quiet s s' ∧ s.minted ≤ s'.minted ∧ (s.minted ≤ 2 ^ 64 → s'.minted ≤ 2 ^ 64)) ∨
      (s'.current = s.current ∧ s'.watch.value = s.watch.value ∧ s'.pending = none ∧
        s'.minted = s.minted) ∨
      (∃ p, s.pending = some p ∧ s'.current = p.priorSnapshot ∧
        s'.watch.value = p.priorSnapshot ∧ s'.pending = none ∧ s'.minted = s.minted) ∨
      (∃ candidate receipt, s.minted < 2 ^ 64 ∧ s.pending = none ∧ Agree fs s.current candidate ∧
        s'.current = candidate ∧ s'.watch.value = candidate ∧
        s'.pending = some ⟨.ofNat s.minted, s.current, receipt⟩ ∧ s'.minted = s.minted + 1) := by
  cases a with
  | apply candidate w now =>
    obtain rfl := Option.some.inj h
    obtain ⟨hroom, hsub⟩ := hheard
    obtain ⟨e, heq⟩ | ⟨-, heq⟩ | ⟨hswap, heq⟩ := apply_cases validate s candidate w now
    · rw [heq]
      exact .inl ⟨⟨rfl, rfl, rfl⟩, Nat.le_refl _, fun h => h⟩
    · rw [heq]
      exact .inl ⟨⟨rfl, rfl, rfl⟩, Nat.le_succ _, fun _ => hroom⟩
    · rw [heq]
      refine .inr (.inr (.inr ⟨candidate, s.receiptFor candidate w now, hroom, hswap.1, ?_, rfl, ?_,
        rfl, rfl⟩))
      · exact (applyReport_restartRequired s.current candidate).mp hswap.2.2.1
      · exact send_value (hsub hswap) _
  | confirm id =>
    obtain rfl := Option.some.inj h
    obtain ⟨heq, -⟩ | ⟨p, -, -, heq⟩ := confirm_cases s id
    · rw [heq]
      exact .inl ⟨⟨rfl, rfl, rfl⟩, Nat.le_refl _, fun h => h⟩
    · rw [heq]
      exact .inr (.inl ⟨rfl, rfl, rfl, rfl⟩)
  | rollback id =>
    obtain rfl := Option.some.inj h
    obtain ⟨heq, -⟩ | ⟨p, hp, hid, heq⟩ := rollback_cases s id
    · rw [heq]
      exact .inl ⟨⟨rfl, rfl, rfl⟩, Nat.le_refl _, fun h => h⟩
    · rw [heq]
      exact .inr (.inr (.inl ⟨p, hp, rfl, send_value (hheard (by simp [hp, hid])) _, rfl, rfl⟩))
  | spawnAutoRollback id =>
    obtain rfl := Option.some.inj h
    exact .inl ⟨⟨rfl, rfl, rfl⟩, Nat.le_refl _, fun h => h⟩
  | fire id =>
    obtain ⟨-, hnext⟩ := Option.ite_none_right_eq_some.mp h
    cases hnext
    obtain ⟨heq, -⟩ | ⟨p, hp, hid, -, heq⟩ := fire_cases s id
    · rw [heq]
      exact .inl ⟨⟨rfl, rfl, rfl⟩, Nat.le_refl _, fun h => h⟩
    · rw [heq]
      exact .inr (.inr (.inl ⟨p, hp, rfl, send_value (hheard (by simp [hp, hid])) _, rfl, rfl⟩))
  | subscribe =>
    obtain rfl := Option.some.inj h
    exact .inl ⟨⟨rfl, rfl, rfl⟩, Nat.le_refl _, fun h => h⟩
  | dropReceiver =>
    simp only [step] at h
    split at h
    · contradiction
    · obtain rfl := Option.some.inj h
      exact .inl ⟨⟨rfl, rfl, rfl⟩, Nat.le_refl _, fun h => h⟩
  | shutdown =>
    obtain rfl := Option.some.inj h
    exact .inl ⟨⟨rfl, rfl, rfl⟩, Nat.le_refl _, fun h => h⟩

/-! ## invariants -/

variable {boot : Config V fs}

/-- What holds between actions. -/
structure Inv (boot : Config V fs) (s : Reloader (Config V fs)) : Prop where
  broadcast : s.watch.value = s.current
  agree : Agree fs boot s.current
  prior : ∀ p ∈ s.pending, Agree fs boot p.priorSnapshot
  minted : s.minted ≤ 2 ^ 64

theorem inv_step (h : Inv boot s) (hheard : Heard validate s a)
    (hstep : step validate s a = some s') : Inv boot s' := by
  obtain ⟨hquiet, -, hminted⟩ | ⟨hcurrent, hvalue, hpending, hminted⟩ |
      ⟨p, hp, hcurrent, hvalue, hpending, hminted⟩ |
      ⟨c, r, hroom, -, hagree, hcurrent, hvalue, hpending, hminted⟩ := step_cases hheard hstep
  · refine ⟨?_, ?_, ?_, hminted h.minted⟩
    · rw [hquiet.value, hquiet.current, h.broadcast]
    · rw [hquiet.current]
      exact h.agree
    · rw [hquiet.pending]
      exact h.prior
  · refine ⟨?_, ?_, by simp [hpending], hminted ▸ h.minted⟩
    · rw [hvalue, hcurrent, h.broadcast]
    · rw [hcurrent]
      exact h.agree
  · refine ⟨?_, ?_, by simp [hpending], hminted ▸ h.minted⟩
    · rw [hvalue, hcurrent]
    · rw [hcurrent]
      exact h.prior p hp
  · refine ⟨?_, ?_, ?_, by omega⟩
    · rw [hvalue, hcurrent]
    · rw [hcurrent]
      exact h.agree.trans hagree
    · rw [hpending]
      rintro q ⟨⟩
      exact h.agree

/-- The pending change, should it have the id, is as said. -/
structure Tracks (id : ChangeId) (P : PendingChange (Config V fs) → Prop)
    (s : Reloader (Config V fs)) : Prop where
  issued : ∃ n < s.minted, id = UInt64.ofNat n
  minted : s.minted ≤ 2 ^ 64
  pending : ∀ p ∈ s.pending, p.id = id → P p

theorem ofNat_ne {m n : Nat} (h : m < n) (hn : n < 2 ^ 64) : UInt64.ofNat n ≠ UInt64.ofNat m := by
  intro heq
  have hval := congrArg UInt64.toNat heq
  rw [UInt64.toNat_ofNat_of_lt' hn, UInt64.toNat_ofNat_of_lt' (Nat.lt_trans h hn)] at hval
  omega

theorem tracks_step
    (h : Tracks id P s) (hheard : Heard validate s a) (hstep : step validate s a = some s') :
    Tracks id P s' := by
  obtain ⟨n, hn, rfl⟩ := h.issued
  obtain ⟨hquiet, hle, hminted⟩ | ⟨-, -, hpending, hminted⟩ | ⟨p, -, -, -, hpending, hminted⟩ |
      ⟨c, r, hroom, -, -, -, -, hpending, hminted⟩ := step_cases hheard hstep
  · refine ⟨⟨n, by omega, rfl⟩, hminted h.minted, ?_⟩
    rw [hquiet.pending]
    exact h.pending
  · exact ⟨⟨n, by omega, rfl⟩, hminted ▸ h.minted, by simp [hpending]⟩
  · exact ⟨⟨n, by omega, rfl⟩, hminted ▸ h.minted, by simp [hpending]⟩
  · -- the new change has an id of its own
    refine ⟨⟨n, by omega, rfl⟩, by omega, ?_⟩
    rw [hpending]
    rintro q ⟨⟩ hid
    exact absurd hid (ofNat_ne hn hroom)

theorem tracks_run (hexec : exec (step validate) s as = some s')
    (hmeets : Meets (step validate) (Heard validate) s as) (h : Tracks id P s) : Tracks id P s' :=
  exec_invariant_of_meets (fun _ _ _ h hheard hstep => tracks_step h hheard hstep) hexec hmeets h

/-! ## open changes -/

/-- The pending slot as a list. -/
def pendingIds (s : Reloader (Config V fs)) : List ChangeId := (s.pending.map PendingChange.id).toList

theorem stillOpen_step (h : step validate s a = some s') :
    stillOpen validate s (pendingIds s) a = pendingIds s' := by
  cases a with
  | apply candidate w now =>
    obtain rfl := Option.some.inj h
    obtain ⟨e, heq⟩ | ⟨hnone, heq⟩ | ⟨hswap, heq⟩ := apply_cases validate s candidate w now
    · simp [stillOpen, heq]
    · simp [stillOpen, heq, hnone, pendingIds]
    · have hreloaded : (s.receiptFor candidate w now).report.reloaded ≠ [] := hswap.2.2.2
      simp [stillOpen, heq, hreloaded, pendingIds, hswap.1, Reloader.swap]
  | confirm id =>
    obtain rfl := Option.some.inj h
    obtain ⟨heq, -⟩ | ⟨p, hp, hid, heq⟩ := confirm_cases s id
    · simp [stillOpen, heq, Except.isOk, Except.toBool]
    · simp [stillOpen, heq, Except.isOk, Except.toBool, pendingIds, hp, hid]
  | rollback id =>
    obtain rfl := Option.some.inj h
    obtain ⟨heq, -⟩ | ⟨p, hp, hid, heq⟩ := rollback_cases s id
    · simp [stillOpen, heq, Except.isOk, Except.toBool]
    · simp [stillOpen, heq, Except.isOk, Except.toBool, pendingIds, hp, hid]
  | fire id =>
    obtain ⟨-, hnext⟩ := Option.ite_none_right_eq_some.mp h
    cases hnext
    obtain ⟨hfire, hquiet⟩ | ⟨p, hp, hid, hc, hfire⟩ := fire_cases s id
    · rw [hfire]
      obtain hc | hne := hquiet
      · simp [stillOpen, hc, pendingIds]
      · obtain ⟨heq, -⟩ | ⟨p, hp, hid, -⟩ := rollback_cases s id
        · simp [stillOpen, heq, Except.isOk, Except.toBool, pendingIds]
        · exact absurd hid (hne p hp)
    · rw [hfire]
      obtain ⟨-, hne⟩ | ⟨q, -, -, heq⟩ := rollback_cases s id
      · exact absurd hid (hne p hp)
      · simp [stillOpen, heq, hc, Except.isOk, Except.toBool, pendingIds, hp, hid]
  | spawnAutoRollback id =>
    obtain rfl := Option.some.inj h
    rfl
  | subscribe =>
    obtain rfl := Option.some.inj h
    rfl
  | dropReceiver =>
    simp only [step] at h
    split at h
    · contradiction
    · obtain rfl := Option.some.inj h
      rfl
  | shutdown =>
    obtain rfl := Option.some.inj h
    rfl

theorem openChanges_run (hexec : exec (step validate) s as = some s') :
    openChanges validate s (pendingIds s) as = pendingIds s' := by
  induction as generalizing s with
  | nil =>
    obtain rfl := Option.some.inj hexec
    rfl
  | cons a as ih =>
    obtain ⟨s₁, hs₁, hrest⟩ := Option.bind_eq_some_iff.mp hexec
    simp only [openChanges, hs₁, stillOpen_step hs₁]
    exact ih hrest

/-! ## the canary -/

/-- What is promised of a state and of every run from it. -/
structure CanarySafe (validate : Config V fs → Except E Unit) (boot : Config V fs)
    (s : Reloader (Config V fs)) (changes : List ChangeId) : Prop where
  one : changes.length ≤ 1
  applyError : ∀ c w now e, (s.apply validate c w now).1 = .error e →
    (s.apply validate c w now).2 = s
  confirmError : ∀ id e, (s.confirm id).1 = .error e → (s.confirm id).2 = s
  rollbackError : ∀ id e, (s.rollback id).1 = .error e → (s.rollback id).2 = s
  /-- A rollback, by a caller or by a timer, restores what the change replaced. -/
  restores : ∀ c w now receipt, (s.apply validate c w now).1 = .ok receipt →
    receipt.report.reloaded ≠ [] → ∀ bs s',
      exec (step validate) s (.apply c w now :: bs) = some s' →
      Meets (step validate) (Heard validate) s (.apply c w now :: bs) →
        ((s'.rollback receipt.id).1 = .ok () → (s'.rollback receipt.id).2.current = s.current) ∧
        ∀ s'', step validate s' (.fire receipt.id) = some s'' → s''.pending ≠ s'.pending →
          s''.current = s.current
  broadcast : s.watch.value = s.current
  /-- The id of a resolved change does nothing from then on. -/
  stale : ∀ n < s.minted, (∀ p ∈ s.pending, p.id ≠ .ofNat n) → ∀ bs s',
    exec (step validate) s bs = some s' → Meets (step validate) (Heard validate) s bs →
      (s'.confirm (.ofNat n)).2 = s' ∧ (s'.rollback (.ofNat n)).2 = s' ∧
      ∀ s'', step validate s' (.fire (.ofNat n)) = some s'' →
        s'' = { s' with timers := s'.timers.erase (.ofNat n) }
  restart : Agree fs boot s.current

theorem tracks_apply {c : Config V fs} {w : UInt64} {now : Int64} {receipt : ChangeReceipt}
    (hok : (s.apply validate c w now).1 = .ok receipt) (hreloaded : receipt.report.reloaded ≠ [])
    (hroom : s.minted < 2 ^ 64) :
    Tracks receipt.id (fun p => p.priorSnapshot = s.current) (s.apply validate c w now).2 := by
  obtain ⟨e, heq⟩ | ⟨hnone, heq⟩ | ⟨hswap, heq⟩ := apply_cases validate s c w now
  · rw [heq] at hok
    contradiction
  · rw [heq] at hok
    obtain rfl := Except.ok.inj hok
    exact absurd hnone hreloaded
  · rw [heq] at hok ⊢
    obtain rfl := Except.ok.inj hok
    refine ⟨⟨s.minted, Nat.lt_succ_self _, rfl⟩, hroom, ?_⟩
    rintro p ⟨⟩ -
    rfl

/-- In a run that swaps the config only while someone is subscribed and mints no
id twice, the canary keeps its promises. -/
theorem canary_safe {as : List (Act (Config V fs))}
    (hexec : exec (step validate) (.init boot) as = some s)
    (hmeets : Meets (step validate) (Heard validate) (.init boot) as) :
    CanarySafe validate boot s (openChanges validate (.init boot) [] as) := by
  have hinit : Inv boot (.init boot) := ⟨rfl, agree_refl fs boot, by simp [Reloader.init], Nat.zero_le _⟩
  have hinv : Inv boot s :=
    exec_invariant_of_meets (fun _ _ _ h hheard hstep => inv_step h hheard hstep) hexec hmeets hinit
  refine
    { one := ?_, applyError := ?_, confirmError := ?_, rollbackError := ?_, restores := ?_,
      broadcast := hinv.broadcast, stale := ?_, restart := hinv.agree }
  · have hopen : openChanges validate (.init boot) [] as = pendingIds s := openChanges_run hexec
    rw [hopen, pendingIds]
    cases s.pending with
    | none => simp
    | some p => simp
  · intro c w now e herror
    obtain ⟨e', heq⟩ | ⟨-, heq⟩ | ⟨-, heq⟩ := apply_cases validate s c w now
    · rw [heq]
    · rw [heq] at herror
      contradiction
    · rw [heq] at herror
      contradiction
  · intro id e herror
    obtain ⟨heq, -⟩ | ⟨p, -, -, heq⟩ := confirm_cases s id
    · rw [heq]
    · rw [heq] at herror
      contradiction
  · intro id e herror
    obtain ⟨heq, -⟩ | ⟨p, -, -, heq⟩ := rollback_cases s id
    · rw [heq]
    · rw [heq] at herror
      contradiction
  · intro c w now receipt hok hreloaded bs s' hrun hheard
    have hlater : exec (step validate) (s.apply validate c w now).2 bs = some s' := hrun
    have htracks := tracks_run hlater hheard.2 (tracks_apply hok hreloaded hheard.1.1)
    refine ⟨fun hback => ?_, fun s'' hfire hchange => ?_⟩
    · obtain ⟨heq, -⟩ | ⟨p, hp, hid, heq⟩ := rollback_cases s' receipt.id
      · rw [heq] at hback
        contradiction
      · rw [heq]
        exact htracks.pending p hp hid
    · obtain ⟨-, hnext⟩ := Option.ite_none_right_eq_some.mp hfire
      cases hnext
      obtain ⟨heq, -⟩ | ⟨p, hp, hid, -, heq⟩ := fire_cases s' receipt.id
      · rw [heq] at hchange
        exact absurd rfl hchange
      · rw [heq]
        exact htracks.pending p hp hid
  · intro n hn hresolved bs s' hrun hheard
    have htracks := tracks_run (P := fun _ => False) hrun hheard
      ⟨⟨n, hn, rfl⟩, hinv.minted, hresolved⟩
    refine ⟨?_, ?_, fun s'' hfire => ?_⟩
    · obtain ⟨heq, -⟩ | ⟨p, hp, hid, -⟩ := confirm_cases s' (.ofNat n)
      · rw [heq]
      · exact (htracks.pending p hp hid).elim
    · obtain ⟨heq, -⟩ | ⟨p, hp, hid, -⟩ := rollback_cases s' (.ofNat n)
      · rw [heq]
      · exact (htracks.pending p hp hid).elim
    · obtain ⟨-, hnext⟩ := Option.ite_none_right_eq_some.mp hfire
      cases hnext
      obtain ⟨heq, -⟩ | ⟨p, hp, hid, -⟩ := fire_cases s' (.ofNat n)
      · exact heq
      · exact (htracks.pending p hp hid).elim

end Runs

/-! ## sample runs -/

/-- A log level and a listening port. -/
def sampleFields : Fields :=
  .nested "observability".toList (.reloadable "log_level".toList none .nil)
    (.restartRequired "port".toList (some "sip".toList) .nil)

def sampleConfig (level port : Nat) : Config Nat sampleFields := ((level, ()), port, ())

def sampleValidate (c : Config Nat sampleFields) : Except Unit Unit :=
  if c.2.1 = 0 then .error () else .ok ()

/-- A change that times out, a later one that is confirmed, and the old timer. -/
def sampleRun : List (Act (Config Nat sampleFields)) :=
  [.subscribe, .apply (sampleConfig 2 5060) 60 1000, .spawnAutoRollback 0, .spawnAutoRollback 0,
    .apply (sampleConfig 3 5060) 60 1001, .fire 0, .apply (sampleConfig 3 5060) 60 1100, .fire 0,
    .apply (sampleConfig 3 5061) 60 1101, .confirm 1]

theorem canary_safe_sampleRun :
    ∃ s, exec (step sampleValidate) (.init (sampleConfig 1 5060)) sampleRun = some s ∧
      s.current = sampleConfig 3 5060 ∧
      CanarySafe sampleValidate (sampleConfig 1 5060) s
        (openChanges sampleValidate (.init (sampleConfig 1 5060)) [] sampleRun) := by
  have hexec : exec (step sampleValidate) (.init (sampleConfig 1 5060)) sampleRun =
      some ⟨sampleConfig 3 5060, none, 2, ⟨sampleConfig 3 5060, 1⟩, [], false⟩ := by decide +kernel
  exact ⟨_, hexec, rfl, canary_safe hexec (by decide +kernel)⟩

/-- Nobody is subscribed: the config goes live and the channel keeps the old
value. -/
theorem broadcast_missed : ∃ s, exec (step sampleValidate) (.init (sampleConfig 1 5060))
        [.apply (sampleConfig 2 5060) 60 1000] = some s ∧
      s.current = sampleConfig 2 5060 ∧ s.watch.value = sampleConfig 1 5060 ∧
      ¬ CanarySafe sampleValidate (sampleConfig 1 5060) s
        (openChanges sampleValidate (.init (sampleConfig 1 5060)) []
          [.apply (sampleConfig 2 5060) 60 1000]) := by
  refine ⟨((Reloader.init (sampleConfig 1 5060)).apply sampleValidate (sampleConfig 2 5060) 60 1000).2,
    rfl, by decide +kernel, by decide +kernel, fun hsafe => ?_⟩
  have hbroadcast := hsafe.broadcast
  revert hbroadcast
  decide +kernel

end SmithsNet.Reload
