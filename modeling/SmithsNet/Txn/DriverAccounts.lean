import SmithsNet.Txn.Driver

/-!
# SmithsNet.Txn.DriverAccounts

What the driver's books say in every state of every run: the gauge against the
table, the reports of each transaction against its machine, and the timers
against the transactions they were armed for.

The table, the gauge and the reports are changed in separate critical sections,
so each account has a column for what is in flight: the steps the operations in
progress have still to take.  With nothing in progress these columns are empty.

`driver_accounts`: the accounts are right as long as a key is used again only
once its last transaction is retired.  `stale_timer_ends_reused_key`: a timer
task that is past its `select!` looks its transaction up by key, and may end
one that it was never armed for.
-/

namespace SmithsNet.Txn

open Lib Driver Txn.Frame

/-! ## the machines report their end once -/

variable {as : List TransactionAction} {c c' : Option Bytes} {p : ServerProfile}
    {e : TransactionEvent} {s s' : TransactionState}

theorem ServerStep.reports (h : ServerStep p s c e s' c' as) :
    terminations as + ended s = ended s' := by
  have quiet : ∀ {bs}, Quiet bs → bs.count .terminated = 0 := fun hq => List.count_eq_zero.mpr hq.2
  have live : ∀ {s₀}, openState s₀ → s₀ ≠ .terminated := by
    rintro s₀ hs rfl
    simp [openState] at hs
  cases h with
  | provisional hs _ => simp [terminations, ended, live hs]
  | final hs _ hq => simp [terminations, ended, live hs, quiet hq]
  | finalEnds hs _ => simp [terminations, ended, live hs]
  | replay _ _ => simp [terminations]
  | resend _ hq _ => simp [terminations, quiet hq]
  | ack _ hq => simp [terminations, ended, quiet hq]
  | ackEnds _ hq => simp [terminations, ended, quiet hq]
  | timeout hq => simp [terminations, ended, quiet hq]
  | absorbed => simp [terminations, ended]
  | ignore _ _ _ _ _ => simp [terminations]

theorem ServerStep.inert (h : ServerStep p s c e s' c' as) (hs : s = .terminated) : as = [] := by
  subst hs
  cases h with
  | ignore _ _ _ _ _ => rfl
  | replay hs _ => simp at hs
  | provisional hs _ | final hs _ _ | finalEnds hs _ => simp [openState] at hs

namespace Machine

/-- States the machine can be in. -/
def Good : Machine → Prop
  | clientInvite t => t.Good
  | clientNonInvite t => t.Good
  | serverInvite t => t.Good
  | serverNonInvite t => t.Good

section

variable (m : Machine) (e : TransactionEvent) (h : m.Good)
include h

theorem onEvent_good : (Transaction.onEvent m e).1.Good := by
  cases m with
  | clientInvite t => exact t.onEvent_good e h
  | clientNonInvite t => exact t.onEvent_good e h
  | serverInvite t => exact t.onEvent_good e h
  | serverNonInvite t => exact t.onEvent_good e h

theorem onEvent_reports : terminations (Transaction.onEvent m e).2 + ended (Transaction.state m) =
      ended (Transaction.state (Transaction.onEvent m e).1) := by
  cases m with
  | clientInvite t => exact (clientInvite_contract.step t e h).reports
  | clientNonInvite t => exact (clientNonInvite_contract.step t e h).reports
  | serverInvite t => exact (serverInvite_contract.step t e h).reports
  | serverNonInvite t => exact (serverNonInvite_contract.step t e h).reports

theorem onEvent_inert
    (hend : Transaction.state m = .terminated) : (Transaction.onEvent m e).2 = [] := by
  cases m with
  | clientInvite t => exact ((clientInvite_contract.step t e h).inert hend).2
  | clientNonInvite t => exact ((clientNonInvite_contract.step t e h).inert hend).2
  | serverInvite t => exact (serverInvite_contract.step t e h).inert hend
  | serverNonInvite t => exact (serverNonInvite_contract.step t e h).inert hend

end

end Machine

/-- A machine that is not used yet: of a kind the engine knows, and not at its end. -/
structure Machine.Fresh (m : Machine) (reliable : Bool) (key : TransactionKey) : Prop where
  key_eq : Transaction.key (Transaction.setReliable m reliable) = key
  good : (Transaction.setReliable m reliable).Good
  running : ended (Transaction.state (Transaction.setReliable m reliable)) = 0

theorem NewClient.fresh (txn : NewClient) (reliable : Bool) :
    txn.machine.Fresh reliable (Transaction.key txn.machine) := by
  cases txn with
  | invite branch request => exact ⟨rfl, Or.inl rfl, rfl⟩
  | nonInvite branch method request => exact ⟨rfl, Or.inl rfl, rfl⟩

theorem NewServer.fresh (txn : NewServer) (reliable : Bool) :
    txn.machine.Fresh reliable (Transaction.key txn.machine) := by
  cases txn with
  | invite branch => exact ⟨rfl, Or.inl rfl, rfl⟩
  | nonInvite branch method => exact ⟨rfl, Or.inl rfl, rfl⟩

theorem NewClient.role (txn : NewClient) : (Transaction.key txn.machine).role = .client := by
  cases txn <;> rfl

theorem NewServer.role (txn : NewServer) : (Transaction.key txn.machine).role = .server := by
  cases txn <;> rfl

/-! ## what is in flight -/

namespace Op

/-- A report to the Transaction User that is still to come. -/
def reports : Op → Nat
  | perform .terminated => 1
  | notify => 1
  | _ => 0

/-- A removal from the table that is still to come. -/
def removals : Op → Nat
  | perform .terminated => 1
  | removeEntry => 1
  | _ => 0

def incs : Op → Nat
  | incGauge => 1
  | _ => 0

def decs : Op → Nat
  | decGauge => 1
  | _ => 0

/-- A timer that is still to be armed. -/
def arms : Op → Bool
  | perform (.armTimer _ _) => true
  | _ => false

end Op

/-- The weight of an operation's remaining steps. -/
def Frame.weight (w : Op → Nat) (f : Frame) : Nat := total w f.ops

/-- The same, as far as it is about one entry. -/
def Frame.weightOn (w : Op → Nat) (x : Nat) (f : Frame) : Nat :=
  if f.entry = x then f.weight w else 0

def Frame.arms (f : Frame) : Bool := f.ops.any Op.arms

namespace Driver

/-- What all operations in progress have still to do. -/
def inFlight (s : Driver) (w : Op → Nat) : Nat := total (weight w) s.frames

/-- What they have still to do to one entry. -/
def inFlightOn (s : Driver) (w : Op → Nat) (x : Nat) : Nat := total (weightOn w x) s.frames

/-- Number of server entries in the table. -/
def servers (s : Driver) : Nat := KeyMap.countKeys (fun k => decide (k.role = .server)) s.txns

/-- No operation is in progress. -/
def Idle (s : Driver) : Prop := ∀ f ∈ s.frames, f.ops = []

instance (s : Driver) : Decidable s.Idle := inferInstanceAs (Decidable (∀ f ∈ s.frames, f.ops = []))

/-- The key an entry was registered under. -/
def keyOf (s : Driver) (x : Nat) : Option TransactionKey := (s.entries[x]?).map Entry.key

/-- The newest transaction of a key. -/
def Newest (s : Driver) (k : TransactionKey) (x : Nat) : Prop :=
  s.keyOf x = some k ∧ ∀ y, s.keyOf y = some k → y ≤ x

end Driver

/-- How often the Transaction User has been told of the end. -/
def Entry.ends (e : Entry) : Nat := e.tu.count .terminated

/-! ## the accounts -/

/-- The accounts of the driver, with what is in flight. -/
structure Accounted (s : Driver) : Prop where
  /-- The gauge counts the server entries of the table. -/
  gauge : s.gauge + s.inFlight Op.incs = s.servers + s.inFlight Op.decs
  /-- A transaction that has ended is reported once, one that has not is not. -/
  reported : ∀ (x : Nat) (e : Entry), s.entries[x]? = some e →
    e.ends + s.inFlightOn Op.reports x = ended (Transaction.state e.fsm)
  /-- The table holds every transaction that has not ended. -/
  kept : ∀ (x : Nat) (e : Entry), s.entries[x]? = some e → Transaction.state e.fsm ≠ .terminated →
    s.txns.lookup e.key = some x
  /-- One that has ended is on its way out of the table. -/
  removed : ∀ k x e, s.txns.lookup k = some x → s.entries[x]? = some e →
    Transaction.state e.fsm = .terminated → s.inFlightOn Op.removals x = 1
  /-- What a timer set off acts on the transaction the timer was armed for. -/
  own : ∀ f ∈ s.frames, ∀ owner, f.armedFor = some owner → f.entry = owner

/-- The accounts with nothing in flight. -/
structure Balanced (s : Driver) : Prop where
  gauge : s.gauge = s.servers
  reported : ∀ (x : Nat) (e : Entry), s.entries[x]? = some e → e.ends = ended (Transaction.state e.fsm)
  live : ∀ (x : Nat) (e : Entry), s.entries[x]? = some e →
    (s.txns.lookup e.key = some x ↔ Transaction.state e.fsm ≠ .terminated)

/-- Nothing is left of the key's last transaction: no entry in the table, no
timer task that might still call back, no action that might still arm one. -/
def Driver.Retired (s : Driver) (k : TransactionKey) : Prop :=
  s.txns.lookup k = none ∧ (∀ t ∈ s.tasks, t.key = k → t.phase = .done) ∧
    ∀ f ∈ s.frames, f.key = k → f.arms = false

instance (s : Driver) (k : TransactionKey) : Decidable (s.Retired k) :=
  inferInstanceAs (Decidable (_ ∧ _ ∧ _))

/-- Keys are used again only once they are retired. -/
def KeysRetired (s : Driver) : DriverAction → Prop
  | .startClient txn => s.Retired (Transaction.key txn.machine)
  | .startServer txn _ => s.Retired (Transaction.key txn.machine)
  | _ => True

instance (s : Driver) : ∀ a, Decidable (KeysRetired s a)
  | .startClient txn => inferInstanceAs (Decidable (s.Retired (Transaction.key txn.machine)))
  | .startServer txn _ => inferInstanceAs (Decidable (s.Retired (Transaction.key txn.machine)))
  | .deliverResponse _ _ _ | .deliverRequest _ _ _ | .sendResponse _ _ _ | .wake _ | .quit _
  | .fire _ | .run _ => isTrue trivial

/-! ## the invariant -/

/-- What every step keeps.  The table holds an entry exactly as long as its
machine runs or its removal is in flight; whatever may still arm or fire a
timer belongs to the newest transaction of its key. -/
structure DriverInv (s : Driver) : Prop where
  good : ∀ (x : Nat) (e : Entry), s.entries[x]? = some e → e.fsm.Good
  known : ∀ f ∈ s.frames, s.keyOf f.entry = some f.key
  newest : ∀ k x, s.txns.lookup k = some x → s.Newest k x
  held : ∀ (x : Nat) (e : Entry), s.entries[x]? = some e → s.inFlightOn Op.removals x + 1 =
    ended (Transaction.state e.fsm) + if s.txns.lookup e.key = some x then 1 else 0
  reported : ∀ (x : Nat) (e : Entry), s.entries[x]? = some e →
    e.ends + s.inFlightOn Op.reports x = ended (Transaction.state e.fsm)
  gauge : s.gauge + s.inFlight Op.incs = s.servers + s.inFlight Op.decs
  sleeping : ∀ t ∈ s.tasks, t.phase ≠ .done → s.Newest t.key t.owner
  arming : ∀ f ∈ s.frames, f.arms = true → s.Newest f.key f.entry
  own : ∀ f ∈ s.frames, ∀ owner, f.armedFor = some owner → f.entry = owner

theorem ended_le_one (s : TransactionState) : ended s ≤ 1 := by
  unfold ended
  split <;> simp

theorem ended_eq_zero : ended s = 0 ↔ s ≠ .terminated := by
  unfold ended
  split <;> simp_all

theorem DriverInv.accounted {s : Driver} (h : DriverInv s) : Accounted s where
  gauge := h.gauge
  reported := h.reported
  kept x e he hrun := by
    have hheld := h.held x e he
    rw [ended_eq_zero.mpr hrun] at hheld
    by_contra hnot
    rw [if_neg hnot] at hheld
    omega
  removed k x e hk he hend := by
    obtain ⟨hkey, _⟩ := h.newest k x hk
    obtain rfl : e.key = k := by simpa [Driver.keyOf, he] using hkey
    have hheld := h.held x e he
    rw [if_pos hk, hend] at hheld
    simpa [ended] using hheld
  own := h.own

theorem DriverInv.start (reliable : Bool) : DriverInv (new reliable) := by
  constructor <;> simp [new, Driver.inFlight, Driver.servers, total, KeyMap.countKeys]

theorem Driver.Idle.inFlight {s : Driver} (h : s.Idle) (w : Op → Nat) : s.inFlight w = 0 := by
  refine total_eq_zero fun f hf => ?_
  rw [weight, h f hf]
  rfl

theorem Driver.Idle.inFlightOn {s : Driver} (h : s.Idle) (w : Op → Nat) (x : Nat) :
    s.inFlightOn w x = 0 := by
  refine total_eq_zero fun f hf => ?_
  rw [weightOn, weight, h f hf]
  exact ite_self 0

theorem DriverInv.balanced {s : Driver} (h : DriverInv s) (hidle : s.Idle) : Balanced s where
  gauge := by simpa [hidle.inFlight] using h.gauge
  reported x e he := by simpa [hidle.inFlightOn] using h.reported x e he
  live x e he := by
    have hheld := h.held x e he
    have hle := ended_le_one (Transaction.state e.fsm)
    rw [hidle.inFlightOn] at hheld
    rw [← ended_eq_zero]
    by_cases hin : s.txns.lookup e.key = some x
    · rw [if_pos hin] at hheld
      exact iff_of_true hin (by omega)
    · rw [if_neg hin] at hheld
      exact iff_of_false hin (by omega)

/-! ## one step of an operation in progress -/

section Act

variable {s s' : Driver} {i : Nat} {f : Frame} {op : Op} {rest ops : List Op}

theorem weight_act (hops : f.ops = op :: rest) (w : Op → Nat) :
    f.weight w = w op + total w rest := by
  rw [weight, hops, total_cons]

theorem inFlight_act (hf : s.frames[i]? = some f) (hops : f.ops = op :: rest)
    (hframes : s'.frames = s.frames.set i { f with ops := ops ++ rest }) (w : Op → Nat) :
    s'.inFlight w + w op = s.inFlight w + total w ops := by
  have hset := total_set (weight w) hf { f with ops := ops ++ rest }
  have hnew : weight w { f with ops := ops ++ rest } = total w ops + total w rest :=
    total_append w ops rest
  rw [Driver.inFlight, hframes]
  rw [weight_act hops, hnew] at hset
  unfold Driver.inFlight
  omega

theorem inFlightOn_act (hf : s.frames[i]? = some f) (hops : f.ops = op :: rest)
    (hframes : s'.frames = s.frames.set i { f with ops := ops ++ rest }) (w : Op → Nat) :
    s'.inFlightOn w f.entry + w op = s.inFlightOn w f.entry + total w ops := by
  have hset := total_set (weightOn w f.entry) hf { f with ops := ops ++ rest }
  have hold : f.weightOn w f.entry = w op + total w rest := by
    rw [weightOn, if_pos rfl, weight_act hops]
  have hnew : weightOn w f.entry { f with ops := ops ++ rest } = total w ops + total w rest := by
    rw [weightOn, if_pos rfl, weight, total_append]
  rw [hold, hnew] at hset
  rw [Driver.inFlightOn, hframes]
  unfold Driver.inFlightOn
  omega

theorem inFlightOn_act_ne {x : Nat} (hx : f.entry ≠ x) (hf : s.frames[i]? = some f)
    (hframes : s'.frames = s.frames.set i { f with ops := ops ++ rest }) (w : Op → Nat) :
    s'.inFlightOn w x = s.inFlightOn w x := by
  have hset := total_set (weightOn w x) hf { f with ops := ops ++ rest }
  simp only [weightOn, if_neg hx, Nat.add_zero] at hset
  rw [Driver.inFlightOn, hframes]
  exact hset

/-- Whether the table holds an entry, as a number. -/
def Driver.holds (s : Driver) (e : Entry) (x : Nat) : Nat :=
  if s.txns.lookup e.key = some x then 1 else 0

variable {e e' : Entry}

section

variable (h : DriverInv s) (hf : s.frames[i]? = some f)
include h hf

/-- **The step rule.**  A step on one entry keeps the accounts when it shifts
what is in flight by as much as it changes the entry, the table and the gauge. -/
theorem DriverInv.act_table (hops : f.ops = op :: rest) (he : s.entries[f.entry]? = some e)
    (hframes : s'.frames = s.frames.set i { f with ops := ops ++ rest })
    (hentries : s'.entries = s.entries.set f.entry e') (hkey : e'.key = e.key)
    (hgood : e'.fsm.Good) (htxns : KeyMap.Within s'.txns s.txns)
    (hothers : ∀ k x, x ≠ f.entry → s.txns.lookup k = some x → s'.txns.lookup k = some x)
    (hheld : total Op.removals ops + ended (Transaction.state e.fsm) + s.holds e f.entry =
      Op.removals op + ended (Transaction.state e'.fsm) + s'.holds e f.entry)
    (hreported : e'.ends + total Op.reports ops + ended (Transaction.state e.fsm) =
      e.ends + Op.reports op + ended (Transaction.state e'.fsm))
    (hgauge : s'.gauge + total Op.incs ops + Op.decs op + s.servers =
      s.gauge + Op.incs op + total Op.decs ops + s'.servers)
    (htasks : ∀ t ∈ s'.tasks, t.phase ≠ .done →
      t ∈ s.tasks ∨ t.key = f.key ∧ t.owner = f.entry ∧ f.arms = true)
    (harms : ops.any Op.arms = true → s.Newest f.key f.entry) : DriverInv s' := by
  have hmem : f ∈ s.frames := List.mem_of_getElem? hf
  have hkeys : s'.keyOf = s.keyOf := by
    funext x
    unfold Driver.keyOf
    rw [hentries, List.getElem?_set]
    by_cases hx : f.entry = x
    · subst hx
      have hlt : f.entry < s.entries.length := (List.getElem?_eq_some_iff.mp he).1
      rw [if_pos rfl, if_pos hlt, he, Option.map_some, Option.map_some, hkey]
    · rw [if_neg hx]
  have hnewest : s'.Newest = s.Newest := by
    funext k x
    unfold Driver.Newest
    rw [hkeys]
  -- the entry of the step, or one it does not touch
  have hcases : ∀ (x : Nat) (e₁ : Entry), s'.entries[x]? = some e₁ →
      x = f.entry ∧ e₁ = e' ∨ f.entry ≠ x ∧ s.entries[x]? = some e₁ := by
    intro x e₁ hx
    rw [hentries, List.getElem?_set] at hx
    by_cases hxf : f.entry = x
    · rw [if_pos hxf] at hx
      split at hx
      · exact Or.inl ⟨hxf.symm, (Option.some.inj hx).symm⟩
      · contradiction
    · rw [if_neg hxf] at hx
      exact Or.inr ⟨hxf, hx⟩
  have hmemf : ∀ g ∈ s'.frames, g ∈ s.frames ∨ g = { f with ops := ops ++ rest } := by
    intro g hg
    rw [hframes] at hg
    exact List.mem_or_eq_of_mem_set hg
  constructor
  · intro x e₁ hx
    obtain ⟨rfl, rfl⟩ | ⟨_, hx⟩ := hcases x e₁ hx
    · exact hgood
    · exact h.good x e₁ hx
  · intro g hg
    rw [hkeys]
    obtain hg | rfl := hmemf g hg
    · exact h.known g hg
    · exact h.known f hmem
  · intro k x hk
    rw [hnewest]
    exact h.newest k x (htxns k x hk)
  · intro x e₁ hx
    obtain ⟨rfl, rfl⟩ | ⟨hne, hx⟩ := hcases x e₁ hx
    · have hold := h.held f.entry e he
      have hshift := inFlightOn_act hf hops hframes Op.removals
      unfold holds at hheld
      rw [hkey]
      omega
    · have hsame : s'.txns.lookup e₁.key = some x ↔ s.txns.lookup e₁.key = some x :=
        ⟨htxns e₁.key x, hothers e₁.key x (Ne.symm hne)⟩
      rw [inFlightOn_act_ne hne hf hframes, h.held x e₁ hx]
      simp only [hsame]
  · intro x e₁ hx
    obtain ⟨rfl, rfl⟩ | ⟨hne, hx⟩ := hcases x e₁ hx
    · have hold := h.reported f.entry e he
      have hshift := inFlightOn_act hf hops hframes Op.reports
      omega
    · rw [inFlightOn_act_ne hne hf hframes]
      exact h.reported x e₁ hx
  · have hold := h.gauge
    have hincs := inFlight_act hf hops hframes Op.incs
    have hdecs := inFlight_act hf hops hframes Op.decs
    omega
  · intro t ht hphase
    rw [hnewest]
    obtain ht | ⟨hk, ho, harm⟩ := htasks t ht hphase
    · exact h.sleeping t ht hphase
    · rw [hk, ho]
      exact h.arming f hmem harm
  · intro g hg harm
    rw [hnewest]
    obtain hg | rfl := hmemf g hg
    · exact h.arming g hg harm
    · rw [Frame.arms, List.any_append, Bool.or_eq_true] at harm
      obtain harm | harm := harm
      · exact harms harm
      · refine h.arming f hmem ?_
        rw [Frame.arms, hops, List.any_cons, harm, Bool.or_true]
  · intro g hg owner howner
    obtain hg | rfl := hmemf g hg
    · exact h.own g hg owner howner
    · exact h.own f hmem owner howner

theorem DriverInv.act (hops : f.ops = op :: rest) (he : s.entries[f.entry]? = some e)
    (hframes : s'.frames = s.frames.set i { f with ops := ops ++ rest })
    (hentries : s'.entries = s.entries.set f.entry e') (htxns : s'.txns = s.txns)
    (hkey : e'.key = e.key) (hgood : e'.fsm.Good)
    (hheld : total Op.removals ops + ended (Transaction.state e.fsm) =
      Op.removals op + ended (Transaction.state e'.fsm))
    (hreported : e'.ends + total Op.reports ops + ended (Transaction.state e.fsm) =
      e.ends + Op.reports op + ended (Transaction.state e'.fsm))
    (hgauge : s'.gauge + total Op.incs ops + Op.decs op = s.gauge + Op.incs op + total Op.decs ops)
    (htasks : ∀ t ∈ s'.tasks, t.phase ≠ .done →
      t ∈ s.tasks ∨ t.key = f.key ∧ t.owner = f.entry ∧ f.arms = true)
    (harms : ops.any Op.arms = true → s.Newest f.key f.entry) : DriverInv s' := by
  have hservers : s'.servers = s.servers := by rw [Driver.servers, htxns, Driver.servers]
  have hholds : s'.holds e f.entry = s.holds e f.entry := by
    rw [holds, htxns, holds]
  refine h.act_table hf hops he hframes hentries hkey hgood ?_ ?_ (by omega) hreported (by omega)
    htasks harms
  · rw [htxns]
    exact KeyMap.Within.refl s.txns
  · intro k x _ hk
    rwa [htxns]

theorem DriverInv.holds_of_removal
    (hops : f.ops = .removeEntry :: rest) (he : s.entries[f.entry]? = some e) :
    s.txns.lookup f.key = some f.entry ∧ e.key = f.key ∧
      ended (Transaction.state e.fsm) = 1 := by
  have hkey : e.key = f.key := by
    have hknown := h.known f (List.mem_of_getElem? hf)
    simpa [Driver.keyOf, he] using hknown
  have hheld := h.held f.entry e he
  have hle := ended_le_one (Transaction.state e.fsm)
  let s₁ : Driver := { s with frames := s.frames.set i { f with ops := [] ++ rest } }
  have hshift : s₁.inFlightOn Op.removals f.entry + Op.removals .removeEntry =
      s.inFlightOn Op.removals f.entry + total Op.removals [] :=
    inFlightOn_act hf hops rfl Op.removals
  simp only [Op.removals, total_nil] at hshift
  rw [hkey] at hheld
  by_cases hin : s.txns.lookup f.key = some f.entry
  · rw [if_pos hin] at hheld
    exact ⟨hin, hkey, by omega⟩
  · rw [if_neg hin] at hheld
    omega

end

end Act

/-! ## the steps of the driver -/

section Steps

variable {s : Driver}

variable {s' : Driver} {e : Entry} {f : Frame} {rest : List Op} {tasks : List TimerTask}
    {i n x : Nat} {t : TimerTask} {k : TransactionKey}

theorem set_self {α : Type} {l : List α} {a : α} (h : l[i]? = some a) : l = l.set i a := by
  obtain ⟨hlt, rfl⟩ := List.getElem?_eq_some_iff.mp h
  exact (List.set_getElem_self hlt).symm

theorem mem_of_mem_abort (h : t ∈ abort tasks n) (hphase : t.phase ≠ .done) : t ∈ tasks := by
  obtain ⟨j, hj⟩ := List.getElem?_of_mem h
  rw [abort, List.getElem?_modify] at hj
  obtain ⟨t₀, ht₀, rfl⟩ := Option.map_eq_some_iff.mp hj
  have hmem := List.mem_of_getElem? ht₀
  by_cases hjn : n = j
  · simp only [hjn, if_true] at hphase ⊢
    split at hphase
    · exact absurd rfl hphase
    · next hawake => rwa [if_neg hawake]
  · simpa [hjn] using hmem

theorem mem_of_mem_foldl_abort {ns : List Nat}
    (h : t ∈ ns.foldl abort tasks) (hphase : t.phase ≠ .done) : t ∈ tasks := by
  induction ns generalizing tasks with
  | nil => exact h
  | cons n ns ih => exact mem_of_mem_abort (ih h) hphase

theorem mem_of_mem_elim_abort {o : Option Nat}
    (h : t ∈ o.elim tasks (abort tasks)) (hphase : t.phase ≠ .done) : t ∈ tasks := by
  cases o with
  | none => exact h
  | some n => exact mem_of_mem_abort h hphase

theorem total_perform (w : Op → Nat) (hw : ∀ a, a ≠ .terminated → w (.perform a) = 0)
    (hend : w (.perform .terminated) = 1) (as : List TransactionAction) :
    total w (as.map .perform) = terminations as := by
  induction as with
  | nil => rfl
  | cons a as ih =>
    rw [List.map_cons, total_cons, ih, terminations, terminations, List.count_cons]
    by_cases ha : a = .terminated
    · simp [ha, hend, Nat.add_comm]
    · simp [ha, hw a ha]

theorem total_perform_eq_zero {w : Op → Nat} (hw : ∀ a, w (.perform a) = 0)
    (as : List TransactionAction) : total w (as.map .perform) = 0 := by
  refine total_eq_zero fun op hop => ?_
  obtain ⟨a, _, rfl⟩ := List.mem_map.mp hop
  exact hw a

section

variable (h : DriverInv s) (hf : s.frames[i]? = some f)
include h hf

/-- An event changes the machine and puts its actions in flight; only a machine
that runs, and so is in the table, asks for anything. -/
theorem DriverInv.runEvent {ev : TransactionEvent}
    (hops : f.ops = .event ev :: rest) (he : s.entries[f.entry]? = some e)
    (hframes : s'.frames = s.frames.set i
      { f with ops := (Transaction.onEvent e.fsm ev).2.map .perform ++ rest })
    (hentries : s'.entries = s.entries.set f.entry
      { e with fsm := (Transaction.onEvent e.fsm ev).1 })
    (htxns : s'.txns = s.txns) (htasks : s'.tasks = s.tasks) (hgauge : s'.gauge = s.gauge) :
    DriverInv s' := by
  have hgood := h.good f.entry e he
  have hreports := e.fsm.onEvent_reports ev hgood
  have hremovals : total Op.removals ((Transaction.onEvent e.fsm ev).2.map .perform) =
      terminations (Transaction.onEvent e.fsm ev).2 :=
    total_perform Op.removals (fun a ha => by cases a <;> simp_all [Op.removals]) rfl _
  have htold : total Op.reports ((Transaction.onEvent e.fsm ev).2.map .perform) =
      terminations (Transaction.onEvent e.fsm ev).2 :=
    total_perform Op.reports (fun a ha => by cases a <;> simp_all [Op.reports]) rfl _
  have hincs := total_perform_eq_zero (w := Op.incs) (fun _ => rfl) (Transaction.onEvent e.fsm ev).2
  have hdecs := total_perform_eq_zero (w := Op.decs) (fun _ => rfl) (Transaction.onEvent e.fsm ev).2
  refine h.act hf hops he hframes hentries htxns rfl (e.fsm.onEvent_good ev hgood) ?_ ?_ ?_ ?_ ?_
  · rw [hremovals]
    simpa [Op.removals] using hreports
  · rw [htold, Nat.add_assoc, hreports]
    rfl
  · rw [hincs, hdecs, hgauge]
    rfl
  · intro t ht _
    rw [htasks] at ht
    exact Or.inl ht
  · intro harms
    have hrun : Transaction.state e.fsm ≠ .terminated := by
      intro hend
      rw [e.fsm.onEvent_inert ev hgood hend] at harms
      contradiction
    have hknown := h.known f (List.mem_of_getElem? hf)
    have hkey : e.key = f.key := by simpa [Driver.keyOf, he] using hknown
    rw [← hkey]
    exact h.newest e.key f.entry (h.accounted.kept f.entry e he hrun)

theorem DriverInv.runRemove (hops : f.ops = .removeEntry :: rest)
    (he : s.entries[f.entry]? = some e) : DriverInv { s with
      txns := s.txns.erase f.key
      frames := s.frames.set i
        { f with ops := (if f.key.role = .server then [.decGauge] else []) ++ rest } } := by
  obtain ⟨hin, hkey, hend⟩ := h.holds_of_removal hf hops he
  have hcount := KeyMap.countKeys_erase (fun k => decide (k.role = .server)) hin
  refine h.act_table hf hops he rfl (set_self he) rfl (h.good f.entry e he)
    (KeyMap.within_erase f.key s.txns) ?_ ?_ ?_ ?_ ?_ ?_
  · intro k x hx hk
    have hne : k ≠ f.key := by
      rintro rfl
      rw [hin, Option.some.injEq] at hk
      exact hx hk.symm
    rwa [AList.lookup_erase_ne hne]
  · have hops' : total Op.removals (if f.key.role = .server then [.decGauge] else []) = 0 := by
      split <;> rfl
    rw [hops', holds, holds, hkey, if_pos hin, AList.lookup_erase]
    simp [Op.removals, Nat.add_comm]
  · have hops' : total Op.reports (if f.key.role = .server then [.decGauge] else []) = 0 := by
      split <;> rfl
    rw [hops']
    rfl
  · have hincs : total Op.incs (if f.key.role = .server then [.decGauge] else []) = 0 := by
      split <;> rfl
    have hdecs : total Op.decs (if f.key.role = .server then [.decGauge] else []) =
        if f.key.role = .server then 1 else 0 := by
      split <;> rfl
    simp only [decide_eq_true_eq] at hcount
    rw [hincs, hdecs, Driver.servers, Driver.servers, ← hcount]
    simp only [Op.incs, Op.decs]
    omega
  · exact fun t ht _ => Or.inl ht
  · intro harms
    split at harms <;> contradiction

theorem DriverInv.run {op : Op} (hops : f.ops = op :: rest) (he : s.entries[f.entry]? = some e) :
    DriverInv { (s.perform f.key f.entry e op).1 with
      frames := s.frames.set i
        { f with ops := (s.perform f.key f.entry e op).2 ++ rest } } := by
  have hgood := h.good f.entry e he
  have same : ∀ t ∈ s.tasks, t.phase ≠ .done →
      t ∈ s.tasks ∨ t.key = f.key ∧ t.owner = f.entry ∧ f.arms = true := fun t ht _ => Or.inl ht
  -- most steps touch neither the machine nor what is reported of it
  have minor : ∀ {e' : Entry} {tasks : List TimerTask}, e'.key = e.key → e'.fsm = e.fsm →
      e'.ends = e.ends → (∀ t ∈ tasks, t.phase ≠ .done → t ∈ s.tasks) →
      Op.removals op = 0 → Op.reports op = 0 → Op.incs op = 0 → Op.decs op = 0 →
      DriverInv { s.setEntry f.entry e' with
        tasks := tasks, frames := s.frames.set i { f with ops := [] ++ rest } } := by
    intro e' tasks hkey hfsm hends htasks hrem hrep hinc hdec
    refine h.act hf hops he rfl rfl rfl hkey (hfsm ▸ hgood) ?_ ?_ ?_ ?_ ?_
    · simp [hfsm, hrem]
    · simp [hfsm, hrep, hends]
    · simp [Driver.setEntry, hinc, hdec]
    · exact fun t ht hphase => Or.inl (htasks t ht hphase)
    · simp
  cases op with
  | event ev => exact h.runEvent hf hops he rfl rfl rfl rfl rfl
  | perform a =>
    cases a with
    | sendToPeer bytes => exact minor rfl rfl rfl (fun t ht _ => ht) rfl rfl rfl rfl
    | deliverResponseToTu status bytes =>
      refine minor rfl rfl ?_ (fun t ht _ => ht) rfl rfl rfl rfl
      simp [Entry.ends]
    | armTimer id after =>
      refine h.act hf hops he rfl (set_self he) rfl rfl hgood rfl rfl rfl ?_ ?_
      · intro t ht _
        obtain ht | ht := List.mem_append.mp ht
        · exact Or.inl ht
        · obtain rfl := List.mem_singleton.mp ht
          refine Or.inr ⟨rfl, rfl, ?_⟩
          rw [Frame.arms, hops]
          rfl
      · exact fun harms => by contradiction
    | cancelTimer id =>
      exact minor rfl rfl rfl (fun t ht hphase => mem_of_mem_elim_abort ht hphase) rfl rfl rfl rfl
    | terminated =>
      refine h.act hf hops he rfl (set_self he) rfl rfl hgood rfl rfl rfl same ?_
      exact fun harms => by contradiction
  | track id task =>
    exact minor rfl rfl rfl (fun t ht hphase => mem_of_mem_elim_abort ht hphase) rfl rfl rfl rfl
  | untrack id => exact minor rfl rfl rfl (fun t ht _ => ht) rfl rfl rfl rfl
  | incGauge =>
    refine h.act hf hops he rfl (set_self he) rfl rfl hgood rfl rfl ?_ same ?_
    · simp [Driver.perform, Op.incs, Op.decs]
    · exact fun harms => by contradiction
  | cancelToken => exact minor rfl rfl rfl (fun t ht _ => ht) rfl rfl rfl rfl
  | abortTimers =>
    exact minor rfl rfl rfl (fun t ht hphase => mem_of_mem_foldl_abort ht hphase) rfl rfl rfl rfl
  | removeEntry =>
    obtain ⟨hin, _, _⟩ := h.holds_of_removal hf hops he
    simp only [Driver.perform, hin]
    exact h.runRemove hf hops he
  | decGauge =>
    refine h.act hf hops he rfl (set_self he) rfl rfl hgood rfl rfl ?_ same ?_
    · simp [Driver.perform, Op.incs, Op.decs]
    · exact fun harms => by contradiction
  | notify =>
    refine h.act hf hops he rfl rfl rfl rfl hgood rfl ?_ rfl same ?_
    · simp [Entry.ends, Op.reports, Driver.perform]
    · exact fun harms => by contradiction

end

theorem DriverInv.begin (h : DriverInv s) {ops : List Op}
    {armedFor : Option Nat} (hkey : s.keyOf x = some k)
    (hown : ∀ owner, armedFor = some owner → x = owner)
    (hweight : ∀ op ∈ ops, Op.removals op = 0 ∧ Op.reports op = 0 ∧ Op.incs op = 0 ∧
      Op.decs op = 0 ∧ Op.arms op = false) :
    DriverInv (s.begin k x ops armedFor) := by
  have hzero : ∀ w : Op → Nat, (∀ op ∈ ops, w op = 0) →
      (s.begin k x ops armedFor).inFlight w = s.inFlight w ∧
        ∀ y, (s.begin k x ops armedFor).inFlightOn w y = s.inFlightOn w y := by
    intro w hw
    have hops := total_eq_zero hw
    constructor
    · simp [Driver.inFlight, Driver.begin, weight, hops]
    · intro y
      simp [Driver.inFlightOn, Driver.begin, weightOn, weight, hops]
  have hremovals := (hzero Op.removals fun op hop => (hweight op hop).1).2
  have hreports := (hzero Op.reports fun op hop => (hweight op hop).2.1).2
  have hincs := (hzero Op.incs fun op hop => (hweight op hop).2.2.1).1
  have hdecs := (hzero Op.decs fun op hop => (hweight op hop).2.2.2.1).1
  have hframes : ∀ f ∈ (s.begin k x ops armedFor).frames,
      f ∈ s.frames ∨ f = ⟨k, x, ops, armedFor⟩ := by
    intro f hf
    simpa [Driver.begin] using hf
  constructor
  · exact h.good
  · intro f hf
    obtain hf | rfl := hframes f hf
    · exact h.known f hf
    · exact hkey
  · exact h.newest
  · intro y e he
    rw [hremovals]
    exact h.held y e he
  · intro y e he
    rw [hreports]
    exact h.reported y e he
  · rw [hincs, hdecs]
    exact h.gauge
  · exact h.sleeping
  · intro f hf harms
    obtain hf | rfl := hframes f hf
    · exact h.arming f hf harms
    · obtain ⟨op, hop, harm⟩ := List.any_eq_true.mp harms
      rw [(hweight op hop).2.2.2.2] at harm
      contradiction
  · intro f hf owner howner
    obtain hf | rfl := hframes f hf
    · exact h.own f hf owner howner
    · exact hown owner howner

section Register

variable {m : Machine} {key : TransactionKey} {sentBy : Option Text}

variable {x : Nat} {k : TransactionKey}

theorem keyOf_lt (h : s.keyOf x = some k) : x < s.entries.length := by
  obtain ⟨e, he, _⟩ := Option.map_eq_some_iff.mp h
  exact (List.getElem?_eq_some_iff.mp he).1

section

variable (hfresh : m.Fresh s.reliable key)
include hfresh

theorem keyOf_register (x : Nat) :
    (s.register m sentBy).keyOf x = if x = s.entries.length then some key else s.keyOf x := by
  unfold Driver.keyOf Driver.register
  by_cases hx : x = s.entries.length
  · rw [if_pos hx, hx, List.getElem?_concat_length, Option.map_some, hfresh.key_eq]
  · rw [if_neg hx]
    obtain hlt | hgt := Nat.lt_or_gt_of_ne hx
    · rw [List.getElem?_append_left hlt]
    · rw [List.getElem?_eq_none (by simp; omega), List.getElem?_eq_none (by omega)]

theorem newest_register (hk : k ≠ key) (h : s.Newest k x) : (s.register m sentBy).Newest k x := by
  have hkey : ∀ y, (s.register m sentBy).keyOf y = some k ↔ s.keyOf y = some k := by
    intro y
    rw [keyOf_register hfresh]
    by_cases hy : y = s.entries.length
    · rw [if_pos hy]
      refine iff_of_false (fun heq => hk (Option.some.inj heq).symm) fun heq => ?_
      exact absurd (keyOf_lt heq) (by omega)
    · rw [if_neg hy]
  exact ⟨(hkey x).mpr h.1, fun y hy => h.2 y ((hkey y).mp hy)⟩

theorem newest_register_self : (s.register m sentBy).Newest key s.entries.length := by
  refine ⟨by rw [keyOf_register hfresh, if_pos rfl], fun y hy => ?_⟩
  rw [keyOf_register hfresh] at hy
  by_cases hlen : y = s.entries.length
  · exact Nat.le_of_eq hlen
  · rw [if_neg hlen] at hy
    exact Nat.le_of_lt (keyOf_lt hy)

end

theorem DriverInv.inFlightOn_length (h : DriverInv s) (w : Op → Nat) :
    s.inFlightOn w s.entries.length = 0 := by
  refine total_eq_zero fun f hf => ?_
  have hlt := keyOf_lt (h.known f hf)
  rw [weightOn, if_neg (by omega)]

/-- A transaction starts on a retired key: its entry is made, and its first
operation begins. -/
theorem DriverInv.start_on (h : DriverInv s) (hfresh : m.Fresh s.reliable key)
    (hretired : s.Retired key) {op : Op} (hrem : Op.removals op = 0) (hrep : Op.reports op = 0)
    (hdec : Op.decs op = 0) (harm : Op.arms op = false)
    (hinc : Op.incs op = if key.role = .server then 1 else 0) :
    DriverInv ((s.register m sentBy).begin key s.entries.length [op] none) := by
  obtain ⟨hfree, htasks, hframes⟩ := hretired
  have hlookup : (s.register m sentBy).txns = s.txns.insert key s.entries.length := by
    simp only [Driver.register, hfresh.key_eq]
  have hentry : ∀ (x : Nat) (e : Entry), (s.register m sentBy).entries[x]? = some e →
      x = s.entries.length ∧ e.key = key ∧ e.fsm = Transaction.setReliable m s.reliable ∧ e.tu = [] ∨
        x ≠ s.entries.length ∧ s.entries[x]? = some e := by
    intro x e he
    have hlt := (List.getElem?_eq_some_iff.mp he).1
    unfold Driver.register at he hlt
    by_cases hx : x = s.entries.length
    · rw [hx, List.getElem?_concat_length, Option.some.injEq] at he
      subst he
      exact Or.inl ⟨hx, hfresh.key_eq, rfl, rfl⟩
    · rw [List.getElem?_append_left (by simp at hlt; omega)] at he
      exact Or.inr ⟨hx, he⟩
  have hbegun : ∀ (w : Op → Nat) (x : Nat),
      ((s.register m sentBy).begin key s.entries.length [op] none).inFlightOn w x =
        s.inFlightOn w x + if s.entries.length = x then w op else 0 := by
    intro w x
    simp [Driver.inFlightOn, Driver.begin, Driver.register, weightOn, weight]
  have hbegun' : ∀ w : Op → Nat,
      ((s.register m sentBy).begin key s.entries.length [op] none).inFlight w =
        s.inFlight w + w op := by
    intro w
    simp [Driver.inFlight, Driver.begin, Driver.register, weight]
  have hmem : ∀ f ∈ ((s.register m sentBy).begin key s.entries.length [op] none).frames,
      f ∈ s.frames ∨ f = ⟨key, s.entries.length, [op], none⟩ := by
    intro f hf
    simpa [Driver.begin, Driver.register] using hf
  constructor
  · intro x e he
    obtain ⟨_, _, hfsm, _⟩ | ⟨_, he⟩ := hentry x e he
    · rw [hfsm]
      exact hfresh.good
    · exact h.good x e he
  · intro f hf
    have hkeys : (s.register m sentBy).keyOf f.entry = _ := keyOf_register hfresh f.entry
    obtain hf | rfl := hmem f hf
    · have hlt := keyOf_lt (h.known f hf)
      rw [if_neg (by omega), h.known f hf] at hkeys
      exact hkeys
    · rwa [if_pos rfl] at hkeys
  · intro k x hk
    have hk : (s.txns.insert key s.entries.length).lookup k = some x := hlookup ▸ hk
    by_cases hkey : k = key
    · rw [hkey, AList.lookup_insert, Option.some.injEq] at hk
      rw [hkey, ← hk]
      exact newest_register_self hfresh
    · rw [AList.lookup_insert_ne hkey] at hk
      exact newest_register hfresh hkey (h.newest k x hk)
  · intro x e he
    have hgoal : ((s.register m sentBy).begin key s.entries.length [op] none).txns =
      s.txns.insert key s.entries.length := hlookup
    rw [hbegun, hrem, ite_self, hgoal]
    obtain ⟨rfl, hkey, hfsm, _⟩ | ⟨hne, he⟩ := hentry x e he
    · rw [h.inFlightOn_length, hkey, hfsm, hfresh.running, AList.lookup_insert, if_pos rfl]
    · have hold := h.held x e he
      by_cases hkey : e.key = key
      · rw [hkey, hfree, if_neg (by simp)] at hold
        rw [hkey, AList.lookup_insert, if_neg (by simpa using Ne.symm hne)]
        exact hold
      · rw [AList.lookup_insert_ne hkey]
        exact hold
  · intro x e he
    rw [hbegun, hrep, ite_self]
    obtain ⟨rfl, _, hfsm, htu⟩ | ⟨hne, he⟩ := hentry x e he
    · rw [h.inFlightOn_length, hfsm, hfresh.running, Entry.ends, htu]
      rfl
    · exact h.reported x e he
  · have hold := h.gauge
    have hcount := KeyMap.countKeys_insert (fun k => decide (k.role = .server)) hfree s.entries.length
    have hservers : ((s.register m sentBy).begin key s.entries.length [op] none).servers =
        s.servers + if key.role = .server then 1 else 0 := by
      rw [Driver.servers, Driver.begin, hlookup, hcount, Driver.servers]
      simp only [decide_eq_true_eq]
    have hgauge : ((s.register m sentBy).begin key s.entries.length [op] none).gauge = s.gauge := rfl
    rw [hbegun', hbegun', hservers, hinc, hdec, hgauge]
    push_cast
    omega
  · intro t ht hphase
    have hne : t.key ≠ key := fun hk => hphase (htasks t ht hk)
    exact newest_register hfresh hne (h.sleeping t ht hphase)
  · intro f hf harms
    obtain hf | rfl := hmem f hf
    · have hne : f.key ≠ key := by
        intro hk
        rw [hframes f hf hk] at harms
        contradiction
      exact newest_register hfresh hne (h.arming f hf harms)
    · simp [Frame.arms, harm] at harms
  · intro f hf owner howner
    obtain hf | rfl := hmem f hf
    · exact h.own f hf owner howner
    · contradiction

end Register

theorem DriverInv.setTasks (h : DriverInv s)
    (htasks : ∀ t ∈ tasks, t.phase ≠ .done → s.Newest t.key t.owner) : DriverInv { s with tasks } :=
  { h with sleeping := htasks }

theorem DriverInv.setTask (h : DriverInv s) {t' : TimerTask} (ht : s.tasks[n]? = some t)
    (hphase : t.phase ≠ .done) (hkey : t'.key = t.key) (howner : t'.owner = t.owner) :
    DriverInv { s with tasks := s.tasks.set n t' } := by
  refine h.setTasks fun u hu hu' => ?_
  obtain hu | rfl := List.mem_or_eq_of_mem_set hu
  · exact h.sleeping u hu hu'
  · rw [hkey, howner]
    exact h.sleeping t (List.mem_of_getElem? ht) hphase

theorem DriverInv.deliver (h : DriverInv s) (k : TransactionKey) (ev : TransactionEvent) :
    DriverInv (s.deliver k ev) := by
  unfold Driver.deliver
  split
  · next x hx =>
    refine h.begin (h.newest k x hx).1 (fun owner howner => by contradiction) ?_
    simp [Op.removals, Op.reports, Op.incs, Op.decs, Op.arms]
  · exact h

theorem newest_unique {y : Nat} (hx : s.Newest k x) (hy : s.Newest k y) : x = y :=
  Nat.le_antisymm (hy.2 x hx.1) (hx.2 y hy.1)

theorem DriverInv.fire (h : DriverInv s) (ht : s.tasks[n]? = some t)
    (hphase : t.phase ≠ .done) (hx : s.txns.lookup t.key = some x) :
    DriverInv (Driver.begin { s with tasks := s.tasks.set n { t with phase := .done } } t.key x
      [.untrack t.id, .event (.timerFired t.id)] (some t.owner)) := by
  have hset : DriverInv { s with tasks := s.tasks.set n { t with phase := .done } } :=
    h.setTask ht hphase rfl rfl
  have hnewest := h.newest t.key x hx
  refine hset.begin hnewest.1 ?_ ?_
  · intro owner howner
    obtain rfl := Option.some.inj howner
    exact newest_unique hnewest (h.sleeping t (List.mem_of_getElem? ht) hphase)
  · simp [Op.removals, Op.reports, Op.incs, Op.decs, Op.arms]

theorem DriverInv.step (h : DriverInv s) {a : DriverAction} (hok : KeysRetired s a)
    (hstep : s.step a = some s') : DriverInv s' := by
  cases a with
  | startClient txn =>
    obtain rfl := Option.some.inj hstep
    exact h.start_on (txn.fresh s.reliable) hok rfl rfl rfl rfl (by rw [txn.role]; rfl)
  | startServer txn sentBy =>
    obtain rfl := Option.some.inj hstep
    exact h.start_on (txn.fresh s.reliable) hok rfl rfl rfl rfl (by rw [txn.role]; rfl)
  | deliverResponse key status bytes =>
    obtain rfl := Option.some.inj hstep
    exact h.deliver key _
  | deliverRequest key method bytes =>
    simp only [Driver.step] at hstep
    split at hstep
    · next x hx =>
      split at hstep
      · next e he =>
        split at hstep
        · obtain rfl := Option.some.inj hstep
          refine h.begin (h.newest key x hx).1 (fun owner howner => by contradiction) ?_
          simp [Op.removals, Op.reports, Op.incs, Op.decs, Op.arms]
        · obtain rfl := Option.some.inj hstep
          exact h
      · contradiction
    · obtain rfl := Option.some.inj hstep
      exact h
  | sendResponse key status bytes =>
    obtain rfl := Option.some.inj hstep
    exact h.deliver key _
  | wake n =>
    simp only [Driver.step] at hstep
    split at hstep
    · next owner key id ht =>
      obtain rfl := Option.some.inj hstep
      exact h.setTask ht (by simp) rfl rfl
    · contradiction
  | quit n =>
    simp only [Driver.step] at hstep
    split at hstep
    · next owner key id ht =>
      split at hstep
      · split at hstep
        · obtain rfl := Option.some.inj hstep
          exact h.setTask ht (by simp) rfl rfl
        · contradiction
      · contradiction
    · contradiction
  | fire n =>
    simp only [Driver.step] at hstep
    split at hstep
    · next owner key id ht =>
      split at hstep
      · next x hx =>
        obtain rfl := Option.some.inj hstep
        exact h.fire ht (by simp) hx
      · obtain rfl := Option.some.inj hstep
        exact h.setTask ht (by simp) rfl rfl
    · contradiction
  | run i =>
    simp only [Driver.step] at hstep
    split at hstep
    · next key x op rest armedFor hf =>
      split at hstep
      · next e he =>
        obtain rfl := Option.some.inj hstep
        exact h.run hf rfl he
      · contradiction
    · contradiction

end Steps

/-! ## the result -/

/-- **The driver's accounts.**  In every run that uses a key again only once its
last transaction is retired, every state has its accounts right: the gauge
against the table, one report for each transaction that has ended and none for
the others, no ended transaction in the table but on its way out, and every
timer on its own transaction.  With no operation in progress nothing is left
out of the books. -/
theorem driver_accounts (reliable : Bool) (acts : List DriverAction) (s : Driver)
    (hexec : exec Driver.step (new reliable) acts = some s)
    (hretired : Meets Driver.step KeysRetired (new reliable) acts) :
    Accounted s ∧ (s.Idle → Balanced s) := by
  have h : DriverInv s :=
    exec_invariant_of_meets (fun _ _ _ h hok hstep => h.step hok hstep) hexec hretired
      (DriverInv.start reliable)
  exact ⟨h.accounted, h.balanced⟩

/-- An INVITE over TCP that is turned down and acknowledged just when its timer
H strikes: the timer task is past its `select!` when the entry is removed. -/
def timerRace : List DriverAction :=
  [.startServer (.invite "z9hG4bK-1") none, .run 0,
    .sendResponse ⟨"z9hG4bK-1", "INVITE", .server⟩ 486 [], .run 1, .run 1, .run 1, .run 1,
    .wake 0, .deliverRequest ⟨"z9hG4bK-1", "INVITE", .server⟩ "ACK" [], .run 2, .run 2, .run 2,
    .run 2, .run 2, .run 2, .run 2, .run 2, .run 2]

/-- Another INVITE with the branch of the first, turned down as well. -/
def reuse (frame : Nat) : List DriverAction :=
  [.startServer (.invite "z9hG4bK-1") none, .run frame,
    .sendResponse ⟨"z9hG4bK-1", "INVITE", .server⟩ 486 [], .run (frame + 1), .run (frame + 1),
    .run (frame + 1), .run (frame + 1)]

/-- The old timer task looks its transaction up before the branch is used again. -/
theorem driver_accounts_reuse :
    ∃ s, exec Driver.step (new true) (timerRace ++ .fire 0 :: reuse 3) = some s ∧
      Meets Driver.step KeysRetired (new true) (timerRace ++ .fire 0 :: reuse 3) ∧
      s.entries.map Entry.ends = [1, 0] ∧ s.gauge = 1 ∧ Accounted s ∧ Balanced s := by
  have hrun : (exec Driver.step (new true) (timerRace ++ .fire 0 :: reuse 3)).map
      (fun s => (s.entries.map Entry.ends, s.gauge, decide s.Idle)) = some ([1, 0], 1, true) := by
    decide +kernel
  obtain ⟨s, hexec, hs⟩ := Option.map_eq_some_iff.mp hrun
  obtain ⟨hends, hs⟩ := Prod.mk.inj hs
  obtain ⟨hgauge, hidle⟩ := Prod.mk.inj hs
  have hmeets : Meets Driver.step KeysRetired (new true) (timerRace ++ .fire 0 :: reuse 3) := by
    decide +kernel
  have h := driver_accounts true _ s hexec hmeets
  exact ⟨s, hexec, hmeets, hends, hgauge, h.1, h.2 (of_decide_eq_true hidle)⟩

/-- The callers' promise: no server transaction is started on a live key. -/
def ServerKeysFree (s : Driver) : DriverAction → Prop
  | .startServer txn _ => s.txns.lookup (Transaction.key txn.machine) = none
  | _ => True

instance (s : Driver) : ∀ a, Decidable (ServerKeysFree s a)
  | .startServer txn _ =>
    inferInstanceAs (Decidable (s.txns.lookup (Transaction.key txn.machine) = none))
  | .startClient _ | .deliverResponse _ _ _ | .deliverRequest _ _ _ | .sendResponse _ _ _ | .wake _
  | .quit _ | .fire _ | .run _ => isTrue trivial

/-- The old timer task looks its transaction up after the branch is used again:
it finds the new one, and ends it. -/
theorem stale_timer_ends_reused_key : ¬ ∀ (reliable : Bool) (acts : List DriverAction) (s : Driver),
      exec Driver.step (new reliable) acts = some s →
      Meets Driver.step ServerKeysFree (new reliable) acts →
      Accounted s ∧ (s.Idle → Balanced s) := by
  intro h
  have hrun : (exec Driver.step (new true) (timerRace ++ reuse 3 ++ [.fire 0, .run 5, .run 5])).map
      (fun s => (s.frames.map fun f => (f.entry, f.armedFor),
        s.entries.map fun e => Transaction.state e.fsm)) =
      some ([(0, none), (0, none), (0, none), (1, none), (1, none), (1, some 0)],
        [.terminated, .terminated]) := by
    decide +kernel
  obtain ⟨s, hexec, hs⟩ := Option.map_eq_some_iff.mp hrun
  obtain ⟨hframes, _⟩ := Prod.mk.inj hs
  have hmeets : Meets Driver.step ServerKeysFree (new true)
      (timerRace ++ reuse 3 ++ [.fire 0, .run 5, .run 5]) := by
    decide +kernel
  have hmem : (1, some 0) ∈ s.frames.map fun f => (f.entry, f.armedFor) := by
    rw [hframes]
    simp
  obtain ⟨f, hf, hpair⟩ := List.mem_map.mp hmem
  obtain ⟨hentry, harmed⟩ := Prod.mk.inj hpair
  have hown := (h true _ s hexec hmeets).1.own f hf 0 harmed
  omega

end SmithsNet.Txn
