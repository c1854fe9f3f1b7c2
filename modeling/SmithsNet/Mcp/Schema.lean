import Mathlib
import SmithsNet.Auth.StoredRecords
import SmithsNet.Lib.Wire
import SmithsNet.Media.Dtmf
import SmithsNet.Mcp.RateLimiter
import SmithsNet.Mcp.Value

/-!
# SmithsNet.Mcp.Schema

The schemas of the tools, and what they promise.

The dispatcher validates the arguments of a tool against its schema: types, required
members, enumerations, and the same for every member and item.  Numeric bounds and
members that the schema does not name are left to the tools, `list_cdr` and `send_dtmf`
among them.  The validator takes a number by its value when it asks for an integer and by
its representation when it looks for it in an enumeration; the tools read an integer only
where it is represented as one.

`schemas_are_contracts_iff`: a value is accepted as it satisfies the schema exactly when
what stands in an enumeration stands there in the same representation, and the numbers of a
call are used as given and within bounds exactly when the tool reads them and they are
within bounds.
-/

namespace SmithsNet.Mcp

open Lib Media Value
open RateLimit (ToolError)
open StoredRecords (CdrFilter)

/-! ## numbers -/

/-- `serde_json::Number`; a float is the rational number that it stands for. -/
inductive Number
  | posInt (n : UInt64)
  /-- Less than zero. -/
  | negInt (n : Int64)
  | float (x : Rat)
deriving DecidableEq

namespace Number

def value : Number → Rat
  | posInt n => n.toNat
  | negInt n => n.toInt
  | float x => x

/-- `as f64`, of a magnitude: 53 bits, and halves to even. -/
def roundToF64 (n : Nat) : Nat :=
  let unit := 2 ^ (n.log2 - 52)
  let rest := n % unit
  let up := decide (unit < 2 * rest) || (decide (2 * rest = unit) && decide (n / unit % 2 = 1))
  (n / unit + up.toNat) * unit

def asF64 : Number → Rat
  | posInt n => roundToF64 n.toNat
  | negInt n => -roundToF64 n.toInt.natAbs
  | float x => x

def asU64 : Number → Option Nat
  | posInt n => some n.toNat
  | _ => none

def asI64 : Number → Option Int
  | posInt n => if n.toNat < 2 ^ 63 then some n.toNat else none
  | negInt n => some n.toInt
  | float _ => none

end Number

/-- `f64::fract`. -/
def fract (x : Rat) : Rat := x - (x.num.tdiv x.den : Int)

abbrev Json := Value Number

namespace Value

variable {N M : Type}

mutual
/-- The value with its numbers replaced. -/
def map (f : N → M) : Value N → Value M
  | null => null
  | bool b => bool b
  | number n => number (f n)
  | string s => string s
  | array items => array (mapItems f items)
  | object members => object (mapMembers f members)

def mapItems (f : N → M) : List (Value N) → List (Value M)
  | [] => []
  | item :: items => item.map f :: mapItems f items

def mapMembers (f : N → M) : List (Text × Value N) → List (Text × Value M)
  | [] => []
  | (key, v) :: members => (key, v.map f) :: mapMembers f members
end

mutual
/-- `PartialEq`. -/
def beq [DecidableEq N] : Value N → Value N → Bool
  | null, null => true
  | bool b, bool c => decide (b = c)
  | number m, number n => decide (m = n)
  | string s, string t => decide (s = t)
  | array xs, array ys => beqItems xs ys
  | object xs, object ys => beqMembers xs ys
  | _, _ => false

def beqItems [DecidableEq N] : List (Value N) → List (Value N) → Bool
  | [], [] => true
  | x :: xs, y :: ys => x.beq y && beqItems xs ys
  | _, _ => false

def beqMembers [DecidableEq N] : List (Text × Value N) → List (Text × Value N) → Bool
  | [], [] => true
  | (key, x) :: xs, (key', y) :: ys => decide (key = key') && x.beq y && beqMembers xs ys
  | _, _ => false
end

mutual
theorem beq_iff [DecidableEq N] : ∀ v w : Value N, v.beq w = true ↔ v = w
  | null, w | bool _, w | number _, w | string _, w => by cases w <;> simp [beq]
  | array xs, w => by cases w <;> simp [beq, beqItems_iff xs]
  | object xs, w => by cases w <;> simp [beq, beqMembers_iff xs]

theorem beqItems_iff [DecidableEq N] : ∀ xs ys : List (Value N), beqItems xs ys = true ↔ xs = ys
  | [], ys => by cases ys <;> simp [beqItems]
  | x :: xs, ys => by cases ys <;> simp [beqItems, beq_iff x, beqItems_iff xs]

theorem beqMembers_iff [DecidableEq N] : ∀ xs ys : List (Text × Value N), beqMembers xs ys = true ↔ xs = ys
  | [], ys => by cases ys <;> simp [beqMembers]
  | (key, x) :: xs, ys => by cases ys <;> simp [beqMembers, beq_iff x, beqMembers_iff xs, Prod.ext_iff]
end

instance [DecidableEq N] : DecidableEq (Value N) := fun v w => decidable_of_iff _ (beq_iff v w)

def asArray : Value N → Option (List (Value N))
  | array items => some items
  | _ => none

def asObject : Value N → Option (List (Text × Value N))
  | object members => some members
  | _ => none

def typeName : Value N → String
  | null => "null"
  | bool _ => "boolean"
  | number _ => "number"
  | string _ => "string"
  | array _ => "array"
  | object _ => "object"

theorem sizeOf_lookup [SizeOf N] {key : Text} {v : Value N} {members : List (Text × Value N)}
    (h : members.lookup key = some v) :
    sizeOf v < sizeOf members := by
  induction members with
  | nil => cases h
  | cons m members ih =>
    obtain ⟨k, w⟩ := m
    simp only [List.cons.sizeOf_spec, Prod.mk.sizeOf_spec]
    rw [List.lookup_cons] at h
    split at h
    · cases h
      omega
    · have hlt := ih h
      omega

end Value

/-! ## the validator -/

/-- The types that are named as `type_name` does. -/
def typeNames : List Text := ["string", "number", "boolean", "array", "object", "null"].map String.toList

/-- `matches_type`: an unknown name never rejects. -/
def matchesType (name : Text) (value : Json) : Bool :=
  if name = "integer".toList then
    match value with
    | .number n => decide (fract n.asF64 = 0)
    | _ => false
  else if name ∈ typeNames then decide (value.typeName.toList = name)
  else true

/-- The names in a `type`; any other value names none. -/
def typeKeyword : Json → List Text
  | .string s => [s]
  | .array a => a.filterMap asStr
  | _ => []

def checkType (ty value : Json) (path : Text) : Except Text Unit :=
  let names := typeKeyword ty
  if names = [] ∨ ∃ n ∈ names, matchesType n value = true then .ok ()
  else .error ("`".toList ++ path ++ "` must be of type ".toList ++ List.intercalate " | ".toList names ++
    " (got ".toList ++ value.typeName.toList ++ [')'])

/-- The `enum` of `validate_value`; `debug` prints a list of values. -/
def checkEnum (debug : List Json → Text) (allowed : List Json) (value : Json) (path : Text) : Except Text Unit :=
  if value ∈ allowed then .ok () else .error ("`".toList ++ path ++ "` must be one of ".toList ++ debug allowed)

/-- The `required` of `validate_object`. -/
def checkRequired (required : List Json) (members : List (Text × Json)) (path : Text) : Except Text Unit :=
  match (required.filterMap asStr).find? fun key => (members.lookup key).isNone with
  | some key => .error ("`".toList ++ path ++ "` is missing required field `".toList ++ key ++ "`".toList)
  | none => .ok ()

/-- `validate_value`, and `validate_object` in it; what is no schema object has no keyword. -/
def validateValue (debug : List Json → Text) (schema value : Json) (path : Text) : Except Text Unit := do
  (schema.get "type".toList).elim (.ok ()) fun ty => checkType ty value path
  ((schema.get "enum".toList).bind Value.asArray).elim (.ok ()) fun allowed => checkEnum debug allowed value path
  match value with
  | .object members => do
    ((schema.get "required".toList).bind Value.asArray).elim (.ok ()) fun required => checkRequired required members path
    ((schema.get "properties".toList).bind Value.asObject).elim (.ok ()) fun props => props.forM fun p =>
      match _h : members.lookup p.1 with
      | some v => validateValue debug p.2 v (path ++ '.' :: p.1)
      | none => .ok ()
  | .array items =>
    (schema.get "items".toList).elim (.ok ()) fun sub =>
      items.attach.zipIdx.forM fun p => validateValue debug sub p.1.1 (path ++ '[' :: showNat p.2 ++ [']'])
  | _ => .ok ()
termination_by sizeOf value
decreasing_by
  · have hlt := Value.sizeOf_lookup _h
    simp only [Value.object.sizeOf_spec]
    omega
  · have hlt := List.sizeOf_lt_of_mem p.1.2
    simp only [Value.array.sizeOf_spec]
    omega

/-- `validate_args`. -/
def validateArgs (debug : List Json → Text) (schema args : Json) : Except Text Unit :=
  validateValue debug schema args "arguments".toList

/-! ## satisfaction -/

/-- The value is of the type, by its mathematical value if it is a number. -/
def HasType (name : Text) (value : Json) : Prop :=
  if name = "integer".toList then ∃ (n : Number) (z : Int), value = .number n ∧ n.value = z
  else if name ∈ typeNames then value.typeName.toList = name
  else True

/-- The `type` of a schema is one of a value; no name says nothing. -/
def TypeHolds (Is : Text → Json → Prop) (schema value : Json) : Prop :=
  ∀ ty, schema.get "type".toList = some ty → typeKeyword ty = [] ∨ ∃ n ∈ typeKeyword ty, Is n value

/-- The `enum` of a schema has a value. -/
def EnumHolds (Same : Json → Json → Prop) (schema value : Json) : Prop :=
  ∀ allowed, (schema.get "enum".toList).bind Value.asArray = some allowed → ∃ a ∈ allowed, Same a value

/-- An object has the members that are required. -/
def RequiredHolds (schema value : Json) : Prop :=
  ∀ required members, (schema.get "required".toList).bind Value.asArray = some required → value = .object members →
    ∀ key ∈ required.filterMap asStr, (members.lookup key).isSome = true

/-- A schema and a value: those of a member, or of an item, and of their members and items. -/
inductive Reaches : Json → Json → Json → Json → Prop
  | refl (s v : Json) : Reaches s v s v
  | property {s s' v' sub v : Json} {props members : List (Text × Json)} {key : Text}
      (hprops : (s.get "properties".toList).bind Value.asObject = some props) (hsub : (key, sub) ∈ props)
      (hv : members.lookup key = some v) (h : Reaches sub v s' v') : Reaches s (.object members) s' v'
  | item {s s' v' sub v : Json} {items : List Json} (hsub : s.get "items".toList = some sub) (hv : v ∈ items)
      (h : Reaches sub v s' v') : Reaches s (.array items) s' v'

/-- Equal, as numbers are by their value. -/
def SameValue (v w : Json) : Prop := v.map Number.value = w.map Number.value

/-- A value satisfies a schema at every depth. -/
def Satisfies (schema value : Json) : Prop :=
  ∀ s v, Reaches schema value s v → TypeHolds HasType s v ∧ EnumHolds SameValue s v ∧ RequiredHolds s v

/-- Where the value of a part stands in an enumeration, it stands there as the part represents it. -/
def Represented (schema value : Json) : Prop :=
  ∀ s v, Reaches schema value s v → EnumHolds SameValue s v → EnumHolds Eq s v

/-! ## what is accepted satisfies the schema -/

theorem fract_eq_zero_iff {x : Rat} : fract x = 0 ↔ ∃ z : Int, x = z := by
  constructor
  · intro h
    exact ⟨x.num.tdiv x.den, sub_eq_zero.mp h⟩
  · rintro ⟨z, rfl⟩
    simp [fract]

theorem isInt_asF64_iff (n : Number) : fract n.asF64 = 0 ↔ ∃ z : Int, n.value = z := by
  rw [fract_eq_zero_iff]
  cases n with
  | posInt n => exact iff_of_true ⟨Number.roundToF64 n.toNat, by simp [Number.asF64]⟩ ⟨n.toNat, by simp [Number.value]⟩
  | negInt n => exact iff_of_true ⟨-Number.roundToF64 n.toInt.natAbs, by simp [Number.asF64]⟩ ⟨n.toInt, rfl⟩
  | float x => rfl

theorem matchesType_iff (name : Text) (value : Json) : matchesType name value = true ↔ HasType name value := by
  unfold matchesType HasType
  split
  · cases value with
    | number n => simp [isInt_asF64_iff]
    | _ => simp
  · split <;> simp

section Validator

variable {debug : List Json → Text} {schema value s v sub : Json} {path : Text} {members : List (Text × Json)}

theorem checkType_ok (ty value : Json) (path : Text) :
    checkType ty value path = .ok () ↔ typeKeyword ty = [] ∨ ∃ n ∈ typeKeyword ty, HasType n value := by
  simp only [checkType, ← matchesType_iff]
  split
  · next h => exact iff_of_true rfl h
  · next h => exact iff_of_false nofun h

theorem checkEnum_ok (allowed : List Json) : checkEnum debug allowed value path = .ok () ↔ ∃ a ∈ allowed, a = value := by
  unfold checkEnum
  split <;> simp_all

theorem checkRequired_ok (required : List Json) : checkRequired required members path = .ok () ↔
    ∀ key ∈ required.filterMap asStr, (members.lookup key).isSome = true := by
  unfold checkRequired
  split
  · next key hfind =>
    refine iff_of_false nofun fun hall => ?_
    have hnone := List.find?_some hfind
    have hsome := hall key (List.mem_of_find?_eq_some hfind)
    rw [Option.isNone_iff_eq_none] at hnone
    rw [hnone] at hsome
    cases hsome
  · next hfind =>
    refine iff_of_true rfl fun key hkey => ?_
    have hnot := List.find?_eq_none.mp hfind key hkey
    rwa [Option.isNone_iff_eq_none, ← ne_eq, Option.ne_none_iff_isSome] at hnot

theorem andThen_ok {a b : Except Text Unit} : (a >>= fun _ => b) = .ok () ↔ a = .ok () ∧ b = .ok () := by
  cases a with
  | ok u => exact ⟨fun h => ⟨rfl, h⟩, fun h => h.2⟩
  | error e => exact ⟨nofun, fun h => absurd h.1 nofun⟩

theorem elim_ok {α : Type} {o : Option α} {f : α → Except Text Unit} :
    o.elim (.ok ()) f = .ok () ↔ ∀ x, o = some x → f x = .ok () := by
  cases o <;> simp

theorem forM_ok {α : Type} {f : α → Except Text Unit} (l : List α) : l.forM f = .ok () ↔ ∀ x ∈ l, f x = .ok () := by
  induction l with
  | nil => exact iff_of_true rfl nofun
  | cons x l ih =>
    have hcons : (x :: l).forM f = (f x >>= fun _ => l.forM f) := rfl
    rw [hcons, andThen_ok, ih, List.forall_mem_cons]

theorem forall_reaches_iff {P : Json → Json → Prop} :
    (∀ s' v', Reaches s v s' v' → P s' v') ↔ P s v ∧
      (∀ props members key sub w, v = .object members → (s.get "properties".toList).bind Value.asObject = some props →
        (key, sub) ∈ props → members.lookup key = some w → ∀ s' v', Reaches sub w s' v' → P s' v') ∧
      ∀ sub items w, v = .array items → s.get "items".toList = some sub → w ∈ items →
        ∀ s' v', Reaches sub w s' v' → P s' v' := by
  constructor
  · intro h
    refine ⟨h s v (.refl s v), ?_, ?_⟩
    · rintro props members key sub w rfl hprops hsub hw s' v' hreach
      exact h s' v' (.property hprops hsub hw hreach)
    · rintro sub items w rfl hsub hw s' v' hreach
      exact h s' v' (.item hsub hw hreach)
  · rintro ⟨hroot, hmembers, hitems⟩ s' v' hreach
    cases hreach with
    | refl => exact hroot
    | property hprops hsub hw hrest => exact hmembers _ _ _ _ _ rfl hprops hsub hw _ _ hrest
    | item hsub hw hrest => exact hitems _ _ _ rfl hsub hw _ _ hrest

theorem sizeOf_member {w : Json} {key : Text} (h : members.lookup key = some w) :
    sizeOf w < sizeOf (Value.object members) := by
  have hlt := Value.sizeOf_lookup h
  simp only [Value.object.sizeOf_spec]
  omega

theorem sizeOf_item {w : Json} {items : List Json} (h : w ∈ items) : sizeOf w < sizeOf (Value.array items) := by
  have hlt := List.sizeOf_lt_of_mem h
  simp only [Value.array.sizeOf_spec]
  omega

/-- **A value is accepted exactly when it satisfies the schema**, enumerations by representation. -/
theorem validateValue_ok (debug : List Json → Text) (schema value : Json) (path : Text) :
    validateValue debug schema value path = .ok () ↔
      ∀ s v, Reaches schema value s v → TypeHolds HasType s v ∧ EnumHolds Eq s v ∧ RequiredHolds s v := by
  induction hsize : sizeOf value using Nat.strong_induction_on generalizing schema value path with
  | _ n ih =>
    subst hsize
    rw [forall_reaches_iff, validateValue.eq_def]
    simp only [andThen_ok, elim_ok, checkType_ok, checkEnum_ok]
    cases value with
    | object members =>
      simp only [andThen_ok, elim_ok, checkRequired_ok, forM_ok]
      constructor
      · rintro ⟨htype, henum, hrequired, hvalid⟩
        refine ⟨⟨htype, henum, ?_⟩, ?_, nofun⟩
        · rintro required _ hkeys ⟨⟩
          exact hrequired required hkeys
        · rintro props _ key sub w ⟨⟩ hprops hsub hw
          have hok := hvalid props hprops (key, sub) hsub
          split at hok
          · next w' hw' =>
            obtain rfl : w = w' := Option.some.inj (hw.symm.trans hw')
            exact (ih _ (sizeOf_member hw) sub w _ rfl).mp hok
          · next hnone =>
            rw [hnone] at hw
            cases hw
      · rintro ⟨⟨htype, henum, hrequired⟩, hmembers, -⟩
        refine ⟨htype, henum, fun required hkeys => hrequired required members hkeys rfl, fun props hprops p hp => ?_⟩
        split
        · next w hw => exact (ih _ (sizeOf_member hw) p.2 w _ rfl).mpr (hmembers props members p.1 p.2 w rfl hprops hp hw)
        · rfl
    | array items =>
      simp only [elim_ok, forM_ok]
      constructor
      · rintro ⟨htype, henum, hvalid⟩
        refine ⟨⟨htype, henum, nofun⟩, nofun, ?_⟩
        rintro sub _ w ⟨⟩ hsub hw
        obtain ⟨i, hi⟩ := List.getElem?_of_mem (List.mem_attach items ⟨w, hw⟩)
        have hok := hvalid sub hsub (⟨w, hw⟩, i) (List.mk_mem_zipIdx_iff_getElem?.mpr hi)
        exact (ih _ (sizeOf_item hw) sub w _ rfl).mp hok
      · rintro ⟨⟨htype, henum, -⟩, -, hitems⟩
        refine ⟨htype, henum, fun sub hsub p _ => ?_⟩
        exact (ih _ (sizeOf_item p.1.2) sub p.1.1 _ rfl).mpr (hitems sub items p.1.1 rfl hsub p.1.2)
    | null | bool | number | string =>
      constructor
      · rintro ⟨htype, henum, -⟩
        exact ⟨⟨htype, henum, nofun⟩, nofun, nofun⟩
      · rintro ⟨⟨htype, henum, -⟩, -⟩
        exact ⟨htype, henum, rfl⟩

/-- What is accepted satisfies the schema; what satisfies it is accepted if it is represented. -/
theorem accepted_iff (debug : List Json → Text) (schema value : Json) :
    (validateArgs debug schema value = .ok () ↔ Satisfies schema value) ↔
      (Satisfies schema value → Represented schema value) := by
  rw [validateArgs, validateValue_ok]
  constructor
  · intro h hsatisfies s v hreach _
    exact (h.mpr hsatisfies s v hreach).2.1
  · intro h
    constructor
    · intro haccepted s v hreach
      obtain ⟨htype, henum, hrequired⟩ := haccepted s v hreach
      refine ⟨htype, fun allowed hallowed => ?_, hrequired⟩
      obtain ⟨a, ha, rfl⟩ := henum allowed hallowed
      exact ⟨a, ha, rfl⟩
    · intro hsatisfies s v hreach
      obtain ⟨htype, henum, hrequired⟩ := hsatisfies s v hreach
      exact ⟨htype, h hsatisfies s v hreach henum, hrequired⟩

end Validator

/-! ## the tools -/

/-- `as_u64` and `as_i64` of a value. -/
def Value.asU64 : Json → Option Nat
  | .number n => n.asU64
  | _ => none

def Value.asI64 : Json → Option Int
  | .number n => n.asI64
  | _ => none

/-- `invoke_audited_as` behind the limiter: the call is made with valid arguments. -/
def invokeValidated {E : Type} (debug : List Json → Text) (schema : Json) (call : Json → Except ToolError E)
    (args : Json) : Except ToolError E :=
  let args := match args with
    | .null => .object []
    | args => args
  match validateArgs debug schema args with
  | .ok () => call args
  | .error reason => .error (.invalidArguments reason)

def DEFAULT_LIMIT : Nat := 100

def typed (name : String) : Json := .object [("type".toList, .string name.toList)]

/-- An integer with bounds. -/
def bounded (minimum maximum : UInt64) : Json :=
  .object [("maximum".toList, .number (.posInt maximum)), ("minimum".toList, .number (.posInt minimum)),
    ("type".toList, .string "integer".toList)]

/-- The `input_schema` of `list_cdr`, without its descriptions. -/
def listCdrSchema : Json :=
  .object [("additionalProperties".toList, .bool false),
    ("properties".toList, .object [("from_like".toList, typed "string"), ("limit".toList, bounded 1 1000),
      ("result".toList, typed "string"), ("since_unix".toList, typed "integer"), ("to_like".toList, typed "string"),
      ("until_unix".toList, typed "integer")]),
    ("type".toList, .string "object".toList)]

/-- `ListCdrTool`: the filter the store is asked with, if there is one (it refuses a limit of 0). -/
def listCdr (wired : Bool) (args : Json) : Except ToolError (Option CdrFilter) :=
  if wired = false then .ok none
  else
    let filter (limit : Nat) : CdrFilter :=
      { sinceUnix := (args.get "since_unix".toList).bind Value.asI64
        untilUnix := (args.get "until_unix".toList).bind Value.asI64
        fromLike := (args.get "from_like".toList).bind asStr
        toLike := (args.get "to_like".toList).bind asStr
        result := (args.get "result".toList).bind asStr
        limit := limit }
    match (args.get "limit".toList).bind Value.asU64 with
    | some v => if v < 2 ^ 32 then .ok (some (filter v)) else .error (.invalidArguments "`limit` must fit in u32".toList)
    | none => .ok (some (filter DEFAULT_LIMIT))

/-- The `input_schema` of `send_dtmf`, without its descriptions. -/
def sendDtmfSchema : Json :=
  .object [("additionalProperties".toList, .bool false),
    ("properties".toList, .object [("call_id".toList, typed "string"), ("digits".toList, typed "string"),
      ("duration_ms".toList, bounded 20 2000)]),
    ("required".toList, .array [.string "call_id".toList, .string "digits".toList]),
    ("type".toList, .string "object".toList)]

/-- `require_str`. -/
def requireStr (args : Json) (key : Text) : Except ToolError Text :=
  match (args.get key).bind asStr with
  | some s => .ok s
  | none => .error (.invalidArguments (key ++ " required".toList))

/-- `SendDtmfTool`: the keypresses that are sent, and how long each of them is. -/
def sendDtmf (liveMediaLeg : Text → Except ToolError Unit) (args : Json) : Except ToolError (List (Char × Nat)) := do
  let callId ← requireStr args "call_id".toList
  let digits ← requireStr args "digits".toList
  let duration := ((args.get "duration_ms".toList).bind Value.asU64).getD 160
  if digits = [] then .error (.invalidArguments "digits must be non-empty".toList)
  else if ¬ duration < 2 ^ 32 then .error (.invalidArguments "duration_ms out of range".toList)
  else
    match digits.find? fun d => (digitToEventCode d).isNone with
    | some d => .error (.invalidArguments
        ("unsupported DTMF digit `".toList ++ [d] ++ "`; allowed: 0-9 * # A-D !".toList))
    | none => do
      liveMediaLeg callId
      pure (digits.map fun d => (d, duration))

/-! ## what the tools make of numbers -/

/-- A bound that a schema declares for a member. -/
def bound (schema : Json) (key : Text) (keyword : String) : Option Rat := do
  let sub ← (← schema.get "properties".toList).get key
  match ← sub.get keyword.toList with
  | .number n => some n.value
  | _ => none

def WithinBounds (schema : Json) (key : Text) (x : Rat) : Prop :=
  (∀ low, bound schema key "minimum" = some low → low ≤ x) ∧ ∀ high, bound schema key "maximum" = some high → x ≤ high

/-- The number under a key is what the filter has. -/
def Uses (f : CdrFilter) (key : Text) (x : Rat) : Prop :=
  key = "since_unix".toList ∧ f.sinceUnix.map Int.cast = some x ∨
    key = "until_unix".toList ∧ f.untilUnix.map Int.cast = some x ∨ key = "limit".toList ∧ (f.limit : Rat) = x

/-- Where the store is asked, every number is used as given, and within bounds. -/
def ListFaithful (debug : List Json → Text) (wired : Bool) (args : Json) : Prop :=
  ∀ filter, invokeValidated debug listCdrSchema (listCdr wired) args = .ok (some filter) →
    ∀ key n, args.get key = some (.number n) → Uses filter key n.value ∧ WithinBounds listCdrSchema key n.value

/-- Where keypresses are sent, every number is used as given, and within bounds. -/
def DtmfFaithful (debug : List Json → Text) (liveMediaLeg : Text → Except ToolError Unit) (args : Json) : Prop :=
  ∀ presses, invokeValidated debug sendDtmfSchema (sendDtmf liveMediaLeg) args = .ok presses →
    ∀ key n, args.get key = some (.number n) →
      key = "duration_ms".toList ∧ (∀ p ∈ presses, (p.2 : Rat) = n.value) ∧ WithinBounds sendDtmfSchema key n.value

/-- Schemas are contracts. -/
structure Contracts (debug : List Json → Text) : Prop where
  validated : ∀ schema value, validateArgs debug schema value = .ok () ↔ Satisfies schema value
  listCdr : ∀ wired args, ListFaithful debug wired args
  sendDtmf : ∀ liveMediaLeg args, DtmfFaithful debug liveMediaLeg args

/-- The tool reads the number, or would use the same without it. -/
def ReadAs (n : Number) (default : Nat) : Prop := (∃ v, n.asU64 = some v) ∨ n.value = default

/-- What `list_cdr` reads, within bounds. -/
def ListReads (key : Text) (n : Number) : Prop :=
  (key = "since_unix".toList ∨ key = "until_unix".toList) ∧ (∃ z, n.asI64 = some z) ∨
    key = "limit".toList ∧ ReadAs n DEFAULT_LIMIT ∧ 1 ≤ n.value ∧ n.value ≤ 1000

/-- What `send_dtmf` reads, within bounds. -/
def DtmfReads (key : Text) (n : Number) : Prop :=
  key = "duration_ms".toList ∧ ReadAs n 160 ∧ 20 ≤ n.value ∧ n.value ≤ 2000

namespace Number

variable {n : Number}

theorem value_of_asU64 {v : Nat} (h : n.asU64 = some v) : n.value = v := by
  cases n with
  | posInt n =>
    cases h
    rfl
  | _ => cases h

theorem value_of_asI64 {z : Int} (h : n.asI64 = some z) : n.value = z := by
  cases n with
  | posInt n =>
    rw [asI64, Option.ite_none_right_eq_some] at h
    obtain ⟨-, h⟩ := h
    cases h
    simp [value]
  | negInt n =>
    cases h
    rfl
  | float x => cases h

theorem getD_asU64_iff (n : Number) (default : Nat) : ((n.asU64.getD default : Nat) : Rat) = n.value ↔ ReadAs n default := by
  unfold ReadAs
  cases h : n.asU64 with
  | some v => exact iff_of_true (value_of_asU64 h).symm (.inl ⟨v, rfl⟩)
  | none => exact ⟨fun heq => .inr heq.symm, fun h => (h.resolve_left nofun).symm⟩

theorem map_asI64_iff (n : Number) : n.asI64.map (Int.cast : Int → Rat) = some n.value ↔ ∃ z, n.asI64 = some z := by
  cases h : n.asI64 with
  | some z => exact iff_of_true (congrArg some (value_of_asI64 h).symm) ⟨z, rfl⟩
  | none => exact iff_of_false nofun nofun

end Number

theorem within_iff {schema : Json} {key : Text} {low high x : Rat} (hlow : bound schema key "minimum" = some low)
    (hhigh : bound schema key "maximum" = some high) : WithinBounds schema key x ↔ low ≤ x ∧ x ≤ high := by
  simp [WithinBounds, hlow, hhigh]

theorem within_of_none {schema : Json} {key : Text} {x : Rat} (hlow : bound schema key "minimum" = none)
    (hhigh : bound schema key "maximum" = none) : WithinBounds schema key x := by
  simp [WithinBounds, hlow, hhigh]

/-- The call of `list_cdr` is let through. -/
structure ListPasses (debug : List Json → Text) (wired : Bool) (args : Json) : Prop where
  wired : wired = true
  valid : validateArgs debug listCdrSchema args = .ok ()
  limit : ∀ v, (args.get "limit".toList).bind Value.asU64 = some v → v < 2 ^ 32

/-- The call of `send_dtmf` is let through, with these digits. -/
structure DtmfPasses (debug : List Json → Text) (liveMediaLeg : Text → Except ToolError Unit) (args : Json)
    (digits : Text) : Prop where
  valid : validateArgs debug sendDtmfSchema args = .ok ()
  callId : ∃ callId, (args.get "call_id".toList).bind asStr = some callId ∧ liveMediaLeg callId = .ok ()
  read : (args.get "digits".toList).bind asStr = some digits
  nonempty : digits ≠ []
  known : digits.find? (fun d => (digitToEventCode d).isNone) = none
  duration : ((args.get "duration_ms".toList).bind Value.asU64).getD 160 < 2 ^ 32

section Calls

variable {debug : List Json → Text} {liveMediaLeg : Text → Except ToolError Unit} {wired : Bool} {args : Json}
  {filter : CdrFilter} {presses : List (Char × Nat)} {key : Text} {n : Number}

theorem invokeValidated_ok {E : Type} {schema v : Json} {call : Json → Except ToolError E} {e : E}
    (hv : args.get key = some v) :
    invokeValidated debug schema call args = .ok e ↔ validateArgs debug schema args = .ok () ∧ call args = .ok e := by
  cases args with
  | object members =>
    simp only [invokeValidated]
    split
    · next hok => exact (and_iff_right hok).symm
    · next reason hbad => exact iff_of_false nofun fun h => absurd (hbad.symm.trans h.1) nofun
  | _ => cases hv

theorem listCdr_ok (h : listCdr wired args = .ok (some filter)) :
    wired = true ∧ (∀ v, (args.get "limit".toList).bind Value.asU64 = some v → v < 2 ^ 32) ∧
      filter.sinceUnix = (args.get "since_unix".toList).bind Value.asI64 ∧
      filter.untilUnix = (args.get "until_unix".toList).bind Value.asI64 ∧
      filter.limit = ((args.get "limit".toList).bind Value.asU64).getD DEFAULT_LIMIT := by
  unfold listCdr at h
  split at h
  · cases h
  · next hwired =>
    refine ⟨Bool.not_eq_false _ ▸ hwired, ?_⟩
    dsimp only at h
    split at h
    · next v hv =>
      rw [hv]
      split at h
      · next hfits =>
        cases h
        exact ⟨fun w hw => Option.some.inj hw ▸ hfits, rfl, rfl, rfl⟩
      · cases h
    · next hnone =>
      rw [hnone]
      cases h
      exact ⟨nofun, rfl, rfl, rfl⟩

theorem exists_listCdr (hpass : ListPasses debug wired args) : ∃ filter, listCdr wired args = .ok (some filter) := by
  unfold listCdr
  rw [if_neg (by simp [hpass.wired])]
  dsimp only
  split
  · next v hv =>
    rw [if_pos (hpass.limit v hv)]
    exact ⟨_, rfl⟩
  · exact ⟨_, rfl⟩

theorem listCdr_uses_iff (h : listCdr wired args = .ok (some filter)) (hn : args.get key = some (.number n)) :
    Uses filter key n.value ∧ WithinBounds listCdrSchema key n.value ↔ ListReads key n := by
  obtain ⟨-, -, hsince, huntil, hlimit⟩ := listCdr_ok h
  have hfree : ∀ {key : Text}, key = "since_unix".toList ∨ key = "until_unix".toList →
    WithinBounds listCdrSchema key n.value := by
    rintro key (rfl | rfl)
    · exact within_of_none (by decide +kernel) (by decide +kernel)
    · exact within_of_none (by decide +kernel) (by decide +kernel)
  have hbounds : WithinBounds listCdrSchema "limit".toList n.value ↔ 1 ≤ n.value ∧ n.value ≤ 1000 :=
    within_iff (by decide +kernel) (by decide +kernel)
  unfold Uses ListReads
  constructor
  · rintro ⟨⟨rfl, hused⟩ | ⟨rfl, hused⟩ | ⟨rfl, hused⟩, hwithin⟩
    · rw [hsince, hn] at hused
      exact .inl ⟨.inl rfl, (Number.map_asI64_iff n).mp hused⟩
    · rw [huntil, hn] at hused
      exact .inl ⟨.inr rfl, (Number.map_asI64_iff n).mp hused⟩
    · rw [hlimit, hn] at hused
      exact .inr ⟨rfl, (Number.getD_asU64_iff n DEFAULT_LIMIT).mp hused, hbounds.mp hwithin⟩
  · rintro (⟨hkey, hread⟩ | ⟨rfl, hread, hwithin⟩)
    · refine ⟨?_, hfree hkey⟩
      obtain rfl | rfl := hkey
      · refine .inl ⟨rfl, ?_⟩
        rw [hsince, hn]
        exact (Number.map_asI64_iff n).mpr hread
      · refine .inr (.inl ⟨rfl, ?_⟩)
        rw [huntil, hn]
        exact (Number.map_asI64_iff n).mpr hread
    · refine ⟨.inr (.inr ⟨rfl, ?_⟩), hbounds.mpr hwithin⟩
      rw [hlimit, hn]
      exact (Number.getD_asU64_iff n DEFAULT_LIMIT).mpr hread

theorem listFaithful_iff (debug : List Json → Text) (wired : Bool) (args : Json) :
    ListFaithful debug wired args ↔
      (ListPasses debug wired args → ∀ key n, args.get key = some (.number n) → ListReads key n) := by
  constructor
  · intro h hpass key n hn
    obtain ⟨filter, hfilter⟩ := exists_listCdr hpass
    exact (listCdr_uses_iff hfilter hn).mp (h filter ((invokeValidated_ok hn).mpr ⟨hpass.valid, hfilter⟩) key n hn)
  · intro h filter hinvoke key n hn
    obtain ⟨hvalid, hfilter⟩ := (invokeValidated_ok hn).mp hinvoke
    obtain ⟨hwired, hlimit, -⟩ := listCdr_ok hfilter
    exact (listCdr_uses_iff hfilter hn).mpr (h ⟨hwired, hvalid, hlimit⟩ key n hn)

theorem bind_ok {α β : Type} {x : Except ToolError α} {f : α → Except ToolError β} {b : β} :
    (x >>= f) = .ok b ↔ ∃ a, x = .ok a ∧ f a = .ok b := by
  cases x with
  | ok a => exact ⟨fun h => ⟨a, rfl, h⟩, fun ⟨_, h, hf⟩ => Except.ok.inj h ▸ hf⟩
  | error e => exact ⟨nofun, fun ⟨_, h, _⟩ => nomatch h⟩

theorem requireStr_ok {s : Text} : requireStr args key = .ok s ↔ (args.get key).bind asStr = some s := by
  unfold requireStr
  split
  · next t ht => simp [ht]
  · next hnone => exact iff_of_false nofun fun h => by simp [hnone] at h

theorem sendDtmf_ok (hvalid : validateArgs debug sendDtmfSchema args = .ok ()) :
    sendDtmf liveMediaLeg args = .ok presses ↔ ∃ digits, DtmfPasses debug liveMediaLeg args digits ∧
      presses = digits.map fun d => (d, ((args.get "duration_ms".toList).bind Value.asU64).getD 160) := by
  simp only [sendDtmf, bind_ok, requireStr_ok]
  constructor
  · rintro ⟨callId, hcallId, digits, hdigits, hsent⟩
    split at hsent
    · cases hsent
    · next hnonempty =>
      split at hsent
      · cases hsent
      · next hfits =>
        split at hsent
        · cases hsent
        · next hknown =>
          obtain ⟨_, hleg, hpresses⟩ := bind_ok.mp hsent
          cases hpresses
          exact ⟨digits, ⟨hvalid, ⟨callId, hcallId, hleg⟩, hdigits, hnonempty, hknown, not_not.mp hfits⟩, rfl⟩
  · rintro ⟨digits, ⟨-, ⟨callId, hcallId, hleg⟩, hdigits, hnonempty, hknown, hfits⟩, rfl⟩
    refine ⟨callId, hcallId, digits, hdigits, ?_⟩
    rw [if_neg hnonempty, if_neg (not_not.mpr hfits), hknown]
    exact bind_ok.mpr ⟨(), hleg, rfl⟩

theorem dtmfFaithful_iff (debug : List Json → Text) (liveMediaLeg : Text → Except ToolError Unit) (args : Json) :
    DtmfFaithful debug liveMediaLeg args ↔ ((∃ digits, DtmfPasses debug liveMediaLeg args digits) →
      ∀ key n, args.get key = some (.number n) → DtmfReads key n) := by
  have hbounds : ∀ n : Number, WithinBounds sendDtmfSchema "duration_ms".toList n.value ↔ 20 ≤ n.value ∧ n.value ≤ 2000 :=
    fun n => within_iff (by decide +kernel) (by decide +kernel)
  constructor
  · rintro h ⟨digits, hpass⟩ key n hn
    obtain ⟨d, rest, hdigits⟩ := List.exists_cons_of_ne_nil hpass.nonempty
    have hsent := (sendDtmf_ok hpass.valid).mpr ⟨digits, hpass, rfl⟩
    obtain ⟨rfl, hused, hwithin⟩ := h _ ((invokeValidated_ok hn).mpr ⟨hpass.valid, hsent⟩) key n hn
    have hfirst := hused _ (List.mem_map_of_mem (hdigits ▸ List.mem_cons_self : d ∈ digits))
    rw [hn] at hfirst
    exact ⟨rfl, (Number.getD_asU64_iff n 160).mp hfirst, (hbounds n).mp hwithin⟩
  · intro h presses hinvoke key n hn
    obtain ⟨hvalid, hsent⟩ := (invokeValidated_ok hn).mp hinvoke
    obtain ⟨digits, hpass, rfl⟩ := (sendDtmf_ok hvalid).mp hsent
    obtain ⟨rfl, hread, hwithin⟩ := h ⟨digits, hpass⟩ key n hn
    refine ⟨rfl, fun p hp => ?_, (hbounds n).mpr hwithin⟩
    obtain ⟨d, -, rfl⟩ := List.mem_map.mp hp
    rw [hn]
    exact (Number.getD_asU64_iff n 160).mpr hread

end Calls

/-- **When the schemas are contracts.** -/
theorem schemas_are_contracts_iff (debug : List Json → Text) :
    (∀ schema value, (validateArgs debug schema value = .ok () ↔ Satisfies schema value) ↔
      (Satisfies schema value → Represented schema value)) ∧
    (∀ wired args, ListFaithful debug wired args ↔
      (ListPasses debug wired args → ∀ key n, args.get key = some (.number n) → ListReads key n)) ∧
    ∀ liveMediaLeg args, DtmfFaithful debug liveMediaLeg args ↔
      ((∃ digits, DtmfPasses debug liveMediaLeg args digits) →
        ∀ key n, args.get key = some (.number n) → DtmfReads key n) :=
  ⟨accepted_iff debug, listFaithful_iff debug, dtmfFaithful_iff debug⟩

/-- An enumeration that holds 1 does not hold 1.0. -/
theorem one_not_enumerated : ¬ ∀ debug, Contracts debug := by
  intro h
  have hget : ∀ {key : Text} {v : Json}, Value.get (.object [("enum".toList, .array [.number (.posInt 1)])]) key = some v →
      key = "enum".toList ∧ v = .array [.number (.posInt 1)] := by
    intro key v hv
    rw [Value.get, List.lookup_cons] at hv
    split at hv
    · next heq => exact ⟨eq_of_beq heq, (Option.some.inj hv).symm⟩
    · cases hv
  have hreach : ∀ {s v : Json}, Reaches (.object [("enum".toList, .array [.number (.posInt 1)])]) (.number (.float 1)) s v →
      s = .object [("enum".toList, .array [.number (.posInt 1)])] ∧ v = .number (.float 1) := by
    intro s v hreach
    cases hreach
    exact ⟨rfl, rfl⟩
  have hsame : SameValue (.number (.posInt 1)) (.number (.float 1)) := by
    simp [SameValue, Value.map, Number.value]
  have hsatisfies : Satisfies (.object [("enum".toList, .array [.number (.posInt 1)])]) (.number (.float 1)) := by
    rintro s v hsv
    obtain ⟨rfl, rfl⟩ := hreach hsv
    refine ⟨fun ty hty => ?_, fun allowed hallowed => ?_, nofun⟩
    · exact absurd (hget hty).1 (by decide)
    · obtain ⟨e, he, hitems⟩ := Option.bind_eq_some_iff.mp hallowed
      obtain rfl := (hget he).2
      cases hitems
      exact ⟨_, List.mem_singleton_self _, hsame⟩
  have haccepted := (h fun _ => []).validated _ _ |>.mpr hsatisfies
  rw [validateArgs, validateValue_ok] at haccepted
  obtain ⟨a, ha, heq⟩ := (haccepted _ _ (.refl _ _)).2.1 [.number (.posInt 1)] rfl
  rw [List.mem_singleton.mp ha] at heq
  cases heq

end SmithsNet.Mcp
