import Mathlib
import SmithsNet.Lib.Quantise

/-!
# SmithsNet.Media.G711

G.711 companding: μ-law (`smiths-core/src/codec.rs`) and A-law
(`smiths-transcode/src/codec.rs`), and the clipping of the mixer that feeds them
(`smiths-mixer/src/mixer.rs`).

Samples are 16-bit integers; the arithmetic in between is checked, so that `none` is an
overflow (a panic in a debug build, a wrong byte in a release build).  Both laws quantise
the magnitude logarithmically, so order and error come from `Lib.Quantise`.  The μ-law
encoder negates a negative sample before it clips it, and the least sample has no
negative: `companded_iff`.
-/

namespace SmithsNet.Media.Companding

open Lib

/-- The result of an operation on `i16`, unless it overflows. -/
def i16 (x : Int) : Option Int := if -2 ^ 15 ≤ x ∧ x < 2 ^ 15 then some x else none

/-! ## μ-law -/

def BIAS : Int := 0x84

def CLIP : Int := 32635

/-- The loop of `linear_to_ulaw`: the position of the highest bit above the bias. -/
def ulawExponent (mag : Nat) : Nat → Nat → Nat
  | 0, _ => 0
  | exponent + 1, mask =>
    if mag &&& mask = 0 then ulawExponent mag exponent (mask >>> 1) else exponent + 1

/-- A negative sample negated. -/
def ulawMagnitude (pcm : Int) : Option Int := if pcm < 0 then i16 (-pcm) else some pcm

/-- Encode one 16-bit linear sample as μ-law. -/
def linearToUlaw (pcm : Int16) : Option UInt8 := do
  let sign : UInt8 := if pcm.toInt < 0 then 0x80 else 0
  let pcm ← ulawMagnitude pcm.toInt
  let pcm := if CLIP < pcm then CLIP else pcm
  let mag := (← i16 (pcm + BIAS)).toNat
  let exponent := ulawExponent mag 7 0x4000
  let mantissa := (mag >>> (exponent + 3)) &&& 0x0F
  return ~~~(sign ||| (UInt8.ofNat exponent <<< 4) ||| UInt8.ofNat mantissa)

/-- Decode one μ-law byte; nothing overflows. -/
def ulawToLinear (ulaw : UInt8) : Int16 :=
  let u := ~~~ulaw
  let sign := u &&& 0x80
  let exponent := (u >>> 4) &&& 0x07
  let mantissa := u &&& 0x0F
  let magnitude : Int := (mantissa.toNat * 8 + BIAS) * 2 ^ exponent.toNat
  let sample := magnitude - BIAS
  Int16.ofInt (if sign ≠ 0 then -sample else sample)

/-! ## A-law -/

def ALAW_SIGN_BIT : UInt8 := 0x80

def ALAW_MANTISSA_MASK : UInt8 := 0x0F

def ALAW_EXPONENT_MASK : UInt8 := 0x70

def ALAW_EXPONENT_SHIFT : UInt8 := 4

def ALAW_EVEN_MASK : UInt8 := 0x55

/-- The loop of `linear_to_alaw`, with the number of steps left up to segment 7. -/
def alawSegment (scaled : Nat) : Nat → Nat
  | 0 => 7
  | left + 1 => if 1 < scaled then alawSegment (scaled >>> 1) left else 7 - (left + 1)

/-- Exponent and mantissa of a magnitude. -/
def alawCode (pcm : Nat) : Nat × Nat :=
  if pcm < 256 then (0, (pcm >>> 4) &&& 0x0F)
  else
    let seg := alawSegment (pcm >>> 8) 6
    (seg, (pcm >>> (seg + 3)) &&& 0x0F)

/-- Encode one 16-bit linear sample as A-law. -/
def linearToAlaw (pcm : Int16) : Option UInt8 := do
  let sign : UInt8 := if 0 ≤ pcm.toInt then ALAW_SIGN_BIT else 0
  let pcm ← if 0 ≤ pcm.toInt then some pcm.toInt else do i16 (-(← i16 (pcm.toInt + 1)))
  let (exponent, mantissa) := alawCode (max 0 (min pcm 32767)).toNat
  return (sign ||| (UInt8.ofNat exponent <<< ALAW_EXPONENT_SHIFT) ||| UInt8.ofNat mantissa) ^^^
    ALAW_EVEN_MASK

/-- Decode one A-law byte; nothing overflows. -/
def alawToLinear (alaw : UInt8) : Int16 :=
  let a := alaw ^^^ ALAW_EVEN_MASK
  let sign := a &&& ALAW_SIGN_BIT
  let exponent := (a &&& ALAW_EXPONENT_MASK) >>> ALAW_EXPONENT_SHIFT
  let mantissa := a &&& ALAW_MANTISSA_MASK
  let magnitude : Int :=
    if exponent = 0 then mantissa.toNat * 16 + 0x08
    else (mantissa.toNat * 16 + 0x108) * 2 ^ (exponent.toNat - 1)
  Int16.ofInt (if sign ≠ 0 then magnitude else -magnitude)

/-! ## streams -/

inductive G711Variant
  | pcmu
  | pcma
  deriving DecidableEq

namespace G711Variant

def encodeSample : G711Variant → Int16 → Option UInt8
  | pcmu => linearToUlaw
  | pcma => linearToAlaw

def decodeByte : G711Variant → UInt8 → Int16
  | pcmu => ulawToLinear
  | pcma => alawToLinear

/-- `encode_into` of the codec. -/
def encode (v : G711Variant) (samples : List Int16) : Option (List UInt8) :=
  samples.mapM v.encodeSample

/-- `decode_into` of the codec. -/
def decode (v : G711Variant) (payload : List UInt8) : List Int16 := payload.map v.decodeByte

end G711Variant

/-- PCMU to PCMA and back to PCMU. -/
def transcode (payload : List UInt8) : Option (List UInt8) := do
  let alaw ← G711Variant.pcma.encode (G711Variant.pcmu.decode payload)
  G711Variant.pcmu.encode (G711Variant.pcma.decode alaw)

/-- What the mixer hands the encoders: a sum, clipped. -/
def clipI32ToI16 (x : Int) : Int16 :=
  if 32767 < x then Int16.maxValue else if x < -32768 then Int16.minValue else Int16.ofInt x

/-! ## the bytes -/

/-- A μ-law byte from its fields. -/
def ulawByte (negative : Bool) (exponent mantissa : Nat) : UInt8 :=
  let sign : UInt8 := if negative then 0x80 else 0
  ~~~(sign ||| (UInt8.ofNat exponent <<< 4) ||| UInt8.ofNat mantissa)

/-- An A-law byte from its fields. -/
def alawByte (negative : Bool) (exponent mantissa : Nat) : UInt8 :=
  let sign : UInt8 := if negative then 0 else 0x80
  (sign ||| (UInt8.ofNat exponent <<< 4) ||| UInt8.ofNat mantissa) ^^^ 0x55

theorem ulawToLinear_ulawByte (negative : Bool) (exponent : Fin 8) (mantissa : Fin 16) :
    (ulawToLinear (ulawByte negative exponent mantissa)).toInt =
      (if negative then -1 else 1) * (((mantissa : Nat) * 8 + 132) * 2 ^ (exponent : Nat) - 132) := by
  revert negative exponent mantissa
  decide +kernel

theorem alawToLinear_alawByte (negative : Bool) (exponent : Fin 8) (mantissa : Fin 16) :
    (alawToLinear (alawByte negative exponent mantissa)).toInt =
      (if negative then -1 else 1) *
        (if (exponent : Nat) = 0 then (mantissa : Nat) * 16 + 8
          else ((mantissa : Nat) * 16 + 264) * 2 ^ ((exponent : Nat) - 1)) := by
  revert negative exponent mantissa
  decide +kernel

/-! ## the segment searches -/

variable {s t : Int} {n k mag : Nat}

theorem and_two_pow_eq_zero (h : n < 2 ^ (k + 1)) : n &&& 2 ^ k = 0 ↔ n < 2 ^ k := by
  rw [Nat.and_two_pow]
  constructor
  · intro hzero
    by_contra hlow
    rw [Nat.testBit_of_two_pow_le_and_two_pow_add_one_gt (Nat.not_lt.mp hlow) h] at hzero
    simp at hzero
  · intro hlow
    rw [Nat.testBit_lt_two_pow hlow]
    simp

theorem log2_eq (hlow : 2 ^ k ≤ n) (hhigh : n < 2 ^ (k + 1)) : n.log2 = k := by
  have hpos := Nat.two_pow_pos k
  exact (Nat.log2_eq_iff (by omega)).mpr ⟨hlow, hhigh⟩

theorem ulawExponent_eq {exponent : Nat} (hlow : 2 ^ 7 ≤ mag) (hhigh : mag < 2 ^ (exponent + 8)) :
    ulawExponent mag exponent (2 ^ (exponent + 7)) + 7 = mag.log2 ∧
      ulawExponent mag exponent (2 ^ (exponent + 7)) ≤ exponent := by
  induction exponent with
  | zero =>
    rw [ulawExponent, log2_eq hlow hhigh]
    exact ⟨rfl, Nat.le_refl 0⟩
  | succ exponent ih =>
    rw [ulawExponent]
    by_cases hbit : mag &&& 2 ^ (exponent + 1 + 7) = 0
    · have hbelow : mag < 2 ^ (exponent + 8) := (and_two_pow_eq_zero hhigh).mp hbit
      have hmask : 2 ^ (exponent + 1 + 7) >>> 1 = 2 ^ (exponent + 7) := by
        rw [Nat.shiftRight_eq_div_pow, Nat.pow_one, Nat.add_right_comm, Nat.pow_succ,
          Nat.mul_div_cancel _ (by decide)]
      rw [if_pos hbit, hmask]
      exact ⟨(ih hbelow).1, Nat.le_succ_of_le (ih hbelow).2⟩
    · have habove : 2 ^ (exponent + 8) ≤ mag :=
        Nat.not_lt.mp fun h => hbit ((and_two_pow_eq_zero hhigh).mpr h)
      rw [if_neg hbit, log2_eq habove hhigh]
      exact ⟨rfl, Nat.le_refl _⟩

theorem alawSegment_eq {scaled left : Nat} (hpos : 0 < scaled) (hleft : left ≤ 6)
    (hhigh : scaled < 2 ^ (left + 1)) :
    alawSegment scaled left = 7 - left + scaled.log2 ∧ alawSegment scaled left ≤ 7 := by
  induction left generalizing scaled with
  | zero =>
    obtain rfl : scaled = 1 := by omega
    exact ⟨rfl, Nat.le_refl 7⟩
  | succ left ih =>
    rw [alawSegment]
    by_cases hlarge : 1 < scaled
    · have hhalf : scaled >>> 1 = scaled / 2 := Nat.shiftRight_eq_div_pow scaled 1
      have hlog : scaled.log2 = (scaled / 2).log2 + 1 := by
        rw [Nat.log2_def, if_pos (Nat.succ_le_of_lt hlarge)]
      have hbelow : scaled / 2 < 2 ^ (left + 1) := by
        rw [Nat.pow_succ] at hhigh
        omega
      obtain ⟨hseg, hle⟩ := ih (by omega) (by omega) hbelow
      rw [if_pos hlarge, hhalf]
      exact ⟨by omega, hle⟩
    · obtain rfl : scaled = 1 := by omega
      rw [if_neg hlarge]
      exact ⟨rfl, Nat.sub_le 7 _⟩

/-! ## what a sample becomes -/

/-- What a magnitude with the bias becomes in μ-law. -/
def ulawLevel (mag : Nat) : Nat := quantise 3 4 mag

/-- What a magnitude becomes in A-law. -/
def alawLevel (mag : Nat) : Nat := quantise 4 4 mag

theorem mantissa_eq (n k : Nat) : (n >>> k) &&& 0x0F = n / 2 ^ k % 2 ^ 4 := by
  rw [Nat.shiftRight_eq_div_pow]
  exact Nat.and_two_pow_sub_one_eq_mod _ 4

theorem ulawLevel_eq (hlow : 2 ^ 7 ≤ mag) (hhigh : mag < 2 ^ 15) :
    ∃ (exponent : Fin 8) (mantissa : Fin 16), ulawExponent mag 7 0x4000 = exponent ∧
      (mag >>> ((exponent : Nat) + 3)) &&& 0x0F = mantissa ∧
      ((mantissa : Nat) * 8 + 132) * 2 ^ (exponent : Nat) = ulawLevel mag := by
  obtain ⟨hlog, hle⟩ : ulawExponent mag 7 0x4000 + 7 = mag.log2 ∧ ulawExponent mag 7 0x4000 ≤ 7 :=
    ulawExponent_eq hlow hhigh
  generalize ulawExponent mag 7 0x4000 = exponent at hlog hle
  refine ⟨⟨exponent, Nat.lt_succ_of_le hle⟩, ⟨mag / 2 ^ (exponent + 3) % 2 ^ 4, Nat.mod_lt _ (by decide)⟩,
    rfl, mantissa_eq _ _, ?_⟩
  rw [ulawLevel, quantise_eq_mantissa (k := exponent + 3) 4 (by omega) (by omega) (by omega)]
  dsimp only
  have hstep : 2 ^ (exponent + 3) = 2 ^ exponent * 8 := by rw [Nat.pow_add]
  have hhalf : 2 ^ exponent * 8 / 2 = 2 ^ exponent * 4 := by omega
  generalize mag / 2 ^ (exponent + 3) % 2 ^ 4 = mantissa
  rw [hstep, hhalf]
  ring

theorem alawLevel_eq (hhigh : mag < 2 ^ 15) :
    ∃ (exponent : Fin 8) (mantissa : Fin 16), alawCode mag = (↑exponent, ↑mantissa) ∧
      (if (exponent : Nat) = 0 then (mantissa : Nat) * 16 + 8
        else ((mantissa : Nat) * 16 + 264) * 2 ^ ((exponent : Nat) - 1)) = alawLevel mag := by
  unfold alawCode
  by_cases hsmall : mag < 256
  · have hlog : mag.log2 ≤ 7 := by
      have hmono := log2_mono (Nat.le_of_lt_succ hsmall)
      exact hmono
    have hstep : segmentStep 4 4 mag = 16 := by
      rw [segmentStep, Nat.max_eq_left (by omega)]
      rfl
    have hquot : mag / 16 % 16 = mag / 16 := Nat.mod_eq_of_lt (by omega)
    have hmantissa : (mag >>> 4) &&& 0x0F = mag / 16 := by
      rw [mantissa_eq]
      exact hquot
    refine ⟨0, ⟨mag / 16, by omega⟩, by rw [if_pos hsmall, hmantissa]; rfl, ?_⟩
    rw [alawLevel, quantise, hstep]
    rfl
  · have hscaled : mag >>> 8 = mag / 256 := Nat.shiftRight_eq_div_pow mag 8
    obtain ⟨hseg, hle⟩ : alawSegment (mag / 256) 6 = 7 - 6 + (mag / 256).log2 ∧
        alawSegment (mag / 256) 6 ≤ 7 := alawSegment_eq (by omega) (by omega) (by omega)
    have hlog : mag.log2 = (mag / 256).log2 + 8 := by
      have hdiv := Nat.log_div_base_pow 2 mag 8
      have hbig : 8 ≤ mag.log2 := by
        have hmono := log2_mono (Nat.not_lt.mp hsmall)
        exact hmono
      rw [← Nat.log2_eq_log_two, ← Nat.log2_eq_log_two] at hdiv
      have hpow : (2 : Nat) ^ 8 = 256 := rfl
      rw [hpow] at hdiv
      omega
    rw [if_neg hsmall]
    dsimp only
    rw [hscaled]
    generalize alawSegment (mag / 256) 6 = seg at hseg hle
    refine ⟨⟨seg, Nat.lt_succ_of_le hle⟩, ⟨mag / 2 ^ (seg + 3) % 2 ^ 4, Nat.mod_lt _ (by decide)⟩,
      congrArg (seg, ·) (mantissa_eq _ _), ?_⟩
    rw [alawLevel, quantise_eq_mantissa (k := seg + 3) 4 (by omega) (by omega) (by omega)]
    dsimp only
    rw [if_neg (by omega)]
    obtain ⟨e, rfl⟩ : ∃ e, seg = e + 1 := ⟨seg - 1, by omega⟩
    have hstep : 2 ^ (e + 1 + 3) = 2 ^ e * 16 := by rw [Nat.add_assoc, Nat.pow_add]
    have hhalf : 2 ^ e * 16 / 2 = 2 ^ e * 8 := by omega
    generalize mag / 2 ^ (e + 1 + 3) % 2 ^ 4 = mantissa
    rw [hstep, hhalf, Nat.add_sub_cancel]
    ring

/-- A magnitude that μ-law quantises: clipped, with the bias. -/
def biased (n : Nat) : Nat := min n 32635 + 132

/-- What a sample becomes in μ-law. -/
def ulawValue (s : Int) : Int :=
  (if s < 0 then -1 else 1) * ((ulawLevel (biased s.natAbs) : Int) - 132)

/-- What a sample becomes in A-law. -/
def alawValue (s : Int) : Int :=
  if 0 ≤ s then alawLevel s.toNat else -alawLevel (-(s + 1)).toNat

theorem i16_eq {x : Int} (hlow : -2 ^ 15 ≤ x) (hhigh : x < 2 ^ 15) : i16 x = some x :=
  if_pos ⟨hlow, hhigh⟩

theorem linearToUlaw_eq {s : Int16} (h : s ≠ Int16.minValue) :
    ∃ b, linearToUlaw s = some b ∧ (ulawToLinear b).toInt = ulawValue s.toInt := by
  have hlow := s.le_toInt
  have hhigh := s.toInt_lt
  have hmin : s.toInt ≠ -2 ^ 15 := fun heq => h (Int16.toInt_inj.mp heq)
  have habs : ulawMagnitude s.toInt = some (s.toInt.natAbs : Int) := by
    unfold ulawMagnitude
    by_cases hneg : s.toInt < 0
    · rw [if_pos hneg, i16_eq (by omega) (by omega)]
      exact congrArg some (by omega)
    · rw [if_neg hneg]
      exact congrArg some (by omega)
  have hmag : i16 ((if CLIP < (s.toInt.natAbs : Int) then CLIP else (s.toInt.natAbs : Int)) + BIAS) =
      some (biased s.toInt.natAbs : Int) := by
    have hclip : (if CLIP < (s.toInt.natAbs : Int) then CLIP else (s.toInt.natAbs : Int)) + BIAS =
        (biased s.toInt.natAbs : Int) := by
      unfold CLIP BIAS biased
      split <;> omega
    rw [hclip]
    exact i16_eq (by omega) (by unfold biased; omega)
  have hbiased : 2 ^ 7 ≤ biased s.toInt.natAbs ∧ biased s.toInt.natAbs < 2 ^ 15 := by
    unfold biased
    omega
  obtain ⟨exponent, mantissa, hexp, hman, hlevel⟩ := ulawLevel_eq hbiased.1 hbiased.2
  refine ⟨ulawByte (s.toInt < 0) exponent mantissa, ?_, ?_⟩
  · simp only [linearToUlaw, habs, hmag, hexp, hman, Option.bind_eq_bind, Option.bind_some,
      Option.pure_def, Int.toNat_natCast, ulawByte, decide_eq_true_eq]
  · rw [ulawToLinear_ulawByte, ulawValue, ← hlevel]
    simp only [decide_eq_true_eq]
    push_cast
    rfl

theorem linearToUlaw_min : linearToUlaw Int16.minValue = none := by decide

theorem linearToAlaw_eq (s : Int16) :
    ∃ b, linearToAlaw s = some b ∧ (alawToLinear b).toInt = alawValue s.toInt := by
  have hlow := s.le_toInt
  have hhigh := s.toInt_lt
  by_cases hpos : 0 ≤ s.toInt
  · have hmag : (max 0 (min s.toInt 32767)).toNat = s.toInt.toNat := by omega
    have hsmall : s.toInt.toNat < 2 ^ 15 := by omega
    obtain ⟨exponent, mantissa, hcode, hlevel⟩ := alawLevel_eq hsmall
    refine ⟨alawByte false exponent mantissa, ?_, ?_⟩
    · simp only [linearToAlaw, if_pos hpos, hmag, hcode, Option.bind_eq_bind, Option.bind_some,
        Option.pure_def]
      rfl
    · rw [alawToLinear_alawByte, alawValue, if_pos hpos, hlevel]
      exact Int.one_mul _
  · have hnext : i16 (s.toInt + 1) = some (s.toInt + 1) := i16_eq (by omega) (by omega)
    have hneg : i16 (-(s.toInt + 1)) = some (-(s.toInt + 1)) := i16_eq (by omega) (by omega)
    have hmag : (max 0 (min (-(s.toInt + 1)) 32767)).toNat = (-(s.toInt + 1)).toNat := by omega
    have hsmall : (-(s.toInt + 1)).toNat < 2 ^ 15 := by omega
    obtain ⟨exponent, mantissa, hcode, hlevel⟩ := alawLevel_eq hsmall
    refine ⟨alawByte true exponent mantissa, ?_, ?_⟩
    · simp only [linearToAlaw, if_neg hpos, hnext, hneg, hmag, hcode, Option.bind_eq_bind,
        Option.bind_some, Option.pure_def]
      rfl
    · rw [alawToLinear_alawByte, alawValue, if_neg hpos, hlevel]
      exact Int.neg_one_mul _

/-! ## order and error -/

theorem biased_mono {m : Nat} (h : m ≤ n) : biased m ≤ biased n := by
  unfold biased
  omega

theorem le_ulawLevel (n : Nat) : 132 ≤ ulawLevel (biased n) := by
  have hleast : ulawLevel 132 = 132 := by decide
  have hmono : ulawLevel 132 ≤ ulawLevel (biased n) := quantise_mono 4 (Nat.le_add_left _ _)
  omega

theorem ulawValue_mono (h : s ≤ t) : ulawValue s ≤ ulawValue t := by
  have hs := le_ulawLevel s.natAbs
  have ht := le_ulawLevel t.natAbs
  unfold ulawValue
  by_cases htneg : t < 0
  · have hlevel : ulawLevel (biased t.natAbs) ≤ ulawLevel (biased s.natAbs) :=
      quantise_mono 4 (biased_mono (by omega))
    rw [if_pos htneg, if_pos (by omega)]
    omega
  · rw [if_neg htneg]
    by_cases hsneg : s < 0
    · rw [if_pos hsneg]
      omega
    · have hlevel : ulawLevel (biased s.natAbs) ≤ ulawLevel (biased t.natAbs) :=
        quantise_mono 4 (biased_mono (by omega))
      rw [if_neg hsneg]
      omega

theorem alawValue_mono (h : s ≤ t) : alawValue s ≤ alawValue t := by
  unfold alawValue
  by_cases hs : 0 ≤ s
  · have hlevel : alawLevel s.toNat ≤ alawLevel t.toNat := quantise_mono 4 (by omega)
    rw [if_pos hs, if_pos (by omega)]
    omega
  · rw [if_neg hs]
    by_cases ht : 0 ≤ t
    · rw [if_pos ht]
      omega
    · have hlevel : alawLevel (-(t + 1)).toNat ≤ alawLevel (-(s + 1)).toNat :=
        quantise_mono 4 (by omega)
      rw [if_neg ht]
      omega

namespace G711Variant

def value : G711Variant → Int → Int
  | pcmu => ulawValue
  | pcma => alawValue

/-- Half the quantisation step of the segment a sample lies in. -/
def halfStep : G711Variant → Int → Nat
  | pcmu, s => segmentStep 3 4 (s.natAbs + 132) / 2
  | pcma, s => segmentStep 4 4 (if 0 ≤ s then s.toNat else (-(s + 1)).toNat) / 2

/-- The largest value a byte stands for. -/
def largest : G711Variant → Int
  | pcmu => 32124
  | pcma => 32256

/-- Within half a step; above the clipping level of μ-law, the distance to the largest
value. -/
def Near (v : G711Variant) (s t : Int) : Prop :=
  (t - s).natAbs ≤ v.halfStep s ∨
    v = .pcmu ∧ 32635 < s.natAbs ∧ (t - s).natAbs = s.natAbs - v.largest

theorem value_mono (v : G711Variant) {s t : Int} (h : s ≤ t) : v.value s ≤ v.value t := by
  cases v with
  | pcmu => exact ulawValue_mono h
  | pcma => exact alawValue_mono h

theorem near_ulawValue (s : Int) : Near .pcmu s (ulawValue s) := by
  by_cases hclip : s.natAbs ≤ 32635
  · left
    have hbiased : biased s.natAbs = s.natAbs + 132 := by
      unfold biased
      omega
    have hle := quantise_le 3 4 (s.natAbs + 132)
    have hlt := lt_quantise 4 (by decide : 0 < 3) (s.natAbs + 132)
    rw [ulawValue, ulawLevel, hbiased, halfStep]
    split <;> omega
  · right
    have hbiased : biased s.natAbs = 32767 := by
      unfold biased
      omega
    have hlevel : ulawLevel 32767 = 32256 := by decide
    refine ⟨rfl, Nat.not_le.mp hclip, ?_⟩
    rw [ulawValue, hbiased, hlevel, largest]
    split <;> omega

theorem near_alawValue (s : Int) : Near .pcma s (alawValue s) := by
  left
  rw [alawValue, alawLevel, alawLevel, halfStep]
  by_cases hs : 0 ≤ s
  · have hle := quantise_le 4 4 s.toNat
    have hlt := lt_quantise 4 (by decide : 0 < 4) s.toNat
    rw [if_pos hs, if_pos hs]
    omega
  · have hle := quantise_le 4 4 (-(s + 1)).toNat
    have hlt := lt_quantise 4 (by decide : 0 < 4) (-(s + 1)).toNat
    rw [if_neg hs, if_neg hs]
    omega

theorem near_value (v : G711Variant) (s : Int) : v.Near s (v.value s) := by
  cases v with
  | pcmu => exact near_ulawValue s
  | pcma => exact near_alawValue s

/-! ## streams of samples -/

/-- A sample the encoder takes. -/
def Takes (v : G711Variant) (s : Int16) : Prop := v = .pcma ∨ s ≠ Int16.minValue

variable {v : G711Variant} {samples : List Int16}

theorem encodeSample_eq {s : Int16} (h : v.Takes s) :
    ∃ b, v.encodeSample s = some b ∧ (v.decodeByte b).toInt = v.value s.toInt := by
  cases v with
  | pcmu => exact linearToUlaw_eq (h.resolve_left nofun)
  | pcma => exact linearToAlaw_eq s

theorem encode_cons (v : G711Variant) (s : Int16) (samples : List Int16) : v.encode (s :: samples) =
      (v.encodeSample s).bind fun b => (v.encode samples).map (b :: ·) := by
  rw [encode, List.mapM_cons, encode]
  cases v.encodeSample s with
  | none => rfl
  | some b => cases samples.mapM v.encodeSample <;> rfl

theorem encode_eq (h : ∀ s ∈ samples, v.Takes s) : ∃ bytes, v.encode samples = some bytes ∧
      List.Forall₂ (fun s t => t.toInt = v.value s.toInt) samples (v.decode bytes) := by
  induction samples with
  | nil => exact ⟨[], rfl, .nil⟩
  | cons s samples ih =>
    obtain ⟨hs, hrest⟩ := List.forall_mem_cons.mp h
    obtain ⟨b, hb, hvalue⟩ := encodeSample_eq hs
    obtain ⟨bytes, hbytes, hvalues⟩ := ih hrest
    exact ⟨b :: bytes, by rw [encode_cons, hb, hbytes]; rfl, .cons hvalue hvalues⟩

theorem takes_of_encode {bytes : List UInt8}
    (h : v.encode samples = some bytes) : ∀ s ∈ samples, v.Takes s := by
  induction samples generalizing bytes with
  | nil => exact fun s hs => absurd hs List.not_mem_nil
  | cons s samples ih =>
    rw [encode_cons, Option.bind_eq_some_iff] at h
    obtain ⟨b, hb, hrest⟩ := h
    obtain ⟨rest, hrest, -⟩ := Option.map_eq_some_iff.mp hrest
    refine List.forall_mem_cons.mpr ⟨?_, ih hrest⟩
    cases v with
    | pcma => exact .inl rfl
    | pcmu =>
      right
      rintro rfl
      exact absurd (linearToUlaw_min.symm.trans hb) (Option.some_ne_none b).symm

/-- The stream is encoded without overflow, in the order of the samples, and each one
comes back within its error. -/
def Compands (v : G711Variant) (samples : List Int16) : Prop :=
  ∃ bytes, v.encode samples = some bytes ∧ (v.decode bytes).length = samples.length ∧
    (∀ p ∈ samples.zip (v.decode bytes), ∀ q ∈ samples.zip (v.decode bytes),
      p.1 ≤ q.1 → p.2 ≤ q.2) ∧
    ∀ p ∈ samples.zip (v.decode bytes), v.Near p.1.toInt p.2.toInt

theorem compands_of_takes (h : ∀ s ∈ samples, v.Takes s) : v.Compands samples := by
  obtain ⟨bytes, hbytes, hvalues⟩ := encode_eq h
  obtain ⟨hlength, hzip⟩ := List.forall₂_iff_zip.mp hvalues
  refine ⟨bytes, hbytes, hlength.symm, ?_, ?_⟩
  · rintro ⟨s, t⟩ hp ⟨s', t'⟩ hq hle
    rw [Int16.le_iff_toInt_le] at hle ⊢
    rw [hzip hp, hzip hq]
    exact value_mono v hle
  · rintro ⟨s, t⟩ hp
    rw [hzip hp]
    exact near_value v s.toInt

/-! ## streams of bytes -/

/-- The byte that stands for the same sample; μ-law has two zeros. -/
def canonical : G711Variant → UInt8 → UInt8
  | pcmu, b => if b = 0x7F then 0xFF else b
  | pcma, b => b

theorem encodeSample_decodeByte (v : G711Variant) (b : UInt8) :
    v.encodeSample (v.decodeByte b) = some (v.canonical b) := by
  have hall : ∀ (v : G711Variant) (n : Fin 256), v.encodeSample (v.decodeByte (UInt8.ofNat n)) =
      some (v.canonical (UInt8.ofNat n)) := by
    intro v
    cases v <;> decide +kernel
  have hb := hall v ⟨b.toNat, b.toNat_lt⟩
  rwa [UInt8.ofNat_toNat] at hb

theorem encode_decode (v : G711Variant) (bytes : List UInt8) :
    v.encode (v.decode bytes) = some (bytes.map v.canonical) := by
  induction bytes with
  | nil => rfl
  | cons b bytes ih =>
    have hcons : v.decode (b :: bytes) = v.decodeByte b :: v.decode bytes := rfl
    rw [hcons, encode_cons, encodeSample_decodeByte, ih]
    rfl

end G711Variant

theorem transcode_byte (b : UInt8) :
    ∃ a o, linearToAlaw (ulawToLinear b) = some a ∧ linearToUlaw (alawToLinear a) = some o ∧
      ((ulawToLinear o).toInt - (ulawToLinear b).toInt).natAbs ≤ 8 := by
  have hall : ∀ n : Fin 256, ((linearToAlaw (ulawToLinear (UInt8.ofNat n))).bind fun a =>
      linearToUlaw (alawToLinear a)).any (fun o => decide
        (((ulawToLinear o).toInt - (ulawToLinear (UInt8.ofNat n)).toInt).natAbs ≤ 8)) = true := by
    decide +kernel
  have hb := hall ⟨b.toNat, b.toNat_lt⟩
  rw [UInt8.ofNat_toNat, Option.any_eq_true] at hb
  obtain ⟨o, ho, hnear⟩ := hb
  obtain ⟨a, ha, ho⟩ := Option.bind_eq_some_iff.mp ho
  exact ⟨a, o, ha, ho, of_decide_eq_true hnear⟩

theorem transcode_near (payload : List UInt8) : ∃ out, transcode payload = some out ∧ List.Forall₂
      (fun b o => ((ulawToLinear o).toInt - (ulawToLinear b).toInt).natAbs ≤ 8) payload out := by
  have hboth : ∃ alaw out, G711Variant.pcma.encode (G711Variant.pcmu.decode payload) = some alaw ∧
      G711Variant.pcmu.encode (G711Variant.pcma.decode alaw) = some out ∧ List.Forall₂
        (fun b o => ((ulawToLinear o).toInt - (ulawToLinear b).toInt).natAbs ≤ 8) payload out := by
    induction payload with
    | nil => exact ⟨[], [], rfl, rfl, .nil⟩
    | cons b payload ih =>
      obtain ⟨a, o, ha, ho, hnear⟩ := transcode_byte b
      obtain ⟨alaw, out, halaw, hout, hrest⟩ := ih
      have hpcma : G711Variant.pcma.encodeSample (ulawToLinear b) = some a := ha
      have hpcmu : G711Variant.pcmu.encodeSample (alawToLinear a) = some o := ho
      have hdecode : G711Variant.pcmu.decode (b :: payload) =
          ulawToLinear b :: G711Variant.pcmu.decode payload := rfl
      have hdecode' : G711Variant.pcma.decode (a :: alaw) =
          alawToLinear a :: G711Variant.pcma.decode alaw := rfl
      refine ⟨a :: alaw, o :: out, ?_, ?_, .cons hnear hrest⟩
      · rw [hdecode, G711Variant.encode_cons, hpcma, halaw]
        rfl
      · rw [hdecode', G711Variant.encode_cons, hpcmu, hout]
        rfl
  obtain ⟨alaw, out, halaw, hout, hnear⟩ := hboth
  refine ⟨out, ?_, hnear⟩
  rw [transcode, halaw]
  exact hout

/-- **G.711.**  A stream of samples is encoded without overflow, in order and within the
error of each sample exactly when the law is A-law or the stream does not hold the least
sample.  Every stream of bytes is decoded and encoded to itself, but for the two zeros of
μ-law, and moves by 8 at most on its way from μ-law through A-law and back. -/
theorem companded_iff (v : G711Variant) (samples : List Int16) :
    (v.Compands samples ↔ v = .pcma ∨ Int16.minValue ∉ samples) ∧
      (∀ bytes, v.encode (v.decode bytes) = some (bytes.map v.canonical)) ∧
      ∀ payload, ∃ out, transcode payload = some out ∧ List.Forall₂
        (fun b o => ((ulawToLinear o).toInt - (ulawToLinear b).toInt).natAbs ≤ 8) payload out := by
  refine ⟨?_, v.encode_decode, transcode_near⟩
  constructor
  · rintro ⟨bytes, hbytes, -⟩
    by_contra hnot
    obtain ⟨hlaw, hmem⟩ := not_or.mp hnot
    have htakes := G711Variant.takes_of_encode hbytes _ (not_not.mp hmem)
    exact htakes.elim hlaw (fun hne => hne rfl)
  · intro h
    refine G711Variant.compands_of_takes fun s hs => h.imp_right ?_
    rintro hnot rfl
    exact hnot hs

/-- The least sample overflows the μ-law encoder. -/
theorem least_sample_overflows :
    ¬ ∀ (v : G711Variant) (samples : List Int16), v.Compands samples := by
  intro h
  obtain ⟨bytes, hbytes, -⟩ := h .pcmu [Int16.minValue]
  have hnone : G711Variant.pcmu.encode [Int16.minValue] = none := by decide
  rw [hnone] at hbytes
  contradiction

end SmithsNet.Media.Companding
