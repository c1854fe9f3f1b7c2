import Mathlib

/-!
# SmithsNet.Lib.Text

The string and slice operations the parsers are written with, on lists: text
is `List Char`, raw data is `List UInt8`.  Search and splitting are generic in
the element, so the same definitions serve the byte-level framer and the
text-level header readers.

Every function follows the documented behaviour of its standard-library
namesake (first match wins, `split` keeps empty pieces, `split_whitespace`
drops them, `trim` removes Unicode `White_Space`, unsigned `parse` accepts one
leading `+`).
-/

namespace SmithsNet.Lib

/-- Raw data. -/
abbrev Bytes := List UInt8

/-- Decoded text. -/
abbrev Text := List Char

/-- A literal is `String.ofList` of its characters, so that they need not be decoded one by
one. -/
theorem map_ofList_cons {l : Text} {ss : List String} {ls : List Text} (hs : ss.map String.toList = ls) :
    (String.ofList l :: ss).map String.toList = l :: ls := by
  rw [List.map_cons, String.toList_ofList, hs]

/-! ## searching and splitting -/

section Search

variable {α : Type} [DecidableEq α]

/-- Index of the first occurrence of `pat`. -/
def findSub (pat : List α) : List α → Option Nat
  | [] => if pat.isEmpty then some 0 else none
  | x :: xs => if pat.isPrefixOf (x :: xs) then some 0 else (findSub pat xs).map (· + 1)

/-- `split_once`: the text before and after the first occurrence of `pat`. -/
def splitOnce (pat s : List α) : Option (List α × List α) :=
  (findSub pat s).map fun i => (s.take i, s.drop (i + pat.length))

/-- Worker of `splitSub`: `skip` counts the elements of a matched separator
still to be dropped, `cur` is the current piece, reversed. -/
def splitGo (pat : List α) (skip : Nat) (cur : List α) : List α → List (List α)
  | [] => [cur.reverse]
  | x :: xs =>
    match skip with
    | k + 1 => splitGo pat k cur xs
    | 0 =>
      if pat.isPrefixOf (x :: xs) then cur.reverse :: splitGo pat (pat.length - 1) [] xs
      else splitGo pat 0 (x :: cur) xs

/-- `split`: the pieces between the occurrences of a non-empty separator. -/
def splitSub (pat s : List α) : List (List α) := splitGo pat 0 [] s

/-- Worker of `splitBy`. -/
def splitByGo (p : α → Bool) (cur : List α) : List α → List (List α)
  | [] => [cur.reverse]
  | x :: xs => if p x then cur.reverse :: splitByGo p [] xs else splitByGo p (x :: cur) xs

/-- `split` on every element that satisfies `p`. -/
def splitBy (p : α → Bool) (s : List α) : List (List α) := splitByGo p [] s

/-- `strip_prefix`: what follows `pat` when the text starts with it. -/
def stripLead (pat s : List α) : Option (List α) :=
  if pat.isPrefixOf s then some (s.drop pat.length) else none

end Search

/-! ## characters -/

/-- The Unicode `White_Space` property (`char::is_whitespace`). -/
def isWhitespace (c : Char) : Bool :=
  let n := c.toNat
  (9 ≤ n && n ≤ 13) || n == 0x20 || n == 0x85 || n == 0xA0 || n == 0x1680 ||
    (0x2000 ≤ n && n ≤ 0x200A) || n == 0x2028 || n == 0x2029 || n == 0x202F ||
    n == 0x205F || n == 0x3000

/-- `to_ascii_lowercase` on one character. -/
def asciiLower (c : Char) : Char :=
  if 'A' ≤ c ∧ c ≤ 'Z' then Char.ofNat (c.toNat + 32) else c

/-- `to_ascii_uppercase` on one character. -/
def asciiUpper (c : Char) : Char :=
  if 'a' ≤ c ∧ c ≤ 'z' then Char.ofNat (c.toNat - 32) else c

def toAsciiLowercase (s : Text) : Text := s.map asciiLower

def toAsciiUppercase (s : Text) : Text := s.map asciiUpper

def eqIgnoreAsciiCase (a b : Text) : Bool := toAsciiLowercase a == toAsciiLowercase b

/-- `trim`: no white space at either end. -/
def trim (s : Text) : Text := ((s.dropWhile isWhitespace).reverse.dropWhile isWhitespace).reverse

/-- `split_whitespace`: the maximal runs of non-white characters. -/
def splitWhitespace (s : Text) : List Text := (splitBy isWhitespace s).filter (! ·.isEmpty)

/-! ## numbers -/

/-- Value of one digit in `radix` (at most 16). -/
def digitVal (radix : Nat) (c : Char) : Option Nat :=
  let v :=
    if '0' ≤ c ∧ c ≤ '9' then c.toNat - '0'.toNat
    else if 'a' ≤ c ∧ c ≤ 'f' then c.toNat - 'a'.toNat + 10
    else if 'A' ≤ c ∧ c ≤ 'F' then c.toNat - 'A'.toNat + 10
    else 16
  if v < radix then some v else none

/-- Value of a digit string, most significant digit first; `none` on a
character that is no digit. -/
def digitsVal (radix : Nat) (acc : Nat) : Text → Option Nat
  | [] => some acc
  | c :: cs => (digitVal radix c).bind fun d => digitsVal radix (acc * radix + d) cs

/-- `from_str_radix` for an unsigned type of `bits` bits: one optional `+`,
at least one digit, no overflow. -/
def fromStrRadix (bits radix : Nat) (s : Text) : Option Nat :=
  let ds := if s.head? = some '+' then s.tail else s
  if ds.isEmpty then none
  else (digitsVal radix 0 ds).filter (· < 2 ^ bits)

/-- `parse` for an unsigned type of `bits` bits. -/
def parseUnsigned (bits : Nat) (s : Text) : Option Nat := fromStrRadix bits 10 s

theorem parseUnsigned_lt {bits n : Nat} {s : Text} (h : parseUnsigned bits s = some n) : n < 2 ^ bits := by
  unfold parseUnsigned fromStrRadix at h
  generalize (if s.head? = some '+' then s.tail else s) = ds at h
  simp only at h
  split at h
  · cases h
  · exact of_decide_eq_true (Option.filter_eq_some_iff.mp h).2

/-! ## UTF-8 -/

/-- `str::from_utf8`. -/
def fromUtf8 (bs : Bytes) : Option Text :=
  (String.fromUTF8? ⟨bs.toArray⟩).map String.toList

/-- `str::as_bytes`. -/
def toUtf8 (s : Text) : Bytes := (String.ofList s).toByteArray.data.toList

/-! ## what a found occurrence means -/

section Lemmas

variable {α : Type} [DecidableEq α]

theorem eq_append_of_findSub {pat s : List α} {i : Nat} (h : findSub pat s = some i) :
    s = s.take i ++ pat ++ s.drop (i + pat.length) ∧ i + pat.length ≤ s.length := by
  induction s generalizing i with
  | nil =>
    simp only [findSub] at h
    split at h
    · next hp =>
      simp only [Option.some.injEq] at h
      subst h
      simp [List.isEmpty_iff.mp hp]
    · contradiction
  | cons x xs ih =>
    simp only [findSub] at h
    split at h
    · next hp =>
      simp only [Option.some.injEq] at h
      subst h
      obtain ⟨t, ht⟩ := List.isPrefixOf_iff_prefix.mp hp
      rw [← ht]
      simp
    · cases hf : findSub pat xs with
      | none => simp [hf] at h
      | some j =>
        simp only [hf, Option.map_some, Option.some.injEq] at h
        subst h
        obtain ⟨he, hl⟩ := ih hf
        constructor
        · have hd : j + 1 + pat.length = (j + pat.length) + 1 := by omega
          rw [hd, List.take_succ_cons, List.drop_succ_cons, List.cons_append,
            List.cons_append, ← he]
        · simp only [List.length_cons]
          omega

theorem findSub_append {pat s : List α} {i : Nat} (h : findSub pat s = some i)
    (rest : List α) : findSub pat (s ++ rest) = some i := by
  induction s generalizing i with
  | nil =>
    simp only [findSub] at h
    split at h
    · next hp =>
      have hnil : pat = [] := List.isEmpty_iff.mp hp
      subst hnil
      cases rest <;> simpa [findSub] using h
    · contradiction
  | cons x xs ih =>
    simp only [findSub] at h
    rw [List.cons_append]
    split at h
    · next hp =>
      have hp' : pat.isPrefixOf (x :: (xs ++ rest)) = true := by
        obtain ⟨t, ht⟩ := List.isPrefixOf_iff_prefix.mp hp
        rw [List.isPrefixOf_iff_prefix]
        exact ⟨t ++ rest, by rw [← List.append_assoc, ht, List.cons_append]⟩
      simpa [findSub, hp'] using h
    · next hp =>
      cases hf : findSub pat xs with
      | none => simp [hf] at h
      | some j =>
        simp only [hf, Option.map_some, Option.some.injEq] at h
        have hlen := (eq_append_of_findSub hf).2
        have hp' : pat.isPrefixOf (x :: (xs ++ rest)) = false := by
          by_contra hc
          rw [Bool.not_eq_false, List.isPrefixOf_iff_prefix] at hc
          apply hp
          rw [List.isPrefixOf_iff_prefix]
          refine List.prefix_of_prefix_length_le hc
            ⟨rest, (List.cons_append).symm ▸ rfl⟩ ?_
          simp only [List.length_cons]
          omega
        simp [findSub, hp', ih hf, h]

end Lemmas

end SmithsNet.Lib
