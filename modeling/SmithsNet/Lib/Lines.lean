import Mathlib
import SmithsNet.Lib.Text

/-!
# SmithsNet.Lib.Lines

Texts made of lines and tokens, and reading them back.

* `Token` — what `split_whitespace` yields; `splitWhitespace_token_cons` takes
  one off the front of a line;
* `trim_eq_self`, `trim_trim` — trimmed texts;
* `splitOnceBy` — the first separator; `splitOnceBy_append`;
* `stripLead_append`, `stripLead_of_clash` — a keyword is found, another is not;
* `splitBy_lines` — a text of terminated lines;
* `parseUnsigned_showNat` — a number that was written.
-/

namespace SmithsNet.Lib

open List

/-- What all characters of a text are is decided on the text, and not by going
through all characters there are. -/
instance (p : Char → Prop) [DecidablePred p] (t : Text) : Decidable (∀ c ∈ t, p c) :=
  decidable_of_iff (t.all fun c => p c) (by simp only [all_eq_true, decide_eq_true_eq])

/-! ## splitting at separators -/

section Split

variable {α : Type} {p : α → Bool}

theorem splitByGo_eq (cur s : List α) : splitByGo p cur s = match splitByGo p [] s with
      | [] => []
      | x :: xs => (cur.reverse ++ x) :: xs := by
  induction s generalizing cur with
  | nil => simp [splitByGo]
  | cons c s ih =>
    simp only [splitByGo]
    split
    · simp
    · rw [ih (c :: cur), ih [c]]
      cases splitByGo p [] s <;> simp

theorem splitByGo_ne_nil (cur s : List α) : splitByGo p cur s ≠ [] := by
  induction s generalizing cur with
  | nil => simp [splitByGo]
  | cons c s ih =>
    simp only [splitByGo]
    split
    · simp
    · exact ih _

variable {x s : List α} {c : α}

theorem splitBy_of_forall (h : ∀ c ∈ x, p c = false) : splitBy p x = [x] := by
  induction x with
  | nil => rfl
  | cons c x ih =>
    obtain ⟨hc, hx⟩ := forall_mem_cons.mp h
    have hrest := ih hx
    unfold splitBy at hrest ⊢
    simp [splitByGo, hc, splitByGo_eq [c], hrest]

theorem splitBy_append (h : ∀ c ∈ x, p c = false) (hc : p c = true)
    (rest : List α) : splitBy p (x ++ c :: rest) = x :: splitBy p rest := by
  induction x with
  | nil => simp [splitBy, splitByGo, hc]
  | cons d x ih =>
    obtain ⟨hd, hx⟩ := forall_mem_cons.mp h
    have hrest := ih hx
    unfold splitBy at hrest ⊢
    simp [splitByGo, hd, splitByGo_eq [d], hrest]

theorem mem_splitByGo {cur : List α} (h : x ∈ splitByGo p cur s) (hcur : ∀ c ∈ cur, p c = false) :
    ∀ c ∈ x, p c = false ∧ (c ∈ cur ∨ c ∈ s) := by
  induction s generalizing cur with
  | nil =>
    obtain rfl := List.mem_singleton.mp h
    intro c hc
    have hmem := mem_reverse.mp hc
    exact ⟨hcur c hmem, .inl hmem⟩
  | cons d s ih =>
    simp only [splitByGo] at h
    split at h
    · obtain rfl | h := List.mem_cons.mp h
      · intro c hc
        have hmem := mem_reverse.mp hc
        exact ⟨hcur c hmem, .inl hmem⟩
      · intro c hc
        obtain ⟨hp, hin | hin⟩ := ih h (by simp) c hc
        · simp at hin
        · exact ⟨hp, .inr (mem_cons_of_mem _ hin)⟩
    · next hd =>
      intro c hc
      obtain ⟨hp, hin | hin⟩ := ih h (by simpa [hd] using hcur) c hc
      · obtain rfl | hin := List.mem_cons.mp hin
        · exact ⟨hp, .inr mem_cons_self⟩
        · exact ⟨hp, .inl hin⟩
      · exact ⟨hp, .inr (mem_cons_of_mem _ hin)⟩

theorem mem_splitBy (h : x ∈ splitBy p s) : ∀ c ∈ x, p c = false ∧ c ∈ s := by
  intro c hc
  obtain ⟨hp, hin | hin⟩ := mem_splitByGo h (by simp) c hc
  · simp at hin
  · exact ⟨hp, hin⟩

/-- `split_once` on a class of characters. -/
def splitOnceBy (p : α → Bool) (s : List α) : Option (List α × List α) :=
  match s.dropWhile fun c => !p c with
  | [] => none
  | _ :: rest => some (s.takeWhile fun c => !p c, rest)

theorem splitOnceBy_append (h : ∀ c ∈ x, p c = false) (hc : p c = true)
    (rest : List α) : splitOnceBy p (x ++ c :: rest) = some (x, rest) := by
  have hx : ∀ d ∈ x, (!p d) = true := by
    intro d hd
    rw [h d hd]
    rfl
  have hhead : ((!p c) = true) = False := by simp [hc]
  unfold splitOnceBy
  rw [dropWhile_append_of_pos hx, takeWhile_append_of_pos hx]
  simp [hc]

theorem splitOnceBy_of_forall (h : ∀ c ∈ x, p c = false) : splitOnceBy p x = none := by
  have hx : x.dropWhile (fun c => !p c) = [] := by
    rw [dropWhile_eq_nil_iff]
    intro c hc
    simp [h c hc]
  rw [splitOnceBy, hx]

theorem plain_of_splitOnceBy_none (h : splitOnceBy p s = none) : ∀ c ∈ s, p c = false := by
  unfold splitOnceBy at h
  split at h
  · next hdrop => simpa using List.dropWhile_eq_nil_iff.mp hdrop
  · contradiction

theorem splitOnceBy_eq_some {a b : List α} (h : splitOnceBy p s = some (a, b)) :
    ∃ c, p c = true ∧ s = a ++ c :: b ∧ ∀ d ∈ a, p d = false := by
  unfold splitOnceBy at h
  split at h
  · contradiction
  · next c rest hdrop =>
    cases h
    have hsplit := takeWhile_append_dropWhile (p := fun c => !p c) (l := s)
    rw [hdrop] at hsplit
    have hhead := head_dropWhile_not (fun c => !p c) (l := s) (by simp [hdrop])
    refine ⟨c, by simpa [hdrop] using hhead, hsplit.symm, ?_⟩
    intro d hd
    simpa using mem_takeWhile_imp hd

end Split

/-! ## keywords -/

section Keyword

variable {α : Type} [DecidableEq α]

@[simp] theorem stripLead_append (pat rest : List α) : stripLead pat (pat ++ rest) = some rest := by
  have hlead : pat.isPrefixOf (pat ++ rest) = true :=
    List.isPrefixOf_iff_prefix.mpr (prefix_append pat rest)
  simp [stripLead, hlead]

variable {pat word : List α}

theorem stripLead_eq_some {s rest : List α} (h : stripLead pat s = some rest) :
    s = pat ++ rest := by
  unfold stripLead at h
  split at h
  · next hlead =>
    obtain ⟨t, rfl⟩ := List.isPrefixOf_iff_prefix.mp hlead
    rw [drop_left, Option.some.injEq] at h
    rw [h]
  · contradiction

/-- The texts differ at some place that both have. -/
def clash (x y : List α) : Bool := (x.zip y).any fun e => decide (e.1 ≠ e.2)

theorem isPrefixOf_of_clash (h : clash pat word = true) (rest : List α) :
    pat.isPrefixOf (word ++ rest) = false := by
  induction pat generalizing word with
  | nil => simp [clash] at h
  | cons a pat ih =>
    cases word with
    | nil => simp [clash] at h
    | cons b word =>
      simp only [cons_append, isPrefixOf_cons_cons, Bool.and_eq_false_iff]
      by_cases hab : a = b
      · right
        apply ih
        simpa [clash, hab] using h
      · left
        simpa using hab

theorem stripLead_of_clash (h : clash pat word = true) (rest : List α) :
    stripLead pat (word ++ rest) = none := by
  simp [stripLead, isPrefixOf_of_clash h rest]

theorem append_eq_of_clash {x : List α} (h : clash x word = true) (rest : List α) :
    (word ++ rest = x) = False := by
  refine eq_false fun heq => ?_
  have hlead := isPrefixOf_of_clash h rest
  rw [heq, List.isPrefixOf_iff_prefix.mpr (prefix_refl x)] at hlead
  contradiction

end Keyword

/-! ## tokens -/

/-- A run of characters that are no white space. -/
structure Token (t : Text) : Prop where
  ne : t ≠ []
  plain : ∀ c ∈ t, isWhitespace c = false

variable {c : Char} {n : Nat} {t s u : Text} {α : Type}

theorem prefix_of_prefix_append_cons {x a b : List α} {c : α} (h : x <+: a ++ c :: b)
    (hc : c ∉ x) : x <+: a := by
  obtain hle | hle := Nat.le_total x.length a.length
  · exact prefix_of_prefix_length_le h (prefix_append a _) hle
  · obtain ⟨y, rfl⟩ := prefix_of_prefix_length_le (prefix_append a (c :: b)) h hle
    cases y with
    | nil => simp
    | cons d y =>
      obtain ⟨z, hz⟩ := h
      have hsame : d = c := by simpa using congrArg (fun l => l[a.length]?) hz
      exact absurd (by simp [hsame]) hc

theorem splitWhitespace_cons (h : isWhitespace c = true) (rest : Text) :
    splitWhitespace (c :: rest) = splitWhitespace rest := by
  have hsplit := splitBy_append (p := isWhitespace) (x := []) (by simp) h rest
  rw [nil_append] at hsplit
  simp [splitWhitespace, hsplit]

theorem splitWhitespace_token (h : Token t) : splitWhitespace t = [t] := by
  simp [splitWhitespace, splitBy_of_forall h.plain, h.ne]

theorem splitWhitespace_token_cons (h : Token t) (rest : Text) :
    splitWhitespace (t ++ ' ' :: rest) = t :: splitWhitespace rest := by
  have hsplit := splitBy_append h.plain (c := ' ') (by decide) rest
  simp [splitWhitespace, hsplit, h.ne]

/-- Tokens, each with a space before it. -/
def spaced (ts : List Text) : Text := ts.flatMap fun t => ' ' :: t

theorem splitWhitespace_token_spaced (h : Token t) {ts : List Text}
    (hts : ∀ u ∈ ts, Token u) : splitWhitespace (t ++ spaced ts) = t :: ts := by
  induction ts generalizing t with
  | nil => simpa [spaced] using splitWhitespace_token h
  | cons u ts ih =>
    obtain ⟨hu, hts⟩ := forall_mem_cons.mp hts
    have hrest : t ++ spaced (u :: ts) = t ++ ' ' :: (u ++ spaced ts) := by simp [spaced]
    rw [hrest, splitWhitespace_token_cons h, ih hu hts]

theorem token_of_mem (h : t ∈ splitWhitespace s) : Token t := by
  obtain ⟨hmem, hne⟩ := List.mem_filter.mp h
  exact ⟨by simpa using hne, fun c hc => (mem_splitBy hmem c hc).1⟩

/-! ## trimming -/

theorem mem_trim (h : c ∈ trim s) : c ∈ s := by
  have h₁ := mem_reverse.mp h
  have h₂ := mem_reverse.mp (dropWhile_sublist _ |>.mem h₁)
  exact dropWhile_sublist _ |>.mem h₂

theorem trim_eq_self (hhead : ∀ c, s.head? = some c → isWhitespace c = false)
    (hlast : ∀ c, s.getLast? = some c → isWhitespace c = false) : trim s = s := by
  have hkeep : ∀ t : Text, (∀ c, t.head? = some c → isWhitespace c = false) →
      t.dropWhile isWhitespace = t := by
    intro t ht
    cases t with
    | nil => rfl
    | cons c t => simp [ht c rfl]
  unfold trim
  rw [hkeep s hhead, hkeep s.reverse (by simpa using hlast), reverse_reverse]

theorem ends_of_trim (s : Text) : (∀ c, (trim s).head? = some c → isWhitespace c = false) ∧
      ∀ c, (trim s).getLast? = some c → isWhitespace c = false := by
  have hfirst : ∀ (t : Text) c, (t.dropWhile isWhitespace).head? = some c → isWhitespace c = false := by
    intro t c hc
    have hnot := head?_dropWhile_not isWhitespace t
    rw [hc] at hnot
    simpa using hnot
  refine ⟨?_, ?_⟩
  · intro c hc
    -- what is left is a front part of a text that starts well
    have hsplit := takeWhile_append_dropWhile (p := isWhitespace)
      (l := (s.dropWhile isWhitespace).reverse)
    have hrev : s.dropWhile isWhitespace = trim s ++
        ((s.dropWhile isWhitespace).reverse.takeWhile isWhitespace).reverse := by
      unfold trim
      rw [← reverse_append, hsplit, reverse_reverse]
    apply hfirst s c
    rw [hrev, head?_append, hc]
    rfl
  · intro c hc
    apply hfirst (s.dropWhile isWhitespace).reverse c
    simpa [trim] using hc

@[simp] theorem trim_trim (s : Text) : trim (trim s) = trim s :=
  trim_eq_self (ends_of_trim s).1 (ends_of_trim s).2

theorem trim_token (h : Token t) : trim t = t :=
  trim_eq_self (fun c hc => h.plain c (mem_of_head? hc))
    fun c hc => h.plain c (mem_of_getLast? hc)

theorem trim_append_token (h : Token t) (rest : Text) : ∃ rest', trim (t ++ rest) = t ++ rest' := by
  have hkeep : ∀ u v : Text, Token u → (u ++ v).dropWhile isWhitespace = u ++ v := by
    intro u v hu
    obtain ⟨d, u', rfl⟩ := exists_cons_of_ne_nil hu.ne
    simp [hu.plain d (by simp)]
  have hback : Token t.reverse := ⟨by simpa using h.ne, by simpa using h.plain⟩
  have hsame := hkeep t.reverse [] hback
  rw [append_nil] at hsame
  refine ⟨(rest.reverse.dropWhile isWhitespace).reverse, ?_⟩
  unfold trim
  rw [hkeep t rest h, reverse_append, dropWhile_append]
  split
  · next hnil => rw [hsame, List.isEmpty_iff.mp hnil, reverse_reverse, reverse_nil, append_nil]
  · rw [reverse_append, reverse_reverse]

theorem trim_token_append (ht : Token t) (hne : u ≠ [])
    (hlast : ∀ c, u.getLast? = some c → isWhitespace c = false) :
    trim (t ++ ' ' :: u) = t ++ ' ' :: u := by
  apply trim_eq_self
  · intro c hc
    obtain ⟨d, t', rfl⟩ := exists_cons_of_ne_nil ht.ne
    obtain rfl : d = c := by simpa using hc
    exact ht.plain d mem_cons_self
  · intro c hc
    obtain ⟨d, u', rfl⟩ := exists_cons_of_ne_nil hne
    apply hlast
    simpa [getLast?_append, getLast?_cons_cons] using hc

theorem last_of_trim_eq (h : trim u = u) : ∀ c, u.getLast? = some c → isWhitespace c = false := by
  have hends := (ends_of_trim u).2
  rwa [h] at hends

theorem white_of_trim_eq_nil (h : trim s = []) : ∀ c ∈ s, isWhitespace c = true := by
  have hrest : ∀ c ∈ s.dropWhile isWhitespace, isWhitespace c = true := by
    have hnil := List.dropWhile_eq_nil_iff.mp (List.reverse_eq_nil_iff.mp h)
    intro c hc
    exact hnil c (mem_reverse.mpr hc)
  have hsplit := takeWhile_append_dropWhile (p := isWhitespace) (l := s)
  intro c hc
  rw [← hsplit] at hc
  obtain hc | hc := List.mem_append.mp hc
  · exact mem_takeWhile_imp hc
  · exact hrest c hc

/-- Splitting a trimmed text at its first white space: a token, and what is left
is not all white. -/
theorem splitOnceBy_trim {a b : Text} (h : splitOnceBy isWhitespace (trim s) = some (a, b)) :
    Token a ∧ trim b ≠ [] := by
  obtain ⟨c, hc, hs, ha⟩ := splitOnceBy_eq_some h
  obtain ⟨hhead, hlast⟩ := ends_of_trim s
  rw [hs] at hhead hlast
  refine ⟨⟨?_, ha⟩, ?_⟩
  · intro hnil
    have := hhead c (by simp [hnil])
    rw [this] at hc
    contradiction
  · intro hnil
    have hwhite : ∀ d ∈ c :: b, isWhitespace d = true :=
      forall_mem_cons.mpr ⟨hc, white_of_trim_eq_nil hnil⟩
    have hd := hlast ((c :: b).getLast (by simp)) (by simp [getLast?_eq_some_getLast])
    rw [hwhite _ (getLast_mem _)] at hd
    contradiction

/-! ## white space around a text -/

/-- Only white space. -/
def White (s : Text) : Prop := ∀ c ∈ s, isWhitespace c = true

theorem white_nil : White [] := by
  intro c hc
  cases hc

theorem White.not_mem (h : White s) (hc : isWhitespace c = false) : c ∉ s := by
  intro hin
  rw [h c hin] at hc
  cases hc

theorem dropWhile_white (h : White s) (rest : Text) :
    (s ++ rest).dropWhile isWhitespace = rest.dropWhile isWhitespace := by
  induction s with
  | nil => rfl
  | cons c s ih =>
    rw [cons_append, dropWhile_cons_of_pos (h c mem_cons_self)]
    exact ih fun c hc => h c (mem_cons_of_mem _ hc)

/-- A text that starts and ends with no white space. -/
structure Edged (s : Text) : Prop where
  ne : s ≠ []
  first : ∀ c, s.head? = some c → isWhitespace c = false
  last : ∀ c, s.getLast? = some c → isWhitespace c = false

theorem Edged.trim {before after : Text} (h : Edged s) (hbefore : White before) (hafter : White after) :
    trim (before ++ (s ++ after)) = s := by
  have hkeep : ∀ {t : Text} (rest : Text), t ≠ [] → (∀ c, t.head? = some c → isWhitespace c = false) →
      (t ++ rest).dropWhile isWhitespace = t ++ rest := by
    intro t rest hne hfirst
    obtain ⟨c, t, rfl⟩ := exists_cons_of_ne_nil hne
    rw [cons_append, dropWhile_cons_of_neg (by rw [hfirst c rfl]; exact Bool.false_ne_true)]
  have hback : White after.reverse := fun c hc => hafter c (mem_reverse.mp hc)
  unfold Lib.trim
  rw [dropWhile_white hbefore, hkeep after h.ne h.first, reverse_append, dropWhile_white hback]
  have hend := hkeep [] (t := s.reverse) (by simpa using h.ne) (by simpa using h.last)
  rw [append_nil] at hend
  rw [hend, reverse_reverse]

theorem edged_of_token (h : Token t) : Edged t :=
  ⟨h.ne, fun c hc => h.plain c (mem_of_head? hc), fun c hc => h.plain c (mem_of_getLast? hc)⟩

theorem Edged.append (hs : Edged s) (hu : Edged u) (mid : Text) : Edged (s ++ (mid ++ u)) := by
  refine ⟨append_ne_nil_of_left_ne_nil hs.ne _, ?_, ?_⟩
  · intro c hc
    rw [head?_append_of_ne_nil _ hs.ne] at hc
    exact hs.first c hc
  · intro c hc
    rw [← append_assoc, getLast?_append_of_ne_nil _ hu.ne] at hc
    exact hu.last c hc

/-! ## lines -/

/-- `trim_end_matches` for one character. -/
def trimEndMatches (c : Char) (s : Text) : Text := (s.reverse.dropWhile (· == c)).reverse

theorem trimEndMatches_of_ne (h : s.getLast? ≠ some c) : trimEndMatches c s = s := by
  unfold trimEndMatches
  cases hs : s.reverse with
  | nil => simpa using hs.symm
  | cons d t =>
    have hd : d ≠ c := by
      rintro rfl
      apply h
      rw [← head?_reverse, hs]
      rfl
    rw [dropWhile_cons_of_neg (by simpa using hd), ← hs, reverse_reverse]

theorem trimEndMatches_append (h : s.getLast? ≠ some c) : trimEndMatches c (s ++ [c]) = s := by
  have hrest := trimEndMatches_of_ne h
  unfold trimEndMatches at hrest ⊢
  simpa using hrest

theorem trimEndMatches_spec (c : Char) (s : Text) :
    (trimEndMatches c s).getLast? ≠ some c ∧ ∀ d ∈ trimEndMatches c s, d ∈ s := by
  refine ⟨?_, ?_⟩
  · unfold trimEndMatches
    rw [getLast?_reverse]
    intro h
    have hnot := head?_dropWhile_not (· == c) s.reverse
    rw [h] at hnot
    simp at hnot
  · intro d hd
    exact mem_reverse.mp (dropWhile_sublist _ |>.mem (mem_reverse.mp hd))

theorem splitBy_lines {p : α → Bool} {c : α} (hc : p c = true) {ls : List (List α)}
    (h : ∀ l ∈ ls, ∀ d ∈ l, p d = false) :
    splitBy p (ls.flatMap fun l => l ++ [c]) = ls ++ [[]] := by
  induction ls with
  | nil => rfl
  | cons l ls ih =>
    obtain ⟨hl, hls⟩ := forall_mem_cons.mp h
    rw [flatMap_cons, append_assoc, singleton_append, splitBy_append hl hc, ih hls]
    rfl

/-! ## numbers -/

/-- A number in decimal digits. -/
def showNat (n : Nat) : Text := Nat.toDigits 10 n

theorem digit_of_mem_showNat (h : c ∈ showNat n) : c.isDigit = true :=
  Nat.isDigit_of_mem_toDigits (by decide) (by decide) h

theorem isWhitespace_of_isDigit (h : c.isDigit = true) : isWhitespace c = false := by
  simp only [Char.isDigit, Bool.and_eq_true, decide_eq_true_eq] at h
  have hlow : 48 ≤ c.toNat := h.1
  have hhigh : c.toNat ≤ 57 := h.2
  simp only [isWhitespace, Bool.or_eq_false_iff, Bool.and_eq_false_iff, decide_eq_false_iff_not,
    beq_eq_false_iff_ne]
  omega

theorem token_showNat (n : Nat) : Token (showNat n) :=
  ⟨Nat.toDigits_ne_nil, fun _ hc => isWhitespace_of_isDigit (digit_of_mem_showNat hc)⟩

theorem digitVal_of_isDigit (h : c.isDigit = true) :
    digitVal 10 c = some (c.toNat - '0'.toNat) := by
  simp only [Char.isDigit, Bool.and_eq_true, decide_eq_true_eq] at h
  have hlow : '0' ≤ c := h.1
  have hhigh : c ≤ '9' := h.2
  have hval : c.toNat ≤ 57 := h.2
  simp only [digitVal, hlow, hhigh, and_self, if_true]
  rw [if_pos]
  have hzero : '0'.toNat = 48 := rfl
  omega

theorem digitsVal_eq_ofDigitChars (acc : Nat) (h : ∀ c ∈ s, c.isDigit = true) :
    digitsVal 10 acc s = some (Nat.ofDigitChars 10 s acc) := by
  induction s generalizing acc with
  | nil => rfl
  | cons c s ih =>
    obtain ⟨hc, hs⟩ := forall_mem_cons.mp h
    rw [digitsVal, digitVal_of_isDigit hc, Option.bind_some, ih _ hs]
    simp [Nat.ofDigitChars, Nat.mul_comm]

theorem parseUnsigned_showNat {bits : Nat} (h : n < 2 ^ bits) :
    parseUnsigned bits (showNat n) = some n := by
  have hdigits : ∀ c ∈ showNat n, c.isDigit = true := fun _ => digit_of_mem_showNat
  have hplus : (showNat n).head? ≠ some '+' := by
    intro hhead
    have := hdigits '+' (mem_of_head? hhead)
    contradiction
  have hvalue : digitsVal 10 0 (showNat n) = some n := by
    rw [digitsVal_eq_ofDigitChars 0 hdigits]
    exact congrArg some Nat.ofDigitChars_ten_toDigits
  have hne : (showNat n).isEmpty = false := by
    simpa using (token_showNat n).ne
  simp [parseUnsigned, fromStrRadix, hplus, hne, hvalue, h]

/-! ## letter case -/

theorem toNat_ofNat (h : n < 0xD800) : (Char.ofNat n).toNat = n := by
  have hvalid : n.isValidChar := .inl h
  rw [Char.ofNat, dif_pos hvalid]
  rfl

theorem asciiLower_cases (c : Char) :
    (65 ≤ c.toNat ∧ c.toNat ≤ 90 ∧ (asciiLower c).toNat = c.toNat + 32 ∧
        asciiLower c = Char.ofNat (c.toNat + 32)) ∨
      (¬ (65 ≤ c.toNat ∧ c.toNat ≤ 90) ∧ asciiLower c = c) := by
  unfold asciiLower
  split
  · next h =>
    have hlow : 65 ≤ c.toNat := h.1
    have hhigh : c.toNat ≤ 90 := h.2
    exact .inl ⟨hlow, hhigh, toNat_ofNat (by omega), rfl⟩
  · next h => exact .inr ⟨h, rfl⟩

theorem asciiUpper_cases (c : Char) :
    (97 ≤ c.toNat ∧ c.toNat ≤ 122 ∧ (asciiUpper c).toNat = c.toNat - 32 ∧
        asciiUpper c = Char.ofNat (c.toNat - 32)) ∨
      (¬ (97 ≤ c.toNat ∧ c.toNat ≤ 122) ∧ asciiUpper c = c) := by
  unfold asciiUpper
  split
  · next h =>
    have hlow : 97 ≤ c.toNat := h.1
    have hhigh : c.toNat ≤ 122 := h.2
    exact .inl ⟨hlow, hhigh, toNat_ofNat (by omega), rfl⟩
  · next h => exact .inr ⟨h, rfl⟩

theorem asciiUpper_asciiLower (c : Char) : asciiUpper (asciiLower c) = asciiUpper c := by
  obtain ⟨hlow, hhigh, hval, -⟩ | ⟨-, hsame⟩ := asciiLower_cases c
  · obtain ⟨-, -, -, hup⟩ | ⟨hout, -⟩ := asciiUpper_cases (asciiLower c)
    · obtain ⟨hin, -⟩ | ⟨-, hself⟩ := asciiUpper_cases c
      · omega
      · rw [hup, hval, hself, Nat.add_sub_cancel, Char.ofNat_toNat]
    · omega
  · rw [hsame]

theorem asciiLower_asciiUpper (c : Char) : asciiLower (asciiUpper c) = asciiLower c := by
  obtain ⟨hlow, hhigh, hval, -⟩ | ⟨-, hsame⟩ := asciiUpper_cases c
  · obtain ⟨-, -, -, hdown⟩ | ⟨hout, -⟩ := asciiLower_cases (asciiUpper c)
    · obtain ⟨-, hin, -⟩ | ⟨-, hself⟩ := asciiLower_cases c
      · omega
      · rw [hdown, hval, hself, Nat.sub_add_cancel (by omega), Char.ofNat_toNat]
    · omega
  · rw [hsame]

theorem asciiLower_asciiLower (c : Char) : asciiLower (asciiLower c) = asciiLower c := by
  obtain ⟨hlow, hhigh, hval, -⟩ | ⟨-, hsame⟩ := asciiLower_cases c
  · obtain ⟨-, hin, -⟩ | ⟨-, hself⟩ := asciiLower_cases (asciiLower c)
    · omega
    · exact hself
  · rw [hsame, hsame]

theorem eqIgnoreAsciiCase_iff (s t : Text) :
    eqIgnoreAsciiCase s t = true ↔ toAsciiUppercase s = toAsciiUppercase t := by
  have hup : ∀ u, toAsciiUppercase (toAsciiLowercase u) = toAsciiUppercase u := by
    intro u
    simp [toAsciiUppercase, toAsciiLowercase, asciiUpper_asciiLower]
  have hdown : ∀ u, toAsciiLowercase (toAsciiUppercase u) = toAsciiLowercase u := by
    intro u
    simp [toAsciiUppercase, toAsciiLowercase, asciiLower_asciiUpper]
  simp only [eqIgnoreAsciiCase, beq_iff_eq]
  constructor
  · intro h
    rw [← hup s, h, hup]
  · intro h
    rw [← hdown s, h, hdown]

end SmithsNet.Lib
