import Mathlib.Algebra.Field.Rat
import Mathlib.Data.List.Basic
import Gateway.Lib.Text

/-!
# Decimal numerals

The numerals `[-+]?(\d+(\.\d*)?|\.\d+)([eE][-+]?\d+)?` with ASCII digits: their value as a
rational, the longest one at the beginning of a text, and the text of one.

## Key results

- `scan_append`: a numeral ends before a character that cannot go on with it
- `scan_text`: the text of a numeral is read back, however wide its power of ten is written
-/

namespace Text

variable {p : Char → Bool}

/-- A text that stops at `rest`, whatever comes before. -/
theorem takeWhile_append_rest {rest : Text} (h : ∀ c, rest.head? = some c → p c = false)
    (t : Text) : (t ++ rest).takeWhile p = t.takeWhile p := by
  induction t with
  | nil =>
    cases rest with
    | nil => rfl
    | cons c rest => rw [List.nil_append, List.takeWhile_cons_of_neg (by simp [h c rfl])]; rfl
  | cons c t ih =>
    rw [List.cons_append, List.takeWhile_cons, List.takeWhile_cons, ih]

theorem dropWhile_append_rest {rest : Text} (h : ∀ c, rest.head? = some c → p c = false)
    (t : Text) : (t ++ rest).dropWhile p = t.dropWhile p ++ rest := by
  induction t with
  | nil =>
    cases rest with
    | nil => rfl
    | cons c rest => rw [List.nil_append, List.dropWhile_cons_of_neg (by simp [h c rfl])]; rfl
  | cons c t ih =>
    rw [List.cons_append, List.dropWhile_cons, List.dropWhile_cons, ih]
    split <;> rfl

end Text

/-- The parts of a decimal numeral: its sign, the digits before and after the point, and the
    power of ten. -/
structure Numeral where
  negative : Bool
  whole : Text
  fraction : Text
  exponent : Int
deriving DecidableEq

namespace Numeral

/-- The number a numeral denotes. -/
def value (n : Numeral) : Rat :=
  (if n.negative then -1 else 1) * Nat.ofDigitChars 10 (n.whole ++ n.fraction) 0 *
    10 ^ (n.exponent - n.fraction.length)

/-! ## Reading -/

/-- A sign, when there is one. -/
def scanSign : Text → Bool × Text
  | '-' :: t => (true, t)
  | '+' :: t => (false, t)
  | t => (false, t)

/-- `(\.\d*)?` -/
def scanFraction : Text → Text × Text
  | '.' :: t => (t.takeWhile Text.isDigit, t.dropWhile Text.isDigit)
  | t => ([], t)

/-- `([eE][-+]?\d+)?` -/
def scanExponent : Text → Int × Text
  | [] => (0, [])
  | c :: t =>
    let digits := (scanSign t).2.takeWhile Text.isDigit
    if (c = 'e' ∨ c = 'E') ∧ digits ≠ [] then
      ((if (scanSign t).1 then -1 else 1) * Nat.ofDigitChars 10 digits 0,
        (scanSign t).2.dropWhile Text.isDigit)
    else (0, c :: t)

/-- The longest numeral at the beginning of a text, and what follows it. -/
def scan (t : Text) : Option (Numeral × Text) :=
  let whole := (scanSign t).2.takeWhile Text.isDigit
  let fraction := scanFraction ((scanSign t).2.dropWhile Text.isDigit)
  let exponent := scanExponent fraction.2
  if whole = [] ∧ fraction.1 = [] then none
  else some (⟨(scanSign t).1, whole, fraction.1, exponent.1⟩, exponent.2)

/-- The number that a text denotes. -/
def read (t : Text) : Option Rat :=
  match scan t with
  | some (n, []) => some n.value
  | _ => none

/-! ## Where a numeral ends -/

/-- A text that does not go on with a numeral. -/
def Ends (rest : Text) : Prop :=
  ∀ c, rest.head? = some c → Text.isDigit c = false ∧ c ≠ '.' ∧ c ≠ 'e' ∧ c ≠ 'E'

theorem scanSign_append {t : Text} (h : t ≠ []) (rest : Text) :
    scanSign (t ++ rest) = ((scanSign t).1, (scanSign t).2 ++ rest) := by
  cases t with
  | nil => exact absurd rfl h
  | cons c t =>
    rw [List.cons_append]
    by_cases hminus : c = '-'
    · subst hminus
      rfl
    by_cases hplus : c = '+'
    · subst hplus
      rfl
    simp [scanSign, hminus, hplus]

theorem scanFraction_append {rest : Text} (h : Ends rest) (t : Text) :
    scanFraction (t ++ rest) = ((scanFraction t).1, (scanFraction t).2 ++ rest) := by
  have hdigit : ∀ c, rest.head? = some c → Text.isDigit c = false := fun c hc => (h c hc).1
  cases t with
  | nil =>
    cases rest with
    | nil => rfl
    | cons c rest =>
      have hpoint : c ≠ '.' := (h c rfl).2.1
      simp [scanFraction, hpoint]
  | cons c t =>
    rw [List.cons_append]
    by_cases hpoint : c = '.'
    · subst hpoint
      simp only [scanFraction]
      rw [Text.takeWhile_append_rest hdigit, Text.dropWhile_append_rest hdigit]
    · simp [scanFraction, hpoint]

theorem scanExponent_append {t rest : Text} (h : Ends rest) (ht : (scanExponent t).2 = []) :
    scanExponent (t ++ rest) = ((scanExponent t).1, rest) := by
  have hdigit : ∀ c, rest.head? = some c → Text.isDigit c = false := fun c hc => (h c hc).1
  cases t with
  | nil =>
    cases rest with
    | nil => rfl
    | cons c rest =>
      obtain ⟨-, -, he, hE⟩ := h c rfl
      simp [scanExponent, he, hE]
  | cons c t =>
    rw [List.cons_append]
    simp only [scanExponent] at ht ⊢
    split at ht
    · next hexp =>
      have hne : t ≠ [] := by
        rintro rfl
        exact hexp.2 rfl
      dsimp only at ht
      rw [scanSign_append hne]
      dsimp only
      rw [Text.takeWhile_append_rest hdigit, Text.dropWhile_append_rest hdigit, if_pos hexp,
        if_pos hexp, ht]
      rfl
    · cases ht

theorem scan_append {t rest : Text} {n : Numeral} (hscan : scan t = some (n, [])) (h : Ends rest) :
    scan (t ++ rest) = some (n, rest) := by
  have hdigit : ∀ c, rest.head? = some c → Text.isDigit c = false := fun c hc => (h c hc).1
  have hne : t ≠ [] := by
    rintro rfl
    cases hscan
  unfold scan at hscan ⊢
  rw [scanSign_append hne]
  dsimp only at hscan ⊢
  rw [Text.takeWhile_append_rest hdigit, Text.dropWhile_append_rest hdigit,
    scanFraction_append h]
  dsimp only
  split at hscan
  · cases hscan
  next hsome =>
  rw [if_neg hsome]
  simp only [Option.some.injEq, Prod.mk.injEq] at hscan ⊢
  obtain ⟨hn, hrest⟩ := hscan
  rw [scanExponent_append h hrest]
  exact ⟨hn, rfl⟩

/-! ## Printing -/

/-- The digits of a power of ten, at least `width` of them. -/
def exponentDigits (width : Nat) (exponent : Int) : Text :=
  List.replicate (width - (Nat.toDigits 10 exponent.natAbs).length) '0' ++
    Nat.toDigits 10 exponent.natAbs

/-- The power of ten of a numeral, when it has one. -/
def exponentText (width : Nat) (exponent : Int) : Text :=
  if exponent = 0 then []
  else 'e' :: (if exponent < 0 then '-' else '+') :: exponentDigits width exponent

/-- The text of a numeral; a point is written before a fraction only. -/
def text (width : Nat) (n : Numeral) : Text :=
  (if n.negative then ['-'] else []) ++
    (n.whole ++
      ((if n.fraction = [] then [] else '.' :: n.fraction) ++ exponentText width n.exponent))

/-- The parts of a numeral are digits, and there are some before the point. -/
structure Printable (n : Numeral) : Prop where
  whole_ne_nil : n.whole ≠ []
  whole : ∀ c ∈ n.whole, Text.isDigit c = true
  fraction : ∀ c ∈ n.fraction, Text.isDigit c = true

theorem isDigit_of_isDigit {c : Char} (h : c.isDigit = true) : Text.isDigit c = true := by
  simp only [Char.isDigit, Bool.and_eq_true, decide_eq_true_eq, ge_iff_le,
    UInt32.le_iff_toNat_le] at h
  have hlow : 48 ≤ c.toNat := h.1
  have hhigh : c.toNat ≤ 57 := h.2
  simp [Text.isDigit, hlow, hhigh]

theorem isDigit_toDigits {n : Nat} {c : Char} (h : c ∈ Nat.toDigits 10 n) :
    Text.isDigit c = true :=
  isDigit_of_isDigit (Nat.isDigit_of_mem_toDigits (by decide) (by decide) h)

theorem scanSign_of_digit {t : Text} (h : ∀ c, t.head? = some c → Text.isDigit c = true) :
    scanSign t = (false, t) := by
  cases t with
  | nil => rfl
  | cons c t =>
    have hminus : c ≠ '-' := by
      rintro rfl
      exact absurd (h _ rfl) (by decide)
    have hplus : c ≠ '+' := by
      rintro rfl
      exact absurd (h _ rfl) (by decide)
    simp [scanSign, hminus, hplus]

theorem isDigit_exponentDigits {width : Nat} {exponent : Int} {c : Char}
    (h : c ∈ exponentDigits width exponent) : Text.isDigit c = true := by
  rcases List.mem_append.mp h with hzero | hdigit
  · rw [List.eq_of_mem_replicate hzero]
    rfl
  · exact isDigit_toDigits hdigit

theorem exponentDigits_value (width : Nat) (exponent : Int) :
    Nat.ofDigitChars 10 (exponentDigits width exponent) 0 = exponent.natAbs := by
  rw [exponentDigits, Nat.ofDigitChars_append, Nat.ofDigitChars_replicate_zero, Nat.mul_zero,
    Nat.ofDigitChars_ten_toDigits]

theorem scanExponent_text (width : Nat) (exponent : Int) :
    scanExponent (exponentText width exponent) = (exponent, []) := by
  unfold exponentText
  split
  · next hzero =>
    rw [hzero]
    rfl
  · next hne =>
    have hsign : scanSign ((if exponent < 0 then '-' else '+') :: exponentDigits width exponent) =
        (decide (exponent < 0), exponentDigits width exponent) := by
      split
      · next hneg => simp [scanSign, hneg]
      · next hneg => simp [scanSign, hneg]
    have htake : (exponentDigits width exponent).takeWhile Text.isDigit =
        exponentDigits width exponent := Text.takeWhile_all fun c hc => isDigit_exponentDigits hc
    have hdrop : (exponentDigits width exponent).dropWhile Text.isDigit = [] :=
      Text.dropWhile_all fun c hc => isDigit_exponentDigits hc
    have hdigits : exponentDigits width exponent ≠ [] := by
      simp [exponentDigits, Nat.toDigits_ne_nil]
    simp only [scanExponent]
    rw [hsign]
    dsimp only
    rw [htake, hdrop, if_pos ⟨by simp, hdigits⟩, exponentDigits_value]
    congr 1
    by_cases hneg : exponent < 0
    · simp only [hneg, decide_true, if_true]
      omega
    · simp only [hneg, decide_false, Bool.false_eq_true, if_false]
      omega

/-- What follows the digits of a numeral is no digit. -/
theorem exponentText_head {width : Nat} {exponent : Int} {c : Char}
    (h : (exponentText width exponent).head? = some c) : c = 'e' := by
  unfold exponentText at h
  split at h
  · cases h
  · exact (Option.some.inj h).symm

theorem scan_text (width : Nat) {n : Numeral} (h : n.Printable) :
    scan (n.text width) = some (n, []) := by
  obtain ⟨negative, whole, fraction, exponent⟩ := n
  obtain ⟨hne, hwhole, hfraction⟩ := h
  dsimp only at hne hwhole hfraction
  let tail : Text := (if fraction = [] then [] else '.' :: fraction) ++ exponentText width exponent
  have htail : ∀ c, tail.head? = some c → Text.isDigit c = false := by
    intro c hc
    simp only [tail] at hc
    split at hc
    · rw [exponentText_head hc]
      rfl
    · rw [← Option.some.inj hc]
      rfl
  have hsign : scanSign ((if negative then ['-'] else []) ++ (whole ++ tail)) =
      (negative, whole ++ tail) := by
    cases negative with
    | true => rfl
    | false =>
      apply scanSign_of_digit
      intro c hc
      obtain ⟨d, whole', hcons⟩ := List.exists_cons_of_ne_nil hne
      rw [hcons] at hc
      rw [← Option.some.inj hc]
      exact hwhole d (by rw [hcons]; exact List.mem_cons_self ..)
  have htakeWhole : (whole ++ tail).takeWhile Text.isDigit = whole := by
    rw [Text.takeWhile_append_rest htail, Text.takeWhile_all hwhole]
  have hdropWhole : (whole ++ tail).dropWhile Text.isDigit = tail := by
    rw [Text.dropWhile_append_rest htail, Text.dropWhile_all hwhole, List.nil_append]
  have hfrac : scanFraction tail = (fraction, exponentText width exponent) := by
    have hexponent : ∀ c, (exponentText width exponent).head? = some c → Text.isDigit c = false := by
      intro c hc
      rw [exponentText_head hc]
      rfl
    simp only [tail]
    split
    · next hnil =>
      rw [hnil, List.nil_append]
      cases hexp : exponentText width exponent with
      | nil => rfl
      | cons c rest =>
        have hc : c = 'e' := exponentText_head (by rw [hexp]; rfl)
        rw [hc]
        rfl
    · rw [List.cons_append]
      simp only [scanFraction]
      rw [Text.takeWhile_append_rest hexponent, Text.dropWhile_append_rest hexponent,
        Text.takeWhile_all hfraction, Text.dropWhile_all hfraction, List.nil_append]
  have hscan : scan ((if negative then ['-'] else []) ++ (whole ++ tail)) =
      some (⟨negative, whole, fraction, exponent⟩, []) := by
    unfold scan
    rw [hsign]
    dsimp only
    rw [htakeWhole, hdropWhole, hfrac]
    dsimp only
    rw [scanExponent_text, if_neg fun hnil => hne hnil.1]
  exact hscan

end Numeral
