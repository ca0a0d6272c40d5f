import Mathlib.Algebra.Order.Field.Power
import Mathlib.Data.Int.Log
import Mathlib.Data.Nat.Prime.Basic
import Mathlib.Data.Rat.Floor
import Mathlib.Tactic.FieldSimp
import Mathlib.Tactic.Linarith
import Mathlib.Tactic.NormNum
import Mathlib.Tactic.Positivity
import Mathlib.Tactic.Ring
import Gateway.Lib.Decimal

/-!
# Double precision numbers

The finite doubles as rationals: rounding to the nearest one, and the shortest decimal that
rounds back to one.

## Key results

- `roundAbs_of_form`: a number of at most 53 bits is a double
- `round_round`: a double is rounded to itself
- `eq_of_round_intCast`: an integer that is rounded to a small number is this number
- `roundAbs_shortest`: the shortest decimal of a double rounds back to it
- `value_numeral`, `round_numeral`: what the numeral of a double denotes
-/

namespace Double

/-! ## Rounding -/

/-- The nearest integer; of two that are as near, the even one. -/
def nearest (x : Rat) : Int :=
  if x - ⌊x⌋ < 1 / 2 then ⌊x⌋
  else if 1 / 2 < x - ⌊x⌋ then ⌊x⌋ + 1
  else if ⌊x⌋ % 2 = 0 then ⌊x⌋ else ⌊x⌋ + 1

/-- The exponent of the last place of the doubles at a number. -/
def place (x : Rat) : Int := max (Int.log 2 x - 52) (-1074)

/-- The double nearest to a number that is not negative; `none` is an overflow. -/
def roundAbs (x : Rat) : Option Rat :=
  let r : Rat := nearest (x / 2 ^ place x) * 2 ^ place x
  if r < 2 ^ 1024 then some r else none

/-- The double nearest to a number. -/
def round (x : Rat) : Option Rat :=
  if x < 0 then (roundAbs (-x)).map (- ·) else roundAbs x

theorem nearest_intCast (n : Int) : nearest n = n := by simp [nearest]

theorem nearest_nonneg {x : Rat} (h : 0 ≤ x) : 0 ≤ nearest x := by
  have hfloor : 0 ≤ ⌊x⌋ := Int.floor_nonneg.mpr h
  unfold nearest
  split
  · exact hfloor
  split
  · omega
  split
  · exact hfloor
  · omega

theorem nearest_le {x : Rat} {n : Int} (h : x < n) : nearest x ≤ n := by
  have hfloor : ⌊x⌋ < n := Int.floor_lt.mpr h
  unfold nearest
  split
  · omega
  split
  · omega
  split
  · omega
  · omega

/-- The form of a double that is not negative: at most 53 bits, at or above the last place. -/
structure Form (x : Rat) (k : Nat) (u : Int) : Prop where
  eq : x = k * 2 ^ u
  bits : k ≤ 2 ^ 53
  least : -1074 ≤ u
  finite : x < 2 ^ 1024

/-- Less than 53 bits keep their place. -/
theorem roundAbs_of_bits {x : Rat} {k : Nat} {u : Int} (h : Form x k u) (hk : k < 2 ^ 53) :
    roundAbs x = some x := by
  rcases Nat.eq_zero_or_pos k with rfl | hpos
  · have hzero : x = 0 := by rw [h.eq]; simp
    subst hzero
    have hnearest : nearest 0 = 0 := nearest_intCast 0
    simp [roundAbs, hnearest]
  have hx : 0 < x := by
    rw [h.eq]
    positivity
  -- the last place of `x` is at `2 ^ u` or below it
  have hlog : Int.log 2 x < 53 + u := by
    have hlt : x < (2 : Rat) ^ (53 + u) := by
      rw [h.eq, zpow_add₀ (by norm_num)]
      have hkq : (k : Rat) < 2 ^ (53 : Int) := by exact_mod_cast hk
      exact mul_lt_mul_of_pos_right hkq (by positivity)
    exact (Int.lt_zpow_iff_log_lt (by norm_num) hx).mp hlt
  have hplace : place x ≤ u := by
    have hleast := h.least
    unfold place
    omega
  have hint : x / 2 ^ place x = ((k * 2 ^ (u - place x).toNat : Int) : Rat) := by
    have hsplit : (2 : Rat) ^ u = 2 ^ (u - place x).toNat * 2 ^ place x := by
      rw [← zpow_natCast, ← zpow_add₀ (by norm_num)]
      congr 1
      omega
    rw [div_eq_iff (by positivity)]
    push_cast
    rw [mul_assoc, ← hsplit, ← h.eq]
  have hback : ((k * 2 ^ (u - place x).toNat : Int) : Rat) * 2 ^ place x = x := by
    rw [← hint, div_mul_cancel₀ x (by positivity)]
  unfold roundAbs
  dsimp only
  rw [hint, nearest_intCast, hback, if_pos h.finite]

/-- A number of at most 53 bits is a double. -/
theorem roundAbs_of_form {x : Rat} {k : Nat} {u : Int} (h : Form x k u) : roundAbs x = some x := by
  rcases Nat.lt_or_ge k (2 ^ 53) with hlt | hge
  · exact roundAbs_of_bits h hlt
  · have hk : k = 2 ^ 53 := Nat.le_antisymm h.bits hge
    -- one bit too many: the same number with an even mantissa
    have hform : Form x (2 ^ 52) (u + 1) := by
      refine ⟨?_, by norm_num, ?_, h.finite⟩
      · rw [h.eq, hk, zpow_add₀ (by norm_num)]
        push_cast
        ring
      · have hleast := h.least
        omega
    exact roundAbs_of_bits hform (by norm_num)

theorem roundAbs_form {x r : Rat} (hx : 0 ≤ x) (h : roundAbs x = some r) :
    ∃ k u, Form r k u := by
  unfold roundAbs at h
  dsimp only at h
  split at h
  · next hfinite =>
    cases h
    have hlast : (0 : Rat) < 2 ^ place x := by positivity
    have hnonneg : 0 ≤ nearest (x / 2 ^ place x) := nearest_nonneg (by positivity)
    have hbits : nearest (x / 2 ^ place x) ≤ 2 ^ 53 := by
      apply nearest_le
      rw [div_lt_iff₀ hlast]
      have hlog : x < (2 : Rat) ^ (Int.log 2 x + 1) := Int.lt_zpow_succ_log_self (by norm_num) x
      have hplace : Int.log 2 x + 1 ≤ 53 + place x := by
        unfold place
        omega
      have hpow : (2 : Rat) ^ (Int.log 2 x + 1) ≤ 2 ^ (53 + place x) :=
        zpow_le_zpow_right₀ (by norm_num) hplace
      have hsplit : (2 : Rat) ^ (53 + place x) = ((2 ^ 53 : Int) : Rat) * 2 ^ place x := by
        rw [zpow_add₀ (by norm_num)]
        norm_num
      rw [← hsplit]
      exact lt_of_lt_of_le hlog hpow
    obtain ⟨k, hk⟩ := Int.eq_ofNat_of_zero_le hnonneg
    refine ⟨k, place x, ?_, ?_, ?_, hfinite⟩
    · rw [hk]
      simp
    · rw [hk] at hbits
      exact_mod_cast hbits
    · exact le_max_right ..
  · cases h

theorem Form.nonneg {x : Rat} {k : Nat} {u : Int} (h : Form x k u) : 0 ≤ x := by
  rw [h.eq]
  positivity

theorem round_of_nonneg {x : Rat} (h : 0 ≤ x) : round x = roundAbs x := if_neg (not_lt.mpr h)

theorem round_neg (x : Rat) : round (-x) = (round x).map (- ·) := by
  rcases lt_trichotomy x 0 with hneg | rfl | hpos
  · rw [round, round, if_neg (by linarith), if_pos hneg, Option.map_map]
    simp
  · have hzero : roundAbs 0 = some 0 := @roundAbs_of_form 0 0 0 ⟨by simp, by simp, by simp, by norm_num⟩
    simp [round, hzero]
  · rw [round, round, if_pos (by linarith), if_neg (by linarith), neg_neg]

/-- A double is rounded to itself. -/
theorem round_round {x r : Rat} (h : round x = some r) : round r = some r := by
  have habs : ∀ y s, 0 ≤ y → roundAbs y = some s → round s = some s := by
    intro y s hy hs
    obtain ⟨k, u, hform⟩ := roundAbs_form hy hs
    rw [round_of_nonneg hform.nonneg, roundAbs_of_form hform]
  unfold round at h
  split at h
  · next hneg =>
    obtain ⟨s, hs, rfl⟩ := Option.map_eq_some_iff.mp h
    rw [round_neg, habs (-x) s (by linarith) hs]
    rfl
  · next hnonneg => exact habs x r (not_lt.mp hnonneg) h

/-- An integer of at most 53 bits is a double. -/
theorem round_intCast {n : Int} (h : n.natAbs ≤ 2 ^ 53) : round n = some (n : Rat) := by
  have hnat : ∀ k : Nat, k ≤ 2 ^ 53 → round (k : Rat) = some (k : Rat) := by
    intro k hk
    rw [round_of_nonneg (by positivity)]
    have hform : Form k k 0 := by
      refine ⟨by simp, hk, by norm_num, ?_⟩
      have hkq : (k : Rat) ≤ 2 ^ 53 := by exact_mod_cast hk
      exact lt_of_le_of_lt hkq (pow_lt_pow_right₀ (by norm_num) (by norm_num))
    exact roundAbs_of_form hform
  rcases Int.natAbs_eq n with hn | hn
  · rw [hn]
    exact hnat _ h
  · have hcast : (n : Rat) = -(n.natAbs : Rat) := by
      conv => lhs; rw [hn]
      rw [Int.cast_neg, Int.cast_natCast]
    rw [hcast, round_neg, hnat _ h]
    rfl

theorem le_nearest {x : Rat} {n : Int} (h : (n : Rat) ≤ x) : n ≤ nearest x := by
  have hfloor : n ≤ ⌊x⌋ := Int.le_floor.mpr h
  unfold nearest
  split
  · exact hfloor
  split
  · omega
  split
  · exact hfloor
  · omega

/-- From `2 ^ 53` on, a number is not rounded below it. -/
theorem le_roundAbs {x r : Rat} (hx : 2 ^ 53 ≤ x) (h : roundAbs x = some r) : 2 ^ 53 ≤ r := by
  have hpos : 0 < x := lt_of_lt_of_le (by norm_num) hx
  have hlog : 53 ≤ Int.log 2 x := by
    rw [← Int.zpow_le_iff_le_log (by norm_num) hpos]
    exact_mod_cast hx
  have hplace : place x = Int.log 2 x - 52 := max_eq_left (by omega)
  have hscaled : ((2 ^ 52 : Int) : Rat) ≤ x / 2 ^ place x := by
    rw [le_div_iff₀ (by positivity), hplace]
    have hpow : ((2 ^ 52 : Int) : Rat) * 2 ^ (Int.log 2 x - 52) = 2 ^ Int.log 2 x := by
      rw [Int.cast_pow, Int.cast_ofNat, ← zpow_natCast, ← zpow_add₀ (by norm_num)]
      congr 1
      omega
    rw [hpow]
    exact_mod_cast Int.zpow_log_le_self (by norm_num) hpos
  have hnearest : ((2 ^ 52 : Int) : Rat) ≤ (nearest (x / 2 ^ place x) : Rat) :=
    Int.cast_le.mpr (le_nearest hscaled)
  have htwo : (2 : Rat) ≤ 2 ^ place x := by
    have hle : (2 : Rat) ^ (1 : Int) ≤ 2 ^ place x :=
      zpow_le_zpow_right₀ (by norm_num) (by omega)
    simpa using hle
  unfold roundAbs at h
  dsimp only at h
  split at h
  · rw [← Option.some.inj h]
    calc (2 : Rat) ^ 53 = ((2 ^ 52 : Int) : Rat) * 2 := by norm_num
      _ ≤ (nearest (x / 2 ^ place x) : Rat) * 2 ^ place x :=
        mul_le_mul hnearest htwo (by norm_num) (le_trans (by norm_num) hnearest)
  · cases h

/-- An integer that is rounded to a number below `2 ^ 53` is this number. -/
theorem eq_of_round_intCast {m : Int} {x : Rat} (h : round m = some x) (hx : |x| < 2 ^ 53) :
    x = m := by
  rcases Nat.lt_or_ge (2 ^ 53) m.natAbs with hlarge | hsmall
  · exfalso
    have habs : (2 : Rat) ^ 53 ≤ |(m : Rat)| := by
      rw [← Int.cast_abs, Int.abs_eq_natAbs, Int.cast_natCast]
      exact_mod_cast hlarge.le
    unfold round at h
    split at h
    · next hneg =>
      obtain ⟨r, hr, rfl⟩ := Option.map_eq_some_iff.mp h
      have hle := le_roundAbs (by rwa [abs_of_neg hneg] at habs) hr
      rw [abs_neg] at hx
      exact absurd (lt_of_le_of_lt (le_abs_self r) hx) (not_lt.mpr hle)
    · next hneg =>
      have hle := le_roundAbs (by rwa [abs_of_nonneg (not_lt.mp hneg)] at habs) h
      exact absurd (lt_of_le_of_lt (le_abs_self x) hx) (not_lt.mpr hle)
  · rw [round_intCast hsmall] at h
    exact (Option.some.inj h).symm

/-! ## The shortest decimal -/

/-- The decimals of `n` digits next to a positive number, as a digit string and a power of
    ten, the nearer one first. -/
def candidates (x : Rat) (n : Nat) : List (Nat × Int) :=
  let e : Int := Int.log 10 x + 1 - n
  let m := ⌊x / 10 ^ e⌋.toNat
  let next := if m + 1 = 10 ^ n then (10 ^ (n - 1), e + 1) else (m + 1, e)
  if x - m * 10 ^ e ≤ (m + 1) * 10 ^ e - x then [(m, e), next] else [next, (m, e)]

/-- The value of a digit string and a power of ten. -/
def decimal (d : Nat × Int) : Rat := d.1 * 10 ^ d.2

/-- The full expansion of a number whose denominator is a power of two. -/
def expansion (x : Rat) : Nat × Int :=
  (x.num.toNat * 5 ^ Nat.log 2 x.den, -(Nat.log 2 x.den : Int))

/-- The shortest decimal that rounds to a positive double; 17 digits are always enough. -/
def shortest (x : Rat) : Nat × Int :=
  ((List.range 17).findSome? fun n =>
    (candidates x (n + 1)).find? fun d => roundAbs (decimal d) = some x).getD (expansion x)

/-- The denominator of a double is a power of two. -/
theorem Form.den {x : Rat} {k : Nat} {u : Int} (h : Form x k u) : ∃ t, x.den = 2 ^ t := by
  have hmul : x * ((2 ^ u.natAbs : Nat) : Rat) = ((k * 2 ^ (u + u.natAbs).toNat : Nat) : Rat) := by
    rw [h.eq]
    rw [Nat.cast_mul, Nat.cast_pow, Nat.cast_pow, mul_assoc, ← zpow_natCast, ← zpow_natCast,
      Nat.cast_ofNat, ← zpow_add₀ (by norm_num)]
    congr 2
    omega
  have hdvd : x.den ∣ 2 ^ u.natAbs := by
    have hx : x = Rat.divInt ((k * 2 ^ (u + u.natAbs).toNat : Nat) : Int) ((2 ^ u.natAbs : Nat) : Int) := by
      rw [Rat.divInt_eq_div, eq_div_iff (by positivity)]
      exact_mod_cast hmul
    have hden := Rat.den_dvd ((k * 2 ^ (u + u.natAbs).toNat : Nat) : Int) ((2 ^ u.natAbs : Nat) : Int)
    rw [← hx] at hden
    exact_mod_cast hden
  obtain ⟨t, -, ht⟩ := (Nat.dvd_prime_pow Nat.prime_two).mp hdvd
  exact ⟨t, ht⟩

theorem decimal_expansion {x : Rat} {k : Nat} {u : Int} (h : Form x k u) :
    decimal (expansion x) = x := by
  obtain ⟨t, ht⟩ := h.den
  have hlog : Nat.log 2 x.den = t := by rw [ht, Nat.log_pow (by norm_num)]
  have hnum : ((x.num.toNat : Int) : Rat) = x.num := by
    rw [Int.toNat_of_nonneg (Rat.num_nonneg.mpr h.nonneg)]
  have hx : x = x.num / (2 : Rat) ^ t := by
    conv => lhs; rw [← Rat.num_div_den x]
    rw [ht]
    push_cast
    rfl
  unfold decimal expansion
  dsimp only
  rw [hlog, zpow_neg, zpow_natCast]
  push_cast
  have hnum' : ((x.num.toNat : Nat) : Rat) = x.num := by exact_mod_cast hnum
  rw [hnum']
  conv => rhs; rw [hx]
  have hten : (10 : Rat) ^ t = 5 ^ t * 2 ^ t := by rw [← mul_pow]; norm_num
  rw [hten]
  field_simp

/-- The shortest decimal of a double rounds back to it. -/
theorem roundAbs_shortest {x : Rat} {k : Nat} {u : Int} (h : Form x k u) :
    roundAbs (decimal (shortest x)) = some x := by
  unfold shortest
  cases hfind : (List.range 17).findSome? fun n =>
      (candidates x (n + 1)).find? fun d => roundAbs (decimal d) = some x with
  | none =>
    rw [Option.getD_none, decimal_expansion h]
    exact roundAbs_of_form h
  | some d =>
    obtain ⟨n, -, hn⟩ := List.exists_of_findSome?_eq_some hfind
    rw [Option.getD_some]
    simpa using List.find?_some hn

/-! ## Printing -/

/-- A decimal in fixed-point notation. -/
def fixed (d : Nat × Int) : Numeral :=
  let digits := Nat.toDigits 10 d.1
  let point : Int := digits.length + d.2
  if 0 ≤ d.2 then ⟨false, digits ++ List.replicate d.2.toNat '0', [], 0⟩
  else if 0 < point then ⟨false, digits.take point.toNat, digits.drop point.toNat, 0⟩
  else ⟨false, ['0'], List.replicate (-point).toNat '0' ++ digits, 0⟩

/-- A decimal in scientific notation. -/
def scientific (d : Nat × Int) : Numeral :=
  let digits := Nat.toDigits 10 d.1
  ⟨false, digits.take 1, digits.drop 1, digits.length + d.2 - 1⟩

/-- The shortest numeral of a double, in fixed-point notation where `plain` holds of its absolute
    value. -/
def numeral (plain : Rat → Bool) (x : Rat) : Numeral :=
  if x = 0 then ⟨false, ['0'], [], 0⟩
  else
    { (if plain |x| then fixed (shortest |x|) else scientific (shortest |x|)) with
      negative := decide (x < 0) }

theorem value_fixed (d : Nat × Int) : (fixed d).value = decimal d := by
  obtain ⟨m, e⟩ := d
  have hpow : ∀ n : Nat, -(n : Int) = e → decimal (m, e) = m * 10 ^ (0 - (n : Int)) := by
    intro n hn
    rw [decimal, ← hn, zero_sub]
  unfold fixed
  dsimp only
  split
  · next he =>
    have hcast : (10 : Rat) ^ e = 10 ^ e.toNat := by
      rw [← zpow_natCast, Int.toNat_of_nonneg he]
    simp only [Numeral.value, List.append_nil, Nat.ofDigitChars_append,
      Nat.ofDigitChars_replicate_zero, Nat.ofDigitChars_ten_toDigits]
    simp [decimal, hcast, mul_comm]
  split
  · next he hpoint =>
    have hlen : ((Nat.toDigits 10 m).drop ((Nat.toDigits 10 m).length + e).toNat).length =
        (-e).toNat := by
      rw [List.length_drop]
      omega
    rw [hpow (-e).toNat (by omega)]
    simp only [Numeral.value, List.take_append_drop, Nat.ofDigitChars_ten_toDigits, hlen]
    simp
  · next he hpoint =>
    have hlen : (List.replicate (-((Nat.toDigits 10 m).length + e)).toNat '0' ++
        Nat.toDigits 10 m).length = (-e).toNat := by
      rw [List.length_append, List.length_replicate]
      omega
    rw [hpow (-e).toNat (by omega)]
    simp only [Numeral.value, hlen]
    rw [List.singleton_append, Nat.ofDigitChars_cons, Nat.ofDigitChars_append,
      Nat.ofDigitChars_replicate_zero]
    simp [Nat.ofDigitChars_ten_toDigits]

theorem value_scientific (d : Nat × Int) : (scientific d).value = decimal d := by
  obtain ⟨m, e⟩ := d
  have hpos : 0 < (Nat.toDigits 10 m).length := Nat.length_toDigits_pos
  have hexp : (Nat.toDigits 10 m).length + e - 1 - (((Nat.toDigits 10 m).drop 1).length : Int) = e := by
    rw [List.length_drop]
    omega
  simp only [scientific, Numeral.value, List.take_append_drop, Nat.ofDigitChars_ten_toDigits, hexp]
  simp [decimal]

theorem printable_fixed (d : Nat × Int) : (fixed d).Printable := by
  obtain ⟨m, e⟩ := d
  have hzeros : ∀ n : Nat, ∀ c ∈ List.replicate n '0', Text.isDigit c = true := by
    intro n c hc
    rw [List.eq_of_mem_replicate hc]
    rfl
  have hdigits : ∀ c ∈ Nat.toDigits 10 m, Text.isDigit c = true :=
    fun c hc => Numeral.isDigit_toDigits hc
  unfold fixed
  dsimp only
  split
  · refine ⟨by simp [Nat.toDigits_ne_nil], ?_, by simp⟩
    intro c hc
    rcases List.mem_append.mp hc with hc | hc
    · exact hdigits c hc
    · exact hzeros _ c hc
  split
  · next hpoint =>
    refine ⟨?_, fun c hc => hdigits c (List.mem_of_mem_take hc),
      fun c hc => hdigits c (List.mem_of_mem_drop hc)⟩
    rw [ne_eq, List.take_eq_nil_iff, not_or]
    exact ⟨by omega, Nat.toDigits_ne_nil⟩
  · refine ⟨by simp, by simp [Text.isDigit], ?_⟩
    intro c hc
    rcases List.mem_append.mp hc with hc | hc
    · exact hzeros _ c hc
    · exact hdigits c hc

theorem printable_scientific (d : Nat × Int) : (scientific d).Printable := by
  refine ⟨?_, fun c hc => Numeral.isDigit_toDigits (List.mem_of_mem_take hc),
    fun c hc => Numeral.isDigit_toDigits (List.mem_of_mem_drop hc)⟩
  show (Nat.toDigits 10 d.1).take 1 ≠ []
  rw [ne_eq, List.take_eq_nil_iff, not_or]
  exact ⟨by omega, Nat.toDigits_ne_nil⟩

theorem printable_numeral (plain : Rat → Bool) (x : Rat) : (numeral plain x).Printable := by
  unfold numeral
  split
  · exact ⟨by simp, by simp [Text.isDigit], by simp⟩
  split
  · have h := printable_fixed (shortest |x|)
    exact ⟨h.whole_ne_nil, h.whole, h.fraction⟩
  · have h := printable_scientific (shortest |x|)
    exact ⟨h.whole_ne_nil, h.whole, h.fraction⟩

/-- The numeral of a double denotes its shortest decimal. -/
theorem value_numeral (plain : Rat → Bool) {x : Rat} (h : x ≠ 0) :
    (numeral plain x).value = (if x < 0 then -1 else 1) * decimal (shortest |x|) := by
  have hsign : ∀ n : Numeral, n.negative = false →
      ({ n with negative := decide (x < 0) } : Numeral).value =
        (if x < 0 then -1 else 1) * n.value := by
    intro n hn
    simp only [Numeral.value, hn, decide_eq_true_eq, Bool.false_eq_true, if_false, one_mul]
    ring
  have hfixed : (fixed (shortest |x|)).negative = false := by
    unfold fixed
    dsimp only
    split
    · rfl
    split <;> rfl
  unfold numeral
  rw [if_neg h]
  split
  · rw [hsign _ hfixed, value_fixed]
  · rw [hsign _ rfl, value_scientific]

/-- The numeral of a double rounds back to it. -/
theorem round_numeral (plain : Rat → Bool) {x y : Rat} (h : round y = some x) :
    round (numeral plain x).value = some x := by
  have habs : ∀ z, 0 ≤ z → z ≠ 0 → round z = some z → round (decimal (shortest z)) = some z := by
    intro z hz hne hround
    rw [round_of_nonneg hz] at hround
    obtain ⟨k, u, hform⟩ := roundAbs_form hz hround
    have hdecimal : 0 ≤ decimal (shortest z) := by
      unfold decimal
      positivity
    rw [round_of_nonneg hdecimal]
    exact roundAbs_shortest hform
  have hself := round_round h
  by_cases hzero : x = 0
  · subst hzero
    have hvalue : (numeral plain 0).value = 0 := by
      simp [numeral, Numeral.value, Nat.ofDigitChars_cons]
    rw [hvalue]
    exact hself
  rw [value_numeral plain hzero]
  rcases lt_or_gt_of_ne hzero with hneg | hpos
  · have hopposite : round (-x) = some (-x) := by rw [round_neg, hself]; rfl
    rw [if_pos hneg, abs_of_neg hneg, neg_one_mul, round_neg,
      habs (-x) (by linarith) (by linarith) hopposite]
    simp
  · rw [if_neg (by linarith), abs_of_pos hpos, one_mul]
    exact habs x (by linarith) hzero hself

end Double
