import Gateway.Lib.PythonJson

/-!
# Numbers in command-line flags of Go

`strconv.ParseInt(s, 0, 64)` and `strconv.ParseFloat(s, 64)`, as the flags of package `flag`
use them. A text that begins with a zero is an octal number. `none` stands for every error,
and for the texts of infinities and of NaN.

## Key results

- `parseInt_encodeInt`, `parseFloat_encodeInt`: what the text of an integer is read as
- `parseInt_float`, `parseFloat_float`: what the text of a float is read as
- `parseFloat_floatOfText`, `parseInt_intOfText`: a text that `float` and `int` of Python accept
  too is the same number
-/

namespace Strconv

/-- The value of a digit in a base up to 36. -/
def digitValue (c : Char) : Option Nat :=
  if 48 ≤ c.toNat ∧ c.toNat ≤ 57 then some (c.toNat - 48)
  else if 97 ≤ c.toNat ∧ c.toNat ≤ 122 then some (c.toNat - 87)
  else if 65 ≤ c.toNat ∧ c.toNat ≤ 90 then some (c.toNat - 55)
  else none

/-- A digit of a hexadecimal number. -/
def isHexDigit (c : Char) : Bool := (digitValue c).any (· < 16)

/-- The base that a text announces, and the digits after the prefix. -/
def detectBase : Text → Nat × Text
  | '0' :: c :: d :: t =>
    if c = 'b' ∨ c = 'B' then (2, d :: t)
    else if c = 'o' ∨ c = 'O' then (8, d :: t)
    else if c = 'x' ∨ c = 'X' then (16, d :: t)
    else (8, c :: d :: t)
  | '0' :: t => (8, t)
  | t => (10, t)

/-- `underscoreOK` of a text without a sign: a prefix of a base counts as a digit. -/
def underscoreOk : Text → Bool
  | '0' :: c :: t =>
    if c ∈ ['x', 'X'] then Text.underscoresOk isHexDigit true t
    else if c ∈ ['b', 'B', 'o', 'O'] then Text.underscoresOk Text.isDigit true t
    else Text.underscoresOk Text.isDigit false ('0' :: c :: t)
  | t => Text.underscoresOk Text.isDigit false t

/-- The value of digits in a base, after what was read of them. -/
def digitsValue (base n : Nat) : Text → Option Nat
  | [] => some n
  | c :: t =>
    match digitValue c with
    | some d => if d < base then digitsValue base (base * n + d) t else none
    | none => none

/-- `strconv.ParseInt(s, 0, 64)` -/
def parseInt (t : Text) : Option Int :=
  let (negative, u) := Numeral.scanSign t
  let (base, digits) := detectBase u
  if u = [] ∨ underscoreOk u = false then none
  else
    match digitsValue base 0 (digits.filter (· ≠ '_')) with
    | none => none
    | some n =>
      if negative then (if n ≤ 2 ^ 63 then some (-n) else none)
      else if n < 2 ^ 63 then some n else none

/-- The hexadecimal digits after a point. -/
def hexFraction : Text → Text × Text
  | '.' :: t => (t.takeWhile isHexDigit, t.dropWhile isHexDigit)
  | t => ([], t)

/-- A hexadecimal numeral, after its prefix; the exponent is required. -/
def hexFloat (negative : Bool) (t : Text) : Option Rat :=
  let whole := t.takeWhile isHexDigit
  let fraction := hexFraction (t.dropWhile isHexDigit)
  match fraction.2 with
  | [] => none
  | p :: r =>
    let (negativeExponent, digits) := Numeral.scanSign r
    if p ∈ ['p', 'P'] ∧ whole ++ fraction.1 ≠ [] ∧ digits ≠ [] ∧ digits.all Text.isDigit then
      (digitsValue 16 0 (whole ++ fraction.1)).map fun m =>
        (if negative then -1 else 1) * m *
          2 ^ ((if negativeExponent then -1 else 1) * (Nat.ofDigitChars 10 digits 0 : Int) -
            4 * fraction.1.length)
    else none

/-- `strconv.ParseFloat(s, 64)`, when it is finite. -/
def parseFloat (t : Text) : Option Rat :=
  let (negative, u) := Numeral.scanSign t
  if underscoreOk u = false then none
  else
    match u with
    | '0' :: x :: r =>
      if x ∈ ['x', 'X'] then (hexFloat negative (r.filter (· ≠ '_'))).bind Double.round
      else (Numeral.read (t.filter (· ≠ '_'))).bind Double.round
    | _ => (Numeral.read (t.filter (· ≠ '_'))).bind Double.round

/-! ## Integers -/

theorem underscoresOk_of_none {digit : Char → Bool} {t : Text} (h : '_' ∉ t) (b : Bool) :
    Text.underscoresOk digit b t = true := by
  fun_induction Text.underscoresOk digit b t with
  | case1 => rfl
  | case2 => simp at h
  | case3 => simp at h
  | case4 b c t _ _ ih => exact ih fun hmem => h (List.mem_cons_of_mem _ hmem)

theorem underscoreOk_of_none {t : Text} (h : '_' ∉ t) : underscoreOk t = true := by
  unfold underscoreOk
  split
  · next c r =>
    have hr : '_' ∉ r := fun hmem => h (List.mem_cons_of_mem _ (List.mem_cons_of_mem _ hmem))
    split
    · exact underscoresOk_of_none hr _
    split
    · exact underscoresOk_of_none hr _
    · exact underscoresOk_of_none h _
  · exact underscoresOk_of_none h _

theorem filter_underscore {t : Text} (h : '_' ∉ t) : t.filter (· ≠ '_') = t := by
  apply List.filter_eq_self.mpr
  intro c hc
  exact decide_eq_true (ne_of_mem_of_not_mem hc h)

theorem digitsValue_chars {base n m : Nat} {t : Text} (h : digitsValue base n t = some m) :
    ∀ c ∈ t, ∃ d, digitValue c = some d ∧ d < base := by
  induction t generalizing n with
  | nil => simp
  | cons c t ih =>
    intro c' hc'
    simp only [digitsValue] at h
    split at h
    · next d hd =>
      split at h
      · next hlt =>
        rcases List.mem_cons.mp hc' with rfl | hmem
        · exact ⟨d, hd, hlt⟩
        · exact ih h c' hmem
      · cases h
    · cases h

theorem digitsValue_decimal {t : Text} (h : ∀ c ∈ t, Text.isDigit c = true) (n : Nat) :
    digitsValue 10 n t = some (Nat.ofDigitChars 10 t n) := by
  induction t generalizing n with
  | nil => rfl
  | cons c t ih =>
    have hcode : 48 ≤ c.toNat ∧ c.toNat ≤ 57 := by
      simpa [Text.isDigit] using h c (List.mem_cons_self ..)
    have hvalue : digitValue c = some (c.toNat - 48) := if_pos hcode
    rw [digitsValue, hvalue, Nat.ofDigitChars_cons]
    dsimp only
    rw [if_pos (by omega)]
    exact ih (fun d hd => h d (List.mem_cons_of_mem _ hd)) _

/-- The digits of a positive number do not begin with a zero. -/
theorem toDigits_head {n : Nat} (h : 0 < n) : (Nat.toDigits 10 n).head? ≠ some '0' := by
  induction n using Nat.strong_induction_on with
  | _ n ih =>
    rcases Nat.lt_or_ge n 10 with hlt | hge
    · rw [Nat.toDigits_of_lt_base hlt]
      intro hzero
      have hchar : n.digitChar = '0' := Option.some.inj hzero
      have hcases : ∀ m < 10, 0 < m → Nat.digitChar m ≠ '0' := by decide
      exact hcases n hlt h hchar
    · have hdiv : 0 < n / 10 := by omega
      rw [Nat.toDigits_of_base_le (by decide) hge, List.head?_append_of_ne_nil _ Nat.toDigits_ne_nil]
      exact ih (n / 10) (by omega) hdiv

theorem detectBase_of_head {t : Text} (h : t.head? ≠ some '0') : detectBase t = (10, t) := by
  unfold detectBase
  split
  · simp at h
  · simp at h
  · rfl

theorem encodeInt_sign (n : Int) :
    Numeral.scanSign (Json.encodeInt n) = (decide (n < 0), Nat.toDigits 10 n.natAbs) := by
  unfold Json.encodeInt
  split
  · next hneg =>
    simp only [Numeral.scanSign]
    simp [hneg]
  · next hneg =>
    rw [Numeral.scanSign_of_digit]
    · simp [hneg]
    · intro c hc
      exact Numeral.isDigit_toDigits (List.mem_of_mem_head? hc)

theorem underscore_not_mem_toDigits (n : Nat) : '_' ∉ Nat.toDigits 10 n := by
  intro hmem
  have hdigit := Numeral.isDigit_toDigits hmem
  cases hdigit

/-- The text of an integer is read as that integer. -/
theorem parseInt_encodeInt {n m : Int} (h : parseInt (Json.encodeInt n) = some m) : m = n := by
  unfold parseInt at h
  rw [encodeInt_sign] at h
  dsimp only at h
  rw [underscoreOk_of_none (underscore_not_mem_toDigits _), if_neg (by simp)] at h
  have hvalue : digitsValue (detectBase (Nat.toDigits 10 n.natAbs)).1 0
      ((detectBase (Nat.toDigits 10 n.natAbs)).2.filter (· ≠ '_')) = some n.natAbs := by
    rcases Nat.eq_zero_or_pos n.natAbs with hzero | hpos
    · rw [hzero]
      rfl
    · rw [detectBase_of_head (toDigits_head hpos), filter_underscore (underscore_not_mem_toDigits _),
        digitsValue_decimal fun c hc => Numeral.isDigit_toDigits hc, Nat.ofDigitChars_ten_toDigits]
  rw [hvalue] at h
  dsimp only at h
  split at h
  · next hneg =>
    have hlt : n < 0 := of_decide_eq_true hneg
    split at h
    · cases h
      omega
    · cases h
  · next hneg =>
    have hge : ¬n < 0 := fun hlt => hneg (decide_eq_true hlt)
    split at h
    · cases h
      omega
    · cases h

/-- A character that is no digit and no sign is not accepted at the beginning. -/
theorem parseInt_bracket {c : Char} (hc : digitValue c = none) (hminus : c ≠ '-') (hplus : c ≠ '+')
    (hunderscore : c ≠ '_') (t : Text) : parseInt (c :: t) = none := by
  have hsign : Numeral.scanSign (c :: t) = (false, c :: t) := by
    simp [Numeral.scanSign, hminus, hplus]
  have hzero : c ≠ '0' := by
    rintro rfl
    cases hc
  unfold parseInt
  rw [hsign]
  dsimp only
  rw [detectBase_of_head (by simpa using hzero)]
  split
  · rfl
  · rw [List.filter_cons_of_pos (by simpa using hunderscore), digitsValue, hc]

theorem mem_scanSign {t : Text} {c : Char} (h : c ∈ t) : c = '-' ∨ c = '+' ∨ c ∈ (Numeral.scanSign t).2 := by
  cases t with
  | nil => cases h
  | cons d t =>
    by_cases hminus : d = '-'
    · subst hminus
      rcases List.mem_cons.mp h with rfl | hmem
      · exact .inl rfl
      · exact .inr (.inr hmem)
    by_cases hplus : d = '+'
    · subst hplus
      rcases List.mem_cons.mp h with rfl | hmem
      · exact .inr (.inl rfl)
      · exact .inr (.inr hmem)
    have hsame : Numeral.scanSign (d :: t) = (false, d :: t) := by
      simp [Numeral.scanSign, hminus, hplus]
    rw [hsame]
    exact .inr (.inr h)

/-- The text of a float is not read as an integer. -/
theorem parseInt_float (x : JsonFloat) : parseInt x.text.toList = none := by
  obtain ⟨c, hc, hpoint⟩ := List.any_eq_true.mp x.point
  have hchar : c = '.' ∨ c = 'e' := by simpa using hpoint
  have hno : ∀ d, digitValue c = some d → ¬d < 10 := by
    rcases hchar with rfl | rfl
    · intro d hd
      cases hd
    · intro d hd
      cases hd
      decide
  have hchars : ∀ d ∈ (Numeral.scanSign x.text.toList).2, isNumberChar d = true := by
    intro d hd
    apply List.all_eq_true.mp x.number
    unfold Numeral.scanSign at hd
    split at hd
    · next heq =>
      rw [heq]
      exact List.mem_cons_of_mem _ hd
    · next heq =>
      rw [heq]
      exact List.mem_cons_of_mem _ hd
    · exact hd
  have hmem : c ∈ (Numeral.scanSign x.text.toList).2 := by
    rcases mem_scanSign hc with rfl | rfl | hmem
    · rcases hchar with h | h <;> cases h
    · rcases hchar with h | h <;> cases h
    · exact hmem
  -- the text announces base 8 or 10, and `c` is no digit of these
  have hbase : (detectBase (Numeral.scanSign x.text.toList).2).1 ≤ 10 ∧
      c ∈ (detectBase (Numeral.scanSign x.text.toList).2).2 := by
    revert hmem hchars
    generalize (Numeral.scanSign x.text.toList).2 = u
    intro hchars hmem
    have hzero : c ≠ '0' := by rcases hchar with rfl | rfl <;> decide
    unfold detectBase
    split
    · next d e t =>
      have hd : isNumberChar d = true := hchars d (by simp)
      have hb : ¬(d = 'b' ∨ d = 'B') := by rintro (rfl | rfl) <;> cases hd
      have ho : ¬(d = 'o' ∨ d = 'O') := by rintro (rfl | rfl) <;> cases hd
      have hx : ¬(d = 'x' ∨ d = 'X') := by rintro (rfl | rfl) <;> cases hd
      rw [if_neg hb, if_neg ho, if_neg hx]
      exact ⟨Nat.le_of_ble_eq_true rfl, (List.mem_cons.mp hmem).resolve_left hzero⟩
    · exact ⟨Nat.le_of_ble_eq_true rfl, (List.mem_cons.mp hmem).resolve_left hzero⟩
    · exact ⟨Nat.le_refl 10, hmem⟩
  unfold parseInt
  dsimp only
  split
  · rfl
  · cases hvalue : digitsValue (detectBase (Numeral.scanSign x.text.toList).2).1 0
        ((detectBase (Numeral.scanSign x.text.toList).2).2.filter (· ≠ '_')) with
    | none => rfl
    | some n =>
      have hkept : c ∈ (detectBase (Numeral.scanSign x.text.toList).2).2.filter (· ≠ '_') := by
        apply List.mem_filter.mpr
        refine ⟨hbase.2, ?_⟩
        rcases hchar with rfl | rfl <;> rfl
      obtain ⟨d, hd, hlt⟩ := digitsValue_chars hvalue c hkept
      exact absurd (Nat.lt_of_lt_of_le hlt hbase.1) (hno d hd)

/-! ## Floats -/

/-- The characters of a numeral. -/
def isNumeralChar (c : Char) : Bool := Text.isDigit c || c ∈ ['-', '+', '.', 'e', 'E']

theorem mem_takeWhile_or {p : Char → Bool} {t : Text} {c : Char} (h : c ∈ t) :
    p c = true ∨ c ∈ t.dropWhile p := by
  rw [← List.takeWhile_append_dropWhile (p := p) (l := t)] at h
  rcases List.mem_append.mp h with hmem | hmem
  · exact .inl (List.all_eq_true.mp List.all_takeWhile c hmem)
  · exact .inr hmem

theorem scan_chars {t rest : Text} {n : Numeral} (h : Numeral.scan t = some (n, rest)) :
    ∀ c ∈ t, isNumeralChar c = true ∨ c ∈ rest := by
  have hdigit : ∀ c, Text.isDigit c = true → isNumeralChar c = true := by
    intro c hc
    simp [isNumeralChar, hc]
  intro c hc
  unfold Numeral.scan at h
  dsimp only at h
  split at h
  · cases h
  simp only [Option.some.injEq, Prod.mk.injEq] at h
  rcases mem_scanSign hc with rfl | rfl | hmem
  · exact .inl rfl
  · exact .inl rfl
  rcases @mem_takeWhile_or Text.isDigit _ c hmem with hd | hmem
  · exact .inl (hdigit c hd)
  have hfraction : ∀ u : Text, c ∈ u → isNumeralChar c = true ∨ c ∈ (Numeral.scanFraction u).2 := by
    intro u hu
    unfold Numeral.scanFraction
    split
    · next r =>
      rcases List.mem_cons.mp hu with rfl | hr
      · exact .inl rfl
      rcases @mem_takeWhile_or Text.isDigit _ c hr with hd | hr
      · exact .inl (hdigit c hd)
      · exact .inr hr
    · exact .inr hu
  have hexponent : ∀ u : Text, c ∈ u → isNumeralChar c = true ∨ c ∈ (Numeral.scanExponent u).2 := by
    intro u hu
    cases u with
    | nil => cases hu
    | cons d u =>
      simp only [Numeral.scanExponent]
      split
      · next hexp =>
        rcases List.mem_cons.mp hu with rfl | hu
        · rcases hexp.1 with rfl | rfl
          · exact .inl rfl
          · exact .inl rfl
        rcases mem_scanSign hu with rfl | rfl | hu
        · exact .inl rfl
        · exact .inl rfl
        rcases @mem_takeWhile_or Text.isDigit _ c hu with hd | hu
        · exact .inl (hdigit c hd)
        · exact .inr hu
      · exact .inr hu
  rcases hfraction _ hmem with hc | hmem
  · exact .inl hc
  rcases hexponent _ hmem with hc | hmem
  · exact .inl hc
  · rw [← h.2]
    exact .inr hmem

theorem read_chars {t : Text} {q : Rat} (h : Numeral.read t = some q) :
    ∀ c ∈ t, isNumeralChar c = true := by
  unfold Numeral.read at h
  split at h
  · next n hscan =>
    intro c hc
    exact (scan_chars hscan c hc).resolve_right (List.not_mem_nil)
  · cases h

theorem hexFloat_chars {negative : Bool} {t : Text} {q : Rat} (h : hexFloat negative t = some q) :
    ∀ c ∈ t, isHexDigit c = true ∨ c ∈ ['.', 'p', 'P', '-', '+'] := by
  intro c hc
  unfold hexFloat at h
  dsimp only at h
  rcases @mem_takeWhile_or isHexDigit _ c hc with hd | hmem
  · exact .inl hd
  have hfraction : c = '.' ∨ isHexDigit c = true ∨
      c ∈ (hexFraction (t.dropWhile isHexDigit)).2 := by
    unfold hexFraction
    split
    · next r hdrop =>
      rw [hdrop] at hmem
      rcases List.mem_cons.mp hmem with rfl | hr
      · exact .inl rfl
      · exact .inr (mem_takeWhile_or hr)
    · exact .inr (.inr hmem)
  rcases hfraction with rfl | hd | hmem
  · exact .inr (by decide)
  · exact .inl hd
  split at h
  · cases h
  next p r hrest =>
  rw [hrest] at hmem
  split at h
  · next hexp =>
    rcases List.mem_cons.mp hmem with rfl | hr
    · have hp : c = 'p' ∨ c = 'P' := by simpa using hexp.1
      rcases hp with rfl | rfl
      · exact .inr (by decide)
      · exact .inr (by decide)
    rcases mem_scanSign hr with rfl | rfl | hr
    · exact .inr (by decide)
    · exact .inr (by decide)
    have hcode : 48 ≤ c.toNat ∧ c.toNat ≤ 57 := by
      simpa [Text.isDigit] using List.all_eq_true.mp hexp.2.2.2 c hr
    have hvalue : digitValue c = some (c.toNat - 48) := if_pos hcode
    left
    simp only [isHexDigit, hvalue, Option.any_some, decide_eq_true_eq]
    omega
  · cases h

/-- The characters that `strconv.ParseFloat` accepts are ASCII and no white space. -/
def isFloatChar (c : Char) : Bool := (33 ≤ c.toNat && c.toNat < 127)

theorem isFloatChar_of_numeral {c : Char} (h : isNumeralChar c = true) : isFloatChar c = true := by
  have hcases : (48 ≤ c.toNat ∧ c.toNat ≤ 57) ∨ c ∈ ['-', '+', '.', 'e', 'E'] := by
    simpa [isNumeralChar, Text.isDigit] using h
  rcases hcases with hcode | hmem
  · simp only [isFloatChar, Bool.and_eq_true, decide_eq_true_eq]
    omega
  · have hall : ['-', '+', '.', 'e', 'E'].all isFloatChar = true := by decide
    exact List.all_eq_true.mp hall c hmem

theorem isFloatChar_of_hex {c : Char} (h : isHexDigit c = true) : isFloatChar c = true := by
  have hcode : (48 ≤ c.toNat ∧ c.toNat ≤ 57) ∨ (97 ≤ c.toNat ∧ c.toNat ≤ 122) ∨
      (65 ≤ c.toNat ∧ c.toNat ≤ 90) := by
    unfold isHexDigit digitValue at h
    split at h
    · next hc => exact .inl hc
    split at h
    · next hc => exact .inr (.inl hc)
    split at h
    · next hc => exact .inr (.inr hc)
    · cases h
  simp only [isFloatChar, Bool.and_eq_true, decide_eq_true_eq]
  omega

theorem mem_filter_or {t : Text} {c : Char} (h : c ∈ t) : c = '_' ∨ c ∈ t.filter (· ≠ '_') := by
  by_cases hc : c = '_'
  · exact .inl hc
  · exact .inr (List.mem_filter.mpr ⟨h, decide_eq_true hc⟩)

/-- A text with the prefix of hexadecimal numbers is no decimal numeral. -/
theorem read_hex {t r : Text} {x : Char} (ht : (Numeral.scanSign t).2 = '0' :: x :: r)
    (hx : x ∈ ['x', 'X']) : Numeral.read t = none := by
  have hchar : x = 'x' ∨ x = 'X' := by simpa using hx
  have hscan : ∃ n, Numeral.scan t = some (n, x :: r) := by
    unfold Numeral.scan
    rw [ht]
    rcases hchar with rfl | rfl
    · exact ⟨_, rfl⟩
    · exact ⟨_, rfl⟩
  obtain ⟨n, hn⟩ := hscan
  unfold Numeral.read
  rw [hn]

theorem scanSign_filter {t r : Text} (ht : (Numeral.scanSign t).2 = '0' :: r) :
    (Numeral.scanSign (t.filter (· ≠ '_'))).2 = ('0' :: r).filter (· ≠ '_') := by
  cases t with
  | nil => cases ht
  | cons c t =>
    by_cases hminus : c = '-'
    · subst hminus
      have htail : t = '0' :: r := ht
      rw [htail]
      rfl
    by_cases hplus : c = '+'
    · subst hplus
      have htail : t = '0' :: r := ht
      rw [htail]
      rfl
    have hsame : Numeral.scanSign (c :: t) = (false, c :: t) := by
      simp [Numeral.scanSign, hminus, hplus]
    rw [hsame] at ht
    dsimp only at ht
    rw [ht]
    rfl

/-- What is accepted is a decimal numeral, or it begins as a hexadecimal one. -/
theorem parseFloat_cases {t : Text} {q : Rat} (h : parseFloat t = some q) :
    (∀ c ∈ t, isFloatChar c = true) ∧
      ((Numeral.read (t.filter (· ≠ '_'))).bind Double.round = some q ∨
        Numeral.read (t.filter (· ≠ '_')) = none) := by
  have hunderscore : isFloatChar '_' = true := rfl
  have hdecimal : (Numeral.read (t.filter (· ≠ '_'))).bind Double.round = some q →
      (∀ c ∈ t, isFloatChar c = true) ∧
        ((Numeral.read (t.filter (· ≠ '_'))).bind Double.round = some q ∨
          Numeral.read (t.filter (· ≠ '_')) = none) := by
    intro hread
    refine ⟨?_, .inl hread⟩
    obtain ⟨v, hv, -⟩ := Option.bind_eq_some_iff.mp hread
    intro c hc
    rcases mem_filter_or hc with rfl | hmem
    · exact hunderscore
    · exact isFloatChar_of_numeral (read_chars hv c hmem)
  unfold parseFloat at h
  dsimp only at h
  split at h
  · cases h
  split at h
  · next x r ht =>
    split at h
    · next hx =>
      obtain ⟨v, hv, -⟩ := Option.bind_eq_some_iff.mp h
      constructor
      · intro c hc
        have hchar : x = 'x' ∨ x = 'X' := by simpa using hx
        rcases mem_scanSign hc with rfl | rfl | hmem
        · rfl
        · rfl
        rw [ht] at hmem
        rcases List.mem_cons.mp hmem with rfl | hmem
        · rfl
        rcases List.mem_cons.mp hmem with rfl | hmem
        · rcases hchar with rfl | rfl <;> rfl
        rcases mem_filter_or hmem with rfl | hmem
        · rfl
        rcases hexFloat_chars hv c hmem with hd | hmem
        · exact isFloatChar_of_hex hd
        · have hall : ['.', 'p', 'P', '-', '+'].all isFloatChar = true := by decide
          exact List.all_eq_true.mp hall c hmem
      · right
        have hchar : x = 'x' ∨ x = 'X' := by simpa using hx
        have hsign := scanSign_filter ht
        have hkept : ('0' :: x :: r).filter (· ≠ '_') = '0' :: x :: r.filter (· ≠ '_') := by
          rcases hchar with rfl | rfl <;> rfl
        rw [hkept] at hsign
        exact read_hex hsign hx
    · exact hdecimal h
  · exact hdecimal h

/-- Python takes a text of such characters as it is. -/
theorem trim_ascii (unicode : Unicode) {t : Text} (h : ∀ c ∈ t, isFloatChar c = true) :
    Text.trim Text.isPythonSpace (t.map unicode.ascii) = t := by
  have hcode : ∀ c ∈ t, 33 ≤ c.toNat ∧ c.toNat < 127 := by
    intro c hc
    simpa [isFloatChar] using h c hc
  have hascii : t.map unicode.ascii = t := by
    have hsame : ∀ c ∈ t, unicode.ascii c = id c := fun c hc =>
      if_pos (by have hlt := (hcode c hc).2; omega)
    rw [List.map_congr_left hsame, List.map_id]
  rw [hascii]
  apply Text.trim_self
  intro c hc
  have hrange := hcode c hc
  simp only [Text.isPythonSpace, Bool.or_eq_false_iff, Bool.and_eq_false_iff, decide_eq_false_iff_not]
  omega

/-- A text that `float` of Python accepts too is the same number for both. -/
theorem parseFloat_floatOfText {unicode : Unicode} {t : Text} {q q' : Rat}
    (h : parseFloat t = some q) (h' : Json.floatOfText unicode t = some q') : q = q' := by
  obtain ⟨hchars, hcases⟩ := parseFloat_cases h
  unfold Json.floatOfText at h'
  dsimp only at h'
  rw [trim_ascii unicode hchars] at h'
  split at h'
  · rcases hcases with hread | hnone
    · rw [hread] at h'
      exact Option.some.inj h'
    · rw [hnone] at h'
      cases h'
  · cases h'

theorem digitValue_lt_ten {c : Char} {d : Nat} (h : digitValue c = some d) (hlt : d < 10) :
    Text.isDigit c = true := by
  unfold digitValue at h
  split at h
  · next hc => simpa [Text.isDigit] using hc
  split at h
  · have := Option.some.inj h
    omega
  split at h
  · have := Option.some.inj h
    omega
  · cases h

/-- A text without leading zeros that `int` of Python accepts too is the same number for both. -/
theorem parseInt_intOfText {unicode : Unicode} {t : Text} {m n : Int}
    (hplain : (Numeral.scanSign t).2 = ['0'] ∨ (Numeral.scanSign t).2.head? ≠ some '0')
    (h : parseInt t = some m) (h' : Json.intOfText unicode t = some n) : m = n := by
  have hdecimal : ∃ k, digitsValue 10 0 ((Numeral.scanSign t).2.filter (· ≠ '_')) = some k ∧
      m = (if (Numeral.scanSign t).1 then -1 else 1) * (k : Int) := by
    unfold parseInt at h
    dsimp only at h
    rcases hplain with hzero | hhead
    · rw [hzero] at h ⊢
      refine ⟨0, rfl, ?_⟩
      have hread : digitsValue (detectBase ['0']).1 0 ((detectBase ['0']).2.filter (· ≠ '_')) =
        some 0 := rfl
      rw [hread, if_neg (by decide)] at h
      cases hsign : (Numeral.scanSign t).1 <;> rw [hsign] at h <;> simpa using h.symm
    · rw [detectBase_of_head hhead] at h
      split at h
      · cases h
      cases hvalue : digitsValue 10 0 ((Numeral.scanSign t).2.filter (· ≠ '_')) with
      | none =>
        rw [hvalue] at h
        cases h
      | some k =>
        rw [hvalue] at h
        refine ⟨k, rfl, ?_⟩
        cases hsign : (Numeral.scanSign t).1 with
        | true =>
          simp only [hsign, if_true] at h
          split at h
          · rw [← Option.some.inj h]
            simp
          · cases h
        | false =>
          simp only [hsign, Bool.false_eq_true, if_false] at h
          split at h
          · rw [← Option.some.inj h]
            simp
          · cases h
  obtain ⟨k, hvalue, rfl⟩ := hdecimal
  have hdigits : ∀ c ∈ (Numeral.scanSign t).2.filter (· ≠ '_'), Text.isDigit c = true := by
    intro c hc
    obtain ⟨d, hd, hlt⟩ := digitsValue_chars hvalue c hc
    exact digitValue_lt_ten hd hlt
  have hchars : ∀ c ∈ t, isFloatChar c = true := by
    intro c hc
    rcases mem_scanSign hc with rfl | rfl | hmem
    · rfl
    · rfl
    rcases mem_filter_or hmem with rfl | hkept
    · rfl
    · exact isFloatChar_of_numeral (by simp [isNumeralChar, hdigits c hkept])
  have hk : k = Nat.ofDigitChars 10 ((Numeral.scanSign t).2.filter (· ≠ '_')) 0 := by
    rw [digitsValue_decimal hdigits] at hvalue
    exact (Option.some.inj hvalue).symm
  unfold Json.intOfText at h'
  dsimp only at h'
  rw [trim_ascii unicode hchars] at h'
  split at h'
  · rw [← Option.some.inj h', hk]
  · cases h'

/-- What is read is a double. -/
theorem parseFloat_round {t : Text} {x : Rat} (h : parseFloat t = some x) :
    ∃ y, Double.round y = some x := by
  have hbind : ∀ {o : Option Rat}, o.bind Double.round = some x → ∃ y, Double.round y = some x := by
    intro o ho
    obtain ⟨y, -, hy⟩ := Option.bind_eq_some_iff.mp ho
    exact ⟨y, hy⟩
  unfold parseFloat at h
  dsimp only at h
  split at h
  · cases h
  split at h
  · split at h
    · exact hbind h
    · exact hbind h
  · exact hbind h

theorem parseFloat_decimal {t : Text} (hunderscore : '_' ∉ t) (hx : 'x' ∉ t) (hX : 'X' ∉ t) :
    parseFloat t = (Numeral.read t).bind Double.round := by
  have hsign : ∀ c ∈ (Numeral.scanSign t).2, c ∈ t := by
    intro c hc
    unfold Numeral.scanSign at hc
    split at hc
    · exact List.mem_cons_of_mem _ hc
    · exact List.mem_cons_of_mem _ hc
    · exact hc
  unfold parseFloat
  dsimp only
  rw [underscoreOk_of_none fun hmem => hunderscore (hsign _ hmem), if_neg (by simp)]
  split
  · next x r ht =>
    have hmem : x ∈ t := hsign x (by rw [ht]; simp)
    have hne : x ∉ ['x', 'X'] := by
      intro hx'
      have hchar : x = 'x' ∨ x = 'X' := by simpa using hx'
      rcases hchar with rfl | rfl
      · exact hx hmem
      · exact hX hmem
    rw [if_neg hne, filter_underscore hunderscore]
  · rw [filter_underscore hunderscore]

theorem read_encodeInt (n : Int) : Numeral.read (Json.encodeInt n) = some (n : Rat) := by
  let numeral : Numeral := ⟨decide (n < 0), Nat.toDigits 10 n.natAbs, [], 0⟩
  have hprintable : numeral.Printable :=
    ⟨Nat.toDigits_ne_nil, fun c hc => Numeral.isDigit_toDigits hc, by simp [numeral]⟩
  have htext : Json.encodeInt n = numeral.text 1 := by
    simp only [Json.encodeInt, Numeral.text, Numeral.exponentText, numeral]
    split
    · next hneg => simp [hneg]
    · next hneg => simp [hneg]
  have hvalue : numeral.value = n := by
    simp only [Numeral.value, numeral, List.append_nil, Nat.ofDigitChars_ten_toDigits]
    rcases lt_or_ge n 0 with hneg | hpos
    · have habs : ((n.natAbs : Nat) : Rat) = -n := by
        rw [← Int.cast_natCast, Int.ofNat_natAbs_of_nonpos (Int.le_of_lt hneg), Int.cast_neg]
      simp [hneg, habs]
    · have habs : ((n.natAbs : Nat) : Rat) = n := by
        rw [← Int.cast_natCast, Int.natAbs_of_nonneg hpos]
      simp [not_lt.mpr hpos, habs]
  unfold Numeral.read
  rw [htext, Numeral.scan_text 1 hprintable]
  dsimp only
  rw [hvalue]

theorem not_mem_encodeInt {c : Char} (hdigit : c.isDigit = false) (hminus : c ≠ '-') (n : Int) :
    c ∉ Json.encodeInt n := by
  intro hmem
  rcases Json.encodeInt_chars hmem with h | h
  · rw [hdigit] at h
    cases h
  · exact hminus h

/-- The text of an integer is read as the double next to it. -/
theorem parseFloat_encodeInt (n : Int) : parseFloat (Json.encodeInt n) = Double.round n := by
  rw [parseFloat_decimal (not_mem_encodeInt rfl (by decide) n) (not_mem_encodeInt rfl (by decide) n)
    (not_mem_encodeInt rfl (by decide) n), read_encodeInt]
  rfl

/-- The text of a float is read as its value. -/
theorem parseFloat_float (x : JsonFloat) : parseFloat x.text.toList = (Json.float x).number := by
  have hchars : ∀ c ∈ x.text.toList, isNumberChar c = true := List.all_eq_true.mp x.number
  apply parseFloat_decimal
  · exact fun hmem => absurd (hchars _ hmem) (by decide)
  · exact fun hmem => absurd (hchars _ hmem) (by decide)
  · exact fun hmem => absurd (hchars _ hmem) (by decide)

/-- A text that begins with another character is no number. -/
theorem parseFloat_of_head {c : Char} (hc : isNumeralChar c = false) (hunderscore : c ≠ '_')
    (t : Text) : parseFloat (c :: t) = none := by
  cases h : parseFloat (c :: t) with
  | none => rfl
  | some q =>
    have hsign : Numeral.scanSign (c :: t) = (false, c :: t) := by
      have hminus : c ≠ '-' := by rintro rfl; cases hc
      have hplus : c ≠ '+' := by rintro rfl; cases hc
      simp [Numeral.scanSign, hminus, hplus]
    have hzero : c ≠ '0' := by
      rintro rfl
      cases hc
    unfold parseFloat at h
    rw [hsign] at h
    dsimp only at h
    split at h
    · cases h
    split at h
    · next heq => exact absurd (List.cons.inj heq).1 hzero
    · obtain ⟨v, hv, -⟩ := Option.bind_eq_some_iff.mp h
      have hmem : c ∈ (c :: t).filter (· ≠ '_') :=
        List.mem_filter.mpr ⟨List.mem_cons_self .., decide_eq_true hunderscore⟩
      have hnumeral := read_chars hv c hmem
      rw [hc] at hnumeral
      cases hnumeral

end Strconv
