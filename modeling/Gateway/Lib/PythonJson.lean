import Gateway.Lib.Double
import Gateway.Lib.Json

/-!
# JSON values as Python has them

The values that `json.load` makes: which of them are equal, which are true, and how `str`,
`int` and `float` convert them. Equality is by value, so that `1`, `1.0` and `True` are
equal. A float is finite.

`str` writes a list or a dictionary between brackets; what it writes there is the parameter
`inner`. What Unicode says of the characters beyond ASCII is a parameter too.

## Key results

- `number_ofNumeral`, `number_ofDouble`: the number that a numeral and a float are
- `pyEq_str`, `pyEq_int`: what is equal to a string and to an integer
-/

/-- What Python asks the Unicode tables for. -/
structure Unicode where
  /-- the ASCII digit of a decimal digit -/
  decimal : Char → Option Char
  /-- a word character of `re` -/
  word : Char → Bool
  /-- a character by its name -/
  named : Text → Option Char

namespace Text

/-- `str.isspace` of one character. -/
def isPythonSpace (c : Char) : Bool :=
  (9 ≤ c.toNat && c.toNat ≤ 13) || (28 ≤ c.toNat && c.toNat ≤ 32) || c.toNat = 0x85 ||
    c.toNat = 0xa0 || c.toNat = 0x1680 || (0x2000 ≤ c.toNat && c.toNat ≤ 0x200a) ||
    c.toNat = 0x2028 || c.toNat = 0x2029 || c.toNat = 0x202f || c.toNat = 0x205f ||
    c.toNat = 0x3000

/-- Every underscore is between two digits; `digitBefore` is whether a digit comes before. -/
def underscoresOk (digit : Char → Bool) (digitBefore : Bool) : Text → Bool
  | [] => true
  | ['_'] => false
  | '_' :: c :: t => digitBefore && digit c && underscoresOk digit true t
  | c :: t => underscoresOk digit (digit c) t

end Text

/-- Decimal digits as ASCII digits. -/
def Unicode.ascii (unicode : Unicode) (c : Char) : Char :=
  if c.toNat < 128 then c else (unicode.decimal c).getD c

namespace Json

/-! ## Numbers -/

/-- The number that a value is. -/
def number : Json → Option Rat
  | .bool b => some (if b then 1 else 0)
  | .int n => some n
  | .float x => (Numeral.read x.text.toList).bind Double.round
  | _ => none

theorem isNumberChar_of_isDigit {c : Char} (h : Text.isDigit c = true) :
    isNumberChar c = true := by
  have hcode : 48 ≤ c.toNat ∧ c.toNat ≤ 57 := by simpa [Text.isDigit] using h
  have hdigit : c.isDigit = true := by
    simp only [Char.isDigit, Bool.and_eq_true, decide_eq_true_eq, ge_iff_le,
      UInt32.le_iff_toNat_le]
    exact hcode
  simp [isNumberChar, hdigit]

theorem isNumberChar_text (width : Nat) {n : Numeral} (h : n.Printable) :
    (n.text width).all isNumberChar = true := by
  have hexp : ∀ c ∈ Numeral.exponentText width n.exponent, isNumberChar c = true := by
    intro c hc
    unfold Numeral.exponentText at hc
    split at hc
    · cases hc
    rcases List.mem_cons.mp hc with rfl | hc
    · rfl
    rcases List.mem_cons.mp hc with rfl | hc
    · split <;> rfl
    · exact isNumberChar_of_isDigit (Numeral.isDigit_exponentDigits hc)
  rw [List.all_eq_true]
  intro c hc
  unfold Numeral.text at hc
  rcases List.mem_append.mp hc with hc | hc
  · split at hc
    · rw [List.mem_singleton.mp hc]
      rfl
    · cases hc
  rcases List.mem_append.mp hc with hc | hc
  · exact isNumberChar_of_isDigit (h.whole c hc)
  rcases List.mem_append.mp hc with hc | hc
  · split at hc
    · cases hc
    rcases List.mem_cons.mp hc with rfl | hc
    · rfl
    · exact isNumberChar_of_isDigit (h.fraction c hc)
  · exact hexp c hc

theorem point_text (width : Nat) {n : Numeral} (h : ¬(n.fraction = [] ∧ n.exponent = 0)) :
    (n.text width).any (fun c => c = '.' || c = 'e') = true := by
  rw [List.any_eq_true]
  by_cases hfraction : n.fraction = []
  · have hexp : n.exponent ≠ 0 := fun hzero => h ⟨hfraction, hzero⟩
    exact ⟨'e', by simp [Numeral.text, Numeral.exponentText, hexp], by simp⟩
  · exact ⟨'.', by simp [Numeral.text, hfraction], by simp⟩

/-- The value that `json.load` makes of a numeral: an integer unless it has a point or an
    exponent. -/
def ofNumeral (n : Numeral) (h : n.Printable) : Json :=
  if hint : n.fraction = [] ∧ n.exponent = 0 then
    .int ((if n.negative then -1 else 1) * Nat.ofDigitChars 10 n.whole 0)
  else
    .float
      { text := String.ofList (n.text 1)
        number := by rw [String.toList_ofList]; exact isNumberChar_text 1 h
        point := by rw [String.toList_ofList]; exact point_text 1 hint }

/-- The number that a numeral is read as. -/
theorem number_ofNumeral {n : Numeral} (h : n.Printable) :
    (ofNumeral n h).number =
      if n.fraction = [] ∧ n.exponent = 0 then some n.value else Double.round n.value := by
  unfold ofNumeral
  split
  · next hint =>
    simp only [number, Numeral.value, hint.1, hint.2]
    cases n.negative <;> simp
  · simp [number, Numeral.read, Numeral.scan_text 1 h]

/-- A point for a numeral that has no point and no power of ten. -/
def withPoint (n : Numeral) : Numeral :=
  { n with fraction := if n.fraction = [] ∧ n.exponent = 0 then ['0'] else n.fraction }

/-- The numeral of `repr` of a float: in fixed-point notation from `1e-4` up to `1e16`. -/
def reprNumeral (x : Rat) : Numeral :=
  withPoint (Double.numeral (fun y => 1 / 10 ^ 4 ≤ y ∧ y < 10 ^ 16) x)

theorem printable_withPoint {n : Numeral} (h : n.Printable) : (withPoint n).Printable := by
  refine ⟨h.whole_ne_nil, h.whole, ?_⟩
  unfold withPoint
  dsimp only
  split
  · simp [Text.isDigit]
  · exact h.fraction

theorem value_withPoint (n : Numeral) : (withPoint n).value = n.value := by
  unfold withPoint Numeral.value
  dsimp only
  by_cases hint : n.fraction = [] ∧ n.exponent = 0
  · rw [if_pos hint, hint.1, hint.2, List.append_nil, Nat.ofDigitChars_append]
    simp [Nat.ofDigitChars_cons]
    ring_nf
  · rw [if_neg hint]

theorem point_withPoint (n : Numeral) :
    ¬((withPoint n).fraction = [] ∧ (withPoint n).exponent = 0) := by
  unfold withPoint
  dsimp only
  split
  · rintro ⟨hnil, -⟩
    cases hnil
  · next hne => exact hne

/-- A float, by its value. -/
def ofDouble (x : Rat) : Json :=
  .float
    { text := String.ofList ((reprNumeral x).text 2)
      number := by
        rw [String.toList_ofList]
        exact isNumberChar_text 2 (printable_withPoint (Double.printable_numeral _ x))
      point := by
        rw [String.toList_ofList]
        exact point_text 2 (point_withPoint _) }

/-- A float is the number it was made of. -/
theorem number_ofDouble {x y : Rat} (h : Double.round y = some x) :
    (ofDouble x).number = some x := by
  have hprintable : (reprNumeral x).Printable :=
    printable_withPoint (Double.printable_numeral _ x)
  simp only [ofDouble, number, Numeral.read, String.toList_ofList, Numeral.scan_text 2 hprintable,
    Option.bind_some]
  rw [reprNumeral, value_withPoint]
  exact Double.round_numeral _ h

/-! ## Equality -/

mutual

/-- `a == b` -/
def pyEq : Json → Json → Bool
  | .arr xs, .arr ys => pyEqItems xs ys
  | .obj fs, .obj gs => fs.length = gs.length && pyEqFields fs gs
  | a, b =>
    match a.number, b.number with
    | some x, some y => x = y
    | _, _ => a = b

/-- Equality of the items of lists. -/
def pyEqItems : List Json → List Json → Bool
  | [], [] => true
  | x :: xs, y :: ys => pyEq x y && pyEqItems xs ys
  | _, _ => false

/-- The items of a dictionary are equal to those of another. -/
def pyEqFields : List (String × Json) → List (String × Json) → Bool
  | [], _ => true
  | (k, x) :: fs, gs =>
    (match getField gs k with
      | some y => pyEq x y
      | none => false) && pyEqFields fs gs

end

/-- Only the same string is equal to a string. -/
theorem pyEq_str {a : Json} {s : String} : pyEq a (.str s) = true ↔ a = .str s := by
  cases a <;> simp [pyEq, number]

/-- What is equal to an integer is a number. -/
theorem pyEq_int {a : Json} {n : Int} : pyEq a (.int n) = true ↔ a.number = some (n : Rat) := by
  cases a with
  | null => simp [pyEq, number]
  | bool b => simp [pyEq, number]
  | int m => simp [pyEq, number]
  | float x =>
    simp only [pyEq, number]
    cases (Numeral.read x.text.toList).bind Double.round <;> simp
  | str s => simp [pyEq, number]
  | arr xs => simp [pyEq, number]
  | obj fs => simp [pyEq, number]

theorem pyEq_bool {a : Json} {b : Bool} :
    pyEq a (.bool b) = true ↔ a.number = some (if b then 1 else 0) := by
  cases a with
  | float x =>
    simp only [pyEq, number]
    cases (Numeral.read x.text.toList).bind Double.round <;> simp
  | _ => simp [pyEq, number]

/-- Only `None` is equal to `None`. -/
theorem pyEq_null {b : Json} : pyEq .null b = true ↔ b = .null := by
  cases b with
  | float y =>
    simp only [pyEq, number]
    simp
  | _ => simp [pyEq, number]

/-- Values that are one number are equal. -/
theorem pyEq_of_number {a b : Json} {x : Rat} (ha : a.number = some x) (hb : b.number = some x) :
    pyEq a b = true := by
  cases a <;> cases b <;> simp_all [pyEq, number]

/-- What is equal to a number is a number. -/
theorem number_of_pyEq {a b : Json} {x : Rat} (ha : a.number = some x) (h : pyEq a b = true) :
    b.number = some x := by
  cases b with
  | float y =>
    cases hy : (Json.float y).number <;> cases a <;> simp_all [pyEq]
  | _ => cases a <;> simp_all [pyEq, number]

/-! ## Conversions -/

/-- `bool(value)` -/
def truthy : Json → Bool
  | .null => false
  | .bool b => b
  | .int n => n ≠ 0
  | .float x => number (.float x) ≠ some 0
  | .str s => s ≠ ""
  | .arr xs => !xs.isEmpty
  | .obj fields => !fields.isEmpty

/-- `str(value)` -/
def toText (inner : Json → Text) : Json → Text
  | .null => "None".toList
  | .bool true => "True".toList
  | .bool false => "False".toList
  | .int n => encodeInt n
  | .float x => x.text.toList
  | .str s => s.toList
  | .arr xs => '[' :: inner (.arr xs) ++ [']']
  | .obj fields => '\x7b' :: inner (.obj fields) ++ ['\x7d']

/-- `int(text)` -/
def intOfText (unicode : Unicode) (t : Text) : Option Int :=
  let digits := (Numeral.scanSign (Text.trim Text.isPythonSpace (t.map unicode.ascii))).2
  if Text.underscoresOk Text.isDigit false digits ∧
      digits.any Text.isDigit ∧ digits.all fun c => Text.isDigit c || c = '_' then
    some ((if (Numeral.scanSign (Text.trim Text.isPythonSpace (t.map unicode.ascii))).1 then -1 else 1) *
      Nat.ofDigitChars 10 (digits.filter (· ≠ '_')) 0)
  else none

/-- `int(value)`; `none` is an exception. -/
def toInt (unicode : Unicode) : Json → Option Int
  | .bool b => some (if b then 1 else 0)
  | .int n => some n
  | .float x => (number (.float x)).map fun q => if q < 0 then ⌈q⌉ else ⌊q⌋
  | .str s => intOfText unicode s.toList
  | _ => none

/-- `float(text)`, when it is finite. -/
def floatOfText (unicode : Unicode) (t : Text) : Option Rat :=
  let trimmed := Text.trim Text.isPythonSpace (t.map unicode.ascii)
  if Text.underscoresOk Text.isDigit false trimmed then
    (Numeral.read (trimmed.filter (· ≠ '_'))).bind Double.round
  else none

/-- `float(value)`, when it is finite; `none` is an exception too. -/
def toFloat (unicode : Unicode) : Json → Option Rat
  | .str s => floatOfText unicode s.toList
  | a => a.number.bind Double.round

end Json
