import Mathlib.Data.List.Basic
import Mathlib.Data.List.Sort

/-!
# JSON values and their compact text

JSON values as a dynamic language holds them: integers and floats are different, and
the members of an object have an order. `encode` is the text without spaces and
without ASCII escaping; `dumps` sorts the members of every object first.

A finite float is given by its shortest text, which identifies it.

## Key results

- `encode_append_inj`: a text determines its value, and where it ends
- `encode_injective`
-/

/-- The characters of numbers. -/
def isNumberChar (c : Char) : Bool := c.isDigit || c ∈ ['-', '+', '.', 'e']

/-- A finite float, by the text that is printed for it. It has a point or an exponent, so
    it is not the text of an integer. -/
structure JsonFloat where
  text : String
  number : text.toList.all isNumberChar = true
  point : text.toList.any (fun c => c = '.' || c = 'e') = true
deriving DecidableEq

/-- A JSON value. -/
inductive Json
  | null
  | bool (b : Bool)
  | int (n : Int)
  | float (x : JsonFloat)
  | str (s : String)
  | arr (xs : List Json)
  | obj (fields : List (String × Json))

namespace Json

/-! ## Equality -/

mutual

/-- Decide equality of values. -/
def decEq : (a b : Json) → Decidable (a = b)
  | .null, .null => isTrue rfl
  | .bool b, .bool b' => decidable_of_iff (b = b') (by simp)
  | .int n, .int n' => decidable_of_iff (n = n') (by simp)
  | .float x, .float x' => decidable_of_iff (x = x') (by simp)
  | .str s, .str s' => decidable_of_iff (s = s') (by simp)
  | .arr xs, .arr xs' => @decidable_of_iff _ (xs = xs') (by simp) (decEqItems xs xs')
  | .obj fs, .obj fs' => @decidable_of_iff _ (fs = fs') (by simp) (decEqFields fs fs')
  | .null, .bool _ | .null, .int _ | .null, .float _ | .null, .str _ | .null, .arr _ | .null, .obj _
  | .bool _, .null | .bool _, .int _ | .bool _, .float _ | .bool _, .str _ | .bool _, .arr _
  | .bool _, .obj _ | .int _, .null | .int _, .bool _ | .int _, .float _ | .int _, .str _
  | .int _, .arr _ | .int _, .obj _ | .float _, .null | .float _, .bool _ | .float _, .int _
  | .float _, .str _ | .float _, .arr _ | .float _, .obj _ | .str _, .null | .str _, .bool _
  | .str _, .int _ | .str _, .float _ | .str _, .arr _ | .str _, .obj _ | .arr _, .null
  | .arr _, .bool _ | .arr _, .int _ | .arr _, .float _ | .arr _, .str _ | .arr _, .obj _
  | .obj _, .null | .obj _, .bool _ | .obj _, .int _ | .obj _, .float _ | .obj _, .str _
  | .obj _, .arr _ => isFalse nofun

/-- Decide equality of the items of arrays. -/
def decEqItems : (xs ys : List Json) → Decidable (xs = ys)
  | [], [] => isTrue rfl
  | x :: xs, y :: ys =>
    match decEq x y, decEqItems xs ys with
    | isTrue h, isTrue hs => isTrue (h ▸ hs ▸ rfl)
    | isFalse h, _ => isFalse fun heq => h (List.cons.inj heq).1
    | _, isFalse hs => isFalse fun heq => hs (List.cons.inj heq).2
  | [], _ :: _ | _ :: _, [] => isFalse nofun

/-- Decide equality of the members of objects. -/
def decEqFields : (fs gs : List (String × Json)) → Decidable (fs = gs)
  | [], [] => isTrue rfl
  | (k, x) :: fs, (k', y) :: gs =>
    match decEq x y, decEqFields fs gs with
    | isTrue h, isTrue hs => decidable_of_iff (k = k') (by simp [h, hs])
    | isFalse h, _ => isFalse fun heq => h (Prod.mk.inj (List.cons.inj heq).1).2
    | _, isFalse hs => isFalse fun heq => hs (List.cons.inj heq).2
  | [], _ :: _ | _ :: _, [] => isFalse nofun

end

instance : DecidableEq Json := decEq

/-! ## Reading -/

/-- `d.get(key)` of the members of an object. -/
def getField (fields : List (String × Json)) (key : String) : Option Json :=
  (fields.find? fun f => f.1 = key).map (·.2)

/-- `d[key] = value`: a present key keeps its place, a new one goes to the end. -/
def setField (fields : List (String × Json)) (key : String) (value : Json) : List (String × Json) :=
  if fields.any (·.1 = key) then fields.map fun f => if f.1 = key then (key, value) else f
  else fields ++ [(key, value)]

/-! ## Printing -/

/-- The digits of four bits. -/
def hexDigit (n : Nat) : Char := if n < 10 then Char.ofNat (48 + n) else Char.ofNat (87 + n)

/-- How a character is written in a string. -/
def escapeChar (c : Char) : List Char :=
  if c = '"' then ['\\', '"']
  else if c = '\\' then ['\\', '\\']
  else if c = '\n' then ['\\', 'n']
  else if c = '\r' then ['\\', 'r']
  else if c = '\t' then ['\\', 't']
  else if c = '\x08' then ['\\', 'b']
  else if c = '\x0c' then ['\\', 'f']
  else if c.toNat < 32 then ['\\', 'u', '0', '0', hexDigit (c.toNat / 16), hexDigit (c.toNat % 16)]
  else [c]

/-- A string, escaped and quoted. -/
def encodeString (s : String) : List Char := '"' :: (s.toList.flatMap escapeChar ++ ['"'])

/-- An integer. -/
def encodeInt (n : Int) : List Char :=
  if n < 0 then '-' :: Nat.toDigits 10 n.natAbs else Nat.toDigits 10 n.natAbs

mutual

/-- The text of a value. -/
def encode : Json → List Char
  | .null => ['n', 'u', 'l', 'l']
  | .bool true => ['t', 'r', 'u', 'e']
  | .bool false => ['f', 'a', 'l', 's', 'e']
  | .int n => encodeInt n
  | .float x => x.text.toList
  | .str s => encodeString s
  | .arr xs => '[' :: encodeItems xs
  | .obj fields => '{' :: encodeFields fields

/-- The items of an array, up to its end. -/
def encodeItems : List Json → List Char
  | [] => [']']
  | [x] => encode x ++ [']']
  | x :: y :: xs => encode x ++ ',' :: encodeItems (y :: xs)

/-- The members of an object, up to its end. -/
def encodeFields : List (String × Json) → List Char
  | [] => ['}']
  | [(k, x)] => encodeString k ++ ':' :: (encode x ++ ['}'])
  | (k, x) :: f :: fields => encodeString k ++ ':' :: (encode x ++ ',' :: encodeFields (f :: fields))

end

mutual

/-- Sort the members of every object by their keys. -/
def sortKeys : Json → Json
  | .arr xs => .arr (sortKeysItems xs)
  | .obj fields => .obj ((sortKeysFields fields).insertionSort fun f g => f.1 ≤ g.1)
  | j => j

/-- Sort the members of the objects in an array. -/
def sortKeysItems : List Json → List Json
  | [] => []
  | x :: xs => sortKeys x :: sortKeysItems xs

/-- Sort the members of the objects in the values of an object. -/
def sortKeysFields : List (String × Json) → List (String × Json)
  | [] => []
  | (k, x) :: fields => (k, sortKeys x) :: sortKeysFields fields

end

/-- `json.dumps` with compact separators and `ensure_ascii=False`. -/
def dumps (j : Json) : String := String.ofList (encode j)

/-- `json.dumps` with `sort_keys=True` besides. -/
def dumpsSorted (j : Json) : String := dumps (sortKeys j)

/-! ## A text determines its value -/

/-- The value of a hexadecimal digit. -/
def hexValue (c : Char) : Nat := if c.toNat < 58 then c.toNat - 48 else c.toNat - 87

/-- Read one character of a string, and what follows it. -/
def unescape : List Char → Option (Char × List Char)
  | '\\' :: '"' :: r => some ('"', r)
  | '\\' :: '\\' :: r => some ('\\', r)
  | '\\' :: 'n' :: r => some ('\n', r)
  | '\\' :: 'r' :: r => some ('\r', r)
  | '\\' :: 't' :: r => some ('\t', r)
  | '\\' :: 'b' :: r => some ('\x08', r)
  | '\\' :: 'f' :: r => some ('\x0c', r)
  | '\\' :: 'u' :: '0' :: '0' :: a :: b :: r => some (Char.ofNat (16 * hexValue a + hexValue b), r)
  | c :: r => some (c, r)
  | [] => none

theorem hexValue_hexDigit : ∀ n < 16, hexValue (hexDigit n) = n := by decide

theorem unescape_escapeChar (c : Char) (r : List Char) :
    unescape (escapeChar c ++ r) = some (c, r) := by
  unfold escapeChar
  split
  · next h => rw [h]; rfl
  split
  · next h => rw [h]; rfl
  split
  · next h => rw [h]; rfl
  split
  · next h => rw [h]; rfl
  split
  · next h => rw [h]; rfl
  split
  · next h => rw [h]; rfl
  split
  · next h => rw [h]; rfl
  split
  · next hlt =>
    show some (Char.ofNat (16 * hexValue (hexDigit (c.toNat / 16)) +
      hexValue (hexDigit (c.toNat % 16))), r) = _
    rw [hexValue_hexDigit _ (by omega), hexValue_hexDigit _ (by omega), Nat.div_add_mod,
      Char.ofNat_toNat]
  · next h _ _ _ _ _ _ =>
    show unescape (c :: r) = _
    unfold unescape
    split <;> simp_all

/-- No character is written with a leading quote. -/
theorem escapeChar_ne_quote (c : Char) : ∃ d rest, escapeChar c = d :: rest ∧ d ≠ '"' := by
  unfold escapeChar
  split
  · exact ⟨_, _, rfl, by decide⟩
  next hquote =>
  iterate 7
    split
    · exact ⟨_, _, rfl, by decide⟩
  exact ⟨c, [], rfl, hquote⟩

/-- A quoted text ends where it began. -/
theorem escape_append_inj {s t r r' : List Char}
    (h : s.flatMap escapeChar ++ '"' :: r = t.flatMap escapeChar ++ '"' :: r') : s = t ∧ r = r' := by
  induction s generalizing t with
  | nil =>
    cases t with
    | nil => exact ⟨rfl, (List.cons.inj h).2⟩
    | cons d t =>
      obtain ⟨e, rest, he, hne⟩ := escapeChar_ne_quote d
      rw [List.flatMap_cons, he] at h
      exact absurd (List.cons.inj h).1.symm hne
  | cons c s ih =>
    cases t with
    | nil =>
      obtain ⟨e, rest, he, hne⟩ := escapeChar_ne_quote c
      rw [List.flatMap_cons, he] at h
      exact absurd (List.cons.inj h).1 hne
    | cons d t =>
      simp only [List.flatMap_cons, List.append_assoc] at h
      have hread := congrArg unescape h
      rw [unescape_escapeChar, unescape_escapeChar] at hread
      obtain ⟨rfl, hrest⟩ := Prod.mk.inj (Option.some.inj hread)
      obtain ⟨rfl, rfl⟩ := ih hrest
      exact ⟨rfl, rfl⟩

theorem encodeString_append_inj {s t : String} {r r' : List Char}
    (h : encodeString s ++ r = encodeString t ++ r') : s = t ∧ r = r' := by
  unfold encodeString at h
  simp only [List.cons_append, List.append_assoc, List.nil_append] at h
  obtain ⟨hs, hr⟩ := escape_append_inj (List.cons.inj h).2
  exact ⟨String.toList_injective hs, hr⟩

/-- The text goes on with something that is not part of a number. -/
def Stops (r : List Char) : Prop := ∀ c ∈ r.head?, isNumberChar c = false

/-- Numbers end where their characters end. -/
theorem number_append_inj {a b r r' : List Char} (ha : a.all isNumberChar = true)
    (hb : b.all isNumberChar = true) (hr : Stops r) (hr' : Stops r') (h : a ++ r = b ++ r') :
    a = b ∧ r = r' := by
  induction a generalizing b with
  | nil =>
    cases b with
    | nil => exact ⟨rfl, h⟩
    | cons d b =>
      rw [List.nil_append] at h
      have hd : isNumberChar d = true := by simp at hb; exact hb.1
      rw [hr d (by rw [h]; rfl)] at hd
      exact nomatch hd
  | cons c a ih =>
    have hc : isNumberChar c = true ∧ a.all isNumberChar = true := by simpa using ha
    cases b with
    | nil =>
      rw [List.nil_append] at h
      have hnot := hr' c (by rw [← h]; rfl)
      rw [hc.1] at hnot
      exact nomatch hnot
    | cons d b =>
      have hd : isNumberChar d = true ∧ b.all isNumberChar = true := by simpa using hb
      obtain ⟨rfl, htail⟩ := List.cons.inj h
      obtain ⟨rfl, rfl⟩ := ih hc.2 hd.2 htail
      exact ⟨rfl, rfl⟩

theorem isDigit_of_mem_toDigits {n : Nat} {c : Char} (h : c ∈ Nat.toDigits 10 n) :
    c.isDigit = true := Nat.isDigit_of_mem_toDigits (by decide) (by decide) h

theorem encodeInt_chars {n : Int} {c : Char} (h : c ∈ encodeInt n) : c.isDigit = true ∨ c = '-' := by
  unfold encodeInt at h
  split at h
  · rcases List.mem_cons.mp h with rfl | hmem
    · exact .inr rfl
    · exact .inl (isDigit_of_mem_toDigits hmem)
  · exact .inl (isDigit_of_mem_toDigits h)

theorem encodeInt_number (n : Int) : (encodeInt n).all isNumberChar = true := by
  rw [List.all_eq_true]
  intro c hc
  rcases encodeInt_chars hc with hdigit | rfl
  · simp [isNumberChar, hdigit]
  · rfl

theorem toDigits_injective {n m : Nat} (h : Nat.toDigits 10 n = Nat.toDigits 10 m) : n = m := by
  rw [← Nat.ofDigitChars_ten_toDigits (n := n), h, Nat.ofDigitChars_ten_toDigits]

theorem toDigits_ne_minus {n : Nat} {l : List Char} : Nat.toDigits 10 n ≠ '-' :: l := by
  intro h
  have hdigit : '-'.isDigit = true := isDigit_of_mem_toDigits (n := n) (by rw [h]; simp)
  exact nomatch hdigit

theorem encodeInt_injective {n m : Int} (h : encodeInt n = encodeInt m) : n = m := by
  unfold encodeInt at h
  split at h <;> split at h
  · have := toDigits_injective (List.cons.inj h).2
    omega
  · exact absurd h.symm toDigits_ne_minus
  · exact absurd h toDigits_ne_minus
  · have := toDigits_injective h
    omega

/-- An integer is not printed as a float is. -/
theorem encodeInt_ne_float (n : Int) (x : JsonFloat) : encodeInt n ≠ x.text.toList := by
  intro h
  obtain ⟨c, hc, hpoint⟩ := List.any_eq_true.mp x.point
  rw [← h] at hc
  rcases encodeInt_chars hc with hdigit | rfl
  · simp only [Bool.or_eq_true, decide_eq_true_eq] at hpoint
    rcases hpoint with rfl | rfl
    · exact nomatch hdigit
    · exact nomatch hdigit
  · exact nomatch hpoint

/-- What kind of value a text begins. -/
def headKind (c : Char) : Nat :=
  if c = 'n' then 0
  else if c = 't' || c = 'f' then 1
  else if isNumberChar c then 2
  else if c = '"' then 3
  else if c = '[' then 4
  else if c = '{' then 5
  else 6

/-- What kind of value it is, as far as the first character tells. -/
def kind : Json → Nat
  | .null => 0
  | .bool _ => 1
  | .int _ | .float _ => 2
  | .str _ => 3
  | .arr _ => 4
  | .obj _ => 5

theorem headKind_of_number {c : Char} (h : isNumberChar c = true) : headKind c = 2 := by
  unfold headKind
  rw [if_neg (by rintro rfl; exact nomatch h), if_neg ?_, if_pos h]
  rw [Bool.or_eq_true, decide_eq_true_eq, decide_eq_true_eq]
  rintro (rfl | rfl)
  · exact nomatch h
  · exact nomatch h

theorem number_head {l : List Char} (hl : l.all isNumberChar = true) (hne : l ≠ []) :
    ∃ c rest, l = c :: rest ∧ headKind c = 2 := by
  cases l with
  | nil => exact absurd rfl hne
  | cons c rest =>
    have hc : isNumberChar c = true ∧ rest.all isNumberChar = true := by simpa using hl
    exact ⟨c, rest, rfl, headKind_of_number hc.1⟩

theorem encode_head (a : Json) : ∃ c rest, encode a = c :: rest ∧ headKind c = kind a := by
  cases a with
  | null | str | arr | obj => exact ⟨_, _, rfl, rfl⟩
  | bool b => cases b <;> exact ⟨_, _, rfl, rfl⟩
  | int n =>
    refine number_head (encodeInt_number n) ?_
    show encodeInt n ≠ []
    unfold encodeInt
    split
    · exact nofun
    · exact Nat.toDigits_ne_nil
  | float x =>
    refine number_head x.number fun hnil => ?_
    change x.text.toList = [] at hnil
    have hpoint := x.point
    rw [hnil] at hpoint
    exact nomatch hpoint

theorem kind_lt (a : Json) : kind a < 6 := by cases a <;> simp [kind]

/-- Texts of different kinds differ at once. -/
theorem kind_eq_of_encode {a b : Json} {r r' : List Char} (h : encode a ++ r = encode b ++ r') :
    kind a = kind b := by
  obtain ⟨c, rest, ha, hc⟩ := encode_head a
  obtain ⟨d, rest', hb, hd⟩ := encode_head b
  rw [ha, hb] at h
  rw [← hc, ← hd, (List.cons.inj h).1]

/-- No value begins with a closing bracket. -/
theorem encode_ne_bracket {a : Json} {c : Char} {r r' : List Char} (hc : headKind c = 6) :
    c :: r ≠ encode a ++ r' := by
  intro h
  obtain ⟨d, rest, ha, hd⟩ := encode_head a
  rw [ha] at h
  have hlt := kind_lt a
  rw [← hd, ← (List.cons.inj h).1, hc] at hlt
  exact Nat.lt_irrefl _ hlt

theorem stops_cons {c : Char} {r : List Char} (h : isNumberChar c = false) : Stops (c :: r) := by
  intro d hd
  obtain rfl := Option.some.inj hd
  exact h

mutual

/-- A text determines its value and where it ends. -/
theorem encode_append_inj : (a b : Json) → {r r' : List Char} → Stops r → Stops r' →
    encode a ++ r = encode b ++ r' → a = b ∧ r = r'
  | .arr xs, b, r, r', _, _, h => by
    have hkind := kind_eq_of_encode h
    cases b with
    | arr ys =>
      obtain ⟨rfl, hr⟩ := encodeItems_append_inj xs ys (List.cons.inj h).2
      exact ⟨rfl, hr⟩
    | null | bool | int | float | str | obj => exact nomatch hkind
  | .obj fs, b, r, r', _, _, h => by
    have hkind := kind_eq_of_encode h
    cases b with
    | obj gs =>
      obtain ⟨rfl, hr⟩ := encodeFields_append_inj fs gs (List.cons.inj h).2
      exact ⟨rfl, hr⟩
    | null | bool | int | float | str | arr => exact nomatch hkind
  | .str s, b, r, r', _, _, h => by
    have hkind := kind_eq_of_encode h
    cases b with
    | str t =>
      obtain ⟨rfl, hr⟩ := encodeString_append_inj h
      exact ⟨rfl, hr⟩
    | null | bool | int | float | arr | obj => exact nomatch hkind
  | .null, b, r, r', _, _, h => by
    have hkind := kind_eq_of_encode h
    cases b with
    | null => exact ⟨rfl, List.append_cancel_left h⟩
    | bool | int | float | str | arr | obj => exact nomatch hkind
  | .bool p, b, r, r', _, _, h => by
    have hkind := kind_eq_of_encode h
    cases b with
    | bool q =>
      cases p with
      | true =>
        cases q with
        | true => exact ⟨rfl, List.append_cancel_left h⟩
        | false => simp [encode] at h
      | false =>
        cases q with
        | true => simp [encode] at h
        | false => exact ⟨rfl, List.append_cancel_left h⟩
    | null | int | float | str | arr | obj => exact nomatch hkind
  | .int n, b, r, r', hr, hr', h => by
    have hkind := kind_eq_of_encode h
    cases b with
    | int m =>
      obtain ⟨heq, hrest⟩ := number_append_inj (encodeInt_number n) (encodeInt_number m) hr hr' h
      exact ⟨congrArg Json.int (encodeInt_injective heq), hrest⟩
    | float x =>
      obtain ⟨heq, -⟩ := number_append_inj (encodeInt_number n) x.number hr hr' h
      exact absurd heq (encodeInt_ne_float n x)
    | null | bool | str | arr | obj => exact nomatch hkind
  | .float x, b, r, r', hr, hr', h => by
    have hkind := kind_eq_of_encode h
    cases b with
    | int m =>
      obtain ⟨heq, -⟩ := number_append_inj x.number (encodeInt_number m) hr hr' h
      exact absurd heq.symm (encodeInt_ne_float m x)
    | float y =>
      obtain ⟨heq, hrest⟩ := number_append_inj x.number y.number hr hr' h
      have htext : x.text = y.text := String.toList_injective heq
      cases x
      cases y
      exact ⟨by simpa using htext, hrest⟩
    | null | bool | str | arr | obj => exact nomatch hkind

theorem encodeItems_append_inj : (xs ys : List Json) → {r r' : List Char} →
    encodeItems xs ++ r = encodeItems ys ++ r' → xs = ys ∧ r = r'
  | [], [], _, _, h => ⟨rfl, (List.cons.inj h).2⟩
  | [], [y], _, _, h => by
    simp only [encodeItems, List.cons_append, List.nil_append, List.append_assoc] at h
    exact absurd h (encode_ne_bracket (by decide))
  | [], y :: z :: ys, _, _, h => by
    simp only [encodeItems, List.cons_append, List.nil_append, List.append_assoc] at h
    exact absurd h (encode_ne_bracket (by decide))
  | [x], [], _, _, h => by
    simp only [encodeItems, List.cons_append, List.nil_append, List.append_assoc] at h
    exact absurd h.symm (encode_ne_bracket (by decide))
  | x :: z :: xs, [], _, _, h => by
    simp only [encodeItems, List.cons_append, List.nil_append, List.append_assoc] at h
    exact absurd h.symm (encode_ne_bracket (by decide))
  | [x], [y], _, _, h => by
    simp only [encodeItems, List.cons_append, List.nil_append, List.append_assoc] at h
    obtain ⟨rfl, hr⟩ := encode_append_inj x y (stops_cons rfl) (stops_cons rfl) h
    exact ⟨rfl, (List.cons.inj hr).2⟩
  | [x], y :: z :: ys, _, _, h => by
    simp only [encodeItems, List.cons_append, List.nil_append, List.append_assoc] at h
    obtain ⟨-, hr⟩ := encode_append_inj x y (stops_cons rfl) (stops_cons rfl) h
    exact nomatch hr
  | x :: z :: xs, [y], _, _, h => by
    simp only [encodeItems, List.cons_append, List.nil_append, List.append_assoc] at h
    obtain ⟨-, hr⟩ := encode_append_inj x y (stops_cons rfl) (stops_cons rfl) h
    exact nomatch hr
  | x :: x' :: xs, y :: y' :: ys, _, _, h => by
    simp only [encodeItems, List.cons_append, List.append_assoc] at h
    obtain ⟨rfl, hr⟩ := encode_append_inj x y (stops_cons rfl) (stops_cons rfl) h
    obtain ⟨heq, hrest⟩ := encodeItems_append_inj (x' :: xs) (y' :: ys) (List.cons.inj hr).2
    exact ⟨congrArg (x :: ·) heq, hrest⟩

theorem encodeFields_append_inj : (fs gs : List (String × Json)) → {r r' : List Char} →
    encodeFields fs ++ r = encodeFields gs ++ r' → fs = gs ∧ r = r'
  | [], [], _, _, h => ⟨rfl, (List.cons.inj h).2⟩
  | [], [(l, y)], _, _, h => by
    simp only [encodeFields, encodeString, List.cons_append, List.nil_append] at h
    exact nomatch (List.cons.inj h).1
  | [], (l, y) :: g :: gs, _, _, h => by
    simp only [encodeFields, encodeString, List.cons_append, List.nil_append] at h
    exact nomatch (List.cons.inj h).1
  | [(k, x)], [], _, _, h => by
    simp only [encodeFields, encodeString, List.cons_append, List.nil_append] at h
    exact nomatch (List.cons.inj h).1
  | (k, x) :: f :: fs, [], _, _, h => by
    simp only [encodeFields, encodeString, List.cons_append, List.nil_append] at h
    exact nomatch (List.cons.inj h).1
  | [(k, x)], [(l, y)], _, _, h => by
    simp only [encodeFields, List.cons_append, List.nil_append, List.append_assoc] at h
    obtain ⟨rfl, hkey⟩ := encodeString_append_inj h
    obtain ⟨rfl, hr⟩ := encode_append_inj x y (stops_cons rfl) (stops_cons rfl) (List.cons.inj hkey).2
    exact ⟨rfl, (List.cons.inj hr).2⟩
  | [(k, x)], (l, y) :: g :: gs, _, _, h => by
    simp only [encodeFields, List.cons_append, List.nil_append, List.append_assoc] at h
    obtain ⟨rfl, hkey⟩ := encodeString_append_inj h
    obtain ⟨-, hr⟩ := encode_append_inj x y (stops_cons rfl) (stops_cons rfl) (List.cons.inj hkey).2
    exact nomatch hr
  | (k, x) :: f :: fs, [(l, y)], _, _, h => by
    simp only [encodeFields, List.cons_append, List.nil_append, List.append_assoc] at h
    obtain ⟨rfl, hkey⟩ := encodeString_append_inj h
    obtain ⟨-, hr⟩ := encode_append_inj x y (stops_cons rfl) (stops_cons rfl) (List.cons.inj hkey).2
    exact nomatch hr
  | (k, x) :: f :: fs, (l, y) :: g :: gs, _, _, h => by
    simp only [encodeFields, List.cons_append, List.append_assoc] at h
    obtain ⟨rfl, hkey⟩ := encodeString_append_inj h
    obtain ⟨rfl, hr⟩ := encode_append_inj x y (stops_cons rfl) (stops_cons rfl) (List.cons.inj hkey).2
    obtain ⟨heq, hrest⟩ := encodeFields_append_inj (f :: fs) (g :: gs) (List.cons.inj hr).2
    exact ⟨congrArg ((k, x) :: ·) heq, hrest⟩

end

theorem encode_injective {a b : Json} (h : encode a = encode b) : a = b := by
  have happend : encode a ++ [] = encode b ++ [] := by rw [h]
  have hstops : Stops [] := nofun
  exact (encode_append_inj a b hstops hstops happend).1

theorem dumps_injective {a b : Json} (h : dumps a = dumps b) : a = b :=
  encode_injective (String.ofList_injective h)

/-! ## Members by their keys -/

/-- The keys of the members are different. -/
def Keyed (fields : List (String × Json)) : Prop := (fields.map (·.1)).Nodup

@[simp] theorem getField_nil (key : String) : getField [] key = none := rfl

theorem getField_cons (f : String × Json) (fields : List (String × Json)) (key : String) :
    getField (f :: fields) key = if f.1 = key then some f.2 else getField fields key := by
  by_cases h : f.1 = key <;> simp [getField, h]

/-- A member is found under its key. -/
theorem getField_eq_some_iff {fields : List (String × Json)} (hkeyed : Keyed fields)
    {key : String} {value : Json} : getField fields key = some value ↔ (key, value) ∈ fields := by
  induction fields with
  | nil => simp
  | cons f fields ih =>
    obtain ⟨hfresh, hrest⟩ := List.nodup_cons.mp (show (f.1 :: fields.map (·.1)).Nodup from hkeyed)
    rw [getField_cons]
    by_cases h : f.1 = key
    · rw [if_pos h]
      constructor
      · intro heq
        rw [← h, ← Option.some.inj heq]
        exact List.mem_cons_self
      · intro hmem
        rcases List.mem_cons.mp hmem with heq | hmem
        · rw [← heq]
        · exact absurd (List.mem_map.mpr ⟨_, hmem, h.symm⟩) hfresh
    · rw [if_neg h, ih hrest, List.mem_cons]
      constructor
      · exact Or.inr
      · intro hmem
        rcases hmem with heq | hmem
        · exact absurd (congrArg Prod.fst heq).symm h
        · exact hmem

/-- The order of the members does not matter to reading. -/
theorem getField_perm {fs gs : List (String × Json)} (hkeyed : Keyed fs) (h : fs.Perm gs)
    (key : String) : getField fs key = getField gs key := by
  apply Option.ext
  intro value
  have hkeyed' : Keyed gs := (h.map Prod.fst).nodup_iff.mp hkeyed
  rw [getField_eq_some_iff hkeyed, getField_eq_some_iff hkeyed', h.mem_iff]

theorem getField_append (fs gs : List (String × Json)) (key : String) :
    getField (fs ++ gs) key = (getField fs key <|> getField gs key) := by
  induction fs with
  | nil => simp
  | cons f fs ih =>
    rw [List.cons_append, getField_cons, getField_cons, ih]
    split <;> simp

/-- Reading after a member was set. -/
theorem getField_setField (fields : List (String × Json)) (key key' : String) (value : Json) :
    getField (setField fields key value) key' =
      if key' = key then some value else getField fields key' := by
  unfold setField
  split
  · next hpresent =>
    have hmap : ∀ fs : List (String × Json),
        getField (fs.map fun f => if f.1 = key then (key, value) else f) key' =
          if key' = key then (getField fs key).map fun _ => value else getField fs key' := by
      intro fs
      induction fs with
      | nil => simp
      | cons f fs ih =>
        rw [List.map_cons, getField_cons, ih, getField_cons, getField_cons]
        by_cases hf : f.1 = key
        · rw [if_pos hf]
          by_cases hkey : key' = key
          · simp [hkey, hf]
          · simp [hkey, hf, Ne.symm hkey]
        · rw [if_neg hf]
          by_cases hkey : key' = key
          · simp [hkey, hf]
          · simp [hkey]
    rw [hmap]
    obtain ⟨f, hf, hfkey⟩ := List.any_eq_true.mp hpresent
    have hsome : (getField fields key).isSome = true := by
      rw [getField, Option.isSome_map, List.find?_isSome]
      exact ⟨f, hf, hfkey⟩
    split
    · obtain ⟨x, hx⟩ := Option.isSome_iff_exists.mp hsome
      rw [hx]
      rfl
    · rfl
  · next habsent =>
    rw [getField_append, getField_cons]
    by_cases hkey : key' = key
    · have hnone : getField fields key' = none := by
        rw [getField, Option.map_eq_none_iff, List.find?_eq_none]
        intro f hf hfkey
        apply habsent
        rw [List.any_eq_true]
        refine ⟨f, hf, ?_⟩
        simpa [← hkey] using hfkey
      rw [hnone, if_pos hkey.symm, if_pos hkey]
      rfl
    · rw [if_neg (Ne.symm hkey), if_neg hkey]
      simp

/-- A second value for a key takes the place of the first. -/
theorem setField_setField (fields : List (String × Json)) (key : String) (x y : Json) :
    setField (setField fields key x) key y = setField fields key y := by
  have hreplace : ∀ fs : List (String × Json),
      (fs.map fun f => if f.1 = key then (key, x) else f).map
        (fun f => if f.1 = key then (key, y) else f) =
          fs.map fun f => if f.1 = key then (key, y) else f := by
    intro fs
    rw [List.map_map]
    apply List.map_congr_left
    intro f _
    by_cases hf : f.1 = key <;> simp [hf]
  by_cases hpresent : fields.any (·.1 = key) = true
  · have hstill : (fields.map fun f => if f.1 = key then (key, x) else f).any (·.1 = key) = true := by
      obtain ⟨f, hf, hkey⟩ := List.any_eq_true.mp hpresent
      rw [List.any_map, List.any_eq_true]
      refine ⟨f, hf, ?_⟩
      have hkey : f.1 = key := by simpa using hkey
      simp [hkey]
    unfold setField
    rw [if_pos hpresent, if_pos hstill, if_pos hpresent]
    exact hreplace fields
  · have hadded : (fields ++ [(key, x)]).any (·.1 = key) = true := by simp
    have hsame : fields.map (fun f => if f.1 = key then (key, y) else f) = fields := by
      conv_rhs => rw [← List.map_id fields]
      apply List.map_congr_left
      intro f hf
      rw [Bool.not_eq_true, List.any_eq_false] at hpresent
      have hne := hpresent f hf
      rw [if_neg (by simpa using hne)]
      rfl
    unfold setField
    rw [if_neg hpresent, if_pos hadded, if_neg hpresent, List.map_append, hsame]
    simp

theorem map_fst_sortKeysFields (fields : List (String × Json)) :
    (sortKeysFields fields).map (·.1) = fields.map (·.1) := by
  induction fields with
  | nil => rfl
  | cons f fields ih => simp [sortKeysFields, ih]

theorem getField_sortKeysFields (fields : List (String × Json)) (key : String) :
    getField (sortKeysFields fields) key = (getField fields key).map sortKeys := by
  induction fields with
  | nil => rfl
  | cons f fields ih =>
    simp only [sortKeysFields, getField_cons, ih]
    split <;> rfl

theorem sortKeysFields_eq_self {fields : List (String × Json)}
    (h : ∀ f ∈ fields, sortKeys f.2 = f.2) : sortKeysFields fields = fields := by
  induction fields with
  | nil => rfl
  | cons f fields ih =>
    rw [sortKeysFields, h f List.mem_cons_self, ih fun g hg => h g (List.mem_cons_of_mem f hg)]

/-- Objects that are the same once sorted have the same members, up to the order in them. -/
theorem getField_of_sortKeys_eq {fs gs : List (String × Json)} (hfs : Keyed fs)
    (h : sortKeys (.obj fs) = sortKeys (.obj gs)) (key : String) :
    (getField fs key).map sortKeys = (getField gs key).map sortKeys := by
  simp only [sortKeys, obj.injEq] at h
  have hperm : (sortKeysFields fs).Perm (sortKeysFields gs) := by
    apply (List.perm_insertionSort (fun f g => f.1 ≤ g.1) _).symm.trans
    rw [h]
    exact List.perm_insertionSort _ _
  have hkeyed : Keyed (sortKeysFields fs) := by
    unfold Keyed
    rw [map_fst_sortKeysFields]
    exact hfs
  rw [← getField_sortKeysFields, ← getField_sortKeysFields]
  exact getField_perm hkeyed hperm key

/-- Objects with the same sorted text have the same members, up to the order in them. -/
theorem getField_of_dumpsSorted_eq {fs gs : List (String × Json)} (hfs : Keyed fs)
    (h : dumpsSorted (.obj fs) = dumpsSorted (.obj gs)) (key : String) :
    (getField fs key).map sortKeys = (getField gs key).map sortKeys :=
  getField_of_sortKeys_eq hfs (dumps_injective h) key

/-- A list of texts has nothing to sort. -/
theorem sortKeysItems_str (ss : List String) : sortKeysItems (ss.map .str) = ss.map .str := by
  induction ss with
  | nil => rfl
  | cons s ss ih =>
    show Json.str s :: sortKeysItems (ss.map .str) = .str s :: ss.map .str
    rw [ih]

end Json
