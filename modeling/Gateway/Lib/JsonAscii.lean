import Gateway.Lib.Json

/-!
# The ASCII text of JSON values

`json.dumps` writes the characters beyond ASCII as `\uXXXX` unless it is told not to. Only the
characters of strings are written so, hence the ASCII text is the text with these characters
replaced.

## Key results

- `units_encode`: the code units that an ASCII text stands for
- `dumpsAscii_injective`
-/

namespace Json

/-- The four hexadecimal digits of a code unit. -/
def hexDigits (n : Nat) : List Char :=
  [hexDigit (n / 4096), hexDigit (n / 256 % 16), hexDigit (n / 16 % 16), hexDigit (n % 16)]

/-- The UTF-16 code units of a character. -/
def utf16Char (c : Char) : List Nat :=
  if c.toNat < 65536 then [c.toNat]
  else [55296 + (c.toNat - 65536) / 1024, 56320 + (c.toNat - 65536) % 1024]

/-- A character as `json.dumps` writes it: beyond `~` as its code units. -/
def asciiChar (c : Char) : List Char :=
  if c.toNat < 127 then [c] else (utf16Char c).flatMap fun n => '\\' :: 'u' :: hexDigits n

/-- A text in ASCII. -/
def asciiText (t : List Char) : List Char := t.flatMap asciiChar

/-- `json.dumps(value, separators=(",", ":"))` -/
def dumpsAscii (j : Json) : String := String.ofList (asciiText (encode j))

/-- `json.dumps(value, sort_keys=True, separators=(",", ":"))` -/
def dumpsAsciiSorted (j : Json) : String := dumpsAscii (sortKeys j)

/-! ## Code units -/

/-- The value of four hexadecimal digits. -/
def hexDigitsValue (a b c d : Char) : Nat :=
  4096 * hexValue a + 256 * hexValue b + 16 * hexValue c + hexValue d

theorem hexDigitsValue_hexDigits {n : Nat} (h : n < 65536) :
    hexDigitsValue (hexDigit (n / 4096)) (hexDigit (n / 256 % 16)) (hexDigit (n / 16 % 16))
      (hexDigit (n % 16)) = n := by
  rw [hexDigitsValue, hexValue_hexDigit _ (by omega), hexValue_hexDigit _ (by omega),
    hexValue_hexDigit _ (by omega), hexValue_hexDigit _ (by omega)]
  omega

/-- The UTF-16 code units of a text. -/
def utf16 (t : List Char) : List Nat := t.flatMap utf16Char

/-- A character is no surrogate. -/
theorem toNat_cases (c : Char) : c.toNat < 55296 ∨ 57343 < c.toNat ∧ c.toNat < 1114112 :=
  c.valid

theorem utf16_injective {s t : List Char} (h : utf16 s = utf16 t) : s = t := by
  induction s generalizing t with
  | nil =>
    cases t with
    | nil => rfl
    | cons d t =>
      simp only [utf16, List.flatMap_nil, List.flatMap_cons, utf16Char] at h
      split at h <;> cases h
  | cons c s ih =>
    cases t with
    | nil =>
      simp only [utf16, List.flatMap_nil, List.flatMap_cons, utf16Char] at h
      split at h <;> cases h
    | cons d t =>
      have hc := toNat_cases c
      have hd := toNat_cases d
      have hboth : c.toNat = d.toNat ∧ utf16 s = utf16 t := by
        have hcons : ∀ (e : Char) (u : List Char), utf16 (e :: u) = utf16Char e ++ utf16 u :=
          fun e u => List.flatMap_cons
        rw [hcons, hcons] at h
        unfold utf16Char at h
        split at h <;> split at h
        · simpa using h
        · simp only [List.cons_append, List.nil_append, List.cons.injEq] at h
          omega
        · simp only [List.cons_append, List.nil_append, List.cons.injEq] at h
          omega
        · simp only [List.cons_append, List.nil_append, List.cons.injEq] at h
          exact ⟨by omega, h.2.2⟩
      have hsame : c = d := Char.toNat_inj.mp hboth.1
      rw [hsame, ih hboth.2]

/-- The code units that an ASCII text stands for. An escape that `encode` writes itself is
    kept as it is. -/
def units : List Char → List Nat
  | '\\' :: 'u' :: a :: b :: c :: d :: r =>
    if hexDigitsValue a b c d < 32 then
      92 :: 117 :: a.toNat :: b.toNat :: c.toNat :: d.toNat :: units r
    else hexDigitsValue a b c d :: units r
  | '\\' :: x :: r => 92 :: x.toNat :: units r
  | c :: r => c.toNat :: units r
  | [] => []

/-- A text whose ASCII text stands for its own code units, whatever follows. -/
def Transparent (t : List Char) : Prop :=
  ∀ r, units (asciiText t ++ r) = utf16 t ++ units r

theorem Transparent.nil : Transparent [] := fun _ => rfl

theorem Transparent.append {s t : List Char} (hs : Transparent s) (ht : Transparent t) :
    Transparent (s ++ t) := by
  intro r
  have htext : asciiText (s ++ t) = asciiText s ++ asciiText t := List.flatMap_append
  have hunits : utf16 (s ++ t) = utf16 s ++ utf16 t := List.flatMap_append
  rw [htext, hunits, List.append_assoc, hs, ht, List.append_assoc]

theorem units_plain {c : Char} (h : c ≠ '\\') (r : List Char) :
    units (c :: r) = c.toNat :: units r := by
  rw [units]
  · rintro a b d e r' rfl
    exact absurd rfl h
  · rintro x r' rfl
    exact absurd rfl h

theorem units_hexDigits {n : Nat} (h : 32 ≤ n) (hlt : n < 65536) (r : List Char) :
    units ('\\' :: 'u' :: (hexDigits n ++ r)) = n :: units r := by
  simp only [hexDigits, List.cons_append, List.nil_append, units]
  rw [hexDigitsValue_hexDigits hlt, if_neg (by omega)]

theorem transparent_char {c : Char} (h : c ≠ '\\') : Transparent [c] := by
  intro r
  have hrange := toNat_cases c
  have htext : asciiText [c] = asciiChar c := List.flatMap_singleton ..
  have hunits : utf16 [c] = utf16Char c := List.flatMap_singleton ..
  rw [htext, hunits]
  by_cases hascii : c.toNat < 127
  · have hone : c.toNat < 65536 := by omega
    rw [asciiChar, if_pos hascii, utf16Char, if_pos hone]
    exact units_plain h r
  rw [asciiChar, if_neg hascii, utf16Char]
  split
  · next hone =>
    rw [List.flatMap_singleton]
    exact units_hexDigits (by omega) hone r
  · rw [List.flatMap_cons, List.flatMap_singleton, List.append_assoc]
    have hfirst := units_hexDigits (n := 55296 + (c.toNat - 65536) / 1024) (by omega) (by omega)
      ('\\' :: 'u' :: (hexDigits (56320 + (c.toNat - 65536) % 1024) ++ r))
    have hsecond := units_hexDigits (n := 56320 + (c.toNat - 65536) % 1024) (by omega) (by omega) r
    rw [hsecond] at hfirst
    exact hfirst

theorem transparent_plain {t : List Char} (h : '\\' ∉ t) : Transparent t := by
  induction t with
  | nil => exact Transparent.nil
  | cons c t ih =>
    rw [List.mem_cons, not_or] at h
    obtain ⟨hne, hnot⟩ := h
    exact (transparent_char (Ne.symm hne)).append (ih hnot)

theorem transparent_pair {x : Char} (hx : x ≠ 'u') (hascii : x.toNat < 127) :
    Transparent ['\\', x] := by
  intro r
  have htext : asciiText ['\\', x] = ['\\', x] := by
    have hone : asciiChar x = [x] := if_pos hascii
    simp only [asciiText, List.flatMap_cons, List.flatMap_nil, hone]
    rfl
  have hunits : utf16 ['\\', x] = [92, x.toNat] := by
    have hone : utf16Char x = [x.toNat] := if_pos (by omega)
    simp only [utf16, List.flatMap_cons, List.flatMap_nil, hone]
    rfl
  rw [htext, hunits]
  simp only [List.cons_append, List.nil_append]
  rw [units]
  intro a b c d r' hu
  exact absurd hu hx

theorem transparent_control : ∀ n < 32,
    Transparent ['\\', 'u', '0', '0', hexDigit (n / 16), hexDigit (n % 16)] := by
  intro n hn r
  have hcase : ∀ m < 32,
      asciiText ['\\', 'u', '0', '0', hexDigit (m / 16), hexDigit (m % 16)] =
        ['\\', 'u', '0', '0', hexDigit (m / 16), hexDigit (m % 16)] ∧
      utf16 ['\\', 'u', '0', '0', hexDigit (m / 16), hexDigit (m % 16)] =
        [92, 117, '0'.toNat, '0'.toNat, (hexDigit (m / 16)).toNat, (hexDigit (m % 16)).toNat] ∧
      hexDigitsValue '0' '0' (hexDigit (m / 16)) (hexDigit (m % 16)) < 32 := by decide
  obtain ⟨htext, hunits, hvalue⟩ := hcase n hn
  rw [htext, hunits]
  simp only [List.cons_append, List.nil_append, units]
  rw [if_pos hvalue]

theorem transparent_escapeChar (c : Char) : Transparent (escapeChar c) := by
  unfold escapeChar
  split
  · exact transparent_pair (by decide) (by decide)
  split
  · exact transparent_pair (by decide) (by decide)
  split
  · exact transparent_pair (by decide) (by decide)
  split
  · exact transparent_pair (by decide) (by decide)
  split
  · exact transparent_pair (by decide) (by decide)
  split
  · exact transparent_pair (by decide) (by decide)
  split
  · exact transparent_pair (by decide) (by decide)
  split
  · next hcontrol => exact transparent_control _ hcontrol
  · next hslash _ _ _ _ _ _ => exact transparent_char hslash

theorem transparent_encodeString (s : String) : Transparent (encodeString s) := by
  have hbody : ∀ t : List Char, Transparent (t.flatMap escapeChar) := by
    intro t
    induction t with
    | nil => exact Transparent.nil
    | cons c t ih =>
      rw [List.flatMap_cons]
      exact (transparent_escapeChar c).append ih
  have hquote : Transparent ['"'] := transparent_char (by decide)
  exact hquote.append ((hbody _).append hquote)

theorem not_mem_of_number {t : List Char} (h : t.all isNumberChar = true) : '\\' ∉ t := by
  intro hc
  exact absurd (List.all_eq_true.mp h _ hc) (by decide)

mutual

theorem transparent_encode : (a : Json) → Transparent (encode a)
  | .null => transparent_plain (by decide)
  | .bool true => transparent_plain (by decide)
  | .bool false => transparent_plain (by decide)
  | .int n => transparent_plain (not_mem_of_number (encodeInt_number n))
  | .float x => transparent_plain (not_mem_of_number x.number)
  | .str s => transparent_encodeString s
  | .arr xs => (transparent_char (by decide)).append (transparent_encodeItems xs)
  | .obj fields => (transparent_char (by decide)).append (transparent_encodeFields fields)

theorem transparent_encodeItems : (xs : List Json) → Transparent (encodeItems xs)
  | [] => transparent_char (by decide)
  | [x] => (transparent_encode x).append (transparent_char (by decide))
  | x :: y :: xs =>
    (transparent_encode x).append
      ((transparent_char (by decide)).append (transparent_encodeItems (y :: xs)))

theorem transparent_encodeFields : (fields : List (String × Json)) → Transparent (encodeFields fields)
  | [] => transparent_char (by decide)
  | [(k, x)] =>
    (transparent_encodeString k).append
      ((transparent_char (by decide)).append
        ((transparent_encode x).append (transparent_char (by decide))))
  | (k, x) :: f :: fields =>
    (transparent_encodeString k).append
      ((transparent_char (by decide)).append
        ((transparent_encode x).append
          ((transparent_char (by decide)).append (transparent_encodeFields (f :: fields)))))

end

theorem dumpsAscii_injective {a b : Json} (h : dumpsAscii a = dumpsAscii b) : a = b := by
  have htext : asciiText (encode a) ++ [] = asciiText (encode b) ++ [] := by
    rw [String.ofList_injective h]
  have hunits := congrArg units htext
  rw [transparent_encode a, transparent_encode b] at hunits
  exact encode_injective (utf16_injective (List.append_cancel_right hunits))

end Json
