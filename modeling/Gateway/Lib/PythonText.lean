import Mathlib.Data.List.Infix
import Mathlib.Data.List.TakeDrop
import Gateway.Lib.Strconv

/-!
# Lines, bytes and escapes of Python texts

`str.splitlines`, the UTF-8 bytes of a text, and the codec `unicode_escape`. The codec reads
a byte that is not part of an escape sequence as the character of that number, so that what it
makes of a text beyond ASCII are the numbers of its bytes. Its result is a list of code points,
since an escape sequence may name a surrogate.

## Key results

- `splitLines_unlines`: the lines of a text that ends each line with a line feed
- `decode_append`: bytes without a backslash are read one by one
- `utf8_injective`: a text is determined by its bytes
-/

namespace Text

/-- A character at which `str.splitlines` ends a line. -/
def isLineEnd (c : Char) : Bool :=
  (0x0a ≤ c.toNat && c.toNat ≤ 0x0d) || (0x1c ≤ c.toNat && c.toNat ≤ 0x1e) || c.toNat = 0x85 ||
    c.toNat = 0x2028 || c.toNat = 0x2029

/-- The lines of a text after the line that was begun; the last one may lack its end. -/
def splitLinesFrom (begun : Text) : Text → List Text
  | [] => if begun = [] then [] else [begun]
  | '\r' :: '\n' :: t => begun :: splitLinesFrom [] t
  | c :: t => if isLineEnd c then begun :: splitLinesFrom [] t else splitLinesFrom (begun ++ [c]) t

/-- `str.splitlines` -/
def splitLines (t : Text) : List Text := splitLinesFrom [] t

theorem splitLinesFrom_append {l : Text} (h : ∀ c ∈ l, isLineEnd c = false) (begun t : Text) :
    splitLinesFrom begun (l ++ '\n' :: t) = (begun ++ l) :: splitLinesFrom [] t := by
  induction l generalizing begun with
  | nil =>
    have hfeed : isLineEnd '\n' = true := rfl
    simp [splitLinesFrom, hfeed]
  | cons c l ih =>
    have hc : isLineEnd c = false := h c (List.mem_cons_self ..)
    have hcarriage : c ≠ '\r' := by
      intro heq
      subst heq
      cases hc
    have hstep : splitLinesFrom begun (c :: (l ++ '\n' :: t)) =
        splitLinesFrom (begun ++ [c]) (l ++ '\n' :: t) := by
      rw [splitLinesFrom]
      · rw [hc]
        rfl
      · intro _ heq
        exact absurd heq hcarriage
    rw [List.cons_append, hstep, ih (fun d hd => h d (List.mem_cons_of_mem _ hd))]
    simp

/-- The lines of a text that ends each line with a line feed. -/
theorem splitLines_unlines {ls : List Text} (h : ∀ l ∈ ls, ∀ c ∈ l, isLineEnd c = false) :
    splitLines (unlines ls) = ls := by
  induction ls with
  | nil => rfl
  | cons l ls ih =>
    have hl : ∀ c ∈ l, isLineEnd c = false := h l (List.mem_cons_self ..)
    have hrest : splitLinesFrom [] (unlines ls) = ls :=
      ih fun l' hl' => h l' (List.mem_cons_of_mem _ hl')
    have hcons : unlines (l :: ls) = l ++ '\n' :: unlines ls := by simp [unlines]
    rw [hcons, splitLines, splitLinesFrom_append hl, hrest]
    rfl

/-- `bytes(text, "utf-8")` -/
def utf8 (t : Text) : List UInt8 := t.flatMap String.utf8EncodeChar

/-- A text is determined by its bytes. -/
theorem utf8_injective : Function.Injective utf8 := by
  intro t u h
  have hbytes : t.utf8Encode = u.utf8Encode := by
    show (utf8 t).toByteArray = (utf8 u).toByteArray
    rw [h]
  have hstring : String.ofList t = String.ofList u := by
    rw [← String.toByteArray_inj]
    exact hbytes
  exact String.ofList_injective hstring

/-- The bytes of a character beyond ASCII are beyond ASCII too. -/
theorem utf8EncodeChar_high {c : Char} (h : 128 ≤ c.toNat) :
    ∀ b ∈ String.utf8EncodeChar c, 128 ≤ b.toNat := by
  have hval : 128 ≤ c.val.toNat := h
  have hbyte : ∀ n : Nat, 128 ≤ n → n < 256 → 128 ≤ (UInt8.ofNat n).toNat := by
    intro n hlow hhigh
    rw [UInt8.toNat_ofNat_of_lt' hhigh]
    exact hlow
  intro b hb
  unfold String.utf8EncodeChar at hb
  dsimp only at hb
  rw [if_neg (by omega)] at hb
  split at hb
  · simp only [List.mem_cons, List.not_mem_nil, or_false] at hb
    rcases hb with rfl | rfl
    · apply hbyte <;> omega
    · apply hbyte <;> omega
  split at hb
  · simp only [List.mem_cons, List.not_mem_nil, or_false] at hb
    rcases hb with rfl | rfl | rfl
    · apply hbyte <;> omega
    · apply hbyte <;> omega
    · apply hbyte <;> omega
  · simp only [List.mem_cons, List.not_mem_nil, or_false] at hb
    rcases hb with rfl | rfl | rfl | rfl
    · apply hbyte <;> omega
    · apply hbyte <;> omega
    · apply hbyte <;> omega
    · apply hbyte <;> omega

theorem utf8EncodeChar_ascii {c : Char} (h : c.toNat < 128) :
    String.utf8EncodeChar c = [UInt8.ofNat c.toNat] := by
  have hval : c.val.toNat ≤ 0x7f := by
    show c.toNat ≤ 0x7f
    omega
  unfold String.utf8EncodeChar
  dsimp only
  rw [if_pos hval]
  rfl

end Text

/-! ## The codec -/

namespace UnicodeEscape

/-- The backslash. -/
def backslash : UInt8 := 0x5c

/-- Bytes as the characters of these numbers. -/
def latin (bytes : List UInt8) : Text := bytes.map fun b => Char.ofNat b.toNat

/-- The escape sequences of one character; a line feed is left out. -/
def simple (c : Char) : Option (List Nat) :=
  match c with
  | '\n' => some []
  | '\\' => some [0x5c]
  | '\'' => some [0x27]
  | '"' => some [0x22]
  | 'a' => some [0x07]
  | 'b' => some [0x08]
  | 'f' => some [0x0c]
  | 'n' => some [0x0a]
  | 'r' => some [0x0d]
  | 't' => some [0x09]
  | 'v' => some [0x0b]
  | _ => none

/-- The number of digits of a numeric escape sequence. -/
def hexWidth (c : Char) : Option Nat :=
  match c with
  | 'x' => some 2
  | 'u' => some 4
  | 'U' => some 8
  | _ => none

/-- A hexadecimal number of exactly so many digits, and what follows it. -/
def hexadecimal (width : Nat) (bytes : List UInt8) : Option (List Nat × List UInt8) :=
  if (bytes.take width).length < width then none
  else
    match Strconv.digitsValue 16 0 (latin (bytes.take width)) with
    | some n => if n ≤ 0x10ffff then some ([n], bytes.drop width) else none
    | none => none

/-- A character that is given by its name between braces. -/
def named (unicode : Unicode) (bytes : List UInt8) : Option (List Nat × List UInt8) :=
  let name := bytes.tail.takeWhile (· ≠ 0x7d)
  let after := bytes.tail.dropWhile (· ≠ 0x7d)
  if bytes.head? ≠ some 0x7b ∨ name = [] ∨ after = [] then none
  else (unicode.named (latin name)).map fun c => ([c.toNat], after.tail)

/-- An octal digit. -/
def isOctal (b : UInt8) : Bool := 0x30 ≤ b && b ≤ 0x37

/-- What follows a backslash: the code points that it stands for, and what comes after it.
`none` stands for the errors. -/
def sequence (unicode : Unicode) : List UInt8 → Option (List Nat × List UInt8)
  | [] => none
  | b :: bytes =>
    let c := Char.ofNat b.toNat
    let octal := ((b :: bytes).take 3).takeWhile isOctal
    match simple c with
    | some points => some (points, bytes)
    | none =>
      if octal ≠ [] then
        (Strconv.digitsValue 8 0 (latin octal)).map fun n => ([n], (b :: bytes).drop octal.length)
      else
        match hexWidth c with
        | some width => hexadecimal width bytes
        | none =>
          if c = 'N' then named unicode bytes
          -- an unknown sequence is kept as it is
          else some ([backslash.toNat, b.toNat], bytes)

theorem hexadecimal_length {width : Nat} {bytes : List UInt8} {found : List Nat × List UInt8}
    (h : hexadecimal width bytes = some found) : found.2.length ≤ bytes.length := by
  unfold hexadecimal at h
  split at h
  · cases h
  split at h
  · split at h
    · cases h
      show (bytes.drop width).length ≤ bytes.length
      rw [List.length_drop]
      omega
    · cases h
  · cases h

theorem named_length {unicode : Unicode} {bytes : List UInt8} {found : List Nat × List UInt8}
    (h : named unicode bytes = some found) : found.2.length ≤ bytes.length := by
  unfold named at h
  dsimp only at h
  split at h
  · cases h
  · obtain ⟨c, -, rfl⟩ := Option.map_eq_some_iff.mp h
    have hdrop : (bytes.tail.dropWhile (· ≠ 0x7d)).length ≤ bytes.tail.length :=
      (List.dropWhile_suffix _).length_le
    simp only [List.length_tail] at hdrop ⊢
    omega

theorem sequence_length {unicode : Unicode} {bytes : List UInt8} {found : List Nat × List UInt8}
    (h : sequence unicode bytes = some found) : found.2.length ≤ bytes.length := by
  cases bytes with
  | nil => cases h
  | cons b bytes =>
    simp only [sequence] at h
    split at h
    · cases h
      simp
    split at h
    · obtain ⟨n, -, rfl⟩ := Option.map_eq_some_iff.mp h
      simp only [List.length_drop]
      omega
    split at h
    · have hle := hexadecimal_length h
      simp only [List.length_cons]
      omega
    split at h
    · have hle := named_length h
      simp only [List.length_cons]
      omega
    · cases h
      simp

/-- `bytes.decode("unicode_escape")` -/
def decode (unicode : Unicode) (bytes : List UInt8) : Option (List Nat) :=
  match bytes with
  | [] => some []
  | b :: rest =>
    if b = backslash then
      match _hsequence : sequence unicode rest with
      | some found => (decode unicode found.2).map (found.1 ++ ·)
      | none => none
    else (decode unicode rest).map (b.toNat :: ·)
termination_by bytes.length
decreasing_by
  · have hle := sequence_length _hsequence
    simp only [List.length_cons]
    omega
  · simp

/-! ## What is decoded -/

variable {unicode : Unicode}

theorem decode_nil : decode unicode [] = some [] := by
  rw [decode]

/-- Bytes without a backslash are read one by one. -/
theorem decode_append {bytes : List UInt8} (h : ∀ b ∈ bytes, b ≠ backslash) (rest : List UInt8) :
    decode unicode (bytes ++ rest) = (decode unicode rest).map (bytes.map UInt8.toNat ++ ·) := by
  induction bytes with
  | nil => simp
  | cons b bytes ih =>
    have hb : b ≠ backslash := h b (List.mem_cons_self ..)
    have hbytes := ih fun c hc => h c (List.mem_cons_of_mem _ hc)
    rw [List.cons_append, decode, if_neg hb, hbytes, Option.map_map]
    rfl

/-- An escape sequence of one character. -/
theorem decode_simple {b : UInt8} {points : List Nat} (h : simple (Char.ofNat b.toNat) = some points)
    (rest : List UInt8) :
    decode unicode (backslash :: b :: rest) = (decode unicode rest).map (points ++ ·) := by
  have hsequence : sequence unicode (b :: rest) = some (points, rest) := by
    simp only [sequence, h]
  rw [decode, if_pos rfl]
  split
  · next found hfound =>
    rw [hsequence] at hfound
    cases hfound
    rfl
  · next hfound =>
    rw [hsequence] at hfound
    cases hfound

end UnicodeEscape
