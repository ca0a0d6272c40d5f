import Mathlib.Data.List.Basic

/-!
# Texts

A text is a list of characters. Trimming, the words between white space and the lines of a
text, each with the lemmas about texts that are put together from known parts.

## Key results

- `lines_unlines`: the lines of a text that ends each line with a line feed
- `trim_append`: a text whose core has no white space at its ends, trimmed
- `words_append`: the first word of a text
-/

/-- A text. -/
abbrev Text := List Char

namespace Text

variable {p : Char → Bool}

/-! ## ASCII characters -/

/-- `[A-Za-z]` -/
def isLetter (c : Char) : Bool :=
  (65 ≤ c.toNat && c.toNat ≤ 90) || (97 ≤ c.toNat && c.toNat ≤ 122)

/-- `[0-9]` -/
def isDigit (c : Char) : Bool := 48 ≤ c.toNat && c.toNat ≤ 57

/-! ## Prefixes -/

theorem takeWhile_append_stop {w : Text} (h : ∀ c ∈ w, p c = true) {d : Char} (hd : p d = false)
    (rest : Text) : (w ++ d :: rest).takeWhile p = w := by
  rw [List.takeWhile_append_of_pos h, List.takeWhile_cons_of_neg (by simp [hd]), List.append_nil]

theorem dropWhile_append_stop {w : Text} (h : ∀ c ∈ w, p c = true) {d : Char} (hd : p d = false)
    (rest : Text) : (w ++ d :: rest).dropWhile p = d :: rest := by
  rw [List.dropWhile_append_of_pos h, List.dropWhile_cons_of_neg (by simp [hd])]

theorem takeWhile_all {w : Text} (h : ∀ c ∈ w, p c = true) : w.takeWhile p = w := by
  have happend : (w ++ []).takeWhile p = w ++ [].takeWhile p := List.takeWhile_append_of_pos h
  simpa using happend

theorem dropWhile_all {w : Text} (h : ∀ c ∈ w, p c = true) : w.dropWhile p = [] := by
  have happend : (w ++ []).dropWhile p = [].dropWhile p := List.dropWhile_append_of_pos h
  simpa using happend

/-! ## Trimming -/

/-- The text without the characters at its ends that meet `p`. -/
def trim (p : Char → Bool) (t : Text) : Text := ((t.dropWhile p).reverse.dropWhile p).reverse

/-- Trimming a text whose core has no such characters at its ends. -/
theorem trim_append {lead core : Text} (hlead : ∀ c ∈ lead, p c = true) (hne : core ≠ [])
    (hfirst : ∀ c, core.head? = some c → p c = false)
    (hlast : ∀ c, core.getLast? = some c → p c = false) (trail : Text) :
    ∃ kept, kept <+: trail ∧ trim p (lead ++ (core ++ trail)) = core ++ kept := by
  have hdrop : (lead ++ (core ++ trail)).dropWhile p = core ++ trail := by
    obtain ⟨c, rest, hcore⟩ := List.exists_cons_of_ne_nil hne
    have hc : p c = false := hfirst c (by rw [hcore]; rfl)
    rw [List.dropWhile_append_of_pos hlead, hcore, List.cons_append,
      List.dropWhile_cons_of_neg (by simp [hc])]
  have hcore : core.reverse.dropWhile p = core.reverse := by
    obtain ⟨c, rest, hrev⟩ := List.exists_cons_of_ne_nil (List.reverse_ne_nil_iff.mpr hne)
    have hc : p c = false := hlast c (by rw [← List.head?_reverse, hrev]; rfl)
    rw [hrev, List.dropWhile_cons_of_neg (by simp [hc])]
  have htrail : (core ++ trail).reverse.dropWhile p = trail.reverse.dropWhile p ++ core.reverse := by
    rw [List.reverse_append, List.dropWhile_append]
    split
    · next hnil =>
      rw [hcore, List.isEmpty_iff.mp hnil]
      rfl
    · rfl
  refine ⟨(trail.reverse.dropWhile p).reverse, ?_, ?_⟩
  · rw [← List.reverse_suffix, List.reverse_reverse]
    exact List.dropWhile_suffix p
  · rw [trim, hdrop, htrail, List.reverse_append, List.reverse_reverse]

/-- A text that begins with another character still does when trimmed. -/
theorem trim_cons {c : Char} (hc : p c = false) (t : Text) : ∃ kept, trim p (c :: t) = c :: kept := by
  have hsame : ∀ d, some c = some d → p d = false := by
    intro d hd
    cases hd
    exact hc
  obtain ⟨kept, -, htrim⟩ := @trim_append p [] [c] (by simp) (by simp) hsame hsame t
  exact ⟨kept, htrim⟩

/-- A text without such characters is not trimmed. -/
theorem trim_self {t : Text} (h : ∀ c ∈ t, p c = false) : trim p t = t := by
  have hdrop : ∀ u : Text, (∀ c ∈ u, p c = false) → u.dropWhile p = u := by
    intro u hu
    cases u with
    | nil => rfl
    | cons c u => rw [List.dropWhile_cons_of_neg (by simp [hu c (List.mem_cons_self ..)])]
  rw [trim, hdrop t h, hdrop t.reverse fun c hc => h c (List.mem_reverse.mp hc), List.reverse_reverse]

/-! ## Words -/

/-- The words of a text, each ended by a character that meets `p` or by the end of the text;
`begun` is the word that was begun. -/
def wordsFrom (p : Char → Bool) (begun : Text) : Text → List Text
  | [] => if begun = [] then [] else [begun]
  | c :: t =>
    if p c then (if begun = [] then wordsFrom p [] t else begun :: wordsFrom p [] t)
    else wordsFrom p (begun ++ [c]) t

/-- The words between the characters that meet `p`. -/
def words (p : Char → Bool) (t : Text) : List Text := wordsFrom p [] t

theorem wordsFrom_append {w : Text} (h : ∀ c ∈ w, p c = false) (begun t : Text) :
    wordsFrom p begun (w ++ t) = wordsFrom p (begun ++ w) t := by
  induction w generalizing begun with
  | nil => simp
  | cons c w ih =>
    have hc : p c = false := h c (List.mem_cons_self ..)
    rw [List.cons_append, wordsFrom, if_neg (by simp [hc]),
      ih fun d hd => h d (List.mem_cons_of_mem _ hd)]
    simp

theorem words_skip {b : Text} (h : ∀ c ∈ b, p c = true) (t : Text) :
    words p (b ++ t) = words p t := by
  induction b with
  | nil => rfl
  | cons c b ih =>
    have hc : p c = true := h c (List.mem_cons_self ..)
    have hskip : words p (c :: (b ++ t)) = words p (b ++ t) := by
      rw [words, wordsFrom, if_pos hc, if_pos rfl]
      rfl
    rw [List.cons_append, hskip]
    exact ih fun d hd => h d (List.mem_cons_of_mem _ hd)

/-- The first word of a text, ended by a separator or by the end of the text. -/
theorem words_append {w t : Text} (hne : w ≠ []) (h : ∀ c ∈ w, p c = false)
    (ht : ∀ c, t.head? = some c → p c = true) :
    ∃ rest, words p (w ++ t) = w :: rest := by
  rw [words, wordsFrom_append h, List.nil_append]
  cases t with
  | nil => exact ⟨[], by rw [wordsFrom, if_neg hne]⟩
  | cons c t => exact ⟨wordsFrom p [] t, by rw [wordsFrom, if_pos (ht c rfl), if_neg hne]⟩

/-! ## Lines -/

/-- The lines of a text, without the line feeds. -/
def lines (t : Text) : List Text := t.splitOn '\n'

/-- Lines, each ended by a line feed. -/
def unlines (ls : List Text) : Text := ls.flatMap fun l => l ++ ['\n']

theorem lines_unlines {ls : List Text} (h : ∀ l ∈ ls, '\n' ∉ l) :
    lines (unlines ls) = ls ++ [[]] := by
  induction ls with
  | nil => rfl
  | cons l ls ih =>
    have hl : '\n' ∉ l := h l (List.mem_cons_self ..)
    have ih' := ih fun l' hl' => h l' (List.mem_cons_of_mem _ hl')
    have hcons : unlines (l :: ls) = l ++ '\n' :: unlines ls := by simp [unlines]
    have hnone : ∀ c ∈ l, (c == '\n') = false := by
      intro c hc
      rw [beq_eq_false_iff_ne]
      exact ne_of_mem_of_not_mem hc hl
    rw [hcons, lines, List.splitOn, List.splitOnP_append_cons_of_forall_mem hnone '\n' rfl]
    exact congrArg (l :: ·) ih'

end Text
