import Gateway.Lib.DictRenaming
import Gateway.Model.Summarize
import Gateway.Spec.CounterDeltas

/-!
# The two readings of a scrape

The harness computes counter deltas in Go, and the summary of results computes them again in
Python. The parsers differ in how they take a line apart, in what they accept as a number, in
how they decode a label value, and in how they index a series: Go joins the name and the labels
to one text, Python keeps pairs, whose values are the bytes of the label value. On a scrape
whose label values have no blank, no `|` and no line end but the line feed, both read the same
series, and the deltas agree.

## Key results

- `parsePrometheusText_exposition`: what the summary makes of a scrape
- `key_inj`, `pyLabels_iff`: both ways to index a series tell the series apart
- `counterDelta_agree`
-/

namespace Gateway

namespace Summarize

open Prometheus (ExpositionLine Series MetricName LabelName ValidNames SameLabels escape escapeChar
  renderLabel renderLabels metricPart seriesOf exposition)

variable {unicode : Unicode}

/-! ## Label values -/

/-- A character of a label value that both parsers read. -/
structure Readable (c : Char) : Prop where
  blank : Prometheus.isBlank c = false
  bar : c ≠ '|'
  lineEnd : c ≠ '\n' → Text.isLineEnd c = false

/-- A label as the summary has it: the codec makes characters of the bytes of the value. -/
def pyLabel (label : Text × Text) : Text × List Nat :=
  (label.1, (Text.utf8 label.2).map UInt8.toNat)

/-- The labels of a series as the summary has them. -/
def pyLabels (labels : Dict Text Text) : Labels := sorted (labels.entries.map pyLabel)

theorem quoted_cons {c : Char} (hquote : c ≠ '"') (hslash : c ≠ '\\') (t : Text) :
    quoted (c :: t) = (quoted t).map fun found => (c :: found.1, found.2) := by
  rw [quoted]
  · intro heq
    exact absurd heq hquote
  · intro _ heq
    exact absurd heq hslash
  · intro _ _ heq
    exact absurd heq hslash
  · intro heq
    exact absurd heq hslash

/-- An escaped value is read up to its closing quote. -/
theorem quoted_escape (value rest : Text) :
    quoted (escape value ++ '"' :: rest) = some (escape value, rest) := by
  induction value with
  | nil => rfl
  | cons c value ih =>
    have hcons : escape (c :: value) = escapeChar c ++ escape value := List.flatMap_cons
    rw [hcons, List.append_assoc]
    unfold escapeChar
    split
    · simp [quoted, ih]
    split
    · simp [quoted, ih]
    split
    · simp [quoted, ih]
    · next hslash hquote hline =>
      rw [List.singleton_append, quoted_cons hquote hslash, ih]
      rfl

/-- What the codec makes of the bytes of an escaped value: the bytes of the value. -/
theorem decode_escape (value : Text) :
    UnicodeEscape.decode unicode (Text.utf8 (escape value)) =
      some ((Text.utf8 value).map UInt8.toNat) := by
  induction value with
  | nil => exact UnicodeEscape.decode_nil
  | cons c value ih =>
    have hcons : Text.utf8 (escape (c :: value)) =
        Text.utf8 (escapeChar c) ++ Text.utf8 (escape value) := by
      rw [escape, List.flatMap_cons, Text.utf8, List.flatMap_append]
      rfl
    have hvalue : (Text.utf8 (c :: value)).map UInt8.toNat =
        (String.utf8EncodeChar c).map UInt8.toNat ++ (Text.utf8 value).map UInt8.toNat := by
      rw [Text.utf8, List.flatMap_cons, List.map_append]
      rfl
    rw [hcons, hvalue]
    unfold escapeChar
    split
    · next h =>
      subst h
      have hsimple : UnicodeEscape.simple (Char.ofNat (0x5c : UInt8).toNat) = some [0x5c] := rfl
      show UnicodeEscape.decode unicode
        (UnicodeEscape.backslash :: 0x5c :: Text.utf8 (escape value)) = _
      rw [UnicodeEscape.decode_simple hsimple, ih]
      rfl
    split
    · next h =>
      subst h
      have hsimple : UnicodeEscape.simple (Char.ofNat (0x22 : UInt8).toNat) = some [0x22] := rfl
      show UnicodeEscape.decode unicode
        (UnicodeEscape.backslash :: 0x22 :: Text.utf8 (escape value)) = _
      rw [UnicodeEscape.decode_simple hsimple, ih]
      rfl
    split
    · next h =>
      subst h
      have hsimple : UnicodeEscape.simple (Char.ofNat (0x6e : UInt8).toNat) = some [0x0a] := rfl
      show UnicodeEscape.decode unicode
        (UnicodeEscape.backslash :: 0x6e :: Text.utf8 (escape value)) = _
      rw [UnicodeEscape.decode_simple hsimple, ih]
      rfl
    · next hslash _ _ =>
      -- no byte of another character is a backslash
      have hbytes : ∀ b ∈ String.utf8EncodeChar c, b ≠ UnicodeEscape.backslash := by
        intro b hb heq
        subst heq
        rcases Nat.lt_or_ge c.toNat 128 with hlow | hhigh
        · rw [Text.utf8EncodeChar_ascii hlow] at hb
          have hbyte := congrArg UInt8.toNat (List.mem_singleton.mp hb)
          have hsize : c.toNat < UInt8.size := Nat.lt_trans hlow (by decide)
          rw [UInt8.toNat_ofNat_of_lt' hsize] at hbyte
          apply hslash
          apply Char.toNat_inj.mp
          exact hbyte.symm
        · have hle := Text.utf8EncodeChar_high hhigh _ hb
          revert hle
          decide
      have hsingle : Text.utf8 [c] = String.utf8EncodeChar c := by simp [Text.utf8]
      rw [hsingle, UnicodeEscape.decode_append hbytes, ih]
      rfl

/-! ## Labels -/

theorem isWord_of_isNameChar {c : Char} (h : Prometheus.isNameChar c = true) :
    isWord unicode c = true := by
  have hcode : c.toNat < 128 := by
    simp only [Prometheus.isNameChar, Text.isLetter, Text.isDigit, Bool.or_eq_true,
      Bool.and_eq_true, decide_eq_true_eq] at h
    rcases h with (h | h) | rfl
    · omega
    · omega
    · decide
  rw [isWord, if_pos hcode]
  exact h

/-- One label is matched. -/
theorem labelMatch_label {label : Text × Text} (h : LabelName label.1) (rest : Text) :
    labelMatch unicode (renderLabel label ++ rest) = some ((label.1, escape label.2), rest) := by
  have hword : ∀ c ∈ label.1, isWord unicode c = true := fun c hc => isWord_of_isNameChar (h.2 c hc)
  have hequals : isWord unicode '=' = false := rfl
  have htext : renderLabel label ++ rest =
      label.1 ++ '=' :: ('"' :: (escape label.2 ++ '"' :: rest)) := by simp [renderLabel]
  have hne : label.1 ≠ [] := by
    obtain ⟨⟨c, t, heq, -⟩, -⟩ := h
    rw [heq]
    exact List.cons_ne_nil c t
  unfold labelMatch
  dsimp only
  rw [htext, Text.takeWhile_append_stop hword hequals, Text.dropWhile_append_stop hword hequals,
    if_neg hne]
  show (quoted (escape label.2 ++ '"' :: rest)).map _ = _
  rw [quoted_escape]
  rfl

theorem findLabels_nil : findLabels unicode [] = [] := by
  rw [findLabels]

/-- A character that is no word character is passed over. -/
theorem findLabels_skip {c : Char} (h : isWord unicode c = false) (t : Text) :
    findLabels unicode (c :: t) = findLabels unicode t := by
  have hnone : labelMatch unicode (c :: t) = none := by
    rw [labelMatch, List.takeWhile_cons_of_neg (by simp [h])]
    rfl
  rw [findLabels]
  split
  · next hfound =>
    rw [hnone] at hfound
    cases hfound
  · rfl

/-- A label is found at its beginning. -/
theorem findLabels_label {label : Text × Text} (h : LabelName label.1) (rest : Text) :
    findLabels unicode (renderLabel label ++ rest) =
      (label.1, escape label.2) :: findLabels unicode rest := by
  have hmatch := @labelMatch_label unicode label h rest
  have hcons : ∃ c t, renderLabel label ++ rest = c :: t := by
    obtain ⟨⟨c, t, heq, -⟩, -⟩ := h
    exact ⟨c, t ++ '=' :: '"' :: escape label.2 ++ ['"'] ++ rest, by simp [renderLabel, heq]⟩
  obtain ⟨c, t, heq⟩ := hcons
  rw [heq] at hmatch ⊢
  rw [findLabels]
  split
  · next hfound =>
    rw [hmatch] at hfound
    cases hfound
    rfl
  · next hfound =>
    rw [hmatch] at hfound
    cases hfound

/-- `LABEL.findall` finds the labels of a series. -/
theorem findLabels_renderLabels {labels : List (Text × Text)}
    (h : ∀ label ∈ labels, LabelName label.1) :
    findLabels unicode (renderLabels labels ++ ['}']) =
      labels.map fun label => (label.1, escape label.2) := by
  have hclose : isWord unicode '}' = false := rfl
  have hcomma : isWord unicode ',' = false := rfl
  induction labels with
  | nil => exact (findLabels_skip hclose []).trans findLabels_nil
  | cons label labels ih =>
    have hlabel : LabelName label.1 := h label (List.mem_cons_self ..)
    have hlabels := ih fun l hl => h l (List.mem_cons_of_mem _ hl)
    cases labels with
    | nil =>
      have hone : renderLabels [label] = renderLabel label := by simp [renderLabels]
      rw [hone, findLabels_label hlabel, findLabels_skip hclose, findLabels_nil]
      rfl
    | cons label' labels =>
      rw [Prometheus.renderLabels_cons_cons, List.append_assoc, findLabels_label hlabel,
        List.cons_append, findLabels_skip hcomma, hlabels]
      rfl

/-- The labels of a series are decoded. -/
theorem mapM_decodeLabel (labels : List (Text × Text)) :
    (labels.map fun label => (label.1, escape label.2)).mapM (decodeLabel unicode) =
      some (labels.map pyLabel) := by
  induction labels with
  | nil => rfl
  | cons label labels ih =>
    have hfirst : decodeLabel unicode (label.1, escape label.2) =
        some (pyLabel label) := by
      rw [decodeLabel, decode_escape]
      rfl
    rw [List.map_cons, List.mapM_cons, hfirst, ih]
    rfl

/-! ## Samples -/

/-- What a text prints: the double next to its decimal numeral. -/
def Prints (text : Text) (x : Rat) : Prop :=
  ∃ n, Numeral.scan text = some (n, []) ∧ Double.round n.value = some x

/-- The characters of a numeral are no white space, and ASCII. -/
theorem isNumeralChar_plain {c : Char} (h : Strconv.isNumeralChar c = true) :
    Text.isPythonSpace c = false ∧ Text.isLineEnd c = false ∧ Prometheus.isSpace c = false ∧
      c.toNat < 128 := by
  have hcode : (48 ≤ c.toNat ∧ c.toNat ≤ 57) ∨ c ∈ ['-', '+', '.', 'e', 'E'] := by
    simpa [Strconv.isNumeralChar, Text.isDigit] using h
  rcases hcode with hdigit | hmem
  · refine ⟨?_, ?_, ?_, by omega⟩
    · simp [Text.isPythonSpace]
      omega
    · simp [Text.isLineEnd]
      omega
    · simp [Prometheus.isSpace]
      omega
  · have hall : ['-', '+', '.', 'e', 'E'].all (fun d => !Text.isPythonSpace d &&
        !Text.isLineEnd d && !Prometheus.isSpace d && decide (d.toNat < 128)) = true := by decide
    have hc := List.all_eq_true.mp hall c hmem
    simp only [Bool.and_eq_true, Bool.not_eq_true', decide_eq_true_eq] at hc
    exact ⟨hc.1.1.1, hc.1.1.2, hc.1.2, hc.2⟩

theorem scan_chars {text : Text} {n : Numeral} (h : Numeral.scan text = some (n, [])) :
    ∀ c ∈ text, Strconv.isNumeralChar c = true := fun c hc =>
  (Strconv.scan_chars h c hc).resolve_right List.not_mem_nil

theorem ne_nil_of_scan {text : Text} {n : Numeral} (h : Numeral.scan text = some (n, [])) :
    text ≠ [] := by
  intro heq
  subst heq
  cases h

/-- The number after a space. -/
theorem sampleValue_number {text : Text} {n : Numeral} (h : Numeral.scan text = some (n, [])) :
    sampleValue unicode (' ' :: text) = some n := by
  have hspace : Text.isPythonSpace ' ' = true := rfl
  have hchars : ∀ c ∈ text, Text.isPythonSpace c = false := fun c hc =>
    (isNumeralChar_plain (scan_chars h c hc)).1
  have hdrop : (' ' :: text).dropWhile Text.isPythonSpace = text := by
    rw [List.dropWhile_cons_of_pos hspace]
    cases text with
    | nil => rfl
    | cons c text => rw [List.dropWhile_cons_of_neg (by simp [hchars c (List.mem_cons_self ..)])]
  have hascii : text.map unicode.ascii = text := by
    apply (List.map_congr_left _).trans (List.map_id text)
    intro c hc
    exact if_pos (isNumeralChar_plain (scan_chars h c hc)).2.2.2
  unfold sampleValue
  rw [if_neg (by rw [List.takeWhile_cons_of_pos hspace]; simp), hdrop, hascii, h]
  rfl

theorem bracedValue_of_not_mem {t : Text} (h : '}' ∉ t) : bracedValue unicode t = none := by
  induction t with
  | nil => rfl
  | cons c t ih =>
    rw [List.mem_cons, not_or] at h
    rw [bracedValue, ih h.2]
    exact if_neg (Ne.symm h.1)

/-- The last brace that a value follows is taken. -/
theorem bracedValue_append {t rest : Text} {n : Numeral} (hrest : '}' ∉ rest)
    (hvalue : sampleValue unicode rest = some n) :
    bracedValue unicode (t ++ '}' :: rest) = some (t ++ ['}'], n) := by
  induction t with
  | nil =>
    show bracedValue unicode ('}' :: rest) = _
    rw [bracedValue, bracedValue_of_not_mem hrest]
    show (sampleValue unicode rest).map _ = _
    rw [hvalue]
    rfl
  | cons c t ih =>
    rw [List.cons_append, bracedValue, ih]
    rfl

theorem isNameChar_of_metric {name : Text} (h : MetricName name) :
    ∀ c ∈ name, isNameChar c = true := by
  intro c hc
  have hchar := h.2 c hc
  simp only [Prometheus.isNameChar, Bool.or_eq_true, decide_eq_true_eq] at hchar
  simp only [isNameChar, Bool.or_eq_true, decide_eq_true_eq]
  exact hchar

/-- A sample is matched. -/
theorem sampleMatch_line {name : Text} {labels : Dict Text Text} (h : MetricName name)
    {number : Text} {n : Numeral} (hscan : Numeral.scan number = some (n, [])) :
    ∃ found, sampleMatch unicode (metricPart name labels ++ ' ' :: number) = some found ∧
      found.name = name ∧ found.value = n ∧
      (labels.entries = [] ∧ found.labels = [] ∨
        found.labels = '{' :: (renderLabels labels.entries ++ ['}'])) := by
  have hchars := isNameChar_of_metric h
  have hvalue : sampleValue unicode (' ' :: number) = some n := sampleValue_number hscan
  obtain ⟨⟨c, rest, hname, hstart⟩, -⟩ := h
  have hfirst : isNameStart c = true := by
    simp only [Prometheus.isNameStart, Bool.or_eq_true, decide_eq_true_eq] at hstart
    simp only [isNameStart, Bool.or_eq_true, decide_eq_true_eq]
    exact hstart
  have hspace : isNameChar ' ' = false := rfl
  have hbrace : isNameChar '{' = false := rfl
  by_cases hempty : labels.entries = []
  · have hline : metricPart name labels ++ ' ' :: number = name ++ ' ' :: number := by
      rw [metricPart, if_pos hempty]
    have hhead : (name ++ ' ' :: number).head? = some c := by simp [hname]
    refine ⟨⟨name, [], n⟩, ?_, rfl, rfl, .inl ⟨hempty, rfl⟩⟩
    unfold sampleMatch
    dsimp only
    rw [hline, hhead, Text.takeWhile_append_stop hchars hspace,
      Text.dropWhile_append_stop hchars hspace]
    dsimp only
    rw [if_pos hfirst]
    show (sampleValue unicode (' ' :: number)).map _ = _
    rw [hvalue]
    rfl
  · have hline : metricPart name labels ++ ' ' :: number =
        name ++ '{' :: (renderLabels labels.entries ++ '}' :: ' ' :: number) := by
      rw [metricPart, if_neg hempty]
      simp
    have hhead : (name ++ '{' :: (renderLabels labels.entries ++ '}' :: ' ' :: number)).head? =
        some c := by simp [hname]
    have hclose : '}' ∉ ' ' :: number := by
      intro hmem
      rcases List.mem_cons.mp hmem with heq | hmem
      · cases heq
      · have hnumeral := scan_chars hscan _ hmem
        cases hnumeral
    refine ⟨⟨name, '{' :: (renderLabels labels.entries ++ ['}']), n⟩, ?_, rfl, rfl, .inr rfl⟩
    unfold sampleMatch
    dsimp only
    rw [hline, hhead, Text.takeWhile_append_stop hchars hbrace,
      Text.dropWhile_append_stop hchars hbrace]
    dsimp only
    rw [if_pos hfirst]
    show (bracedValue unicode (renderLabels labels.entries ++ '}' :: ' ' :: number)).map _ = _
    rw [bracedValue_append hclose hvalue]
    rfl

/-! ## Scrapes -/

/-- The text of a scrape: comments on one line, valid names, label values that both parsers
read, and values in decimal notation. -/
structure Scrape (renderValue : Rat → Text) (lines : List (ExpositionLine Rat)) : Prop where
  comments : ∀ text, .comment text ∈ lines → ∀ c ∈ text, Text.isLineEnd c = false
  names : ∀ series ∈ seriesOf lines, ValidNames series.name series.labels
  readable : ∀ series ∈ seriesOf lines, ∀ value ∈ series.labels.values, ∀ c ∈ value, Readable c
  numbers : ∀ series ∈ seriesOf lines, Prints (renderValue series.value) series.value

theorem isLineEnd_of_isNameChar {c : Char} (h : Prometheus.isNameChar c = true) :
    Text.isLineEnd c = false := by
  simp only [Prometheus.isNameChar, Text.isLetter, Text.isDigit, Bool.or_eq_true,
    Bool.and_eq_true, decide_eq_true_eq] at h
  rcases h with (h | h) | rfl
  · simp [Text.isLineEnd]
    omega
  · simp [Text.isLineEnd]
    omega
  · rfl

theorem isLineEnd_escape {value : Text} (h : ∀ c ∈ value, Readable c) :
    ∀ c ∈ escape value, Text.isLineEnd c = false := by
  intro c hc
  by_cases hfeed : c = '\n'
  · subst hfeed
    exact absurd hc (Prometheus.newline_not_mem_escape value)
  · rcases Prometheus.mem_escape hc with hmem | rfl | rfl | rfl
    · exact (h c hmem).lineEnd hfeed
    · rfl
    · rfl
    · rfl

theorem isLineEnd_renderLabels {labels : List (Text × Text)}
    (hnames : ∀ label ∈ labels, LabelName label.1)
    (hvalues : ∀ label ∈ labels, ∀ c ∈ label.2, Readable c) :
    ∀ c ∈ renderLabels labels, Text.isLineEnd c = false := by
  have hlabel : ∀ label ∈ labels, ∀ c ∈ renderLabel label, Text.isLineEnd c = false := by
    intro label hmem c hc
    simp only [renderLabel, List.mem_append, List.mem_cons, List.not_mem_nil, or_false] at hc
    rcases hc with (hc | rfl | rfl | hc) | rfl
    · exact isLineEnd_of_isNameChar ((hnames label hmem).2 c hc)
    · rfl
    · rfl
    · exact isLineEnd_escape (hvalues label hmem) c hc
    · rfl
  clear hnames hvalues
  induction labels with
  | nil => simp [renderLabels]
  | cons label labels ih =>
    have hfirst := hlabel label (List.mem_cons_self ..)
    have hrest := ih fun l hl => hlabel l (List.mem_cons_of_mem _ hl)
    cases labels with
    | nil => simpa [renderLabels] using hfirst
    | cons label' labels =>
      intro c hc
      rw [Prometheus.renderLabels_cons_cons] at hc
      rcases List.mem_append.mp hc with hc | hc
      · exact hfirst c hc
      rcases List.mem_cons.mp hc with rfl | hc
      · rfl
      · exact hrest c hc

theorem isLineEnd_metricPart {name : Text} {labels : Dict Text Text} (hnames : ValidNames name labels)
    (hvalues : ∀ value ∈ labels.values, ∀ c ∈ value, Readable c) :
    ∀ c ∈ metricPart name labels, Text.isLineEnd c = false := by
  have hname : ∀ c ∈ name, Text.isLineEnd c = false := by
    intro c hc
    rcases hnames.metric.2 c hc with hchar | rfl
    · exact isLineEnd_of_isNameChar hchar
    · rfl
  unfold metricPart
  split
  · exact hname
  · intro c hc
    simp only [List.mem_append, List.mem_cons, List.not_mem_nil, or_false] at hc
    rcases hc with (hc | rfl | hc) | rfl
    · exact hname c hc
    · rfl
    · apply @isLineEnd_renderLabels labels.entries _ _ c hc
      · exact fun label hl => hnames.labels _ (List.mem_map_of_mem hl)
      · exact fun label hl => hvalues _ (List.mem_map_of_mem hl)
    · rfl

section

variable {renderValue : Rat → Text} {lines : List (ExpositionLine Rat)}

/-- No line of a scrape is broken. -/
theorem Scrape.unbroken (h : Scrape renderValue lines) :
    ∀ l ∈ lines.map (ExpositionLine.render renderValue), ∀ c ∈ l, Text.isLineEnd c = false := by
  intro l hl c hc
  obtain ⟨line, hmem, rfl⟩ := List.mem_map.mp hl
  cases line with
  | comment text =>
    rcases List.mem_cons.mp hc with rfl | hc
    · rfl
    · exact h.comments text hmem c hc
  | sample series =>
    have hseries : series ∈ seriesOf lines := List.mem_filterMap.mpr ⟨_, hmem, rfl⟩
    obtain ⟨n, hscan, -⟩ := h.numbers series hseries
    rcases List.mem_append.mp hc with hc | hc
    · exact isLineEnd_metricPart (h.names series hseries) (h.readable series hseries) c hc
    rcases List.mem_cons.mp hc with rfl | hc
    · rfl
    · exact (isNumeralChar_plain (scan_chars hscan c hc)).2.1

/-- Go reads the values of a scrape. -/
theorem Prints.inverts {text : Text} {x : Rat} (h : Prints text x) :
    (text ≠ [] ∧ ∀ c ∈ text, Prometheus.isSpace c = false) ∧ Strconv.parseFloat text = some x := by
  obtain ⟨n, hscan, hround⟩ := h
  have hchars := scan_chars hscan
  refine ⟨⟨ne_nil_of_scan hscan, fun c hc => (isNumeralChar_plain (hchars c hc)).2.2.1⟩, ?_⟩
  rw [Strconv.parseFloat_decimal (fun hmem => absurd (hchars _ hmem) (by decide))
    (fun hmem => absurd (hchars _ hmem) (by decide)) (fun hmem => absurd (hchars _ hmem) (by decide)),
    Numeral.read, hscan]
  exact hround

theorem Scrape.wellFormed (h : Scrape renderValue lines) :
    Prometheus.WellFormed Strconv.parseFloat renderValue lines where
  comments text hmem := by
    intro hfeed
    have hend := h.comments text hmem _ hfeed
    cases hend
  names := h.names
  values series hseries := by
    obtain ⟨hword, hinverse⟩ := (h.numbers series hseries).inverts
    exact ⟨hword, hinverse⟩

theorem Scrape.blankFree (h : Scrape renderValue lines) :
    ∀ series ∈ seriesOf lines, Prometheus.BlankFree series.labels := fun series hseries value hvalue c hc =>
  (h.readable series hseries value hvalue c hc).blank

/-! ## What the summary makes of a scrape -/

theorem parseLine_comment (series : SeriesValues) (text : Text) :
    parseLine unicode series ('#' :: text) = some series := by
  have hspace : Text.isPythonSpace '#' = false := rfl
  obtain ⟨kept, hkept⟩ := Text.trim_cons hspace text
  rw [parseLine, hkept]
  rfl

theorem isPythonSpace_of_isNameChar {c : Char} (h : isNameChar c = true) :
    Text.isPythonSpace c = false := by
  simp only [isNameChar, Text.isLetter, Text.isDigit, Bool.or_eq_true, Bool.and_eq_true,
    decide_eq_true_eq] at h
  rcases h with ((h | h) | rfl) | rfl
  · simp [Text.isPythonSpace]
    omega
  · simp [Text.isPythonSpace]
    omega
  · rfl
  · rfl

/-- A line that is a sample has no white space at its ends. -/
theorem trim_sample {name : Text} {labels : Dict Text Text} (h : MetricName name) {number : Text}
    (hne : number ≠ []) (hnumber : ∀ c ∈ number, Text.isPythonSpace c = false) :
    Text.trim Text.isPythonSpace (metricPart name labels ++ ' ' :: number) =
      metricPart name labels ++ ' ' :: number := by
  have hchars := isNameChar_of_metric h
  obtain ⟨⟨c, rest, hname, -⟩, -⟩ := h
  have hhead : ∃ rest', metricPart name labels = c :: rest' := by
    unfold metricPart
    split
    · exact ⟨rest, hname⟩
    · exact ⟨rest ++ '{' :: (renderLabels labels.entries ++ ['}']), by simp [hname]⟩
  obtain ⟨rest', hrest'⟩ := hhead
  have hfirst : ∀ d, (metricPart name labels ++ ' ' :: number).head? = some d →
      Text.isPythonSpace d = false := by
    intro d hd
    rw [hrest', List.cons_append] at hd
    cases hd
    exact isPythonSpace_of_isNameChar (hchars c (by rw [hname]; exact List.mem_cons_self ..))
  have hlast : ∀ d, (metricPart name labels ++ ' ' :: number).getLast? = some d →
      Text.isPythonSpace d = false := by
    intro d hd
    have hsplit : metricPart name labels ++ ' ' :: number =
        (metricPart name labels ++ [' ']) ++ number := by simp
    rw [hsplit, List.getLast?_append_of_ne_nil _ hne] at hd
    exact hnumber d (List.mem_of_getLast? hd)
  have hcore : metricPart name labels ++ ' ' :: number ≠ [] := by simp
  obtain ⟨kept, hkept, htrim⟩ :=
    @Text.trim_append Text.isPythonSpace [] _ (by simp) hcore hfirst hlast []
  rw [List.prefix_nil.mp hkept] at htrim
  simpa using htrim

/-- The line of a sample. -/
theorem parseLine_sample {series : Series Rat} (hnames : ValidNames series.name series.labels)
    {text : Text} (hprints : Prints text series.value) (read : SeriesValues) :
    parseLine unicode read (metricPart series.name series.labels ++ ' ' :: text) =
      some (read.set (series.name, pyLabels series.labels) series.value) := by
  obtain ⟨n, hscan, hround⟩ := hprints
  obtain ⟨found, hmatch, hname, hvalue, hlabels⟩ :=
    @sampleMatch_line unicode _ series.labels hnames.metric _ _ hscan
  have htrim : Text.trim Text.isPythonSpace (metricPart series.name series.labels ++ ' ' :: text) =
      metricPart series.name series.labels ++ ' ' :: text := by
    apply trim_sample hnames.metric (ne_nil_of_scan hscan)
    exact fun c hc => (isNumeralChar_plain (scan_chars hscan c hc)).1
  have hfound : (findLabels unicode found.labels).mapM (decodeLabel unicode) =
      some (series.labels.entries.map pyLabel) := by
    have hdecoded := @mapM_decodeLabel unicode series.labels.entries
    have hlabelNames : ∀ label ∈ series.labels.entries, LabelName label.1 := fun label hl =>
      hnames.labels _ (List.mem_map_of_mem hl)
    rcases hlabels with ⟨hnil, hgroup⟩ | hgroup
    · rw [hgroup, findLabels_nil, hnil]
      rfl
    · have hopen : isWord unicode '{' = false := rfl
      rw [hgroup, findLabels_skip hopen, findLabels_renderLabels hlabelNames]
      exact hdecoded
  rw [parseLine, htrim, hmatch]
  dsimp only
  rw [hfound, hvalue, hround, hname]
  rfl

/-- The entry of a series in what the summary reads. -/
def pyEntry (series : Series Rat) : (Text × Labels) × Rat :=
  ((series.name, pyLabels series.labels), series.value)

/-- What the summary makes of a scrape: its series, one after the other. -/
theorem parsePrometheusText_exposition (h : Scrape renderValue lines) :
    parsePrometheusText unicode (exposition renderValue lines) =
      some (((seriesOf lines).map pyEntry).foldl (fun read entry => read.set entry.1 entry.2)
        .empty) := by
  have hfold : ∀ (ls : List (ExpositionLine Rat)) (read : SeriesValues),
      (∀ series ∈ seriesOf ls, ValidNames series.name series.labels) →
      (∀ series ∈ seriesOf ls, Prints (renderValue series.value) series.value) →
      (ls.map (ExpositionLine.render renderValue)).foldlM (parseLine unicode) read =
        some (((seriesOf ls).map pyEntry).foldl (fun read entry => read.set entry.1 entry.2) read) := by
    intro ls
    induction ls with
    | nil => exact fun _ _ _ => rfl
    | cons line ls ih =>
      intro read hnames hprints
      cases line with
      | comment text =>
        rw [List.map_cons, List.foldlM_cons, ExpositionLine.render, parseLine_comment]
        exact ih read hnames hprints
      | sample series =>
        have hseries : series ∈ seriesOf (.sample series :: ls) := List.mem_cons_self ..
        rw [List.map_cons, List.foldlM_cons, ExpositionLine.render,
          parseLine_sample (hnames series hseries) (hprints series hseries)]
        exact ih _ (fun s hs => hnames s (List.mem_cons_of_mem _ hs))
          fun s hs => hprints s (List.mem_cons_of_mem _ hs)
  rw [parsePrometheusText, exposition, Text.splitLines_unlines h.unbroken]
  exact hfold lines .empty h.names h.numbers

end

/-! ## Keys -/

/-- A name and labels that both programs tell apart from others. -/
structure Distinguished (name : Text) (labels : Dict Text Text) : Prop where
  names : ValidNames name labels
  bars : ∀ value ∈ labels.values, '|' ∉ value

/-- The names of labels, sorted. -/
def sortedNames (labels : Dict Text Text) : List Text := labels.keys.insertionSort (· ≤ ·)

/-- What Go writes of a label between two bars. -/
def chunk (labels : Dict Text Text) (label : Text) : Text :=
  label ++ '=' :: (labels.get? label).getD []

theorem key_eq (name : Text) (labels : Dict Text Text) :
    Prometheus.key name labels =
      name ++ ((sortedNames labels).map (chunk labels)).flatMap ('|' :: ·) := by
  rw [Prometheus.key, List.flatMap_map]
  rfl

theorem mem_sortedNames {labels : Dict Text Text} {label : Text} :
    label ∈ sortedNames labels ↔ label ∈ labels.keys :=
  List.mem_insertionSort (· ≤ ·)

theorem ne_bar_of_isNameChar {c : Char} (h : Prometheus.isNameChar c = true) : c ≠ '|' :=
  Prometheus.isNameChar_ne h (by decide)

theorem Distinguished.bar_not_mem_name {name : Text} {labels : Dict Text Text}
    (h : Distinguished name labels) : ∀ c ∈ name, (decide (c ≠ '|')) = true := by
  intro c hc
  rcases h.names.metric.2 c hc with hchar | rfl
  · exact decide_eq_true (ne_bar_of_isNameChar hchar)
  · rfl

theorem Distinguished.bar_not_mem_chunk {name : Text} {labels : Dict Text Text}
    (h : Distinguished name labels) :
    ∀ t ∈ (sortedNames labels).map (chunk labels), ∀ c ∈ t, (decide (c ≠ '|')) = true := by
  intro t ht c hc
  obtain ⟨label, hlabel, rfl⟩ := List.mem_map.mp ht
  obtain ⟨value, hvalue⟩ := Dict.mem_keys.mp (mem_sortedNames.mp hlabel)
  rw [chunk, hvalue] at hc
  rcases List.mem_append.mp hc with hc | hc
  · have hname := h.names.labels label (mem_sortedNames.mp hlabel)
    exact decide_eq_true (ne_bar_of_isNameChar (hname.2 c hc))
  rcases List.mem_cons.mp hc with rfl | hc
  · rfl
  · have hbar := h.bars value (Dict.mem_values.mpr ⟨label, hvalue⟩)
    exact decide_eq_true (ne_of_mem_of_not_mem hc hbar)

/-- What is put after bars begins with a bar. -/
theorem head?_flatMap_bar {ts : List Text} {c : Char}
    (h : (ts.flatMap ('|' :: ·)).head? = some c) : (decide (c ≠ '|')) = false := by
  cases ts with
  | nil => cases h
  | cons t ts =>
    cases h
    rfl

/-- A text without a bar, and what is put after bars, can be told apart. -/
theorem append_flatMap_bar {t u : Text} {ts us : List Text}
    (ht : ∀ c ∈ t, (decide (c ≠ '|')) = true) (hu : ∀ c ∈ u, (decide (c ≠ '|')) = true)
    (h : t ++ ts.flatMap ('|' :: ·) = u ++ us.flatMap ('|' :: ·)) :
    t = u ∧ ts.flatMap ('|' :: ·) = us.flatMap ('|' :: ·) := by
  have hfirst : t = u := by
    have htake := congrArg (List.takeWhile (fun c => decide (c ≠ '|'))) h
    rw [Text.takeWhile_append_rest fun c => head?_flatMap_bar,
      Text.takeWhile_append_rest fun c => head?_flatMap_bar, Text.takeWhile_all ht,
      Text.takeWhile_all hu] at htake
    exact htake
  subst hfirst
  exact ⟨rfl, List.append_cancel_left h⟩

/-- Texts without a bar that are each put after a bar can be taken apart again. -/
theorem flatMap_bar_injective {ts us : List Text}
    (ht : ∀ t ∈ ts, ∀ c ∈ t, (decide (c ≠ '|')) = true)
    (hu : ∀ u ∈ us, ∀ c ∈ u, (decide (c ≠ '|')) = true)
    (h : ts.flatMap ('|' :: ·) = us.flatMap ('|' :: ·)) : ts = us := by
  induction ts generalizing us with
  | nil =>
    cases us with
    | nil => rfl
    | cons u us => cases h
  | cons t ts ih =>
    cases us with
    | nil => cases h
    | cons u us =>
      rw [List.flatMap_cons, List.flatMap_cons, List.cons_append, List.cons_append] at h
      obtain ⟨hfirst, hrest⟩ := append_flatMap_bar (ht t (List.mem_cons_self ..))
        (hu u (List.mem_cons_self ..)) (List.cons.inj h).2
      rw [hfirst, ih (fun v hv => ht v (List.mem_cons_of_mem _ hv))
        (fun v hv => hu v (List.mem_cons_of_mem _ hv)) hrest]

theorem takeWhile_chunk {labels : Dict Text Text} (h : ∀ label ∈ labels.keys, LabelName label)
    {label : Text} (hlabel : label ∈ sortedNames labels) :
    (chunk labels label).takeWhile (· ≠ '=') = label := by
  apply Text.takeWhile_append_stop _ (by rfl)
  intro c hc
  have hname := h label (mem_sortedNames.mp hlabel)
  exact decide_eq_true (Prometheus.isNameChar_ne (hname.2 c hc) (by decide))

/-- The chunks determine the labels. -/
theorem sameLabels_of_chunks {labels labels' : Dict Text Text}
    (h : ∀ label ∈ labels.keys, LabelName label) (h' : ∀ label ∈ labels'.keys, LabelName label)
    (heq : (sortedNames labels).map (chunk labels) = (sortedNames labels').map (chunk labels')) :
    SameLabels labels labels' := by
  have hnames : sortedNames labels = sortedNames labels' := by
    have htake := congrArg (List.map (List.takeWhile (· ≠ '='))) heq
    rw [List.map_map, List.map_map] at htake
    have hself : (sortedNames labels).map (List.takeWhile (· ≠ '=') ∘ chunk labels) =
        sortedNames labels :=
      (List.map_congr_left fun label hl => takeWhile_chunk h hl).trans (List.map_id _)
    have hself' : (sortedNames labels').map (List.takeWhile (· ≠ '=') ∘ chunk labels') =
        sortedNames labels' :=
      (List.map_congr_left fun label hl => takeWhile_chunk h' hl).trans (List.map_id _)
    rw [hself, hself'] at htake
    exact htake
  have hmem : ∀ label, label ∈ labels.keys ↔ label ∈ labels'.keys := by
    intro label
    rw [← mem_sortedNames, ← mem_sortedNames, hnames]
  intro label
  by_cases hlabel : label ∈ labels.keys
  · obtain ⟨value, hvalue⟩ := Dict.mem_keys.mp hlabel
    obtain ⟨value', hvalue'⟩ := Dict.mem_keys.mp ((hmem label).mp hlabel)
    rw [← hnames] at heq
    have hchunk := List.map_inj_left.mp heq label (mem_sortedNames.mpr hlabel)
    rw [chunk, chunk, hvalue, hvalue'] at hchunk
    have hvalues : value = value' := (List.cons.inj (List.append_cancel_left hchunk)).2
    rw [hvalue, hvalue', hvalues]
  · rw [Dict.get?_eq_none.mpr hlabel, Dict.get?_eq_none.mpr fun hin => hlabel ((hmem label).mpr hin)]

/-- The key of Go tells such series apart. -/
theorem key_inj {name name' : Text} {labels labels' : Dict Text Text}
    (h : Distinguished name labels) (h' : Distinguished name' labels')
    (heq : Prometheus.key name labels = Prometheus.key name' labels') :
    name = name' ∧ SameLabels labels labels' := by
  rw [key_eq, key_eq] at heq
  obtain ⟨hname, hchunks⟩ := append_flatMap_bar h.bar_not_mem_name h'.bar_not_mem_name heq
  exact ⟨hname, sameLabels_of_chunks h.names.labels h'.names.labels
    (flatMap_bar_injective h.bar_not_mem_chunk h'.bar_not_mem_chunk hchunks)⟩

theorem sorted_perm (labels : Labels) : (sorted labels).Perm labels := by
  have hperm := ((labels.map toLex).perm_insertionSort (· ≤ ·)).map ofLex
  have hid : (labels.map toLex).map ofLex = labels := by
    rw [List.map_map]
    exact List.map_id labels
  rw [hid] at hperm
  exact hperm

theorem sorted_eq_of_perm {labels labels' : Labels} (h : labels.Perm labels') :
    sorted labels = sorted labels' := by
  have hsorted : (labels.map toLex).insertionSort (· ≤ ·) =
      (labels'.map toLex).insertionSort (· ≤ ·) := by
    apply List.Perm.eq_of_pairwise' (List.pairwise_insertionSort _ _)
      (List.pairwise_insertionSort _ _)
    exact ((List.perm_insertionSort _ _).trans (h.map toLex)).trans
      (List.perm_insertionSort _ _).symm
  rw [sorted, sorted, hsorted]

theorem pyLabel_injective : Function.Injective pyLabel := by
  intro label label' h
  have hname : label.1 = label'.1 := (Prod.mk.inj h).1
  have hbytes : Text.utf8 label.2 = Text.utf8 label'.2 :=
    List.map_injective_iff.mpr (fun _ _ => UInt8.toNat_inj.mp) (Prod.mk.inj h).2
  exact Prod.ext hname (Text.utf8_injective hbytes)

/-- The labels of the summary tell label sets apart, and nothing else. -/
theorem pyLabels_iff {labels labels' : Dict Text Text} :
    pyLabels labels = pyLabels labels' ↔ SameLabels labels labels' := by
  constructor
  · intro h
    have hperm : labels.entries.Perm labels'.entries := by
      rw [← List.map_perm_map_iff pyLabel_injective]
      apply (sorted_perm _).symm.trans
      rw [← pyLabels, h]
      exact sorted_perm _
    intro label
    apply Option.ext
    intro value
    rw [Dict.get?_eq_some, Dict.get?_eq_some, hperm.mem_iff]
  · intro h
    exact sorted_eq_of_perm ((Dict.entries_perm h).map _)

/-! ## The agreement -/

/-- The keys of one series in both programs. -/
def SameKey (k : Text) (k' : Text × Labels) : Prop :=
  ∃ name labels, Distinguished name labels ∧ k = Prometheus.key name labels ∧
    k' = (name, pyLabels labels)

/-- The keys of one label set in both programs. -/
def SameLabelKey (k : Text) (k' : Labels) : Prop :=
  ∃ name labels, Distinguished name labels ∧ k = Prometheus.key [] labels ∧ k' = pyLabels labels

theorem sameKey_biUnique : Relator.BiUnique SameKey := by
  constructor
  · intro a b c ha hb
    obtain ⟨name, labels, -, rfl, rfl⟩ := ha
    obtain ⟨name', labels', -, rfl, heq⟩ := hb
    rw [(Prod.mk.inj heq).1]
    exact Prometheus.key_congr (pyLabels_iff.mp (Prod.mk.inj heq).2)
  · intro a b c ha hb
    obtain ⟨name, labels, h, rfl, rfl⟩ := ha
    obtain ⟨name', labels', h', heq, rfl⟩ := hb
    obtain ⟨hname, hlabels⟩ := key_inj h h' heq
    rw [hname, pyLabels_iff.mpr hlabels]

theorem sameLabelKey_biUnique : Relator.BiUnique SameLabelKey := by
  constructor
  · intro a b c ha hb
    obtain ⟨name, labels, -, rfl, rfl⟩ := ha
    obtain ⟨name', labels', -, rfl, heq⟩ := hb
    exact Prometheus.key_congr (pyLabels_iff.mp heq)
  · intro a b c ha hb
    obtain ⟨name, labels, h, rfl, rfl⟩ := ha
    obtain ⟨name', labels', h', heq, rfl⟩ := hb
    have hchunks : (sortedNames labels).map (chunk labels) =
        (sortedNames labels').map (chunk labels') := by
      rw [key_eq, key_eq] at heq
      exact flatMap_bar_injective h.bar_not_mem_chunk h'.bar_not_mem_chunk heq
    exact pyLabels_iff.mpr (sameLabels_of_chunks h.names.labels h'.names.labels hchunks)

/-- A series of Go and its value in the summary. -/
structure SameValue (series : Series Rat) (value : Rat) : Prop where
  distinguished : Distinguished series.name series.labels
  value : series.value = value

/-- A snapshot of Go and what the summary read are the same scrape. -/
structure Mirrors (snapshot : Prometheus.Snapshot Rat) (read : SeriesValues) : Prop where
  keyed : Prometheus.Keyed snapshot
  renamed : Dict.Renamed SameKey SameValue snapshot read

theorem Scrape.distinguished {renderValue : Rat → Text} {lines : List (ExpositionLine Rat)}
    (h : Scrape renderValue lines) {series : Series Rat} (hseries : series ∈ seriesOf lines) :
    Distinguished series.name series.labels := by
  refine ⟨h.names series hseries, ?_⟩
  intro value hvalue hbar
  exact (h.readable series hseries value hvalue _ hbar).bar rfl

/-- Both programs read the series of a scrape. -/
theorem Scrape.mirrors {renderValue : Rat → Text} {lines : List (ExpositionLine Rat)}
    (h : Scrape renderValue lines) :
    ∃ snapshot read, Prometheus.parse Strconv.parseFloat (exposition renderValue lines) = .ok snapshot ∧
      parsePrometheusText unicode (exposition renderValue lines) = some read ∧
      Mirrors snapshot read := by
  have hparse := Prometheus.parse_exposition h.wellFormed h.blankFree
  refine ⟨_, _, hparse, parsePrometheusText_exposition h, (Prometheus.Indexed.parse hparse).keyed, ?_⟩
  have hfold : (seriesOf lines).foldl (fun (snapshot : Prometheus.Snapshot Rat) series =>
      snapshot.set (Prometheus.key series.name series.labels) series) .empty =
      ((seriesOf lines).map fun series => (Prometheus.key series.name series.labels, series)).foldl
        (fun snapshot entry => snapshot.set entry.1 entry.2) .empty := by
    rw [List.foldl_map]
  rw [hfold]
  apply Dict.renamed_empty.foldl_set sameKey_biUnique
  rw [List.forall₂_map_left_iff, List.forall₂_map_right_iff, List.forall₂_same]
  intro series hseries
  have hdistinguished := h.distinguished hseries
  exact ⟨⟨series.name, series.labels, hdistinguished, rfl, rfl⟩, hdistinguished, rfl⟩

/-- An entry of a snapshot of Go and one of the summary are one series. -/
structure SameEntry (entry : Text × Series Rat) (entry' : (Text × Labels) × Rat) : Prop where
  distinguished : Distinguished entry.2.name entry.2.labels
  key : entry'.1 = (entry.2.name, pyLabels entry.2.labels)
  value : entry.2.value = entry'.2

theorem Mirrors.entries {snapshot : Prometheus.Snapshot Rat} {read : SeriesValues}
    (h : Mirrors snapshot read) : List.Forall₂ SameEntry snapshot.entries read.entries := by
  have hkeyed : ∀ entry ∈ snapshot.entries,
      entry.1 = Prometheus.key entry.2.name entry.2.labels := fun entry hentry =>
    h.keyed entry.1 entry.2 (Dict.get?_eq_some.mpr hentry)
  apply ((List.forall₂_and_left _ _).mpr ⟨hkeyed, h.renamed⟩).imp
  intro entry entry' hboth
  obtain ⟨hkey, hsame, hvalue⟩ := hboth
  obtain ⟨name, labels, hdistinguished, hk, hk'⟩ := hsame
  obtain ⟨hname, hlabels⟩ := key_inj hvalue.distinguished hdistinguished (hkey.symm.trans hk)
  refine ⟨hvalue.distinguished, ?_, hvalue.value⟩
  rw [hk', hname, pyLabels_iff.mpr hlabels]

/-- The series of a metric are the same. -/
theorem Mirrors.matching {snapshot : Prometheus.Snapshot Rat} {read : SeriesValues}
    (h : Mirrors snapshot read) (name : Text) :
    Dict.Renamed SameLabelKey (· = ·) (Prometheus.matching snapshot name .empty)
      (valuesOf read name) := by
  let picked (entry : Text × Series Rat) : Bool :=
    decide (entry.2.name = name ∧ Prometheus.containsLabels entry.2.labels .empty)
  have hfold : Prometheus.matching snapshot name .empty =
      ((snapshot.entries.filter picked).map fun entry =>
        (Prometheus.key [] entry.2.labels, entry.2.value)).foldl
          (fun d entry => d.set entry.1 entry.2) .empty := by
    rw [Prometheus.matching, Dict.values, List.filter_map, List.foldl_map, List.foldl_map]
    rfl
  rw [hfold]
  apply Dict.renamed_empty.foldl_set sameLabelKey_biUnique
  rw [List.forall₂_map_left_iff, List.forall₂_map_right_iff]
  have hpicked : Relator.LiftFun SameEntry (· ↔ ·) (fun entry => picked entry)
      (fun entry' : (Text × Labels) × Rat => decide (entry'.1.1 = name)) := by
    intro entry entry' hsame
    have hall : Prometheus.containsLabels entry.2.labels .empty = true := rfl
    simp only [picked, decide_eq_true_eq, hsame.key, hall, and_true]
  apply (List.rel_filter hpicked h.entries).imp
  intro entry entry' hsame
  refine ⟨⟨entry.2.name, entry.2.labels, hsame.distinguished, rfl, ?_⟩, hsame.value⟩
  rw [hsame.key]

/-- The reports of both programs agree. -/
structure Agree (go : Prometheus.Delta) (python : CounterDelta) : Prop where
  reset : python.reset = go.reset
  missing : python.missing = go.missing
  value : python.value = if go.reset ∨ go.missing then none else some go.value

theorem Mirrors.agree {before after : Prometheus.Snapshot Rat} {before' after' : SeriesValues}
    (hbefore : Mirrors before before') (hafter : Mirrors after after') (name : Text) :
    Agree (Prometheus.counterDelta before after name .empty) (counterDelta before' after' name) := by
  have hb := hbefore.matching name
  have ha := hafter.matching name
  let goBefore (k : Text) : Rat := ((Prometheus.matching before name .empty).get? k).getD 0
  let pyBefore (k' : Labels) : Rat := ((valuesOf before' name).get? k').getD 0
  have hprevious : ∀ k k', SameLabelKey k k' → goBefore k = pyBefore k' := by
    intro k k' hk
    show ((Prometheus.matching before name .empty).get? k).getD 0 = _
    rw [hb.get?_eq sameLabelKey_biUnique hk]
  have hreset : (Prometheus.matching after name .empty).entries.any
      (fun entry => decide (entry.2 < goBefore entry.1)) =
      (valuesOf after' name).entries.any fun entry => decide (entry.2 < pyBefore entry.1) := by
    apply ha.any
    intro e e' hkey hvalue
    rw [hprevious _ _ hkey, hvalue]
  have hmissing : (Prometheus.matching before name .empty).keys.any
      (fun k => ((Prometheus.matching after name .empty).get? k).isNone) =
      (valuesOf before' name).entries.any
        fun entry => ((valuesOf after' name).get? entry.1).isNone := by
    rw [Dict.keys, List.any_map]
    apply hb.any
    intro e e' hkey _
    show ((Prometheus.matching after name .empty).get? e.1).isNone = _
    rw [ha.get?_eq sameLabelKey_biUnique hkey]
  have hsum : ((Prometheus.matching after name .empty).entries.map
      fun entry => entry.2 - goBefore entry.1).sum =
      ((valuesOf after' name).entries.map fun entry => entry.2 - pyBefore entry.1).sum := by
    apply ha.sum
    intro e e' hkey hvalue
    rw [hprevious _ _ hkey, hvalue]
  by_cases hnil : (Prometheus.matching after name .empty).entries = []
  · have hgo : Prometheus.counterDelta before after name .empty = ⟨0, false, false, true⟩ := by
      rw [Prometheus.counterDelta, if_pos hnil]
    have hpy : counterDelta before' after' name = ⟨true, false, none⟩ := by
      rw [counterDelta, if_pos (ha.entries_eq_nil.mp hnil)]
    rw [hgo, hpy]
    exact ⟨rfl, rfl, rfl⟩
  · have hnil' : (valuesOf after' name).entries ≠ [] := fun h => hnil (ha.entries_eq_nil.mpr h)
    rw [Prometheus.counterDelta, if_neg hnil, counterDelta, if_neg hnil']
    refine ⟨hreset.symm, hmissing.symm, ?_⟩
    dsimp only
    rw [hreset, hmissing]
    split
    · rfl
    · next hneither =>
      -- no series decreased, so Go adds every difference
      have hkept := (not_or.mp hneither).1
      rw [← hreset, Bool.not_eq_true, List.any_eq_false] at hkept
      have hadded : (Prometheus.matching after name .empty).entries.map (fun entry =>
          if entry.2 < goBefore entry.1 then 0 else entry.2 - goBefore entry.1) =
          (Prometheus.matching after name .empty).entries.map fun entry =>
            entry.2 - goBefore entry.1 := by
        apply List.map_congr_left
        intro entry hentry
        have hnot := hkept entry hentry
        rw [decide_eq_true_eq] at hnot
        exact if_neg hnot
      rw [hadded, hsum]

/-- A value as an integer. -/
def renderInt (x : Rat) : Text := Json.encodeInt x.num

/-- A sample of `tokens` with one label, `model`. -/
def tokensOf (model : String) (value : Rat) : Series Rat :=
  ⟨"tokens".toList, Dict.empty.set "model".toList model.toList, value⟩

/-- A scrape, and a later one, where a second model has come up. -/
def firstScrape : List (ExpositionLine Rat) :=
  [.comment " TYPE tokens counter".toList, .sample (tokensOf "a" 5)]

def secondScrape : List (ExpositionLine Rat) :=
  [.sample (tokensOf "a" 7), .sample (tokensOf "\"b\"é" 2)]

/-- The characters of a text are readable. -/
def readableText (text : Text) : Bool :=
  text.all fun c => !Prometheus.isBlank c && c ≠ '|' && !Text.isLineEnd c

theorem readable_of_text {text : Text} (h : readableText text = true) : ∀ c ∈ text, Readable c := by
  intro c hc
  have hall := List.all_eq_true.mp h c hc
  simp only [Bool.and_eq_true, Bool.not_eq_true', decide_eq_true_eq] at hall
  exact ⟨hall.1.1, hall.1.2, fun _ => hall.2⟩

theorem scrape_of {lines : List (ExpositionLine Rat)} {samples : List (String × Rat)}
    (hcomments : ∀ text, .comment text ∈ lines → ∀ c ∈ text, Text.isLineEnd c = false)
    (hseries : seriesOf lines = samples.map fun sample => tokensOf sample.1 sample.2)
    (hreadable : ∀ sample ∈ samples, ∀ c ∈ sample.1.toList, Readable c)
    (hprints : ∀ sample ∈ samples, Prints (renderInt sample.2) sample.2) :
    Scrape renderInt lines := by
  have hsample : ∀ series ∈ seriesOf lines, ∃ sample ∈ samples, tokensOf sample.1 sample.2 = series := by
    intro series hmem
    rw [hseries] at hmem
    exact List.mem_map.mp hmem
  refine ⟨hcomments, ?_, ?_, ?_⟩
  · intro series hmem
    obtain ⟨sample, -, rfl⟩ := hsample series hmem
    refine ⟨Prometheus.metricName_tokens, ?_⟩
    intro label hlabel
    obtain rfl : label = "model".toList := List.mem_singleton.mp hlabel
    exact Prometheus.labelName_model
  · intro series hmem value hvalue
    obtain ⟨sample, hin, rfl⟩ := hsample series hmem
    obtain rfl : value = sample.1.toList := List.mem_singleton.mp hvalue
    exact hreadable sample hin
  · intro series hmem
    obtain ⟨sample, hin, rfl⟩ := hsample series hmem
    exact hprints sample hin

theorem prints_digit {n : Nat} (h : n < 10) : Prints (renderInt n) n := by
  have hall : ∀ m < 10, Numeral.scan (renderInt (m : Nat)) =
      some (⟨false, Nat.toDigits 10 m, [], 0⟩, []) ∧
      Double.round (⟨false, Nat.toDigits 10 m, [], 0⟩ : Numeral).value = some (m : Rat) := by
    decide +kernel
  exact ⟨_, hall n h⟩

theorem scrape_first : Scrape renderInt firstScrape := by
  apply @scrape_of firstScrape [("a", 5)]
  · intro text hmem
    obtain rfl : text = " TYPE tokens counter".toList := by simpa [firstScrape] using hmem
    have hreadable : (" TYPE tokens counter".toList.all (!Text.isLineEnd ·)) = true := by decide
    intro c hc
    simpa using List.all_eq_true.mp hreadable c hc
  · rfl
  · intro sample hmem
    obtain rfl := List.mem_singleton.mp hmem
    exact readable_of_text (by decide)
  · intro sample hmem
    obtain rfl := List.mem_singleton.mp hmem
    exact @prints_digit 5 (by decide)

theorem scrape_second : Scrape renderInt secondScrape := by
  apply @scrape_of secondScrape [("a", 7), ("\"b\"é", 2)]
  · intro text hmem
    simp [secondScrape] at hmem
  · rfl
  · intro sample hmem
    rcases List.mem_cons.mp hmem with rfl | hmem
    · exact readable_of_text (by decide)
    · obtain rfl := List.mem_singleton.mp hmem
      exact readable_of_text (by decide)
  · intro sample hmem
    rcases List.mem_cons.mp hmem with rfl | hmem
    · exact @prints_digit 7 (by decide)
    · obtain rfl := List.mem_singleton.mp hmem
      exact @prints_digit 2 (by decide)

end Summarize

end Gateway
