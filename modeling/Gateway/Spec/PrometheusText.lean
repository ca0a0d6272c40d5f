import Gateway.Model.Prometheus

/-!
# Samples in the Prometheus text format

The text of a sample and of an exposition, and what the parser of the harness makes of them.
The parser ends the metric part of a line at its first blank, so it reads a sample exactly
when no label value has one.

Key results:
- `scanValue_escape`: an escaped label value is scanned back
- `parseLabels_renderLabels`
- `parseSample_line`: a sample whose label values have no blank is read back
-/

namespace Gateway

namespace Prometheus

/-! ### The text format -/

/-- A character of a label value, escaped. -/
def escapeChar (c : Char) : Text :=
  if c = '\\' then ['\\', '\\'] else if c = '"' then ['\\', '"']
  else if c = '\n' then ['\\', 'n'] else [c]

/-- A label value, escaped. -/
def escape (value : Text) : Text := value.flatMap escapeChar

/-- One label. -/
def renderLabel (label : Text × Text) : Text := label.1 ++ '=' :: '"' :: escape label.2 ++ ['"']

/-- The labels between the braces. -/
def renderLabels (labels : List (Text × Text)) : Text := [','].intercalate (labels.map renderLabel)

/-- The part of a sample before its value. -/
def metricPart (name : Text) (labels : Dict Text Text) : Text :=
  if labels.entries = [] then name else name ++ '{' :: renderLabels labels.entries ++ ['}']

/-- `[a-zA-Z_]` -/
def isNameStart (c : Char) : Bool := Text.isLetter c || c = '_'

/-- `[a-zA-Z0-9_]` -/
def isNameChar (c : Char) : Bool := Text.isLetter c || Text.isDigit c || c = '_'

/-- A metric name: `[a-zA-Z_:][a-zA-Z0-9_:]*`. -/
def MetricName (name : Text) : Prop :=
  (∃ c rest, name = c :: rest ∧ (isNameStart c ∨ c = ':')) ∧ ∀ c ∈ name, isNameChar c ∨ c = ':'

/-- A label name: `[a-zA-Z_][a-zA-Z0-9_]*`. -/
def LabelName (name : Text) : Prop :=
  (∃ c rest, name = c :: rest ∧ isNameStart c) ∧ ∀ c ∈ name, isNameChar c

/-- A name of a metric and the names of its labels are valid. -/
structure ValidNames (name : Text) (labels : Dict Text Text) : Prop where
  metric : MetricName name
  labels : ∀ label ∈ labels.keys, LabelName label

/-! ### Escaping -/

theorem scanValue_cons {c : Char} (hquote : c ≠ '"') (hslash : c ≠ '\\') (value rest : Text) :
    scanValue value (c :: rest) = scanValue (value ++ [c]) rest := by
  rw [scanValue]
  · exact hquote
  · rintro rfl; exact absurd rfl hslash
  · rintro r rfl; exact absurd rfl hslash
  · rintro d r rfl; exact absurd rfl hslash

theorem scanValue_escape (value begun rest : Text) :
    scanValue begun (escape value ++ '"' :: rest) = .ok (begun ++ value, rest) := by
  induction value generalizing begun with
  | nil => simp [escape, scanValue]
  | cons c value ih =>
    have hcons : escape (c :: value) = escapeChar c ++ escape value := List.flatMap_cons
    rw [hcons, List.append_assoc]
    have hrest : begun ++ c :: value = begun ++ [c] ++ value := by simp
    rw [hrest, ← ih]
    unfold escapeChar
    split
    · next h =>
      subst h
      simp [scanValue]
    split
    · next h =>
      subst h
      simp [scanValue]
    split
    · next h =>
      subst h
      simp [scanValue]
    · next hslash hquote hline => exact scanValue_cons hquote hslash begun _

/-! ### Labels -/

theorem isNameChar_ne {c d : Char} (h : isNameChar c = true) (hd : isNameChar d = false) :
    c ≠ d := by
  rintro rfl
  rw [h] at hd
  cases hd

theorem parseLabelsFrom_nil (labels : Dict Text Text) : parseLabelsFrom labels [] = .ok labels := by
  rw [parseLabelsFrom]
  rfl

theorem parseLabelsFrom_comma (labels : Dict Text Text) (raw : Text) :
    parseLabelsFrom labels (',' :: raw) = parseLabelsFrom labels raw := by
  have hdrop : (',' :: raw).dropWhile (fun c => c = ' ' || c = ',') =
      raw.dropWhile fun c => c = ' ' || c = ',' := by
    rw [List.dropWhile_cons_of_pos (by rfl)]
  rw [parseLabelsFrom_eq, parseLabelsFrom_eq labels raw, hdrop]

theorem parseLabelsFrom_label {name : Text} (hname : LabelName name) (labels : Dict Text Text)
    (value raw : Text) :
    parseLabelsFrom labels (renderLabel (name, value) ++ raw) =
      parseLabelsFrom (labels.set name value) raw := by
  obtain ⟨⟨c, rest, rfl, hstart⟩, hchars⟩ := hname
  have hc : isNameChar c = true := hchars c (List.mem_cons_self ..)
  have hraw : renderLabel (c :: rest, value) ++ raw =
      c :: (rest ++ '=' :: '"' :: (escape value ++ '"' :: raw)) := by simp [renderLabel]
  have hnames : ∀ d ∈ c :: rest, (decide (d ≠ '=')) = true := by
    intro d hd
    exact decide_eq_true (isNameChar_ne (hchars d hd) (by decide))
  have hdrop : (c :: (rest ++ '=' :: '"' :: (escape value ++ '"' :: raw))).dropWhile
      (fun c => c = ' ' || c = ',') = c :: (rest ++ '=' :: '"' :: (escape value ++ '"' :: raw)) := by
    apply List.dropWhile_cons_of_neg
    have hspace : c ≠ ' ' := isNameChar_ne hc (by decide)
    have hcomma : c ≠ ',' := isNameChar_ne hc (by decide)
    simp [hspace, hcomma]
  have htake : (c :: (rest ++ '=' :: '"' :: (escape value ++ '"' :: raw))).takeWhile (· ≠ '=') =
      c :: rest := Text.takeWhile_append_stop hnames (by rfl) _
  have hafter : (c :: (rest ++ '=' :: '"' :: (escape value ++ '"' :: raw))).dropWhile (· ≠ '=') =
      '=' :: '"' :: (escape value ++ '"' :: raw) := Text.dropWhile_append_stop hnames (by rfl) _
  have hscan : scanValue [] (escape value ++ '"' :: raw) = .ok (value, raw) :=
    scanValue_escape value [] raw
  rw [hraw, parseLabelsFrom_eq, hdrop]
  simp only [hafter, htake, hscan]

theorem renderLabels_cons_cons (label label' : Text × Text) (labels : List (Text × Text)) :
    renderLabels (label :: label' :: labels) =
      renderLabel label ++ ',' :: renderLabels (label' :: labels) := by
  simp [renderLabels, List.intercalate]

theorem parseLabelsFrom_renderLabels {labels : List (Text × Text)} (read : Dict Text Text)
    (h : ∀ label ∈ labels, LabelName label.1) :
    parseLabelsFrom read (renderLabels labels) =
      .ok (labels.foldl (fun d label => d.set label.1 label.2) read) := by
  induction labels generalizing read with
  | nil => exact parseLabelsFrom_nil read
  | cons label labels ih =>
    have hlabel : LabelName label.1 := h label (List.mem_cons_self ..)
    have hlabels : ∀ l ∈ labels, LabelName l.1 := fun l hl => h l (List.mem_cons_of_mem _ hl)
    cases labels with
    | nil =>
      have hone : renderLabels [label] = renderLabel label ++ [] := by simp [renderLabels]
      rw [hone, parseLabelsFrom_label hlabel, parseLabelsFrom_nil]
      rfl
    | cons label' labels =>
      rw [renderLabels_cons_cons, parseLabelsFrom_label hlabel, parseLabelsFrom_comma]
      exact ih _ hlabels

theorem parseLabels_renderLabels {labels : Dict Text Text}
    (h : ∀ label ∈ labels.keys, LabelName label) :
    parseLabels (renderLabels labels.entries) = .ok labels := by
  have hfold : labels.entries.foldl (fun d label => d.set label.1 label.2) .empty = labels := by
    apply Dict.ext_entries
    rw [Dict.entries_foldl_set_new (by simpa [Dict.keys, Dict.empty] using labels.nodup)]
    rfl
  rw [parseLabels, parseLabelsFrom_renderLabels _ fun label hl => h _ (List.mem_map_of_mem hl),
    hfold]

/-! ### Samples -/

/-- No label value has a blank. -/
def BlankFree (labels : Dict Text Text) : Prop := ∀ value ∈ labels.values, ∀ c ∈ value, isBlank c = false

theorem isBlank_isSpace {c : Char} (h : isBlank c = true) : isSpace c = true := by
  have hc : c = ' ' ∨ c = '\t' := by simpa [isBlank] using h
  rcases hc with rfl | rfl <;> rfl

theorem mem_escape {c : Char} {value : Text} (h : c ∈ escape value) :
    c ∈ value ∨ c = '\\' ∨ c = '"' ∨ c = 'n' := by
  obtain ⟨d, hd, hc⟩ := List.mem_flatMap.mp h
  unfold escapeChar at hc
  split at hc
  · simp at hc; exact Or.inr (Or.inl hc)
  split at hc
  · simp at hc; tauto
  split at hc
  · simp at hc; tauto
  · rw [List.mem_singleton.mp hc]
    exact Or.inl hd

theorem isBlank_of_isNameChar {c : Char} (h : isNameChar c = true) : isBlank c = false := by
  have hspace : c ≠ ' ' := isNameChar_ne h (by decide)
  have htab : c ≠ '\t' := isNameChar_ne h (by decide)
  simp [isBlank, hspace, htab]

theorem MetricName.isBlank {name : Text} (h : MetricName name) :
    ∀ c ∈ name, isBlank c = false := by
  intro c hc
  rcases h.2 c hc with hchar | rfl
  · exact isBlank_of_isNameChar hchar
  · rfl

theorem MetricName.ne_nil {name : Text} (h : MetricName name) : name ≠ [] := by
  obtain ⟨⟨c, rest, rfl, _⟩, _⟩ := h
  exact List.cons_ne_nil c rest

theorem MetricName.ne_brace {name : Text} (h : MetricName name) : ∀ c ∈ name, c ≠ '{' := by
  intro c hc
  rcases h.2 c hc with hchar | rfl
  · exact isNameChar_ne hchar (by decide)
  · decide

theorem isBlank_renderLabels {labels : List (Text × Text)}
    (hnames : ∀ label ∈ labels, LabelName label.1)
    (hvalues : ∀ label ∈ labels, ∀ c ∈ label.2, isBlank c = false) :
    ∀ c ∈ renderLabels labels, isBlank c = false := by
  have hlabel : ∀ label ∈ labels, ∀ c ∈ renderLabel label, isBlank c = false := by
    intro label hmem c hc
    simp only [renderLabel, List.mem_append, List.mem_cons, List.not_mem_nil, or_false] at hc
    rcases hc with (hc | rfl | rfl | hc) | rfl
    · exact isBlank_of_isNameChar ((hnames label hmem).2 c hc)
    · rfl
    · rfl
    · rcases mem_escape hc with hc | rfl | rfl | rfl
      · exact hvalues label hmem c hc
      · rfl
      · rfl
      · rfl
    · rfl
  induction labels with
  | nil => simp [renderLabels]
  | cons label labels ih =>
    have hfirst := hlabel label (List.mem_cons_self ..)
    cases labels with
    | nil => simpa [renderLabels] using hfirst
    | cons label' labels =>
      intro c hc
      rw [renderLabels_cons_cons] at hc
      rcases List.mem_append.mp hc with hc | hc
      · exact hfirst c hc
      rcases List.mem_cons.mp hc with rfl | hc
      · rfl
      · exact ih (fun l hl => hnames l (List.mem_cons_of_mem _ hl))
          (fun l hl => hvalues l (List.mem_cons_of_mem _ hl))
          (fun l hl => hlabel l (List.mem_cons_of_mem _ hl)) c hc

theorem isBlank_metricPart {name : Text} {labels : Dict Text Text} (hnames : ValidNames name labels)
    (hvalues : BlankFree labels) : ∀ c ∈ metricPart name labels, isBlank c = false := by
  unfold metricPart
  split
  · exact hnames.metric.isBlank
  · intro c hc
    simp only [List.mem_append, List.mem_cons, List.not_mem_nil, or_false] at hc
    rcases hc with (hc | rfl | hc) | rfl
    · exact hnames.metric.isBlank c hc
    · rfl
    · refine isBlank_renderLabels (fun label hl => hnames.labels _ (List.mem_map_of_mem hl)) ?_ c hc
      exact fun label hl => hvalues _ (List.mem_map_of_mem hl)
    · rfl

/-- A sample whose label values have no blank is read back, whatever follows its value. -/
theorem parseSample_line {ν : Type} {parseFloat : Text → Option ν} {name : Text}
    {labels : Dict Text Text} (hnames : ValidNames name labels) (hvalues : BlankFree labels)
    {gap number rest : Text} {value : ν} (hgap : gap ≠ [] ∧ ∀ c ∈ gap, isBlank c = true)
    (hnumber : number ≠ [] ∧ ∀ c ∈ number, isSpace c = false)
    (hrest : ∀ c, rest.head? = some c → isSpace c = true) (hfloat : parseFloat number = some value) :
    parseSample parseFloat (metricPart name labels ++ (gap ++ (number ++ rest))) =
      .ok ⟨name, labels, value⟩ := by
  obtain ⟨g, gap', hcons⟩ := List.exists_cons_of_ne_nil hgap.1
  have hg : isBlank g = true := hgap.2 g (by rw [hcons]; simp)
  have hpart : ∀ c ∈ metricPart name labels, (!isBlank c) = true := by
    intro c hc
    rw [isBlank_metricPart hnames hvalues c hc]
    rfl
  have htake : (metricPart name labels ++ (gap ++ (number ++ rest))).takeWhile (!isBlank ·) =
      metricPart name labels := by
    rw [hcons]
    exact Text.takeWhile_append_stop hpart (by simp [hg]) _
  have hdrop : (metricPart name labels ++ (gap ++ (number ++ rest))).dropWhile (!isBlank ·) =
      gap ++ (number ++ rest) := by
    rw [hcons]
    exact Text.dropWhile_append_stop hpart (by simp [hg]) _
  have hne : metricPart name labels ≠ [] := by
    unfold metricPart
    split
    · exact hnames.metric.ne_nil
    · simp
  obtain ⟨words, hwords⟩ : ∃ words, Text.words isSpace (gap ++ (number ++ rest)) = number :: words := by
    rw [Text.words_skip fun c hc => isBlank_isSpace (hgap.2 c hc)]
    exact Text.words_append hnumber.1 hnumber.2 hrest
  unfold parseSample
  dsimp only
  rw [htake, hdrop, if_neg (by simp [hne, hgap.1]), hwords]
  dsimp only
  rw [hfloat]
  dsimp only
  have hbrace : ∀ c ∈ name, (decide (c ≠ '{')) = true := fun c hc =>
    decide_eq_true (hnames.metric.ne_brace c hc)
  by_cases hempty : labels.entries = []
  · have hlabels : labels = .empty := Dict.ext_entries hempty
    have hmetric : metricPart name labels = name := by rw [metricPart, if_pos hempty]
    rw [hmetric, if_pos fun hmem => hnames.metric.ne_brace _ hmem rfl, hlabels]
  · have hmetric : metricPart name labels = name ++ '{' :: (renderLabels labels.entries ++ ['}']) := by
      rw [metricPart, if_neg hempty]
      simp
    have hlast : (metricPart name labels).getLast? = some '}' := by
      have hconcat : metricPart name labels = (name ++ '{' :: renderLabels labels.entries) ++ ['}'] := by
        rw [metricPart, if_neg hempty]
      rw [hconcat, List.getLast?_concat]
    have hinner : ((metricPart name labels).dropWhile (· ≠ '{')).drop 1 =
        renderLabels labels.entries ++ ['}'] := by
      rw [hmetric, Text.dropWhile_append_stop hbrace (by rfl)]
      rfl
    have hname : (metricPart name labels).takeWhile (· ≠ '{') = name := by
      rw [hmetric]
      exact Text.takeWhile_append_stop hbrace (by rfl) _
    rw [if_neg (by rw [hmetric]; simp), if_neg (by rw [hlast]; simp), hinner, List.dropLast_concat,
      parseLabels_renderLabels hnames.labels, hname]
    rfl

theorem isSpace_of_isNameStart {c : Char} (h : isNameStart c = true) : isSpace c = false := by
  have hcode : (65 ≤ c.toNat ∧ c.toNat ≤ 90) ∨ (97 ≤ c.toNat ∧ c.toNat ≤ 122) ∨ c = '_' := by
    simpa [isNameStart, Text.isLetter, or_assoc] using h
  rcases hcode with hcode | hcode | rfl
  · simp [isSpace]
    omega
  · simp [isSpace]
    omega
  · rfl

/-- A sample begins with a character that is no white space and no `#`. -/
theorem metricPart_head {name : Text} {labels : Dict Text Text} (h : MetricName name) :
    ∃ c rest, metricPart name labels = c :: rest ∧ isSpace c = false ∧ c ≠ '#' := by
  obtain ⟨⟨c, rest, hname, hstart⟩, -⟩ := h
  have hhead : ∃ rest', metricPart name labels = c :: rest' := by
    unfold metricPart
    split
    · exact ⟨rest, hname⟩
    · exact ⟨rest ++ '{' :: (renderLabels labels.entries ++ ['}']), by simp [hname]⟩
  obtain ⟨rest', hrest'⟩ := hhead
  refine ⟨c, rest', hrest', ?_⟩
  rcases hstart with hstart | rfl
  · refine ⟨isSpace_of_isNameStart hstart, ?_⟩
    rintro rfl
    revert hstart
    decide
  · decide

/-- What a line of a sample is: white space, the sample, a gap, the text of the value, and
what follows it. -/
structure SampleText {ν : Type} (parseFloat : Text → Option ν) (value : ν)
    (lead gap number trail : Text) : Prop where
  leads : ∀ c ∈ lead, isSpace c = true
  separates : gap ≠ [] ∧ ∀ c ∈ gap, isBlank c = true
  plain : number ≠ [] ∧ ∀ c ∈ number, isSpace c = false
  ends : ∀ c, trail.head? = some c → isSpace c = true
  float : parseFloat number = some value

/-- A line with a sample whose label values have no blank. -/
theorem parseLine_sample {ν : Type} {parseFloat : Text → Option ν} {name : Text}
    {labels : Dict Text Text} (hnames : ValidNames name labels) (hvalues : BlankFree labels)
    {value : ν} {lead gap number trail : Text} (h : SampleText parseFloat value lead gap number trail)
    (snapshot : Snapshot ν) :
    parseLine parseFloat snapshot
        (lead ++ (metricPart name labels ++ (gap ++ (number ++ trail)))) =
      .ok (snapshot.set (key name labels) ⟨name, labels, value⟩) := by
  obtain ⟨c, rest, hpart, hc, hsharp⟩ :
      ∃ c rest, metricPart name labels = c :: rest ∧ isSpace c = false ∧ c ≠ '#' :=
    metricPart_head hnames.metric
  have hcore : metricPart name labels ++ (gap ++ number) ≠ [] := by simp [hpart]
  have hfirst : ∀ d, (metricPart name labels ++ (gap ++ number)).head? = some d →
      isSpace d = false := by
    intro d hd
    rw [hpart] at hd
    cases hd
    exact hc
  have hlast : ∀ d, (metricPart name labels ++ (gap ++ number)).getLast? = some d →
      isSpace d = false := by
    intro d hd
    rw [← List.append_assoc, List.getLast?_append_of_ne_nil _ h.plain.1] at hd
    exact h.plain.2 d (List.mem_of_getLast? hd)
  obtain ⟨kept, hkept, htrim⟩ := Text.trim_append h.leads hcore hfirst hlast trail
  have hline : lead ++ (metricPart name labels ++ (gap ++ (number ++ trail))) =
      lead ++ (metricPart name labels ++ (gap ++ number) ++ trail) := by simp
  have htrimmed : metricPart name labels ++ (gap ++ number) ++ kept =
      metricPart name labels ++ (gap ++ (number ++ kept)) := by simp
  have hhead : ∀ d, kept.head? = some d → isSpace d = true := by
    intro d hd
    obtain ⟨more, rfl⟩ := hkept
    cases kept with
    | nil => cases hd
    | cons e kept => exact h.ends d hd
  have hsample := parseSample_line hnames hvalues h.separates h.plain hhead h.float
  unfold parseLine
  dsimp only
  rw [hline, htrim, htrimmed, if_neg (by simp [hpart, hsharp]), hsample]
  rfl

/-- A comment or an empty line. -/
theorem parseLine_comment {ν : Type} (parseFloat : Text → Option ν) (snapshot : Snapshot ν)
    (text : Text) : parseLine parseFloat snapshot ('#' :: text) = .ok snapshot := by
  have hsharp : isSpace '#' = false := rfl
  obtain ⟨kept, htrim⟩ := Text.trim_cons hsharp text
  unfold parseLine
  dsimp only
  have hhead : ('#' :: kept).head? = some '#' := rfl
  rw [htrim, if_pos (Or.inr hhead)]

theorem parseLine_nil {ν : Type} (parseFloat : Text → Option ν) (snapshot : Snapshot ν) :
    parseLine parseFloat snapshot [] = .ok snapshot := rfl

end Prometheus

end Gateway
