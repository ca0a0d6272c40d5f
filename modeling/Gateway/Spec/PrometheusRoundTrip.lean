import Gateway.Spec.PrometheusText

/-!
# Snapshots of a rendered exposition

An exposition of samples and comments, one on each line, and the snapshot that `Parse` makes
of it. A snapshot is indexed by a text that joins the name and the labels with `|` and `=`,
which label values may have as well, and no label value of a snapshot has a blank. So exactly
the expositions without blanks in label values and with a key of its own for each series are
read back.

Key results:
- `parse_exposition`: what `Parse` makes of an exposition without blanks in label values
- `blankFree_of_parse`, `key_of_parse`: what holds of every snapshot
- `roundTrip_iff`
-/

namespace Gateway

namespace Prometheus

variable {ν : Type}

/-! ### Expositions -/

/-- A line of an exposition. -/
inductive ExpositionLine (ν : Type)
  | comment (text : Text)
  | sample (series : Series ν)

namespace ExpositionLine

/-- The text of a line, with `render` for values. -/
def render (renderValue : ν → Text) : ExpositionLine ν → Text
  | .comment text => '#' :: text
  | .sample series => metricPart series.name series.labels ++ ' ' :: renderValue series.value

/-- The series of a line. -/
def series? : ExpositionLine ν → Option (Series ν)
  | .comment _ => none
  | .sample series => some series

end ExpositionLine

/-- The text of an exposition. -/
def exposition (renderValue : ν → Text) (lines : List (ExpositionLine ν)) : Text :=
  Text.unlines (lines.map (ExpositionLine.render renderValue))

/-- The series of an exposition. -/
def seriesOf (lines : List (ExpositionLine ν)) : List (Series ν) :=
  lines.filterMap ExpositionLine.series?

/-- The text of a value is a word, and `strconv.ParseFloat` inverts it. -/
structure Inverts (parseFloat : Text → Option ν) (renderValue : ν → Text) (value : ν) : Prop where
  word : renderValue value ≠ [] ∧ ∀ c ∈ renderValue value, isSpace c = false
  inverse : parseFloat (renderValue value) = some value

/-- The exposition is well formed: a comment stays on its line, the names are valid, and the
values are read back. -/
structure WellFormed (parseFloat : Text → Option ν) (renderValue : ν → Text)
    (lines : List (ExpositionLine ν)) : Prop where
  comments : ∀ text, .comment text ∈ lines → '\n' ∉ text
  names : ∀ series ∈ seriesOf lines, ValidNames series.name series.labels
  values : ∀ series ∈ seriesOf lines, Inverts parseFloat renderValue series.value

/-! ### The lines of an exposition -/

theorem newline_not_mem_of_isNameChar {name : Text} (h : ∀ c ∈ name, isNameChar c = true) :
    '\n' ∉ name := fun hmem => absurd (h _ hmem) (by decide)

theorem newline_not_mem_escape (value : Text) : '\n' ∉ escape value := by
  intro hmem
  obtain ⟨c, -, hc⟩ := List.mem_flatMap.mp hmem
  unfold escapeChar at hc
  split at hc
  · simp at hc
  split at hc
  · simp at hc
  split at hc
  · simp at hc
  · next hline => exact hline (List.mem_singleton.mp hc).symm

theorem newline_not_mem_renderLabels {labels : List (Text × Text)}
    (h : ∀ label ∈ labels, LabelName label.1) : '\n' ∉ renderLabels labels := by
  have hlabel : ∀ label ∈ labels, '\n' ∉ renderLabel label := by
    intro label hmem
    have hname := newline_not_mem_of_isNameChar (h label hmem).2
    have hvalue := newline_not_mem_escape label.2
    simp [renderLabel, hname, hvalue]
  clear h
  induction labels with
  | nil => simp [renderLabels]
  | cons label labels ih =>
    cases labels with
    | nil => simpa [renderLabels] using hlabel label (List.mem_cons_self ..)
    | cons label' labels =>
      have hfirst := hlabel label (List.mem_cons_self ..)
      have hrest := ih fun l hl => hlabel l (List.mem_cons_of_mem _ hl)
      rw [renderLabels_cons_cons]
      simp [hfirst, hrest]

theorem newline_not_mem_metricPart {name : Text} {labels : Dict Text Text}
    (h : ValidNames name labels) : '\n' ∉ metricPart name labels := by
  have hname : '\n' ∉ name := by
    intro hmem
    rcases h.metric.2 _ hmem with hchar | heq
    · revert hchar
      decide
    · revert heq
      decide
  have hlabels : '\n' ∉ renderLabels labels.entries :=
    newline_not_mem_renderLabels fun label hl => h.labels _ (List.mem_map_of_mem hl)
  unfold metricPart
  split
  · exact hname
  · simp [hname, hlabels]

theorem newline_not_mem_render {parseFloat : Text → Option ν} {renderValue : ν → Text}
    {lines : List (ExpositionLine ν)} (h : WellFormed parseFloat renderValue lines) :
    ∀ l ∈ lines.map (ExpositionLine.render renderValue), '\n' ∉ l := by
  intro l hl
  obtain ⟨line, hmem, rfl⟩ := List.mem_map.mp hl
  cases line with
  | comment text =>
    have htext := h.comments text hmem
    simp [ExpositionLine.render, htext]
  | sample series =>
    have hseries : series ∈ seriesOf lines := List.mem_filterMap.mpr ⟨_, hmem, rfl⟩
    have hpart := newline_not_mem_metricPart (h.names series hseries)
    have hvalue : '\n' ∉ renderValue series.value := by
      intro hline
      have hspace := (h.values series hseries).word.2 _ hline
      revert hspace
      decide
    simp [ExpositionLine.render, hpart, hvalue]

/-- The snapshot of an exposition without blanks in label values: the last series of a key. -/
theorem parse_exposition {parseFloat : Text → Option ν} {renderValue : ν → Text}
    {lines : List (ExpositionLine ν)} (h : WellFormed parseFloat renderValue lines)
    (hvalues : ∀ series ∈ seriesOf lines, BlankFree series.labels) :
    parse parseFloat (exposition renderValue lines) =
      .ok ((seriesOf lines).foldl (fun snapshot series =>
        snapshot.set (key series.name series.labels) series) .empty) := by
  have hfold : ∀ (ls : List (ExpositionLine ν)) (snapshot : Snapshot ν),
      (∀ series ∈ seriesOf ls, ValidNames series.name series.labels) →
      (∀ series ∈ seriesOf ls, Inverts parseFloat renderValue series.value) →
      (∀ series ∈ seriesOf ls, BlankFree series.labels) →
      (ls.map (ExpositionLine.render renderValue) ++ [[]]).foldlM (parseLine parseFloat) snapshot =
        .ok ((seriesOf ls).foldl (fun snapshot series =>
          snapshot.set (key series.name series.labels) series) snapshot) := by
    intro ls
    induction ls with
    | nil => exact fun _ _ _ _ => rfl
    | cons line ls ih =>
      intro snapshot hnames hinverts hblank
      cases line with
      | comment text =>
        rw [List.map_cons, List.cons_append, List.foldlM_cons, ExpositionLine.render,
          parseLine_comment]
        exact ih snapshot hnames hinverts hblank
      | sample series =>
        have hseries : series ∈ seriesOf (.sample series :: ls) := List.mem_cons_self ..
        have htext : SampleText parseFloat series.value [] [' '] (renderValue series.value) [] :=
          ⟨by simp, ⟨by simp, by simp [isBlank]⟩, (hinverts series hseries).word, by simp,
            (hinverts series hseries).inverse⟩
        have hline := parseLine_sample (hnames series hseries) (hblank series hseries) htext snapshot
        simp only [List.nil_append, List.singleton_append, List.append_nil] at hline
        rw [List.map_cons, List.cons_append, List.foldlM_cons, ExpositionLine.render, hline]
        exact ih _ (fun s hs => hnames s (List.mem_cons_of_mem _ hs))
          (fun s hs => hinverts s (List.mem_cons_of_mem _ hs))
          fun s hs => hblank s (List.mem_cons_of_mem _ hs)
  rw [parse, exposition, Text.lines_unlines (newline_not_mem_render h)]
  exact hfold lines .empty h.names h.values hvalues

/-! ### What every snapshot has -/

theorem isBlank_scanValue {value t : Text} {found : Text × Text}
    (hvalue : ∀ c ∈ value, isBlank c = false) (ht : ∀ c ∈ t, isBlank c = false)
    (h : scanValue value t = .ok found) :
    (∀ c ∈ found.1, isBlank c = false) ∧ ∀ c ∈ found.2, isBlank c = false := by
  fun_induction scanValue value t with
  | case1 value =>
    cases h
    exact ⟨hvalue, by simp⟩
  | case2 value rest =>
    cases h
    exact ⟨hvalue, fun c hc => ht c (List.mem_cons_of_mem _ hc)⟩
  | case3 => cases h
  | case4 value rest ih =>
    apply ih _ _ h
    · intro c hc
      rcases List.mem_append.mp hc with hc | hc
      · exact hvalue c hc
      · rw [List.mem_singleton.mp hc]
        rfl
    · exact fun c hc => ht c (List.mem_cons_of_mem _ (List.mem_cons_of_mem _ hc))
  | case5 value c rest hn hc ih =>
    apply ih _ _ h
    · intro d hd
      rcases List.mem_append.mp hd with hd | hd
      · exact hvalue d hd
      · rw [List.mem_singleton.mp hd]
        exact ht c (List.mem_cons_of_mem _ (List.mem_cons_self ..))
    · exact fun d hd => ht d (List.mem_cons_of_mem _ (List.mem_cons_of_mem _ hd))
  | case6 => cases h
  | case7 value c rest h1 h2 h3 h4 ih =>
    apply ih _ _ h
    · intro d hd
      rcases List.mem_append.mp hd with hd | hd
      · exact hvalue d hd
      · rw [List.mem_singleton.mp hd]
        exact ht c (List.mem_cons_self ..)
    · exact fun d hd => ht d (List.mem_cons_of_mem _ hd)

theorem BlankFree.set {labels : Dict Text Text} (h : BlankFree labels) {name value : Text}
    (hvalue : ∀ c ∈ value, isBlank c = false) : BlankFree (labels.set name value) := by
  intro v hv
  obtain ⟨k, hk⟩ := Dict.mem_values.mp hv
  rw [Dict.get?_set] at hk
  split at hk
  · cases hk
    exact hvalue
  · exact h v (Dict.mem_values.mpr ⟨k, hk⟩)

/-- Labels that are read from a text without blanks have none in their values. -/
theorem blankFree_parseLabelsFrom {labels read : Dict Text Text} {raw : Text}
    (hlabels : BlankFree labels) (hraw : ∀ c ∈ raw, isBlank c = false)
    (h : parseLabelsFrom labels raw = .ok read) : BlankFree read := by
  rw [parseLabelsFrom_eq] at h
  split at h
  · cases h
    exact hlabels
  next c rest hdrop =>
  split at h
  · next body hbody =>
    have hsuffix : c :: rest <:+ raw := hdrop ▸ List.dropWhile_suffix _
    have hsuffix' : '=' :: '"' :: body <:+ c :: rest := hbody ▸ List.dropWhile_suffix _
    have hbodyRaw : ∀ d ∈ body, isBlank d = false := by
      intro d hd
      apply hraw d
      exact hsuffix.subset (hsuffix'.subset (List.mem_cons_of_mem _ (List.mem_cons_of_mem _ hd)))
    split at h
    · next value rest' hscan =>
      obtain ⟨hvalue, hrest⟩ := isBlank_scanValue (by simp) hbodyRaw hscan
      have hlt : rest'.length < raw.length := by
        have h₁ := scanValue_length hscan
        have h₂ := hsuffix.length_le
        have h₃ := hsuffix'.length_le
        simp only [List.length_cons] at h₁ h₂ h₃
        omega
      exact blankFree_parseLabelsFrom (hlabels.set hvalue) hrest h
    · cases h
  · cases h
termination_by raw.length

theorem blankFree_empty : BlankFree .empty := by
  intro value hvalue
  cases hvalue

theorem blankFree_parseSample {parseFloat : Text → Option ν} {line : Text} {series : Series ν}
    (h : parseSample parseFloat line = .ok series) : BlankFree series.labels := by
  unfold parseSample at h
  dsimp only at h
  split at h
  · cases h
  split at h
  · cases h
  split at h
  · cases h
  split at h
  · cases h
    exact blankFree_empty
  split at h
  · cases h
  -- the labels are cut out of the text before the first blank
  have hpart : ∀ c ∈ line.takeWhile (!isBlank ·), isBlank c = false := by
    intro c hc
    simpa using List.all_eq_true.mp List.all_takeWhile c hc
  cases hlabels : parseLabels
      (((line.takeWhile (!isBlank ·)).dropWhile (· ≠ '{')).drop 1).dropLast with
  | error e =>
    rw [hlabels] at h
    cases h
  | ok labels =>
    rw [hlabels] at h
    cases h
    apply blankFree_parseLabelsFrom blankFree_empty _ hlabels
    intro c hc
    apply hpart c
    exact (List.dropWhile_suffix _).subset (List.mem_of_mem_drop (List.mem_of_mem_dropLast hc))

/-- What holds of a snapshot that `Parse` is making. -/
structure Indexed (snapshot : Snapshot ν) : Prop where
  keyed : ∀ k series, snapshot.get? k = some series → k = key series.name series.labels
  blankFree : ∀ k series, snapshot.get? k = some series → BlankFree series.labels

theorem Indexed.parseLine {parseFloat : Text → Option ν} {snapshot snapshot' : Snapshot ν}
    {line : Text} (hindexed : Indexed snapshot)
    (h : parseLine parseFloat snapshot line = .ok snapshot') : Indexed snapshot' := by
  unfold Prometheus.parseLine at h
  dsimp only at h
  split at h
  · cases h
    exact hindexed
  cases hsample : parseSample parseFloat (Text.trim isSpace line) with
  | error e =>
    rw [hsample] at h
    cases h
  | ok series =>
    rw [hsample] at h
    cases h
    constructor
    · intro k series' hget
      rw [Dict.get?_set] at hget
      split at hget
      · next heq =>
        cases hget
        exact heq.symm
      · exact hindexed.keyed k series' hget
    · intro k series' hget
      rw [Dict.get?_set] at hget
      split at hget
      · cases hget
        exact blankFree_parseSample hsample
      · exact hindexed.blankFree k series' hget

theorem Indexed.parse {parseFloat : Text → Option ν} {raw : Text} {snapshot : Snapshot ν}
    (h : parse parseFloat raw = .ok snapshot) : Indexed snapshot := by
  have hfold : ∀ (ls : List Text) (snapshot₀ : Snapshot ν), Indexed snapshot₀ →
      ls.foldlM (Prometheus.parseLine parseFloat) snapshot₀ = .ok snapshot → Indexed snapshot := by
    intro ls
    induction ls with
    | nil =>
      intro snapshot₀ hindexed h
      cases h
      exact hindexed
    | cons l ls ih =>
      intro snapshot₀ hindexed h
      rw [List.foldlM_cons] at h
      cases hline : Prometheus.parseLine parseFloat snapshot₀ l with
      | error e =>
        rw [hline] at h
        cases h
      | ok snapshot₁ =>
        rw [hline] at h
        exact ih snapshot₁ (hindexed.parseLine hline) h
  refine hfold _ .empty ⟨?_, ?_⟩ h
  · intro k series hget
    cases hget
  · intro k series hget
    cases hget

/-! ### The round trip -/

/-- One series, whatever the order of its labels. -/
structure SameSeries (series series' : Series ν) : Prop where
  name : series.name = series'.name
  labels : ∀ label, series.labels.get? label = series'.labels.get? label
  value : series.value = series'.value

/-- The series of a snapshot are exactly the given ones. -/
def Exactly (snapshot : Snapshot ν) (series : List (Series ν)) : Prop :=
  ∃ listed, listed.Perm series ∧ List.Forall₂ SameSeries snapshot.values listed

/-- No two of the series have one name and one label set. -/
def DistinctSeries (series : List (Series ν)) : Prop :=
  series.Pairwise fun s s' =>
    ¬(s.name = s'.name ∧ ∀ label, s.labels.get? label = s'.labels.get? label)

/-- The key does not depend on the order of the labels. -/
theorem key_congr {name : Text} {labels labels' : Dict Text Text}
    (h : ∀ label, labels.get? label = labels'.get? label) : key name labels = key name labels' := by
  have hperm : labels.keys.Perm labels'.keys := (Dict.entries_perm h).map Prod.fst
  have hsorted : labels.keys.insertionSort (· ≤ ·) = labels'.keys.insertionSort (· ≤ ·) := by
    apply List.Perm.eq_of_pairwise' (List.pairwise_insertionSort _ _)
      (List.pairwise_insertionSort _ _)
    exact ((List.perm_insertionSort _ _).trans hperm).trans (List.perm_insertionSort _ _).symm
  have hlabel : ∀ label, (labels.get? label).getD [] = (labels'.get? label).getD [] := fun label => by
    rw [h]
  unfold key
  simp only [hsorted, hlabel]

theorem Indexed.values_key {snapshot : Snapshot ν} (h : Indexed snapshot) :
    snapshot.values.map (fun series => key series.name series.labels) = snapshot.keys := by
  rw [Dict.values, Dict.keys, List.map_map]
  apply List.map_congr_left
  intro entry hentry
  exact (h.keyed entry.1 entry.2 (Dict.get?_eq_some.mpr hentry)).symm

theorem forall₂_key {snapshot listed : List (Series ν)} (h : List.Forall₂ SameSeries snapshot listed) :
    snapshot.map (fun series => key series.name series.labels) =
      listed.map fun series => key series.name series.labels := by
  induction h with
  | nil => rfl
  | cons hsame _ ih =>
    rw [List.map_cons, List.map_cons, ih, hsame.name, key_congr hsame.labels]

theorem exists_of_forall₂ {read listed : List (Series ν)} (h : List.Forall₂ SameSeries read listed)
    {series : Series ν} (hseries : series ∈ listed) : ∃ r ∈ read, SameSeries r series := by
  induction h with
  | nil => cases hseries
  | cons hsame _ ih =>
    rcases List.mem_cons.mp hseries with rfl | hmem
    · exact ⟨_, List.mem_cons_self .., hsame⟩
    · obtain ⟨r, hr, hrsame⟩ := ih hmem
      exact ⟨r, List.mem_cons_of_mem _ hr, hrsame⟩

/-- Series with different keys are all kept. -/
theorem values_foldl_set {series : List (Series ν)}
    (h : (series.map fun s => key s.name s.labels).Nodup) :
    (series.foldl (fun snapshot s => snapshot.set (key s.name s.labels) s)
      (.empty : Snapshot ν)).values = series := by
  let keyed := series.map fun s => (key s.name s.labels, s)
  have hkeys : ((Dict.empty : Snapshot ν).keys ++ keyed.map Prod.fst).Nodup := by
    show (keyed.map Prod.fst).Nodup
    rw [List.map_map]
    exact h
  have hentries := Dict.entries_foldl_set_new hkeys
  rw [List.foldl_map] at hentries
  rw [Dict.values, hentries]
  show keyed.map Prod.snd = series
  rw [List.map_map]
  exact List.map_id' series

/-- What is read back exactly has no blank in a label value. -/
theorem blankFree_of_parse {parseFloat : Text → Option ν} {raw : Text} {snapshot : Snapshot ν}
    {series : List (Series ν)} (h : parse parseFloat raw = .ok snapshot)
    (hexactly : Exactly snapshot series) : ∀ s ∈ series, BlankFree s.labels := by
  obtain ⟨listed, hperm, hsame⟩ := hexactly
  intro s hs value hvalue
  obtain ⟨read, hread, hsameRead⟩ := exists_of_forall₂ hsame (hperm.mem_iff.mpr hs)
  obtain ⟨k, hk⟩ := Dict.mem_values.mp hread
  obtain ⟨label, hlabel⟩ := Dict.mem_values.mp hvalue
  have hmem : value ∈ read.labels.values :=
    Dict.mem_values.mpr ⟨label, (hsameRead.labels label).trans hlabel⟩
  exact (Indexed.parse h).blankFree k read hk value hmem

/-- What is read back exactly has a key of its own for each series. -/
theorem key_of_parse {parseFloat : Text → Option ν} {raw : Text} {snapshot : Snapshot ν}
    {series : List (Series ν)} (h : parse parseFloat raw = .ok snapshot)
    (hexactly : Exactly snapshot series) : (series.map fun s => key s.name s.labels).Nodup := by
  obtain ⟨listed, hperm, hsame⟩ := hexactly
  have hkeys : (listed.map fun s => key s.name s.labels).Nodup := by
    rw [← forall₂_key hsame, (Indexed.parse h).values_key]
    exact snapshot.nodup
  exact (hperm.map _).nodup_iff.mp hkeys

/-- `Parse` reads a rendered exposition back exactly when no label value has a blank and no
two series have the same key. -/
theorem roundTrip_iff {parseFloat : Text → Option ν} {renderValue : ν → Text}
    {lines : List (ExpositionLine ν)} (h : WellFormed parseFloat renderValue lines) :
    (∃ snapshot, parse parseFloat (exposition renderValue lines) = .ok snapshot ∧
        Exactly snapshot (seriesOf lines)) ↔
      (∀ series ∈ seriesOf lines, BlankFree series.labels) ∧
        ((seriesOf lines).map fun series => key series.name series.labels).Nodup := by
  constructor
  · intro ⟨snapshot, hparse, hexactly⟩
    exact ⟨blankFree_of_parse hparse hexactly, key_of_parse hparse hexactly⟩
  · intro ⟨hblank, hkeys⟩
    refine ⟨_, parse_exposition h hblank, seriesOf lines, List.Perm.refl _, ?_⟩
    rw [values_foldl_set hkeys]
    exact List.forall₂_same.mpr fun series _ => ⟨rfl, fun _ => rfl, rfl⟩

/-- `strconv.ParseFloat` and its inverse, on one digit. -/
def parseDigit (text : Text) : Option Nat :=
  match text with
  | [c] => if Text.isDigit c then some (c.toNat - 48) else none
  | _ => none

def renderDigit (value : Nat) : Text := [Char.ofNat (48 + value)]

/-- A sample with one label, `model`. -/
def modelSample (model : String) : Series Nat :=
  ⟨"tokens".toList, Dict.empty.set "model".toList model.toList, 5⟩

/-- Two samples with the labels `a="1|b=2"` and `a="1",b="2"`. -/
def barSamples : List (Series Nat) :=
  [⟨['m'], Dict.empty.set ['a'] "1|b=2".toList, 1⟩,
    ⟨['m'], (Dict.empty.set ['a'] ['1']).set ['b'] ['2'], 3⟩]

/-- A name that can be checked letter by letter. -/
theorem labelName_of {c : Char} {rest : Text} (hc : isNameStart c = true)
    (h : (c :: rest).all isNameChar = true) : LabelName (c :: rest) :=
  ⟨⟨c, rest, rfl, hc⟩, fun d hd => List.all_eq_true.mp h d hd⟩

theorem LabelName.metricName {name : Text} (h : LabelName name) : MetricName name := by
  obtain ⟨⟨c, rest, hname, hc⟩, hall⟩ := h
  exact ⟨⟨c, rest, hname, .inl hc⟩, fun d hd => .inl (hall d hd)⟩

theorem metricName_tokens : MetricName "tokens".toList :=
  (@labelName_of 't' "okens".toList rfl (by decide)).metricName

theorem labelName_model : LabelName "model".toList :=
  @labelName_of 'm' "odel".toList rfl (by decide)

theorem labelName_bar {name : Text} (h : name = ['a'] ∨ name = ['b']) : LabelName name := by
  rcases h with rfl | rfl
  · exact labelName_of rfl (by decide)
  · exact labelName_of rfl (by decide)

theorem inverts_digit {value : Nat} (h : value ∈ [1, 3, 5]) :
    Inverts parseDigit renderDigit value := by
  have hword : ∀ value ∈ [1, 3, 5],
      renderDigit value ≠ [] ∧ (renderDigit value).all (!isSpace ·) = true := by decide
  have hinverse : ∀ value ∈ [1, 3, 5], parseDigit (renderDigit value) = some value := by decide
  refine ⟨⟨(hword value h).1, fun c hc => ?_⟩, hinverse value h⟩
  simpa using List.all_eq_true.mp (hword value h).2 c hc

theorem wellFormed_modelSample (model : String) :
    WellFormed parseDigit renderDigit [.comment " TYPE".toList, .sample (modelSample model)] := by
  constructor
  · intro text hmem
    obtain rfl : text = " TYPE".toList := by simpa using hmem
    decide
  · intro series hmem
    obtain rfl : series = modelSample model := List.mem_singleton.mp hmem
    refine ⟨metricName_tokens, ?_⟩
    intro label hlabel
    obtain rfl : label = "model".toList := List.mem_singleton.mp hlabel
    exact labelName_model
  · intro series hmem
    obtain rfl : series = modelSample model := List.mem_singleton.mp hmem
    apply inverts_digit
    show 5 ∈ [1, 3, 5]
    decide

theorem wellFormed_barSamples :
    WellFormed parseDigit renderDigit (barSamples.map ExpositionLine.sample) := by
  have hname : MetricName ['m'] := (labelName_of rfl (by decide)).metricName
  have hlabels : ∀ series ∈ barSamples, ∀ label ∈ series.labels.keys,
      label = ['a'] ∨ label = ['b'] := by decide
  have hvalues : ∀ series ∈ barSamples, series.name = ['m'] ∧ series.value ∈ [1, 3, 5] := by decide
  constructor
  · intro text hmem
    simp at hmem
  · intro series hmem
    constructor
    · rw [(hvalues series hmem).1]
      exact hname
    · exact fun label hlabel => labelName_bar (hlabels series hmem label hlabel)
  · intro series hmem
    exact inverts_digit (hvalues series hmem).2

/-- A label value with a space is not read back, and neither are two series whose names and
labels are joined to the same key. -/
theorem space_and_bar_not_read :
    (WellFormed parseDigit renderDigit [.comment " TYPE".toList, .sample (modelSample "a b")] ∧
      DistinctSeries [modelSample "a b"] ∧
      ¬ ∃ snapshot,
        parse parseDigit (exposition renderDigit
          [.comment " TYPE".toList, .sample (modelSample "a b")]) = .ok snapshot ∧
        Exactly snapshot [modelSample "a b"]) ∧
    (WellFormed parseDigit renderDigit (barSamples.map ExpositionLine.sample) ∧
      DistinctSeries barSamples ∧
      ¬ ∃ snapshot,
        parse parseDigit (exposition renderDigit (barSamples.map ExpositionLine.sample)) =
          .ok snapshot ∧
        Exactly snapshot barSamples) := by
  refine ⟨⟨wellFormed_modelSample "a b", List.pairwise_singleton .., ?_⟩,
    ⟨wellFormed_barSamples, ?_, ?_⟩⟩
  · intro ⟨snapshot, hparse, hexactly⟩
    have hblank := blankFree_of_parse hparse hexactly _ (List.mem_singleton.mpr rfl)
      "a b".toList (by decide) ' ' (by decide)
    cases hblank
  · apply List.pairwise_pair.mpr
    intro ⟨_, hlabels⟩
    have hb := hlabels ['b']
    revert hb
    decide
  · intro ⟨snapshot, hparse, hexactly⟩
    have hkeys := key_of_parse hparse hexactly
    revert hkeys
    decide

theorem roundTrip_iff_model :
    ∃ snapshot,
      parse parseDigit (exposition renderDigit
        [.comment " TYPE".toList, .sample (modelSample "a|b=c")]) = .ok snapshot ∧
      Exactly snapshot [modelSample "a|b=c"] :=
  (roundTrip_iff (wellFormed_modelSample "a|b=c")).mpr
    ⟨fun series hmem value hvalue => by
      obtain rfl : series = modelSample "a|b=c" := List.mem_singleton.mp hmem
      obtain rfl : value = "a|b=c".toList := List.mem_singleton.mp hvalue
      have hall : "a|b=c".toList.all (!isBlank ·) = true := by decide
      exact fun c hc => by simpa using List.all_eq_true.mp hall c hc, by decide⟩

end Prometheus

end Gateway
