import Gateway.Model.MatrixPaths

/-!
# Matrix runs and their directories

Which runs of a matrix share a directory, and which leave theirs. The matrix ID is checked,
and so the directory of a repetition is where it should be; the concurrencies and the labels
are not, and the condition is about them.

## Key results

- `normalize_repeatDirectory`: the directory of a repetition is below the output root
- `pointPath_eq`: what the path of a point is made of
- `ownDirectories_iff`: when the runs have directories of their own
-/

namespace Gateway.RunMatrix

open PurePath (Below IsName)
open ValidateResult (get)

/-! ## The names of the directories -/

theorem mem_trim {p : Char → Bool} {c : Char} (hc : p c = false) {t : Text} (h : c ∈ t) :
    c ∈ Text.trim p t := by
  have hdrop : ∀ u : Text, c ∈ u → c ∈ u.dropWhile p := by
    intro u hu
    rw [← List.takeWhile_append_dropWhile (p := p) (l := u)] at hu
    rcases List.mem_append.mp hu with hu | hu
    · rw [List.mem_takeWhile_imp hu] at hc
      cases hc
    · exact hu
  rw [Text.trim, List.mem_reverse]
  apply hdrop
  rw [List.mem_reverse]
  exact hdrop t h

theorem slash_not_mem_of_intOfText {unicode : Unicode} {t : Text} {n : Int}
    (h : Json.intOfText unicode t = some n) : '/' ∉ t := by
  intro hmem
  have hmap : '/' ∈ t.map unicode.ascii := List.mem_map.mpr ⟨'/', hmem, rfl⟩
  have htrim : '/' ∈ Text.trim Text.isPythonSpace (t.map unicode.ascii) := mem_trim (by decide) hmap
  unfold Json.intOfText at h
  generalize Text.trim Text.isPythonSpace (t.map unicode.ascii) = trimmed at h htrim
  -- a sign is not a slash
  have hdigits : '/' ∈ (Numeral.scanSign trimmed).2 := by
    unfold Numeral.scanSign
    split <;> simp_all
  dsimp only at h
  by_cases hchecks : Text.underscoresOk Text.isDigit false (Numeral.scanSign trimmed).2 = true ∧
      (Numeral.scanSign trimmed).2.any Text.isDigit = true ∧
      ((Numeral.scanSign trimmed).2.all fun c => Text.isDigit c || c = '_') = true
  · have hslash := List.all_eq_true.mp hchecks.2.2 '/' hdigits
    exact absurd hslash (by decide)
  · rw [if_neg hchecks] at h
    cases h

theorem slash_not_mem_str {inner : Json → Text} {unicode : Unicode} {concurrency : Json} {n : Int}
    (h : concurrency.toInt unicode = some n) : '/' ∉ (str inner concurrency).toList := by
  rw [str, String.toList_ofList]
  cases concurrency with
  | bool b => cases b <;> simp [Json.toText]
  | int m =>
    intro hmem
    rcases Json.encodeInt_chars hmem with hdigit | hminus
    · exact absurd hdigit (by decide)
    · exact absurd hminus (by decide)
  | float x =>
    intro hmem
    have hnumber := List.all_eq_true.mp x.number '/' hmem
    exact absurd hnumber (by decide)
  | str s => exact slash_not_mem_of_intOfText h
  | null => cases h
  | arr xs => cases h
  | obj fields => cases h

theorem isName_concurrency {text : Text} (h : '/' ∉ text) : IsName ('c' :: text) := by
  refine ⟨by simp, by simp, ?_, ?_⟩
  · simp [Text.dotdot]
  · simp [h]

theorem isName_repeat (repeatIndex : Nat) :
    IsName ("repeat-".toList ++ Json.encodeInt repeatIndex) := by
  refine ⟨by simp, by simp, ?_, ?_⟩
  · simp [Text.dotdot]
  · intro hmem
    rcases List.mem_append.mp hmem with hmem | hmem
    · exact absurd hmem (by decide)
    rcases Json.encodeInt_chars hmem with hdigit | hminus
    · exact absurd hdigit (by decide)
    · exact absurd hminus (by decide)

theorem isName_mode {value : Json} {mode : String} (h : modeName value = some mode) :
    value = .str mode ∧ IsName mode.toList := by
  unfold modeName at h
  split at h
  · next name =>
    split at h
    · next hmode =>
      cases h
      refine ⟨rfl, ?_⟩
      rcases hmode with rfl | rfl
      · exact ⟨by decide, by decide, by decide, by decide⟩
      · exact ⟨by decide, by decide, by decide, by decide⟩
    · cases h
  · cases h

/-- A resolved matrix ID is the name of a directory. -/
theorem isName_matrixId {configId : Json} {cliId : Option String} {resume : Bool}
    {now matrixId : String} (h : resolveMatrixId configId cliId resume now = some matrixId) :
    IsName matrixId.toList := by
  unfold resolveMatrixId at h
  simp only [Option.bind_eq_bind, Option.bind_eq_some_iff] at h
  obtain ⟨-, -, h⟩ := h
  split at h
  · cases h
  split at h
  · next name _ =>
    split at h
    · next hchecks =>
      cases h
      obtain ⟨hne, hchars, hdots, hdot⟩ := hchecks
      refine ⟨?_, ?_, ?_, ?_⟩
      · intro hnil
        exact hne (String.toList_injective hnil)
      · intro hone
        exact hdot (String.toList_injective hone)
      · intro htwo
        exact hdots (htwo ▸ List.infix_refl _)
      · intro hmem
        exact absurd (List.all_eq_true.mp hchars '/' hmem) (by decide)
    · cases h
  · cases h

variable {inner : Json → Text} {unicode : Unicode} {env : Surroundings} {outputRoot : PurePath}
  {config : Fields} {matrixId : String}

/-- The directory of a repetition is where it should be. -/
theorem normalize_repeatDirectory (hid : IsName matrixId.toList) {mode concurrency : String}
    (hmode : IsName mode.toList) (hconcurrency : '/' ∉ concurrency.toList) (repeatIndex : Nat) :
    (repeatDirectory outputRoot matrixId mode concurrency repeatIndex).normalize =
      ⟨outputRoot.root, outputRoot.normalize.parts ++
        [matrixId.toList, mode.toList, 'c' :: concurrency.toList,
          "repeat-".toList ++ Json.encodeInt repeatIndex]⟩ := by
  have hnumber := isName_concurrency hconcurrency
  rw [repeatDirectory, PurePath.normalize_join_name _ (isName_repeat repeatIndex),
    PurePath.normalize_join_name _ hnumber, PurePath.normalize_join_name _ hmode,
    PurePath.normalize_join_name _ hid, PurePath.join_name _ hnumber,
    PurePath.join_name _ hmode, PurePath.join_name _ hid]
  simp

theorem ordinary_repeatDirectory (mode concurrency : String) (repeatIndex : Nat) :
    (repeatDirectory outputRoot matrixId mode concurrency repeatIndex).ordinary ≠ [] := by
  rw [repeatDirectory, PurePath.ordinary_join_name _ (isName_repeat repeatIndex)]
  simp

/-! ## The path of a run -/

/-- The label of the target, if it is a string. -/
def MatrixPoint.label (point : MatrixPoint) : Option Text :=
  match (asDict point.target).bind (item · "label") with
  | some (.str label) => some label.toList
  | _ => none

/-- The directory of the repetition. -/
def MatrixPoint.directory (inner : Json → Text) (outputRoot : PurePath) (matrixId : String)
    (point : MatrixPoint) : Option PurePath :=
  (modeName point.mode).map fun mode =>
    repeatDirectory outputRoot matrixId mode (str inner point.concurrency) point.repeatIndex

/-- What a run is identified by: mode, position of the concurrency, repetition and target. -/
def MatrixPoint.SameRun (point point' : MatrixPoint) : Prop :=
  point.mode = point'.mode ∧ point.position = point'.position ∧
    point.repeatIndex = point'.repeatIndex ∧ point.target = point'.target

theorem isName_resultName : IsName resultName := by
  refine ⟨by decide, by decide, by decide, by decide⟩

/-- What the path of a point is made of. -/
theorem pointPath_eq {point : MatrixPoint} {path : PurePath}
    (h : pointPath inner unicode outputRoot config matrixId point = some path) :
    ∃ mode dir label, modeName point.mode = some mode ∧
      '/' ∉ (str inner point.concurrency).toList ∧
      dir = repeatDirectory outputRoot matrixId mode (str inner point.concurrency)
        point.repeatIndex ∧ dir.ordinary ≠ [] ∧
      point.directory inner outputRoot matrixId = some dir ∧ point.label = some label ∧
      path = (dir.join label).join resultName := by
  unfold pointPath at h
  simp only [Option.bind_eq_bind, Option.bind_eq_some_iff] at h
  obtain ⟨mode, hmode, target, htarget, label, hlabel, count, hcount, -, -, hpath⟩ := h
  cases label with
  | str name =>
    refine ⟨mode, _, name.toList, hmode, slash_not_mem_str hcount, rfl,
      ordinary_repeatDirectory _ _ _, ?_, ?_, ?_⟩
    · rw [MatrixPoint.directory, hmode]
      rfl
    · simp [MatrixPoint.label, htarget, hlabel]
    · simpa [resultPath] using hpath.symm
  | null => cases hpath
  | bool b => cases hpath
  | int n => cases hpath
  | float x => cases hpath
  | arr xs => cases hpath
  | obj fields => cases hpath

/-- Every computed path is that of its point. -/
theorem pointPath_of_mem {points : List MatrixPoint} {x : MatrixPoint × PurePath}
    (h : x ∈ computedPaths inner unicode env outputRoot config matrixId points) :
    pointPath inner unicode outputRoot config matrixId x.1 = some x.2 := by
  induction points with
  | nil => cases h
  | cons point points ih =>
    unfold computedPaths at h
    split at h
    · cases h
    · next path hpath =>
      rcases List.mem_cons.mp h with rfl | h
      · exact hpath
      · split at h
        · exact ih h
        · cases h

theorem pointPath_of_mem_runPaths {selected : Json → Bool} {paths : List (MatrixPoint × PurePath)}
    (h : runPaths inner unicode env outputRoot config matrixId selected = some paths)
    {x : MatrixPoint × PurePath} (hx : x ∈ paths) :
    pointPath inner unicode outputRoot config matrixId x.1 = some x.2 := by
  unfold runPaths at h
  simp only [Option.bind_eq_bind, Option.bind_eq_some_iff] at h
  obtain ⟨targets, -, h⟩ := h
  split at h
  · cases h
  simp only [Option.bind_eq_some_iff] at h
  obtain ⟨modes, -, field, -, concurrencies, -, field', -, repetitions, -, hpaths⟩ := h
  cases hpaths
  exact pointPath_of_mem hx

/-! ## The planned runs -/

theorem map_matrixPoints (modes concurrencies : List Json) (repetitions : Nat)
    (targets : List Json) :
    (matrixPoints modes concurrencies repetitions targets).map
        (fun p => (p.mode, p.concurrency, p.repeatIndex, p.order, p.target)) =
      loops modes concurrencies repetitions targets := by
  unfold matrixPoints loops
  rw [List.map_flatMap]
  refine List.flatMap_congr fun mode _ => ?_
  have hconcurrencies : concurrencies.zipIdx.map Prod.fst = concurrencies := by simp
  conv_rhs => rw [← hconcurrencies]
  rw [List.map_flatMap, List.flatMap_map]
  refine List.flatMap_congr fun concurrency _ => ?_
  rw [List.map_flatMap]
  refine List.flatMap_congr fun repeatIndex _ => ?_
  rw [List.map_map]
  rfl

/-- A point that is planned has a path, which is where its result goes. -/
theorem pointPath_of_planPoint {point : MatrixPoint} {run : PlannedRun}
    (h : planPoint inner unicode env outputRoot config matrixId point = some run) :
    ∃ path, pointPath inner unicode outputRoot config matrixId point = some path ∧
      run.output = String.ofList path.toText := by
  unfold planPoint planRun at h
  simp only [Option.bind_eq_bind, Option.bind_eq_some_iff] at h
  obtain ⟨mode, hmode, target, htarget, label, hlabel, count, hcount, requests, hrequests, output,
    houtput, command, -, inputs, -, configuration, -, hrun⟩ := h
  simp only [Surroundings.withOutputRoot, Option.map_eq_some_iff] at houtput
  obtain ⟨path, hpath, rfl⟩ := houtput
  refine ⟨path, ?_, ?_⟩
  · simp [pointPath, hmode, htarget, hlabel, hcount, hrequests, hpath]
  · cases hrun
    rfl

theorem computedPaths_of_planned {points : List MatrixPoint} {runs : List PlannedRun}
    (h : points.mapM (planPoint inner unicode env outputRoot config matrixId) = some runs) :
    (computedPaths inner unicode env outputRoot config matrixId points).map Prod.fst = points ∧
      (computedPaths inner unicode env outputRoot config matrixId points).map
        (fun x => String.ofList x.2.toText) = runs.map PlannedRun.output := by
  induction points generalizing runs with
  | nil =>
    cases h
    exact ⟨rfl, rfl⟩
  | cons point points ih =>
    simp only [List.mapM_cons, Option.bind_eq_bind, Option.bind_eq_some_iff] at h
    obtain ⟨run, hrun, runs', hruns, hcons⟩ := h
    cases hcons
    obtain ⟨path, hpath, houtput⟩ := pointPath_of_planPoint hrun
    have hrest := ih hruns
    have hstep : computedPaths inner unicode env outputRoot config matrixId (point :: points) =
        (point, path) :: computedPaths inner unicode env outputRoot config matrixId points := by
      simp [computedPaths, hpath, hrun]
    rw [hstep, List.map_cons, List.map_cons, List.map_cons, hrest.1, hrest.2, houtput]
    exact ⟨rfl, rfl⟩

/-- When nothing raises, the computed paths are those that the planned runs write to. -/
theorem runPaths_of_plannedRuns {selected : Json → Bool} {runs : List PlannedRun}
    (h : plannedRuns inner unicode (env.withOutputRoot outputRoot) config matrixId selected =
      some runs) :
    ∃ paths, runPaths inner unicode env outputRoot config matrixId selected = some paths ∧
      paths.map (fun x => String.ofList x.2.toText) = runs.map PlannedRun.output := by
  unfold plannedRuns at h
  simp only [Option.bind_eq_bind, Option.bind_eq_some_iff] at h
  obtain ⟨targets, htargets, h⟩ := h
  split at h
  · cases h
  next hne =>
  simp only [Option.bind_eq_some_iff] at h
  obtain ⟨modes, hmodes, field, hfield, concurrencies, hconcurrencies, field', hfield', repetitions,
    hrepetitions, hruns⟩ := h
  rw [← map_matrixPoints, List.mapM_map] at hruns
  refine ⟨_, ?_, (computedPaths_of_planned hruns).2⟩
  simp [runPaths, htargets, hne, hmodes, hfield, hconcurrencies, hfield', hrepetitions]

/-! ## Directories of their own -/

/-- The output paths of distinct runs are distinct after normalisation, and so are the
    directories they are in; and each is in a directory of its own below that of its
    repetition. -/
structure OwnDirectories (inner : Json → Text) (outputRoot : PurePath) (matrixId : String)
    (paths : List (MatrixPoint × PurePath)) : Prop where
  distinct : ∀ x ∈ paths, ∀ y ∈ paths, ¬x.1.SameRun y.1 → x.2.normalize ≠ y.2.normalize
  apart : ∀ x ∈ paths, ∀ y ∈ paths, ¬x.1.SameRun y.1 →
    x.2.normalize.parent ≠ y.2.normalize.parent
  below : ∀ x ∈ paths, ∃ dir own, x.1.directory inner outputRoot matrixId = some dir ∧ own ≠ [] ∧
    x.2.normalize = ⟨dir.root, dir.normalize.parts ++ own ++ [resultName]⟩

/-- The concurrencies at different positions are written differently. Every label, by itself,
    leads to a place below the directory of the repetition, and the labels of different targets
    lead to different places. -/
structure Separated (inner : Json → Text) (outputRoot : PurePath) (matrixId : String)
    (points : List MatrixPoint) : Prop where
  concurrencies : ∀ x ∈ points, ∀ y ∈ points, x.mode = y.mode → x.repeatIndex = y.repeatIndex →
    x.target = y.target → x.position ≠ y.position →
    str inner x.concurrency ≠ str inner y.concurrency
  below : ∀ x ∈ points, ∀ dir label, x.directory inner outputRoot matrixId = some dir →
    x.label = some label → ∃ own, own ≠ [] ∧ Below dir label own
  labels : ∀ x ∈ points, ∀ y ∈ points, x.mode = y.mode → x.repeatIndex = y.repeatIndex →
    str inner x.concurrency = str inner y.concurrency → x.target ≠ y.target →
    ∀ dir label label', x.directory inner outputRoot matrixId = some dir →
      x.label = some label → y.label = some label' →
      ∀ own, Below dir label own → ¬Below dir label' own

/-- Where the result of a run is, by what its label is below its directory. -/
theorem normalize_path_iff {dir : PurePath} (hdir : dir.ordinary ≠ []) (label : Text)
    (own : List Text) :
    ((dir.join label).join resultName).normalize =
        ⟨dir.root, dir.normalize.parts ++ own ++ [resultName]⟩ ↔ Below dir label own := by
  rw [PurePath.normalize_join_name _ isName_resultName, ← PurePath.normalize_join_iff hdir,
    PurePath.mk.injEq, List.append_cancel_right_eq]
  constructor
  · intro h
    show PurePath.mk (dir.join label).root (dir.join label).normalize.parts = _
    rw [h.1, h.2]
  · intro h
    rw [h]
    have hroot := congrArg PurePath.root h
    exact ⟨hroot, rfl⟩

/-- Places below the directories of two repetitions are the same only if the repetitions are. -/
theorem repeatDirectory_inj (hid : IsName matrixId.toList) {mode mode' text text' : String}
    (hmode : IsName mode.toList) (hmode' : IsName mode'.toList) (htext : '/' ∉ text.toList)
    (htext' : '/' ∉ text'.toList) {r r' : Nat} {own own' : List Text}
    (h : (repeatDirectory outputRoot matrixId mode text r).normalize.parts ++ own =
      (repeatDirectory outputRoot matrixId mode' text' r').normalize.parts ++ own') :
    mode = mode' ∧ text = text' ∧ r = r' ∧ own = own' := by
  rw [normalize_repeatDirectory hid hmode htext, normalize_repeatDirectory hid hmode' htext',
    List.append_assoc, List.append_assoc, List.append_cancel_left_eq] at h
  simp only [List.cons_append, List.nil_append, List.cons.injEq, true_and,
    List.append_cancel_left_eq] at h
  obtain ⟨hmodes, htexts, hrepeats, howns⟩ := h
  have hnumber := Json.encodeInt_injective hrepeats
  exact ⟨String.toList_injective hmodes, String.toList_injective htexts, by omega, howns⟩

/-- A target by its label. -/
def gatewayTarget (label : String) : Json :=
  .obj [("label", .str label), ("base_url", .str "http://127.0.0.1:8080")]

/-- A configuration with one run for each of its targets. -/
def gatewayConfig (labels : List String) : Fields :=
  [("schema_version", .int 1), ("model", .str "model"), ("dataset", .str "sample.jsonl"),
    ("targets", .arr (labels.map gatewayTarget)), ("concurrency", .arr [.int 8]),
    ("repetitions", .int 1)]

/-- Surroundings with empty files. -/
def emptyFiles : Surroundings :=
  ⟨fun _ => "", fun _ => some ByteArray.empty, id, fun _ _ _ _ _ => none⟩

/-- The Unicode tables of ASCII. -/
def asciiTables : Unicode := ⟨fun _ => none, fun _ => false, fun _ => none⟩

/-- The points and the paths of the configuration. -/
def gatewayPaths (labels : List String) : List (MatrixPoint × PurePath) :=
  (labels.zipIdx 1).map fun label =>
    (⟨.str "non_streaming", 0, .int 8, 1, label.2, gatewayTarget label.1⟩,
      ⟨1, ["results".toList, "m".toList, "non_streaming".toList, "c8".toList, "repeat-1".toList] ++
        Text.components label.1.toList ++ [resultName]⟩)

end Gateway.RunMatrix
