import Gateway.Model.Comparisons

/-!
# What the summary compares

`build_comparisons` keeps the last result of each arm of a group, and compares a group when
nothing is wrong with these three. What it finds on the way, counters that went down and arms
that were given twice, it reports, but does not leave out. So a comparison is about the last
results of its group, and it is about the only ones when nothing is reported.

## Key results

- `comparisonErrors_nil_iff`: when a group is compared
- `Grouped.step`: what the first loop keeps
- `comparisons_of_latest`: which comparisons are made
- `status_zero_iff`: when the summary exits with status 0
-/

namespace Gateway

namespace Comparisons

open RunMatrix (asDict)
open ValidateResult (get validate)

/-! ## When a group is compared -/

/-- The result of a valid run with requests and with a label. -/
structure Usable (result : ResultFields) : Prop where
  valid : ∃ validity, asDict (get result "validity" (.obj [])) = some validity ∧
    (get validity "valid" .null).truthy = true
  measured : ∃ summary, asDict (get result "summary" (.obj [])) = some summary ∧
    (get summary "attempted" (.int 0)).pyEq (.int 0) = false
  labelled : ∃ metadata, asDict (get result "metadata" (.obj [])) = some metadata ∧
    (get metadata "label" .null).truthy = true

/-- A field has one value in three configurations. -/
def SameField (field : String) (direct off on : ResultFields) : Prop :=
  ∃ x, Scalar.ofJson (get direct field .null) = some x ∧
    Scalar.ofJson (get off field .null) = some x ∧ Scalar.ofJson (get on field .null) = some x

/-- The commit of the gateway is known, and the same. -/
def SameGateway (off on : ResultFields) : Prop :=
  ∃ sha sha', gatewaySha off = some sha ∧ gatewaySha on = some sha' ∧ sha.truthy = true ∧
    sha.pyEq (.str "unknown") = false ∧ sha.pyEq sha' = true

/-- Three results that may be compared. -/
structure Comparable (direct off on : ResultFields) : Prop where
  usable : ∀ result ∈ [direct, off, on], Usable result
  configured : ∃ directConfiguration offConfiguration onConfiguration,
    configurationOf direct = some directConfiguration ∧
    configurationOf off = some offConfiguration ∧ configurationOf on = some onConfiguration ∧
    (∀ field ∈ comparedFields,
      SameField field directConfiguration offConfiguration onConfiguration) ∧
    get offConfiguration "batching_enabled" .null = .str "false" ∧
    get onConfiguration "batching_enabled" .null = .str "true"
  gateway : SameGateway off on

theorem errorIf_eq_nil {condition : Bool} {message : String} :
    errorIf condition message = [] ↔ condition = false := by
  cases condition <;> simp [errorIf]

theorem armErrors_nil_iff {arm : String × ResultFields} :
    armErrors arm = some [] ↔ Usable arm.2 := by
  constructor
  · intro h
    simp only [armErrors, bind, Option.bind_eq_some_iff] at h
    obtain ⟨validity, hvalidity, summary, hsummary, metadata, hmetadata, hmessages⟩ := h
    simp only [Option.some.injEq, List.append_eq_nil_iff, errorIf_eq_nil, Bool.not_eq_false']
      at hmessages
    exact ⟨⟨validity, hvalidity, hmessages.1.1⟩, ⟨summary, hsummary, hmessages.1.2⟩,
      ⟨metadata, hmetadata, hmessages.2⟩⟩
  · intro h
    obtain ⟨⟨validity, hvalidity, hvalid⟩, ⟨summary, hsummary, hattempted⟩,
      ⟨metadata, hmetadata, hlabel⟩⟩ := h
    simp only [armErrors, hvalidity, hsummary, hmetadata, bind, Option.bind_some, hvalid,
      hattempted,
      hlabel]
    rfl

/-- The field is the same just when it does not differ. -/
theorem differs_false_iff {field : String} {direct off on : ResultFields} :
    differs [direct, off, on] field = some false ↔ SameField field direct off on := by
  constructor
  · intro h
    simp only [differs, bind, Option.bind_eq_some_iff] at h
    obtain ⟨values, hvalues, hdistinct⟩ := h
    simp only [List.mapM_cons, List.mapM_nil, bind, Option.bind_eq_some_iff, pure,
      Option.some.injEq]
      at hvalues
    obtain ⟨x, hx, _, ⟨y, hy, _, ⟨z, hz, _, rfl, rfl⟩, rfl⟩, rfl⟩ := hvalues
    have hone : [x, y, z].dedup.length = 1 := by simpa using hdistinct
    obtain ⟨w, hw⟩ := List.length_eq_one_iff.mp hone
    have hall : ∀ v ∈ [x, y, z], v = w := by
      intro v hv
      rw [← List.mem_dedup, hw] at hv
      exact List.mem_singleton.mp hv
    rw [hall x (by simp)] at hx
    rw [hall y (by simp)] at hy
    rw [hall z (by simp)] at hz
    exact ⟨w, hx, hy, hz⟩
  · intro h
    obtain ⟨x, hx, hy, hz⟩ := h
    simp [differs, hx, hy, hz]

/-- `mapM` of lists of messages that are all empty. -/
theorem mapM_flatten_nil {α : Type} {f : α → Option (List String)} {l : List α}
    {messages : List (List String)} (h : l.mapM f = some messages) :
    messages.flatten = [] ↔ ∀ a ∈ l, f a = some [] := by
  induction l generalizing messages with
  | nil =>
    cases h
    simp
  | cons a l ih =>
    simp only [List.mapM_cons, bind, Option.bind_eq_some_iff, pure,
      Option.some.injEq] at h
    obtain ⟨first, hfirst, rest, hrest, rfl⟩ := h
    simp only [List.flatten_cons, List.append_eq_nil_iff, ih hrest, List.forall_mem_cons, hfirst,
      Option.some.injEq]

theorem exists_mapM {α β : Type} {f : α → Option β} {l : List α} (h : ∀ a ∈ l, ∃ b, f a = some b) :
    ∃ bs, l.mapM f = some bs := by
  induction l with
  | nil => exact ⟨[], rfl⟩
  | cons a l ih =>
    obtain ⟨b, hb⟩ := h a (List.mem_cons_self ..)
    obtain ⟨bs, hbs⟩ := ih fun c hc => h c (List.mem_cons_of_mem _ hc)
    exact ⟨b :: bs, by rw [List.mapM_cons, hb, hbs]; rfl⟩

/-- The results of the three arms. -/
def HasArms (group : Group) (direct off on : ResultFields) : Prop :=
  group.get? "direct" = some direct ∧ group.get? "gateway_no_batch" = some off ∧
    group.get? "gateway_batch" = some on

theorem HasArms.complete {group : Group} {direct off on : ResultFields}
    (h : HasArms group direct off on) :
    ∀ label ∈ arms, label ∈ group.keys := by
  intro label hlabel
  have hcases : label = "direct" ∨ label = "gateway_no_batch" ∨ label = "gateway_batch" := by
    simpa [arms] using hlabel
  rcases hcases with rfl | rfl | rfl
  · exact Dict.mem_keys.mpr ⟨_, h.1⟩
  · exact Dict.mem_keys.mpr ⟨_, h.2.1⟩
  · exact Dict.mem_keys.mpr ⟨_, h.2.2⟩

theorem exists_hasArms {group : Group} (h : ∀ label ∈ arms, label ∈ group.keys) :
    ∃ direct off on, HasArms group direct off on := by
  obtain ⟨direct, hdirect⟩ := Dict.mem_keys.mp (h "direct" (by simp [arms]))
  obtain ⟨off, hoff⟩ := Dict.mem_keys.mp (h "gateway_no_batch" (by simp [arms]))
  obtain ⟨on, hon⟩ := Dict.mem_keys.mp (h "gateway_batch" (by simp [arms]))
  exact ⟨direct, off, on, hdirect, hoff, hon⟩

/-- The entries of a group are the results of its arms. -/
theorem HasArms.entries {group : Group} {direct off on : ResultFields}
    (h : HasArms group direct off on)
    (hkeys : ∀ label ∈ group.keys, label ∈ arms) {p : ResultFields → Prop} :
    (∀ entry ∈ group.entries, p entry.2) ↔ ∀ result ∈ [direct, off, on], p result := by
  constructor
  · intro hentries result hmem
    have hcases : result = direct ∨ result = off ∨ result = on := by simpa using hmem
    rcases hcases with rfl | rfl | rfl
    · exact hentries _ (Dict.get?_eq_some.mp h.1)
    · exact hentries _ (Dict.get?_eq_some.mp h.2.1)
    · exact hentries _ (Dict.get?_eq_some.mp h.2.2)
  · intro hresults entry hentry
    have hget : group.get? entry.1 = some entry.2 := Dict.get?_eq_some.mpr hentry
    have hcases :
        entry.1 = "direct" ∨ entry.1 = "gateway_no_batch" ∨ entry.1 = "gateway_batch" := by
      simpa [arms] using hkeys entry.1 (List.mem_map_of_mem hentry)
    rcases hcases with heq | heq | heq
    · rw [heq, h.1] at hget
      exact hresults _ (by rw [← Option.some.inj hget]; simp)
    · rw [heq, h.2.1] at hget
      exact hresults _ (by rw [← Option.some.inj hget]; simp)
    · rw [heq, h.2.2] at hget
      exact hresults _ (by rw [← Option.some.inj hget]; simp)

theorem not_pyEq_str_iff {a : Json} {s : String} : (!a.pyEq (.str s)) = false ↔ a = .str s := by
  rw [Bool.not_eq_false', Json.pyEq_str]

/-- The message about a field. -/
theorem fieldMessages_nil_iff {configurations : List ResultFields} {field : String} :
    (do
      let different ← differs configurations field
      some (errorIf different ("different " ++ field ++ " across compared arms"))) = some [] ↔
      differs configurations field = some false := by
  cases differs configurations field with
  | none => simp
  | some different => simp [errorIf_eq_nil]

theorem HasArms.configurations {group : Group} {direct off on : ResultFields}
    (h : HasArms group direct off on)
    {directConfiguration offConfiguration onConfiguration : ResultFields}
    (hdirect : configurationOf direct = some directConfiguration)
    (hoff : configurationOf off = some offConfiguration)
    (hon : configurationOf on = some onConfiguration) :
    (arms.mapM fun label => (group.get? label).bind configurationOf) =
      some [directConfiguration, offConfiguration, onConfiguration] := by
  simp [arms, h.1, h.2.1, h.2.2, hdirect, hoff, hon]

/-- A group is compared just when its arms are there and may be compared. -/
theorem comparisonErrors_nil_iff {group : Group} (hkeys : ∀ label ∈ group.keys, label ∈ arms) :
    comparisonErrors group = some [] ↔
      ∃ direct off on, HasArms group direct off on ∧ Comparable direct off on := by
  have hallowed : group.keys.all (· ∈ arms) = true := by
    rw [List.all_eq_true]
    exact fun label hlabel => decide_eq_true (hkeys label hlabel)
  constructor
  · intro h
    unfold comparisonErrors at h
    split at h
    · cases h
    next hcond =>
    have hcomplete : ∀ label ∈ arms, label ∈ group.keys := by
      intro label hlabel
      by_contra hnot
      apply hcond
      right
      rw [List.all_eq_false]
      exact ⟨label, hlabel, by simpa using hnot⟩
    obtain ⟨direct, off, on, harms⟩ := exists_hasArms hcomplete
    refine ⟨direct, off, on, harms, ?_⟩
    simp only [bind, Option.bind_eq_some_iff, harms.2.1, harms.2.2, Option.some.injEq,
      exists_eq_left', List.append_eq_nil_iff, errorIf_eq_nil, not_pyEq_str_iff] at h
    obtain ⟨armMessages, harmMessages, configurations, hconfigurations, fieldMessages,
      hfieldMessages, offSha, hoffSha, onSha, honSha, offConfiguration, hoffConfiguration,
      onConfiguration, honConfiguration, ⟨⟨⟨harmNil, hfieldNil⟩, hsha⟩, hoffFlag⟩, honFlag⟩ := h
    obtain ⟨directConfiguration, hdirectConfiguration⟩ :
        ∃ directConfiguration, configurationOf direct = some directConfiguration := by
      cases hnone : configurationOf direct with
      | none => simp [arms, harms.1, hnone] at hconfigurations
      | some directConfiguration => exact ⟨directConfiguration, rfl⟩
    rw [harms.configurations hdirectConfiguration hoffConfiguration honConfiguration]
      at hconfigurations
    obtain rfl := Option.some.inj hconfigurations
    refine ⟨?_, ⟨_, _, _, hdirectConfiguration, hoffConfiguration, honConfiguration, ?_, hoffFlag,
      honFlag⟩, ?_⟩
    · rw [← harms.entries hkeys]
      exact fun entry hentry =>
        armErrors_nil_iff.mp ((mapM_flatten_nil harmMessages).mp harmNil entry hentry)
    · intro field hfield
      have hmessages := (mapM_flatten_nil hfieldMessages).mp hfieldNil field hfield
      exact differs_false_iff.mp (fieldMessages_nil_iff.mp hmessages)
    · simp only [Bool.or_eq_false_iff, Bool.not_eq_false'] at hsha
      exact ⟨offSha, onSha, hoffSha, honSha, hsha.1.1, hsha.1.2, hsha.2⟩
  · intro h
    obtain ⟨direct, off, on, harms, husable, hconfigured, hgateway⟩ := h
    obtain ⟨directConfiguration, offConfiguration, onConfiguration, hdirect, hoff, hon, hfields,
      hoffFlag, honFlag⟩ := hconfigured
    obtain ⟨offSha, onSha, hoffSha, honSha, htruthy, hknown, hsame⟩ := hgateway
    have harmErrors : ∀ entry ∈ group.entries, armErrors entry = some [] := by
      have hentries := (harms.entries hkeys).mpr husable
      exact fun entry hentry => armErrors_nil_iff.mpr (hentries entry hentry)
    have hfieldErrors : ∀ field ∈ comparedFields, (do
        let different ← differs [directConfiguration, offConfiguration, onConfiguration] field
        some (errorIf different ("different " ++ field ++ " across compared arms"))) = some [] :=
      fun field hfield => fieldMessages_nil_iff.mpr (differs_false_iff.mpr (hfields field hfield))
    obtain ⟨armMessages, harmMessages⟩ :=
      exists_mapM fun entry hentry => ⟨_, harmErrors entry hentry⟩
    obtain ⟨fieldMessages, hfieldMessages⟩ :=
      exists_mapM fun field hfield => ⟨_, hfieldErrors field hfield⟩
    have harmNil := (mapM_flatten_nil harmMessages).mpr harmErrors
    have hfieldNil := (mapM_flatten_nil hfieldMessages).mpr hfieldErrors
    have hpresent : arms.all (· ∈ group.keys) = true := by
      rw [List.all_eq_true]
      exact fun label hlabel => decide_eq_true (harms.complete label hlabel)
    have hoffEq := not_pyEq_str_iff.mpr hoffFlag
    have honEq := not_pyEq_str_iff.mpr honFlag
    unfold comparisonErrors
    rw [if_neg (by simp [hallowed, hpresent]), harmMessages,
      harms.configurations hdirect hoff hon]
    simp only [bind, Option.bind_some]
    simp only [bind] at hfieldMessages
    rw [hfieldMessages, harms.2.1, harms.2.2]
    simp only [Option.bind_some, hoffSha, honSha, hoff, hon, harmNil, hfieldNil, htruthy, hknown,
      hsame,
      hoffEq, honEq]
    rfl

/-! ## The groups -/

/-- A result belongs to an arm of a group. -/
def InArm (key : GroupKey) (arm : String) (loaded : Loaded) : Prop :=
  labelOf loaded.result = some (.str arm) ∧ keyOf loaded.result = some key

instance (key : GroupKey) (arm : String) (loaded : Loaded) : Decidable (InArm key arm loaded) :=
  inferInstanceAs (Decidable (_ ∧ _))

/-- The results of an arm of a group. -/
def suppliers (loaded : List Loaded) (key : GroupKey) (arm : String) : List Loaded :=
  loaded.filter fun l => InArm key arm l

/-- The last result of an arm of a group. -/
def latest (loaded : List Loaded) (key : GroupKey) (arm : String) : Option ResultFields :=
  (suppliers loaded key arm).getLast?.map Loaded.result

variable {unicode : Unicode} {artifact : String → String → Option Text}
  {keyText : GroupKey → String}

/-- No counter went down between the snapshots of a result. -/
def Steady (unicode : Unicode) (artifact : String → String → Option Text) (loaded : Loaded) :
    Prop :=
  ∃ deltas, artifactCounterDeltas unicode (artifact loaded.path) loaded.result = some deltas ∧
    ∀ delta ∈ deltas, delta.2.reset = false

theorem resetErrors_nil_iff {loaded : Loaded} :
    resetErrors unicode artifact loaded = some [] ↔ Steady unicode artifact loaded := by
  unfold resetErrors Steady
  cases artifactCounterDeltas unicode (artifact loaded.path) loaded.result with
  | none => simp
  | some deltas => simp [List.flatMap_eq_nil_iff, errorIf_eq_nil]

/-- What the first loop does with a result. -/
theorem addResult_cases {grouping grouping' : Grouping} {loaded : Loaded}
    (h : addResult unicode artifact keyText grouping loaded = some grouping') :
    ∃ resets, resetErrors unicode artifact loaded = some resets ∧
      ((∃ arm ∈ arms, ∃ key, InArm key arm loaded ∧ grouping' = {
          groups := grouping.groups.set key
            (((grouping.groups.get? key).getD .empty).set arm loaded.result)
          errors := grouping.errors ++ resets ++
            errorIf (arm ∈ ((grouping.groups.get? key).getD .empty).keys)
              ("duplicate arm " ++ arm ++ " for " ++ keyText key) }) ∨
        (∀ arm ∈ arms, ∀ key, ¬InArm key arm loaded) ∧
          grouping' = { grouping with errors := grouping.errors ++ resets }) := by
  simp only [addResult, bind, Option.bind_eq_some_iff] at h
  obtain ⟨resets, hresets, label, hlabel, hrest⟩ := h
  refine ⟨resets, hresets, ?_⟩
  cases label with
  | str arm =>
    dsimp only at hrest
    split at hrest
    · next hmem =>
      obtain ⟨key, hkey, heq⟩ := Option.bind_eq_some_iff.mp hrest
      exact .inl ⟨arm, hmem, key, ⟨hlabel, hkey⟩, (Option.some.inj heq).symm⟩
    · next hmem =>
      refine .inr ⟨?_, (Option.some.inj hrest).symm⟩
      intro arm' harm' key hin
      have hsame := hlabel.symm.trans hin.1
      cases hsame
      exact hmem harm'
  | _ =>
    refine .inr ⟨?_, (Option.some.inj hrest).symm⟩
    intro arm' _ key hin
    have hsame := hlabel.symm.trans hin.1
    cases hsame

/-- What the groups are after some results. -/
structure Grouped (unicode : Unicode) (artifact : String → String → Option Text)
    (done : List Loaded)
    (grouping : Grouping) : Prop where
  latest : ∀ key, ∀ arm ∈ arms,
    (grouping.groups.get? key).bind (·.get? arm) = latest done key arm
  arms : ∀ key group, grouping.groups.get? key = some group → ∀ label ∈ group.keys, label ∈ arms
  keys : ∀ key, key ∈ grouping.groups.keys ↔ ∃ arm ∈ Comparisons.arms, suppliers done key arm ≠ []
  errors : grouping.errors = [] ↔ (∀ l ∈ done, Steady unicode artifact l) ∧
    ∀ key, ∀ arm ∈ Comparisons.arms, (suppliers done key arm).length ≤ 1

theorem suppliers_concat {done : List Loaded} {loaded : Loaded} {key : GroupKey} {arm : String} :
    suppliers (done ++ [loaded]) key arm =
      suppliers done key arm ++ if InArm key arm loaded then [loaded] else [] := by
  rw [suppliers, List.filter_append, List.filter_singleton]
  simp [suppliers]

theorem InArm.unique {key key' : GroupKey} {arm arm' : String} {loaded : Loaded}
    (h : InArm key arm loaded) (h' : InArm key' arm' loaded) : key = key' ∧ arm = arm' := by
  have hlabel := h.1.symm.trans h'.1
  have hkey := h.2.symm.trans h'.2
  cases hlabel
  cases hkey
  exact ⟨rfl, rfl⟩

theorem latest_eq_none {done : List Loaded} {key : GroupKey} {arm : String} :
    latest done key arm = none ↔ suppliers done key arm = [] := by
  simp [latest]

/-- A result of no arm changes no group. -/
theorem Grouped.skip {done : List Loaded} {grouping : Grouping} {loaded : Loaded}
    {resets : List String} (h : Grouped unicode artifact done grouping)
    (hresets : resetErrors unicode artifact loaded = some resets)
    (hnone : ∀ arm ∈ Comparisons.arms, ∀ key, ¬InArm key arm loaded) :
    Grouped unicode artifact (done ++ [loaded])
      { grouping with errors := grouping.errors ++ resets } := by
  have hsame : ∀ key, ∀ arm ∈ Comparisons.arms,
      suppliers (done ++ [loaded]) key arm = suppliers done key arm := by
    intro key arm harm
    rw [suppliers_concat, if_neg (hnone arm harm key), List.append_nil]
  have hsteady : resets = [] ↔ Steady unicode artifact loaded := by
    rw [← resetErrors_nil_iff, hresets, Option.some.injEq]
  refine ⟨?_, h.arms, ?_, ?_⟩
  · intro key arm harm
    rw [h.latest key arm harm, Comparisons.latest, Comparisons.latest, hsame key arm harm]
  · intro key
    rw [h.keys key]
    constructor
    · intro hex
      obtain ⟨arm, harm, hne⟩ := hex
      exact ⟨arm, harm, by rw [hsame key arm harm]; exact hne⟩
    · intro hex
      obtain ⟨arm, harm, hne⟩ := hex
      exact ⟨arm, harm, by rw [hsame key arm harm] at hne; exact hne⟩
  · rw [List.append_eq_nil_iff, h.errors, hsteady]
    constructor
    · intro hboth
      obtain ⟨⟨hdone, hlength⟩, hlast⟩ := hboth
      refine ⟨?_, fun key arm harm => by rw [hsame key arm harm]; exact hlength key arm harm⟩
      intro l hl
      rcases List.mem_append.mp hl with hmem | hmem
      · exact hdone l hmem
      · rw [List.mem_singleton.mp hmem]
        exact hlast
    · intro hboth
      obtain ⟨hall, hlength⟩ := hboth
      refine ⟨⟨fun l hl => hall l (List.mem_append_left _ hl), ?_⟩, hall loaded (by simp)⟩
      intro key arm harm
      rw [← hsame key arm harm]
      exact hlength key arm harm

theorem Grouped.group {done : List Loaded} {grouping : Grouping}
    (h : Grouped unicode artifact done grouping) (key : GroupKey) {arm : String}
    (harm : arm ∈ Comparisons.arms) :
    ((grouping.groups.get? key).getD .empty).get? arm = Comparisons.latest done key arm := by
  rw [← h.latest key arm harm]
  cases grouping.groups.get? key with
  | none => rfl
  | some group => rfl

/-- A result of an arm takes the place of the one before it. -/
theorem Grouped.put {done : List Loaded} {grouping : Grouping} {loaded : Loaded}
    {resets : List String} {arm : String} {key : GroupKey}
    (h : Grouped unicode artifact done grouping)
    (hresets : resetErrors unicode artifact loaded = some resets) (harm : arm ∈ Comparisons.arms)
    (hin : InArm key arm loaded) (message : String) :
    Grouped unicode artifact (done ++ [loaded]) {
      groups := grouping.groups.set key
        (((grouping.groups.get? key).getD .empty).set arm loaded.result)
      errors := grouping.errors ++ resets ++
        errorIf (arm ∈ ((grouping.groups.get? key).getD .empty).keys) message } := by
  have hsuppliers : ∀ key' arm', suppliers (done ++ [loaded]) key' arm' =
      suppliers done key' arm' ++ if key' = key ∧ arm' = arm then [loaded] else [] := by
    intro key' arm'
    rw [suppliers_concat]
    by_cases heq : key' = key ∧ arm' = arm
    · rw [if_pos heq, heq.1, heq.2, if_pos hin]
    · rw [if_neg heq, if_neg fun hin' => heq (hin'.unique hin)]
  have hsteady : resets = [] ↔ Steady unicode artifact loaded := by
    rw [← resetErrors_nil_iff, hresets, Option.some.injEq]
  have hpresent : arm ∈ ((grouping.groups.get? key).getD .empty).keys ↔
      suppliers done key arm ≠ [] := by
    rw [Dict.mem_keys, h.group key harm, ← not_iff_not, not_exists]
    simp only [ne_eq, not_not, ← latest_eq_none, Option.eq_none_iff_forall_ne_some]
  refine ⟨?_, ?_, ?_, ?_⟩
  · intro key' arm' harm'
    rw [Comparisons.latest, hsuppliers]
    dsimp only
    rw [Dict.get?_set]
    by_cases hkey : key = key'
    · subst hkey
      rw [if_pos rfl, Option.bind_some, Dict.get?_set]
      by_cases heq : arm = arm'
      · subst heq
        simp
      · rw [if_neg heq, if_neg fun hboth => heq hboth.2.symm, List.append_nil, h.group key harm',
          Comparisons.latest]
    · rw [if_neg hkey, if_neg fun hboth => hkey hboth.1.symm, List.append_nil,
        h.latest key' arm' harm', Comparisons.latest]
  · intro key' group hget label hlabel
    dsimp only at hget
    rw [Dict.get?_set] at hget
    split at hget
    · next hkey =>
      cases hget
      obtain ⟨result, hresult⟩ := Dict.mem_keys.mp hlabel
      rw [Dict.get?_set] at hresult
      split at hresult
      · next heq => exact heq ▸ harm
      · cases hgroup : grouping.groups.get? key with
        | none =>
          rw [hgroup] at hresult
          cases hresult
        | some group =>
          rw [hgroup] at hresult
          exact h.arms key group hgroup label (Dict.mem_keys.mpr ⟨result, hresult⟩)
    · exact h.arms key' group hget label hlabel
  · intro key'
    dsimp only
    rw [Dict.mem_keys]
    by_cases hkey : key = key'
    · subst hkey
      constructor
      · exact fun _ => ⟨arm, harm, by rw [hsuppliers]; simp⟩
      · exact fun _ => ⟨_, by rw [Dict.get?_set, if_pos rfl]⟩
    · have hget : ∀ group, (grouping.groups.set key
          (((grouping.groups.get? key).getD .empty).set arm loaded.result)).get? key' = some group ↔
          grouping.groups.get? key' = some group := by
        intro group
        rw [Dict.get?_set, if_neg hkey]
      simp only [hget, ← Dict.mem_keys, h.keys key', hsuppliers]
      constructor
      · intro hex
        obtain ⟨arm', harm', hne⟩ := hex
        exact ⟨arm', harm', by simp [hne]⟩
      · intro hex
        obtain ⟨arm', harm', hne⟩ := hex
        rw [if_neg fun hboth => hkey hboth.1.symm, List.append_nil] at hne
        exact ⟨arm', harm', hne⟩
  · rw [List.append_eq_nil_iff, List.append_eq_nil_iff, h.errors, hsteady, errorIf_eq_nil,
      decide_eq_false_iff_not, hpresent, not_not]
    constructor
    · intro hboth
      obtain ⟨⟨⟨hdone, hlength⟩, hlast⟩, hfirst⟩ := hboth
      constructor
      · intro l hl
        rcases List.mem_append.mp hl with hmem | hmem
        · exact hdone l hmem
        · rw [List.mem_singleton.mp hmem]
          exact hlast
      · intro key' arm' harm'
        rw [hsuppliers]
        split
        · next heq =>
          rw [heq.1, heq.2, hfirst]
          simp
        · rw [List.append_nil]
          exact hlength key' arm' harm'
    · intro hboth
      obtain ⟨hall, hlength⟩ := hboth
      refine ⟨⟨⟨fun l hl => hall l (List.mem_append_left _ hl), ?_⟩, hall loaded (by simp)⟩, ?_⟩
      · intro key' arm' harm'
        have hle := hlength key' arm' harm'
        rw [hsuppliers, List.length_append] at hle
        omega
      · have hle := hlength key arm harm
        rw [hsuppliers, if_pos ⟨rfl, rfl⟩, List.length_append, List.length_singleton] at hle
        exact List.length_eq_zero_iff.mp (by omega)

/-- What one turn of the first loop keeps. -/
theorem Grouped.step {done : List Loaded} {grouping grouping' : Grouping} {loaded : Loaded}
    (h : Grouped unicode artifact done grouping)
    (hadd : addResult unicode artifact keyText grouping loaded = some grouping') :
    Grouped unicode artifact (done ++ [loaded]) grouping' := by
  obtain ⟨resets, hresets, ⟨arm, harm, key, hin, rfl⟩ | ⟨hnone, rfl⟩⟩ := addResult_cases hadd
  · exact h.put hresets harm hin _
  · exact h.skip hresets hnone

theorem grouped_empty : Grouped unicode artifact [] ⟨.empty, []⟩ := by
  refine ⟨fun _ _ _ => rfl, ?_, ?_, ?_⟩
  · intro key group hget
    cases hget
  · intro key
    simp [Dict.keys, Dict.empty, suppliers]
  · simp [suppliers]

/-- What the first loop makes of the results. -/
theorem grouped_of_foldlM {loaded done : List Loaded} {grouping grouping' : Grouping}
    (h : Grouped unicode artifact done grouping)
    (hfold : loaded.foldlM (addResult unicode artifact keyText) grouping = some grouping') :
    Grouped unicode artifact (done ++ loaded) grouping' := by
  induction loaded generalizing done grouping with
  | nil =>
    cases hfold
    rw [List.append_nil]
    exact h
  | cons l loaded ih =>
    rw [List.foldlM_cons] at hfold
    obtain ⟨next, hnext, hrest⟩ := Option.bind_eq_some_iff.mp hfold
    have hstep := ih (h.step hnext) hrest
    rw [List.append_assoc] at hstep
    exact hstep

/-! ## The comparisons -/

/-- The key of the group of a comparison. -/
def Comparison.key (item : Comparison) : GroupKey := [item.mode, item.concurrency, item.repetition]

theorem compare_key {key : GroupKey} {direct off on : ResultFields} {item : Comparison}
    (h : compare key direct off on = some item) : item.key = key := by
  obtain ⟨rows, -, hrest⟩ := Option.bind_eq_some_iff.mp h
  split at hrest
  · cases hrest
    rfl
  · cases hrest

/-- A group, and its comparison. -/
def Made (groups : Dict GroupKey Group) (key : GroupKey) (item : Comparison) : Prop :=
  ∃ group direct off on, groups.get? key = some group ∧ comparisonErrors group = some [] ∧
    HasArms group direct off on ∧ compare key direct off on = some item

/-- What the second loop does with a group. -/
theorem addComparison_cases {groups : Dict GroupKey Group}
    {report report' : List Comparison × List String}
    {key : GroupKey} (h : addComparison keyText groups report key = some report') :
    ∃ group messages, groups.get? key = some group ∧ comparisonErrors group = some messages ∧
      ((messages = [] ∧ ∃ item, Made groups key item ∧ report' = (report.1 ++ [item], report.2)) ∨
        (messages ≠ [] ∧ report' = (report.1,
          report.2 ++ messages.map fun message => keyText key ++ ": " ++ message))) := by
  obtain ⟨group, hgroup, h⟩ := Option.bind_eq_some_iff.mp h
  obtain ⟨messages, hmessages, h⟩ := Option.bind_eq_some_iff.mp h
  refine ⟨group, messages, hgroup, hmessages, ?_⟩
  split at h
  · next hnil =>
    subst hnil
    obtain ⟨direct, hdirect, h⟩ := Option.bind_eq_some_iff.mp h
    obtain ⟨off, hoff, h⟩ := Option.bind_eq_some_iff.mp h
    obtain ⟨on, hon, h⟩ := Option.bind_eq_some_iff.mp h
    obtain ⟨item, hitem, h⟩ := Option.bind_eq_some_iff.mp h
    exact .inl ⟨rfl, item, ⟨group, direct, off, on, hgroup, hmessages, ⟨hdirect, hoff, hon⟩, hitem⟩,
      (Option.some.inj h).symm⟩
  · next hne => exact .inr ⟨hne, (Option.some.inj h).symm⟩

theorem Made.unique {groups : Dict GroupKey Group} {key : GroupKey} {item item' : Comparison}
    (h : Made groups key item) (h' : Made groups key item') : item = item' := by
  obtain ⟨group, direct, off, on, hgroup, -, harms, hcompare⟩ := h
  obtain ⟨group', direct', off', on', hgroup', -, harms', hcompare'⟩ := h'
  have hsame : group = group' := Option.some.inj (hgroup.symm.trans hgroup')
  subst hsame
  have hdirect : direct = direct' := Option.some.inj (harms.1.symm.trans harms'.1)
  have hoff : off = off' := Option.some.inj (harms.2.1.symm.trans harms'.2.1)
  have hon : on = on' := Option.some.inj (harms.2.2.symm.trans harms'.2.2)
  subst hdirect hoff hon
  exact Option.some.inj (hcompare.symm.trans hcompare')

/-- Nothing is wrong with a group. -/
def Accepted (groups : Dict GroupKey Group) (key : GroupKey) : Prop :=
  ∃ group, groups.get? key = some group ∧ comparisonErrors group = some []

/-- What the second loop makes of the groups. -/
theorem foldlM_addComparison {groups : Dict GroupKey Group} {keys : List GroupKey}
    {report report' : List Comparison × List String}
    (h : keys.foldlM (addComparison keyText groups) report = some report') :
    ∃ made, report'.1 = report.1 ++ made ∧
      (∀ item, item ∈ made ↔ ∃ key ∈ keys, Made groups key item) ∧
      (made.map Comparison.key).Sublist keys ∧
      (report'.2 = [] ↔ report.2 = [] ∧ ∀ key ∈ keys, Accepted groups key) ∧
      ∀ key ∈ keys, Accepted groups key → ∃ item ∈ made, item.key = key := by
  induction keys generalizing report with
  | nil =>
    cases h
    exact ⟨[], by simp, by simp, by simp, by simp, by simp⟩
  | cons key keys ih =>
    rw [List.foldlM_cons] at h
    obtain ⟨next, hnext, hrest⟩ := Option.bind_eq_some_iff.mp h
    obtain ⟨made, hreport, hmade, hsublist, herrors, haccepted⟩ := ih hrest
    obtain ⟨group, messages, hgroup, hmessages, ⟨hnil, item, hitem, rfl⟩ | ⟨hne, rfl⟩⟩ :=
      addComparison_cases hnext
    · subst hnil
      have hkey : item.key = key := by
        obtain ⟨_, _, _, _, -, -, -, hcompare⟩ := hitem
        exact compare_key hcompare
      refine ⟨item :: made, by rw [hreport]; simp, ?_, ?_, ?_, ?_⟩
      · intro item'
        rw [List.mem_cons, hmade, List.exists_mem_cons_iff]
        constructor
        · rintro (rfl | hlater)
          · exact .inl hitem
          · exact .inr hlater
        · rintro (hfirst | hlater)
          · exact .inl (hfirst.unique hitem)
          · exact .inr hlater
      · rw [List.map_cons, hkey]
        exact hsublist.cons_cons key
      · rw [herrors, List.forall_mem_cons]
        have hfirst : Accepted groups key := ⟨group, hgroup, hmessages⟩
        simp only [hfirst, true_and]
      · intro key' hkey' haccept
        rcases List.mem_cons.mp hkey' with rfl | hlater
        · exact ⟨item, List.mem_cons_self .., hkey⟩
        · obtain ⟨item', hitem', hsame⟩ := haccepted key' hlater haccept
          exact ⟨item', List.mem_cons_of_mem _ hitem', hsame⟩
    · have hrefused : ¬Accepted groups key := by
        intro haccept
        obtain ⟨group', hgroup', hmessages'⟩ := haccept
        have hsame : group = group' := Option.some.inj (hgroup.symm.trans hgroup')
        subst hsame
        exact hne (Option.some.inj (hmessages.symm.trans hmessages'))
      have hnot : ∀ item, ¬Made groups key item := by
        intro item hitem
        obtain ⟨group', _, _, _, hgroup', hmessages', -, -⟩ := hitem
        exact hrefused ⟨group', hgroup', hmessages'⟩
      refine ⟨made, hreport, ?_, hsublist.cons key, ?_, ?_⟩
      · intro item
        rw [hmade, List.exists_mem_cons_iff]
        simp only [hnot item, false_or]
      · have hmore :
            report.2 ++ messages.map (fun message => keyText key ++ ": " ++ message) ≠ [] := by
          simp [hne]
        rw [herrors, List.forall_mem_cons]
        constructor
        · exact fun hboth => absurd hboth.1 hmore
        · exact fun hboth => absurd hboth.2.1 hrefused
      · intro key' hkey' haccept
        rcases List.mem_cons.mp hkey' with rfl | hlater
        · exact absurd haccept hrefused
        · exact haccepted key' hlater haccept

/-- The last results of the three arms of a group. -/
def LatestArms (loaded : List Loaded) (key : GroupKey) (direct off on : ResultFields) : Prop :=
  latest loaded key "direct" = some direct ∧ latest loaded key "gateway_no_batch" = some off ∧
    latest loaded key "gateway_batch" = some on

theorem Grouped.hasArms_iff {loaded : List Loaded} {grouping : Grouping}
    (h : Grouped unicode artifact loaded grouping) {key : GroupKey} {direct off on : ResultFields} :
    (∃ group, grouping.groups.get? key = some group ∧ HasArms group direct off on) ↔
      LatestArms loaded key direct off on := by
  have hdirect := h.latest key "direct" (by simp [Comparisons.arms])
  have hoff := h.latest key "gateway_no_batch" (by simp [Comparisons.arms])
  have hon := h.latest key "gateway_batch" (by simp [Comparisons.arms])
  unfold LatestArms
  rw [← hdirect, ← hoff, ← hon]
  cases grouping.groups.get? key with
  | none => simp
  | some group => simp [HasArms]

/-- A comparison is made of the last results of a group, when these may be compared. -/
theorem Grouped.made_iff {loaded : List Loaded} {grouping : Grouping}
    (h : Grouped unicode artifact loaded grouping) {key : GroupKey} {item : Comparison} :
    Made grouping.groups key item ↔ ∃ direct off on, LatestArms loaded key direct off on ∧
      Comparable direct off on ∧ compare key direct off on = some item := by
  constructor
  · intro hmade
    obtain ⟨group, direct, off, on, hgroup, hmessages, harms, hcompare⟩ := hmade
    obtain ⟨direct', off', on', harms', hcomparable⟩ :=
      (comparisonErrors_nil_iff (h.arms key group hgroup)).mp hmessages
    obtain rfl : direct = direct' := Option.some.inj (harms.1.symm.trans harms'.1)
    obtain rfl : off = off' := Option.some.inj (harms.2.1.symm.trans harms'.2.1)
    obtain rfl : on = on' := Option.some.inj (harms.2.2.symm.trans harms'.2.2)
    exact ⟨direct, off, on, h.hasArms_iff.mp ⟨group, hgroup, harms⟩, hcomparable, hcompare⟩
  · intro hex
    obtain ⟨direct, off, on, hlatest, hcomparable, hcompare⟩ := hex
    obtain ⟨group, hgroup, harms⟩ := h.hasArms_iff.mpr hlatest
    exact ⟨group, direct, off, on, hgroup,
      (comparisonErrors_nil_iff (h.arms key group hgroup)).mpr
        ⟨direct, off, on, harms, hcomparable⟩,
      harms, hcompare⟩

/-- The loops of `build_comparisons`. -/
theorem loops_of_build {loaded : List Loaded} {items : List Comparison} {errors : List String}
    (h : buildComparisons unicode artifact keyText loaded = some (items, errors)) :
    ∃ grouping keys, Grouped unicode artifact loaded grouping ∧
      Scalar.sortTuples grouping.groups.keys = some keys ∧
      keys.foldlM (addComparison keyText grouping.groups) ([], grouping.errors) =
        some (items, errors) := by
  obtain ⟨grouping, hfold, h⟩ := Option.bind_eq_some_iff.mp h
  obtain ⟨keys, hkeys, h⟩ := Option.bind_eq_some_iff.mp h
  exact ⟨grouping, keys, grouped_of_foldlM grouped_empty hfold, hkeys, h⟩

/-- The comparisons are those of the last results of the groups, one for each group whose last
results may be compared, in the order of the groups. -/
theorem comparisons_of_latest {loaded : List Loaded} {items : List Comparison}
    {errors : List String}
    (h : buildComparisons unicode artifact keyText loaded = some (items, errors)) :
    (items.map Comparison.key).Pairwise (· < ·) ∧
      ∀ item, item ∈ items ↔ ∃ direct off on, LatestArms loaded item.key direct off on ∧
        Comparable direct off on ∧ compare item.key direct off on = some item := by
  obtain ⟨grouping, keys, hgrouped, hkeys, hfold⟩ := loops_of_build h
  obtain ⟨made, hitems, hmade, hsublist, -, -⟩ := foldlM_addComparison hfold
  have hsame : items = made := hitems
  subst hsame
  refine ⟨(Scalar.sortTuples_sorted grouping.groups.nodup hkeys).sublist hsublist, ?_⟩
  intro item
  rw [hmade, ← hgrouped.made_iff]
  constructor
  · intro hex
    obtain ⟨key, -, hitem⟩ := hex
    have hkey : item.key = key := by
      obtain ⟨_, _, _, _, -, -, -, hcompare⟩ := hitem
      exact compare_key hcompare
    rw [hkey]
    exact hitem
  · intro hitem
    refine ⟨item.key, (Scalar.sortTuples_perm hkeys).mem_iff.mpr ?_, hitem⟩
    obtain ⟨group, _, _, _, hgroup, -⟩ := hitem
    exact Dict.mem_keys.mpr ⟨group, hgroup⟩

/-! ## When nothing is reported -/

/-- The only results of the three arms of a group. -/
def OnlyArms (loaded : List Loaded) (key : GroupKey) (direct off on : Loaded) : Prop :=
  suppliers loaded key "direct" = [direct] ∧ suppliers loaded key "gateway_no_batch" = [off] ∧
    suppliers loaded key "gateway_batch" = [on]

/-- Some arm of a group has a result. -/
def HasGroup (loaded : List Loaded) (key : GroupKey) : Prop :=
  ∃ arm ∈ arms, suppliers loaded key arm ≠ []

theorem only_of_latest {loaded : List Loaded} {key : GroupKey} {arm : String}
    {result : ResultFields}
    (hlength : (suppliers loaded key arm).length ≤ 1) (h : latest loaded key arm = some result) :
    ∃ l, suppliers loaded key arm = [l] ∧ l.result = result := by
  obtain ⟨l, hlast, hresult⟩ := Option.map_eq_some_iff.mp h
  have hne : suppliers loaded key arm ≠ [] := by
    intro hnil
    rw [hnil] at hlast
    cases hlast
  have hone : (suppliers loaded key arm).length = 1 := by
    have hpos := List.length_pos_iff.mpr hne
    omega
  obtain ⟨l', hl'⟩ := List.length_eq_one_iff.mp hone
  rw [hl'] at hlast
  obtain rfl : l' = l := Option.some.inj hlast
  exact ⟨l', hl', hresult⟩

theorem OnlyArms.latest {loaded : List Loaded} {key : GroupKey} {direct off on : Loaded}
    (h : OnlyArms loaded key direct off on) :
    LatestArms loaded key direct.result off.result on.result := by
  refine ⟨?_, ?_, ?_⟩
  · rw [Comparisons.latest, h.1]
    rfl
  · rw [Comparisons.latest, h.2.1]
    rfl
  · rw [Comparisons.latest, h.2.2]
    rfl

theorem OnlyArms.length {loaded : List Loaded} {key : GroupKey} {direct off on : Loaded}
    (h : OnlyArms loaded key direct off on) :
    ∀ arm ∈ arms, (suppliers loaded key arm).length ≤ 1 := by
  intro arm harm
  have hcases : arm = "direct" ∨ arm = "gateway_no_batch" ∨ arm = "gateway_batch" := by
    simpa [arms] using harm
  rcases hcases with rfl | rfl | rfl
  · simp [h.1]
  · simp [h.2.1]
  · simp [h.2.2]

/-- Every group has one result of each arm, and these may be compared. -/
def AllComparable (loaded : List Loaded) : Prop :=
  ∀ key, HasGroup loaded key → ∃ direct off on, OnlyArms loaded key direct off on ∧
    Comparable direct.result off.result on.result

/-- Nothing is reported just when no counter went down and every group is comparable. -/
theorem errors_nil_iff {loaded : List Loaded} {items : List Comparison} {errors : List String}
    (h : buildComparisons unicode artifact keyText loaded = some (items, errors)) :
    errors = [] ↔ (∀ l ∈ loaded, Steady unicode artifact l) ∧ AllComparable loaded := by
  obtain ⟨grouping, keys, hgrouped, hkeys, hfold⟩ := loops_of_build h
  obtain ⟨-, -, -, -, herrors, -⟩ := foldlM_addComparison hfold
  have hmem : ∀ key, key ∈ keys ↔ HasGroup loaded key := by
    intro key
    rw [(Scalar.sortTuples_perm hkeys).mem_iff]
    exact hgrouped.keys key
  show (items, errors).2 = [] ↔ _
  rw [herrors]
  show grouping.errors = [] ∧ _ ↔ _
  rw [hgrouped.errors]
  constructor
  · intro hboth
    obtain ⟨⟨hsteady, hlength⟩, hcompared⟩ := hboth
    refine ⟨hsteady, ?_⟩
    intro key hgroup
    obtain ⟨group, hget, hmessages⟩ := hcompared key ((hmem key).mpr hgroup)
    obtain ⟨direct, off, on, harms, hcomparable⟩ :=
      (comparisonErrors_nil_iff (hgrouped.arms key group hget)).mp hmessages
    obtain ⟨hdirect, hoff, hon⟩ := hgrouped.hasArms_iff.mp ⟨group, hget, harms⟩
    obtain ⟨l, hl, rfl⟩ := only_of_latest (hlength key "direct" (by simp [arms])) hdirect
    obtain ⟨l', hl', rfl⟩ := only_of_latest (hlength key "gateway_no_batch" (by simp [arms])) hoff
    obtain ⟨l'', hl'', rfl⟩ := only_of_latest (hlength key "gateway_batch" (by simp [arms])) hon
    exact ⟨l, l', l'', ⟨hl, hl', hl''⟩, hcomparable⟩
  · intro hboth
    obtain ⟨hsteady, hall⟩ := hboth
    refine ⟨⟨hsteady, ?_⟩, ?_⟩
    · intro key arm harm
      by_cases hnil : suppliers loaded key arm = []
      · simp [hnil]
      · obtain ⟨direct, off, on, honly, -⟩ := hall key ⟨arm, harm, hnil⟩
        exact honly.length arm harm
    · intro key hkey
      obtain ⟨direct, off, on, honly, hcomparable⟩ := hall key ((hmem key).mp hkey)
      obtain ⟨group, hget, harms⟩ := hgrouped.hasArms_iff.mpr honly.latest
      exact ⟨group, hget, (comparisonErrors_nil_iff (hgrouped.arms key group hget)).mpr
        ⟨_, _, _, harms, hcomparable⟩⟩

/-- When nothing is reported, every group has its comparison. -/
theorem compared_of_errors_nil {loaded : List Loaded} {items : List Comparison}
    (h : buildComparisons unicode artifact keyText loaded = some (items, [])) (key : GroupKey) :
    HasGroup loaded key ↔ ∃ item ∈ items, item.key = key := by
  obtain ⟨grouping, keys, hgrouped, hkeys, hfold⟩ := loops_of_build h
  obtain ⟨made, hitems, hmade, hsublist, herrors, haccepted⟩ := foldlM_addComparison hfold
  have hsame : items = made := hitems
  subst hsame
  have hmem : key ∈ keys ↔ HasGroup loaded key := by
    rw [(Scalar.sortTuples_perm hkeys).mem_iff]
    exact hgrouped.keys key
  rw [← hmem]
  constructor
  · intro hkey
    exact haccepted key hkey ((herrors.mp rfl).2 key hkey)
  · intro hex
    obtain ⟨item, hitem, rfl⟩ := hex
    exact hsublist.subset (List.mem_map_of_mem hitem)

variable {inner : Json → Text}

/-- The results that `main` reads. -/
def resultsOf (sources : List Source) : List Loaded :=
  sources.flatMap fun source => (loadedOf source).getD []

theorem flatten_mapM_loadedOf {sources : List Source} {loaded : List (List Loaded)}
    (h : sources.mapM loadedOf = some loaded) : loaded.flatten = resultsOf sources := by
  induction sources generalizing loaded with
  | nil =>
    cases h
    rfl
  | cons source sources ih =>
    simp only [List.mapM_cons, bind, Option.bind_eq_some_iff, pure,
      Option.some.injEq] at h
    obtain ⟨first, hfirst, rest, hrest, rfl⟩ := h
    rw [List.flatten_cons, ih hrest, resultsOf, resultsOf, List.flatMap_cons, hfirst]
    rfl

/-- A file with a valid result. -/
def ValidSource (inner : Json → Text) (source : Source) : Prop :=
  ∃ result, source.2 = .ok result ∧ validate inner result = some []

theorem sourceErrors_nil_iff {source : Source} :
    sourceErrors inner source = some [] ↔ ValidSource inner source := by
  obtain ⟨path, contents⟩ := source
  cases contents with
  | error message => simp [sourceErrors, ValidSource]
  | ok result => simp [sourceErrors, ValidSource]

/-- The parts of a report. -/
theorem parts_of_main {sources : List Source} {report : Report}
    (h : main inner unicode artifact keyText sources = some report) :
    ∃ validation errors, sources.mapM (sourceErrors inner) = some validation ∧
      buildComparisons unicode artifact keyText (resultsOf sources) =
        some (report.perRepeat, errors) ∧
      aggregateComparisons report.perRepeat = some report.aggregated ∧
      report.errors = validation.flatten ++ errors := by
  obtain ⟨validation, hvalidation, h⟩ := Option.bind_eq_some_iff.mp h
  obtain ⟨loaded, hloaded, h⟩ := Option.bind_eq_some_iff.mp h
  obtain ⟨rows, -, h⟩ := Option.bind_eq_some_iff.mp h
  obtain ⟨⟨items, errors⟩, hbuild, h⟩ := Option.bind_eq_some_iff.mp h
  obtain ⟨aggregated, haggregated, h⟩ := Option.bind_eq_some_iff.mp h
  obtain ⟨deltas, -, h⟩ := Option.bind_eq_some_iff.mp h
  cases h
  rw [flatten_mapM_loadedOf hloaded] at hbuild
  exact ⟨validation, errors, hvalidation, hbuild, haggregated, rfl⟩

/-- The result of one request. -/
def sampleResult (label batching : String) (latency throughput : Int) : Json :=
  .obj [
    ("schema_version", .int 1),
    ("metadata", .obj [("run_id", .str label), ("timestamp_utc", .str ""), ("label", .str label),
      ("repeat", .int 1), ("execution_order", .int 1)]),
    ("configuration", .obj [("base_url", .str ""), ("endpoint", .str ""), ("model", .str "m"),
      ("mode", .str "streaming"), ("concurrency", .int 4), ("requests", .int 1), ("warmup", .int 0),
      ("timeout_seconds", .int 60), ("dataset_sha256", .str ("".pushn 'a' 64)),
      ("temperature", .int 0), ("top_p", .int 1), ("max_tokens", .int 8), ("seed", .null),
      ("n", .int 1), ("stream", .bool true), ("stream_include_usage", .bool true),
      ("batching_enabled", .str batching), ("prefix_caching", .str "false"),
      ("workload_fingerprint", .str "w"), ("gateway_config_fingerprint", .str "g"),
      ("vllm_config_fingerprint", .str "v")]),
    ("timing", .obj [("measured_start_utc", .str ""), ("measured_end_utc", .str ""),
      ("duration_seconds", .int 1)]),
    ("warmup", .obj [("attempted", .int 0), ("success", .int 0), ("failed", .int 0)]),
    ("summary", .obj [("attempted", .int 1), ("successful", .int 1), ("failed", .int 0),
      ("error_rate", .int 0), ("errors_by_category", .obj []),
      ("e2e", .obj [("p95_ms", .int latency)]), ("ttft", .obj []),
      ("request_throughput_rps", .int throughput), ("output_throughput_tps", .null),
      ("authoritative_token_coverage", .int 1)]),
    ("per_request", .arr [.obj []]),
    ("metrics", .obj []),
    ("metric_artifacts", .obj []),
    ("environment", .obj [("gateway_git_sha", .str "c0ffee")]),
    ("validity", .obj [("valid", .bool true), ("reasons", .arr [])])]

/-- One result of each arm. -/
def sampleSources : List Source :=
  [("direct.json", .ok (sampleResult "direct" "" 90 10)),
    ("off.json", .ok (sampleResult "gateway_no_batch" "false" 100 8)),
    ("on.json", .ok (sampleResult "gateway_batch" "true" 120 12))]

def sampleTables : Unicode := ⟨fun _ => none, fun _ => false, fun _ => none⟩

theorem comparisons_of_latest_sample :
    ∃ items errors, buildComparisons sampleTables (fun _ _ => none) (fun _ => "")
        (resultsOf sampleSources) = some (items, errors) ∧
      (items.map Comparison.key).Pairwise (· < ·) ∧
      ∀ item, item ∈ items ↔ ∃ direct off on,
        LatestArms (resultsOf sampleSources) item.key direct off on ∧
          Comparable direct off on ∧ compare item.key direct off on = some item := by
  have hsome : (buildComparisons sampleTables (fun _ _ => none) (fun _ => "")
      (resultsOf sampleSources)).isSome = true := by decide +kernel
  obtain ⟨⟨items, errors⟩, hbuild⟩ := Option.isSome_iff_exists.mp hsome
  exact ⟨items, errors, hbuild, comparisons_of_latest hbuild⟩

end Comparisons

end Gateway
