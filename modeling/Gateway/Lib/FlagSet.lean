import Mathlib.Data.List.Nodup
import Gateway.Lib.Text

/-!
# Flag sets of Go

`Parse` of a `flag.FlagSet` without boolean flags. A flag writes to the variables behind the set;
`none` stands for every error, and for a request for help.

## Key results

- `parse_pairs`: arguments that are flags with their values are taken one after another
- `writes_of_keeps`: one flag of a set writes a variable when the others leave it as it is
- `Writes.of_parse`: a variable that one flag writes has the value of that flag
-/

namespace FlagSet

variable {σ α : Type}

/-- A flag: its name, and what `Set` does with a text. -/
structure Flag (σ : Type) where
  name : String
  set : String → σ → Option σ

/-- What an argument is to `Parse`. -/
inductive Argument
  /-- the first argument that is no flag -/
  | positional
  /-- `--` -/
  | terminator
  | malformed
  | flag (name : Text) (value : Option Text)
deriving DecidableEq

/-- An argument, without its dashes. -/
def readName : Text → Argument
  | [] => .malformed
  | c :: t =>
    if c = '-' ∨ c = '=' then .malformed
    else
      match t.dropWhile (· ≠ '=') with
      | [] => .flag (c :: t) none
      | _ :: value => .flag (c :: t.takeWhile (· ≠ '=')) (some value)

/-- An argument. -/
def readArgument : Text → Argument
  | ['-', '-'] => .terminator
  | '-' :: '-' :: t => readName t
  | '-' :: c :: t => readName (c :: t)
  | _ => .positional

/-- `Set` of the flag with a name. -/
def setFlag (flags : List (Flag σ)) (name : Text) (value : String) (s : σ) : Option σ :=
  (flags.find? fun flag => flag.name.toList = name).bind fun flag => flag.set value s

/-- `Parse`: the variables, and the arguments that are left. -/
def parse (flags : List (Flag σ)) (s : σ) : List String → Option (σ × List String)
  | [] => some (s, [])
  | a :: arguments =>
    match readArgument a.toList with
    | .positional => some (s, a :: arguments)
    | .terminator => some (s, arguments)
    | .malformed => none
    | .flag name (some value) =>
      (setFlag flags name (String.ofList value) s).bind fun s => parse flags s arguments
    | .flag name none =>
      match arguments with
      | [] => none
      | value :: arguments => (setFlag flags name value s).bind fun s => parse flags s arguments

/-- The flags of a list of arguments and values, one after another. -/
def setPairs (flags : List (Flag σ)) (s : σ) : List (Text × String) → Option σ
  | [] => some s
  | (name, value) :: pairs => (setFlag flags name value s).bind fun s => setPairs flags s pairs

/-- Arguments that are flags, each with its value in the next argument. -/
theorem parse_pairs {flags : List (Flag σ)} (pairs : List (Text × String)) (s : σ)
    (h : ∀ p ∈ pairs, readName p.1 = .flag p.1 none) :
    parse flags s (pairs.flatMap fun p => [String.ofList ('-' :: '-' :: p.1), p.2]) =
      (setPairs flags s pairs).map fun s => (s, []) := by
  induction pairs generalizing s with
  | nil => rfl
  | cons p pairs ih =>
    obtain ⟨name, value⟩ := p
    have hname : readName name = .flag name none := h (name, value) (List.mem_cons_self ..)
    have hargument : readArgument ('-' :: '-' :: name) = .flag name none := by
      cases name with
      | nil => cases hname
      | cons c t => exact hname
    simp only [List.flatMap_cons, List.cons_append, List.nil_append, parse, String.toList_ofList,
      hargument, setPairs]
    cases setFlag flags name value s with
    | none => rfl
    | some s' => exact ih s' fun p hp => h p (List.mem_cons_of_mem _ hp)

/-! ## The variable behind a flag -/

/-- A variable that one flag of a set writes, and how it reads its text. -/
structure Writes (flags : List (Flag σ)) (get : σ → α) (name : Text) (read : String → Option α) :
    Prop where
  written : ∀ {value s s'}, setFlag flags name value s = some s' → read value = some (get s')
  kept : ∀ {name' value s s'}, name' ≠ name → setFlag flags name' value s = some s' →
    get s' = get s

variable {flags : List (Flag σ)} {get : σ → α} {name : Text} {read : String → Option α}

theorem Writes.of_not_mem (h : Writes flags get name read) {pairs : List (Text × String)}
    (hmem : name ∉ pairs.map Prod.fst) {s s' : σ} (hset : setPairs flags s pairs = some s') :
    get s' = get s := by
  induction pairs generalizing s with
  | nil =>
    rw [← Option.some.inj hset]
  | cons p pairs ih =>
    rw [List.map_cons, List.mem_cons, not_or] at hmem
    obtain ⟨s₁, hfirst, hrest⟩ := Option.bind_eq_some_iff.mp hset
    rw [ih hmem.2 hrest]
    exact h.kept (Ne.symm hmem.1) hfirst

theorem Writes.of_mem (h : Writes flags get name read) {pairs : List (Text × String)}
    {value : String} (hnodup : (pairs.map Prod.fst).Nodup) (hmem : (name, value) ∈ pairs)
    {s s' : σ} (hset : setPairs flags s pairs = some s') : read value = some (get s') := by
  induction pairs generalizing s with
  | nil => cases hmem
  | cons p pairs ih =>
    rw [List.map_cons, List.nodup_cons] at hnodup
    obtain ⟨s₁, hfirst, hrest⟩ := Option.bind_eq_some_iff.mp hset
    rcases List.mem_cons.mp hmem with rfl | hmem
    · rw [h.of_not_mem hnodup.1 hrest]
      exact h.written hfirst
    · exact ih hnodup.2 hmem hrest

/-- A flag leaves a variable as it is, unless it has the name. -/
def Flag.Keeps (flag : Flag σ) (get : σ → α) (name : String) : Prop :=
  flag.name ≠ name → ∀ value s s', flag.set value s = some s' → get s' = get s

/-- The variable of a flag of the set is written by this flag alone. -/
theorem writes_of_keeps {flag : Flag σ} (hnodup : (flags.map Flag.name).Nodup)
    (hmem : flag ∈ flags)
    (hread : ∀ value s s', flag.set value s = some s' → read value = some (get s'))
    (hkeeps : ∀ f ∈ flags, f.Keeps get flag.name) : Writes flags get flag.name.toList read where
  written := by
    intro value s s' hset
    obtain ⟨f, hfind, hf⟩ := Option.bind_eq_some_iff.mp hset
    have hname : f.name.toList = flag.name.toList := by
      simpa using List.find?_some hfind
    have hsame : f = flag :=
      List.inj_on_of_nodup_map hnodup (List.mem_of_find?_eq_some hfind) hmem
        (String.toList_inj.mp hname)
    exact hread value s s' (hsame ▸ hf)
  kept := by
    intro name' value s s' hne hset
    obtain ⟨f, hfind, hf⟩ := Option.bind_eq_some_iff.mp hset
    have hname : f.name.toList = name' := by
      simpa using List.find?_some hfind
    refine hkeeps f (List.mem_of_find?_eq_some hfind) ?_ value s s' hf
    intro hsame
    exact hne (by rw [← hname, hsame])

/-- The arguments of a list of flags with their values. -/
def arguments (pairs : List (String × String)) : List String :=
  pairs.flatMap fun p => ["--" ++ p.1, p.2]

/-- A name that stands alone in an argument. -/
def Plain (name : String) : Prop := readName name.toList = .flag name.toList none

instance (name : String) : Decidable (Plain name) := inferInstanceAs (Decidable (_ = _))

/-- What `Parse` makes of flags with their values. -/
theorem setPairs_of_parse {pairs : List (String × String)} (hplain : ∀ p ∈ pairs, Plain p.1)
    {s s' : σ} {rest : List String} (h : parse flags s (arguments pairs) = some (s', rest)) :
    rest = [] ∧ setPairs flags s (pairs.map fun p => (p.1.toList, p.2)) = some s' := by
  have hsame : arguments pairs = (pairs.map fun p => (p.1.toList, p.2)).flatMap
      fun p => [String.ofList ('-' :: '-' :: p.1), p.2] := by
    have hdashes : ∀ name : String, "--" ++ name = String.ofList ('-' :: '-' :: name.toList) := by
      intro name
      simp [← String.toList_inj, String.toList_append]
    rw [arguments, List.flatMap_map]
    simp only [hdashes]
  rw [hsame, parse_pairs _ s] at h
  · obtain ⟨t, ht, hpair⟩ := Option.map_eq_some_iff.mp h
    obtain ⟨rfl, rfl⟩ := Prod.mk.inj hpair
    exact ⟨rfl, ht⟩
  · intro p hp
    obtain ⟨q, hq, rfl⟩ := List.mem_map.mp hp
    exact hplain q hq

/-- A flag that is given determines its variable. -/
theorem Writes.of_parse {name : String} (h : Writes flags get name.toList read)
    {pairs : List (String × String)} (hplain : ∀ p ∈ pairs, Plain p.1)
    (hnodup : (pairs.map Prod.fst).Nodup) {value : String} (hmem : (name, value) ∈ pairs)
    {s s' : σ} {rest : List String} (hparse : parse flags s (arguments pairs) = some (s', rest)) :
    read value = some (get s') := by
  have hset := (setPairs_of_parse hplain hparse).2
  refine h.of_mem ?_ (List.mem_map.mpr ⟨_, hmem, rfl⟩) hset
  rw [List.map_map]
  show (pairs.map (String.toList ∘ Prod.fst)).Nodup
  rw [← List.map_map]
  exact List.Nodup.map (fun _ _ h => String.toList_inj.mp h) hnodup

end FlagSet
