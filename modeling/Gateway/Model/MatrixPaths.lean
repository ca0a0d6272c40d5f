import Gateway.Lib.PurePath
import Gateway.Model.RunMatrix

/-!
# Where the matrix runner puts its results

Of `benchmark/scripts/run_matrix.py`: what `load_config` accepts, the choice of the matrix ID,
and the output paths that `run_matrix` computes, in the order of its loops and up to the first
exception. `none` stands for an exception.

The environment variables (`expandvars`) and the clock (`now`) are parameters. The delay
between runs and what executing a run raises are left out.
-/

namespace Gateway.RunMatrix

open ValidateResult (get)

/-! ## Configurations -/

mutual

/-- `expand` -/
def expand (expandvars : String → String) : Json → Option Json
  | .str s =>
    if ['$', '\x7b'] <:+: (expandvars s).toList then none else some (.str (expandvars s))
  | .arr xs => (expandItems expandvars xs).map .arr
  | .obj fields => (expandFields expandvars fields).map .obj
  | value => some value

/-- `expand` of the items of a list. -/
def expandItems (expandvars : String → String) : List Json → Option (List Json)
  | [] => some []
  | x :: xs => do
    let x' ← expand expandvars x
    let xs' ← expandItems expandvars xs
    return x' :: xs'

/-- `expand` of the values of a dictionary. -/
def expandFields (expandvars : String → String) : Fields → Option Fields
  | [] => some []
  | (key, value) :: fields => do
    let value' ← expand expandvars value
    let fields' ← expandFields expandvars fields
    return (key, value') :: fields'

end

/-- A value that `set` takes. -/
def hashable : Json → Bool
  | .arr _ | .obj _ => false
  | _ => true

section

variable (inner : Json → Text) (unicode : Unicode)

/-- `validate_admission` -/
def validateAdmission (target : Fields) : Option Unit := do
  if str inner (get target "batching_enabled" (.str "not_applicable")) ≠ "true" then some ()
  else
    let size ← (get target "batch_max_size" (.int 0)).toInt unicode
    let tenant ← (get target "tenant_max_inflight" (.int 0)).toInt unicode
    let globalLimit ← (get target "global_max_inflight" (.int 0)).toInt unicode
    if size < 2 ∨ tenant < size ∨ globalLimit < size then none else some ()

/-- `load_config`, of the JSON value of the file. -/
def loadConfig (expandvars : String → String) (value : Json) : Option Fields := do
  let config ← asDict (← expand expandvars value)
  guard (Json.pyEq (get config "schema_version" .null) (.int 1))
  guard (["concurrency", "dataset", "model", "repetitions", "targets"].all
    fun field => (item config field).isSome)
  let targets ← iterate (← item config "targets")
  let targets ← targets.mapM asDict
  let labels := targets.map fun target => get target "label" .null
  guard (labels.all hashable)
  guard (labels.Pairwise fun label label' => Json.pyEq label label' = false)
  guard (labels.all Json.truthy)
  targets.forM (validateAdmission inner unicode)
  return config

end

/-- `[A-Za-z0-9._-]` -/
def isMatrixIdChar (c : Char) : Bool :=
  Text.isLetter c || Text.isDigit c || c = '.' || c = '_' || c = '-'

/-- `resolve_matrix_id`; `now` is the time that is the ID by default. -/
def resolveMatrixId (configId : Json) (cliId : Option String) (resume : Bool) (now : String) :
    Option String := do
  guard (cliId = none ∨ configId = .null ∨ cliId.map Json.str = some configId)
  let matrixId := (cliId.map Json.str).getD configId
  if matrixId = .null ∧ resume then none
  else
    match if matrixId = .null then Json.str now else matrixId with
    | .str name =>
      if name ≠ "" ∧ name.toList.all isMatrixIdChar ∧ ¬"..".toList <:+: name.toList ∧ name ≠ "."
      then some name else none
    | _ => none

/-! ## Output paths -/

/-- `output_root / matrix_id / mode / f"c{concurrency}" / f"repeat-{repeat}"` -/
def repeatDirectory (outputRoot : PurePath) (matrixId mode : String) (concurrency : String)
    (repeatIndex : Nat) : PurePath :=
  (((outputRoot.join matrixId.toList).join mode.toList).join ('c' :: concurrency.toList)).join
    ("repeat-".toList ++ Json.encodeInt repeatIndex)

/-- The name of the result. -/
def resultName : Text := "client-result.json".toList

/-- `output`; a label that is not a string cannot be joined. -/
def resultPath (outputRoot : PurePath) (matrixId mode concurrency : String) (repeatIndex : Nat) :
    Json → Option PurePath
  | .str label =>
    some (((repeatDirectory outputRoot matrixId mode concurrency repeatIndex).join label.toList).join
      resultName)
  | _ => none

/-- The surroundings of a runner that writes below `outputRoot`. -/
def Surroundings.withOutputRoot (env : Surroundings) (outputRoot : PurePath) : Surroundings :=
  { env with
    outputPath := fun matrixId mode concurrency repeatIndex label =>
      (resultPath outputRoot matrixId mode concurrency repeatIndex label).map fun path =>
        String.ofList path.toText }

/-- A point of the loops of `run_matrix`; `position` is that of the concurrency in its list. -/
structure MatrixPoint where
  mode : Json
  position : Nat
  concurrency : Json
  repeatIndex : Nat
  order : Nat
  target : Json
deriving DecidableEq

/-- The points in the order of the loops. -/
def matrixPoints (modes concurrencies : List Json) (repetitions : Nat) (targets : List Json) :
    List MatrixPoint :=
  modes.flatMap fun mode => concurrencies.zipIdx.flatMap fun concurrency =>
    (List.range' 1 repetitions).flatMap fun repeatIndex =>
      ((rotated targets repeatIndex).zipIdx 1).map fun target =>
        ⟨mode, concurrency.2, concurrency.1, repeatIndex, target.2, target.1⟩

section

variable (inner : Json → Text) (unicode : Unicode) (env : Surroundings) (outputRoot : PurePath)
  (config : Fields) (matrixId : String)

/-- The body of the loops up to the output path. -/
def pointPath (point : MatrixPoint) : Option PurePath := do
  let mode ← modeName point.mode
  let target ← asDict point.target
  let label ← item target "label"
  let count ← point.concurrency.toInt unicode
  let _ ← requestsFor unicode config count
  resultPath outputRoot matrixId mode (str inner point.concurrency) point.repeatIndex label

/-- The body of the loops up to the decision whether to execute. -/
def planPoint (point : MatrixPoint) : Option PlannedRun := do
  let mode ← modeName point.mode
  let target ← asDict point.target
  planRun inner unicode (env.withOutputRoot outputRoot) config matrixId mode point.concurrency
    point.repeatIndex point.order target

/-- The output paths of the points, up to the first one whose planning raises. -/
def computedPaths : List MatrixPoint → List (MatrixPoint × PurePath)
  | [] => []
  | point :: points =>
    match pointPath inner unicode outputRoot config matrixId point with
    | none => []
    | some path =>
      (point, path) ::
        if (planPoint inner unicode env outputRoot config matrixId point).isSome then
          computedPaths points
        else []

/-- The output paths that `run_matrix` computes. -/
def runPaths (selected : Json → Bool) : Option (List (MatrixPoint × PurePath)) := do
  let targets ← selectTargets config selected
  if targets = [] then none
  let modes ← iterate (get config "modes" (.arr [.str "non_streaming"]))
  let concurrencies ← iterate (← item config "concurrency")
  let repetitions ← (← item config "repetitions").toInt unicode
  return computedPaths inner unicode env outputRoot config matrixId
    (matrixPoints modes concurrencies repetitions.toNat targets)

end

end Gateway.RunMatrix
