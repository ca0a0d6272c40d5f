import Mathlib.Algebra.Ring.Rat
import Mathlib.Data.Char
import Mathlib.Data.List.Lex
import Mathlib.Data.List.Sort
import Gateway.Lib.Dict
import Gateway.Lib.Text

/-!
# Prometheus snapshots of the harness

`Parse`, `CounterDelta` and what they call, of `benchmark/internal/metrics/prometheus.go`.
`strconv.ParseFloat` is the parameter `parseFloat`, with `none` for its errors. Values are
numbers of some type `ν`. The limit of the scanner on the length of a line is left out, and
so are the histogram estimates.
-/

namespace Gateway

namespace Prometheus

/-- `unicode.IsSpace`. -/
def isSpace (c : Char) : Bool :=
  (9 ≤ c.toNat && c.toNat ≤ 13) || c.toNat = 0x20 || c.toNat = 0x85 || c.toNat = 0xa0 ||
    c.toNat = 0x1680 || (0x2000 ≤ c.toNat && c.toNat ≤ 0x200a) || c.toNat = 0x2028 ||
    c.toNat = 0x2029 || c.toNat = 0x202f || c.toNat = 0x205f || c.toNat = 0x3000

/-- A space or a tab. -/
def isBlank (c : Char) : Bool := c = ' ' || c = '\t'

/-- The errors of `Parse`. -/
inductive ParseError
  | invalidSample
  | missingValue
  | invalidValue
  | invalidLabels
  | invalidLabel
  | invalidLabelEscape
deriving DecidableEq, Repr

/-- The text of an error; `invalidValue` is followed by the error of `strconv`. -/
def ParseError.text : ParseError → String
  | .invalidSample => "invalid Prometheus sample"
  | .missingValue => "missing Prometheus sample value"
  | .invalidValue => "invalid Prometheus value"
  | .invalidLabels => "invalid Prometheus labels"
  | .invalidLabel => "invalid Prometheus label"
  | .invalidLabelEscape => "invalid Prometheus label escape"

/-- `Series`. -/
structure Series (ν : Type) where
  name : Text
  labels : Dict Text Text
  value : ν

/-- `key`. -/
def key (name : Text) (labels : Dict Text Text) : Text :=
  name ++ (labels.keys.insertionSort (· ≤ ·)).flatMap fun label =>
    '|' :: label ++ '=' :: (labels.get? label).getD []

/-- `Snapshot`. -/
abbrev Snapshot (ν : Type) := Dict Text (Series ν)

/-- The inner loop of `parseLabels`: the value of a label, after what was read of it. A value
without a closing quote ends with the text. -/
def scanValue (value : Text) : Text → Except ParseError (Text × Text)
  | [] => .ok (value, [])
  | '"' :: rest => .ok (value, rest)
  | ['\\'] => .error .invalidLabelEscape
  | '\\' :: 'n' :: rest => scanValue (value ++ ['\n']) rest
  | '\\' :: c :: rest =>
    if c = '\\' ∨ c = '"' then scanValue (value ++ [c]) rest else .error .invalidLabelEscape
  | c :: rest => scanValue (value ++ [c]) rest

theorem scanValue_length {value t : Text} {found : Text × Text}
    (h : scanValue value t = .ok found) : found.2.length ≤ t.length := by
  fun_induction scanValue value t with
  | case1 => cases h; exact Nat.le_refl _
  | case2 => cases h; simp
  | case3 => cases h
  | case4 value rest ih => have hle := ih h; simp only [List.length_cons]; omega
  | case5 value c rest hn hc ih => have hle := ih h; simp only [List.length_cons]; omega
  | case6 => cases h
  | case7 value c rest h1 h2 h3 h4 ih => have hle := ih h; simp only [List.length_cons]; omega

/-- `parseLabels`, after the labels that were read. -/
def parseLabelsFrom (labels : Dict Text Text) (raw : Text) : Except ParseError (Dict Text Text) :=
  match _hraw : raw.dropWhile (fun c => c = ' ' || c = ',') with
  | [] => .ok labels
  | c :: rest =>
    match _hrest : (c :: rest).dropWhile (· ≠ '=') with
    | '=' :: '"' :: body =>
      match _hbody : scanValue [] body with
      | .ok (value, rest') =>
        parseLabelsFrom (labels.set ((c :: rest).takeWhile (· ≠ '=')) value) rest'
      | .error e => .error e
    | _ => .error .invalidLabel
termination_by raw.length
decreasing_by
  have hle : rest'.length ≤ body.length := scanValue_length _hbody
  have hdrop : ((c :: rest).dropWhile (· ≠ '=')).length ≤ (c :: rest).length :=
    (List.dropWhile_suffix _).length_le
  have hdrop' : (raw.dropWhile fun c => c = ' ' || c = ',').length ≤ raw.length :=
    (List.dropWhile_suffix _).length_le
  rw [_hrest] at hdrop
  rw [_hraw] at hdrop'
  simp only [List.length_cons] at hdrop hdrop'
  omega

/-- One turn of the loop of `parseLabels`. -/
theorem parseLabelsFrom_eq (labels : Dict Text Text) (raw : Text) :
    parseLabelsFrom labels raw =
      match raw.dropWhile (fun c => c = ' ' || c = ',') with
      | [] => .ok labels
      | c :: rest =>
        match (c :: rest).dropWhile (· ≠ '=') with
        | '=' :: '"' :: body =>
          match scanValue [] body with
          | .ok (value, rest') =>
            parseLabelsFrom (labels.set ((c :: rest).takeWhile (· ≠ '=')) value) rest'
          | .error e => .error e
        | _ => .error .invalidLabel := by
  conv => lhs; rw [parseLabelsFrom]
  split
  · next hnil => rw [hnil]
  next c rest hraw =>
  rw [hraw]
  dsimp only
  split
  · next body hbody =>
    rw [hbody]
    split <;> next hscan => simp only [hscan]
  · next hne =>
    split
    · next body hbody => exact absurd hbody (hne body)
    · rfl

/-- `parseLabels`. -/
def parseLabels (raw : Text) : Except ParseError (Dict Text Text) := parseLabelsFrom .empty raw

variable {ν : Type}

/-- `parseSample`. -/
def parseSample (parseFloat : Text → Option ν) (line : Text) : Except ParseError (Series ν) :=
  let metricPart := line.takeWhile (!isBlank ·)
  let rest := line.dropWhile (!isBlank ·)
  if metricPart = [] ∨ rest = [] then .error .invalidSample
  else
    match Text.words isSpace rest with
    | [] => .error .missingValue
    | field :: _ =>
      match parseFloat field with
      | none => .error .invalidValue
      | some value =>
        if '{' ∉ metricPart then .ok ⟨metricPart, .empty, value⟩
        else if metricPart.getLast? ≠ some '}' then .error .invalidLabels
        else
          (parseLabels ((metricPart.dropWhile (· ≠ '{')).drop 1).dropLast).map fun labels =>
            ⟨metricPart.takeWhile (· ≠ '{'), labels, value⟩

/-- What `Parse` does with a line. -/
def parseLine (parseFloat : Text → Option ν) (snapshot : Snapshot ν) (line : Text) :
    Except ParseError (Snapshot ν) :=
  let line := Text.trim isSpace line
  if line = [] ∨ line.head? = some '#' then .ok snapshot
  else
    (parseSample parseFloat line).map fun series =>
      snapshot.set (key series.name series.labels) series

/-- `Parse`. -/
def parse (parseFloat : Text → Option ν) (raw : Text) : Except ParseError (Snapshot ν) :=
  (Text.lines raw).foldlM (parseLine parseFloat) .empty

/-- `Delta`. -/
structure Delta where
  value : Rat
  found : Bool
  reset : Bool
  missing : Bool
deriving DecidableEq, Repr

/-- `containsLabels`; an absent label reads as the empty text. -/
def containsLabels (actual wanted : Dict Text Text) : Bool :=
  wanted.entries.all fun label => (actual.get? label.1).getD [] = label.2

/-- `matching`. -/
def matching (snapshot : Snapshot ν) (name : Text) (labels : Dict Text Text) : Dict Text ν :=
  (snapshot.values.filter fun series =>
    series.name = name ∧ containsLabels series.labels labels).foldl
      (fun result series => result.set (key [] series.labels) series.value) .empty

/-- `CounterDelta`. -/
def counterDelta (before after : Snapshot Rat) (name : Text) (labels : Dict Text Text) : Delta :=
  let beforeByLabels := matching before name labels
  let afterByLabels := matching after name labels
  let beforeValue (seriesKey : Text) : Rat := (beforeByLabels.get? seriesKey).getD 0
  if afterByLabels.entries = [] then ⟨0, false, false, true⟩
  else
    { value := (afterByLabels.entries.map fun entry =>
        if entry.2 < beforeValue entry.1 then 0 else entry.2 - beforeValue entry.1).sum
      found := true
      reset := afterByLabels.entries.any fun entry => entry.2 < beforeValue entry.1
      missing := beforeByLabels.keys.any fun seriesKey => (afterByLabels.get? seriesKey).isNone }

end Prometheus

end Gateway
