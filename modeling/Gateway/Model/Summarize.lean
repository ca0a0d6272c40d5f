import Mathlib.Data.Char
import Mathlib.Data.List.Lex
import Mathlib.Data.List.Sort
import Mathlib.Data.Prod.Lex
import Gateway.Lib.Dict
import Gateway.Lib.PythonText

/-!
# Counters in the summary of results

`parse_prometheus_text` and `counter_delta`, of `benchmark/scripts/summarize.py`. The regular
expressions `SAMPLE` and `LABEL` are matched as they are written. A text of a label is a list of
code points. Values are exact; `none` stands for the error of `unicode_escape`, and for a
sample whose value is infinite.
-/

namespace Gateway

namespace Summarize

variable (unicode : Unicode)

/-! ## `SAMPLE` -/

/-- `[A-Za-z_:]` -/
def isNameStart (c : Char) : Bool := Text.isLetter c || c = '_' || c = ':'

/-- `[A-Za-z0-9_:]` -/
def isNameChar (c : Char) : Bool := Text.isLetter c || Text.isDigit c || c = '_' || c = ':'

/-- `\s+`, and the number after it. -/
def sampleValue (t : Text) : Option Numeral :=
  if t.takeWhile Text.isPythonSpace = [] then none
  else
    (Numeral.scan ((t.dropWhile Text.isPythonSpace).map unicode.ascii)).map Prod.fst

/-- `.*\}`, with as many characters as possible, and the value after it. -/
def bracedValue : Text → Option (Text × Numeral)
  | [] => none
  | c :: t =>
    match bracedValue t with
    | some found => some (c :: found.1, found.2)
    | none => if c = '}' then (sampleValue unicode t).map fun value => (['}'], value) else none

/-- The groups of `SAMPLE`; the group of the labels is empty where it did not take part. -/
structure SampleMatch where
  name : Text
  labels : Text
  value : Numeral

/-- `SAMPLE.match` -/
def sampleMatch (line : Text) : Option SampleMatch :=
  let name := line.takeWhile isNameChar
  match line.head? with
  | none => none
  | some c =>
    if isNameStart c then
      match line.dropWhile isNameChar with
      | '{' :: t => (bracedValue unicode t).map fun found => ⟨name, '{' :: found.1, found.2⟩
      | t => (sampleValue unicode t).map fun value => ⟨name, [], value⟩
    else none

/-! ## `LABEL` -/

/-- `\w` -/
def isWord (c : Char) : Bool :=
  if c.toNat < 128 then Text.isLetter c || Text.isDigit c || c = '_' else unicode.word c

/-- `(?:\\.|[^"\\])*"`: the text before the quote, and what follows the quote. -/
def quoted : Text → Option (Text × Text)
  | [] => none
  | '"' :: t => some ([], t)
  | '\\' :: '\n' :: _ => none
  | '\\' :: c :: t => (quoted t).map fun found => ('\\' :: c :: found.1, found.2)
  | ['\\'] => none
  | c :: t => (quoted t).map fun found => (c :: found.1, found.2)

/-- `LABEL` at the beginning of a text: the groups, and what follows the match. -/
def labelMatch (t : Text) : Option ((Text × Text) × Text) :=
  let name := t.takeWhile (isWord unicode)
  if name = [] then none
  else
    match t.dropWhile (isWord unicode) with
    | '=' :: '"' :: body => (quoted body).map fun found => ((name, found.1), found.2)
    | _ => none

theorem quoted_length {t : Text} {found : Text × Text} (h : quoted t = some found) :
    found.2.length < t.length := by
  fun_induction quoted t generalizing found with
  | case1 => cases h
  | case2 t =>
    cases h
    simp
  | case3 => cases h
  | case4 c t _ ih =>
    obtain ⟨found', hfound, rfl⟩ := Option.map_eq_some_iff.mp h
    have hlt := ih hfound
    simp only [List.length_cons]
    omega
  | case5 => cases h
  | case6 c t _ _ _ _ ih =>
    obtain ⟨found', hfound, rfl⟩ := Option.map_eq_some_iff.mp h
    have hlt := ih hfound
    simp only [List.length_cons]
    omega

theorem labelMatch_length {t : Text} {found : (Text × Text) × Text}
    (h : labelMatch unicode t = some found) : found.2.length < t.length := by
  unfold labelMatch at h
  dsimp only at h
  split at h
  · cases h
  split at h
  · next body hbody =>
    obtain ⟨found', hfound, rfl⟩ := Option.map_eq_some_iff.mp h
    have hlt := quoted_length hfound
    have hle : (t.dropWhile (isWord unicode)).length ≤ t.length :=
      (List.dropWhile_suffix _).length_le
    rw [hbody] at hle
    simp only [List.length_cons] at hle ⊢
    omega
  · cases h

/-- `LABEL.findall` -/
def findLabels (t : Text) : List (Text × Text) :=
  match t with
  | [] => []
  | c :: rest =>
    match _hmatch : labelMatch unicode (c :: rest) with
    | some found => found.1 :: findLabels found.2
    | none => findLabels rest
termination_by t.length
decreasing_by
  · exact labelMatch_length unicode _hmatch
  · simp

/-! ## Series -/

/-- The labels of a series: pairs of a name and a value. -/
abbrev Labels := List (Text × List Nat)

/-- `sorted` of pairs. -/
def sorted (labels : Labels) : Labels :=
  ((labels.map toLex).insertionSort (· ≤ ·)).map ofLex

/-- The name and the value of a label, decoded. -/
def decodeLabel (label : Text × Text) : Option (Text × List Nat) :=
  (UnicodeEscape.decode unicode (Text.utf8 label.2)).map fun value => (label.1, value)

/-- The values of series, by name and labels. -/
abbrev SeriesValues := Dict (Text × Labels) Rat

/-- One turn of the loop of `parse_prometheus_text`. -/
def parseLine (series : SeriesValues) (line : Text) : Option SeriesValues :=
  match sampleMatch unicode (Text.trim Text.isPythonSpace line) with
  | none => some series
  | some found => do
    let labels ← (findLabels unicode found.labels).mapM (decodeLabel unicode)
    let value ← Double.round found.value.value
    some (series.set (found.name, sorted labels) value)

/-- `parse_prometheus_text` -/
def parsePrometheusText (raw : Text) : Option SeriesValues :=
  (Text.splitLines raw).foldlM (parseLine unicode) .empty

/-! ## `counter_delta` -/

/-- What `counter_delta` returns. -/
structure CounterDelta where
  missing : Bool
  reset : Bool
  value : Option Rat
deriving DecidableEq, Repr

/-- The values of the series of a metric, by their labels. -/
def valuesOf (series : SeriesValues) (name : Text) : Dict Labels Rat :=
  .ofList ((series.entries.filter fun entry => entry.1.1 = name).map fun entry =>
    (entry.1.2, entry.2))

/-- `counter_delta` -/
def counterDelta (before after : SeriesValues) (name : Text) : CounterDelta :=
  let beforeValues := valuesOf before name
  let afterValues := valuesOf after name
  let beforeValue (labels : Labels) : Rat := (beforeValues.get? labels).getD 0
  if afterValues.entries = [] then ⟨true, false, none⟩
  else
    let reset := afterValues.entries.any fun entry => entry.2 < beforeValue entry.1
    let missing := beforeValues.entries.any fun entry => (afterValues.get? entry.1).isNone
    { missing := missing
      reset := reset
      value :=
        if reset ∨ missing then none
        else some (afterValues.entries.map fun entry => entry.2 - beforeValue entry.1).sum }

end Summarize

end Gateway
