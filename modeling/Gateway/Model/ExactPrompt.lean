import Gateway.Lib.Text
import Mathlib.Data.Int.Order.Basic

/-!
# The exact-prompt search

`scripts/exact_prompt.py` of the benchmark: a text is repeated until the chat prompt around
it has a given number of tokens. The tokenizer is a parameter, and so is the type of the
keyword arguments for its chat template.
-/

namespace Gateway.ExactPrompt

/-- What the search raises. -/
inductive PromptError
  /-- `TypeError("tokenizer output has no input_ids")` -/
  | noInputIds
  /-- `ValueError("expected one encoded conversation")` -/
  | severalConversations
  /-- `ValueError("target must be positive")` -/
  | targetNotPositive
  /-- `ValueError(f"target token count {target} is not reachable with unit {unit!r}")` -/
  | notReachable (target : Int) (unit : Text)
  /-- an exception of the tokenizer -/
  | tokenizer (message : String)
deriving DecidableEq, Repr

/-! ## Counting tokens -/

/-- An element of `input_ids`: a token, or a list or tuple with the tokens of a
    conversation. -/
inductive InputId
  | token (id : Int)
  | conversation (ids : List Int)

/-- What a tokenizer returns, as far as `token_count` looks at it: the attribute `input_ids`,
    and for a dictionary also its entry `input_ids`. -/
structure Encoded where
  field : Option (List InputId)
  entry : Option (Option (List InputId))

/-- `token_count`. -/
def tokenCount (encoded : Encoded) : Except PromptError Nat :=
  let inputIds :=
    match encoded.field, encoded.entry with
    | none, some entry => entry
    | field, _ => field
  match inputIds with
  | none => .error .noInputIds
  | some (.conversation ids :: rest) =>
    if rest.length + 1 ≠ 1 then .error .severalConversations
    else .ok ids.length
  | some inputIds => .ok inputIds.length

/-- A chat message. -/
structure Message where
  role : Text
  content : Text

/-- A tokenizer. -/
structure Tokenizer (κ : Type) where
  /-- `apply_chat_template`, by the messages, `tokenize`, `add_generation_prompt` and the other
      keyword arguments -/
  applyChatTemplate : List Message → Bool → Bool → κ → Except PromptError Encoded

variable {κ : Type}

/-- `templated_token_count`. -/
def templatedTokenCount (tokenizer : Tokenizer κ) (prompt : Text) (chatTemplateKwargs : κ) :
    Except PromptError Nat := do
  let encoded ← tokenizer.applyChatTemplate [⟨"user".toList, prompt⟩] true true chatTemplateKwargs
  tokenCount encoded

/-! ## The search -/

/-- `unit * repetitions`, which is empty for a negative number. -/
def repeated (unit : Text) (repetitions : Int) : Text :=
  (List.replicate repetitions.toNat unit).flatten

/-- `while count(high) < target: low, high = high, high * 2`; without fuel there is no
    result. -/
def widen (count : Int → Except PromptError Nat) (target : Int) :
    Nat → Int → Int → Option (Except PromptError (Int × Int))
  | 0, _, _ => none
  | fuel + 1, low, high =>
    match count high with
    | .error e => some (.error e)
    | .ok measured =>
      if measured < target then widen count target fuel high (high * 2)
      else some (.ok (low, high))

/-- The loop `while low <= high`, which returns the number of repetitions. -/
def bisect (count : Int → Except PromptError Nat) (target : Int) (unit : Text) :
    Nat → Int → Int → Option (Except PromptError Int)
  | 0, _, _ => none
  | fuel + 1, low, high =>
    if low ≤ high then
      let mid := (low + high) / 2
      match count mid with
      | .error e => some (.error e)
      | .ok measured =>
        if measured = target then some (.ok mid)
        else if measured < target then bisect count target unit fuel (mid + 1) high
        else bisect count target unit fuel low (mid - 1)
    else some (.error (.notReachable target unit))

/-- `build_exact_prompt`, with fuel for each of its loops. -/
def buildExactPrompt (tokenizer : Tokenizer κ) (target : Int) (chatTemplateKwargs : κ)
    (unit : Text) (fuel : Nat) : Option (Except PromptError Text) :=
  if target ≤ 0 then some (.error .targetNotPositive)
  else
    let count := fun repetitions =>
      templatedTokenCount tokenizer (repeated unit repetitions) chatTemplateKwargs
    match widen count target fuel 0 1 with
    | none => none
    | some (.error e) => some (.error e)
    | some (.ok (low, high)) =>
      (bisect count target unit fuel low high).map (·.map (repeated unit))

end Gateway.ExactPrompt
