import Gateway.Model.ExactPrompt
import Mathlib.Order.Monotone.Basic

/-!
# The exact-prompt search finds a prompt

For a tokenizer whose templated token count does not decrease with the repetitions and has
no bound.

## Key results

- `widen_spec`: the bracket that the first loop ends with
- `bisect_spec`: the second loop finds a solution in its bracket if there is one
- `buildExactPrompt_exact`: the search is sound and complete
-/

namespace Gateway.ExactPrompt

section Search

variable {count : Int → Except PromptError Nat} {f : Nat → Nat} {target : Int}

/-- A solution, if there is one, is from `low` to `high`. -/
def Bracket (f : Nat → Nat) (target : Int) (low high : Int) : Prop :=
  (∃ k, (f k : Int) = target) → ∃ k : Nat, low ≤ k ∧ k ≤ high ∧ (f k : Int) = target

/-- The first loop ends, once the count at `high` has reached the target. -/
theorem widen_spec (hcount : ∀ k : Nat, count k = .ok (f k)) {K : Nat} (hmono : Monotone f)
    (hK : target ≤ f K) (n : Nat) {low high : Nat} (hle : low ≤ high) (hhigh : 0 < high)
    (hlow : low = 0 ∨ (f low : Int) < target) (hn : K ≤ high + n) :
    ∃ low' high' : Nat, low' ≤ high' ∧ (low' = 0 ∨ (f low' : Int) < target) ∧
      target ≤ f high' ∧ ∀ fuel, n < fuel →
        widen count target fuel low high = some (.ok ((low' : Int), (high' : Int))) := by
  induction n generalizing low high with
  | zero =>
    have hreached : target ≤ f high := by
      have hKhigh := hmono (show K ≤ high by omega)
      omega
    refine ⟨low, high, hle, hlow, hreached, ?_⟩
    intro fuel hfuel
    obtain ⟨fuel, rfl⟩ := Nat.exists_eq_add_one.mpr hfuel
    simp only [widen, hcount]
    rw [if_neg (by omega)]
  | succ n ih =>
    by_cases hreached : target ≤ f high
    · refine ⟨low, high, hle, hlow, hreached, ?_⟩
      intro fuel hfuel
      obtain ⟨fuel, rfl⟩ := Nat.exists_eq_add_one.mpr (Nat.zero_lt_of_lt hfuel)
      simp only [widen, hcount]
      rw [if_neg (by omega)]
    · -- doubling moves `high` closer to `K`
      have hshort : (f high : Int) < target := by omega
      obtain ⟨low', high', hle', hlow', hreached', hwiden⟩ :=
        @ih high (high * 2) (by omega) (by omega) (.inr hshort) (by omega)
      refine ⟨low', high', hle', hlow', hreached', ?_⟩
      intro fuel hfuel
      obtain ⟨fuel, rfl⟩ := Nat.exists_eq_add_one.mpr (Nat.zero_lt_of_lt hfuel)
      have hrest := hwiden fuel (by omega)
      simp only [widen, hcount]
      rw [if_pos hshort]
      exact_mod_cast hrest

/-- What the first loop ends with brackets a solution: beyond `high` the count is at least
    the target, so a plateau that goes on there has begun at `high`. -/
theorem bracket_of_widen (hmono : Monotone f) {low high : Nat} (hle : low ≤ high)
    (hlow : low = 0 ∨ (f low : Int) < target) (hhigh : target ≤ f high) :
    Bracket f target low high := by
  intro hsolution
  obtain ⟨k, hk⟩ := hsolution
  have hlowk : low ≤ k := by
    rcases hlow with rfl | hlow
    · exact Nat.zero_le k
    · by_contra hlt
      have hcount := hmono (show k ≤ low by omega)
      omega
  by_cases hkhigh : k ≤ high
  · exact ⟨k, by omega, by omega, hk⟩
  · have hcount := hmono (show high ≤ k by omega)
    exact ⟨high, by omega, by omega, by omega⟩

/-- The upper half of a bracket. -/
theorem Bracket.above {low high : Int} (h : Bracket f target low high) (hmono : Monotone f)
    {mid : Nat} (hmid : (f mid : Int) < target) : Bracket f target (mid + 1) high := by
  intro hsolution
  obtain ⟨k, -, hhigh, hk⟩ := h hsolution
  have hlt : mid < k := by
    by_contra hge
    have hcount := hmono (show k ≤ mid by omega)
    omega
  exact ⟨k, by omega, hhigh, hk⟩

/-- The lower half of a bracket. -/
theorem Bracket.below {low high : Int} (h : Bracket f target low high) (hmono : Monotone f)
    {mid : Nat} (hmid : target < (f mid : Int)) : Bracket f target low (mid - 1) := by
  intro hsolution
  obtain ⟨k, hlow, -, hk⟩ := h hsolution
  have hlt : k < mid := by
    by_contra hge
    have hcount := hmono (show mid ≤ k by omega)
    omega
  exact ⟨k, hlow, by omega, hk⟩

/-- The second loop ends, with a solution or because there is none. -/
theorem bisect_spec (hcount : ∀ k : Nat, count k = .ok (f k)) (hmono : Monotone f) (unit : Text)
    (n : Nat) {low high : Int} (hlow : 0 ≤ low) (hn : high + 1 - low ≤ n)
    (hbracket : Bracket f target low high) :
    (∃ k : Nat, (f k : Int) = target ∧
      ∀ fuel, n < fuel → bisect count target unit fuel low high = some (.ok (k : Int))) ∨
    ((¬∃ k, (f k : Int) = target) ∧ ∀ fuel, n < fuel →
      bisect count target unit fuel low high = some (.error (.notReachable target unit))) := by
  induction n generalizing low high with
  | zero =>
    -- an empty bracket
    right
    constructor
    · intro hsolution
      obtain ⟨k, hlowk, hkhigh, -⟩ := hbracket hsolution
      omega
    · intro fuel hfuel
      obtain ⟨fuel, rfl⟩ := Nat.exists_eq_add_one.mpr hfuel
      rw [bisect, if_neg (by omega)]
  | succ n ih =>
    by_cases hempty : low ≤ high
    · obtain ⟨mid, hmid⟩ : ∃ mid : Nat, (low + high) / 2 = mid :=
        ⟨((low + high) / 2).toNat, by omega⟩
      have hstep : ∀ fuel, bisect count target unit (fuel + 1) low high =
          if (f mid : Int) = target then some (.ok (mid : Int))
          else if (f mid : Int) < target then bisect count target unit fuel (mid + 1) high
          else bisect count target unit fuel low (mid - 1) := by
        intro fuel
        rw [bisect, if_pos hempty]
        simp only [hmid, hcount]
      by_cases hfound : (f mid : Int) = target
      · left
        refine ⟨mid, hfound, ?_⟩
        intro fuel hfuel
        obtain ⟨fuel, rfl⟩ := Nat.exists_eq_add_one.mpr (Nat.zero_lt_of_lt hfuel)
        rw [hstep, if_pos hfound]
      -- both halves are shorter than the bracket by at least one
      obtain ⟨low', high', hshrink⟩ : ∃ low' high' : Int, 0 ≤ low' ∧ high' + 1 - low' ≤ n ∧
          Bracket f target low' high' ∧ ∀ fuel, bisect count target unit (fuel + 1) low high =
            bisect count target unit fuel low' high' := by
        by_cases hless : (f mid : Int) < target
        · refine ⟨mid + 1, high, by omega, by omega, hbracket.above hmono hless, ?_⟩
          intro fuel
          rw [hstep, if_neg hfound, if_pos hless]
        · refine ⟨low, mid - 1, hlow, by omega, hbracket.below hmono (by omega), ?_⟩
          intro fuel
          rw [hstep, if_neg hfound, if_neg hless]
      obtain ⟨hlow', hn', hbracket', hsame⟩ := hshrink
      have hfuel : ∀ result, (∀ fuel, n < fuel →
          bisect count target unit fuel low' high' = result) →
          ∀ fuel, n + 1 < fuel → bisect count target unit fuel low high = result := by
        intro result hresult fuel hfuel
        obtain ⟨fuel, rfl⟩ := Nat.exists_eq_add_one.mpr (Nat.zero_lt_of_lt hfuel)
        rw [hsame, hresult fuel (by omega)]
      rcases ih hlow' hn' hbracket' with ⟨k, hk, hresult⟩ | ⟨hnone, hresult⟩
      · exact .inl ⟨k, hk, hfuel _ hresult⟩
      · exact .inr ⟨hnone, hfuel _ hresult⟩
    · right
      constructor
      · intro hsolution
        obtain ⟨k, hlowk, hkhigh, -⟩ := hbracket hsolution
        omega
      · intro fuel hfuel
        obtain ⟨fuel, rfl⟩ := Nat.exists_eq_add_one.mpr (Nat.zero_lt_of_lt hfuel)
        rw [bisect, if_neg hempty]

end Search

variable {κ : Type}

theorem buildExactPrompt_eq {tokenizer : Tokenizer κ} {chatTemplateKwargs : κ} {unit : Text}
    {target low high : Int} {fuel : Nat} {result : Except PromptError Int} (htarget : 1 ≤ target)
    (hwiden : widen (fun k => templatedTokenCount tokenizer (repeated unit k) chatTemplateKwargs)
      target fuel 0 1 = some (.ok (low, high)))
    (hbisect : bisect (fun k => templatedTokenCount tokenizer (repeated unit k) chatTemplateKwargs)
      target unit fuel low high = some result) :
    buildExactPrompt tokenizer target chatTemplateKwargs unit fuel =
      some (result.map (repeated unit)) := by
  rw [buildExactPrompt, if_neg (by omega)]
  simp only [hwiden, hbisect, Option.map_some]

/-- The search ends. It returns repetitions of the unit whose templated token count is the
    target if there are any, and raises `ValueError` otherwise. -/
theorem buildExactPrompt_exact (tokenizer : Tokenizer κ) (chatTemplateKwargs : κ) (unit : Text)
    {target : Int} (htarget : 1 ≤ target) {f : Nat → Nat}
    (hcount : ∀ k : Nat,
      templatedTokenCount tokenizer (repeated unit k) chatTemplateKwargs = .ok (f k))
    (hmono : Monotone f) (hunbounded : ∀ n, ∃ k, n ≤ f k) :
    ∃ result, (∃ enough, ∀ fuel, enough ≤ fuel →
        buildExactPrompt tokenizer target chatTemplateKwargs unit fuel = some result) ∧
      ((∃ k, (f k : Int) = target) →
        ∃ k : Nat, (f k : Int) = target ∧ result = .ok (repeated unit k)) ∧
      ((¬∃ k, (f k : Int) = target) → result = .error (.notReachable target unit)) := by
  obtain ⟨K, hK⟩ := hunbounded target.toNat
  let count := fun repetitions =>
    templatedTokenCount tokenizer (repeated unit repetitions) chatTemplateKwargs
  obtain ⟨low, high, hle, hlow, hhigh, hwiden⟩ := @widen_spec count f target hcount K hmono
    (by omega) K 0 1 (by omega) (by omega) (.inl rfl) (by omega)
  have hbracket := bracket_of_widen hmono hle hlow hhigh
  have hrun : ∀ result,
      (∀ fuel, high + 1 < fuel → bisect count target unit fuel low high = some result) →
      ∃ enough, ∀ fuel, enough ≤ fuel →
        buildExactPrompt tokenizer target chatTemplateKwargs unit fuel =
          some (result.map (repeated unit)) := by
    intro result hbisect
    refine ⟨K + high + 2, ?_⟩
    intro fuel hfuel
    exact buildExactPrompt_eq htarget (hwiden fuel (by omega)) (hbisect fuel (by omega))
  rcases @bisect_spec count f target hcount hmono unit (high + 1) low high (by omega) (by omega)
    hbracket with
    ⟨k, hk, hbisect⟩ | ⟨hnone, hbisect⟩
  · refine ⟨.ok (repeated unit k), hrun _ hbisect, fun _ => ⟨k, hk, rfl⟩, ?_⟩
    intro hnone
    exact absurd ⟨k, hk⟩ hnone
  · refine ⟨.error (.notReachable target unit), hrun _ hbisect, ?_, fun _ => rfl⟩
    intro hsolution
    exact absurd hsolution hnone

/-- A tokenizer with a token for each character and one for the role. -/
def charTokenizer : Tokenizer Unit where
  applyChatTemplate messages _ _ _ :=
    .ok ⟨some (messages.flatMap fun m =>
      .token 0 :: m.content.map fun c => .token c.toNat), none⟩

theorem charTokenizer_count (k : Nat) :
    templatedTokenCount charTokenizer (repeated "x ".toList k) () = .ok (2 * k + 1) := by
  simp [templatedTokenCount, charTokenizer, tokenCount, repeated, bind, Except.bind, Nat.mul_comm]

theorem buildExactPrompt_exact_char :
    ∃ result, (∃ enough, ∀ fuel, enough ≤ fuel →
        buildExactPrompt charTokenizer 5 () "x ".toList fuel = some result) ∧
      ((∃ k, ((2 * k + 1 : Nat) : Int) = 5) →
        ∃ k : Nat, ((2 * k + 1 : Nat) : Int) = 5 ∧ result = .ok (repeated "x ".toList k)) ∧
      ((¬∃ k, ((2 * k + 1 : Nat) : Int) = 5) → result = .error (.notReachable 5 "x ".toList)) :=
  buildExactPrompt_exact charTokenizer () "x ".toList (by omega) charTokenizer_count
    (fun a b hab => by omega) (fun n => ⟨n, by omega⟩)

end Gateway.ExactPrompt
