import PromptPipeline.Execution.Prompt
import PromptPipeline.Expectation.Check

/-!
# Filler text

Text that means nothing and meets expectations: the shortest beginning of an endlessly repeated
text that is not blank and fits. Main statement: `shortest?_eq_some_iff`.
-/

namespace PromptPipeline.Filler

/-- The text that is repeated. -/
def lorem : String :=
  "Lorem ipsum dolor sit amet, consectetur adipiscing elit. " ++
  "Sed do eiusmod tempor incididunt ut labore et dolore magna aliqua. " ++
  "Ut enim ad minim veniam, quis nostrud exercitation ullamco laboris nisi ut aliquip " ++
  "ex ea commodo consequat. " ++
  "Duis aute irure dolor in reprehenderit in voluptate velit esse cillum dolore eu fugiat " ++
  "nulla pariatur. " ++
  "Excepteur sint occaecat cupidatat non proident, sunt in culpa qui officia deserunt " ++
  "mollit anim id est laborum.\n\n"

/-- The characters of the text that is repeated. -/
def source : Array Char :=
  lorem.toList.toArray

/-- The character at a position of the endless text. -/
def charAt (i : Nat) : Char :=
  source.getD (i % source.size) ' '

/-- The beginning of the endless text, of the given length. -/
def start (length : Nat) : String :=
  .ofList ((List.range length).map charAt)

/-- The least number from `n` on that satisfies `p`, of as many as there are steps. -/
def least? (p : Nat → Bool) (n : Nat) : (steps : Nat) → Option Nat
  | 0 => none
  | steps + 1 => if p n then some n else least? p (n + 1) steps

/-- Whether a text is not blank and meets the expectations. -/
def fits (expectations : List Expectation) (text : String) : Bool :=
  Text.trim text.toList ≠ [] && Expectation.allHold expectations text

/-- The shortest beginning that fits, among those that are shorter than the limit. -/
def shortest? (expectations : List Expectation) (limit : Nat) : Option String :=
  (least? (fun n => fits expectations (start n)) 0 limit).map start

/-- The filler text for a prompt. -/
def text (limit : Nat) (p : Prompt) : Result String :=
  match shortest? p.expectations limit with
  | some text => .ok text
  | none => .error (.execution (.fakeTextLimit limit))

theorem least?_eq_some_iff {p : Nat → Bool} {n steps m : Nat} :
    least? p n steps = some m ↔
      n ≤ m ∧ m < n + steps ∧ p m = true ∧ ∀ k, n ≤ k → k < m → p k = false := by
  induction steps generalizing n with
  | zero =>
    simp only [least?]
    exact ⟨nofun, fun ⟨h1, h2, _⟩ => absurd h2 (by omega)⟩
  | succ steps ih =>
    simp only [least?]
    split
    · next hp =>
      constructor
      · intro h
        cases h
        exact ⟨Nat.le_refl _, by omega, hp, fun k _ _ => by omega⟩
      · rintro ⟨hn, -, -, hk⟩
        rcases Nat.lt_or_ge n m with h | h
        · have := hk n (Nat.le_refl _) h
          simp [hp] at this
        · rw [Nat.le_antisymm hn h]
    · next hp =>
      rw [ih]
      constructor
      · rintro ⟨hn, hm, h, hk⟩
        refine ⟨by omega, by omega, h, fun k h1 h2 => ?_⟩
        rcases Nat.eq_or_lt_of_le h1 with rfl | h1
        · simpa using hp
        · exact hk k h1 h2
      · rintro ⟨hn, hm, h, hk⟩
        have hne : n ≠ m := fun he => hp (he ▸ h)
        exact ⟨by omega, by omega, h, fun k h1 h2 => hk k (by omega) h2⟩

/-- The filler text is the shortest beginning that fits. -/
theorem shortest?_eq_some_iff {es : List Expectation} {limit : Nat} {s : String} :
    shortest? es limit = some s ↔
      ∃ n, n < limit ∧ start n = s ∧ fits es s = true ∧
        ∀ k, k < n → fits es (start k) = false := by
  simp only [shortest?, Option.map_eq_some_iff, least?_eq_some_iff]
  constructor
  · rintro ⟨n, ⟨-, hn, hp, hk⟩, rfl⟩
    exact ⟨n, by omega, rfl, hp, fun k h => hk k (Nat.zero_le _) h⟩
  · rintro ⟨n, hn, rfl, hp, hk⟩
    exact ⟨n, ⟨Nat.zero_le _, by omega, hp, fun k _ h => hk k h⟩, rfl⟩

end PromptPipeline.Filler
