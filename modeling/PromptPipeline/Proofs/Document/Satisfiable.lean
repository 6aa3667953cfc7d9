import PromptPipeline.Expectation.Check
import PromptPipeline.Proofs.Document.Faults

/-!
# Expectations that can be met

The rule on expectations compares two numbers for each task and unit, the greatest lower bound and
the least upper bound that the task states, where an exact amount counts as both. This decides
whether the task asks for something possible: the bounds are in order if and only if some count
satisfies all amounts of the unit at once (`Task.exists_allows_iff`). If there is a lower bound, the
tightest one is such a count, and otherwise zero is. A count that no amount allows is the count of
no text, so a task that the rule refuses could never come to a text that meets its expectations.

Main statement: `checkExpectations_decides`.
-/

namespace PromptPipeline

theorem Sign.allows_iff {sign : Sign} {amount count : Nat} :
    sign.allows amount count = true ↔
      (sign ∈ [.exactly, .minimum] → amount ≤ count) ∧
        (sign ∈ [.exactly, .maximum] → count ≤ amount) := by
  cases sign with
  | exactly =>
    show (count == amount) = true ↔ _
    rw [beq_iff_eq]
    constructor
    · rintro rfl
      exact ⟨fun _ => Nat.le_refl _, fun _ => Nat.le_refl _⟩
    · rintro ⟨hlow, hhigh⟩
      exact Nat.le_antisymm (hhigh (by decide)) (hlow (by decide))
  | minimum => simp [allows]
  | maximum => simp [allows]

/-- An amount is checked against the count of the text. -/
theorem Expectation.holds_amount_iff {sign : Sign} {unit : TextUnit} {n : Amount} {text : String} :
    (Expectation.amount sign unit n).holds text = true ↔
      sign.allows n.toNat (unit.count text) = true := by
  unfold holds fault?
  dsimp only
  split
  next hallows => simp [hallows]
  next hrefused => simp [hrefused]

/-- The count of the unit satisfies all amounts that the task states for the unit. -/
def Task.Allows (t : Task) (unit : TextUnit) (count : Nat) : Prop :=
  ∀ sign n, Expectation.amount sign unit n ∈ t.expectations → sign.allows n.toNat count = true

namespace Task

open Pipeline

variable {t : Task} {unit : TextUnit}

/-- A text that meets the expectations of the task has a count that the task allows. -/
theorem Allows.of_allHold {text : String} (h : Expectation.allHold t.expectations text = true) :
    t.Allows unit (unit.count text) := by
  intro sign n hmem
  exact Expectation.holds_amount_iff.mp (List.all_eq_true.mp h _ hmem)

/-- A count is allowed if it lies between all lower and all upper bounds. -/
theorem allows_iff {count : Nat} :
    t.Allows unit count ↔
      (∀ n ∈ statedAmounts t [.exactly, .minimum] unit, n.toNat ≤ count) ∧
        ∀ n ∈ statedAmounts t [.exactly, .maximum] unit, count ≤ n.toNat := by
  unfold Allows statedAmounts
  constructor
  · intro h
    constructor
    · rintro n ⟨sign, hsign, hmem⟩
      exact (Sign.allows_iff.mp (h sign n hmem)).1 hsign
    · rintro n ⟨sign, hsign, hmem⟩
      exact (Sign.allows_iff.mp (h sign n hmem)).2 hsign
  · rintro ⟨hlow, hhigh⟩ sign n hmem
    exact Sign.allows_iff.mpr
      ⟨fun hsign => hlow n ⟨sign, hsign, hmem⟩, fun hsign => hhigh n ⟨sign, hsign, hmem⟩⟩

/-- A task that states a lower bound states a tightest one. -/
theorem exists_isGreatest {n : Amount} (h : n ∈ statedAmounts t [.exactly, .minimum] unit) :
    ∃ low, IsGreatest (statedAmounts t [.exactly, .minimum] unit) low := by
  cases hlow : lowerBound? t.expectations unit with
  | some low => exact ⟨low, lowerBound?_eq_some_iff.mp hlow⟩
  | none =>
    rw [lowerBound?_eq_max?, List.max?_eq_none_iff] at hlow
    rw [← mem_amountsOf_iff, hlow] at h
    cases h

/-- A task that states an upper bound states a tightest one. -/
theorem exists_isLeast {n : Amount} (h : n ∈ statedAmounts t [.exactly, .maximum] unit) :
    ∃ high, IsLeast (statedAmounts t [.exactly, .maximum] unit) high := by
  cases hhigh : upperBound? t.expectations unit with
  | some high => exact ⟨high, upperBound?_eq_some_iff.mp hhigh⟩
  | none =>
    rw [upperBound?_eq_min?, List.min?_eq_none_iff] at hhigh
    rw [← mem_amountsOf_iff, hhigh] at h
    cases h

/-- **Some count is allowed if and only if the tightest bounds are in order.** -/
theorem exists_allows_iff :
    (∃ count, t.Allows unit count) ↔
      ∀ low high, IsGreatest (statedAmounts t [.exactly, .minimum] unit) low →
        IsLeast (statedAmounts t [.exactly, .maximum] unit) high → low ≤ high := by
  constructor
  · rintro ⟨count, hcount⟩ low high hlow hhigh
    obtain ⟨habove, hbelow⟩ := allows_iff.mp hcount
    exact UInt32.le_iff_toNat_le.mpr
      (Nat.le_trans (habove low hlow.1) (hbelow high hhigh.1))
  · intro hordered
    by_cases hstated : ∃ n, n ∈ statedAmounts t [.exactly, .minimum] unit
    · -- The tightest lower bound is below each upper bound, since it is below the tightest one.
      obtain ⟨n, hn⟩ := hstated
      obtain ⟨low, hlow⟩ := exists_isGreatest hn
      refine ⟨low.toNat, allows_iff.mpr ⟨fun m hm => ?_, fun m hm => ?_⟩⟩
      · exact UInt32.le_iff_toNat_le.mp (hlow.2 hm)
      · obtain ⟨high, hhigh⟩ := exists_isLeast hm
        have hle : low ≤ m := UInt32.le_trans (hordered low high hlow hhigh) (hhigh.2 hm)
        exact UInt32.le_iff_toNat_le.mp hle
    · refine ⟨0, allows_iff.mpr ⟨fun m hm => ?_, fun m _ => Nat.zero_le _⟩⟩
      exact absurd ⟨m, hm⟩ hstated

/-- Where the tightest bounds cross, no count is allowed. -/
theorem not_allows_of_crossing {low high : Amount}
    (hlow : IsGreatest (statedAmounts t [.exactly, .minimum] unit) low)
    (hhigh : IsLeast (statedAmounts t [.exactly, .maximum] unit) high) (h : high < low)
    (count : Nat) : ¬t.Allows unit count := by
  intro hcount
  have hle : low ≤ high := exists_allows_iff.mp ⟨count, hcount⟩ low high hlow hhigh
  exact UInt32.not_le.mpr h hle

end Task

namespace Pipeline

variable {p : Pipeline}

/-- **The rule on expectations decides whether they can be met.** Where all amounts are positive, it
passes if and only if each task allows some count of each unit. If it fails, the fault has the
tightest bounds that a task states for a unit; these cross, so the task allows no count of the unit
and no text meets its expectations. -/
theorem checkExpectations_decides
    (hpositive : ∀ t ∈ p.tasks, ∀ sign unit n,
      Expectation.amount sign unit n ∈ t.expectations → 0 < n) :
    (p.checkExpectations = .ok () ↔ ∀ t ∈ p.tasks, ∀ unit, ∃ count, t.Allows unit count) ∧
      ∀ fault, p.checkExpectations = .error fault →
        ∃ t ∈ p.tasks, ∃ unit low high, fault = .invertedExpectation t.name unit low high ∧
          IsGreatest (statedAmounts t [.exactly, .minimum] unit) low ∧
          IsLeast (statedAmounts t [.exactly, .maximum] unit) high ∧ high < low ∧
          (∀ count, ¬t.Allows unit count) ∧
          ∀ text, Expectation.allHold t.expectations text = false := by
  constructor
  · rw [checkExpectations_eq_ok_iff]
    constructor
    · rintro ⟨-, hordered⟩ t ht unit
      exact Task.exists_allows_iff.mpr (hordered t ht unit)
    · intro hall
      exact ⟨hpositive, fun t ht unit => Task.exists_allows_iff.mp (hall t ht unit)⟩
  · intro fault hfault
    have hwitnessed : RuleGroup.Witnessed p none .expectations fault :=
      checkExpectations_reports fault hfault
    cases hwitnessed with
    | nonPositive ht hmem => exact absurd (hpositive _ ht _ _ _ hmem) (by decide)
    | @inverted t unit low high ht hlow hhigh hlt =>
      have hnone := Task.not_allows_of_crossing hlow hhigh hlt
      refine ⟨t, ht, unit, low, high, rfl, hlow, hhigh, hlt, hnone, fun text => ?_⟩
      by_contra hhold
      exact hnone _ (.of_allHold (Bool.not_eq_false _ ▸ hhold))

/-- The second task of the endless review asks for at least three words and for exactly two. -/
theorem endlessReview_refused :
    endlessReview.checkExpectations = .error (.invertedExpectation "review" .words 3 2) ∧
      ∃ t ∈ endlessReview.tasks, ∀ text, Expectation.allHold t.expectations text = false := by
  have hfault :
      endlessReview.checkExpectations = .error (.invertedExpectation "review" .words 3 2) := by
    cbv
  have hpositive : ∀ t ∈ endlessReview.tasks, ∀ sign unit n,
      Expectation.amount sign unit n ∈ t.expectations → 0 < n := by
    rintro t ht sign unit n hmem
    rcases List.mem_pair.mp ht with rfl | rfl
    · cases hmem
    · rcases List.mem_pair.mp hmem with heq | heq
      · cases heq
        decide
      · cases heq
        decide
  obtain ⟨t, ht, _, _, _, -, -, -, -, -, hrefused⟩ :=
    (checkExpectations_decides hpositive).2 _ hfault
  exact ⟨hfault, t, ht, hrefused⟩

end Pipeline

end PromptPipeline
