import DiagramEnergy.Proofs.Json.Numbers

/-!
# Written floats are numbers

The shortest decimal of a float that is not zero has digits other than zero, so
neither of its layouts starts with one.
-/

namespace DiagramEnergy

/-! ## Shortest decimals -/

namespace Decimal

theorem onGrid_pos {tie : Tie} {significand digits : Nat} {exponent scale : Int}
    (positive : 0 < significand)
    (found : onGrid tie significand exponent scale = some digits) : 0 < digits := by
  have frame_pos : 0 < Nat.pow 2 (exponent - 2).toNat * Nat.pow 10 (-scale).toNat :=
    Nat.mul_pos (Nat.pow_pos (by decide)) (Nat.pow_pos (by decide))
  unfold onGrid at found
  extract_lets unit frame value gapBelow low high below above closed belowFits
    aboveFits at found
  have gap : gapBelow ≤ 2 := by
    simp only [gapBelow]
    split <;> decide
  have low_pos : 0 < low := Nat.mul_pos (by omega) frame_pos
  -- The multiple below is used only where it lies at or above the lower end.
  have below_pos : belowFits → 0 < below := by
    intro fits
    apply Nat.pos_of_ne_zero
    intro zero
    simp only [belowFits, zero, Nat.zero_mul] at fits
    omega
  have above_pos : 0 < above := Nat.succ_pos below
  split at found
  case isTrue fits =>
    have below_pos := below_pos fits
    split at found
    · split at found <;> rw [← Option.some.inj found]
      · exact below_pos
      · exact above_pos
      · exact above_pos
      · split
        · exact below_pos
        · exact above_pos
    · rw [← Option.some.inj found]
      exact below_pos
  case isFalse =>
    split at found
    · rw [← Option.some.inj found]
      exact above_pos
    · cases found

theorem trim_pos {fuel digits : Nat} {exponent : Int} (positive : 0 < digits) :
    0 < (trim fuel digits exponent).digits := by
  induction fuel generalizing digits exponent with
  | zero => exact positive
  | succ fuel induction =>
      rw [trim]
      split
      case isTrue even => exact induction (by omega)
      case isFalse => exact positive

theorem shortest_pos (tie : Tie) {significand : Nat} (exponent : Int)
    (positive : 0 < significand) : 0 < (shortest tie significand exponent).digits := by
  rw [shortest]
  simp only
  split
  case h_1 digits scale found =>
    obtain ⟨count, -, found⟩ := List.exists_of_findSome?_eq_some found
    obtain ⟨grid, onGrid, same⟩ := Option.map_eq_some_iff.1 found
    cases same
    exact trim_pos (onGrid_pos positive onGrid)
  case h_2 =>
    exact Nat.mul_pos (Nat.mul_pos positive (Nat.pow_pos (by decide)))
      (Nat.pow_pos (by decide))

end Decimal

/-! ## Layouts -/

theorem isDigits_zero : IsDigits ['0'] :=
  ⟨List.cons_ne_nil _ _, List.forall_mem_singleton.2 rfl⟩

/-- The whole part is a number by itself, and the fraction has digits if any. -/
structure Layout.WellFormed (layout : Layout) : Prop where
  whole : IsDigits layout.whole
  noLeadingZero : layout.whole.head? = some '0' → layout.whole.length = 1
  fraction : ∀ digit ∈ layout.fraction, digit.isDigit = true

namespace Layout

variable {digits : List Char}

theorem wellFormed_positional (isDigits : IsDigits digits)
    (leading : digits.head? ≠ some '0') (exponent : Int) :
    (positional digits exponent).WellFormed := by
  obtain ⟨filled, isDigit⟩ := isDigits
  have zeros : ∀ places, ∀ digit ∈ List.replicate places '0',
      digit.isDigit = true := by
    intro places digit member
    rw [(List.mem_replicate.1 member).2]
    decide
  rw [positional]
  split
  case isTrue whole =>
    refine ⟨⟨by simp [filled], ?_⟩, ?_, by simp⟩
    · intro digit member
      rcases List.mem_append.1 member with member | member
      · exact isDigit digit member
      · exact zeros _ digit member
    · intro first
      simp only [List.head?_append] at first
      cases digits with
      | nil => exact absurd rfl filled
      | cons digit digits => exact absurd first leading
  case isFalse =>
    split
    case isTrue inside =>
      refine ⟨⟨?_, fun digit member => isDigit digit (List.mem_of_mem_take member)⟩,
        fun first => ?_, fun digit member => isDigit digit (List.mem_of_mem_drop member)⟩
      · simp only [ne_eq, List.take_eq_nil_iff, filled, or_false]
        omega
      · rw [List.head?_take, if_neg (by omega)] at first
        exact absurd first leading
    case isFalse =>
      refine ⟨isDigits_zero, fun _ => rfl, fun digit member => ?_⟩
      rcases List.mem_append.1 member with member | member
      · exact zeros _ digit member
      · exact isDigit digit member

theorem wellFormed_scientific (isDigits : IsDigits digits)
    (leading : digits.head? ≠ some '0') (exponent : Int) :
    (scientific digits exponent).WellFormed := by
  obtain ⟨filled, isDigit⟩ := isDigits
  cases digits with
  | nil => exact absurd rfl filled
  | cons digit digits =>
      exact ⟨⟨by simp [scientific], by simpa [scientific] using isDigit digit (by simp)⟩,
        fun first => absurd first leading,
        fun other member => isDigit other (List.mem_of_mem_drop member)⟩

end Layout

namespace JsonNumber

theorem wellFormed_ofLayout {layout : Layout} (negative : Bool)
    (wellFormed : layout.WellFormed) : (ofLayout negative layout).WellFormed where
  whole := wellFormed.whole
  noLeadingZero := wellFormed.noLeadingZero
  fraction := by
    intro digits written
    simp only [ofLayout] at written
    split at written
    case isTrue filled =>
      cases written
      exact ⟨by simpa using filled, wellFormed.fraction⟩
    case isFalse =>
      split at written
      · cases written
        exact isDigits_zero
      · cases written
  exponent := by
    intro exponent written
    obtain ⟨power, -, rfl⟩ := Option.map_eq_some_iff.1 written
    exact isDigits_toDigits power.natAbs

theorem wellFormed_layout (significand : Nat) (exponent : Int) :
    (style.layout significand exponent).WellFormed := by
  rw [FloatStyle.layout]
  split
  case isTrue => exact ⟨isDigits_zero, fun _ => rfl, List.forall_mem_nil _⟩
  case isFalse filled =>
    have positive := Decimal.shortest_pos style.tie exponent
      (Nat.pos_of_ne_zero filled)
    have isDigits := isDigits_toDigits
      (Decimal.shortest style.tie significand exponent).digits
    rw [Layout.ofDecimal]
    split
    · exact Layout.wellFormed_positional isDigits (head?_toDigits_ne positive) _
    · exact Layout.wellFormed_scientific isDigits (head?_toDigits_ne positive) _

end JsonNumber

end DiagramEnergy
