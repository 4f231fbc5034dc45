/-
ParametricPlan/Proofs/Number/Order.lean

The order of numbers.

A NaN is neither less nor greater than anything.  Every other number has a place on a line
(`place`): the negative infinity, the negative numbers with the larger exponents first, the two
zeros in one place, the positive numbers, and infinity.  Numbers are compared by their places
(`lt_iff_place_lt`, `le_iff_place_le`), and so they obey the laws of a linear order as long as
there is no NaN among them: one of two numbers is at most the other (`le_of_not_lt`), and numbers
that are at most each other are equal, which means that they are one number or the two zeros
(`eq_or_zeros_of_le_of_le`).
-/
import ParametricPlan.Proofs.Number.Word

namespace ParametricPlan.Binary64

open Float.Model UnpackedFloat

/-! ### Places -/

/-- The place of a number on the line: its part of the line, then its exponent and its digits. -/
def placeOf : UnpackedFloat → ℤ ×ₗ ℤ ×ₗ ℤ
  | .infinity .negative => toLex (-2, toLex (0, 0))
  | .finite .negative m e _ => toLex (-1, toLex (-e, -(m : ℤ)))
  | .notANumber | .zero _ => toLex (0, toLex (0, 0))
  | .finite .positive m e _ => toLex (1, toLex (e, (m : ℤ)))
  | .infinity .positive => toLex (2, toLex (0, 0))

/-- On one part of the line the exponents are compared first, and then the digits. -/
theorem compare_toLex (i a b a' b' : ℤ) :
    compare (toLex (i, toLex (a, b)) : ℤ ×ₗ ℤ ×ₗ ℤ) (toLex (i, toLex (a', b'))) =
      (compare a a').then (compare b b') := by
  simp [Prod.Lex.compare_def, compareLex, compareOn]

/-- Negative numbers come in the opposite order. -/
theorem compare_neg_neg (a b : ℤ) : compare (-a) (-b) = (compare a b).swap := by
  rw [Int.compare_swap, Int.compare_eq_ite_lt, Int.compare_eq_ite_lt]
  simp

theorem compare_natCast (m n : ℕ) : compare (m : ℤ) (n : ℤ) = compare m n := by
  rw [Int.compare_eq_ite_lt, Nat.compare_eq_ite_lt]
  simp

/-- Apart from NaNs, numbers are compared by their places. -/
theorem compare_eq_compare_placeOf {a b : UnpackedFloat} (ha : a ≠ .notANumber)
    (hb : b ≠ .notANumber) : a.compare b = some (compare (placeOf a) (placeOf b)) := by
  rcases a with (_ | _) | _ | s | ⟨_ | _, m, e, hm⟩ <;>
    rcases b with (_ | _) | _ | s' | ⟨_ | _, m', e', hm'⟩ <;>
    first | exact absurd rfl ha | exact absurd rfl hb | skip
  case finite.negative.finite.negative =>
    -- of two negative numbers the one with the larger exponent and digits comes first
    rw [placeOf, placeOf, compare_toLex, compare_neg_neg, compare_neg_neg, compare_natCast,
      ← Ordering.swap_then]
    rfl
  case finite.positive.finite.positive =>
    rw [placeOf, placeOf, compare_toLex, compare_natCast]
    rfl
  -- the numbers are on different parts of the line
  all_goals rfl

/-- Only NaNs cannot be compared. -/
theorem compare_eq_none_iff {a b : UnpackedFloat} :
    a.compare b = none ↔ a = .notANumber ∨ b = .notANumber := by
  constructor
  · intro h
    by_contra hne
    rw [not_or] at hne
    rw [compare_eq_compare_placeOf hne.1 hne.2] at h
    cases h
  · rintro (rfl | rfl)
    · rfl
    · cases a <;> rfl

/-- The place of a number. -/
def place (x : Float) : ℤ ×ₗ ℤ ×ₗ ℤ :=
  placeOf x.toModel.unpack

variable {x y z : Float}

/-- The outcome of a comparison says that there is no NaN, and how the places compare. -/
theorem compare_eq_some_iff {o : Ordering} :
    x.toModel.unpack.compare y.toModel.unpack = some o ↔
      x.isNaN = false ∧ y.isNaN = false ∧ compare (place x) (place y) = o := by
  rw [isNaN_eq_false_iff, isNaN_eq_false_iff]
  by_cases hnan : x.toModel.unpack = .notANumber ∨ y.toModel.unpack = .notANumber
  · rw [compare_eq_none_iff.mpr hnan]
    refine iff_of_false (by simp) fun h => ?_
    exact hnan.elim h.1 h.2.1
  · obtain ⟨hx, hy⟩ := not_or.mp hnan
    rw [compare_eq_compare_placeOf hx hy, Option.some.injEq]
    exact ⟨fun h => ⟨hx, hy, h⟩, fun h => h.2.2⟩

/-- A number is less than another if its place is, and neither is a NaN. -/
theorem lt_iff_place_lt :
    x < y ↔ x.isNaN = false ∧ y.isNaN = false ∧ place x < place y := by
  rw [← compare_lt_iff_lt, ← compare_eq_some_iff]
  -- `<` asks for one outcome of the comparison
  show decide _ = true ↔ _
  rw [decide_eq_true_eq]
  exact beq_iff_eq

/-- A number is at most another if its place is, and neither is a NaN. -/
theorem le_iff_place_le :
    x ≤ y ↔ x.isNaN = false ∧ y.isNaN = false ∧ place x ≤ place y := by
  -- `≤` asks for either of two outcomes
  have hle : x ≤ y ↔ ∃ o, x.toModel.unpack.compare y.toModel.unpack = some o ∧ o.isLE = true := by
    show decide _ = true ↔ _
    rw [decide_eq_true_eq]
    exact Option.any_eq_true _ _
  simp only [hle, compare_eq_some_iff]
  constructor
  · rintro ⟨o, ⟨hx, hy, rfl⟩, ho⟩
    exact ⟨hx, hy, compare_le_iff_le.mp (Ordering.isLE_iff_ne_gt.mp ho)⟩
  · rintro ⟨hx, hy, h⟩
    exact ⟨_, ⟨hx, hy, rfl⟩, Ordering.isLE_iff_ne_gt.mpr (compare_le_iff_le.mpr h)⟩

/-- Numbers are equal if they have one place and neither is a NaN; the zeros have one place. -/
theorem beq_iff_place_eq :
    (x == y) = true ↔ x.isNaN = false ∧ y.isNaN = false ∧ place x = place y := by
  rw [← compare_eq_iff_eq (a := place x), ← compare_eq_some_iff]
  show (x.toModel.unpack.compare y.toModel.unpack == some .eq) = true ↔ _
  exact beq_iff_eq

/-! ### Laws -/

/-- Unlike a NaN, a number is at most itself. -/
theorem le_self (hx : x.isNaN = false) : x ≤ x :=
  le_iff_place_le.mpr ⟨hx, hx, le_refl _⟩

/-- No NaN can stand in the middle, so that the order is transitive for all numbers. -/
theorem le_of_le_of_le (h : x ≤ y) (h' : y ≤ z) : x ≤ z := by
  obtain ⟨hx, -, hxy⟩ := le_iff_place_le.mp h
  obtain ⟨-, hz, hyz⟩ := le_iff_place_le.mp h'
  exact le_iff_place_le.mpr ⟨hx, hz, hxy.trans hyz⟩

theorem le_of_lt (h : x < y) : x ≤ y := by
  obtain ⟨hx, hy, hxy⟩ := lt_iff_place_lt.mp h
  exact le_iff_place_le.mpr ⟨hx, hy, hxy.le⟩

/-- Of two numbers one is at most the other. -/
theorem le_of_not_lt (hx : x.isNaN = false) (hy : y.isNaN = false) (h : ¬ x < y) : y ≤ x := by
  refine le_iff_place_le.mpr ⟨hy, hx, not_lt.mp fun hxy => h ?_⟩
  exact lt_iff_place_lt.mpr ⟨hx, hy, hxy⟩

/-- Numbers that are at most each other are one number, or the two zeros. -/
theorem eq_or_zeros_of_le_of_le (h : x ≤ y) (h' : y ≤ x) :
    x = y ∨ x = 0 ∧ y = -0 ∨ x = -0 ∧ y = 0 := by
  obtain ⟨hx, hy, hxy⟩ := le_iff_place_le.mp h
  obtain ⟨-, -, hyx⟩ := le_iff_place_le.mp h'
  have hbeq : (x == y) = true := beq_iff_place_eq.mpr ⟨hx, hy, le_antisymm hxy hyx⟩
  exact (beq_iff_eq_or_zeros.mp hbeq).2.2

end ParametricPlan.Binary64
