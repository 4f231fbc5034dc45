/-
ParametricPlan/Number/Decimal.lean

Decimals and the doubles they stand for.

A `Decimal` is a whole number of some power of ten.  `Decimal.rank` is the rank of the double
nearest to it, and `Decimal.shortest` goes back: among the decimals that read back as a given
rank it takes one with the fewest digits and, of those, the nearest to the exact value, the upper
one if two are equally near.

With `n` digits only two decimals can be meant, the neighbours of the exact value among the
multiples of the power of ten that leaves it `n` digits, so `shortest` tries these for
`n = 1, …, 17`.  Each candidate is read before it is taken, and the exact expansion of the double
stands behind the last of them.  Main result: what `shortest` gives reads back as the rank it was
made for (`rank_shortest`).
-/
import ParametricPlan.Number.Binary64

namespace ParametricPlan

open Binary64

/-- The number `digits * 10 ^ exponent`. -/
structure Decimal where
  digits : Nat
  exponent : Int
deriving DecidableEq, Repr

namespace Decimal

/-- The rank of the double nearest to a decimal.

An exponent is followed only as far as it makes a difference: a number of `400` digits is infinite
already, and one whose first digit stands `400` places after the point is zero. -/
def rank (d : Decimal) : Nat :=
  match d.exponent with
  | .ofNat e => rankOfRatio (d.digits * 10 ^ min e 400 * 2 ^ unitPlaces) 1
  | .negSucc e => rankOfRatio (d.digits * 2 ^ unitPlaces) (10 ^ min (e + 1) (d.digits.log2 + 400))

/-! ### The shortest decimal -/

/-- The exact value of a finite rank. -/
def exact (rank : Nat) : Decimal :=
  ⟨units rank * 5 ^ unitPlaces, -(unitPlaces : Int)⟩

/-- Whether the value of a rank is less than `10 ^ exponent`. -/
def below (rank : Nat) (exponent : Int) : Bool :=
  units rank * 10 ^ (-exponent).toNat < 2 ^ unitPlaces * 10 ^ exponent.toNat

/-- The number of digits before the decimal point; a number below `1` loses one for each zero that
follows the point.  It is guessed from the number of binary digits, and the guess can only be one
off. -/
def pointPosition (rank : Nat) : Int :=
  let guess := ((units rank).log2 - unitPlaces : Int) * 30103 / 100000
  if below rank guess then guess
  else if below rank (guess + 1) then guess + 1
  else guess + 2

/-- The same number without zeros at the end. -/
def trim (digits : Nat) (exponent : Int) : Decimal :=
  if h : 0 < digits ∧ digits % 10 = 0 then trim (digits / 10) (exponent + 1)
  else ⟨digits, exponent⟩
termination_by digits
decreasing_by omega

/-- The two multiples of `10 ^ exponent` around the value of a rank, the nearer one first. -/
def neighbours (rank : Nat) (exponent : Int) : List Decimal :=
  let num := units rank * 10 ^ (-exponent).toNat
  let den := 2 ^ unitPlaces * 10 ^ exponent.toNat
  let below := trim (num / den) exponent
  let above := trim (num / den + 1) exponent
  if 2 * (num % den) < den then [below, above] else [above, below]

/-- The first decimal of `1` to `17` digits that reads back as `rank`. -/
def search? (rank : Nat) : Option Decimal :=
  let position := pointPosition rank
  (List.range 17).findSome? fun (n : Nat) =>
    (neighbours rank (position - n - 1)).find? fun d => d.rank == rank

/-- The decimal with the fewest digits that reads back as `rank`. -/
def shortest (rank : Nat) : Decimal :=
  (search? rank).getD (exact rank)

/-! ### Reading back -/

/-- Written out in full, a magnitude reads back as its rank. -/
theorem rank_exact {r : Nat} (h : r < infinityRank) : (exact r).rank = r := by
  have hexp : -(unitPlaces : Int) = .negSucc 1073 := rfl
  have hplaces : 1073 + 1 = unitPlaces := rfl
  have hfive : 5 ^ unitPlaces ≠ 0 := Nat.ne_of_gt (Nat.pow_pos (by decide))
  simp only [exact, rank, hexp, hplaces]
  by_cases h0 : units r = 0
  · have hr := rankOfRatio_units h
    rw [h0] at hr ⊢
    simpa [rankOfRatio, divNearest] using hr
  · have hlog : unitPlaces ≤ (units r * 5 ^ unitPlaces).log2 := by
      rw [Nat.le_log2 (Nat.mul_ne_zero h0 hfive)]
      calc 2 ^ unitPlaces ≤ 1 * 5 ^ unitPlaces := by
            rw [Nat.one_mul]; exact Nat.pow_le_pow_left (by decide) _
        _ ≤ units r * 5 ^ unitPlaces := Nat.mul_le_mul_right _ (by omega)
    -- the power of five in the digits and one of two make up the power of ten that they are divided
    -- by
    have hten : (10 : Nat) ^ unitPlaces = 1 * (5 ^ unitPlaces * 2 ^ unitPlaces) := by
      rw [Nat.one_mul, ← Nat.mul_pow]
    rw [Nat.min_eq_left (by omega), Nat.mul_assoc, hten,
      rankOfRatio_mul _ _ (Nat.mul_pos (Nat.pow_pos (by decide)) (Nat.pow_pos (by decide)))]
    exact rankOfRatio_units h

/-- A decimal that was found was checked to read back. -/
theorem rank_of_search? {r : Nat} {d : Decimal} (h : search? r = some d) : d.rank = r := by
  obtain ⟨n, -, hd⟩ := List.exists_of_findSome?_eq_some h
  have hr := List.find?_some hd
  exact eq_of_beq hr

/-- The shortest decimal of a finite rank reads back as that rank. -/
theorem rank_shortest {r : Nat} (h : r < infinityRank) : (shortest r).rank = r := by
  unfold shortest
  cases hs : search? r with
  -- nothing short reads back, so that all digits are written
  | none => exact rank_exact h
  | some d => exact rank_of_search? hs

end Decimal
end ParametricPlan
