/-
ParametricPlan/Proofs/Evaluation/Extremum.lean

The least and the greatest of some numbers.

`min` and `max` go through their arguments from the left and keep one of them at a time.  A NaN
gives way to any other number, wherever it stands, and of two other numbers the one that comes
first in an order is kept (`Chooses`).  So what is kept is extreme among the arguments so far
(`Extreme`): it is the NaN as long as there is nothing else, and from then on one of the others,
before which none of them comes.  One more argument keeps it so (`Extreme.concat`), and hence the
whole list does (`Extreme.foldl`).

What is extreme among some numbers does not depend on their order, except that the two zeros come
before each other (`Extreme.unique`).  `extremum_selects` is the main result.
-/
import ParametricPlan.Evaluation.Apply
import ParametricPlan.Proofs.Number.Order

namespace ParametricPlan

/-! ### Choices -/

/-- A choice between two numbers: a NaN gives way to the other, and of two others the one that comes
first is taken. -/
structure Chooses (before : Float → Float → Prop) (pick : Float → Float → Float) : Prop where
  self : ∀ {x}, x.isNaN = false → before x x
  trans : ∀ {x y z}, before x y → before y z → before x z
  antisymm : ∀ {x y}, before x y → before y x → x = y ∨ x = 0 ∧ y = -0 ∨ x = -0 ∧ y = 0
  nan_left : ∀ {x y}, x.isNaN = true → pick x y = y
  nan_right : ∀ {x y}, y.isNaN = true → pick x y = x
  number : ∀ {x y}, x.isNaN = false → y.isNaN = false →
    pick x y = x ∧ before x y ∨ pick x y = y ∧ before y x

/-- The lesser of two numbers is chosen by `≤`. -/
theorem lesser_chooses : Chooses (· ≤ ·) lesser where
  self := Binary64.le_self
  trans := Binary64.le_of_le_of_le
  antisymm := Binary64.eq_or_zeros_of_le_of_le
  nan_left h := if_pos h
  nan_right {x y} h := by
    rw [lesser, if_pos h]
    split
    -- both are NaNs, and there is only one
    case isTrue hx => exact Binary64.eq_of_isNaN h hx
    case isFalse => rfl
  number {x y} hx hy := by
    simp only [lesser, hx, hy, Bool.false_eq_true, if_false]
    split
    case isTrue h => exact .inr ⟨rfl, Binary64.le_of_lt h⟩
    case isFalse h => exact .inl ⟨rfl, Binary64.le_of_not_lt hy hx h⟩

/-- The greater of two numbers is chosen by `≥`. -/
theorem greater_chooses : Chooses (· ≥ ·) greater where
  self := Binary64.le_self
  trans h h' := Binary64.le_of_le_of_le h' h
  antisymm h h' := Binary64.eq_or_zeros_of_le_of_le h' h
  nan_left h := if_pos h
  nan_right {x y} h := by
    rw [greater, if_pos h]
    split
    case isTrue hx => exact Binary64.eq_of_isNaN h hx
    case isFalse => rfl
  number {x y} hx hy := by
    simp only [greater, hx, hy, Bool.false_eq_true, if_false]
    split
    case isTrue h => exact .inr ⟨rfl, Binary64.le_of_lt h⟩
    case isFalse h => exact .inl ⟨rfl, Binary64.le_of_not_lt hx hy h⟩

/-! ### Extremes -/

/-- The extreme one of some numbers: the NaN if there is nothing else, and otherwise one of the
others, which comes before each of them. -/
structure Extreme (before : Float → Float → Prop) (xs : List Float) (m : Float) : Prop where
  isNaN_iff : m.isNaN = true ↔ ∀ x ∈ xs, x.isNaN = true
  first : m.isNaN = false → m ∈ xs ∧ ∀ x ∈ xs, x.isNaN = false → before m x

variable {before : Float → Float → Prop} {pick : Float → Float → Float}
  {xs ys : List Float} {x y m n : Float}

/-- A NaN is chosen only if there is nothing else. -/
theorem Chooses.isNaN_pick (h : Chooses before pick) :
    (pick x y).isNaN = (x.isNaN && y.isNaN) := by
  cases hx : x.isNaN with
  | true => rw [h.nan_left hx, Bool.true_and]
  | false =>
    cases hy : y.isNaN with
    | true => rw [h.nan_right hy, hx, Bool.false_and]
    | false =>
      rcases h.number hx hy with ⟨hpick, -⟩ | ⟨hpick, -⟩
      · rw [hpick, hx, Bool.false_and]
      · rw [hpick, hy, Bool.false_and]

/-- One number alone is extreme, be it a NaN or not. -/
theorem Chooses.extreme_singleton (h : Chooses before pick) (x : Float) :
    Extreme before [x] x where
  isNaN_iff := by rw [List.forall_mem_singleton]
  first _ := ⟨List.mem_singleton_self x, List.forall_mem_singleton.mpr h.self⟩

/-- One more number. -/
theorem Extreme.concat (hm : Extreme before xs m) (h : Chooses before pick) (x : Float) :
    Extreme before (xs ++ [x]) (pick m x) := by
  have hnan : (pick m x).isNaN = true ↔ ∀ y ∈ xs ++ [x], y.isNaN = true := by
    rw [h.isNaN_pick, Bool.and_eq_true, hm.isNaN_iff, List.forall_mem_append,
      List.forall_mem_singleton]
  have hold : m ∈ xs → m ∈ xs ++ [x] := List.mem_append_left [x]
  have hnew : x ∈ xs ++ [x] := List.mem_append_right xs (List.mem_singleton_self x)
  refine ⟨hnan, ?_⟩
  rw [List.forall_mem_append, List.forall_mem_singleton]
  cases hx : x.isNaN with
  | true =>
    -- a NaN changes nothing
    rw [h.nan_right hx]
    exact fun hn => ⟨hold (hm.first hn).1, (hm.first hn).2, by simp⟩
  | false =>
    cases hn : m.isNaN with
    | true =>
      -- the first number after nothing but NaNs
      rw [h.nan_left hn]
      refine fun _ => ⟨hnew, fun y hy hynan => ?_, fun _ => h.self hx⟩
      exact absurd (hm.isNaN_iff.mp hn y hy) (Bool.eq_false_iff.mp hynan)
    | false =>
      obtain ⟨hmem, hfirst⟩ := hm.first hn
      rcases h.number hn hx with ⟨hpick, hbefore⟩ | ⟨hpick, hbefore⟩
      · -- the one so far comes before the new one, and stays
        rw [hpick]
        exact fun _ => ⟨hold hmem, hfirst, fun _ => hbefore⟩
      · rw [hpick]
        -- the new one comes before the one so far, and so before all others
        refine fun _ => ⟨hnew, fun y hy hynan => ?_, fun _ => h.self hx⟩
        exact h.trans hbefore (hfirst y hy hynan)

/-- Any number of further ones. -/
theorem Extreme.foldl (hm : Extreme before xs m) (h : Chooses before pick) (ys : List Float) :
    Extreme before (xs ++ ys) (ys.foldl pick m) := by
  induction ys generalizing xs m with
  | nil => rwa [List.append_nil]
  | cons y ys ih =>
    rw [List.foldl_cons, List.append_cons]
    exact ih (hm.concat h y)

/-- Without zeros of both signs there is just one extreme. -/
theorem Extreme.unique (hm : Extreme before xs m) (hn : Extreme before ys n)
    (h : Chooses before pick) (hperm : ys.Perm xs) (hzeros : ¬ ((0 : Float) ∈ xs ∧ -0 ∈ xs)) :
    n = m := by
  have hnan : n.isNaN = m.isNaN := by
    rw [Bool.eq_iff_iff, hm.isNaN_iff, hn.isNaN_iff]
    exact ⟨fun hall x hx => hall x (hperm.mem_iff.mpr hx),
      fun hall x hx => hall x (hperm.mem_iff.mp hx)⟩
  cases hmnan : m.isNaN with
  | true => exact Binary64.eq_of_isNaN (hnan.trans hmnan) hmnan
  | false =>
    have hnnan : n.isNaN = false := hnan.trans hmnan
    obtain ⟨hmem, hfirst⟩ := hm.first hmnan
    obtain ⟨hmem', hfirst'⟩ := hn.first hnnan
    rw [hperm.mem_iff] at hmem'
    -- each of the two is among the numbers that the other one comes before
    have hnm : before n m := hfirst' m (hperm.mem_iff.mpr hmem) hmnan
    rcases h.antisymm hnm (hfirst n hmem' hnnan) with heq | ⟨rfl, rfl⟩ | ⟨rfl, rfl⟩
    · exact heq
    · exact absurd ⟨hmem', hmem⟩ hzeros
    · exact absurd ⟨hmem, hmem'⟩ hzeros

namespace Func

theorem numberArgs_map_number (f : Func) (xs : List Float) :
    f.numberArgs (xs.map .number) = .ok xs := by
  induction xs with
  | nil => rfl
  | cons x xs ih =>
    rw [List.map_cons, numberArgs, ih]
    rfl

/-- Going through numbers from the left finds their extreme. -/
theorem exists_extremum_eq (f : Func) (h : Chooses before pick) (hne : xs ≠ []) :
    ∃ m, f.extremum pick (xs.map .number) = .ok (.number m) ∧ Extreme before xs m := by
  obtain ⟨x, xs, rfl⟩ := List.exists_cons_of_ne_nil hne
  refine ⟨xs.foldl pick x, ?_, (h.extreme_singleton x).foldl h xs⟩
  rw [extremum, numberArgs_map_number]
  rfl

/-- The order of the arguments does not matter, but for the signs of zeros. -/
theorem extremum_perm (f : Func) (h : Chooses before pick) (hne : xs ≠ [])
    (hzeros : ¬ ((0 : Float) ∈ xs ∧ -0 ∈ xs)) (hperm : ys.Perm xs) :
    f.extremum pick (ys.map .number) = f.extremum pick (xs.map .number) := by
  have hne' : ys ≠ [] := fun hnil => hne (List.nil_perm.mp (hnil ▸ hperm))
  obtain ⟨m, hm, hextreme⟩ := f.exists_extremum_eq h hne
  obtain ⟨n, hn, hextreme'⟩ := f.exists_extremum_eq h hne'
  rw [hm, hn, hextreme.unique hextreme' h hperm hzeros]

/-- **`min` and `max` select the extreme argument.**

Of numbers, at least one, they give the NaN just if there is no other number among them.  Otherwise
they give one of the others, and it is at most each of them, or at least each of them; the order in
which the arguments are given does not matter, unless there are zeros of both signs. -/
theorem extremum_selects {xs : List Float} (hne : xs ≠ [])
    (hzeros : ¬ ((0 : Float) ∈ xs ∧ -0 ∈ xs)) :
    ∃ least greatest : Float,
      min.apply (xs.map .number) = .ok (.number least) ∧ Extreme (· ≤ ·) xs least ∧
      max.apply (xs.map .number) = .ok (.number greatest) ∧ Extreme (· ≥ ·) xs greatest ∧
      ∀ ys : List Float, ys.Perm xs →
        min.apply (ys.map .number) = .ok (.number least) ∧
        max.apply (ys.map .number) = .ok (.number greatest) := by
  -- `min` and `max` are one search with two choices
  obtain ⟨least, hleast, hmin⟩ := min.exists_extremum_eq lesser_chooses hne
  obtain ⟨greatest, hgreatest, hmax⟩ := max.exists_extremum_eq greater_chooses hne
  refine ⟨least, greatest, hleast, hmin, hgreatest, hmax, fun ys hperm => ⟨?_, ?_⟩⟩
  · exact (min.extremum_perm lesser_chooses hne hzeros hperm).trans hleast
  · exact (max.extremum_perm greater_chooses hne hzeros hperm).trans hgreatest

/-- A NaN that comes first, and one that comes last. -/
theorem extremum_selects_past_nan :
    let xs : List Float := [Float.nan, 2.5, -0.0, 7.0]
    let ys : List Float := [7.0, 2.5, -0.0, Float.nan]
    xs ≠ [] ∧ ¬ ((0 : Float) ∈ xs ∧ -0 ∈ xs) ∧ ys.Perm xs ∧
      min.apply (xs.map .number) = .ok (.number (-0.0)) ∧ Extreme (· ≤ ·) xs (-0.0) ∧
      max.apply (xs.map .number) = .ok (.number 7.0) ∧ Extreme (· ≥ ·) xs 7.0 ∧
      min.apply (ys.map .number) = .ok (.number (-0.0)) ∧
      max.apply (ys.map .number) = .ok (.number 7.0) := by
  intro xs ys
  have hne : xs ≠ [] := by decide
  have hzeros : ¬ ((0 : Float) ∈ xs ∧ -0 ∈ xs) := by
    rintro ⟨h, -⟩
    simp only [xs, List.mem_cons, List.not_mem_nil, or_false] at h
    revert h
    decide
  have hperm : ys.Perm xs := by decide
  obtain ⟨least, greatest, hleast, hmin, hgreatest, hmax, hsame⟩ := extremum_selects hne hzeros
  have hleast' : min.apply (xs.map .number) = .ok (.number (-0.0)) := rfl
  have hgreatest' : max.apply (xs.map .number) = .ok (.number 7.0) := rfl
  obtain rfl : least = -0.0 := by
    rw [hleast'] at hleast
    exact (Value.number.inj (Except.ok.inj hleast)).symm
  obtain rfl : greatest = 7.0 := by
    rw [hgreatest'] at hgreatest
    exact (Value.number.inj (Except.ok.inj hgreatest)).symm
  exact ⟨hne, hzeros, hperm, hleast, hmin, hgreatest, hmax, hsame ys hperm⟩

end Func
end ParametricPlan
