/-
ParametricPlan/Proofs/Plan/Dependencies.lean

What dependencies know of what they were told.

Dependencies are told notices, and at any time references that are defined from elsewhere
(`Remark`).  They keep no order but that of the duplicates, and no depth but the present and the
greatest one.  `Knows d remarks` says, field by field, what `d` knows after `remarks`, in terms of
the remarks alone:

* the references defined and required are those of the remarks, in whatever order;
* the duplicates are the references defined at a place before which they were mentioned
  (`redefinitions`);
* the depth is that of all remarks, and the greatest one is that of a beginning of them and exceeded
  by no other.

One more remark keeps this (`Knows.tell`), and so it holds of every run (`knows_tellAll`).  The
references that are required and not defined are put into increasing order by insertion, and an
increasing list is determined by its members (`eq_of_increasing`), so that the order of the remarks
does not matter for them.  `dependencies_know_remarks` is the main result.
-/
import Mathlib.Data.List.Induction
import Mathlib.Data.List.Sort
import ParametricPlan.Plan.Dependencies

namespace ParametricPlan

/-! ### Increasing references -/

/-- A reference comes before another one if its number does. -/
instance : LT Ref :=
  ⟨fun r s => r.index < s.index⟩

namespace Ref

theorem order_eq_lt {r s : Ref} : r.order s = .lt ↔ r < s :=
  Nat.compare_eq_lt

theorem order_eq_gt {r s : Ref} : r.order s = .gt ↔ s < r :=
  Nat.compare_eq_gt

theorem eq_of_order {r s : Ref} (h : r.order s = .eq) : r = s := by
  obtain ⟨m⟩ := r
  obtain ⟨n⟩ := s
  exact congrArg Ref.mk (UInt32.toNat_inj.mp (Nat.compare_eq_eq.mp h))

theorem lt_trans {r s t : Ref} (h : r < s) (h' : s < t) : r < t :=
  Nat.lt_trans h h'

theorem lt_irrefl (r : Ref) : ¬ r < r :=
  Nat.lt_irrefl _

end Ref

/-- References in increasing order, once each. -/
def Increasing (refs : List Ref) : Prop :=
  refs.Pairwise (· < ·)

/-- Increasing references are determined by their members. -/
theorem eq_of_increasing {refs refs' : List Ref} (h : Increasing refs) (h' : Increasing refs')
    (hmem : ∀ r, r ∈ refs ↔ r ∈ refs') : refs = refs' := by
  have : Std.Irrefl fun r s : Ref => r < s := ⟨Ref.lt_irrefl⟩
  have : Std.Antisymm fun r s : Ref => r < s :=
    ⟨fun r s hrs hsr => absurd (Ref.lt_trans hrs hsr) r.lt_irrefl⟩
  exact List.Pairwise.eq_of_mem_iff h h' hmem

namespace Dependencies

/-- What is inserted is a member, and no other member is lost. -/
theorem mem_insertRef {r q : Ref} {refs : List Ref} : q ∈ insertRef r refs ↔ q = r ∨ q ∈ refs := by
  induction refs with
  | nil => exact List.mem_cons
  | cons s rest ih =>
    rcases h : r.order s with - | - | -
    · simp only [insertRef, h, List.mem_cons]
    · obtain rfl := Ref.eq_of_order h
      simp only [insertRef, h, List.mem_cons, or_self_left]
    · simp only [insertRef, h, List.mem_cons, ih]
      exact or_left_comm

/-- References stay in increasing order when one is inserted. -/
theorem increasing_insertRef (r : Ref) {refs : List Ref} (h : Increasing refs) :
    Increasing (insertRef r refs) := by
  induction refs with
  | nil => exact List.pairwise_singleton _ r
  | cons s rest ih =>
    obtain ⟨hs, hrest⟩ := List.pairwise_cons.mp h
    rcases hrs : r.order s with - | - | -
    · -- before the first: `r` is less than it, and so less than all
      have hlt : r < s := Ref.order_eq_lt.mp hrs
      simp only [insertRef, hrs]
      refine List.pairwise_cons.mpr ⟨?_, h⟩
      intro q hq
      rcases List.mem_cons.mp hq with rfl | hq
      · exact hlt
      · exact Ref.lt_trans hlt (hs q hq)
    · simpa only [insertRef, hrs] using h
    · simp only [insertRef, hrs]
      refine List.pairwise_cons.mpr ⟨?_, ih hrest⟩
      intro q hq
      -- what stands after `s` now is `r` or was there before
      rcases mem_insertRef.mp hq with rfl | hq
      · exact Ref.order_eq_gt.mp hrs
      · exact hs q hq

/-! ### The references that are required and not defined -/

theorem increasing_undefined (d : Dependencies) : Increasing d.undefined := by
  unfold undefined
  induction d.required.filter fun r => r ∉ d.defined with
  | nil => exact List.Pairwise.nil
  | cons r refs ih => exact increasing_insertRef r ih

theorem mem_undefined {d : Dependencies} {r : Ref} :
    r ∈ d.undefined ↔ r ∈ d.required ∧ r ∉ d.defined := by
  have aux : ∀ refs : List Ref, r ∈ refs.foldr insertRef [] ↔ r ∈ refs := by
    intro refs
    induction refs with
    | nil => exact Iff.rfl
    | cons q refs ih => rw [List.foldr_cons, mem_insertRef, ih, List.mem_cons]
  rw [undefined, aux, List.mem_filter, decide_eq_true_eq]

/-! ### Remarks -/

/-- What dependencies can be told. -/
inductive Remark where
  | notice (notice : Notice)
  /-- References are defined from elsewhere. -/
  | predefine (refs : List Ref)
deriving DecidableEq

/-- Takes in a remark. -/
def tell (d : Dependencies) : Remark → Dependencies
  | .notice n => d.notice n
  | .predefine refs => d.predefine refs

/-- Takes in remarks in order. -/
def tellAll (d : Dependencies) (remarks : List Remark) : Dependencies :=
  remarks.foldl tell d

theorem tellAll_concat (d : Dependencies) (remarks : List Remark) (remark : Remark) :
    d.tellAll (remarks ++ [remark]) = (d.tellAll remarks).tell remark := by
  simp only [tellAll, List.foldl_append, List.foldl_cons, List.foldl_nil]

theorem tellAll_notices (d : Dependencies) (notices : List Notice) :
    d.tellAll (notices.map .notice) = d.noticeAll notices := by
  rw [tellAll, List.foldl_map]
  rfl

/-- The references that a remark mentions as defined. -/
def Remark.mentions : Remark → List Ref
  | .notice (.define r) => [r]
  | .notice _ => []
  | .predefine refs => refs

/-- The reference that a remark defines. -/
def Remark.defines? : Remark → Option Ref
  | .notice (.define r) => some r
  | _ => none

/-- The depth after a remark; it stays zero if nothing has been entered. -/
def Remark.depthFrom (depth : Nat) : Remark → Nat
  | .notice .enter => depth + 1
  | .notice .leave => depth - 1
  | _ => depth

/-- The depth after some remarks. -/
def depthAfter (remarks : List Remark) : Nat :=
  remarks.foldl Remark.depthFrom 0

/-- The reference defined at a place in some remarks, if one before it mentions it. -/
def redefinitionAt? (remarks : List Remark) (i : Nat) : Option Ref :=
  (remarks[i]?.bind Remark.defines?).filter fun r => r ∈ (remarks.take i).flatMap Remark.mentions

/-- The references defined at places before which they were mentioned, in order. -/
def redefinitions (remarks : List Remark) : List Ref :=
  (List.range remarks.length).filterMap (redefinitionAt? remarks)

theorem depthAfter_concat (remarks : List Remark) (remark : Remark) :
    depthAfter (remarks ++ [remark]) = remark.depthFrom (depthAfter remarks) := by
  simp only [depthAfter, List.foldl_append, List.foldl_cons, List.foldl_nil]

/-- One more remark is a redefinition if a remark before it mentions what it defines; for the
remarks before it nothing changes. -/
theorem redefinitions_concat (remarks : List Remark) (remark : Remark) :
    redefinitions (remarks ++ [remark]) =
      redefinitions remarks ++
        (remark.defines?.filter fun r => r ∈ remarks.flatMap Remark.mentions).toList := by
  have hbefore : (List.range remarks.length).filterMap (redefinitionAt? (remarks ++ [remark])) =
      redefinitions remarks := by
    refine List.filterMap_congr fun i hi => ?_
    -- an earlier place has the same remarks before it
    have hlt : i < remarks.length := List.mem_range.mp hi
    rw [redefinitionAt?, List.getElem?_append_left hlt, List.take_append_of_le_length hlt.le]
    rfl
  have hlast : redefinitionAt? (remarks ++ [remark]) remarks.length =
      remark.defines?.filter fun r => r ∈ remarks.flatMap Remark.mentions := by
    simp [redefinitionAt?]
  rw [redefinitions, List.length_append, List.length_singleton, List.range_succ,
    List.filterMap_append, hbefore]
  simp only [List.filterMap_cons, List.filterMap_nil, hlast]
  rcases remark.defines?.filter fun r => r ∈ remarks.flatMap Remark.mentions with - | r <;> rfl

/-! ### One more remark -/

section

variable (d : Dependencies) (remark : Remark)

theorem mem_defined_tell {r : Ref} :
    r ∈ (d.tell remark).defined ↔ r ∈ d.defined ∨ r ∈ remark.mentions := by
  rcases remark with (- | - | s | s) | refs
  · simp [tell, notice, Remark.mentions]
  · simp [tell, notice, Remark.mentions]
  · by_cases hs : s ∈ d.defined
    · -- `s` is a duplicate, and has been among the defined ones
      simp only [tell, notice, hs, if_true, Remark.mentions, List.mem_singleton]
      exact ⟨Or.inl, fun h => h.elim id fun heq => heq ▸ hs⟩
    · simp only [tell, notice, hs, if_false, Remark.mentions, List.mem_cons, List.not_mem_nil,
        or_false]
      exact or_comm
  · simp [tell, notice, Remark.mentions]
  · simp [tell, predefine, Remark.mentions, or_comm]

theorem mem_required_tell {r : Ref} :
    r ∈ (d.tell remark).required ↔ r ∈ d.required ∨ remark = .notice (.require r) := by
  rcases remark with (- | - | s | s) | refs
  · simp [tell, notice]
  · simp [tell, notice]
  · by_cases hs : s ∈ d.defined <;> simp [tell, notice, hs]
  · simp only [tell, notice, List.mem_cons, Remark.notice.injEq, Notice.require.injEq]
    exact or_comm.trans (or_congr_right eq_comm)
  · simp [tell, predefine]

/-- A definition is put among the duplicates if its reference is known as defined. -/
theorem duplicates_tell :
    (d.tell remark).duplicates =
      d.duplicates ++ (remark.defines?.filter fun r => r ∈ d.defined).toList := by
  rcases remark with (- | - | s | s) | refs
  · simp [tell, notice, Remark.defines?]
  · simp [tell, notice, Remark.defines?]
  · by_cases hs : s ∈ d.defined <;> simp [tell, notice, Remark.defines?, Option.filter, hs]
  · simp [tell, notice, Remark.defines?]
  · simp [tell, predefine, Remark.defines?]

theorem nodes_tell :
    (d.tell remark).nodes = d.nodes + [remark].count (.notice .enter) := by
  rcases remark with (- | - | s | s) | refs
  · rfl
  · rfl
  · by_cases hs : s ∈ d.defined <;> simp [tell, notice, hs]
  · rfl
  · rfl

theorem depth_tell : (d.tell remark).depth = remark.depthFrom d.depth := by
  rcases remark with (- | - | s | s) | refs
  · rfl
  · rfl
  · by_cases hs : s ∈ d.defined <;> simp [tell, notice, Remark.depthFrom, hs]
  · rfl
  · rfl

/-- The greatest depth keeps up with the depth, if it is not below it. -/
theorem maxDepth_tell (h : d.depth ≤ d.maxDepth) :
    (d.tell remark).maxDepth = max d.maxDepth (remark.depthFrom d.depth) := by
  rcases remark with (- | - | s | s) | refs
  · rfl
  · exact (Nat.max_eq_left ((Nat.sub_le _ 1).trans h)).symm
  · by_cases hs : s ∈ d.defined <;> simp [tell, notice, Remark.depthFrom, hs, h]
  · exact (Nat.max_eq_left h).symm
  · exact (Nat.max_eq_left h).symm

end

/-! ### What is known after some remarks -/

/-- What dependencies know after some remarks, if nothing was noticed before. -/
structure Knows (d : Dependencies) (remarks : List Remark) : Prop where
  defined : ∀ r, r ∈ d.defined ↔ r ∈ remarks.flatMap Remark.mentions
  required : ∀ r, r ∈ d.required ↔ .notice (.require r) ∈ remarks
  duplicates : d.duplicates = redefinitions remarks
  nodes : d.nodes = remarks.count (.notice .enter)
  depth : d.depth = depthAfter remarks
  deepest : ∃ start, start <+: remarks ∧ depthAfter start = d.maxDepth
  bound : ∀ start, start <+: remarks → depthAfter start ≤ d.maxDepth

theorem knows_fresh : Knows fresh [] where
  defined _ := Iff.rfl
  required _ := ⟨nofun, nofun⟩
  duplicates := rfl
  nodes := rfl
  depth := rfl
  deepest := ⟨[], List.prefix_rfl, rfl⟩
  bound start h := by
    obtain rfl := List.prefix_nil.mp h
    exact Nat.le_refl 0

variable {d : Dependencies} {remarks : List Remark}

theorem Knows.depth_le (h : d.Knows remarks) : d.depth ≤ d.maxDepth :=
  h.depth ▸ h.bound remarks List.prefix_rfl

/-- **One more remark.** -/
theorem Knows.tell (h : d.Knows remarks) (remark : Remark) :
    (d.tell remark).Knows (remarks ++ [remark]) where
  defined r := by
    rw [mem_defined_tell, h.defined, List.flatMap_append, List.mem_append, List.flatMap_singleton]
  required r := by
    rw [mem_required_tell, h.required, List.mem_append, List.mem_singleton, eq_comm]
  duplicates := by
    have hmentioned : (fun r => decide (r ∈ d.defined)) =
        fun r => decide (r ∈ remarks.flatMap Remark.mentions) := by
      funext r
      exact decide_eq_decide.mpr (h.defined r)
    rw [duplicates_tell, h.duplicates, redefinitions_concat, hmentioned]
  nodes := by rw [nodes_tell, h.nodes, List.count_append]
  depth := by rw [depth_tell, h.depth, depthAfter_concat]
  deepest := by
    rw [maxDepth_tell d remark h.depth_le]
    rcases Nat.le_total (remark.depthFrom d.depth) d.maxDepth with hle | hle
    · obtain ⟨start, hstart, hdepth⟩ := h.deepest
      exact ⟨start, hstart.trans (List.prefix_append _ _), by rw [hdepth, Nat.max_eq_left hle]⟩
    · refine ⟨remarks ++ [remark], List.prefix_rfl, ?_⟩
      rw [depthAfter_concat, ← h.depth, Nat.max_eq_right hle]
  bound start hstart := by
    rw [maxDepth_tell d remark h.depth_le]
    rcases List.prefix_concat_iff.mp hstart with rfl | hstart
    · rw [depthAfter_concat, ← h.depth]
      exact Nat.le_max_right _ _
    · exact (h.bound start hstart).trans (Nat.le_max_left _ _)

/-- **What is known after a run of remarks.** -/
theorem knows_tellAll (remarks : List Remark) : (fresh.tellAll remarks).Knows remarks := by
  induction remarks using List.reverseRecOn with
  | nil => exact knows_fresh
  | append_singleton remarks remark ih =>
    rw [tellAll_concat]
    exact ih.tell remark

/-- Required by a remark, and mentioned as defined by none. -/
theorem Knows.mem_undefined_iff (h : d.Knows remarks) {r : Ref} :
    r ∈ d.undefined ↔ .notice (.require r) ∈ remarks ∧ r ∉ remarks.flatMap Remark.mentions := by
  rw [mem_undefined, h.required, h.defined]

/-- **Dependencies know what they were told.**  Let some remarks be made when nothing has been
noticed.  The references known to be required and not defined are increasing; they are those that
a remark requires and that no remark, before or after it, mentions as defined, and they are the
same if the remarks are made in another order.  The duplicates are the references defined where a
remark before mentions them, in order.  The number of nodes is the number of times that one was
entered, and the greatest depth is the greatest one at any time. -/
theorem dependencies_know_remarks (remarks : List Remark) :
    Increasing (fresh.tellAll remarks).undefined ∧
    (∀ r, r ∈ (fresh.tellAll remarks).undefined ↔
      .notice (.require r) ∈ remarks ∧ ∀ remark ∈ remarks, r ∉ remark.mentions) ∧
    (∀ remarks', remarks'.Perm remarks →
      (fresh.tellAll remarks').undefined = (fresh.tellAll remarks).undefined) ∧
    (fresh.tellAll remarks).duplicates = redefinitions remarks ∧
    (fresh.tellAll remarks).nodes = remarks.count (.notice .enter) ∧
    (∃ start, start <+: remarks ∧ depthAfter start = (fresh.tellAll remarks).maxDepth) ∧
    ∀ start, start <+: remarks → depthAfter start ≤ (fresh.tellAll remarks).maxDepth := by
  have h := knows_tellAll remarks
  refine ⟨increasing_undefined _, fun r => ?_, fun remarks' hperm => ?_, h.duplicates, h.nodes,
    h.deepest, h.bound⟩
  · rw [h.mem_undefined_iff, List.mem_flatMap]
    push Not
    rfl
  · refine eq_of_increasing (increasing_undefined _) (increasing_undefined _) fun r => ?_
    rw [(knows_tellAll remarks').mem_undefined_iff, h.mem_undefined_iff, hperm.mem_iff,
      (hperm.flatMap_right Remark.mentions).mem_iff]

/-- A reference is required before and after it is defined, another one is defined from elsewhere
and then again, and more nodes are left than entered. -/
theorem dependencies_know_remarks_reversed :
    let remarks : List Remark := [.notice .leave, .notice (.require ⟨2⟩), .notice .enter,
      .notice (.require ⟨1⟩), .predefine [⟨3⟩], .notice .enter, .notice (.define ⟨3⟩),
      .notice .leave, .notice .leave, .notice .leave, .notice .enter, .notice (.define ⟨2⟩),
      .notice (.require ⟨1⟩)]
    remarks.reverse.Perm remarks ∧
      (fresh.tellAll remarks.reverse).undefined = (fresh.tellAll remarks).undefined ∧
      (fresh.tellAll remarks).undefined = [⟨1⟩] ∧
      (fresh.tellAll remarks).duplicates = [⟨3⟩] ∧ (fresh.tellAll remarks).maxDepth = 2 := by
  intro remarks
  have hperm : remarks.reverse.Perm remarks := List.reverse_perm remarks
  exact ⟨hperm, (dependencies_know_remarks remarks).2.2.1 _ hperm, rfl, rfl, rfl⟩

end Dependencies
end ParametricPlan
