/-
ParametricPlan/Proofs/Formula/Preorder.lean

Walks go through a formula in pre-order.

A *position* in a formula says how to get down to one of its nodes: which child to take, and which
of its children next, down to the node (`at?`).  Positions are ordered as words are in a
dictionary, so that a node comes before all nodes below it, and what is below one child before
what is below the next.  `positions` lists the positions of all nodes, in this order
(`positions_increasing`, `mem_positions_iff`).

A visitor that does the same thing at each meeting does it once for each of the visits, in order
(`walk_stepping`), and the visits are what is met at the positions from the first to the last, or at
those of them that have no call above them (`visits_eq_filterMap`).  `walk_in_preorder` is the main
result.
-/
import Mathlib.Data.List.Infix
import ParametricPlan.Formula.Visitor
import ParametricPlan.Proofs.Formula.References
import ParametricPlan.Proofs.Formula.Visits

namespace ParametricPlan

/-! ### Walks -/

/-- The reference that was met, if it was one. -/
def Visit.reference? : Visit → Option Ref
  | reference r => some r
  | literal _ | call _ _ => none

/-- The visitor that does the same at each meeting, and may pass over the arguments of calls. -/
def Visitor.stepping {σ : Type} (step : σ → Visit → σ) (enterCalls : Bool) : Visitor σ where
  literal value s := step s (.literal value)
  reference r s := step s (.reference r)
  call function args goOn s :=
    if enterCalls then goOn (step s (.call function args.length))
    else step s (.call function args.length)

/-- Adds what was met to some references, if it is one. -/
def Visitor.noteReference (refs : Array Ref) : Visit → Array Ref
  | .reference r => refs.push r
  | .literal _ | .call _ _ => refs

namespace Formula

section

variable {σ : Type} (step : σ → Visit → σ) (enterCalls : Bool)

/-- A walk goes through arguments one after the other. -/
theorem walkAll_stepping_of {args : List Formula}
    (h : ∀ arg ∈ args, ∀ s, arg.walk (.stepping step enterCalls) s =
      (arg.visits enterCalls).foldl step s) (s : σ) :
    walkAll (.stepping step enterCalls) args s =
      (args.flatMap (visits · enterCalls)).foldl step s := by
  induction args generalizing s with
  | nil => rfl
  | cons e es ih =>
    rw [List.flatMap_cons, List.foldl_append, ← h e List.mem_cons_self]
    exact ih (fun arg ha => h arg (List.mem_cons_of_mem e ha)) _

/-- A walk goes from one visit to the next. -/
theorem walk_stepping (e : Formula) (s : σ) :
    e.walk (.stepping step enterCalls) s = (e.visits enterCalls).foldl step s := by
  induction e generalizing s with
  | constant v => rfl
  | named name v => rfl
  | reference r => rfl
  | unary op operand ih => exact ih s
  | binary op left right ihl ihr =>
    rw [visits_binary, List.foldl_append, ← ihl, ← ihr]
    rfl
  | call f args ih =>
    rw [visits_call, List.foldl_cons]
    cases enterCalls with
    | false => rfl
    | true =>
      rw [if_pos rfl, ← walkAll_stepping_of step true ih]
      rfl

end

/-- What a recorder notes down is what is met. -/
theorem recorded_eq_visits (e : Formula) (enterCalls : Bool) :
    e.recorded enterCalls = e.visits enterCalls := by
  -- a recorder is the visitor that pushes what it meets
  have hwalk : e.walk (.recorder enterCalls) #[] = (e.visits enterCalls).foldl Array.push #[] :=
    walk_stepping Array.push enterCalls e #[]
  rw [recorded, hwalk, List.foldl_push_eq_append', Array.toList_append]
  rfl

/-- The references of a formula are those among its visits. -/
theorem references_eq_filterMap_visits (e : Formula) :
    e.references = (e.visits true).filterMap Visit.reference? := by
  induction e with
  | constant v => rfl
  | named name v => rfl
  | reference r => rfl
  | unary op operand ih => exact ih
  | binary op left right ihl ihr =>
    rw [references_binary, visits_binary, List.filterMap_append, ihl, ihr]
  | call f args ih =>
    rw [references_call, visits_call, if_pos rfl, List.filterMap_cons, List.filterMap_flatMap]
    exact List.flatMap_congr ih

/-- References are noted down behind those that were noted before. -/
theorem toList_foldl_noteReference (met : List Visit) (refs : Array Ref) :
    (met.foldl Visitor.noteReference refs).toList =
      refs.toList ++ met.filterMap Visit.reference? := by
  induction met generalizing refs with
  | nil => exact (List.append_nil _).symm
  | cons x met ih =>
    rw [List.foldl_cons, ih]
    cases x with
    | literal v => rfl
    | call f count => rfl
    | reference r =>
      rw [Visitor.noteReference, Array.toList_push, List.append_assoc]
      rfl

/-- What a collector notes down is the references of the formula. -/
theorem collected_eq_references (e : Formula) : e.collected = e.references := by
  have hcollector : Visitor.collector = .stepping Visitor.noteReference true := rfl
  rw [collected, hcollector, walk_stepping, toList_foldl_noteReference,
    references_eq_filterMap_visits]
  rfl

/-! ### Positions -/

/-- The formulas directly inside a formula, from left to right. -/
def children : Formula → List Formula
  | constant _ | named _ _ | reference _ => []
  | unary _ operand => [operand]
  | binary _ left right => [left, right]
  | call _ args => args

/-- The way down to a node: the number of the child to take, at each step. -/
abbrev Position := List Nat

/-- The node at a position. -/
def at? : Formula → Position → Option Formula
  | e, [] => some e
  | e, i :: p => e.children[i]?.bind (·.at? p)

mutual

/-- The positions of all nodes of a formula. -/
def positions : Formula → List Position
  | constant _ | named _ _ | reference _ => [[]]
  | unary _ operand => [] :: operand.positions.map (0 :: ·)
  | binary _ left right => [] :: (left.positions.map (0 :: ·) ++ right.positions.map (1 :: ·))
  | call _ args => [] :: positionsAll args 0

/-- The positions of all nodes of several children, of which the first is the one of a given
number. -/
def positionsAll : List Formula → Nat → List Position
  | [], _ => []
  | e :: es, i => e.positions.map (i :: ·) ++ positionsAll es (i + 1)

end

/-- A formula comes before its children, whatever kind of formula it is. -/
theorem positions_eq (e : Formula) : e.positions = [] :: positionsAll e.children 0 := by
  cases e <;> simp [positions, positionsAll, children]

/-- A property of formulas holds of all of them if it goes from the children of a formula to the
formula. -/
theorem children_induction {motive : Formula → Prop}
    (parent : ∀ e, (∀ c ∈ e.children, motive c) → motive e) (e : Formula) : motive e := by
  induction e with
  | constant v => exact parent _ (by simp [children])
  | named name v => exact parent _ (by simp [children])
  | reference r => exact parent _ (by simp [children])
  | unary op operand ih => exact parent _ (by simpa [children] using ih)
  | binary op left right ihl ihr => exact parent _ (by simpa [children] using ⟨ihl, ihr⟩)
  | call f args ih => exact parent _ ih

/-- A position below several children leads to one of them first. -/
theorem mem_positionsAll_iff {es : List Formula} {i : Nat} {p : Position} :
    p ∈ positionsAll es i ↔ ∃ j c q, es[j]? = some c ∧ q ∈ c.positions ∧ p = (i + j) :: q := by
  induction es generalizing i with
  | nil => simp [positionsAll]
  | cons e es ih =>
    rw [positionsAll, List.mem_append, List.mem_map, ih]
    constructor
    · rintro (⟨q, hq, rfl⟩ | ⟨j, c, q, hc, hq, rfl⟩)
      · exact ⟨0, e, q, rfl, hq, rfl⟩
      · exact ⟨j + 1, c, q, hc, hq, by rw [Nat.add_right_comm, Nat.add_assoc]⟩
    · rintro ⟨_ | j, c, q, hc, hq, rfl⟩
      · obtain rfl : e = c := Option.some.inj hc
        exact .inl ⟨q, hq, rfl⟩
      · exact .inr ⟨j, c, q, hc, hq, by rw [Nat.add_right_comm, Nat.add_assoc]⟩

/-- The positions in a formula are those that lead to a node of it. -/
theorem mem_positions_iff {e : Formula} {p : Position} :
    p ∈ e.positions ↔ ∃ n, e.at? p = some n := by
  induction e using children_induction generalizing p with
  | parent e ih =>
    rw [positions_eq, List.mem_cons, mem_positionsAll_iff]
    rcases p with _ | ⟨i, p⟩
    · exact iff_of_true (.inl rfl) ⟨e, rfl⟩
    · -- one step down is taken by `at?` as by `positions`
      have hcons : (∃ n, e.at? (i :: p) = some n) ↔
          ∃ c, e.children[i]? = some c ∧ ∃ n, c.at? p = some n := by
        simp only [at?, Option.bind_eq_some_iff]
        exact ⟨fun ⟨n, c, hc, hn⟩ => ⟨c, hc, n, hn⟩, fun ⟨c, hc, n, hn⟩ => ⟨n, c, hc, hn⟩⟩
      rw [hcons, or_iff_right (List.cons_ne_nil i p)]
      constructor
      · rintro ⟨j, c, q, hc, hq, heq⟩
        obtain ⟨rfl, rfl⟩ := List.cons.inj heq
        rw [Nat.zero_add]
        exact ⟨c, hc, (ih c (List.mem_of_getElem? hc)).mp hq⟩
      · rintro ⟨c, hc, hn⟩
        exact ⟨i, c, p, hc, (ih c (List.mem_of_getElem? hc)).mpr hn, by rw [Nat.zero_add]⟩

/-- What is below one child comes before what is below the next. -/
theorem positionsAll_increasing_of {es : List Formula}
    (h : ∀ c ∈ es, c.positions.Pairwise (· < ·)) (i : Nat) :
    (positionsAll es i).Pairwise (· < ·) := by
  induction es generalizing i with
  | nil => exact .nil
  | cons e es ih =>
    rw [positionsAll, List.pairwise_append, List.pairwise_map]
    have hrest := ih fun c hc => h c (List.mem_cons_of_mem e hc)
    refine ⟨(h e List.mem_cons_self).imp fun hlt => ?_, hrest _, ?_⟩
    · exact List.cons_lt_cons_iff.mpr (.inr ⟨rfl, hlt⟩)
    · -- all of the first child comes before all of the others
      intro p hp p' hp'
      obtain ⟨q, -, rfl⟩ := List.mem_map.mp hp
      obtain ⟨j, c, q', -, -, rfl⟩ := mem_positionsAll_iff.mp hp'
      exact List.cons_lt_cons_iff.mpr (.inl (by omega))

/-- The positions in a formula are listed in the order of a dictionary. -/
theorem positions_increasing (e : Formula) : e.positions.Pairwise (· < ·) := by
  induction e using children_induction with
  | parent e ih =>
    rw [positions_eq, List.pairwise_cons]
    -- the empty position comes before all that lead further down
    refine ⟨fun p hp => ?_, positionsAll_increasing_of ih 0⟩
    obtain ⟨j, c, q, -, -, rfl⟩ := mem_positionsAll_iff.mp hp
    exact List.nil_lt_cons _ _

/-! ### Visits -/

/-- What a walk meets at a node, if anything. -/
def visit? : Formula → Option Visit
  | constant v | named _ v => some (.literal v)
  | reference r => some (.reference r)
  | call f args => some (.call f args.length)
  | unary .. | binary .. => none

/-- What a walk meets at a position, if anything. -/
def visitAt? (e : Formula) (p : Position) : Option Visit :=
  (e.at? p).bind visit?

/-- Whether a formula is a call. -/
def isCall : Formula → Bool
  | call .. => true
  | constant _ | named .. | reference _ | unary .. | binary .. => false

/-- A leaf has nothing inside it, and is not a call: one without arguments is no leaf. -/
theorem isLeaf_iff {e : Formula} : e.isLeaf = true ↔ e.children = [] ∧ e.isCall = false := by
  cases e <;> simp [isLeaf, children, isCall]

/-- No node on the way down to a position is a call. -/
def OutsideCalls (e : Formula) (p : Position) : Prop :=
  ∀ q ∈ p.inits, q ≠ p → (e.at? q).any isCall = false

instance (e : Formula) : DecidablePred e.OutsideCalls := fun p =>
  inferInstanceAs (Decidable (∀ q ∈ p.inits, q ≠ p → (e.at? q).any isCall = false))

/-- There is nothing above a formula as a whole. -/
theorem outsideCalls_nil (e : Formula) : e.OutsideCalls [] := by
  intro q hq hne
  exact absurd (List.mem_singleton.mp hq) hne

/-- On the way down there is the formula itself, and then what is on the way below its child. -/
theorem outsideCalls_cons_iff {e : Formula} {i : Nat} {p : Position} :
    e.OutsideCalls (i :: p) ↔
      e.isCall = false ∧ ∀ c, e.children[i]? = some c → c.OutsideCalls p := by
  have hself : e.at? [] = some e := rfl
  have hcons : ∀ q, e.at? (i :: q) = e.children[i]?.bind (·.at? q) := fun _ => rfl
  simp only [OutsideCalls, List.inits_cons, List.forall_mem_cons, List.forall_mem_map, hself, hcons,
    ne_eq, List.nil_eq, reduceCtorEq, not_false_eq_true, true_imp_iff, Option.any_some,
    List.cons.injEq, true_and]
  refine and_congr_right' ?_
  cases e.children[i]? with
  | none => simp
  | some c => simp

/-- What a walk meets at a position, if it goes there. -/
def metAt? (enterCalls : Bool) (e : Formula) (p : Position) : Option Visit :=
  if enterCalls = true ∨ e.OutsideCalls p then e.visitAt? p else none

/-- A walk always comes to the formula as a whole. -/
theorem metAt?_nil (enterCalls : Bool) (e : Formula) : e.metAt? enterCalls [] = e.visit? :=
  if_pos (.inr e.outsideCalls_nil)

/-- Below a node that a walk goes through, it meets what a walk through the child would meet. -/
theorem metAt?_cons {enterCalls : Bool} {e c : Formula} {i : Nat} (hc : e.children[i]? = some c)
    (h : enterCalls = true ∨ e.isCall = false) (p : Position) :
    e.metAt? enterCalls (i :: p) = c.metAt? enterCalls p := by
  have hvisit : e.visitAt? (i :: p) = c.visitAt? p := by
    rw [visitAt?, at?, hc]
    rfl
  -- where the walk goes on is the same above and below
  have hgoes : enterCalls = true ∨ e.OutsideCalls (i :: p) ↔
      enterCalls = true ∨ c.OutsideCalls p := by
    rw [outsideCalls_cons_iff, hc]
    rcases h with h | h
    · simp [h]
    · simp [h]
  simp only [metAt?, hvisit, hgoes]

/-- A walk that does not enter calls goes nowhere below one. -/
theorem metAt?_cons_of_isCall {e : Formula} (h : e.isCall = true) (i : Nat) (p : Position) :
    e.metAt? false (i :: p) = none := by
  refine if_neg ?_
  rw [outsideCalls_cons_iff, h]
  simp

/-- A node is met before what is below it, if the walk goes there at all. -/
theorem visits_eq_children (e : Formula) (enterCalls : Bool) :
    e.visits enterCalls = e.visit?.toList ++
      if enterCalls = true ∨ e.isCall = false then e.children.flatMap (visits · enterCalls)
      else [] := by
  cases e with
  | constant v => simp [visit?, children]
  | named name v => simp [visit?, children]
  | reference r => simp [visit?, children]
  | unary op operand => simp [visit?, children, isCall, visits_unary]
  | binary op left right => simp [visit?, children, isCall, visits_binary]
  | call f args => simp [visit?, children, isCall, visits_call]

/-- Below a node that a walk goes through, what is met is what is met in the children. -/
theorem filterMap_positionsAll_of {enterCalls : Bool} {e : Formula}
    (hgoes : enterCalls = true ∨ e.isCall = false) {es : List Formula} {i : Nat}
    (hes : ∀ j, e.children[i + j]? = es[j]?)
    (h : ∀ c ∈ es, c.visits enterCalls = c.positions.filterMap (c.metAt? enterCalls)) :
    (positionsAll es i).filterMap (e.metAt? enterCalls) = es.flatMap (visits · enterCalls) := by
  -- the children counted from the `i`-th on are those of the list
  induction es generalizing i with
  | nil => rfl
  | cons c es ih =>
    have hc : e.children[i]? = some c := hes 0
    have hrest : ∀ j, e.children[i + 1 + j]? = es[j]? := by
      intro j
      rw [Nat.add_right_comm, Nat.add_assoc]
      exact hes (j + 1)
    rw [positionsAll, List.filterMap_append, List.filterMap_map, List.flatMap_cons,
      h c List.mem_cons_self, ih hrest fun c hc => h c (List.mem_cons_of_mem _ hc)]
    exact congrArg (· ++ _) (List.filterMap_congr fun p _ => metAt?_cons hc hgoes p)

/-- Below a call that is passed over, nothing is met. -/
theorem filterMap_positionsAll_of_isCall {e : Formula} (h : e.isCall = true) (es : List Formula)
    (i : Nat) : (positionsAll es i).filterMap (e.metAt? false) = [] := by
  rw [List.filterMap_eq_nil_iff]
  intro p hp
  obtain ⟨j, c, q, -, -, rfl⟩ := mem_positionsAll_iff.mp hp
  exact metAt?_cons_of_isCall h _ _

/-- The visits are what is met at the positions to which the walk goes, one after the other. -/
theorem visits_eq_filterMap (e : Formula) (enterCalls : Bool) :
    e.visits enterCalls = e.positions.filterMap (e.metAt? enterCalls) := by
  induction e using children_induction with
  | parent e ih =>
    rw [visits_eq_children, positions_eq, List.filterMap_cons, metAt?_nil]
    have hrest : (if enterCalls = true ∨ e.isCall = false then
        e.children.flatMap (visits · enterCalls) else []) =
        (positionsAll e.children 0).filterMap (e.metAt? enterCalls) := by
      split
      case isTrue hgoes =>
        exact (filterMap_positionsAll_of hgoes (fun j => by rw [Nat.zero_add]) ih).symm
      case isFalse hstops =>
        rw [not_or, Bool.not_eq_true, Bool.not_eq_false] at hstops
        rw [hstops.1, filterMap_positionsAll_of_isCall hstops.2]
    -- what is met at the node itself comes first, if it is anything
    rw [hrest]
    cases e.visit? <;> rfl

/-- **A walk meets the nodes of a formula in pre-order.**

Each node has one position, which comes before those of all nodes below it.  A visitor that goes
into calls notes down what is at the positions, from the first to the last: every constant,
reference and call, with the number of its arguments.  The references among this are the references
of the formula, as another visitor collects them.  A visitor that passes over the arguments of
calls notes down, in the same order, just what is at the positions outside of all calls. -/
theorem walk_in_preorder (e : Formula) :
    e.positions.Pairwise (· < ·) ∧
    (∀ p, p ∈ e.positions ↔ ∃ n, e.at? p = some n) ∧
    e.recorded true = e.positions.filterMap e.visitAt? ∧
    (e.recorded true).filterMap Visit.reference? = e.references ∧
    e.collected = e.references ∧
    e.recorded false = (e.positions.filter (e.OutsideCalls ·)).filterMap e.visitAt? := by
  refine ⟨e.positions_increasing, fun p => mem_positions_iff, ?_, ?_, e.collected_eq_references, ?_⟩
  · rw [recorded_eq_visits, visits_eq_filterMap]
    exact List.filterMap_congr fun p _ => if_pos (.inl rfl)
  · rw [recorded_eq_visits, references_eq_filterMap_visits]
  · rw [recorded_eq_visits, visits_eq_filterMap, List.filterMap_filter]
    refine List.filterMap_congr fun p _ => ?_
    simp [metAt?]

end Formula
end ParametricPlan
