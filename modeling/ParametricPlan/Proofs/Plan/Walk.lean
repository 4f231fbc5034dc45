/-
ParametricPlan/Proofs/Plan/Walk.lean

The walk through a plan, node by node.

The notices of a plan are computed onto those that follow them.  What follows is only ever appended
to (`noticesOnto_eq_append`), so that a node has notices of its own (`Node.notices`): it is
entered, its instruction says what it has to say, the children follow in order, and it is left.

Two things can be read off the notices without knowing the plan.  Those that are facts are what the
instructions say, place by place (`Plan.facts_notices`).  The others count the depth, one up for a
node that is entered and one down for a node that is left, and the depths to which the nodes are
entered (`entryDepths`) tell how many nodes are above each place (`Plan.entryDepths_notices`).
-/
import Mathlib.Data.List.Basic
import ParametricPlan.Plan.Dependencies
import ParametricPlan.Proofs.Plan.Places

namespace ParametricPlan

/-! ### The notices of a node -/

theorem noticesAllOnto_eq_append {nodes : List Node}
    (h : ∀ node ∈ nodes, ∀ rest, node.noticesOnto rest = node.noticesOnto [] ++ rest)
    (rest : List Notice) :
    noticesAllOnto nodes rest = nodes.flatMap (Node.noticesOnto · []) ++ rest := by
  induction nodes with
  | nil => rfl
  | cons node nodes ih =>
    have hnodes := ih fun n hn => h n (List.mem_cons_of_mem node hn)
    rw [noticesAllOnto, h node List.mem_cons_self, hnodes, List.flatMap_cons, List.append_assoc]

/-- What follows a node is only appended to its notices. -/
theorem noticesOnto_eq_append (node : Node) (rest : List Notice) :
    node.noticesOnto rest = node.noticesOnto [] ++ rest := by
  induction node generalizing rest with
  | mk instruction children ih =>
    simp only [Node.noticesOnto]
    -- the notice that leaves the node is part of what follows the children
    rw [noticesAllOnto_eq_append ih, noticesAllOnto_eq_append ih]
    simp only [List.cons_append, List.append_assoc, List.nil_append]

/-- The notices of a node and of what is below it. -/
def Node.notices (node : Node) : List Notice :=
  node.noticesOnto []

/-- A node is entered, its instruction says its facts, the children follow, and it is left. -/
theorem Node.notices_mk (instruction : Instruction) (children : List Node) :
    (Node.mk instruction children).notices =
      .enter :: (instruction.notices ++ (children.flatMap Node.notices ++ [.leave])) := by
  show Notice.enter :: (instruction.notices ++ noticesAllOnto children [.leave]) = _
  rw [noticesAllOnto_eq_append fun child _ => noticesOnto_eq_append child]
  rfl

theorem Plan.notices_eq_flatMap (p : Plan) : p.notices = p.roots.flatMap Node.notices :=
  (noticesAllOnto_eq_append (fun node _ => noticesOnto_eq_append node) []).trans
    (List.append_nil _)

/-! ### Facts -/

/-- An instruction says facts only. -/
theorem Instruction.isFact_of_mem_notices {instruction : Instruction} {n : Notice}
    (h : n ∈ instruction.notices) : n.isFact = true := by
  rcases instruction with condition | ⟨label, formula⟩ | label | ⟨target, formula⟩
  · exact absurd h List.not_mem_nil
  · obtain ⟨r, -, rfl⟩ := List.mem_map.mp h
    rfl
  · exact absurd h List.not_mem_nil
  · -- an assignment: what its formula requires, and then its target
    rcases List.mem_append.mp h with h | h
    · obtain ⟨r, -, rfl⟩ := List.mem_map.mp h
      rfl
    · obtain rfl := List.mem_singleton.mp h
      rfl

theorem facts_flatMap_of {nodes : List Node} {above : List Instruction}
    (h : ∀ node ∈ nodes, node.notices.filter Notice.isFact =
      (node.places above).flatMap fun place => place.instruction.notices) :
    (nodes.flatMap Node.notices).filter Notice.isFact =
      (placesAll above nodes).flatMap fun place => place.instruction.notices := by
  rw [placesAll_eq_flatMap, List.filter_flatMap, List.flatMap_assoc]
  exact List.flatMap_congr h

theorem Node.facts_notices (node : Node) (above : List Instruction) :
    node.notices.filter Notice.isFact =
      (node.places above).flatMap fun place => place.instruction.notices := by
  induction node generalizing above with
  | mk instruction children ih =>
    have hown : instruction.notices.filter Notice.isFact = instruction.notices :=
      List.filter_eq_self.mpr fun n hn => Instruction.isFact_of_mem_notices hn
    have hchildren := facts_flatMap_of fun child hc => ih child hc (above ++ [instruction])
    have hleave : [Notice.leave].filter Notice.isFact = [] := rfl
    rw [Node.notices_mk, Node.places, List.flatMap_cons, ← hchildren,
      List.filter_cons_of_neg Bool.false_ne_true, List.filter_append, List.filter_append, hown,
      hleave, List.append_nil]

/-- **The facts of a walk are what the instructions say**, place by place. -/
theorem Plan.facts_notices (p : Plan) :
    p.notices.filter Notice.isFact =
      p.places.flatMap fun place => place.instruction.notices := by
  rw [p.notices_eq_flatMap]
  exact facts_flatMap_of fun node _ => node.facts_notices []

/-- A fact is among the notices just if the instruction of a place says it. -/
theorem Plan.mem_notices_iff (p : Plan) {n : Notice} (h : n.isFact = true) :
    n ∈ p.notices ↔ ∃ place ∈ p.places, n ∈ place.instruction.notices := by
  rw [← List.mem_flatMap, ← p.facts_notices, List.mem_filter]
  exact (and_iff_left h).symm

/-! ### Reading off a walk -/

/-- What passes over a fact passes over all that an instruction says. -/
theorem read_append_of_facts {β : Type} {read : List Notice → β}
    (hread : ∀ n rest, n.isFact = true → read (n :: rest) = read rest) {facts : List Notice}
    (h : ∀ n ∈ facts, n.isFact = true) (rest : List Notice) :
    read (facts ++ rest) = read rest := by
  induction facts with
  | nil => rfl
  | cons n facts ih =>
    rw [List.cons_append, hread n _ (h n List.mem_cons_self)]
    exact ih fun m hm => h m (List.mem_cons_of_mem n hm)

/-- What is read off the walk through each node place by place is read so off all of them. -/
theorem read_flatMap_of {β : Type} {read : List Notice → List β} {said : Place → β}
    {nodes : List Node} {above : List Instruction}
    (h : ∀ node ∈ nodes, ∀ rest, read (node.notices ++ rest) =
      (node.places above).map said ++ read rest) (rest : List Notice) :
    read (nodes.flatMap Node.notices ++ rest) =
      (placesAll above nodes).map said ++ read rest := by
  induction nodes with
  | nil => rfl
  | cons node nodes ih =>
    have hnodes := ih fun n hn => h n (List.mem_cons_of_mem node hn)
    rw [List.flatMap_cons, List.append_assoc, h node List.mem_cons_self, hnodes, placesAll,
      List.map_append, List.append_assoc]

/-- What is read off the walk through each node place by place is read so off the walk through a
plan. -/
theorem Plan.read_notices_of {β : Type} {read : List Notice → List β} {said : Place → β}
    (hnil : read [] = []) (h : ∀ (node : Node) rest, read (node.notices ++ rest) =
      (node.places []).map said ++ read rest) (p : Plan) :
    read p.notices = p.places.map said := by
  have hroots : read (p.roots.flatMap Node.notices ++ []) = p.places.map said ++ read [] :=
    read_flatMap_of (fun node _ => h node) []
  rwa [hnil, List.append_nil, List.append_nil, ← p.notices_eq_flatMap] at hroots

/-! ### Depths -/

/-- What a notice does to the depth. -/
def Notice.rise : Notice → Int
  | enter => 1
  | leave => -1
  | define _ | require _ => 0

/-- The depths to which nodes are entered, from a depth on. -/
def entryDepths (depth : Int) : List Notice → List Int
  | [] => []
  | .enter :: rest => (depth + 1) :: entryDepths (depth + 1) rest
  | n :: rest => entryDepths (depth + n.rise) rest

theorem entryDepths_cons_of_fact {n : Notice} (h : n.isFact = true) (depth : Int)
    (rest : List Notice) : entryDepths depth (n :: rest) = entryDepths depth rest := by
  rcases n with - | - | r | r
  · cases h
  · cases h
  · rw [entryDepths, Notice.rise, Int.add_zero]
    exact nofun
  · rw [entryDepths, Notice.rise, Int.add_zero]
    exact nofun

theorem Node.entryDepths_notices (node : Node) (above : List Instruction) (rest : List Notice) :
    entryDepths above.length (node.notices ++ rest) =
      (node.places above).map (fun place => (place.above.length : Int) + 1) ++
        entryDepths above.length rest := by
  -- a node gives back the depth at which it was entered
  induction node generalizing above rest with
  | mk instruction children ih =>
    have hlength : (above.length : Int) + 1 = (above ++ [instruction]).length := by simp
    have hchildren := read_flatMap_of fun child hc => ih child hc (above ++ [instruction])
    have hleave : entryDepths (above ++ [instruction]).length (.leave :: rest) =
        entryDepths above.length rest := by
      rw [entryDepths, Notice.rise, ← hlength, Int.add_neg_cancel_right]
      exact nofun
    calc entryDepths above.length ((Node.mk instruction children).notices ++ rest)
        = ((above.length : Int) + 1) :: entryDepths (above ++ [instruction]).length
            (instruction.notices ++ (children.flatMap Node.notices ++ .leave :: rest)) := by
          rw [Node.notices_mk, ← hlength]
          simp only [List.cons_append, List.append_assoc, List.nil_append, entryDepths]
      _ = ((above.length : Int) + 1) ::
            ((placesAll (above ++ [instruction]) children).map
              (fun place => (place.above.length : Int) + 1) ++ entryDepths above.length rest) := by
          rw [read_append_of_facts (fun n rest hn => entryDepths_cons_of_fact hn _ rest)
            (fun n hn => Instruction.isFact_of_mem_notices hn), hchildren, hleave]
      _ = _ := by
          rw [Node.places, List.map_cons, List.cons_append]

/-- **Nodes are entered to the depth of their places**, in the order of the places. -/
theorem Plan.entryDepths_notices (p : Plan) :
    entryDepths 0 p.notices = p.places.map fun place => (place.above.length : Int) + 1 :=
  p.read_notices_of rfl fun node rest => node.entryDepths_notices [] rest

end ParametricPlan
