/-
ParametricPlan/Proofs/Plan/Analysis.lean

The analysis of a plan as a walk in brackets.

To enter a node and to leave it are the brackets of a walk.  They match, and the facts stand right
after the opening ones (`Bracketed`); so the notices of a plan are known from the facts after each
opening bracket (`entries`) and from the depth that it leads to (`entryDepths`).  Both are read off
the places of the plan: there is one pair of brackets for each node, in the order of the places.

Dependencies have no brackets, but a depth that rises and falls, and it may be anything when the
walk begins.  What notices do to them is said by `Grows`: the depth comes back to what it was, the
nodes are counted, the greatest depth is that of the levels below the present one if they go
deeper, and no node is left at depth zero.  A pair of brackets adds a node and a level
(`Grows.brackets`), and so a plan adds its nodes and its height (`grows_notices`).

A walk in another order tells the same facts (`Reordered.perm_notices`), and the references that
are required and not defined do not depend on their order.
`Plan.analysis_walks_and_counts` is the main result.
-/
import ParametricPlan.Proofs.Plan.Unresolved

namespace ParametricPlan

/-! ### Brackets -/

/-- Notices in which every node that is entered is left, with all facts right after an entry. -/
inductive Bracketed : List Notice → Prop
  | nil : Bracketed []
  | pair {facts inside rest : List Notice} (own : ∀ n ∈ facts, n.isFact = true)
      (inner : Bracketed inside) (later : Bracketed rest) :
      Bracketed (.enter :: (facts ++ (inside ++ .leave :: rest)))

/-- Bracketed notices may follow each other. -/
theorem Bracketed.append {notices later : List Notice} (h : Bracketed notices)
    (h' : Bracketed later) : Bracketed (notices ++ later) := by
  induction h with
  | nil => exact h'
  | pair own inner _ _ ih =>
    have hpair := Bracketed.pair own inner ih
    simpa only [List.cons_append, List.append_assoc] using hpair

theorem bracketed_flatMap_of {nodes : List Node} (h : ∀ node ∈ nodes, Bracketed node.notices) :
    Bracketed (nodes.flatMap Node.notices) := by
  induction nodes with
  | nil => exact .nil
  | cons node nodes ih =>
    rw [List.flatMap_cons]
    exact (h node List.mem_cons_self).append (ih fun n hn => h n (List.mem_cons_of_mem node hn))

/-- A node is a pair of brackets around its children. -/
theorem Node.bracketed_notices (node : Node) : Bracketed node.notices := by
  induction node with
  | mk instruction children ih =>
    rw [Node.notices_mk]
    exact .pair (fun n hn => Instruction.isFact_of_mem_notices hn) (bracketed_flatMap_of ih) .nil

theorem Plan.bracketed_notices (p : Plan) : Bracketed p.notices := by
  rw [p.notices_eq_flatMap]
  exact bracketed_flatMap_of fun node _ => node.bracketed_notices

/-! ### Entries -/

/-- The facts right after each entry, in order. -/
def entries : List Notice → List (List Notice)
  | [] => []
  | .enter :: rest => rest.takeWhile Notice.isFact :: entries rest
  | _ :: rest => entries rest

theorem entries_cons_of_fact {n : Notice} (h : n.isFact = true) (rest : List Notice) :
    entries (n :: rest) = entries rest := by
  rcases n with - | - | r | r
  · cases h
  · cases h
  · rfl
  · rfl

/-- What comes after the facts of a node is no fact. -/
theorem takeWhile_isFact_children (children : List Node) (rest : List Notice) :
    (children.flatMap Node.notices ++ .leave :: rest).takeWhile Notice.isFact = [] := by
  rcases children with - | ⟨⟨instruction, below⟩, nodes⟩
  · rfl
  · rw [List.flatMap_cons, Node.notices_mk]
    rfl

/-- The entries of a node are those of its places, whatever follows the node. -/
theorem Node.entries_notices (node : Node) (above : List Instruction) (rest : List Notice) :
    entries (node.notices ++ rest) =
      (node.places above).map (fun place => place.instruction.notices) ++ entries rest := by
  induction node generalizing above rest with
  | mk instruction children ih =>
    have hfacts : ∀ n ∈ instruction.notices, n.isFact = true :=
      fun n hn => Instruction.isFact_of_mem_notices hn
    have hown : (instruction.notices ++ (children.flatMap Node.notices ++ .leave :: rest)).takeWhile
        Notice.isFact = instruction.notices := by
      rw [List.takeWhile_append_of_pos hfacts, takeWhile_isFact_children, List.append_nil]
    have hchildren := read_flatMap_of fun child hc => ih child hc (above ++ [instruction])
    calc entries ((Node.mk instruction children).notices ++ rest)
        = entries (.enter ::
            (instruction.notices ++ (children.flatMap Node.notices ++ .leave :: rest))) := by
          rw [Node.notices_mk]
          simp only [List.cons_append, List.append_assoc, List.nil_append]
      _ = instruction.notices :: entries (children.flatMap Node.notices ++ .leave :: rest) := by
          rw [entries, hown]
          -- the facts are no entries of their own
          have hskip := read_append_of_facts (fun n rest hn => entries_cons_of_fact hn rest) hfacts
          rw [hskip]
      _ = _ := by
          rw [hchildren, Node.places, List.map_cons, List.cons_append]
          rfl

/-- **The entries of a walk are those of the places**, with the facts of each. -/
theorem Plan.entries_notices (p : Plan) :
    entries p.notices = p.places.map fun place => place.instruction.notices :=
  p.read_notices_of rfl fun node rest => node.entries_notices [] rest

/-! ### Height -/

mutual

/-- The number of levels of a node and of what is below it. -/
def Node.height : Node → Nat
  | .mk _ children => heightAll children + 1

/-- The number of levels of nodes that stand beside each other. -/
def heightAll : List Node → Nat
  | [] => 0
  | node :: nodes => max node.height (heightAll nodes)

end

/-- The number of levels of a plan. -/
def Plan.height (p : Plan) : Nat :=
  heightAll p.roots

/-! ### What a walk does to dependencies -/

namespace Dependencies

theorem noticeAll_append (d : Dependencies) (notices later : List Notice) :
    d.noticeAll (notices ++ later) = (d.noticeAll notices).noticeAll later :=
  List.foldl_append

variable {d : Dependencies}

/-- Notices that leave a node only where one has been entered. -/
def LeavesEntered (d : Dependencies) (notices : List Notice) : Prop :=
  ∀ before later, notices = before ++ .leave :: later → 0 < (d.noticeAll before).depth

theorem leavesEntered_nil : d.LeavesEntered [] := by
  intro before later h
  simp at h

theorem leavesEntered_singleton {n : Notice} (h : n = .leave → 0 < d.depth) :
    d.LeavesEntered [n] := by
  intro before later heq
  rcases List.singleton_eq_append_iff.mp heq with ⟨rfl, hleave⟩ | ⟨-, hnil⟩
  · exact h (List.cons.inj hleave).1.symm
  · cases hnil

/-- To check the leaves of two parts, the second is begun at the depth after the first. -/
theorem LeavesEntered.append {notices later : List Notice} (h : d.LeavesEntered notices)
    (h' : (d.noticeAll notices).LeavesEntered later) : d.LeavesEntered (notices ++ later) := by
  intro before rest heq
  rcases List.append_eq_append_iff.mp heq with ⟨within, rfl, hrest⟩ | ⟨within, hbefore, hrest⟩
  · rw [noticeAll_append]
    exact h' within rest hrest
  · rcases within with - | ⟨n, within⟩
    · -- the first part ends right before the node is left
      rw [List.append_nil] at hbefore
      subst hbefore
      exact h' [] rest hrest.symm
    · obtain ⟨rfl, -⟩ := List.cons.inj hrest
      exact h before within hbefore

/-- Notices bring some nodes and some levels, and give back the depth. -/
structure Grows (d : Dependencies) (notices : List Notice) (size height : Nat) : Prop where
  depth : (d.noticeAll notices).depth = d.depth
  nodes : (d.noticeAll notices).nodes = d.nodes + size
  maxDepth : (d.noticeAll notices).maxDepth = max d.maxDepth (d.depth + height)
  entered : d.LeavesEntered notices

theorem grows_nil (hd : d.depth ≤ d.maxDepth) : d.Grows [] 0 0 where
  depth := rfl
  nodes := rfl
  maxDepth := (Nat.max_eq_left hd).symm
  entered := leavesEntered_nil

theorem Grows.depth_le {notices : List Notice} {size height : Nat}
    (h : d.Grows notices size height) (hd : d.depth ≤ d.maxDepth) :
    (d.noticeAll notices).depth ≤ (d.noticeAll notices).maxDepth := by
  rw [h.depth, h.maxDepth]
  exact hd.trans (Nat.le_max_left _ _)

/-- One after the other, sizes add up and the greater height counts. -/
theorem Grows.append {notices later : List Notice} {size size' height height' : Nat}
    (h : d.Grows notices size height) (h' : (d.noticeAll notices).Grows later size' height') :
    d.Grows (notices ++ later) (size + size') (max height height') where
  depth := by rw [noticeAll_append, h'.depth, h.depth]
  nodes := by rw [noticeAll_append, h'.nodes, h.nodes, Nat.add_assoc]
  maxDepth := by
    rw [noticeAll_append, h'.maxDepth, h.maxDepth, h.depth, Nat.max_assoc, Nat.add_max_add_left]
  entered := h.entered.append h'.entered

/-- A fact neither opens nor closes a bracket. -/
theorem grows_fact {n : Notice} (hn : n.isFact = true) (hd : d.depth ≤ d.maxDepth) :
    d.Grows [n] 0 0 := by
  have hsame : (d.notice n).depth = d.depth ∧ (d.notice n).nodes = d.nodes ∧
      (d.notice n).maxDepth = d.maxDepth := by
    rcases n with - | - | r | r
    · cases hn
    · cases hn
    · by_cases hr : r ∈ d.defined <;> simp [notice, hr]
    · exact ⟨rfl, rfl, rfl⟩
  refine ⟨hsame.1, hsame.2.1, hsame.2.2.trans (Nat.max_eq_left hd).symm,
    leavesEntered_singleton ?_⟩
  rintro rfl
  cases hn

theorem grows_facts {facts : List Notice} (h : ∀ n ∈ facts, n.isFact = true)
    (hd : d.depth ≤ d.maxDepth) : d.Grows facts 0 0 := by
  induction facts generalizing d with
  | nil => exact grows_nil hd
  | cons n facts ih =>
    have hn := grows_fact (h n List.mem_cons_self) hd
    exact hn.append (ih (fun m hm => h m (List.mem_cons_of_mem n hm)) (hn.depth_le hd))

/-- **A pair of brackets adds a node and a level.** -/
theorem Grows.brackets {inside : List Notice} {size height : Nat}
    (h : (d.notice .enter).Grows inside size height) :
    d.Grows (.enter :: (inside ++ [.leave])) (size + 1) (height + 1) := by
  have hrun : d.noticeAll (.enter :: (inside ++ [.leave])) =
      ((d.notice .enter).noticeAll inside).notice .leave :=
    noticeAll_append (d.notice .enter) inside [.leave]
  have hdepth : ((d.notice .enter).noticeAll inside).depth = d.depth + 1 := h.depth
  have hnodes : ((d.notice .enter).noticeAll inside).nodes = d.nodes + 1 + size := h.nodes
  -- to enter raises the greatest depth, whatever is inside
  have hmax : ((d.notice .enter).noticeAll inside).maxDepth =
      max (max d.maxDepth (d.depth + 1)) (d.depth + 1 + height) := h.maxDepth
  have henter : d.LeavesEntered [.enter] := leavesEntered_singleton nofun
  have hleave : ((d.notice .enter).noticeAll inside).LeavesEntered [.leave] :=
    leavesEntered_singleton fun _ => hdepth ▸ Nat.succ_pos d.depth
  refine ⟨?_, ?_, ?_, henter.append (h.entered.append hleave)⟩
  · rw [hrun]
    show ((d.notice .enter).noticeAll inside).depth - 1 = d.depth
    rw [hdepth, Nat.add_sub_cancel]
  · rw [hrun]
    show ((d.notice .enter).noticeAll inside).nodes = d.nodes + (size + 1)
    omega
  · rw [hrun]
    show ((d.notice .enter).noticeAll inside).maxDepth = max d.maxDepth (d.depth + (height + 1))
    omega

/-- Siblings add up what each of them adds. -/
theorem grows_flatMap_of {nodes : List Node} {above : List Instruction}
    (h : ∀ node ∈ nodes, ∀ d : Dependencies, d.depth ≤ d.maxDepth →
      d.Grows node.notices (node.places above).length node.height) (hd : d.depth ≤ d.maxDepth) :
    d.Grows (nodes.flatMap Node.notices) (placesAll above nodes).length (heightAll nodes) := by
  induction nodes generalizing d with
  | nil => exact grows_nil hd
  | cons node nodes ih =>
    have hnode := h node List.mem_cons_self d hd
    have hnodes := ih (fun n hn => h n (List.mem_cons_of_mem node hn)) (hnode.depth_le hd)
    rw [List.flatMap_cons, placesAll, List.length_append, heightAll]
    exact hnode.append hnodes

/-- **A node adds itself and what is below it.** -/
theorem grows_notices (node : Node) (above : List Instruction) (hd : d.depth ≤ d.maxDepth) :
    d.Grows node.notices (node.places above).length node.height := by
  induction node generalizing above d with
  | mk instruction children ih =>
    have hentered : (d.notice .enter).depth ≤ (d.notice .enter).maxDepth := Nat.le_max_right _ _
    have hown : (d.notice .enter).Grows instruction.notices 0 0 :=
      grows_facts (fun n hn => Instruction.isFact_of_mem_notices hn) hentered
    have hchildren := grows_flatMap_of (fun child hc d => ih child hc (above ++ [instruction]))
      (hown.depth_le hentered)
    have hnode := (hown.append hchildren).brackets
    rw [Nat.zero_add, Nat.zero_max, List.append_assoc] at hnode
    rw [Node.notices_mk, Node.places, List.length_cons, Node.height]
    exact hnode

end Dependencies

/-! ### Nodes in another order -/

/-- The same nodes, but for the order of those that stand beside each other, at any level. -/
inductive Reordered : List Node → List Node → Prop
  | nil : Reordered [] []
  | cons (instruction : Instruction) {children children' nodes nodes' : List Node}
      (below : Reordered children children') (beside : Reordered nodes nodes') :
      Reordered (.mk instruction children :: nodes) (.mk instruction children' :: nodes')
  | swap (node node' : Node) (nodes : List Node) :
      Reordered (node :: node' :: nodes) (node' :: node :: nodes)
  | trans {nodes nodes' nodes'' : List Node} :
      Reordered nodes nodes' → Reordered nodes' nodes'' → Reordered nodes nodes''

/-- A walk in another order says the same, in another order. -/
theorem Reordered.perm_notices {nodes nodes' : List Node} (h : Reordered nodes nodes') :
    (nodes.flatMap Node.notices).Perm (nodes'.flatMap Node.notices) := by
  induction h with
  | nil => exact .refl []
  | cons instruction below beside ihbelow ihbeside =>
    have hnode := ((ihbelow.append_right [.leave]).append_left instruction.notices).cons .enter
    rw [← Node.notices_mk, ← Node.notices_mk] at hnode
    rw [List.flatMap_cons, List.flatMap_cons]
    exact hnode.append ihbeside
  | swap node node' nodes =>
    simp only [List.flatMap_cons]
    exact List.perm_append_comm_assoc _ _ _
  | trans h h' ih ih' => exact ih.trans ih'

/-- The references that are required and not defined do not depend on the order of the notices. -/
theorem Plan.undefined_eq_of_perm {p q : Plan} (h : q.notices.Perm p.notices) :
    (q.analyze .fresh).undefined = (p.analyze .fresh).undefined := by
  refine eq_of_increasing (Dependencies.increasing_undefined _)
    (Dependencies.increasing_undefined _) fun r => ?_
  rw [q.mem_undefined_analyze, p.mem_undefined_analyze, q.mem_targets, p.mem_targets, h.mem_iff,
    h.mem_iff]

/-! ### The main result -/

/-- **The analysis of a plan is a walk in brackets that counts nodes and levels.**  Let anything
have been said to the dependencies before.  The notices of the plan are well bracketed, with one
pair for each node in the order of the places: the entry leads to the depth of the place, and right
after it comes what the instruction says.  No node is left at depth zero.  Afterwards the depth is
what it was, the nodes of the plan are counted, and the greatest depth is the old one or that of
the lowest level, whichever is greater.  If nothing was said before, the references that are
required and not defined are the same for all orders of the roots and of the nodes below any
node. -/
theorem Plan.analysis_walks_and_counts (p : Plan) (remarks : List Dependencies.Remark) :
    let d := Dependencies.fresh.tellAll remarks
    Bracketed p.notices ∧
    (entries p.notices = p.places.map fun place =>
      match place.instruction with
      | .group _ | .record _ => []
      | .report _ formula => formula.references.map .require
      | .assign target formula => formula.references.map .require ++ [.define target]) ∧
    (entryDepths 0 p.notices = p.places.map fun place => (place.above.length : Int) + 1) ∧
    d.LeavesEntered p.notices ∧
    (p.analyze d).depth = d.depth ∧
    (p.analyze d).nodes = d.nodes + p.places.length ∧
    (p.analyze d).maxDepth = max d.maxDepth (d.depth + p.height) ∧
    ∀ q : Plan, Reordered p.roots q.roots →
      (q.analyze .fresh).undefined = (p.analyze .fresh).undefined := by
  intro d
  have hd : d.depth ≤ d.maxDepth := (Dependencies.knows_tellAll remarks).depth_le
  have hgrows : d.Grows p.notices p.places.length p.height := by
    rw [p.notices_eq_flatMap]
    exact Dependencies.grows_flatMap_of (fun node _ _ => Dependencies.grows_notices node []) hd
  refine ⟨p.bracketed_notices, p.entries_notices, p.entryDepths_notices, hgrows.entered,
    hgrows.depth, hgrows.nodes, hgrows.maxDepth, fun q hq => ?_⟩
  have hperm : q.notices.Perm p.notices := by
    rw [q.notices_eq_flatMap, p.notices_eq_flatMap]
    exact hq.perm_notices.symm
  exact undefined_eq_of_perm hperm

/-- Dependencies that were left too often and entered three times, and a plan of three levels whose
nodes are put in another order at two of them. -/
theorem analysis_walks_and_counts_unbalanced :
    let remarks : List Dependencies.Remark := [.notice .leave, .notice .enter, .notice .enter,
      .notice .enter, .notice .leave, .predefine [⟨5⟩], .notice .leave]
    let d := Dependencies.fresh.tellAll remarks
    let use := Node.mk (.report "use" (.reference ⟨1⟩)) []
    let give := Node.mk (.assign ⟨2⟩ (.reference ⟨3⟩)) []
    let last := Node.mk (.report "last" (.reference ⟨2⟩)) []
    let p : Plan := ⟨[.mk (.record "a") [.mk (.group (.reference ⟨4⟩)) [use, give]], last]⟩
    let q : Plan := ⟨[last, .mk (.record "a") [.mk (.group (.reference ⟨4⟩)) [give, use]]]⟩
    p.notices = [.enter, .enter, .enter, .require ⟨1⟩] ++ .leave ::
      [.enter, .require ⟨3⟩, .define ⟨2⟩, .leave, .leave, .leave, .enter, .require ⟨2⟩, .leave] ∧
    0 < (d.noticeAll [.enter, .enter, .enter, .require ⟨1⟩]).depth ∧
    d.depth = 1 ∧ d.maxDepth = 3 ∧ (p.analyze d).depth = 1 ∧ (p.analyze d).nodes = 8 ∧
    (p.analyze d).maxDepth = 4 ∧ Reordered p.roots q.roots ∧
    (p.analyze .fresh).undefined = [⟨1⟩, ⟨3⟩] ∧
    (q.analyze .fresh).undefined = (p.analyze .fresh).undefined := by
  intro remarks d use give last p q
  obtain ⟨-, -, -, hentered, hdepth, hnodes, hmaxDepth, hreordered⟩ :=
    p.analysis_walks_and_counts remarks
  have hnotices : p.notices = [.enter, .enter, .enter, .require ⟨1⟩] ++ .leave ::
      [.enter, .require ⟨3⟩, .define ⟨2⟩, .leave, .leave, .leave, .enter, .require ⟨2⟩, .leave] :=
    rfl
  have hbelow : Reordered [.mk (.group (.reference ⟨4⟩)) [use, give]]
      [.mk (.group (.reference ⟨4⟩)) [give, use]] := .cons _ (.swap use give []) .nil
  have hlast : Reordered [last] [last] := .cons _ .nil .nil
  have hroots : Reordered p.roots q.roots := .trans (.cons _ hbelow hlast) (.swap _ last [])
  exact ⟨hnotices, hentered _ _ hnotices, rfl, rfl, hdepth, hnodes, hmaxDepth, hroots, rfl,
    hreordered q hroots⟩

end ParametricPlan
