/-
ParametricPlan/Proofs/Plan/Outline.lean

An outline shows the plan.

What an outline shows of a plan is its shape and what is said of each node: a forest of sketches.
The lines of an outline are those of the places in order, each indented by the number of nodes
above it (`Plan.lines_eq_map_places`), and so they tell the depths to which a walk enters the nodes.

The way back goes in three steps.  The text falls into its lines at the line ends (`textLines`), a
line into its indentation and the rest (`OutlineLine.ofText`), and the lines become sketches from
the last one on: a line takes the sketches after it that are deeper than itself (`gather`).  If the
descriptions are lines, each step undoes one of the writing: `readOutline_outlineBy`.  So two
outlines are equal if and only if the sketches are, which is part of `Plan.outline_faithful`.

All of this holds whatever is said of an instruction, as long as it is a line (`OneLine`).
-/
import ParametricPlan.Plan.Outline
import ParametricPlan.Proofs.Plan.Walk
import ParametricPlan.Proofs.Text.Run

namespace ParametricPlan

/-! ### Sketches -/

/-- What an outline shows of a node. -/
inductive Sketch where
  | mk (description : String) (below : List Sketch)

mutual

/-- What an outline shows of a node and of what is below it. -/
def Node.sketch (describe : Instruction → String) : Node → Sketch
  | .mk instruction children => .mk (describe instruction) (sketchAll describe children)

/-- What an outline shows of nodes. -/
def sketchAll (describe : Instruction → String) : List Node → List Sketch
  | [] => []
  | node :: nodes => node.sketch describe :: sketchAll describe nodes

end

variable {describe : Instruction → String}

theorem sketchAll_eq_map (nodes : List Node) :
    sketchAll describe nodes = nodes.map (Node.sketch describe) := by
  induction nodes with
  | nil => rfl
  | cons node nodes ih => rw [sketchAll, ih, List.map_cons]

namespace Plan

/-- What an outline shows of a plan. -/
def sketches (p : Plan) (describe : Instruction → String) : List Sketch :=
  sketchAll describe p.roots

/-- The outline of a plan in which instructions are described in some way. -/
def outlineBy (p : Plan) (describe : Instruction → String) : String :=
  outlineText (linesAllOnto describe 0 p.roots [])

end Plan

/-! ### Lines of sketches -/

section

variable {describe' : Instruction → String}

theorem linesAllOnto_eq_of_sketchAll_eq {nodes nodes' : List Node}
    (h : ∀ node ∈ nodes, ∀ (node' : Node) depth rest,
      node.sketch describe = node'.sketch describe' →
        node.linesOnto describe depth rest = node'.linesOnto describe' depth rest)
    (hs : sketchAll describe nodes = sketchAll describe' nodes') (depth : Nat)
    (rest : List OutlineLine) :
    linesAllOnto describe depth nodes rest = linesAllOnto describe' depth nodes' rest := by
  induction nodes generalizing nodes' with
  | nil =>
    rcases nodes' with - | ⟨node', nodes'⟩
    · rfl
    · exact absurd hs nofun
  | cons node nodes ih =>
    rcases nodes' with - | ⟨node', nodes'⟩
    · exact absurd hs nofun
    · obtain ⟨hnode, hnodes⟩ := List.cons.inj hs
      rw [linesAllOnto, linesAllOnto, ih (fun n hn => h n (List.mem_cons_of_mem node hn)) hnodes]
      exact h node List.mem_cons_self node' depth _ hnode

/-- The lines of a node depend on its sketch only. -/
theorem linesOnto_eq_of_sketch_eq (node node' : Node) (depth : Nat) (rest : List OutlineLine)
    (hs : node.sketch describe = node'.sketch describe') :
    node.linesOnto describe depth rest = node'.linesOnto describe' depth rest := by
  induction node generalizing node' depth rest with
  | mk instruction children ih =>
    obtain ⟨instruction', children'⟩ := node'
    obtain ⟨hdescription, hchildren⟩ := Sketch.mk.inj hs
    rw [Node.linesOnto, Node.linesOnto, hdescription,
      linesAllOnto_eq_of_sketchAll_eq (fun child hc => ih child hc) hchildren]

/-- An outline depends on nothing but the sketches. -/
theorem outlineBy_eq_of_sketches_eq {p q : Plan}
    (hs : p.sketches describe = q.sketches describe') :
    p.outlineBy describe = q.outlineBy describe' :=
  congrArg outlineText
    (linesAllOnto_eq_of_sketchAll_eq (fun node _ => linesOnto_eq_of_sketch_eq node) hs 0 [])

end

/-! ### The lines of the places -/

/-- The line of a place. -/
def Place.line (describe : Instruction → String) (place : Place) : OutlineLine :=
  ⟨place.above.length, describe place.instruction⟩

theorem linesAllOnto_eq_append_of {nodes : List Node} {above : List Instruction}
    (h : ∀ node ∈ nodes, ∀ rest, node.linesOnto describe above.length rest =
      (node.places above).map (Place.line describe) ++ rest) (rest : List OutlineLine) :
    linesAllOnto describe above.length nodes rest =
      (placesAll above nodes).map (Place.line describe) ++ rest := by
  induction nodes with
  | nil => rfl
  | cons node nodes ih =>
    have hnodes := ih fun n hn => h n (List.mem_cons_of_mem node hn)
    rw [linesAllOnto, h node List.mem_cons_self, hnodes, placesAll, List.map_append,
      List.append_assoc]

/-- The lines of a node are those of its places, before what follows the node. -/
theorem Node.linesOnto_eq_append (node : Node) (above : List Instruction)
    (rest : List OutlineLine) :
    node.linesOnto describe above.length rest =
      (node.places above).map (Place.line describe) ++ rest := by
  induction node generalizing above rest with
  | mk instruction children ih =>
    have hlength : above.length + 1 = (above ++ [instruction]).length := by simp
    have hchildren := linesAllOnto_eq_append_of fun child hc => ih child hc (above ++ [instruction])
    rw [Node.linesOnto, hlength, hchildren, Node.places, List.map_cons, List.cons_append]
    rfl

/-- **The lines of an outline are those of the places.** -/
theorem Plan.lines_eq_map_places (p : Plan) :
    linesAllOnto describe 0 p.roots [] = p.places.map (Place.line describe) := by
  have hroots : linesAllOnto describe 0 p.roots [] = p.places.map (Place.line describe) ++ [] :=
    linesAllOnto_eq_append_of (fun node _ => node.linesOnto_eq_append []) []
  rwa [List.append_nil] at hroots

/-! ### Lines of a text -/

/-- The lines of a text, with line ends between them; an empty text has none. -/
def textLines (text : String) : List String :=
  if text = "" then [] else (text.split '\n').toList.map (·.copy)

/-- A description that fills a line of its own and does not begin with a blank. -/
structure OneLine (description : String) : Prop where
  ne_empty : description ≠ ""
  no_end : '\n' ∉ description.toList
  no_blank : description.toList.head? ≠ some ' '

instance (description : String) : Decidable (OneLine description) :=
  decidable_of_iff (description ≠ "" ∧ '\n' ∉ description.toList ∧
    description.toList.head? ≠ some ' ') ⟨fun h => ⟨h.1, h.2.1, h.2.2⟩, fun h => ⟨h.1, h.2, h.3⟩⟩

theorem toList_text (line : OutlineLine) :
    line.text.toList = List.replicate (4 * line.depth) ' ' ++ line.description.toList := by
  rw [OutlineLine.text, String.toList_append, String.toList_ofList]

theorem text_ne_empty {line : OutlineLine} (h : OneLine line.description) : line.text ≠ "" := by
  intro hempty
  have hchars : line.text.toList = [] := by rw [hempty]; rfl
  rw [toList_text, List.append_eq_nil_iff, String.toList_eq_nil_iff] at hchars
  exact h.ne_empty hchars.2

theorem no_end_text {line : OutlineLine} (h : OneLine line.description) :
    '\n' ∉ line.text.toList := by
  rw [toList_text, List.mem_append, List.mem_replicate]
  rintro (⟨-, hend⟩ | hend)
  · exact absurd hend (by decide)
  · exact h.no_end hend

/-- Only an outline without lines is empty, as no line is. -/
theorem outlineText_eq_empty_iff {lines : List OutlineLine}
    (h : ∀ line ∈ lines, OneLine line.description) : outlineText lines = "" ↔ lines = [] := by
  constructor
  · intro hempty
    rcases lines with - | ⟨line, lines⟩
    · rfl
    · -- the first line has a character, and so has the text
      have hline := text_ne_empty (h line List.mem_cons_self)
      rcases lines with - | ⟨next, lines⟩
      · exact absurd (String.intercalate_singleton.symm.trans hempty) hline
      · rw [outlineText, List.map_cons, List.map_cons, String.intercalate_cons_cons,
          String.append_eq_empty_iff, String.append_eq_empty_iff] at hempty
        exact absurd hempty.1.1 hline
  · rintro rfl
    exact String.intercalate_nil

/-- **An outline falls into its lines.** -/
theorem textLines_outlineText {lines : List OutlineLine}
    (h : ∀ line ∈ lines, OneLine line.description) :
    textLines (outlineText lines) = lines.map OutlineLine.text := by
  by_cases hempty : lines = []
  · subst hempty
    exact if_pos String.intercalate_nil
  · have hends : ∀ text ∈ lines.map OutlineLine.text, '\n' ∉ text.toList := by
      intro text htext
      obtain ⟨line, hline, rfl⟩ := List.mem_map.mp htext
      exact no_end_text (h line hline)
    have hlines : lines.map OutlineLine.text ≠ [] := mt List.map_eq_nil_iff.mp hempty
    rw [textLines, if_neg (mt (outlineText_eq_empty_iff h).mp hempty)]
    exact (String.toList_split_intercalate hends).trans (if_neg hlines)

/-! ### Reading a line -/

/-- The line of a text: four blanks are one step of depth. -/
def OutlineLine.ofText (text : String) : OutlineLine :=
  ⟨(text.toList.takeWhile (· == ' ')).length / 4,
    String.ofList (text.toList.dropWhile (· == ' '))⟩

/-- A line is read back from its text: all blanks at the front are its indentation. -/
theorem ofText_text {line : OutlineLine} (h : OneLine line.description) :
    OutlineLine.ofText line.text = line := by
  obtain ⟨depth, description⟩ := line
  have hblanks : ∀ c ∈ List.replicate (4 * depth) ' ', (c == ' ') = true := by
    intro c hc
    rw [(List.mem_replicate.mp hc).2]
    rfl
  -- the description does not begin with a blank, so the blanks end where it begins
  have hdescription : ∀ c ∈ description.toList.head?, (c == ' ') = false := by
    rintro c hc
    have hblank := h.no_blank
    rw [Option.mem_def.mp hc] at hblank
    simpa using hblank
  rw [OutlineLine.ofText, toList_text, takeWhile_run hblanks hdescription,
    dropWhile_run hblanks hdescription]
  simp

/-! ### Gathering lines -/

/-- The sketches that lines are the outline of, each with its depth.  A line takes the sketches
after it that are deeper than itself. -/
def gather : List OutlineLine → List (Nat × Sketch)
  | [] => []
  | line :: lines =>
    let later := gather lines
    (line.depth, .mk line.description ((later.takeWhile (line.depth < ·.1)).map Prod.snd)) ::
      later.dropWhile (line.depth < ·.1)

/-- The first sketch of some lines is no deeper than `depth`. -/
def StartsWithin (depth : Nat) (lines : List OutlineLine) : Prop :=
  ∀ first ∈ (gather lines).head?, first.1 ≤ depth

theorem gather_linesAllOnto_of {nodes : List Node} {depth : Nat}
    (h : ∀ node ∈ nodes, ∀ rest, StartsWithin depth rest →
      gather (node.linesOnto describe depth rest) = (depth, node.sketch describe) :: gather rest)
    {rest : List OutlineLine} (hrest : StartsWithin depth rest) :
    gather (linesAllOnto describe depth nodes rest) =
      nodes.map (fun node => (depth, node.sketch describe)) ++ gather rest := by
  induction nodes with
  | nil => rfl
  | cons node nodes ih =>
    have hnodes := ih fun n hn => h n (List.mem_cons_of_mem node hn)
    -- what follows the node is a sibling, or follows all of them
    have hstart : StartsWithin depth (linesAllOnto describe depth nodes rest) := by
      intro first hfirst
      rw [hnodes] at hfirst
      rcases nodes with - | ⟨next, nodes⟩
      · exact hrest first hfirst
      · obtain rfl : (depth, next.sketch describe) = first := Option.some.inj hfirst
        exact Nat.le_refl depth
    rw [linesAllOnto, h node List.mem_cons_self _ hstart, hnodes, List.map_cons, List.cons_append]

/-- The lines of a node become its sketch, and what follows it is gathered by itself. -/
theorem gather_linesOnto (node : Node) (depth : Nat) {rest : List OutlineLine}
    (hrest : StartsWithin depth rest) :
    gather (node.linesOnto describe depth rest) = (depth, node.sketch describe) :: gather rest := by
  induction node generalizing depth rest with
  | mk instruction children ih =>
    have hchildren : gather (linesAllOnto describe (depth + 1) children rest) =
        children.map (fun child => (depth + 1, child.sketch describe)) ++ gather rest :=
      gather_linesAllOnto_of (fun child hc _ hr => ih child hc (depth + 1) hr)
        fun first hfirst => Nat.le_succ_of_le (hrest first hfirst)
    have hdeeper : ∀ s ∈ children.map (fun child => (depth + 1, child.sketch describe)),
        decide (depth < s.1) = true := by
      intro s hs
      obtain ⟨child, -, rfl⟩ := List.mem_map.mp hs
      exact decide_eq_true (Nat.lt_succ_self depth)
    -- what follows the node is not deeper than the node, and so it is left for later
    have hlater : ∀ s ∈ (gather rest).head?, decide (depth < s.1) = false :=
      fun s hs => decide_eq_false (Nat.not_lt.mpr (hrest s hs))
    rw [Node.linesOnto, gather, hchildren, takeWhile_run hdeeper hlater,
      dropWhile_run hdeeper hlater, List.map_map, Node.sketch, sketchAll_eq_map]
    rfl

/-! ### Reading an outline -/

/-- The sketches that a text is the outline of. -/
def readOutline (text : String) : List Sketch :=
  (gather ((textLines text).map OutlineLine.ofText)).map Prod.snd

/-- Every description in an outline is a line. -/
def Plan.OneLined (p : Plan) (describe : Instruction → String) : Prop :=
  ∀ place ∈ p.places, OneLine (describe place.instruction)

instance (p : Plan) (describe : Instruction → String) : Decidable (p.OneLined describe) :=
  inferInstanceAs (Decidable (∀ place ∈ p.places, OneLine (describe place.instruction)))

/-- The descriptions in the lines are those at the places. -/
theorem Plan.OneLined.lines {p : Plan} (h : p.OneLined describe) :
    ∀ line ∈ linesAllOnto describe 0 p.roots [], OneLine line.description := by
  intro line hline
  rw [p.lines_eq_map_places] at hline
  obtain ⟨place, hplace, rfl⟩ := List.mem_map.mp hline
  exact h place hplace

/-- **An outline reads as the sketches of the plan.** -/
theorem readOutline_outlineBy {p : Plan} (h : p.OneLined describe) :
    readOutline (p.outlineBy describe) = p.sketches describe := by
  have hlines : (textLines (p.outlineBy describe)).map OutlineLine.ofText =
      linesAllOnto describe 0 p.roots [] := by
    rw [Plan.outlineBy, textLines_outlineText h.lines, List.map_map]
    exact (List.map_congr_left fun line hline => ofText_text (h.lines line hline)).trans
      (List.map_id _)
  have hgather : gather (linesAllOnto describe 0 p.roots []) =
      p.roots.map (fun node => (0, node.sketch describe)) ++ [] :=
    gather_linesAllOnto_of (fun node _ _ hr => gather_linesOnto node 0 hr) nofun
  rw [readOutline, hlines, hgather, List.append_nil, List.map_map, Plan.sketches, sketchAll_eq_map]
  rfl

/-- Only the plan without nodes has an empty outline. -/
theorem outlineBy_eq_empty_iff {p : Plan} (h : p.OneLined describe) :
    p.outlineBy describe = "" ↔ p.roots = [] := by
  rw [Plan.outlineBy, outlineText_eq_empty_iff h.lines]
  rcases hroots : p.roots with - | ⟨⟨instruction, children⟩, nodes⟩
  · exact ⟨fun _ => rfl, fun _ => rfl⟩
  · exact ⟨nofun, nofun⟩

/-- **An outline shows the plan as a walk goes through it.**  Let every description be a line.  Then
the outline has one line for each node, in the order in which a walk enters the nodes, and it is
the description after four blanks for each step that the walk is deeper there than at a root.  The
plan can be read from the outline, but for what its descriptions do not say: outlines are equal if
and only if the plans have one shape and the descriptions at each node are the same.  Only the
plan without nodes has an empty outline. -/
theorem Plan.outline_faithful (p : Plan) :
    (∀ render, p.outline render = p.outlineBy (Instruction.describe render)) ∧
    ∀ describe, p.OneLined describe →
      (entryDepths 0 p.notices).length = p.places.length ∧
      textLines (p.outlineBy describe) =
        List.zipWith (fun depth place => String.ofList (List.replicate (4 * (depth - 1)).toNat ' ') ++
          describe place.instruction) (entryDepths 0 p.notices) p.places ∧
      readOutline (p.outlineBy describe) = p.sketches describe ∧
      (∀ q : Plan, ∀ describe', q.OneLined describe' →
        (p.outlineBy describe = q.outlineBy describe' ↔
          p.sketches describe = q.sketches describe')) ∧
      (p.outlineBy describe = "" ↔ p.roots = []) := by
  refine ⟨fun render => rfl, fun describe h => ⟨?_, ?_, readOutline_outlineBy h, ?_,
    outlineBy_eq_empty_iff h⟩⟩
  · rw [p.entryDepths_notices, List.length_map]
  · rw [outlineBy, textLines_outlineText h.lines, p.lines_eq_map_places, p.entryDepths_notices,
      List.zipWith_map_left, List.zipWith_self, List.map_map]
    refine List.map_congr_left fun place _ => ?_
    have hindent : (4 * ((place.above.length : Int) + 1 - 1)).toNat = 4 * place.above.length := by
      omega
    rw [hindent]
    rfl
  · intro q describe' h'
    constructor
    · intro heq
      rw [← readOutline_outlineBy h, heq, readOutline_outlineBy h']
    · exact outlineBy_eq_of_sketches_eq

/-- The same descriptions in the same order, under a group and beside it. -/
theorem outline_faithful_shapes :
    let condition := Instruction.group (.constant (.bool true))
    let p : Plan := ⟨[.mk condition [.mk (.record "a") [], .mk (.record " b") []]]⟩
    let q : Plan := ⟨[.mk condition [.mk (.record "a") []], .mk (.record " b") []]⟩
    let describe := Instruction.describe Printer.plain.render
    p.OneLined describe ∧ q.OneLined describe ∧
      p.outline Printer.plain.render = "if true:\n    record a\n    record  b" ∧
      q.outline Printer.plain.render = "if true:\n    record a\nrecord  b" ∧
      readOutline "if true:\n    record a\nrecord  b" = q.sketches describe ∧
      p.sketches describe ≠ q.sketches describe := by
  intro condition p q describe
  have hp : p.OneLined describe := by decide
  have hq : q.OneLined describe := by decide
  have houtline : p.outline Printer.plain.render ≠ q.outline Printer.plain.render := by decide
  obtain ⟨-, hfaithful⟩ := p.outline_faithful
  obtain ⟨-, -, hread, -⟩ := q.outline_faithful.2 describe hq
  exact ⟨hp, hq, by decide, by decide, hread,
    fun hs => houtline (((hfaithful describe hp).2.2.2.1 q describe hq).mpr hs)⟩

end ParametricPlan
