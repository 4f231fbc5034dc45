/-
ParametricPlan/Proofs/Evaluation/Bindings.lean

Bindings as a map.

Bindings are a list of entries, and what matters of them is `lookup`.  Here is what it gives after
a reference was bound (`lookup_insert`) or unbound (`lookup_erase`), and, from that, after any
number of changes: a reference that none of them is about keeps its value
(`lookup_changeAll_of_forall_ne`).  If entries are bound one after the other, then of those with
one reference the last counts (`lookup_insertAll`).
-/
import ParametricPlan.Evaluation.Bindings

namespace ParametricPlan

namespace Bindings

/-! ### One reference -/

/-- Without its entries a reference has no value. -/
theorem lookup_filter_self (entries : List (Ref × Value)) (r : Ref) :
    (entries.filter fun entry => entry.1 ≠ r).lookup r = none := by
  refine List.lookup_eq_none_iff.mpr fun entry hentry => ?_
  have hne : entry.1 ≠ r := of_decide_eq_true (List.mem_filter.mp hentry).2
  exact bne_iff_ne.mpr hne.symm

/-- The entries of one reference do not matter to another. -/
theorem lookup_filter_of_ne (entries : List (Ref × Value)) {r q : Ref} (h : q ≠ r) :
    (entries.filter fun entry => entry.1 ≠ r).lookup q = entries.lookup q := by
  induction entries with
  | nil => rfl
  | cons entry entries ih =>
    obtain ⟨s, v⟩ := entry
    by_cases hs : s = r
    · -- the entry is left out, and `q` passes over it
      subst hs
      rw [List.filter_cons_of_neg (by simp), ih, List.lookup_cons, beq_false_of_ne h]
    · rw [List.filter_cons_of_pos (by simp [hs]), List.lookup_cons, List.lookup_cons, ih]

/-- A reference that was unbound has no value, and the others keep theirs. -/
theorem lookup_erase (b : Bindings) (r q : Ref) :
    (b.erase r).lookup q = if q = r then none else b.lookup q := by
  split
  case isTrue h => exact h ▸ lookup_filter_self b.entries r
  case isFalse h => exact lookup_filter_of_ne b.entries h

/-- A reference that was bound has the new value, and the others keep theirs. -/
theorem lookup_insert (b : Bindings) (r q : Ref) (v : Value) :
    (b.insert r v).lookup q = if q = r then some v else b.lookup q := by
  have hcons : (b.insert r v).lookup q = if q == r then some v else (b.erase r).lookup q := by
    show List.lookup q ((r, v) :: (b.erase r).entries) = _
    rw [List.lookup_cons]
    rcases q == r with - | - <;> rfl
  rw [hcons, lookup_erase]
  by_cases h : q = r <;> simp [h]

/-! ### Several changes -/

/-- A change of bindings. -/
inductive Change where
  | set (ref : Ref) (value : Value)
  | define (ref : Ref) (value : Value)
  | remove (ref : Ref)

/-- The reference that a change is about. -/
def Change.ref : Change → Ref
  | set r _ | define r _ | remove r => r

/-- The bindings after a change; a definition that is refused leaves them as they are. -/
def change (b : Bindings) : Change → Bindings
  | .set r v => (b.set r v).2
  | .define r v => (b.define r v).toOption.getD b
  | .remove r => (b.remove r).2

/-- The bindings after some changes. -/
def changeAll (b : Bindings) (changes : List Change) : Bindings :=
  changes.foldl change b

/-- A change concerns its own reference only. -/
theorem lookup_change_of_ne (b : Bindings) {c : Change} {q : Ref} (h : q ≠ c.ref) :
    (b.change c).lookup q = b.lookup q := by
  rcases c with ⟨r, v⟩ | ⟨r, v⟩ | r
  · exact (b.lookup_insert r q v).trans (if_neg h)
  · -- a definition is accepted or refused
    simp only [change, define]
    split
    · rfl
    · exact (b.lookup_insert r q v).trans (if_neg h)
  · exact (b.lookup_erase r q).trans (if_neg h)

/-- A reference that no change is about keeps its value. -/
theorem lookup_changeAll_of_forall_ne (b : Bindings) {changes : List Change} {q : Ref}
    (h : ∀ c ∈ changes, q ≠ c.ref) : (b.changeAll changes).lookup q = b.lookup q := by
  induction changes generalizing b with
  | nil => rfl
  | cons c changes ih =>
    have hrest := ih (b.change c) fun c' hc' => h c' (List.mem_cons_of_mem c hc')
    exact hrest.trans (b.lookup_change_of_ne (h c List.mem_cons_self))

/-! ### Several entries -/

/-- The value that the last of some entries gives a reference. -/
def lastGiven? (entries : List (Ref × Value)) (r : Ref) : Option Value :=
  (entries.filter fun entry => entry.1 = r).getLast?.map Prod.snd

/-- Of two parts the later one counts, if it has an entry at all. -/
theorem lastGiven?_append (entries later : List (Ref × Value)) (q : Ref) :
    lastGiven? (entries ++ later) q = (lastGiven? later q).or (lastGiven? entries q) := by
  rw [lastGiven?, List.filter_append, List.getLast?_append, Option.map_or]
  rfl

theorem lastGiven?_singleton (r q : Ref) (v : Value) :
    lastGiven? [(r, v)] q = if q = r then some v else none := by
  by_cases h : r = q
  · rw [lastGiven?, List.filter_cons_of_pos (by simp [h]), if_pos h.symm]
    rfl
  · rw [lastGiven?, List.filter_cons_of_neg (by simp [h]), if_neg (Ne.symm h)]
    rfl

/-- A reference is given a value if some entry has it. -/
theorem isSome_lastGiven?_iff (entries : List (Ref × Value)) (r : Ref) :
    (lastGiven? entries r).isSome ↔ r ∈ entries.map Prod.fst := by
  simp [lastGiven?]

/-- An entry does not count for other references, nor if a later one has its reference. -/
theorem lastGiven?_append_cons {later : List (Ref × Value)} {r q : Ref}
    (h : q = r → r ∈ later.map Prod.fst) (before : List (Ref × Value)) (v : Value) :
    lastGiven? (before ++ (r, v) :: later) q = lastGiven? (before ++ later) q := by
  have hcons : lastGiven? ((r, v) :: later) q = lastGiven? later q := by
    rw [← List.singleton_append, lastGiven?_append, lastGiven?_singleton]
    by_cases hq : q = r
    · subst hq
      exact Option.or_eq_left_of_isSome ((isSome_lastGiven?_iff later q).mpr (h rfl))
    · rw [if_neg hq, Option.or_none]
  rw [lastGiven?_append, lastGiven?_append, hcons]

/-- Entries bound one after the other come on top of the bindings, the last of them first. -/
theorem lookup_insertAll (b : Bindings) (entries : List (Ref × Value)) (q : Ref) :
    (b.insertAll entries).lookup q = (lastGiven? entries q).or (b.lookup q) := by
  induction entries generalizing b with
  | nil => rfl
  | cons entry entries ih =>
    obtain ⟨r, v⟩ := entry
    have hrest : (b.insertAll ((r, v) :: entries)).lookup q =
        (lastGiven? entries q).or ((b.insert r v).lookup q) := ih (b.insert r v)
    -- the first entry counts only where none of the later ones does
    rw [hrest, lookup_insert, ← List.singleton_append, lastGiven?_append, lastGiven?_singleton,
      Option.or_assoc]
    split <;> rfl

end Bindings
end ParametricPlan
