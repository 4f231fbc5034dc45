/-
ParametricPlan/Proofs/Evaluation/History.lean

What bindings answer, told from what was done to them.

Whatever is done with bindings is answered, and the answers alone tell which changes were made: all
but the definitions that were refused.  The *history* of bindings is the list of what became of a
reference, in order: first the entries that the bindings were made of, then the changes that were
made.  It does not know how bindings are kept.

A reference has the value that the last event about it gave it (`Latest`), and so the history says
what every operation has to answer (`Right`).  Bindings tell a history when they have those values
(`Tells`).  They still do after one operation, with what it did put behind the history
(`Tells.operate`), and so they do after any number of them (`Tells.operateAll`); and where they do,
the right answers are those that they give (`Tells.right_iff`).  `answers_tell_history` is the main
result.
-/
import Mathlib.Data.Finset.Card
import ParametricPlan.Proofs.Evaluation.Bindings

namespace ParametricPlan.Bindings

/-! ### Operations -/

/-- Something that is done with bindings. -/
inductive Operation where
  | change (change : Change)
  | lookup (ref : Ref)
  | contains (ref : Ref)
  | size
  | isEmpty

/-- The reference that an operation is about, if it is about one. -/
def Operation.ref? : Operation → Option Ref
  | change c => some c.ref
  | lookup r | contains r => some r
  | size | isEmpty => none

/-- What an operation answers. -/
inductive Answer where
  | value (value : Option Value)
  | truth (truth : Bool)
  | count (count : Nat)
  /-- A definition was accepted. -/
  | accepted
  /-- A definition was refused. -/
  | refused (error : EvalError)

/-- What a change answers: the value that the reference had, or whether it is defined now. -/
def answerChange (b : Bindings) : Change → Answer
  | .set r v => .value (b.set r v).1
  | .define r v =>
    match b.define r v with
    | .ok _ => .accepted
    | .error e => .refused e
  | .remove r => .value (b.remove r).1

/-- The answer to an operation, and the bindings after it. -/
def operate (b : Bindings) : Operation → Answer × Bindings
  | .change c => (b.answerChange c, b.change c)
  | .lookup r => (.value (b.lookup r), b)
  | .contains r => (.truth (b.contains r), b)
  | .size => (.count b.size, b)
  | .isEmpty => (.truth b.isEmpty, b)

/-- Operations with their answers, and the bindings after all of them. -/
def operateAll (b : Bindings) : List Operation → List (Operation × Answer) × Bindings
  | [] => ([], b)
  | op :: ops =>
    let (answer, b) := b.operate op
    let (transcript, b) := b.operateAll ops
    ((op, answer) :: transcript, b)

/-! ### Histories -/

/-- What became of a reference: it has a value, or none. -/
structure Event where
  ref : Ref
  value : Option Value

/-- What an operation did, as its answer tells. -/
def event? : Operation × Answer → Option Event
  | (.change (.set r v), _) => some ⟨r, some v⟩
  | (.change (.define r v), .accepted) => some ⟨r, some v⟩
  | (.change (.remove r), _) => some ⟨r, none⟩
  | _ => none

/-- The history of bindings that were made of some entries: these, and then what was done. -/
def history (entries : List (Ref × Value)) (transcript : List (Operation × Answer)) :
    List Event :=
  entries.map (fun (r, v) => ⟨r, some v⟩) ++ transcript.filterMap event?

/-- What the last event about a reference made of it; without such an event it has no value. -/
def Latest (events : List Event) (r : Ref) (x : Option Value) : Prop :=
  (∃ before after, events = before ++ ⟨r, x⟩ :: after ∧ ∀ event ∈ after, event.ref ≠ r) ∨
    x = none ∧ ∀ event ∈ events, event.ref ≠ r

theorem latest_nil_iff {r : Ref} {x : Option Value} : Latest [] r x ↔ x = none := by
  simp [Latest]

/-- The last of some events, or one before it. -/
theorem concat_eq_append_cons_iff {events before after : List Event} {last event : Event} :
    events ++ [last] = before ++ event :: after ↔
      events = before ∧ last = event ∧ after = [] ∨
        ∃ after', after = after' ++ [last] ∧ events = before ++ event :: after' := by
  constructor
  · intro h
    rcases List.eq_nil_or_concat' after with rfl | ⟨after, last', rfl⟩
    · obtain ⟨hevents, hlast⟩ := List.append_inj' h rfl
      exact .inl ⟨hevents, (List.cons.inj hlast).1, rfl⟩
    · rw [← List.cons_append, ← List.append_assoc] at h
      obtain ⟨hevents, hlast⟩ := List.append_inj' h rfl
      exact .inr ⟨after, by rw [hlast], hevents⟩
  · rintro (⟨rfl, rfl, rfl⟩ | ⟨after, rfl, rfl⟩)
    · rfl
    · rw [List.append_assoc]
      rfl

/-- The last event about a reference counts. -/
theorem latest_concat_self_iff {events : List Event} {r : Ref} {x y : Option Value} :
    Latest (events ++ [⟨r, y⟩]) r x ↔ x = y := by
  constructor
  · rintro (⟨before, after, hsplit, hafter⟩ | ⟨-, hnone⟩)
    · rcases concat_eq_append_cons_iff.mp hsplit with ⟨-, hlast, -⟩ | ⟨after, rfl, -⟩
      · exact (Event.mk.inj hlast).2.symm
      · -- the last event is about `r`
        exact absurd rfl (hafter ⟨r, y⟩ (by simp))
    · exact absurd rfl (hnone ⟨r, y⟩ (by simp))
  · rintro rfl
    exact .inl ⟨events, [], rfl, nofun⟩

/-- An event about another reference does not count. -/
theorem latest_concat_iff_of_ne {events : List Event} {r q : Ref} {x y : Option Value}
    (h : r ≠ q) : Latest (events ++ [⟨r, y⟩]) q x ↔ Latest events q x := by
  refine or_congr ?_ (and_congr_right' ?_)
  · constructor
    · rintro ⟨before, after, hsplit, hafter⟩
      rcases concat_eq_append_cons_iff.mp hsplit with ⟨-, hlast, -⟩ | ⟨after, rfl, hevents⟩
      · exact absurd (Event.mk.inj hlast).1 h
      · exact ⟨before, after, hevents, fun event hevent =>
          hafter event (List.mem_append_left _ hevent)⟩
    · rintro ⟨before, after, rfl, hafter⟩
      -- the event comes after the one that counts, and is not about the reference
      refine ⟨before, after ++ [⟨r, y⟩], List.append_assoc _ _ _, ?_⟩
      exact List.forall_mem_append.mpr ⟨hafter, by simpa using h⟩
  · simp [or_imp, forall_and, h]

/-- What one more event makes of a reference. -/
theorem latest_concat_iff {events : List Event} {r q : Ref} {x y : Option Value} :
    Latest (events ++ [⟨r, y⟩]) q x ↔ if q = r then x = y else Latest events q x := by
  split
  case isTrue h => exact h ▸ latest_concat_self_iff
  case isFalse h => exact latest_concat_iff_of_ne (Ne.symm h)

/-! ### Bindings and their history -/

/-- Every reference has the value that the last event about it gave it. -/
def Tells (b : Bindings) (events : List Event) : Prop :=
  ∀ r x, b.lookup r = x ↔ Latest events r x

/-- An event changes one reference. -/
theorem Tells.concat {b b' : Bindings} {events : List Event} {r : Ref} {y : Option Value}
    (h : b.Tells events) (hb' : ∀ q, b'.lookup q = if q = r then y else b.lookup q) :
    b'.Tells (events ++ [⟨r, y⟩]) := by
  intro q x
  rw [hb', latest_concat_iff]
  split
  case isTrue => exact eq_comm
  case isFalse => exact h q x

/-- A value that is bound is an event. -/
theorem Tells.insert {b : Bindings} {events : List Event} (h : b.Tells events) (r : Ref)
    (v : Value) : (b.insert r v).Tells (events ++ [⟨r, some v⟩]) :=
  h.concat fun q => b.lookup_insert r q v

/-- A value that is removed is an event, whether there was one or not. -/
theorem Tells.erase {b : Bindings} {events : List Event} (h : b.Tells events) (r : Ref) :
    (b.erase r).Tells (events ++ [⟨r, none⟩]) :=
  h.concat fun q => b.lookup_erase r q

/-- New bindings tell the entries that they were made of. -/
theorem tells_ofList (entries : List (Ref × Value)) :
    (ofList entries).Tells (history entries []) := by
  -- the later entries come on top of the earlier ones
  induction entries using List.reverseRecOn with
  | nil => exact fun r x => eq_comm.trans latest_nil_iff.symm
  | append_singleton entries entry ih =>
    have hlast : ofList (entries ++ [entry]) = (ofList entries).insert entry.1 entry.2 := by
      rw [ofList, insertAll, List.foldl_append]
      rfl
    rw [hlast]
    simpa [history] using ih.insert entry.1 entry.2

/-- A reference that has a value cannot be defined. -/
theorem define_of_contains {b : Bindings} {r : Ref} (h : b.contains r = true) (v : Value) :
    b.define r v = .error (.duplicateDefinition r) :=
  if_pos h

/-- A reference without a value can be defined. -/
theorem define_of_not_contains {b : Bindings} {r : Ref} (h : ¬ b.contains r = true) (v : Value) :
    b.define r v = .ok (b.insert r v) :=
  if_neg h

/-- The events of the first operation come first, if it had any. -/
theorem filterMap_event?_cons (answered : Operation × Answer)
    (transcript : List (Operation × Answer)) :
    (answered :: transcript).filterMap event? =
      (event? answered).toList ++ transcript.filterMap event? := by
  cases hevent : event? answered <;> simp [hevent]

/-- What an operation did comes behind the history. -/
theorem Tells.operate {b : Bindings} {events : List Event} (h : b.Tells events) (op : Operation) :
    (b.operate op).2.Tells (events ++ (event? (op, (b.operate op).1)).toList) := by
  have hread : b.Tells (events ++ []) := by rwa [List.append_nil]
  cases op with
  | change c =>
    cases c with
    | set r v => exact h.insert r v
    | define r v =>
      -- a definition that is refused does nothing
      by_cases hbound : b.contains r = true
      · simp only [Bindings.operate, answerChange, change, define_of_contains hbound]
        exact hread
      · simp only [Bindings.operate, answerChange, change, define_of_not_contains hbound]
        exact h.insert r v
    | remove r => exact h.erase r
  | lookup | contains | size | isEmpty => exact hread

/-- **What any number of operations did comes behind the history**, in their order. -/
theorem Tells.operateAll {b : Bindings} {events : List Event} (h : b.Tells events)
    (ops : List Operation) :
    (b.operateAll ops).2.Tells (events ++ (b.operateAll ops).1.filterMap event?) := by
  induction ops generalizing b events with
  | nil => exact (List.append_nil events).symm ▸ h
  | cons op ops ih =>
    have hrest := ih (h.operate op)
    rw [List.append_assoc, ← filterMap_event?_cons] at hrest
    exact hrest

/-! ### Answers -/

/-- The references that have a value. -/
def Bound (events : List Event) (refs : Finset Ref) : Prop :=
  ∀ r, r ∈ refs ↔ ∃ v, Latest events r (some v)

/-- What an operation has to answer after some events. -/
inductive Right (events : List Event) : Operation → Answer → Prop where
  | set {r v x} (h : Latest events r x) : Right events (.change (.set r v)) (.value x)
  | remove {r x} (h : Latest events r x) : Right events (.change (.remove r)) (.value x)
  | define {r v} (h : Latest events r none) : Right events (.change (.define r v)) .accepted
  | redefine {r v w} (h : Latest events r (some w)) :
    Right events (.change (.define r v)) (.refused (.duplicateDefinition r))
  | lookup {r x} (h : Latest events r x) : Right events (.lookup r) (.value x)
  | contains {r t} (h : t = true ↔ ∃ v, Latest events r (some v)) :
    Right events (.contains r) (.truth t)
  | size {refs} (h : Bound events refs) : Right events .size (.count refs.card)
  | isEmpty {refs t} (h : Bound events refs) (ht : t = true ↔ refs.card = 0) :
    Right events .isEmpty (.truth t)

variable {b : Bindings} {events : List Event}

/-- A reference is there just if the history gives it a value. -/
theorem Tells.contains_iff (h : b.Tells events) (r : Ref) :
    b.contains r = true ↔ ∃ v, Latest events r (some v) := by
  rw [contains, Option.isSome_iff_exists]
  exact exists_congr fun v => h r (some v)

/-- There is one entry for every reference that has a value. -/
theorem Tells.exists_bound (h : b.Tells events) :
    ∃ refs, Bound events refs ∧ refs.card = b.size := by
  refine ⟨(b.entries.map Prod.fst).toFinset, fun r => ?_, ?_⟩
  · -- a reference with an entry is one that a lookup finds
    have hmem : r ∈ b.entries.map Prod.fst ↔ (b.lookup r).isSome = true := by
      rw [lookup, List.lookup_isSome_iff, List.mem_map]
      exact exists_congr fun entry => and_congr_right' (eq_comm.trans beq_iff_eq.symm)
    rw [List.mem_toFinset, hmem]
    exact h.contains_iff r
  · rw [List.toFinset_card_of_nodup b.distinct, List.length_map, size]

/-- The answer that bindings give is right. -/
theorem Tells.right (h : b.Tells events) (op : Operation) : Right events op (b.operate op).1 := by
  obtain ⟨refs, hbound, hcard⟩ := h.exists_bound
  have hlatest : ∀ r, Latest events r (b.lookup r) := fun r => (h r _).mp rfl
  cases op with
  | change c =>
    cases c with
    | set r v => exact .set (hlatest r)
    | define r v =>
      -- a definition is refused just where the reference has a value
      by_cases hr : b.contains r = true
      · obtain ⟨w, hw⟩ := (h.contains_iff r).mp hr
        simp only [Bindings.operate, answerChange, define_of_contains hr]
        exact .redefine hw
      · have hnone : b.lookup r = none := by
          rwa [contains, Option.not_isSome_iff_eq_none] at hr
        simp only [Bindings.operate, answerChange, define_of_not_contains hr]
        exact .define ((h r none).mp hnone)
    | remove r => exact .remove (hlatest r)
  | lookup r => exact .lookup (hlatest r)
  | contains r => exact .contains (h.contains_iff r)
  | size =>
    show Right events .size (.count b.size)
    exact hcard ▸ .size hbound
  | isEmpty =>
    refine .isEmpty hbound ?_
    rw [hcard, isEmpty, size, List.isEmpty_iff_length_eq_zero]

/-- There is no other right answer. -/
theorem Tells.eq_of_right (h : b.Tells events) {op : Operation} {answer : Answer}
    (hright : Right events op answer) : answer = (b.operate op).1 := by
  obtain ⟨refs', hbound', hcard⟩ := h.exists_bound
  -- two finite sets of the references with a value are one set
  have hunique : ∀ refs, Bound events refs → refs.card = b.size := fun refs hbound => by
    have heq : refs = refs' := Finset.ext fun r => (hbound r).trans (hbound' r).symm
    rw [heq, hcard]
  cases hright with
  | set hx | remove hx | lookup hx => exact congrArg Answer.value ((h _ _).mpr hx).symm
  | @define r v hx =>
    have hr : ¬ b.contains r = true := by
      rw [contains, (h r none).mpr hx]
      exact Bool.false_ne_true
    simp only [Bindings.operate, answerChange, define_of_not_contains hr]
  | @redefine r v w hx =>
    have hr : b.contains r = true := (h.contains_iff r).mpr ⟨w, hx⟩
    simp only [Bindings.operate, answerChange, define_of_contains hr]
  | contains ht =>
    exact congrArg Answer.truth (Bool.eq_iff_iff.mpr (ht.trans (h.contains_iff _).symm))
  | size hbound => exact congrArg Answer.count (hunique _ hbound)
  | isEmpty hbound ht =>
    refine congrArg Answer.truth (Bool.eq_iff_iff.mpr (ht.trans ?_))
    rw [hunique _ hbound, Bindings.isEmpty, Bindings.size, List.isEmpty_iff_length_eq_zero]

/-- Bindings that tell the history give the right answers and no others. -/
theorem Tells.right_iff (h : b.Tells events) {op : Operation} {answer : Answer} :
    Right events op answer ↔ answer = (b.operate op).1 :=
  ⟨h.eq_of_right, fun heq => heq ▸ h.right op⟩

/-- Every operation among others has the right answer, as the events before it tell it. -/
theorem Tells.right_iff_of_operateAll (h : b.Tells events) {ops : List Operation}
    {before after : List (Operation × Answer)} {op : Operation} {answer : Answer}
    (hsplit : (b.operateAll ops).1 = before ++ (op, answer) :: after) (answer' : Answer) :
    Right (events ++ before.filterMap event?) op answer' ↔ answer' = answer := by
  -- the induction is on the answers before; each moves one event into the history
  induction before generalizing b events ops with
  | nil =>
    rcases ops with - | ⟨op', ops⟩
    · cases hsplit
    · obtain ⟨rfl, rfl⟩ := Prod.mk.inj (List.cons.inj hsplit).1
      rw [List.filterMap_nil, List.append_nil]
      exact h.right_iff
  | cons answered before ih =>
    rcases ops with - | ⟨op', ops⟩
    · cases hsplit
    · obtain ⟨rfl, hrest⟩ := List.cons.inj hsplit
      have hright := ih (h.operate op') hrest
      rwa [List.append_assoc, ← filterMap_event?_cons] at hright

/-- An operation leaves the references that it is not about as they are. -/
theorem lookup_operate_of_ne (b : Bindings) {op : Operation} {q : Ref} (h : op.ref? ≠ some q) :
    (b.operate op).2.lookup q = b.lookup q := by
  cases op with
  | change c =>
    have hne : q ≠ c.ref := fun heq => h (congrArg some heq.symm)
    exact b.lookup_change_of_ne hne
  | lookup | contains | size | isEmpty => rfl

/-- A definition that is refused does nothing at all. -/
theorem operate_of_refused (b : Bindings) {op : Operation} {e : EvalError}
    (h : (b.operate op).1 = .refused e) : (b.operate op).2 = b := by
  cases op with
  | change c =>
    cases c with
    | set | remove => cases h
    | define r v =>
      by_cases hr : b.contains r = true
      · simp only [operate, change, define_of_contains hr]
        rfl
      · simp only [operate, answerChange, define_of_not_contains hr] at h
        cases h
  | lookup | contains | size | isEmpty => cases h

/-- **Bindings are a finite map, through all that is done with them.**

They are made of any entries, and then any operations are done with them.  The answer to every
operation is the one that the history before it makes right: to a lookup, a new value and a removal
the value that the last event about their reference gave it, to the count the number of references
that have a value, and to a definition that it is refused, just where its reference has one.  The
bindings after all the operations tell the history as well.  What is done to one reference leaves
the others as they are, and a definition that is refused leaves everything as it is. -/
theorem answers_tell_history (entries : List (Ref × Value)) (ops : List Operation) :
    let run := (ofList entries).operateAll ops
    (∀ before op answer after, run.1 = before ++ (op, answer) :: after →
      ∀ answer', Right (history entries before) op answer' ↔ answer' = answer) ∧
    (∀ r x, run.2.lookup r = x ↔ Latest (history entries run.1) r x) ∧
    (∀ op q, op.ref? ≠ some q → (run.2.operate op).2.lookup q = run.2.lookup q) ∧
    ∀ op e, (run.2.operate op).1 = .refused e → (run.2.operate op).2 = run.2 := by
  intro run
  have hmade := tells_ofList entries
  have hhistory : ∀ transcript,
      history entries [] ++ transcript.filterMap event? = history entries transcript := by
    intro transcript
    rw [history, history, List.filterMap_nil, List.append_nil]
  refine ⟨fun before op answer after hsplit => ?_, ?_,
    fun op q h => lookup_operate_of_ne run.2 h, fun op e h => operate_of_refused run.2 h⟩
  · exact hhistory before ▸ hmade.right_iff_of_operateAll hsplit
  · exact hhistory run.1 ▸ hmade.operateAll ops

/-- A parameter with two entries is defined again, which is refused, then removed and defined. -/
theorem answers_tell_history_defined_again :
    let entries : List (Ref × Value) := [(⟨1⟩, .bool true), (⟨1⟩, .bool false)]
    let define : Operation := .change (.define ⟨1⟩ (.vector 0 1))
    let remove : Operation := .change (.remove ⟨1⟩)
    let ops := [define, remove, define, .size]
    let refused : Operation × Answer := (define, .refused (.duplicateDefinition ⟨1⟩))
    let run := (ofList entries).operateAll ops
    run.1 = [refused, (remove, .value (some (.bool false))), (define, .accepted),
      (.size, .count 1)] ∧
    Right (history entries [refused]) remove (.value (some (.bool false))) ∧
    Latest (history entries run.1) ⟨1⟩ (some (.vector 0 1)) ∧
    (run.2.operate remove).2.lookup ⟨2⟩ = run.2.lookup ⟨2⟩ ∧ (run.2.operate define).2 = run.2 := by
  intro entries define remove ops refused run
  obtain ⟨hanswers, hlookup, hother, hrefused⟩ := answers_tell_history entries ops
  have hne : remove.ref? ≠ some ⟨2⟩ := by decide
  exact ⟨rfl, (hanswers [refused] remove _ _ rfl _).mpr rfl, (hlookup ⟨1⟩ _).mp rfl,
    hother remove ⟨2⟩ hne, hrefused define _ rfl⟩

end ParametricPlan.Bindings
