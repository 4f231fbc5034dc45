/-
ParametricPlan/Evaluation/Bindings.lean

The values that parameters are bound to.

`Bindings` is a finite map from references to values, kept as a list with one entry for each bound
reference.  A reference can be set, which replaces the value it had, and it can be defined, which
is refused when it has one.
-/
import ParametricPlan.Evaluation.Error

namespace ParametricPlan

/-- A finite map from references to values. -/
structure Bindings where
  entries : List (Ref × Value)
  distinct : (entries.map Prod.fst).Nodup

namespace Bindings

/-- No bindings. -/
def empty : Bindings := ⟨[], by simp⟩

/-- The value a reference is bound to. -/
def lookup (b : Bindings) (r : Ref) : Option Value :=
  b.entries.lookup r

/-- Whether a reference is bound. -/
def contains (b : Bindings) (r : Ref) : Bool :=
  (b.lookup r).isSome

/-- The number of bound references. -/
def size (b : Bindings) : Nat :=
  b.entries.length

/-- Whether nothing is bound. -/
def isEmpty (b : Bindings) : Bool :=
  b.entries.isEmpty

/-- Takes away the binding of a reference. -/
def erase (b : Bindings) (r : Ref) : Bindings where
  entries := b.entries.filter fun entry => entry.1 ≠ r
  distinct := b.distinct.sublist (List.filter_sublist.map _)

/-- Binds a reference, in place of the binding it had. -/
def insert (b : Bindings) (r : Ref) (v : Value) : Bindings where
  entries := (r, v) :: (b.erase r).entries
  distinct := by
    refine List.nodup_cons.mpr ⟨?_, (b.erase r).distinct⟩
    simp [erase]

/-- Binds a reference and gives the value it had. -/
def set (b : Bindings) (r : Ref) (v : Value) : Option Value × Bindings :=
  (b.lookup r, b.insert r v)

/-- Takes away the binding of a reference and gives the value it had. -/
def remove (b : Bindings) (r : Ref) : Option Value × Bindings :=
  (b.lookup r, b.erase r)

/-- Binds a reference that is not bound yet. -/
def define (b : Bindings) (r : Ref) (v : Value) : Except EvalError Bindings :=
  if b.contains r then .error (.duplicateDefinition r) else .ok (b.insert r v)

/-- Binds the references of some entries one after the other. -/
def insertAll (b : Bindings) (entries : List (Ref × Value)) : Bindings :=
  entries.foldl (fun b (r, v) => b.insert r v) b

/-- The bindings of a list; of two entries with one reference the later counts. -/
def ofList (entries : List (Ref × Value)) : Bindings :=
  empty.insertAll entries

end Bindings
end ParametricPlan
