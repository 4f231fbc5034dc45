/-
ParametricPlan/Command/Options.lean

The options of a run.

    options = { "--set" binding | "--set=" binding | "--halt-on-fault" }
    binding = reference "=" ( "true" | "false" | number )

The first spelling of a binding takes two arguments, the second only one.  A binding is cut at its
first `=`, and its number has to be finite.  The options are read from left to right, and the
first that is wrong is the answer; bindings keep their order, and may name a parameter again.
-/
import ParametricPlan.Plan.Fault
import ParametricPlan.Ref

namespace ParametricPlan

/-- What is wrong with an option. -/
inductive UsageError where
  | missingValue (option : String)
  | malformedBinding (text : String)
  | invalidReference (text : String)
  | invalidValue (text : String)
  | unknownOption (text : String)
deriving DecidableEq, Repr

namespace UsageError

/-- What is wrong, in words. -/
def message : UsageError → String
  | missingValue option => "missing value for `" ++ option ++ "`"
  | malformedBinding text => "expected `R<n>=<value>`, got `" ++ text ++ "`"
  | invalidReference text => "invalid reference `" ++ text ++ "`; expected `R<n>`"
  | invalidValue text =>
    "invalid value `" ++ text ++ "`; expected a finite number, `true` or `false`"
  | unknownOption text => "unknown option `" ++ text ++ "`"

end UsageError

/-- The options of a run: bindings in order, and what a fault does. -/
structure RunOptions where
  bindings : List (Ref × Value)
  policy : Policy

namespace RunOptions

/-! ### Bindings -/

/-- The text before the first `=` and the text after it. -/
def splitBinding? : List Char → Option (List Char × List Char)
  | [] => none
  | '=' :: cs => some ([], cs)
  | c :: cs => (splitBinding? cs).map fun (name, value) => (c :: name, value)

/-- Reads a truth value or a finite number. -/
def readValue? (cs : List Char) : Option Value :=
  if cs = "true".toList then some (.bool true)
  else if cs = "false".toList then some (.bool false)
  else match Literal.readNumber? cs with
    | some x => if x.isFinite then some (.number x) else none
    | none => none

/-- Reads a binding. -/
def parseBinding (text : String) : Except UsageError (Ref × Value) :=
  match splitBinding? text.toList with
  | none => .error (.malformedBinding text)
  | some (name, value) =>
    match Ref.read? name with
    | none => .error (.invalidReference (String.ofList name))
    | some r =>
      match readValue? value with
      | none => .error (.invalidValue (String.ofList value))
      | some v => .ok (r, v)

/-! ### Options -/

/-- No options. -/
def default : RunOptions := ⟨[], .proceed⟩

/-- Puts a binding before the others. -/
def withBinding (binding : Ref × Value) (o : RunOptions) : RunOptions :=
  ⟨binding :: o.bindings, o.policy⟩

/-- Ends the run at the first fault. -/
def haltOnFault (o : RunOptions) : RunOptions :=
  ⟨o.bindings, .halt⟩

/-- Reads the options of a run. -/
def parse : List String → Except UsageError RunOptions
  | [] => .ok default
  | arg :: args =>
    if arg = "--set" then
      match args with
      | [] => .error (.missingValue arg)
      | text :: args => do
        let binding ← parseBinding text
        let options ← parse args
        return options.withBinding binding
    else if arg = "--halt-on-fault" then do
      let options ← parse args
      return options.haltOnFault
    else
      match "--set=".toList.isPrefixOf? arg.toList with
      | some text => do
        let binding ← parseBinding (String.ofList text)
        let options ← parse args
        return options.withBinding binding
      | none => .error (.unknownOption arg)

end RunOptions
end ParametricPlan
