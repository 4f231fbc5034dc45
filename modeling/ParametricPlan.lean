import ParametricPlan.Command.Demo
import ParametricPlan.Command.Line
import ParametricPlan.Command.Options
import ParametricPlan.Evaluation.Apply
import ParametricPlan.Evaluation.Bindings
import ParametricPlan.Evaluation.Error
import ParametricPlan.Evaluation.Evaluate
import ParametricPlan.Formula.Basic
import ParametricPlan.Formula.Copy
import ParametricPlan.Formula.Equality
import ParametricPlan.Formula.Infix
import ParametricPlan.Formula.Visit
import ParametricPlan.Formula.Visitor
import ParametricPlan.Main
import ParametricPlan.Number.Binary64
import ParametricPlan.Number.Decimal
import ParametricPlan.Number.Hypotenuse
import ParametricPlan.Number.Literal
import ParametricPlan.Number.Style
import ParametricPlan.Operator
import ParametricPlan.Plan.Basic
import ParametricPlan.Plan.Context
import ParametricPlan.Plan.Dependencies
import ParametricPlan.Plan.Execution
import ParametricPlan.Plan.Fault
import ParametricPlan.Plan.FaultBoard
import ParametricPlan.Plan.Outline
import ParametricPlan.Proofs.Command.BindingGrammar
import ParametricPlan.Proofs.Command.Demo
import ParametricPlan.Proofs.Command.Line
import ParametricPlan.Proofs.Command.Options
import ParametricPlan.Proofs.Command.ReadBack
import ParametricPlan.Proofs.Evaluation.Arguments
import ParametricPlan.Proofs.Evaluation.Bindings
import ParametricPlan.Proofs.Evaluation.Equations
import ParametricPlan.Proofs.Evaluation.Extremum
import ParametricPlan.Proofs.Evaluation.History
import ParametricPlan.Proofs.Evaluation.Kinds
import ParametricPlan.Proofs.Evaluation.Lookups
import ParametricPlan.Proofs.Evaluation.Steps
import ParametricPlan.Proofs.Evaluation.Substitution
import ParametricPlan.Proofs.Formula.Dump
import ParametricPlan.Proofs.Formula.Equality
import ParametricPlan.Proofs.Formula.Grammar
import ParametricPlan.Proofs.Formula.Induction
import ParametricPlan.Proofs.Formula.Inversion
import ParametricPlan.Proofs.Formula.Legible
import ParametricPlan.Proofs.Formula.Lexeme
import ParametricPlan.Proofs.Formula.Minimal
import ParametricPlan.Proofs.Formula.Parentheses
import ParametricPlan.Proofs.Formula.Preorder
import ParametricPlan.Proofs.Formula.ReadBack
import ParametricPlan.Proofs.Formula.References
import ParametricPlan.Proofs.Formula.Tokens
import ParametricPlan.Proofs.Formula.Unambiguous
import ParametricPlan.Proofs.Formula.Visits
import ParametricPlan.Proofs.Number.Characters
import ParametricPlan.Proofs.Number.Decimal
import ParametricPlan.Proofs.Number.Hypotenuse
import ParametricPlan.Proofs.Number.Order
import ParametricPlan.Proofs.Number.ReadBack
import ParametricPlan.Proofs.Number.Word
import ParametricPlan.Proofs.Plan.Analysis
import ParametricPlan.Proofs.Plan.Composition
import ParametricPlan.Proofs.Plan.Dependencies
import ParametricPlan.Proofs.Plan.Events
import ParametricPlan.Proofs.Plan.FaultBoard
import ParametricPlan.Proofs.Plan.Halting
import ParametricPlan.Proofs.Plan.Induction
import ParametricPlan.Proofs.Plan.Members
import ParametricPlan.Proofs.Plan.Outline
import ParametricPlan.Proofs.Plan.Places
import ParametricPlan.Proofs.Plan.Sessions
import ParametricPlan.Proofs.Plan.Unresolved
import ParametricPlan.Proofs.Plan.Walk
import ParametricPlan.Proofs.Text.Dump
import ParametricPlan.Proofs.Text.Quoted
import ParametricPlan.Proofs.Text.Run
import ParametricPlan.Ref
import ParametricPlan.Text.Dump
import ParametricPlan.Text.Printable
import ParametricPlan.Text.Quoted
import ParametricPlan.Value
