/-
TransitionRules/Rule/Declaration.lean

Rules as they are declared.  Everything in a declaration may be missing; whether it makes sense is
decided when it is compiled.
-/
import TransitionRules.Rule.Action
import TransitionRules.Rule.Basic

namespace TransitionRules

/-- When a declared rule applies. -/
inductive Condition where
  /-- Always or never. -/
  | constant (fires : Bool)
  | native (test : Context → Budgeted Bool)
  /-- An expression as data. -/
  | expression (data : Json)

/-- What a declared rule does. -/
inductive Performance where
  | native (transform : Transform)
  /-- An expression as data. -/
  | expression (data : Json)
  | actions (specs : List ActionSpec)
  /-- What could be read but makes no sense, for a reason in words. -/
  | malformed (reason : String)

/-- A declared rule. -/
structure Declaration where
  name : Option String := none
  description : Option String := none
  condition : Option Condition := none
  performance : Option Performance := none

/-- The declaration with one more action at the end of its list.  What is no list of actions is
replaced by one. -/
def Declaration.andThen (declaration : Declaration) (spec : ActionSpec) : Declaration :=
  match declaration.performance with
  | some (.actions specs) => { declaration with performance := some (.actions (specs ++ [spec])) }
  | _ => { declaration with performance := some (.actions [spec]) }

end TransitionRules
