/-
TransitionRules/Rule/Basic.lean

Rules that are ready to run.  A rule pairs a matcher, which looks at two states of an object, with
a transform of one object into the next.  Either may fail, and either may run rules of its own and
so never end.
-/
import TransitionRules.Budgeted

namespace TransitionRules

/-- The two states that a matcher looks at: the one at the start of the run, which stays, and the
one that the run has reached. -/
structure Context where
  before : Object
  next : Object

/-- Whether a field differs between the two states; a field that is present in one of them only
does. -/
def Context.changed (context : Context) (field : String) : Bool :=
  match context.before.get? field, context.next.get? field with
  | some first, some second => !first.sameValue second
  | none, none => false
  | _, _ => true

/-- Decides whether a rule applies. -/
inductive Matcher where
  /-- Always or never. -/
  | constant (fires : Bool)
  | predicate (test : Context → Budgeted Bool)

/-- Whether a matcher holds in a context. -/
def Matcher.holds (matcher : Matcher) (context : Context) : Budgeted Bool :=
  match matcher with
  | .constant fires => pure fires
  | .predicate test => test context

/-- A transform of one object into the next. -/
abbrev Transform := Object → Budgeted Object

/-- A rule that is ready to run. -/
structure Rule where
  name : String
  description : Option String := none
  matcher : Matcher
  transform : Transform

end TransitionRules
