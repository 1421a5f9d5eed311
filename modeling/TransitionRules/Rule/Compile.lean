/-
TransitionRules/Rule/Compile.lean

Compiling declarations into rules.  Rules keep the order of their declarations.  A declaration
that makes no sense is an error with its position and its name or, where warnings are enough, is
left out.  Only a simplification that stops (`FoldAbort`) stops the compilation in any case.
-/
import TransitionRules.Expr.Eval
import TransitionRules.Expr.Simplify
import TransitionRules.Rule.Declaration

namespace TransitionRules

/-- A way of reading expressions from data. -/
abbrev Frontend := Json → Except RuleError Expr

/-- A way of reading that fails with syntax faults only fails with parse errors. -/
instance : Coe (Json → Except SyntaxFault Expr) Frontend where
  coe read data := (read data).mapError .parse

/-- How declarations are compiled. -/
structure CompileOptions where
  /-- Leave out what makes no sense. -/
  warn : Bool := false
  environment : Environment := .nil
  frontend : Option Frontend := none

/-- Why a declaration has no rule. -/
inductive CompileStop where
  | fault (fault : DeclarationFault)
  | abort (abort : FoldAbort)

/-- Why declarations have no rules. -/
inductive CompileFailure where
  | error (error : RuleError)
  | abort (abort : FoldAbort)

namespace Declaration

/-- The simplified expression of data. -/
def expression (options : CompileOptions) (role : Role) (data : Json) :
    Except CompileStop Expr :=
  match options.frontend with
  | none => .error (.fault (.noFrontend role))
  | some frontend =>
    match frontend data with
    | .error e => .error (.fault (.expression role e))
    | .ok expression =>
      match expression.simplify with
      | .error abort => .error (.abort abort)
      | .ok expression => .ok expression

/-- The matcher of a condition. -/
def matcher (options : CompileOptions) : Condition → Except CompileStop Matcher
  | .constant fires => .ok (.constant fires)
  | .native test => .ok (.predicate test)
  | .expression data => do
    let condition ← expression options .condition data
    return condition.matcher (condition.evalCondition options.environment)

/-- The transform of a list of written actions. -/
def actionsTransform (specs : List ActionSpec) : Except DeclarationFault Transform :=
  if specs.isEmpty then .error .noActions
  else do
    let actions ← Action.ofSpecs 0 specs
    return fun object => pure (Action.applyAll actions object)

/-- The transform of what a rule does. -/
def transform (options : CompileOptions) : Performance → Except CompileStop Transform
  | .native transform => .ok transform
  | .expression data => do
    let transform ← expression options .transform data
    return transform.evalTransform options.environment
  | .actions specs =>
    match actionsTransform specs with
    | .ok transform => .ok transform
    | .error fault => .error (.fault fault)
  | .malformed reason => .error (.fault (.malformed reason))

/-- The name of a declaration, or one made from its position. -/
def nameAt (declaration : Declaration) (position : Nat) : String :=
  declaration.name.getD ("rule-" ++ toString position)

/-- The rule of a declaration.  What is malformed counts before what is missing, and the condition
before the transform. -/
def compile (options : CompileOptions) (position : Nat) (declaration : Declaration) :
    Except CompileStop Rule :=
  match declaration.condition, declaration.performance with
  | _, some (.malformed reason) => .error (.fault (.malformed reason))
  | none, _ => .error (.fault .noCondition)
  | some _, none => .error (.fault .noTransform)
  | some condition, some performance => do
    let test ← matcher options condition
    let change ← transform options performance
    return ⟨declaration.nameAt position, declaration.description, test, change⟩

/-- The rules of a list of declarations, the first of which has this position. -/
def compileFrom (options : CompileOptions) (position : Nat) :
    List Declaration → Except CompileFailure (List Rule)
  | [] => .ok []
  | declaration :: rest =>
    match declaration.compile options position with
    | .ok rule => return rule :: (← compileFrom options (position + 1) rest)
    | .error (.abort abort) => .error (.abort abort)
    | .error (.fault fault) =>
      if options.warn then compileFrom options (position + 1) rest
      else .error (.error (.declaration position (declaration.nameAt position) fault))

/-- The rules of a list of declarations. -/
def compileAll (options : CompileOptions) (declarations : List Declaration) :
    Except CompileFailure (List Rule) :=
  compileFrom options 0 declarations

end Declaration

end TransitionRules
