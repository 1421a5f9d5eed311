/-
TransitionRules/Proofs/Expr/InlineRules.lean

Rules inside an expression and rules that are declared.  The same pairs of conditions and transforms
can be the operands of one expression, which runs them on the object that it is evaluated on, or
declarations of their own, which are compiled one by one.  The two ways read their data at different
times, keep their rules differently, and name them differently.

They come to the same: both read and simplify each condition and each transform by itself
(`reads_assign_iff`, `compileFrom_declared`), the rules are the same but for their names
(`inlineRules_anonymous`), a run does not ask for names (`Run.stabilize_anonymous`), and the object
that a run ends with comes back from being a value (`Value.toObject_ofObject`).

Main result: `evalTransform_assign_eq_stabilize`.
-/
import TransitionRules.Expr.ArraySyntax
import TransitionRules.Proofs.Expr.Evaluation
import TransitionRules.Proofs.Steps
import TransitionRules.Proofs.Value.RoundTrip
import TransitionRules.Rule.Compile

namespace TransitionRules.Expr

/-! ### Reading -/

/-- The data is an array expression that simplifies to this one. -/
def Reads (data : Json) (expression : Expr) : Prop :=
  ∃ written, ofArrays data = .ok written ∧ written.simplify = .ok expression

/-- The two data are array expressions that simplify to these. -/
def ReadsPair (data : Json × Json) (rule : Expr × Expr) : Prop :=
  Reads data.1 rule.1 ∧ Reads data.2 rule.2

/-- The data is an array expression, and its simplification does not stop. -/
def Readable (data : Json) : Prop := ∃ expression, Reads data expression

variable {pairs : List (Json × Json)} {patch : Option Json} {rules : List (Expr × Expr)}
variable {change : Option Expr}

/-- Conditions and transforms by turns, and perhaps a patch. -/
def operandData (pairs : List (Json × Json)) (patch : Option Json) : List Json :=
  pairs.flatMap (fun pair => [pair.1, pair.2]) ++ patch.toList

/-- The array that runs rules of its own. -/
def assignData (pairs : List (Json × Json)) (patch : Option Json) : Json :=
  .array (.string "reducer-assign" :: operandData pairs patch)

/-- Operands are read as rules and a patch, each by itself. -/
theorem reads_of_ruleExpressions {written : List (Expr × Expr) × Option Expr}
    (h : ruleExpressions (operandsOf (operandData pairs patch)) = .ok written)
    (hrules : simplifyRules written.1 = .ok rules)
    (hchange : Option.Rel (fun e e' => e.simplify = .ok e') written.2 change) :
    List.Forall₂ ReadsPair pairs rules ∧ Option.Rel Reads patch change := by
  -- two operands are taken at a time; what is left behind the pairs is the patch
  induction pairs generalizing written rules with
  | nil =>
    cases patch with
    | none =>
      cases h
      cases hrules
      cases hchange
      exact ⟨.nil, .none⟩
    | some data =>
      obtain ⟨e, he, h⟩ := bind_eq_ok.mp h
      cases h
      cases hrules
      cases hchange with
      | some hsimplify => exact ⟨.nil, .some ⟨e, he, hsimplify⟩⟩
  | cons pair pairs ih =>
    obtain ⟨condition, hcondition, h⟩ := bind_eq_ok.mp h
    obtain ⟨transform, htransform, h⟩ := bind_eq_ok.mp h
    obtain ⟨later, hlater, h⟩ := bind_eq_ok.mp h
    cases h
    obtain ⟨condition', hcondition', hrules⟩ := bind_eq_ok.mp hrules
    obtain ⟨transform', htransform', hrules⟩ := bind_eq_ok.mp hrules
    obtain ⟨rules', hrules', hrules⟩ := bind_eq_ok.mp hrules
    cases hrules
    obtain ⟨hpairs, hpatch⟩ := ih hlater hrules' hchange
    have hpair : ReadsPair pair (condition', transform') :=
      ⟨⟨condition, hcondition, hcondition'⟩, ⟨transform, htransform, htransform'⟩⟩
    exact ⟨.cons hpair hpairs, hpatch⟩

theorem ruleExpressions_of_reads (hpairs : List.Forall₂ ReadsPair pairs rules)
    (hpatch : Option.Rel Reads patch change) :
    ∃ written, ruleExpressions (operandsOf (operandData pairs patch)) = .ok written ∧
      simplifyRules written.1 = .ok rules ∧
      Option.Rel (fun e e' => e.simplify = .ok e') written.2 change := by
  induction hpairs with
  | nil =>
    cases hpatch with
    | none => exact ⟨([], none), rfl, rfl, .none⟩
    | some hreads =>
      obtain ⟨e, he, hsimplify⟩ := hreads
      exact ⟨([], some e), bind_eq_ok.mpr ⟨e, he, rfl⟩, rfl, .some hsimplify⟩
  | @cons pair rule pairs rules hpair _ ih =>
    obtain ⟨later, hlater, hrules, hchange⟩ := ih
    obtain ⟨⟨condition, hcondition, hcondition'⟩, ⟨transform, htransform, htransform'⟩⟩ := hpair
    refine ⟨((condition, transform) :: later.1, later.2), ?_, ?_, hchange⟩
    · exact bind_eq_ok.mpr ⟨condition, hcondition,
        bind_eq_ok.mpr ⟨transform, htransform, bind_eq_ok.mpr ⟨later, hlater, rfl⟩⟩⟩
    · exact bind_eq_ok.mpr ⟨rule.1, hcondition',
        bind_eq_ok.mpr ⟨rule.2, htransform', bind_eq_ok.mpr ⟨rules, hrules, rfl⟩⟩⟩

/-- What the array that runs rules is read as. -/
theorem reads_assign_iff {whole : Expr} :
    Reads (assignData pairs patch) whole ↔
      ∃ rules change, whole = .assign rules change ∧
        List.Forall₂ ReadsPair pairs rules ∧ Option.Rel Reads patch change := by
  constructor
  · rintro ⟨e, hwritten, hwhole⟩
    obtain ⟨⟨written, change⟩, hparts, h⟩ := bind_eq_ok.mp hwritten
    cases h
    cases change with
    | none =>
      obtain ⟨rules, hrules, h⟩ := bind_eq_ok.mp hwhole
      cases h
      exact ⟨rules, none, rfl, reads_of_ruleExpressions hparts hrules .none⟩
    | some change =>
      obtain ⟨rules, hrules, h⟩ := bind_eq_ok.mp hwhole
      obtain ⟨change', hchange, h⟩ := bind_eq_ok.mp h
      cases h
      exact ⟨rules, some change', rfl, reads_of_ruleExpressions hparts hrules (.some hchange)⟩
  · rintro ⟨rules, change, rfl, hpairs, hpatch⟩
    obtain ⟨⟨written, change'⟩, hparts, hrules, hchange⟩ := ruleExpressions_of_reads hpairs hpatch
    refine ⟨.assign written change', bind_eq_ok.mpr ⟨_, hparts, rfl⟩, ?_⟩
    cases hchange with
    | none => exact bind_eq_ok.mpr ⟨rules, hrules, rfl⟩
    | some hsimplify =>
      exact bind_eq_ok.mpr ⟨rules, hrules, bind_eq_ok.mpr ⟨_, hsimplify, rfl⟩⟩

theorem exists_readsPair_iff :
    (∃ rules, List.Forall₂ ReadsPair pairs rules) ↔
      ∀ pair ∈ pairs, Readable pair.1 ∧ Readable pair.2 := by
  induction pairs with
  | nil => exact ⟨fun _ => List.forall_mem_nil _, fun _ => ⟨[], .nil⟩⟩
  | cons pair pairs ih =>
    rw [List.forall_mem_cons, ← ih]
    constructor
    · rintro ⟨_, h⟩
      cases h with
      | cons hpair hpairs => exact ⟨⟨⟨_, hpair.1⟩, ⟨_, hpair.2⟩⟩, ⟨_, hpairs⟩⟩
    · rintro ⟨⟨⟨condition, hcondition⟩, ⟨transform, htransform⟩⟩, ⟨rules, hrules⟩⟩
      exact ⟨(condition, transform) :: rules, .cons ⟨hcondition, htransform⟩ hrules⟩

theorem exists_reads_patch_iff :
    (∃ change, Option.Rel Reads patch change) ↔ ∀ data ∈ patch, Readable data := by
  cases patch with
  | none => exact ⟨fun _ _ hdata => (nomatch hdata), fun _ => ⟨none, .none⟩⟩
  | some data =>
    constructor
    · rintro ⟨_, h⟩ _ hdata
      cases hdata
      cases h with
      | some hreads => exact ⟨_, hreads⟩
    · intro h
      obtain ⟨e, hreads⟩ := h data rfl
      exact ⟨some e, .some hreads⟩

/-- The array that runs rules can be read if and only if each of its parts can. -/
theorem exists_reads_assign_iff :
    (∃ whole, Reads (assignData pairs patch) whole) ↔
      (∀ pair ∈ pairs, Readable pair.1 ∧ Readable pair.2) ∧ ∀ data ∈ patch, Readable data := by
  rw [← exists_readsPair_iff, ← exists_reads_patch_iff]
  constructor
  · rintro ⟨whole, hwhole⟩
    obtain ⟨rules, change, -, hpairs, hpatch⟩ := reads_assign_iff.mp hwhole
    exact ⟨⟨rules, hpairs⟩, ⟨change, hpatch⟩⟩
  · rintro ⟨⟨rules, hpairs⟩, ⟨change, hpatch⟩⟩
    exact ⟨_, reads_assign_iff.mpr ⟨rules, change, rfl, hpairs, hpatch⟩⟩

/-! ### Rules -/

variable {environment : Environment} {warn : Bool}

/-- The pairs as declarations. -/
def declared (pairs : List (Json × Json)) : List Declaration :=
  pairs.map fun pair =>
    { condition := some (.expression pair.1), performance := some (.expression pair.2) }

/-- Declarations are compiled with expressions that are arrays. -/
def arrayOptions (warn : Bool) (environment : Environment) : CompileOptions where
  warn := warn
  environment := environment
  frontend := some ofArrays

theorem expression_of_reads {data : Json} {expression : Expr} (h : Reads data expression)
    (role : Role) :
    Declaration.expression (arrayOptions warn environment) role data = .ok expression := by
  obtain ⟨written, hwritten, hsimplify⟩ := h
  simp only [Declaration.expression, arrayOptions, hwritten, Except.mapError, hsimplify]

/-- What can be read is compiled, in its order. -/
theorem compileFrom_declared (hpairs : List.Forall₂ ReadsPair pairs rules) (position : Nat) :
    ∃ compiled,
      Declaration.compileFrom (arrayOptions warn environment) position (declared pairs) =
        .ok compiled ∧
      compiled.map Run.anonymous = rules.map (pairRule environment) := by
  induction hpairs generalizing position with
  | nil => exact ⟨[], rfl, rfl⟩
  | @cons pair rule pairs rules hpair _ ih =>
    obtain ⟨compiled, hcompiled, hrules⟩ := ih (position + 1)
    have hmatcher : Declaration.matcher (arrayOptions warn environment) (.expression pair.1) =
        .ok (rule.1.matcher (rule.1.evalCondition environment)) :=
      bind_eq_ok.mpr ⟨rule.1, expression_of_reads hpair.1 .condition, rfl⟩
    have htransform : Declaration.transform (arrayOptions warn environment) (.expression pair.2) =
        .ok (rule.2.evalTransform environment) :=
      bind_eq_ok.mpr ⟨rule.2, expression_of_reads hpair.2 .transform, rfl⟩
    let named : Rule := { pairRule environment rule with name := "rule-" ++ toString position }
    have hrule : Declaration.compile (arrayOptions warn environment) position
        { condition := some (.expression pair.1), performance := some (.expression pair.2) } =
        .ok named :=
      bind_eq_ok.mpr ⟨_, hmatcher, bind_eq_ok.mpr ⟨_, htransform, rfl⟩⟩
    refine ⟨named :: compiled, ?_, congrArg (pairRule environment rule :: ·) hrules⟩
    show Declaration.compileFrom _ position (_ :: declared pairs) = _
    rw [Declaration.compileFrom, hrule]
    exact bind_eq_ok.mpr ⟨compiled, hcompiled, rfl⟩

/-! ### Running -/

/-- An expression that runs rules, as a transform: what it ends with is not changed by having been a
value. -/
theorem evalTransform_assign (rules : List (Expr × Expr)) (patch : Option Expr)
    (environment : Environment) (object : Object) :
    (Expr.assign rules patch).evalTransform environment object = (do
      let changes ← evalPatch patch (.transform object environment)
      Run.stabilize (rules.map (pairRule environment)) none object changes) := by
  have hback : ∀ final : Object,
      (((Value.ofObject final).toObject "transform" : Except RuleError Object) :
        Budgeted Object) = pure final := by
    intro final
    rw [Value.toObject_ofObject]
    rfl
  rw [evalTransform, eval_assign]
  simp only [bind_assoc, pure_bind, hback, bind_pure]
  rfl

/-- **Rules inside an expression are declared rules.**  The array that runs rules can be read if and
only if each of its parts can; then the declarations of the same pairs can be compiled, and
evaluating the array on an object is the same computation as evaluating the patch and running the
compiled rules with it: it has the same object, the same failure, or goes on for ever too. -/
theorem evalTransform_assign_eq_stabilize (pairs : List (Json × Json)) (patch : Option Json)
    (warn : Bool) (environment : Environment) :
    ((∃ whole, Reads (assignData pairs patch) whole) ↔
      (∀ pair ∈ pairs, Readable pair.1 ∧ Readable pair.2) ∧ ∀ data ∈ patch, Readable data) ∧
    ∀ whole, Reads (assignData pairs patch) whole →
      ∃ change rules, Option.Rel Reads patch change ∧
        Declaration.compileAll (arrayOptions warn environment) (declared pairs) = .ok rules ∧
        ∀ object, whole.evalTransform environment object = (do
          let changes ← evalPatch change (.transform object environment)
          Run.stabilize rules none object changes) := by
  refine ⟨exists_reads_assign_iff, fun whole hwhole => ?_⟩
  obtain ⟨inline, change, rfl, hpairs, hpatch⟩ := reads_assign_iff.mp hwhole
  obtain ⟨rules, hcompile, hrules⟩ := compileFrom_declared hpairs 0
  refine ⟨change, rules, hpatch, hcompile, fun object => ?_⟩
  -- the compiled rules are those of the pairs but for their names
  rw [evalTransform_assign, ← hrules, funext (Run.stabilize_anonymous none object · rules)]

/-- A rule that stamps an object whose status has changed, as data. -/
def stampData : Json × Json :=
  (.array [.string "!=", .array [.string "get", .string "next.status"],
    .array [.string "get", .string "before.status"]],
    .array [.string "set", .string "stamped", .bool true])

/-- A patch that changes the status, as data. -/
def doneData : Json := .object (FieldsAfter.nil.insert "status" (.string "done"))

/-- The array that runs the rule after the patch. -/
def stamping : Expr :=
  .assign
    [(.binary .ne (.field (.ident "next") "status") (.field (.ident "before") "status"),
      .call "set" [.string "stamped", .bool true])]
    (some (.map [("status", .string "done")]))

/-- The patch, the rule that stamps, inside an expression and declared: the declaration can be
compiled, and running it with the patch settles on the stamped object because evaluating the
expression does. -/
theorem evalTransform_assign_eq_stabilize_stamp :
    let patch : Object := FieldsAfter.nil.insert "status" (.string "done")
    Reads (assignData [stampData] (some doneData)) stamping ∧
      ∃ rules, Declaration.compileAll (arrayOptions false .nil) (declared [stampData]) = .ok rules ∧
        (Run.stabilize rules none .nil patch).Ends (.ok (patch.insert "stamped" (.bool true))) := by
  intro patch
  have hreads : Reads (assignData [stampData] (some doneData)) stamping := ⟨stamping, rfl, rfl⟩
  obtain ⟨change, rules, hchange, hcompile, hsame⟩ :=
    (evalTransform_assign_eq_stabilize [stampData] (some doneData) false .nil).2 _ hreads
  have hends : (stamping.evalTransform .nil .nil).Ends
      (.ok (patch.insert "stamped" (.bool true))) := ⟨3, rfl⟩
  rw [hsame] at hends
  obtain ⟨changes, hchanges, hrun⟩ := Budgeted.ends_bind_ok_iff.mp hends
  -- the patch is read as a map of one string, and its value is that object
  cases hchange with
  | some hpatch =>
    obtain ⟨written, hwritten, hsimplify⟩ := hpatch
    cases hwritten
    cases hsimplify
    obtain rfl : changes = patch := Except.ok.inj (hchanges.unique ⟨0, rfl⟩)
    exact ⟨hreads, rules, hcompile, hrun⟩

end TransitionRules.Expr
