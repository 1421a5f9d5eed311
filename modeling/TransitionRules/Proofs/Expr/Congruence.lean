/-
TransitionRules/Proofs/Expr/Congruence.lean

Replacing the parts of an expression.  `RefinedIn position scope e e'` says that in this scope `e'`
gives every result of `e`, up to what the position sees.  `PartRefined site` says that of a part
wherever the evaluation of the whole comes to it.  One lemma for each kind of expression says that
replacements of its parts, as far as they are evaluated, make such a replacement of the whole.

The parts of a test position may change their values, which are read for their truthiness only.  An
assignment runs rules of its own, and its case is that runs keep their results when every rule is
replaced by one that gives the same results where the run uses it (`assign_refined`, from
`Run.stabilize_refines`).
-/
import Mathlib.Data.List.Forall2
import TransitionRules.Proofs.Expr.Evaluation
import TransitionRules.Proofs.Expr.Folding

namespace TransitionRules.Expr

open Budgeted (Refines)

/-- In this scope the second expression gives every result of the first one, up to what the position
sees. -/
def RefinedIn (position : Position) (scope : Scope) (first second : Expr) : Prop :=
  Refines position.Same (first.eval scope) (second.eval scope)

variable {position : Position} {scope : Scope}

theorem RefinedIn.refl (e : Expr) : RefinedIn position scope e e := .of_eq (.refl position) rfl

theorem RefinedIn.trans {first second third : Expr} (h : RefinedIn position scope first second)
    (h' : RefinedIn position scope second third) : RefinedIn position scope first third :=
  Refines.trans h h' fun _ _ _ => .trans

/-- The same values will do in every position. -/
theorem RefinedIn.of_value {first second : Expr} (h : RefinedIn .value scope first second) :
    RefinedIn position scope first second :=
  Refines.mono h fun value _ heq => heq ▸ .refl position value

/-- Wherever finding a value of the site comes to the first expression in this position, the second
one can take its place. -/
def PartRefined (site : Site) (position : Position) (part part' : Expr) : Prop :=
  ∀ inner, Evaluates site ⟨position, part, inner⟩ → RefinedIn position inner part part'

/-! ### Lists of parts -/

theorem evalItems_refines {items items' : List Expr}
    (h : List.Forall₂ (RefinedIn .value scope) items items') :
    Refines Eq (evalItems items scope) (evalItems items' scope) := by
  induction h with
  | nil => exact .pure rfl
  | cons hitem _ ih =>
    refine Refines.bind hitem fun value _ hvalue => ih.bind fun rest _ hrest => .pure ?_
    rw [show value = _ from hvalue, hrest]

theorem evalEntries_refines {entries entries' : List (String × Expr)}
    (h : List.Forall₂ (fun entry entry' => entry.1 = entry'.1 ∧
      RefinedIn .value scope entry.2 entry'.2) entries entries') (done : FieldMap Value) :
    Refines Eq (evalEntries entries done scope) (evalEntries entries' done scope) := by
  induction h generalizing done with
  | nil => exact .pure rfl
  | @cons entry entry' _ _ hentry _ ih =>
    obtain ⟨key, e⟩ := entry
    obtain ⟨_, e'⟩ := entry'
    obtain ⟨rfl, hvalue⟩ := hentry
    refine Refines.bind hvalue fun value _ hsame => ?_
    obtain rfl : value = _ := hsame
    exact ih _

/-- Of the operands of a junction, only those count that the evaluation comes to. -/
theorem evalJunction_refines {neutral : Bool} {operands operands' : List Expr}
    (h : List.Forall₂ (fun operand operand' => Asked neutral scope operands operand →
      RefinedIn .test scope operand operand') operands operands') :
    Refines Eq (evalJunction neutral operands scope) (evalJunction neutral operands' scope) := by
  induction operands generalizing operands' with
  | nil =>
    cases h
    exact .pure rfl
  | cons operand rest ih =>
    cases h with
    | cons hoperand hrest =>
      refine Refines.bind_of_ends (hoperand .first) fun value value' hends hvalue => ?_
      rw [← show value.truthy = value'.truthy from hvalue]
      split
      · next hopen => exact ih (hrest.imp fun _ _ h hasked => h (.later hends hopen hasked))
      · exact .pure rfl

/-! ### Kinds of expressions -/

/-- What the evaluation comes to in any case is refined. -/
theorem forall₂_refined {site : Site} {items items' : List Expr}
    (hitems : ∀ item ∈ items, Evaluates site ⟨position, item, scope⟩)
    (h : List.Forall₂ (PartRefined site position) items items') :
    List.Forall₂ (RefinedIn position scope) items items' :=
  ((List.forall₂_and_left ..).mpr ⟨hitems, h⟩).imp fun _ _ h => h.2 scope h.1

theorem list_refined {items items' : List Expr}
    (h : List.Forall₂ (PartRefined ⟨position, .list items, scope⟩ .value) items items') :
    RefinedIn position scope (.list items) (.list items') := by
  have hitems := forall₂_refined (fun _ hmem => .item hmem) h
  exact .of_value <| (evalItems_refines hitems).bind fun _ _ hvalues =>
    .pure (congrArg Value.list hvalues)

theorem map_refined {entries entries' : List (String × Expr)}
    (h : List.Forall₂ (fun entry entry' => entry.1 = entry'.1 ∧
      PartRefined ⟨position, .map entries, scope⟩ .value entry.2 entry'.2) entries entries') :
    RefinedIn position scope (.map entries) (.map entries') := by
  have hevaluated : ∀ entry ∈ entries,
      Evaluates ⟨position, .map entries, scope⟩ ⟨.value, entry.2, scope⟩ := fun _ hmem => .entry hmem
  have hentries := ((List.forall₂_and_left ..).mpr ⟨hevaluated, h⟩).imp
    fun _ _ h => And.intro h.2.1 (h.2.2 scope h.1)
  exact .of_value <| (evalEntries_refines hentries .nil).bind fun _ _ hfields =>
    .pure (congrArg Value.map hfields)

theorem field_refined {base base' : Expr} {name : String}
    (h : PartRefined ⟨position, .field base name, scope⟩ .value base base') :
    RefinedIn position scope (.field base name) (.field base' name) := by
  refine .of_value (Refines.bind (h scope .fieldBase) fun value _ hvalue => ?_)
  obtain rfl : value = _ := hvalue
  exact .of_eq (.refl _) rfl

theorem index_refined {base base' key key' : Expr}
    (hbase : PartRefined ⟨position, .index base key, scope⟩ .value base base')
    (hkey : PartRefined ⟨position, .index base key, scope⟩ .value key key') :
    RefinedIn position scope (.index base key) (.index base' key') := by
  refine .of_value (Refines.bind (hbase scope .indexBase) fun value _ hvalue => ?_)
  obtain rfl : value = _ := hvalue
  refine Refines.bind (hkey scope .indexKey) fun place _ hplace => ?_
  obtain rfl : place = _ := hplace
  exact .of_eq (.refl _) rfl

theorem unary_refined {op : UnaryOp} {operand operand' : Expr}
    (h : PartRefined ⟨position, .unary op operand, scope⟩ op.operandPosition operand operand') :
    RefinedIn position scope (.unary op operand) (.unary op operand') := by
  refine .of_value (Refines.bind (h scope .operand) fun value value' hvalue => ?_)
  cases op with
  | not =>
    show Refines _ (pure (Value.bool !value.truthy)) (pure (Value.bool !value'.truthy))
    rw [hvalue.truthy]
    exact .of_eq (.refl _) rfl
  | neg =>
    obtain rfl : value = value' := hvalue
    exact .of_eq (.refl _) rfl

theorem junction_refined {neutral : Bool} {operands operands' : List Expr}
    (h : List.Forall₂ (fun operand operand' => Asked neutral scope operands operand →
      RefinedIn .test scope operand operand') operands operands') :
    RefinedIn position scope (junction neutral operands) (junction neutral operands') := by
  refine .of_value ?_
  unfold RefinedIn
  rw [eval_junction, eval_junction]
  exact (evalJunction_refines h).map fun _ _ => congrArg Value.bool

/-- The right operand of `and` and `or` counts where the left one leaves the junction open. -/
theorem forall₂_operands {neutral : Bool} {op : BinaryOp} {left left' right right' : Expr}
    (hop : ∀ v : Value, v.truthy = neutral → op.asksRight v = true)
    (hposition : op.operandPosition = .test)
    (hleft : PartRefined ⟨position, .binary op left right, scope⟩ op.operandPosition left left')
    (hright : PartRefined ⟨position, .binary op left right, scope⟩ op.operandPosition right right') :
    List.Forall₂ (fun operand operand' => Asked neutral scope [left, right] operand →
      RefinedIn .test scope operand operand') [left, right] [left', right'] := by
  rw [← hposition]
  have hfirst : RefinedIn op.operandPosition scope left left' := hleft scope .left
  have hsecond : Asked neutral scope [left, right] right →
      RefinedIn op.operandPosition scope right right' := by
    intro hasked
    cases hasked with
    -- the right operand may be the left one once more
    | first => exact hright scope .left
    | later hvalue hopen _ => exact hright scope (.right hvalue (hop _ hopen))
  exact .cons (fun _ => hfirst) (.cons hsecond .nil)

theorem binary_refined {op : BinaryOp} {left left' right right' : Expr}
    (hleft : PartRefined ⟨position, .binary op left right, scope⟩ op.operandPosition left left')
    (hright : PartRefined ⟨position, .binary op left right, scope⟩ op.operandPosition right right') :
    RefinedIn position scope (.binary op left right) (.binary op left' right') := by
  rcases hop : op.operandPosition with - | -
  · -- the right operand may not be evaluated at all
    unfold RefinedIn
    rcases eq_and_or_or hop with rfl | rfl
    · rw [eval_and, eval_and]
      have hasks : ∀ v : Value, v.truthy = true → BinaryOp.and.asksRight v = true :=
        fun _ hopen => hopen
      exact junction_refined (forall₂_operands hasks rfl hleft hright)
    · rw [eval_or, eval_or]
      have hasks : ∀ v : Value, v.truthy = false → BinaryOp.or.asksRight v = true :=
        fun _ hopen => by rw [BinaryOp.asksRight, hopen, Bool.not_false]
      exact junction_refined (forall₂_operands hasks rfl hleft hright)
  · rw [hop] at hleft hright
    have hasks : ∀ v, op.asksRight v = true := by
      intro v
      cases op with
      | and | or => cases hop
      | _ => rfl
    refine .of_value ?_
    unfold RefinedIn
    rw [eval_binary hop, eval_binary hop]
    have hfirst : RefinedIn .value scope left left' := hleft scope (hop ▸ .left)
    refine Refines.bind_of_ends hfirst fun first _ hends hfirst => ?_
    obtain rfl : first = _ := hfirst
    have hsecond : RefinedIn .value scope right right' :=
      hright scope (hop ▸ .right hends (hasks first))
    refine Refines.bind hsecond fun second _ hsecond => ?_
    obtain rfl : second = _ := hsecond
    exact .of_eq (.refl _) rfl

theorem conditional_refined {test test' yes yes' no no' : Expr}
    (htest : PartRefined ⟨position, .conditional test yes no, scope⟩ .test test test')
    (hyes : PartRefined ⟨position, .conditional test yes no, scope⟩ position yes yes')
    (hno : PartRefined ⟨position, .conditional test yes no, scope⟩ position no no') :
    RefinedIn position scope (.conditional test yes no) (.conditional test' yes' no') := by
  refine Refines.bind_of_ends (htest scope .test) fun value value' hends hvalue => ?_
  rw [← show value.truthy = value'.truthy from hvalue]
  split
  · next htruthy => exact hyes scope (.yes hends htruthy)
  · next hfalsy => exact hno scope (.no hends (Bool.not_eq_true _ ▸ hfalsy))

theorem call_refined {function : String} {arguments arguments' : List Expr}
    (h : List.Forall₂ (PartRefined ⟨position, .call function arguments, scope⟩ .value) arguments
      arguments') :
    RefinedIn position scope (.call function arguments) (.call function arguments') := by
  have harguments := forall₂_refined (fun _ hmem => .argument hmem) h
  refine .of_value ((evalItems_refines harguments).bind fun values _ hvalues => ?_)
  rw [hvalues]
  exact .of_eq (.refl _) rfl

/-! ### Assignments -/

/-- The matcher made of a condition, constant or not, tells whether the condition is truthy. -/
theorem holds_matcher (condition : Expr) (environment : Environment) (context : Context) :
    (condition.matcher (condition.evalCondition environment)).holds context =
      condition.evalCondition environment context := by
  unfold matcher
  split <;> rfl

theorem evalCondition_refines {environment : Environment} {context : Context}
    {condition condition' : Expr}
    (h : RefinedIn .test (.condition context environment) condition condition') :
    Refines Eq (condition.evalCondition environment context)
      (condition'.evalCondition environment context) :=
  Refines.bind h fun _ _ hvalue => .pure hvalue

theorem evalTransform_refines {environment : Environment} {object : Object}
    {transform transform' : Expr}
    (h : RefinedIn .value (.transform object environment) transform transform') :
    Refines Eq (transform.evalTransform environment object)
      (transform'.evalTransform environment object) := by
  refine Refines.bind h fun value _ hvalue => ?_
  obtain rfl : value = _ := hvalue
  exact .of_eq (fun _ => rfl) rfl

/-- Wherever finding a value of the site comes to the condition and the transform of the first rule,
those of the second one can take their places. -/
structure RuleRefined (site : Site) (rule rule' : Expr × Expr) : Prop where
  condition : PartRefined site .test rule.1 rule'.1
  transform : PartRefined site .value rule.2 rule'.2

variable {rules rules' : List (Expr × Expr)} {patch patch' : Option Expr}

/-- The rules of an assignment, by the places in a list that is as long. -/
theorem map_pairRule_eq (environment : Environment) {count : Nat} (hlength : rules.length = count) :
    rules.map (pairRule environment) = (List.finRange count).map fun place =>
      ruleAt environment rules (place.cast hlength.symm) := by
  subst hlength
  conv_lhs => rw [← List.map_get_finRange rules, List.map_map]
  rfl

theorem evalPatch_refines
    (h : Option.Rel (PartRefined ⟨position, .assign rules patch, scope⟩ .value) patch patch') :
    Refines Eq (evalPatch patch scope) (evalPatch patch' scope) := by
  cases h with
  | none => exact .pure rfl
  | some hchange =>
    refine Refines.bind (hchange scope .patch) fun value _ hvalue => ?_
    obtain rfl : value = _ := hvalue
    exact .of_eq (fun _ => rfl) rfl

/-- The rules of an assignment are refined where its run uses them. -/
theorem refinedAlong_ruleAt (hlength : rules.length = rules'.length)
    (hrules : List.Forall₂ (RuleRefined ⟨position, .assign rules patch, scope⟩) rules rules')
    {changes : Object} (hpatch : (evalPatch patch scope).Ends (.ok changes)) :
    Run.RefinedAlong (ruleAt scope.environment rules) (List.nodup_finRange _) none scope.next changes
      fun place => ruleAt scope.environment rules' (place.cast hlength) := by
  have hplace : ∀ place : Fin rules.length, RuleRefined ⟨position, .assign rules patch, scope⟩
      (rules.get place) (rules'.get (place.cast hlength)) := fun place =>
    (List.forall₂_iff_get.mp hrules).2 place.1 place.2 _
  constructor
  · intro place next hasks
    -- one of the two matchers may be constant where the other is not
    show Refines Eq ((matcher _ (evalCondition _ _)).holds _) ((matcher _ (evalCondition _ _)).holds _)
    rw [holds_matcher, holds_matcher]
    exact evalCondition_refines ((hplace place).condition _ (.condition hpatch hasks))
  · intro place input happlies
    exact evalTransform_refines ((hplace place).transform _ (.transform hpatch happlies))

theorem assign_refined
    (hrules : List.Forall₂ (RuleRefined ⟨position, .assign rules patch, scope⟩) rules rules')
    (hpatch : Option.Rel (PartRefined ⟨position, .assign rules patch, scope⟩ .value) patch patch') :
    RefinedIn position scope (.assign rules patch) (.assign rules' patch') := by
  refine .of_value ?_
  unfold RefinedIn
  rw [eval_assign, eval_assign]
  -- the patch comes before the run, whose rules start from it
  refine (evalPatch_refines hpatch).bind_of_ends fun changes _ hends hchanges => ?_
  subst hchanges
  have hlength := hrules.length_eq
  rw [map_pairRule_eq scope.environment rfl, map_pairRule_eq scope.environment hlength.symm]
  exact (Run.stabilize_refines (refinedAlong_ruleAt hlength hrules hends)).bind
    fun _ _ hfinal => .pure (congrArg Value.ofObject hfinal)

end TransitionRules.Expr
