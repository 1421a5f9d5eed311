/-
TransitionRules/Proofs/Expr/Folding.lean

What the folding of one node does to its value.  Operators on literals and conditionals on a
literal test keep their value, whatever the scope (`eval_foldBinary`, `eval_foldConditional`); these
are equations between computations, so failures are kept as well.

Two foldings put an operand in the place of an expression whose value is the truth value of that
operand: a pair of negations goes away, and a junction with one remaining operand becomes that
operand.  They keep the truthiness, and they keep the value exactly where the operand has no values
but truth values (`truthValue_refines_iff`, from which `foldUnary_refines` and
`foldJunction_refines` follow).  A junction with a deciding literal folds to that literal even if
operands before it fail, so here only results are kept.

The two junctions differ in their neutral literal alone (`evalJunction`), and `and` and `or` are
junctions of two operands (`eval_and`, `eval_or`).
-/
import TransitionRules.Expr.Simplify
import TransitionRules.Proofs.Expr.Parts
import TransitionRules.Proofs.Refines

namespace TransitionRules

/-! ### Operators that are tests -/

/-- The operators that have no values but truth values. -/
def BinaryOp.isTest : BinaryOp → Bool
  | .add | .sub | .mul | .div | .mod => false
  | _ => true

theorem Value.comparison_eq_bool {op : BinaryOp} {test : Ordering → Bool} {left right v : Value}
    (h : comparison op test left right = .ok v) : ∃ b, v = .bool b := by
  unfold comparison at h
  split at h <;> cases h
  exact ⟨_, rfl⟩

theorem Value.stringTest_eq_bool {op : BinaryOp} {test : String → String → Bool}
    {left right v : Value} (h : stringTest op test left right = .ok v) : ∃ b, v = .bool b := by
  unfold stringTest at h
  split at h <;> cases h
  exact ⟨_, rfl⟩

theorem BinaryOp.apply_eq_bool {op : BinaryOp} (h : op.isTest = true) {left right v : Value}
    (hv : op.apply left right = .ok v) : ∃ b, v = .bool b := by
  cases op with
  | add | sub | mul | div | mod => cases h
  | eq | ne | and | or =>
    cases hv
    exact ⟨_, rfl⟩
  | lt | le | gt | ge => exact Value.comparison_eq_bool hv
  | startsWith | endsWith => exact Value.stringTest_eq_bool hv
  | contains =>
    simp only [apply, Value.contains] at hv
    split at hv <;> cases hv <;> exact ⟨_, rfl⟩
  | isIn =>
    simp only [apply, Value.isIn] at hv
    split at hv <;> cases hv <;> exact ⟨_, rfl⟩
  | «matches» =>
    simp only [apply, Value.matchesPattern] at hv
    split at hv
    · split at hv <;> cases hv
      exact ⟨_, rfl⟩
    · cases hv

namespace Expr

open Budgeted (Refines)

variable {scope : Scope}

/-! ### Operators on literals -/

theorem eval_binary {op : BinaryOp} (h : op.operandPosition = .value) (left right : Expr)
    (scope : Scope) :
    (Expr.binary op left right).eval scope =
      left.eval scope >>= fun first => right.eval scope >>= fun second => op.apply first second := by
  cases op <;> first | rfl | cases h

theorem isLT_compare_words (a b : Int64) : (compare a.toInt b.toInt).isLT = decide (a < b) := by
  rw [Bool.eq_iff_iff, decide_eq_true_iff, Ordering.isLT_iff_eq_lt, Int.compare_eq_lt,
    Int64.lt_iff_toInt_lt]

theorem isLE_compare_words (a b : Int64) : (compare a.toInt b.toInt).isLE = decide (a ≤ b) := by
  rw [Bool.eq_iff_iff, decide_eq_true_iff, Std.isLE_compare, Int64.le_iff_toInt_le]

theorem isGT_compare_words (a b : Int64) : (compare a.toInt b.toInt).isGT = decide (b < a) := by
  rw [Bool.eq_iff_iff, decide_eq_true_iff, Ordering.isGT_iff_eq_gt, Int.compare_eq_gt,
    Int64.lt_iff_toInt_lt]

theorem isGE_compare_words (a b : Int64) : (compare a.toInt b.toInt).isGE = decide (b ≤ a) := by
  rw [Bool.eq_iff_iff, decide_eq_true_iff, Std.isGE_compare, Int64.le_iff_toInt_le]

theorem div_words {a b : Int64} (h : b ≠ 0) :
    Value.div (.int a) (.int b) = .ok (.int (a / b)) := by
  simp only [Value.div, Numbers.of?, if_neg h]

theorem mod_words {a b : Int64} (h : b ≠ 0) :
    Value.mod (.int a) (.int b) = .ok (.int (a % b)) := by
  simp only [Value.mod, Numbers.of?, if_neg h]

theorem eval_foldWords {op : BinaryOp} {a b : Int64} {e : Expr}
    (h : foldWords? op a b = .ok (some e)) :
    e.eval scope = (Expr.binary op (.int a) (.int b)).eval scope := by
  -- a comparison is computed on words here and on integers in an evaluation
  have hcomparison : ∀ {x y : Bool}, y = x →
      Budgeted.done (.ok (Value.bool x)) = Budgeted.done (.ok (Value.bool y)) := fun h => h ▸ rfl
  cases op with
  | div =>
    simp only [foldWords?] at h
    split at h
    · cases h
    · rename_i hb
      split at h
      · cases h
      · cases h
        exact congrArg Budgeted.done (div_words hb).symm
  | mod =>
    simp only [foldWords?] at h
    split at h
    · cases h
    · rename_i hb
      split at h
      · cases h
      · cases h
        exact congrArg Budgeted.done (mod_words hb).symm
  | lt => cases h; exact hcomparison (isLT_compare_words a b)
  | le => cases h; exact hcomparison (isLE_compare_words a b)
  | gt => cases h; exact hcomparison (isGT_compare_words a b)
  | ge => cases h; exact hcomparison (isGE_compare_words a b)
  | _ => cases h <;> rfl

theorem div_floats {a b : Float} (h : ¬ (b == 0.0) = true) :
    Value.div (.float a) (.float b) = .ok (.float (a / b)) := by
  simp only [Value.div, Numbers.of?, if_neg h]

theorem eval_foldFloats {op : BinaryOp} {a b : Float} {e : Expr}
    (h : foldFloats? op a b = some e) :
    e.eval scope = (Expr.binary op (.float a) (.float b)).eval scope := by
  cases op with
  | div =>
    simp only [foldFloats?] at h
    split at h
    · cases h
    · rename_i hb
      cases h
      exact congrArg Budgeted.done (div_floats hb).symm
  | _ => cases h <;> rfl

theorem eval_foldStrings {op : BinaryOp} {a b : String} {e : Expr}
    (h : foldStrings? op a b = some e) :
    e.eval scope = (Expr.binary op (.string a) (.string b)).eval scope := by
  cases op <;> cases h <;> rfl

theorem eval_foldLogic {op : BinaryOp} {left : Bool} {right e : Expr}
    (h : foldLogic? op left right = some e) :
    e.eval scope = (Expr.binary op (.bool left) right).eval scope := by
  unfold foldLogic? at h
  split at h <;> cases h <;> rfl

/-- Computing an operator on literals keeps its value. -/
theorem eval_foldBinary {op : BinaryOp} {left right e : Expr}
    (h : foldBinary op left right = .ok e) :
    e.eval scope = (Expr.binary op left right).eval scope := by
  -- every computation that gives nothing leaves the expression as it is
  have hkept : ∀ {folded : Option Expr} {kept : Expr},
      (∀ result, folded = some result → result.eval scope = kept.eval scope) →
      (folded.getD kept).eval scope = kept.eval scope := by
    intro folded kept hfolded
    cases folded with
    | none => rfl
    | some result => exact hfolded result rfl
  unfold foldBinary at h
  split at h
  · rename_i a b
    rcases hwords : foldWords? op a b with abort | folded
    · rw [hwords] at h
      cases h
    · rw [hwords] at h
      cases h
      exact hkept fun result hresult => eval_foldWords (hresult ▸ hwords)
  · cases h
    exact hkept fun _ => eval_foldFloats
  · cases h
    exact hkept fun _ => eval_foldStrings
  · cases h
    exact hkept fun _ => eval_foldLogic
  · cases h
    rfl

/-- A conditional with a literal test has the value of its branch. -/
theorem eval_foldConditional (test yes no : Expr) :
    (foldConditional test yes no).eval scope = (Expr.conditional test yes no).eval scope := by
  unfold foldConditional
  split <;> rfl

/-! ### Pairs of negations -/

/-- The truth value of a value. -/
def truthValue (v : Value) : Value := .bool v.truthy

/-- In this scope the expression has no values but truth values. -/
def YieldsBool (e : Expr) (scope : Scope) : Prop :=
  ∀ v, (e.eval scope).Ends (.ok v) → ∃ b, v = .bool b

variable {position : Position}

/-- An expression can take the place of its truth value in a test position, and in a value position
exactly if it has no other values. -/
theorem truthValue_refines_iff {inner : Expr} :
    Refines position.Same (truthValue <$> inner.eval scope) (inner.eval scope) ↔
      (position = .value → inner.YieldsBool scope) := by
  constructor
  · -- a value that stays is its own truth value
    rintro h rfl v hv
    obtain ⟨w, hw, heq⟩ := h (truthValue v) (Budgeted.ends_map_iff.mpr ⟨.ok v, hv, rfl⟩)
    obtain rfl : v = w := Except.ok.inj (hv.unique hw)
    exact ⟨v.truthy, heq.symm⟩
  · intro h _ hends
    obtain ⟨e | v, hinner, heq⟩ := Budgeted.ends_map_iff.mp hends
    · cases heq
    · cases heq
      refine ⟨v, hinner, ?_⟩
      cases position with
      | test => rfl
      | value =>
        obtain ⟨b, rfl⟩ := h rfl v hinner
        rfl

theorem eval_negations (inner : Expr) :
    (Expr.unary .not (.unary .not inner)).eval scope = truthValue <$> inner.eval scope := by
  simp only [eval, UnaryOp.apply, ← bind_pure_comp, bind_assoc]
  refine congrArg _ (funext fun v => ?_)
  show (pure (Value.bool !!v.truthy) : Budgeted Value) = pure (truthValue v)
  rw [Bool.not_not, truthValue]

/-- Computing an operator with one operand keeps its value, except that the operand of a pair of
negations takes the place of its truth value. -/
theorem foldUnary_refines {op : UnaryOp} {operand : Expr}
    (h : ∀ inner, op = .not → operand = .unary .not inner → position = .value →
      inner.YieldsBool scope) :
    Refines position.Same ((Expr.unary op operand).eval scope)
      ((foldUnary op operand).eval scope) := by
  unfold foldUnary
  split
  · exact .of_eq (.refl position) rfl
  · rename_i inner
    rw [eval_negations]
    exact truthValue_refines_iff.mpr (h inner rfl rfl)
  · exact .of_eq (.refl position) rfl
  · exact .of_eq (.refl position) rfl
  · exact .of_eq (.refl position) rfl

/-! ### Junctions -/

/-- The junction that this literal does not change. -/
def junction (neutral : Bool) (operands : List Expr) : Expr :=
  if neutral then .all operands else .any operands

/-- The truth value of a junction: evaluation stops at the first operand that decides it. -/
def evalJunction (neutral : Bool) : List Expr → Scope → Budgeted Bool
  | [], _ => pure neutral
  | operand :: rest, scope => do
    let value ← operand.eval scope
    if value.truthy = neutral then evalJunction neutral rest scope else return !neutral

theorem evalAll_eq (operands : List Expr) (scope : Scope) :
    evalAll operands scope = evalJunction true operands scope := by
  induction operands with
  | nil => rfl
  | cons operand rest ih => simp only [evalAll, evalJunction, ih, Bool.not_true]

theorem evalAny_eq (operands : List Expr) (scope : Scope) :
    evalAny operands scope = evalJunction false operands scope := by
  induction operands with
  | nil => rfl
  | cons operand rest ih =>
    simp only [evalAny, evalJunction, ih]
    refine congrArg _ (funext fun value => ?_)
    cases value.truthy <;> rfl

theorem eval_junction (neutral : Bool) (operands : List Expr) (scope : Scope) :
    (junction neutral operands).eval scope = Value.bool <$> evalJunction neutral operands scope := by
  cases neutral with
  | false =>
    rw [← evalAny_eq, ← bind_pure_comp]
    rfl
  | true =>
    rw [← evalAll_eq, ← bind_pure_comp]
    rfl

theorem eval_and (left right : Expr) (scope : Scope) :
    (Expr.binary .and left right).eval scope = (junction true [left, right]).eval scope := by
  simp only [eval_junction, evalJunction, eval, map_bind]
  refine congrArg _ (funext fun first => ?_)
  cases first.truthy with
  | false => rfl
  | true =>
    simp only [if_true, map_bind]
    refine congrArg _ (funext fun second => ?_)
    cases second.truthy <;> rfl

theorem eval_or (left right : Expr) (scope : Scope) :
    (Expr.binary .or left right).eval scope = (junction false [left, right]).eval scope := by
  simp only [eval_junction, evalJunction, eval, map_bind]
  refine congrArg _ (funext fun first => ?_)
  cases first.truthy with
  | true => rfl
  | false =>
    simp only [Bool.false_eq_true, if_false, if_true, map_bind]
    refine congrArg _ (funext fun second => ?_)
    cases second.truthy <;> rfl

/-- The operators with operands in test positions are the junctions of two operands. -/
theorem eq_and_or_or {op : BinaryOp} (h : op.operandPosition = .test) : op = .and ∨ op = .or := by
  cases op <;> simp_all [BinaryOp.operandPosition]

/-- A junction of one operand has the truth value of that operand. -/
theorem evalJunction_singleton (neutral : Bool) (operand : Expr) (scope : Scope) :
    evalJunction neutral [operand] scope = Value.truthy <$> operand.eval scope := by
  rw [← bind_pure_comp]
  refine congrArg _ (funext fun value => ?_)
  simp only [evalJunction]
  -- the operand decides, or the end of the operands does
  split
  · rename_i h
    rw [h]
  · rename_i h
    rw [Bool.eq_not.mpr h]

/-- The operands of a junction that do not go without saying. -/
def remaining (neutral : Bool) (operands : List Expr) : List Expr :=
  operands.filter fun operand => !operand.isBool neutral

theorem eq_bool_of_isBool {b : Bool} {e : Expr} (h : e.isBool b = true) : e = .bool b := by
  unfold isBool at h
  split at h
  · rw [eq_of_beq h]
  · cases h

/-- Neutral literals do not count. -/
theorem evalJunction_remaining (neutral : Bool) (operands : List Expr) (scope : Scope) :
    evalJunction neutral (remaining neutral operands) scope =
      evalJunction neutral operands scope := by
  induction operands with
  | nil => rfl
  | cons operand rest ih =>
    rcases hneutral : operand.isBool neutral with - | -
    · have hkept : remaining neutral (operand :: rest) = operand :: remaining neutral rest := by
        simp only [remaining, List.filter_cons, hneutral, Bool.not_false, if_true]
      rw [hkept, evalJunction, evalJunction, ih]
    · have hdropped : remaining neutral (operand :: rest) = remaining neutral rest := by
        simp [remaining, hneutral]
      rw [hdropped, ih, evalJunction, eq_bool_of_isBool hneutral]
      simp only [eval, pure_bind, Value.truthy, if_true]

/-- A deciding literal leaves a junction no other result. -/
theorem evalJunction_of_decided {neutral : Bool} {operands : List Expr}
    (h : operands.any (isBool !neutral) = true) {result : Bool}
    (hends : (evalJunction neutral operands scope).Ends (.ok result)) : result = !neutral := by
  induction operands with
  | nil => cases h
  | cons operand rest ih =>
    obtain ⟨value, hvalue, hends⟩ := Budgeted.ends_bind_ok_iff.mp hends
    split at hends
    · rename_i hneutral
      -- the operand lets the evaluation go on, so that it is not the deciding literal
      rw [List.any_cons, Bool.or_eq_true] at h
      rcases h with hdecides | hrest
      · rw [eq_bool_of_isBool hdecides] at hvalue
        cases Budgeted.ends_pure_iff.mp hvalue
        exact absurd hneutral (by simp [Value.truthy])
      · exact ih hrest hends
    · exact Except.ok.inj (Budgeted.ends_pure_iff.mp hends)

/-- Simplifying a junction keeps its results, except that a last operand takes the place of its
truth value. -/
theorem foldJunction_refines {neutral : Bool} {operands : List Expr}
    (h : ∀ inner, remaining neutral operands = [inner] → position = .value →
      inner.YieldsBool scope) :
    Refines position.Same ((junction neutral operands).eval scope)
      ((foldJunction neutral operands).eval scope) := by
  rw [eval_junction]
  unfold foldJunction
  split
  · -- operands before the deciding literal may fail, so there is no equation here
    rename_i hdecided
    intro _ hends
    obtain ⟨e | result, hresult, heq⟩ := Budgeted.ends_map_iff.mp hends
    · cases heq
    · cases heq
      rw [evalJunction_of_decided hdecided hresult]
      exact ⟨_, Budgeted.ends_pure_iff.mpr rfl, .refl position _⟩
  · -- neutral literals go, and what is left makes the shape of the result
    rw [← evalJunction_remaining]
    split
    · rename_i hnone
      rw [show remaining neutral operands = [] from hnone]
      exact .pure (.refl position _)
    · rename_i operand hone
      rw [show remaining neutral operands = [operand] from hone, evalJunction_singleton, ← comp_map]
      exact truthValue_refines_iff.mpr (h operand hone)
    · exact .of_eq (.refl position) (eval_junction neutral _ scope).symm

/-! ### Expressions that have no values but truth values -/

theorem yieldsBool_junction (neutral : Bool) (operands : List Expr) (scope : Scope) :
    (junction neutral operands).YieldsBool scope := by
  intro v hv
  rw [eval_junction] at hv
  obtain ⟨e | b, -, heq⟩ := Budgeted.ends_map_iff.mp hv
  · cases heq
  · exact ⟨b, Except.ok.inj heq⟩

/-- Comparisons, searches and logical operators have no values but truth values. -/
theorem yieldsBool_binary {op : BinaryOp} (h : op.isTest = true) (left right : Expr)
    (scope : Scope) : (Expr.binary op left right).YieldsBool scope := by
  intro v hv
  rcases hop : op.operandPosition with - | -
  · rcases eq_and_or_or hop with rfl | rfl
    · rw [eval_and] at hv
      exact yieldsBool_junction true _ scope v hv
    · rw [eval_or] at hv
      exact yieldsBool_junction false _ scope v hv
  · rw [eval_binary hop] at hv
    obtain ⟨first, -, hv⟩ := Budgeted.ends_bind_ok_iff.mp hv
    obtain ⟨second, -, hv⟩ := Budgeted.ends_bind_ok_iff.mp hv
    exact BinaryOp.apply_eq_bool h (Budgeted.ends_done_iff.mp hv).symm

end Expr

end TransitionRules
