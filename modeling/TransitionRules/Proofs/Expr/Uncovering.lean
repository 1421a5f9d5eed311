/-
TransitionRules/Proofs/Expr/Uncovering.lean

Where simplification may change a value.  It puts an operand in the place of its truth value when it
removes two negations, and when a junction has only one operand left (`Uncovers`).  The condition
`UncoversOnlyBooleans` asks of such operands, wherever an evaluation comes to the whole and its value
counts, that they have no values but truth values in the scope of the whole.  It asks nothing of
branches that are not taken, nor of the rules of an assignment on objects that its run does not come
to.

Whether that holds is a question about evaluations.  Main result: it needs no answer for an
expression whose truth tests stand in test positions (`TestsInPlace`, decided by `testsInPlace`),
because only truth tests uncover anything (`TestsInPlace.uncoversOnlyBooleans`).
-/
import TransitionRules.Proofs.Expr.Evaluation
import TransitionRules.Proofs.Expr.Folding
import TransitionRules.Proofs.Steps

namespace TransitionRules.Expr

variable {position : Position}

/-! ### Uncovered operands -/

/-- Simplification puts the second expression in the place of the first one, which is its truth
value. -/
inductive Uncovers : Expr → Expr → Prop
  | negation {operand inner : Expr} :
      operand.simplify = .ok (.unary .not inner) → Uncovers (.unary .not operand) inner
  | all {operands operands' : List Expr} {inner : Expr} :
      simplifyAll operands = .ok operands' → remaining true operands' = [inner] →
      Uncovers (.all operands) inner
  | any {operands operands' : List Expr} {inner : Expr} :
      simplifyAll operands = .ok operands' → remaining false operands' = [inner] →
      Uncovers (.any operands) inner

/-- Wherever finding a value of the site comes to an expression whose value counts, and simplification
puts an operand in the place of that expression, the operand has no values but truth values. -/
def UncoversOnlyBooleans (site : Site) : Prop :=
  ∀ inner, Relation.ReflTransGen Evaluates site inner → inner.position = .value →
    ∀ operand, Uncovers inner.expression operand → operand.YieldsBool inner.scope

variable {site inner : Site}

theorem UncoversOnlyBooleans.here {operand : Expr} (h : UncoversOnlyBooleans site)
    (huncovers : Uncovers site.expression operand) (hposition : site.position = .value) :
    operand.YieldsBool site.scope :=
  h site .refl hposition operand huncovers

theorem UncoversOnlyBooleans.part (h : UncoversOnlyBooleans site) (hstep : Evaluates site inner) :
    UncoversOnlyBooleans inner :=
  fun final hreach => h final (.head hstep hreach)

theorem UncoversOnlyBooleans.of_parts
    (hhere : site.position = .value → ∀ operand, Uncovers site.expression operand →
      operand.YieldsBool site.scope)
    (hparts : ∀ inner, Evaluates site inner → UncoversOnlyBooleans inner) :
    UncoversOnlyBooleans site := by
  intro final hreach
  cases hreach.cases_head with
  | inl heq =>
    subst heq
    exact hhere
  | inr hsteps =>
    obtain ⟨inner, hstep, hreach⟩ := hsteps
    exact hparts inner hstep final hreach

/-! ### Truth tests in test positions -/

/-- Expressions that have only truth values and may simplify to ones that have others. -/
def isTruthTest : Expr → Bool
  | .all _ | .any _ => true
  | .unary .not (.unary .not _) | .unary .not (.all _) | .unary .not (.any _)
  | .unary .not (.conditional _ _ _) => true
  | _ => false

/-- Truth tests occur in test positions only. -/
def TestsInPlace (position : Position) (e : Expr) : Prop :=
  ∀ position' inner, Occurs position e position' inner → inner.isTruthTest = true →
    position' = .test

theorem TestsInPlace.of_parts {e : Expr} (hhere : e.isTruthTest = true → position = .test)
    (hparts : ∀ part ∈ e.parts position, TestsInPlace part.position part.expression) :
    TestsInPlace position e := by
  intro position' inner hoccurs
  cases hoccurs with
  | here => exact hhere
  | inside hpart hinside => exact hparts _ hpart position' inner hinside

theorem TestsInPlace.part {e : Expr} (h : TestsInPlace position e) {part : Part}
    (hpart : part ∈ e.parts position) : TestsInPlace part.position part.expression :=
  fun position' inner hoccurs => h position' inner (.inside hpart hoccurs)

/-- The check whether truth tests occur in test positions only, part by part. -/
def testsInPlace (position : Position) (e : Expr) : Bool :=
  (!e.isTruthTest || position = .test) &&
    (e.parts position).attach.all fun part => testsInPlace part.1.position part.1.expression
termination_by sizeOf e
decreasing_by exact sizeOf_part part.2

/-- The check decides whether truth tests stand in test positions. -/
theorem testsInPlace_iff {e : Expr} :
    testsInPlace position e = true ↔ TestsInPlace position e := by
  -- the check goes down the parts, and so does its own induction principle
  fun_induction testsInPlace position e with
  | case1 position e ih =>
    simp only [Bool.and_eq_true, Bool.or_eq_true, Bool.not_eq_true', decide_eq_true_eq,
      List.all_eq_true, List.mem_attach, true_implies, Subtype.forall]
    constructor
    · rintro ⟨hhere, hparts⟩
      refine .of_parts (fun htest => ?_) fun part hpart => (ih ⟨part, hpart⟩).mp (hparts part hpart)
      rcases hhere with hno | htest
      · rw [hno] at htest
        cases htest
      · exact htest
    · intro h
      refine ⟨?_, fun part hpart => (ih ⟨part, hpart⟩).mpr (h.part hpart)⟩
      by_cases htest : e.isTruthTest = true
      · exact .inr (h position e .here htest)
      · exact .inl (by simpa using htest)

instance instDecidableTestsInPlace (position : Position) (e : Expr) : Decidable (TestsInPlace position e) :=
  decidable_of_iff _ testsInPlace_iff

theorem foldWords_ne_negation {op : BinaryOp} {a b : Int64} {inner : Expr} :
    foldWords? op a b ≠ .ok (some (.unary .not inner)) := by
  intro h
  cases op with
  | div | mod =>
    simp only [foldWords?] at h
    split at h
    · cases h
    · split at h <;> cases h
  | _ => cases h

theorem foldFloats_ne_negation {op : BinaryOp} {a b : Float} {inner : Expr} :
    foldFloats? op a b ≠ some (.unary .not inner) := by
  intro h
  cases op with
  | div =>
    simp only [foldFloats?] at h
    split at h <;> cases h
  | _ => cases h

theorem foldStrings_ne_negation {op : BinaryOp} {a b : String} {inner : Expr} :
    foldStrings? op a b ≠ some (.unary .not inner) := by
  intro h
  cases op <;> cases h

theorem foldLogic_ne_negation {op : BinaryOp} {left : Bool} {right inner : Expr} :
    foldLogic? op left right ≠ some (.unary .not inner) := by
  intro h
  unfold foldLogic? at h
  split at h <;> cases h

/-- Computing an operator on literals makes no negation. -/
theorem foldBinary_ne_negation {op : BinaryOp} {left right inner : Expr} :
    foldBinary op left right ≠ .ok (.unary .not inner) := by
  have hkept : ∀ {folded : Option Expr} {left right : Expr},
      folded ≠ some (.unary .not inner) →
      folded.getD (.binary op left right) ≠ .unary .not inner := by
    intro folded left right hfolded h
    cases folded with
    | none => cases h
    | some result => exact hfolded (congrArg some h)
  intro h
  unfold foldBinary at h
  split at h
  · rename_i a b
    rcases hwords : foldWords? op a b with abort | folded
    · rw [hwords] at h
      cases h
    · rw [hwords] at h
      refine hkept (fun hfolded => ?_) (Except.ok.inj h)
      rw [hfolded] at hwords
      exact foldWords_ne_negation hwords
  · exact hkept foldFloats_ne_negation (Except.ok.inj h)
  · exact hkept foldStrings_ne_negation (Except.ok.inj h)
  · exact hkept foldLogic_ne_negation (Except.ok.inj h)
  · cases h

/-- What simplifies to a negation is a negation itself, a junction or a conditional. -/
theorem isTruthTest_of_simplify {operand inner : Expr}
    (h : operand.simplify = .ok (.unary .not inner)) :
    (Expr.unary .not operand).isTruthTest = true := by
  -- a fold gives a negation only where it puts a part in the place of the whole
  cases operand with
  | all operands => rfl
  | any operands => rfl
  | conditional test yes no => rfl
  | unary op operand =>
    cases op with
    | not => rfl
    | neg =>
      unfold simplify at h
      obtain ⟨operand', -, h⟩ := bind_eq_ok.mp h
      have hfold : foldUnary .neg operand' = .unary .not inner := Except.ok.inj h
      unfold foldUnary at hfold
      split at hfold <;> simp_all
  | binary op left right =>
    unfold simplify at h
    obtain ⟨left', -, h⟩ := bind_eq_ok.mp h
    obtain ⟨right', -, h⟩ := bind_eq_ok.mp h
    exact absurd h foldBinary_ne_negation
  | assign rules patch =>
    cases patch <;> simp [simplify, bind_eq_ok, pure, Except.pure] at h
  | _ => simp [simplify, bind_eq_ok, pure, Except.pure] at h

theorem Uncovers.isTruthTest {e inner : Expr} (h : Uncovers e inner) : e.isTruthTest = true := by
  cases h with
  | negation h => exact isTruthTest_of_simplify h
  | all _ _ => rfl
  | any _ _ => rfl

theorem TestsInPlace.evaluates (h : TestsInPlace site.position site.expression)
    (hstep : Evaluates site inner) : TestsInPlace inner.position inner.expression := by
  obtain ⟨part, hpart, hposition, hexpression⟩ := hstep.mem_parts
  rw [← hposition, ← hexpression]
  exact h.part hpart

/-- Where truth tests stand in test positions, nothing is uncovered in a value position. -/
theorem TestsInPlace.uncoversOnlyBooleans (h : TestsInPlace site.position site.expression) :
    UncoversOnlyBooleans site := by
  intro final hreach hposition operand huncovers
  have hfinal : TestsInPlace final.position final.expression := by
    clear hposition huncovers
    induction hreach with
    | refl => exact h
    | tail _ hstep ih => exact ih.evaluates hstep
  have htest := hfinal final.position final.expression .here huncovers.isTruthTest
  cases hposition.symm.trans htest

end TransitionRules.Expr
