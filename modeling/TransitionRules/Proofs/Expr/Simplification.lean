/-
TransitionRules/Proofs/Expr/Simplification.lean

What simplification does to the value of an expression.  The induction is over the parts that an
evaluation of the expression comes to, each in its own position and scope: replace the parts by their
simplified forms (`Proofs/Expr/Congruence`), then fold the node (`Proofs/Expr/Folding`).

By design two foldings put an operand in the place of its truth value wherever the expression
stands.  In a test position that makes no difference.  In a value position it does when the operand
has other values, as in `!!5`, which is `true` and simplifies to `5` (`simplify_changes_values`).
So the induction carries the condition of `Proofs/Expr/Uncovering` (`simplify_refines`).

Main results:

* `simplify_keeps_values`: under that condition simplification keeps all values;
* `simplify_keeps_rules`: an expression whose truth tests stand in test positions meets the
  condition, so that simplification changes neither when its rule fires nor what it makes of an
  object.
-/
import TransitionRules.Proofs.Expr.Congruence
import TransitionRules.Proofs.Expr.Edits
import TransitionRules.Proofs.Expr.Uncovering

namespace TransitionRules.Expr

open Budgeted (Refines)

variable {position : Position} {scope : Scope}

/-! ### Simplified parts -/

theorem simplifyAll_parts {items items' : List Expr} (h : simplifyAll items = .ok items') :
    List.Forall₂ (fun item item' => item.simplify = .ok item') items items' := by
  induction items generalizing items' with
  | nil =>
    cases h
    exact .nil
  | cons item rest ih =>
    unfold simplifyAll at h
    obtain ⟨item', hitem, h⟩ := bind_eq_ok.mp h
    obtain ⟨rest', hrest, h⟩ := bind_eq_ok.mp h
    cases h
    exact .cons hitem (ih hrest)

theorem simplifyEntries_parts {entries entries' : List (String × Expr)}
    (h : simplifyEntries entries = .ok entries') :
    List.Forall₂ (fun entry entry' => entry.1 = entry'.1 ∧ entry.2.simplify = .ok entry'.2)
      entries entries' := by
  induction entries generalizing entries' with
  | nil =>
    cases h
    exact .nil
  | cons entry rest ih =>
    unfold simplifyEntries at h
    obtain ⟨value', hvalue, h⟩ := bind_eq_ok.mp h
    obtain ⟨rest', hrest, h⟩ := bind_eq_ok.mp h
    cases h
    exact .cons ⟨rfl, hvalue⟩ (ih hrest)

theorem simplifyRules_parts {rules rules' : List (Expr × Expr)}
    (h : simplifyRules rules = .ok rules') :
    List.Forall₂ (fun rule rule' =>
      rule.1.simplify = .ok rule'.1 ∧ rule.2.simplify = .ok rule'.2) rules rules' := by
  induction rules generalizing rules' with
  | nil =>
    cases h
    exact .nil
  | cons rule rest ih =>
    unfold simplifyRules at h
    obtain ⟨condition', hcondition, h⟩ := bind_eq_ok.mp h
    obtain ⟨transform', htransform, h⟩ := bind_eq_ok.mp h
    obtain ⟨rest', hrest, h⟩ := bind_eq_ok.mp h
    cases h
    exact .cons ⟨hcondition, htransform⟩ (ih hrest)

/-- The induction hypothesis for an expression: its simplified form does as much as itself, in every
position and scope in which its evaluation uncovers nothing but truth values. -/
def SimplifyRefines (e : Expr) : Prop :=
  ∀ {position scope e'}, UncoversOnlyBooleans ⟨position, e, scope⟩ → e.simplify = .ok e' →
    RefinedIn position scope e e'

variable {site : Site}

/-- A part is refined wherever the evaluation of the whole comes to it. -/
theorem SimplifyRefines.partRefined {part part' : Expr} (ih : SimplifyRefines part)
    (hbool : UncoversOnlyBooleans site) (h : part.simplify = .ok part') :
    PartRefined site position part part' :=
  fun _ hstep => ih (hbool.part hstep) h

theorem simplifyAll_refined {items items' : List Expr} (h : simplifyAll items = .ok items')
    (ih : ∀ item ∈ items, SimplifyRefines item) (hbool : UncoversOnlyBooleans site) :
    List.Forall₂ (PartRefined site position) items items' :=
  ((List.forall₂_and_left _ _).mpr ⟨ih, simplifyAll_parts h⟩).imp fun _ _ h =>
    SimplifyRefines.partRefined h.1 hbool h.2

theorem simplifyEntries_refined {entries entries' : List (String × Expr)}
    (h : simplifyEntries entries = .ok entries')
    (ih : ∀ entry ∈ entries, SimplifyRefines entry.2) (hbool : UncoversOnlyBooleans site) :
    List.Forall₂ (fun entry entry' => entry.1 = entry'.1 ∧
      PartRefined site position entry.2 entry'.2) entries entries' :=
  ((List.forall₂_and_left _ _).mpr ⟨ih, simplifyEntries_parts h⟩).imp fun _ _ h =>
    ⟨h.2.1, SimplifyRefines.partRefined h.1 hbool h.2.2⟩

theorem simplifyRules_refined {rules rules' : List (Expr × Expr)}
    (h : simplifyRules rules = .ok rules')
    (ih : ∀ rule ∈ rules, SimplifyRefines rule.1 ∧ SimplifyRefines rule.2)
    (hbool : UncoversOnlyBooleans site) : List.Forall₂ (RuleRefined site) rules rules' :=
  ((List.forall₂_and_left _ _).mpr ⟨ih, simplifyRules_parts h⟩).imp fun _ _ h =>
    ⟨SimplifyRefines.partRefined h.1.1 hbool h.2.1, SimplifyRefines.partRefined h.1.2 hbool h.2.2⟩

/-- The case of junctions. -/
theorem simplifyJunction_refined (neutral : Bool) {operands operands' : List Expr}
    (h : simplifyAll operands = .ok operands') (ih : ∀ operand ∈ operands, SimplifyRefines operand)
    (hbool : UncoversOnlyBooleans ⟨position, junction neutral operands, scope⟩) :
    RefinedIn position scope (junction neutral operands) (foldJunction neutral operands') := by
  have hasked : ∀ {operand}, Asked neutral scope operands operand →
      Evaluates ⟨position, junction neutral operands, scope⟩ ⟨.test, operand, scope⟩ := by
    intro operand hasked
    cases neutral with
    | false => exact .any hasked
    | true => exact .all hasked
  have hoperands := (simplifyAll_refined h ih hbool).imp
    fun _ _ (hpart : PartRefined _ .test _ _) hoperand => hpart scope (hasked hoperand)
  refine (junction_refined hoperands).trans ?_
  refine foldJunction_refines fun inner hinner => hbool.here ?_
  cases neutral with
  | false => exact .any h hinner
  | true => exact .all h hinner

/-- A simplified expression does as much as the expression itself, if what simplification uncovers
in value positions are truth values where the evaluation comes to them. -/
theorem simplify_refines (e : Expr) : SimplifyRefines e := by
  induction e with
  -- leaves stay as they are
  | null | bool _ | int _ | float _ | string _ | ident _ =>
    intro _ _ _ _ h
    cases h
    exact .refl _
  -- of most kinds only the parts are simplified
  | list items ih =>
    intro position scope _ hbool h
    unfold simplify at h
    obtain ⟨items', hitems, h⟩ := bind_eq_ok.mp h
    cases h
    exact list_refined (simplifyAll_refined hitems ih hbool)
  | map entries ih =>
    intro position scope _ hbool h
    unfold simplify at h
    obtain ⟨entries', hentries, h⟩ := bind_eq_ok.mp h
    cases h
    exact map_refined (simplifyEntries_refined hentries ih hbool)
  | field base name ih =>
    intro position scope _ hbool h
    unfold simplify at h
    obtain ⟨base', hbase, h⟩ := bind_eq_ok.mp h
    cases h
    exact field_refined (ih.partRefined hbool hbase)
  | index base key ihbase ihkey =>
    intro position scope _ hbool h
    unfold simplify at h
    obtain ⟨base', hbase, h⟩ := bind_eq_ok.mp h
    obtain ⟨key', hkey, h⟩ := bind_eq_ok.mp h
    cases h
    exact index_refined (ihbase.partRefined hbool hbase) (ihkey.partRefined hbool hkey)
  -- a node that can be folded is folded after its parts have been simplified
  | unary op operand ih =>
    intro position scope _ hbool h
    unfold simplify at h
    obtain ⟨operand', hoperand, h⟩ := bind_eq_ok.mp h
    cases h
    refine (unary_refined (ih.partRefined hbool hoperand)).trans ?_
    refine foldUnary_refines fun inner hop hinner hposition => ?_
    subst hop
    exact hbool.here (.negation (hinner ▸ hoperand)) hposition
  | binary op left right ihleft ihright =>
    intro position scope _ hbool h
    unfold simplify at h
    obtain ⟨left', hleft, h⟩ := bind_eq_ok.mp h
    obtain ⟨right', hright, h⟩ := bind_eq_ok.mp h
    refine (binary_refined (ihleft.partRefined hbool hleft)
      (ihright.partRefined hbool hright)).trans ?_
    exact .of_eq (.refl position) (eval_foldBinary h).symm
  | conditional test yes no ihtest ihyes ihno =>
    intro position scope _ hbool h
    unfold simplify at h
    obtain ⟨test', htest, h⟩ := bind_eq_ok.mp h
    obtain ⟨yes', hyes, h⟩ := bind_eq_ok.mp h
    obtain ⟨no', hno, h⟩ := bind_eq_ok.mp h
    cases h
    refine (conditional_refined (ihtest.partRefined hbool htest) (ihyes.partRefined hbool hyes)
      (ihno.partRefined hbool hno)).trans ?_
    exact .of_eq (.refl position) (eval_foldConditional test' yes' no').symm
  | call function arguments ih =>
    intro position scope _ hbool h
    unfold simplify at h
    obtain ⟨arguments', harguments, h⟩ := bind_eq_ok.mp h
    cases h
    exact call_refined (simplifyAll_refined harguments ih hbool)
  | all operands ih =>
    intro position scope _ hbool h
    unfold simplify at h
    obtain ⟨operands', hoperands, h⟩ := bind_eq_ok.mp h
    cases h
    exact simplifyJunction_refined true hoperands ih hbool
  | any operands ih =>
    intro position scope _ hbool h
    unfold simplify at h
    obtain ⟨operands', hoperands, h⟩ := bind_eq_ok.mp h
    cases h
    exact simplifyJunction_refined false hoperands ih hbool
  | assign rules patch ihrules ihpatch =>
    intro position scope _ hbool h
    cases patch with
    | none =>
      unfold simplify at h
      obtain ⟨rules', hrules, h⟩ := bind_eq_ok.mp h
      cases h
      exact assign_refined (simplifyRules_refined hrules ihrules hbool) .none
    | some change =>
      unfold simplify at h
      obtain ⟨rules', hrules, h⟩ := bind_eq_ok.mp h
      obtain ⟨change', hchange, h⟩ := bind_eq_ok.mp h
      cases h
      exact assign_refined (simplifyRules_refined hrules ihrules hbool)
        (.some (SimplifyRefines.partRefined (ihpatch change rfl) hbool hchange))

/-! ### Values -/

/-- Simplification keeps every value of an expression, if what it uncovers in value positions are
truth values where the evaluation comes to them. -/
theorem simplify_keeps_values {e e' : Expr} {v : Value} (hsimplify : e.simplify = .ok e')
    (hbool : UncoversOnlyBooleans ⟨.value, e, scope⟩) (hv : (e.eval scope).Ends (.ok v)) :
    (e'.eval scope).Ends (.ok v) := by
  obtain ⟨v', hv', hsame⟩ := simplify_refines e hbool hsimplify v hv
  obtain rfl : v = v' := hsame
  exact hv'

/-- The field `flag`. -/
def flag : Expr := .field (.ident "next") "flag"

/-- The field `flag` as a truth value. -/
def flagTruth : Expr := .unary .not (.unary .not flag)

/-- An object whose flag is set. -/
def flagged : Object := FieldsAfter.insert .nil "flag" (.bool true)

/-- The flag of the object is set. -/
def IsFlagged (object : Object) : Prop := object.get? "flag" = some (.bool true)

/-- If the flag is set, remembers so. -/
def remember : Expr × Expr :=
  (.binary .eq flagTruth (.bool true), .call "set" [.string "seen", flagTruth])

/-- Runs the rule; its other branch is never taken. -/
def remembering : Expr :=
  .conditional (.bool true) (.assign [remember] none) (.unary .not (.unary .not (.int 5)))

theorem eval_flag (h : IsFlagged scope.next) : flag.eval scope = pure (.bool true) := by
  show Budgeted.done (.ok (((Value.ofJsonFields scope.next).get? "flag").getD .null)) = _
  rw [Value.getD_get?_ofJsonFields, show scope.next.get? "flag" = some (.bool true) from h]
  rfl

/-- Where the flag is a truth value, its two negations uncover nothing else. -/
theorem uncoversOnlyBooleans_flagTruth (h : IsFlagged scope.next) :
    UncoversOnlyBooleans ⟨.value, flagTruth, scope⟩ := by
  have hinner : TestsInPlace .test (.unary .not flag) := by decide +kernel
  refine .of_parts (fun _ operand huncovers v hv => ?_) fun inner hstep => ?_
  · cases huncovers with
    | negation hsimplify =>
      cases hsimplify
      have hvalue : (flag.eval scope).Ends (.ok v) := hv
      rw [eval_flag h] at hvalue
      exact ⟨true, Except.ok.inj (Budgeted.ends_pure_iff.mp hvalue)⟩
  · cases hstep with
    | operand => exact hinner.uncoversOnlyBooleans

theorem uncoversOnlyBooleans_remember (h : IsFlagged scope.next) :
    UncoversOnlyBooleans ⟨.test, remember.1, scope⟩ ∧
      UncoversOnlyBooleans ⟨.value, remember.2, scope⟩ := by
  constructor
  · refine .of_parts (fun hposition => nomatch hposition) fun inner hstep => ?_
    cases hstep with
    | left => exact uncoversOnlyBooleans_flagTruth h
    | right _ _ =>
      have htrue : TestsInPlace .value (.bool true) := by decide +kernel
      exact htrue.uncoversOnlyBooleans
  · refine .of_parts (fun _ _ huncovers => nomatch huncovers) fun inner hstep => ?_
    cases hstep with
    | argument hmem =>
      rcases List.mem_pair.mp hmem with rfl | rfl
      · have hname : TestsInPlace .value (.string "seen") := by decide +kernel
        exact hname.uncoversOnlyBooleans
      · exact uncoversOnlyBooleans_flagTruth h

/-- The rule that remembers the flag does not touch it. -/
theorem remember_keeps_flag (place : Fin [remember].length) (object : Object)
    (h : IsFlagged object) : ((ruleAt .nil [remember] place).transform object).Gives IsFlagged := by
  intro output houtput
  have hvalue : (flagTruth.eval (.transform object .nil)).Ends (.ok (.bool true)) := by
    rw [flagTruth, eval_negations, eval_flag h]
    exact ⟨0, rfl⟩
  have hset : Edits .nil object "set" [.string "seen", flagTruth] ["seen"] _ :=
    edits_set rfl "seen" hvalue
  match place with
  | 0 => exact (hset.frame output (hset.implicit.unique houtput) "flag" (by decide)).trans h

/-- What is uncovered are truth values: every object that the run of the rule comes to is flagged,
and the branch that is not taken does not matter. -/
theorem uncoversOnlyBooleans_remembering :
    UncoversOnlyBooleans ⟨.value, remembering, .transform flagged .nil⟩ := by
  have hassign :
      UncoversOnlyBooleans ⟨.value, .assign [remember] none, .transform flagged .nil⟩ := by
    refine .of_parts (fun _ _ huncovers => nomatch huncovers) fun inner hstep => ?_
    cases hstep with
    | @condition _ _ _ _ _ next place hpatch hasks =>
      cases Budgeted.ends_pure_iff.mp hpatch
      have hflag : IsFlagged next := hasks.keeps rfl remember_keeps_flag
      match place with
      | 0 => exact (uncoversOnlyBooleans_remember hflag).1
    | @transform _ _ _ _ _ input place hpatch happlies =>
      cases Budgeted.ends_pure_iff.mp hpatch
      have hflag : IsFlagged input := happlies.keeps rfl remember_keeps_flag
      match place with
      | 0 => exact (uncoversOnlyBooleans_remember hflag).2
  refine .of_parts (fun _ _ huncovers => nomatch huncovers) fun inner hstep => ?_
  cases hstep with
  | test =>
    have htrue : TestsInPlace .test (.bool true) := by decide +kernel
    exact htrue.uncoversOnlyBooleans
  | yes _ _ => exact hassign
  | no htest hfalsy =>
    cases Budgeted.ends_pure_iff.mp htest
    cases hfalsy

/-- The negations of the flag are removed, and so is the branch that is not taken. -/
theorem simplify_keeps_values_remembering :
    let simplified : Expr := .assign
      [(.binary .eq flag (.bool true), .call "set" [.string "seen", flag])] none
    let v : Value := .ofObject (flagged.insert "seen" (.bool true))
    remembering.simplify = .ok simplified ∧
      UncoversOnlyBooleans ⟨.value, remembering, .transform flagged .nil⟩ ∧
      (remembering.eval (.transform flagged .nil)).Ends (.ok v) ∧
      (simplified.eval (.transform flagged .nil)).Ends (.ok v) := by
  intro simplified v
  have hsimplify : remembering.simplify = .ok simplified := rfl
  have hv : (remembering.eval (.transform flagged .nil)).Ends (.ok v) := ⟨3, rfl⟩
  have hkept := simplify_keeps_values hsimplify uncoversOnlyBooleans_remembering hv
  exact ⟨hsimplify, uncoversOnlyBooleans_remembering, hv, hkept⟩

/-- Two negations of a number are a truth value and simplify to the number. -/
theorem simplify_changes_values : ¬ ∀ (e : Expr) (scope : Scope) (v : Value),
    (e.eval scope).Ends (.ok v) → ∃ e', e.simplify = .ok e' ∧ (e'.eval scope).Ends (.ok v) := by
  intro h
  obtain ⟨e', hsimplify, hv⟩ := h (.unary .not (.unary .not (.int 5))) (.transform .nil .nil)
    (.bool true) ⟨0, rfl⟩
  cases hsimplify
  cases Budgeted.ends_pure_iff.mp hv

/-! ### Rules -/

/-- Simplifying the condition and the transform of a rule changes neither when the rule fires nor
what it makes of an object, if their truth tests stand in test positions. -/
theorem simplify_keeps_rules {e e' : Expr} (hsimplify : e.simplify = .ok e')
    (environment : Environment) :
    (TestsInPlace .test e →
      ∀ context v, (e.eval (.condition context environment)).Ends (.ok v) →
        ((e'.matcher (e'.evalCondition environment)).holds context).Ends (.ok v.truthy)) ∧
    (TestsInPlace .value e →
      ∀ object v, (e.eval (.transform object environment)).Ends (.ok v) →
        (e'.eval (.transform object environment)).Ends (.ok v)) := by
  constructor
  · intro htests context v hv
    rw [holds_matcher]
    obtain ⟨v', hv', hsame⟩ := simplify_refines e htests.uncoversOnlyBooleans hsimplify v hv
    rw [hsame.truthy]
    exact Budgeted.ends_bind_ok_iff.mpr ⟨v', hv', Budgeted.ends_pure_iff.mpr rfl⟩
  · intro htests object v hv
    obtain ⟨v', hv', hsame⟩ := simplify_refines e htests.uncoversOnlyBooleans hsimplify v hv
    obtain rfl : v = v' := hsame
    exact hv'

/-- The field `open`. -/
def openField : Expr := .field (.ident "next") "open"

/-- An object that is open, but not by a truth value. -/
def opened : Object := FieldsAfter.insert .nil "open" (.string "yes")

/-- Whether one of two things holds, of which the first never does. -/
def openCondition : Expr := .any [.bool false, .unary .not (.unary .not openField)]

/-- Removes the field `open` by a rule inside. -/
def closing : Expr :=
  .assign [(.all [.bool true, .unary .not (.unary .not openField)], .call "remove" [.string "open"])]
    none

/-- A condition that simplifies to a field which is no truth value, and a transform that simplifies
inside its rule. -/
theorem simplify_keeps_rules_opened :
    openCondition.simplify = .ok openField ∧ TestsInPlace .test openCondition ∧
      (openCondition.eval (.condition ⟨.nil, opened⟩ .nil)).Ends (.ok (.bool true)) ∧
      ((openField.matcher (openField.evalCondition .nil)).holds ⟨.nil, opened⟩).Ends (.ok true) ∧
      closing.simplify = .ok (.assign [(openField, .call "remove" [.string "open"])] none) ∧
      TestsInPlace .value closing ∧
      (closing.eval (.transform opened .nil)).Ends (.ok (.map .nil)) ∧
      ((Expr.assign [(openField, .call "remove" [.string "open"])] none).eval
        (.transform opened .nil)).Ends (.ok (.map .nil)) := by
  have hv : (openCondition.eval (.condition ⟨.nil, opened⟩ .nil)).Ends (.ok (.bool true)) :=
    ⟨0, rfl⟩
  have hv' : (closing.eval (.transform opened .nil)).Ends (.ok (.map .nil)) := ⟨3, rfl⟩
  have htest : TestsInPlace .test openCondition := by decide +kernel
  have hvalue : TestsInPlace .value closing := by decide +kernel
  have hfires := (simplify_keeps_rules rfl .nil).1 htest _ _ hv
  have hmakes := (simplify_keeps_rules rfl .nil).2 hvalue _ _ hv'
  exact ⟨rfl, htest, hv, hfires, rfl, hvalue, hv', hmakes⟩

end TransitionRules.Expr
