/-
TransitionRules/Proofs/Expr/NormalForm.lean

Simplified expressions have nothing left to simplify.  `Reducible` lists the shapes that
simplification folds, each by what it looks like; an expression is in normal form if it contains none
of them, at any depth (`IsNormal`).

Each node is folded once, after its parts, although folding brings a part of a part up to the place
of the whole: the inner operand of two negations, a branch of a conditional, the last operand of a
junction.  No shape comes into being by that, because what is brought up is in normal form already
and is put in the place of a node that has yet to be folded itself.  So one lemma for each fold
(`isNormal_foldUnary`, `isNormal_foldBinary`, `isNormal_foldConditional`, `isNormal_foldJunction`) is
all that the induction needs.  Conversely a fold keeps what is not reducible.  So the normal forms
are the expressions that simplification keeps (`isNormal_iff`).

Main result: `simplify_reaches_normal_form`.
-/
import Mathlib.Data.List.Forall2
import TransitionRules.Proofs.Expr.Simplification

namespace TransitionRules.Expr

/-! ### Literals -/

/-- The value that a literal stands for. -/
def literalValue? : Expr → Option Value
  | .null => some .null
  | .bool b => some (.bool b)
  | .int n => some (.int n)
  | .float x => some (.float x)
  | .string s => some (.string s)
  | _ => none

theorem eval_of_literalValue? {e : Expr} {v : Value} (h : e.literalValue? = some v) (scope : Scope) :
    e.eval scope = pure v := by
  cases e with
  | null | bool _ | int _ | float _ | string _ =>
    cases h
    rfl
  | _ => cases h

/-! ### Shapes that are folded -/

/-- The operator is computed on these operands. -/
inductive Folds : BinaryOp → Expr → Expr → Prop
  | words {op : BinaryOp} (a b : Int64) :
      op ∈ [.add, .sub, .mul, .eq, .ne, .lt, .le, .gt, .ge] → Folds op (.int a) (.int b)
  | quotient {op : BinaryOp} (a b : Int64) :
      op ∈ [.div, .mod] → b ≠ 0 → Folds op (.int a) (.int b)
  | floats {op : BinaryOp} (x y : Float) :
      op ∈ [.add, .sub, .mul] → Folds op (.float x) (.float y)
  | floatQuotient (x y : Float) : (y == 0.0) = false → Folds .div (.float x) (.float y)
  | strings {op : BinaryOp} (s t : String) :
      op ∈ [.eq, .ne, .contains, .startsWith, .endsWith] → Folds op (.string s) (.string t)
  | falseAnd (right : Expr) : Folds .and (.bool false) right
  | trueOr (right : Expr) : Folds .or (.bool true) right
  | trueAnd (b : Bool) : Folds .and (.bool true) (.bool b)
  | falseOr (b : Bool) : Folds .or (.bool false) (.bool b)

/-- The expression has a shape that simplification folds, whatever its parts contain. -/
inductive Reducible : Expr → Prop
  | notBool (b : Bool) : Reducible (.unary .not (.bool b))
  | notNot (inner : Expr) : Reducible (.unary .not (.unary .not inner))
  | negInt (n : Int64) : Reducible (.unary .neg (.int n))
  | negFloat (x : Float) : Reducible (.unary .neg (.float x))
  | conditional (b : Bool) (yes no : Expr) : Reducible (.conditional (.bool b) yes no)
  | all {operands : List Expr} : operands.length < 2 ∨ (∃ b, .bool b ∈ operands) →
      Reducible (.all operands)
  | any {operands : List Expr} : operands.length < 2 ∨ (∃ b, .bool b ∈ operands) →
      Reducible (.any operands)
  | binary {op : BinaryOp} {left right : Expr} : Folds op left right →
      Reducible (.binary op left right)

/-- Nothing in the expression can be folded, the rules and the patch of an assignment included. -/
def IsNormal (e : Expr) : Prop := ∀ inner, e.Contains inner → ¬ inner.Reducible

theorem IsNormal.here {e : Expr} (h : e.IsNormal) : ¬ e.Reducible := h e .here

theorem IsNormal.part {e : Expr} (h : e.IsNormal) {part : Part} (hpart : part ∈ e.parts .value) :
    part.expression.IsNormal :=
  fun inner hinner => h inner (.inside hpart hinner)

theorem IsNormal.of_parts {e : Expr} (hhere : ¬ e.Reducible)
    (hparts : ∀ position, ∀ part ∈ e.parts position, part.expression.IsNormal) : e.IsNormal := by
  intro inner hinner
  cases hinner with
  | here => exact hhere
  | inside hpart hinner => exact hparts _ _ hpart inner hinner

theorem isNormal_of_literalValue? {e : Expr} {v : Value} (h : e.literalValue? = some v) :
    e.IsNormal := by
  cases e with
  | null | bool _ | int _ | float _ | string _ =>
    exact .of_parts nofun fun _ => List.forall_mem_nil _
  | _ => cases h

/-! ### Operators with two operands -/

variable {op : BinaryOp} {left right e' : Expr}

/-- What is computed is a literal. -/
theorem literalValue?_of_folds (h : Folds op left right) (hfold : foldBinary op left right = .ok e') :
    ∃ v, e'.literalValue? = some v := by
  cases h with
  | words a b hop =>
    simp only [List.mem_cons, List.not_mem_nil, or_false] at hop
    rcases hop with rfl | rfl | rfl | rfl | rfl | rfl | rfl | rfl | rfl <;>
      cases hfold <;> exact ⟨_, rfl⟩
  | quotient a b hop hb =>
    simp only [List.mem_cons, List.not_mem_nil, or_false] at hop
    rcases hop with rfl | rfl <;> simp only [foldBinary, foldWords?, if_neg hb] at hfold <;>
      split at hfold <;> cases hfold <;> exact ⟨_, rfl⟩
  | floats x y hop =>
    simp only [List.mem_cons, List.not_mem_nil, or_false] at hop
    rcases hop with rfl | rfl | rfl <;> cases hfold <;> exact ⟨_, rfl⟩
  | floatQuotient x y hy =>
    simp only [foldBinary, foldFloats?, hy] at hfold
    cases hfold
    exact ⟨_, rfl⟩
  | strings s t hop =>
    simp only [List.mem_cons, List.not_mem_nil, or_false] at hop
    rcases hop with rfl | rfl | rfl | rfl | rfl <;> cases hfold <;> exact ⟨_, rfl⟩
  | falseAnd | trueOr | trueAnd | falseOr =>
    cases hfold
    exact ⟨_, rfl⟩

theorem foldWords?_of_not_folds {a b : Int64} (h : ¬ Folds op (.int a) (.int b)) :
    foldWords? op a b = .ok none := by
  cases op with
  | add | sub | mul | eq | ne | lt | le | gt | ge => exact absurd (.words a b (by decide)) h
  | div | mod =>
    have hb : b = 0 := Decidable.byContradiction fun hb => h (.quotient a b (by decide) hb)
    exact if_pos hb
  | _ => rfl

theorem foldFloats?_of_not_folds {x y : Float} (h : ¬ Folds op (.float x) (.float y)) :
    foldFloats? op x y = none := by
  cases op with
  | add | sub | mul => exact absurd (.floats x y (by decide)) h
  | div =>
    have hy : (y == 0.0) = true := by
      rw [← Bool.not_eq_false]
      exact fun hy => h (.floatQuotient x y hy)
    exact if_pos hy
  | _ => rfl

theorem foldStrings?_of_not_folds {s t : String} (h : ¬ Folds op (.string s) (.string t)) :
    foldStrings? op s t = none := by
  cases op with
  | eq | ne | contains | startsWith | endsWith => exact absurd (.strings s t (by decide)) h
  | _ => rfl

theorem foldLogic?_of_not_folds {b : Bool} (h : ¬ Folds op (.bool b) right) :
    foldLogic? op b right = none := by
  unfold foldLogic?
  split
  · exact absurd (.falseAnd _) h
  · exact absurd (.trueOr _) h
  · exact absurd (.trueAnd _) h
  · exact absurd (.falseOr _) h
  · rfl

/-- What is not computed stays as it is. -/
theorem foldBinary_of_not_folds (h : ¬ Folds op left right) :
    foldBinary op left right = .ok (.binary op left right) := by
  unfold foldBinary
  split
  · rw [foldWords?_of_not_folds h]
    rfl
  · rw [foldFloats?_of_not_folds h]
    rfl
  · rw [foldStrings?_of_not_folds h]
    rfl
  · rw [foldLogic?_of_not_folds h]
    rfl
  · rfl

/-- The operators that folding keeps are the ones that are not computed. -/
theorem foldBinary_eq_self_iff :
    foldBinary op left right = .ok (.binary op left right) ↔ ¬ Folds op left right := by
  refine ⟨fun h hfolds => ?_, foldBinary_of_not_folds⟩
  obtain ⟨_, hv⟩ := literalValue?_of_folds hfolds h
  cases hv

/-- Folding gives a literal, or keeps an operator that cannot be computed. -/
theorem foldBinary_cases (h : foldBinary op left right = .ok e') :
    (∃ v, e'.literalValue? = some v) ∨ ¬ Folds op left right ∧ e' = .binary op left right := by
  by_cases hfolds : Folds op left right
  · exact .inl (literalValue?_of_folds hfolds h)
  · rw [foldBinary_eq_self_iff.mpr hfolds] at h
    exact .inr ⟨hfolds, (Except.ok.inj h).symm⟩

/-! ### Each fold gives a normal form -/

theorem isNormal_foldBinary (hleft : left.IsNormal) (hright : right.IsNormal)
    (h : foldBinary op left right = .ok e') : e'.IsNormal := by
  rcases foldBinary_cases h with ⟨v, hv⟩ | ⟨hfolds, rfl⟩
  · exact isNormal_of_literalValue? hv
  · refine .of_parts (fun hred => ?_) fun position => ?_
    · cases hred with
      | binary h => exact hfolds h
    · exact List.forall_mem_cons.mpr ⟨hleft, List.forall_mem_singleton.mpr hright⟩

theorem isNormal_foldUnary {op : UnaryOp} {operand : Expr} (h : operand.IsNormal) :
    (foldUnary op operand).IsNormal := by
  unfold foldUnary
  split
  · exact isNormal_of_literalValue? rfl
  · -- the inner operand comes up, and it is normal as a part of the outer one
    exact h.part (List.mem_singleton_self _)
  · exact isNormal_of_literalValue? rfl
  · exact isNormal_of_literalValue? rfl
  · next hbool hnot hint hfloat =>
    refine .of_parts (fun hred => ?_) fun _ => List.forall_mem_singleton.mpr h
    cases hred with
    | notBool b => exact hbool b rfl rfl
    | notNot inner => exact hnot inner rfl rfl
    | negInt n => exact hint n rfl rfl
    | negFloat x => exact hfloat x rfl rfl

theorem isNormal_foldConditional {test yes no : Expr} (htest : test.IsNormal) (hyes : yes.IsNormal)
    (hno : no.IsNormal) : (foldConditional test yes no).IsNormal := by
  unfold foldConditional
  split
  · exact hyes
  · exact hno
  · next htrue hfalse =>
    refine .of_parts (fun hred => ?_) fun position => ?_
    · cases hred with
      | conditional b yes no => cases b <;> contradiction
    · exact List.forall_mem_cons.mpr
        ⟨htest, List.forall_mem_cons.mpr ⟨hyes, List.forall_mem_singleton.mpr hno⟩⟩

/-- A junction is reducible if it has too few operands or a literal one. -/
theorem reducible_junction_iff {neutral : Bool} {operands : List Expr} :
    (junction neutral operands).Reducible ↔
      operands.length < 2 ∨ ∃ b, .bool b ∈ operands := by
  cases neutral with
  | false => exact ⟨fun h => by cases h with | any h => exact h, .any⟩
  | true => exact ⟨fun h => by cases h with | all h => exact h, .all⟩

theorem parts_junction (neutral : Bool) (operands : List Expr) (position : Position) :
    (junction neutral operands).parts position = operands.map (⟨.test, ·, .outer⟩) := by
  cases neutral <;> rfl

theorem isBool_eq_false {b : Bool} {e : Expr} (h : ∀ c, e ≠ .bool c) : e.isBool b = false :=
  Bool.eq_false_iff.mpr fun hbool => h b (eq_bool_of_isBool hbool)

theorem isNormal_junction {neutral : Bool} {operands : List Expr} (hlength : 2 ≤ operands.length)
    (hbool : ∀ b, .bool b ∉ operands) (h : ∀ operand ∈ operands, operand.IsNormal) :
    (junction neutral operands).IsNormal := by
  refine .of_parts (fun hred => ?_) fun position part hpart => ?_
  · rcases reducible_junction_iff.mp hred with hfew | ⟨b, hmem⟩
    · omega
    · exact hbool b hmem
  · rw [parts_junction] at hpart
    obtain ⟨operand, hmem, rfl⟩ := List.mem_map.mp hpart
    exact h operand hmem

theorem isNormal_foldJunction {neutral : Bool} {operands : List Expr}
    (h : ∀ operand ∈ operands, operand.IsNormal) : (foldJunction neutral operands).IsNormal := by
  have hremaining : ∀ operand ∈ remaining neutral operands, operand.IsNormal := fun operand hmem =>
    h operand (List.mem_of_mem_filter hmem)
  unfold foldJunction
  split
  · exact isNormal_of_literalValue? rfl
  · next hdecided =>
    split
    · exact isNormal_of_literalValue? rfl
    · next operand hone =>
      rw [show remaining neutral operands = [operand] from hone] at hremaining
      exact hremaining operand (List.mem_singleton_self _)
    · next hnil hone =>
      refine isNormal_junction ?_ (fun b hmem => ?_) hremaining
      · -- the two shorter lists have been dealt with
        show 2 ≤ (remaining neutral operands).length
        rcases hkept : remaining neutral operands with - | ⟨first, - | ⟨second, rest⟩⟩
        · exact absurd hkept hnil
        · exact absurd hkept (hone first)
        · exact Nat.le_add_left 2 rest.length
      · -- a literal operand is neutral and left out, or else it decides
        obtain ⟨hmem, hneutral⟩ := List.mem_filter.mp hmem
        refine hdecided (List.any_eq_true.mpr ⟨_, hmem, ?_⟩)
        cases b <;> cases neutral <;> first | rfl | cases hneutral

/-! ### What is in normal form is kept -/

theorem foldUnary_of_not_reducible {op : UnaryOp} {operand : Expr}
    (h : ¬ (Expr.unary op operand).Reducible) : foldUnary op operand = .unary op operand := by
  unfold foldUnary
  split
  · exact absurd (.notBool _) h
  · exact absurd (.notNot _) h
  · exact absurd (.negInt _) h
  · exact absurd (.negFloat _) h
  · rfl

theorem foldConditional_of_not_reducible {test yes no : Expr}
    (h : ¬ (Expr.conditional test yes no).Reducible) :
    foldConditional test yes no = .conditional test yes no := by
  unfold foldConditional
  split
  · exact absurd (.conditional true _ _) h
  · exact absurd (.conditional false _ _) h
  · rfl

theorem foldJunction_of_not_reducible {neutral : Bool} {operands : List Expr}
    (h : ¬ (junction neutral operands).Reducible) :
    foldJunction neutral operands = junction neutral operands := by
  rw [reducible_junction_iff, not_or, Nat.not_lt, not_exists] at h
  obtain ⟨hlength, hbool⟩ := h
  have hliteral : ∀ b, ∀ operand ∈ operands, operand.isBool b = false := fun b operand hmem =>
    isBool_eq_false fun c heq => hbool c (heq ▸ hmem)
  have hdecided : ¬ operands.any (isBool !neutral) = true := by
    rw [List.any_eq_true]
    rintro ⟨operand, hmem, hdecides⟩
    rw [hliteral _ operand hmem] at hdecides
    cases hdecides
  have hkept : (operands.filter fun operand => !operand.isBool neutral) = operands :=
    List.filter_eq_self.mpr fun operand hmem => by rw [hliteral neutral operand hmem]; rfl
  rw [foldJunction, if_neg hdecided, hkept]
  match operands, hlength with
  | _ :: _ :: _, _ => rfl

theorem simplifyAll_of_kept {items : List Expr} (h : ∀ item ∈ items, item.simplify = .ok item) :
    simplifyAll items = .ok items := by
  induction items with
  | nil => rfl
  | cons item rest ih =>
    obtain ⟨hitem, hrest⟩ := List.forall_mem_cons.mp h
    rw [simplifyAll, hitem, ih hrest]
    rfl

theorem simplifyEntries_of_kept {entries : List (String × Expr)}
    (h : ∀ entry ∈ entries, entry.2.simplify = .ok entry.2) :
    simplifyEntries entries = .ok entries := by
  induction entries with
  | nil => rfl
  | cons entry rest ih =>
    obtain ⟨hentry, hrest⟩ := List.forall_mem_cons.mp h
    rw [simplifyEntries, hentry, ih hrest]
    rfl

theorem simplifyRules_of_kept {rules : List (Expr × Expr)}
    (h : ∀ rule ∈ rules, rule.1.simplify = .ok rule.1 ∧ rule.2.simplify = .ok rule.2) :
    simplifyRules rules = .ok rules := by
  induction rules with
  | nil => rfl
  | cons rule rest ih =>
    obtain ⟨⟨hcondition, htransform⟩, hrest⟩ := List.forall_mem_cons.mp h
    rw [simplifyRules, hcondition, htransform, ih hrest]
    rfl

/-! ### The whole expression -/

theorem forall_mem_of_forall₂ {α β : Type} {R : α → β → Prop} {p : β → Prop} {items : List α}
    {items' : List β} (h : List.Forall₂ R items items')
    (hR : ∀ item ∈ items, ∀ item', R item item' → p item') : ∀ item' ∈ items', p item' := by
  induction h with
  | nil => exact List.forall_mem_nil _
  | cons h _ ih =>
    obtain ⟨hitem, hrest⟩ := List.forall_mem_cons.mp hR
    exact List.forall_mem_cons.mpr ⟨hitem _ h, ih hrest⟩

/-- The rules of an assignment have nothing to fold themselves, only their parts do. -/
theorem isNormal_assign_iff {rules : List (Expr × Expr)} {patch : Option Expr} :
    (Expr.assign rules patch).IsNormal ↔
      (∀ rule ∈ rules, rule.1.IsNormal ∧ rule.2.IsNormal) ∧ ∀ change ∈ patch, change.IsNormal :=
  ⟨fun h => forall_mem_parts_assign.mp fun _ => h.part,
    fun h => .of_parts nofun fun _ => forall_mem_parts_assign.mpr h⟩

/-- Induction over simplification: a case for each kind of expression, with what its parts are
simplified to. -/
theorem simplify_byParts {motive : Expr → Expr → Prop}
    (literal : ∀ e v, e.literalValue? = some v → motive e e)
    (ident : ∀ name, motive (.ident name) (.ident name))
    (list : ∀ items items', List.Forall₂ motive items items' → motive (.list items) (.list items'))
    (map : ∀ entries entries', List.Forall₂ (fun entry entry' => motive entry.2 entry'.2) entries
      entries' → motive (.map entries) (.map entries'))
    (field : ∀ base base' name, motive base base' → motive (.field base name) (.field base' name))
    (index : ∀ base base' key key', motive base base' → motive key key' →
      motive (.index base key) (.index base' key'))
    (unary : ∀ op operand operand', motive operand operand' →
      motive (.unary op operand) (foldUnary op operand'))
    (binary : ∀ op left left' right right' e', motive left left' → motive right right' →
      foldBinary op left' right' = .ok e' → motive (.binary op left right) e')
    (conditional : ∀ test test' yes yes' no no', motive test test' → motive yes yes' →
      motive no no' → motive (.conditional test yes no) (foldConditional test' yes' no'))
    (call : ∀ function arguments arguments', List.Forall₂ motive arguments arguments' →
      motive (.call function arguments) (.call function arguments'))
    (junction : ∀ neutral operands operands', List.Forall₂ motive operands operands' →
      motive (junction neutral operands) (foldJunction neutral operands'))
    (assign : ∀ rules rules' patch patch',
      List.Forall₂ (fun rule rule' => motive rule.1 rule'.1 ∧ motive rule.2 rule'.2) rules rules' →
      Option.Rel motive patch patch' → motive (.assign rules patch) (.assign rules' patch'))
    {e e' : Expr} (h : e.simplify = .ok e') : motive e e' := by
  have hall : ∀ {items items'}, (∀ item ∈ items, ∀ {item' : Expr}, item.simplify = .ok item' →
      motive item item') → simplifyAll items = .ok items' → List.Forall₂ motive items items' := by
    intro items items' ih h
    exact ((List.forall₂_and_left ..).mpr ⟨ih, simplifyAll_parts h⟩).imp fun _ _ h => h.1 h.2
  induction e generalizing e' with
  | null | bool _ | int _ | float _ | string _ =>
    cases h
    exact literal _ _ rfl
  | ident name =>
    cases h
    exact ident name
  | list items ih =>
    unfold simplify at h
    obtain ⟨items', hitems, h⟩ := bind_eq_ok.mp h
    cases h
    exact list _ _ (hall ih hitems)
  | map entries ih =>
    unfold simplify at h
    obtain ⟨entries', hentries, h⟩ := bind_eq_ok.mp h
    cases h
    have hparts := (List.forall₂_and_left ..).mpr ⟨ih, simplifyEntries_parts hentries⟩
    exact map _ _ (hparts.imp fun _ _ h => h.1 h.2.2)
  | field base name ih =>
    unfold simplify at h
    obtain ⟨base', hbase, h⟩ := bind_eq_ok.mp h
    cases h
    exact field _ _ _ (ih hbase)
  | index base key ihbase ihkey =>
    unfold simplify at h
    obtain ⟨base', hbase, h⟩ := bind_eq_ok.mp h
    obtain ⟨key', hkey, h⟩ := bind_eq_ok.mp h
    cases h
    exact index _ _ _ _ (ihbase hbase) (ihkey hkey)
  | unary op operand ih =>
    unfold simplify at h
    obtain ⟨operand', hoperand, h⟩ := bind_eq_ok.mp h
    cases h
    exact unary _ _ _ (ih hoperand)
  | binary op left right ihleft ihright =>
    unfold simplify at h
    obtain ⟨left', hleft, h⟩ := bind_eq_ok.mp h
    obtain ⟨right', hright, h⟩ := bind_eq_ok.mp h
    exact binary _ _ _ _ _ _ (ihleft hleft) (ihright hright) h
  | conditional test yes no ihtest ihyes ihno =>
    unfold simplify at h
    obtain ⟨test', htest, h⟩ := bind_eq_ok.mp h
    obtain ⟨yes', hyes, h⟩ := bind_eq_ok.mp h
    obtain ⟨no', hno, h⟩ := bind_eq_ok.mp h
    cases h
    exact conditional _ _ _ _ _ _ (ihtest htest) (ihyes hyes) (ihno hno)
  | call function arguments ih =>
    unfold simplify at h
    obtain ⟨arguments', harguments, h⟩ := bind_eq_ok.mp h
    cases h
    exact call _ _ _ (hall ih harguments)
  | all operands ih =>
    unfold simplify at h
    obtain ⟨operands', hoperands, h⟩ := bind_eq_ok.mp h
    cases h
    exact junction true _ _ (hall ih hoperands)
  | any operands ih =>
    unfold simplify at h
    obtain ⟨operands', hoperands, h⟩ := bind_eq_ok.mp h
    cases h
    exact junction false _ _ (hall ih hoperands)
  | assign rules patch ihrules ihpatch =>
    have hrules : ∀ {rules'}, simplifyRules rules = .ok rules' → List.Forall₂
        (fun rule rule' => motive rule.1 rule'.1 ∧ motive rule.2 rule'.2) rules rules' := by
      intro rules' h
      have hparts := (List.forall₂_and_left ..).mpr ⟨ihrules, simplifyRules_parts h⟩
      exact hparts.imp fun _ _ h => ⟨h.1.1 h.2.1, h.1.2 h.2.2⟩
    cases patch with
    | none =>
      unfold simplify at h
      obtain ⟨rules', hsimplify, h⟩ := bind_eq_ok.mp h
      cases h
      exact assign _ _ _ _ (hrules hsimplify) .none
    | some change =>
      unfold simplify at h
      obtain ⟨rules', hsimplify, h⟩ := bind_eq_ok.mp h
      obtain ⟨change', hchange, h⟩ := bind_eq_ok.mp h
      cases h
      exact assign _ _ _ _ (hrules hsimplify) (.some (ihpatch change rfl hchange))

/-- What simplification gives is in normal form. -/
theorem simplify_isNormal {e e' : Expr} (h : e.simplify = .ok e') : e'.IsNormal := by
  apply simplify_byParts (motive := fun _ e' => e'.IsNormal) (h := h)
  case literal => exact fun _ _ hv => isNormal_of_literalValue? hv
  case ident => exact fun _ => .of_parts (by rintro ⟨⟩) fun _ => List.forall_mem_nil _
  case list =>
    intro items items' hitems
    exact .of_parts (by rintro ⟨⟩) fun _ => List.forall_mem_map.mpr
      (forall_mem_of_forall₂ hitems fun _ _ _ h => h)
  case map =>
    intro entries entries' hentries
    exact .of_parts (by rintro ⟨⟩) fun _ => List.forall_mem_map.mpr
      (forall_mem_of_forall₂ hentries fun _ _ _ h => h)
  case field =>
    intro base base' name hbase
    exact .of_parts (by rintro ⟨⟩) fun _ => List.forall_mem_singleton.mpr hbase
  case index =>
    intro base base' key key' hbase hkey
    exact .of_parts (by rintro ⟨⟩) fun _ =>
      List.forall_mem_cons.mpr ⟨hbase, List.forall_mem_singleton.mpr hkey⟩
  case unary => exact fun _ _ _ hoperand => isNormal_foldUnary hoperand
  case binary => exact fun _ _ _ _ _ _ hleft hright hfold => isNormal_foldBinary hleft hright hfold
  case conditional =>
    exact fun _ _ _ _ _ _ htest hyes hno => isNormal_foldConditional htest hyes hno
  case call =>
    intro function arguments arguments' harguments
    exact .of_parts (by rintro ⟨⟩) fun _ => List.forall_mem_map.mpr
      (forall_mem_of_forall₂ harguments fun _ _ _ h => h)
  case junction =>
    intro neutral operands operands' hoperands
    exact isNormal_foldJunction (forall_mem_of_forall₂ hoperands fun _ _ _ h => h)
  case assign =>
    intro rules rules' patch patch' hrules hpatch
    refine isNormal_assign_iff.mpr ⟨forall_mem_of_forall₂ hrules fun _ _ _ h => h, ?_⟩
    rintro change ⟨⟩
    cases hpatch with
    | some hchange => exact hchange

/-- Simplification keeps what is in normal form. -/
theorem simplify_of_isNormal {e : Expr} (h : e.IsNormal) : e.simplify = .ok e := by
  induction e with
  | null | bool _ | int _ | float _ | string _ | ident _ => rfl
  | list items ih =>
    rw [simplify, simplifyAll_of_kept fun item hmem =>
      ih item hmem (h.part (List.mem_map_of_mem hmem))]
    rfl
  | map entries ih =>
    rw [simplify, simplifyEntries_of_kept fun entry hmem =>
      ih entry hmem (h.part (List.mem_map_of_mem hmem))]
    rfl
  | field base name ih =>
    rw [simplify, ih (h.part (List.mem_singleton_self _))]
    rfl
  | index base key ihbase ihkey =>
    rw [simplify, ihbase (h.part (.head _)), ihkey (h.part (.tail _ (.head _)))]
    rfl
  | unary op operand ih =>
    rw [simplify, ih (h.part (List.mem_singleton_self _))]
    exact congrArg Except.ok (foldUnary_of_not_reducible h.here)
  | binary op left right ihleft ihright =>
    rw [simplify, ihleft (h.part (.head _)), ihright (h.part (.tail _ (.head _)))]
    exact foldBinary_eq_self_iff.mpr fun hfolds => h.here (.binary hfolds)
  | conditional test yes no ihtest ihyes ihno =>
    rw [simplify, ihtest (h.part (.head _)), ihyes (h.part (.tail _ (.head _))),
      ihno (h.part (.tail _ (.tail _ (.head _))))]
    exact congrArg Except.ok (foldConditional_of_not_reducible h.here)
  | call function arguments ih =>
    rw [simplify, simplifyAll_of_kept fun argument hmem =>
      ih argument hmem (h.part (List.mem_map_of_mem hmem))]
    rfl
  | all operands ih =>
    rw [simplify, simplifyAll_of_kept fun operand hmem =>
      ih operand hmem (h.part (List.mem_map_of_mem hmem))]
    exact congrArg Except.ok (@foldJunction_of_not_reducible true _ h.here)
  | any operands ih =>
    rw [simplify, simplifyAll_of_kept fun operand hmem =>
      ih operand hmem (h.part (List.mem_map_of_mem hmem))]
    exact congrArg Except.ok (@foldJunction_of_not_reducible false _ h.here)
  | assign rules patch ihrules ihpatch =>
    obtain ⟨hrules, hpatch⟩ := isNormal_assign_iff.mp h
    have hrules' : simplifyRules rules = .ok rules := simplifyRules_of_kept fun rule hmem =>
      ⟨(ihrules rule hmem).1 (hrules rule hmem).1, (ihrules rule hmem).2 (hrules rule hmem).2⟩
    cases patch with
    | none =>
      rw [simplify, hrules']
      rfl
    | some change =>
      rw [simplify, hrules', ihpatch change rfl (hpatch change rfl)]
      rfl

/-- The normal forms are the expressions that simplification keeps. -/
theorem isNormal_iff {e : Expr} : e.IsNormal ↔ e.simplify = .ok e :=
  ⟨simplify_of_isNormal, simplify_isNormal⟩

/-- One simplification is enough: what it gives contains nothing that can be folded, and simplifying
it again changes nothing. -/
theorem simplify_reaches_normal_form {e e' : Expr} (h : e.simplify = .ok e') :
    e'.IsNormal ∧ e'.simplify = .ok e' := by
  have hnormal : e'.IsNormal := simplify_isNormal h
  exact ⟨hnormal, isNormal_iff.mp hnormal⟩

/-- Removes the field `open` by a rule inside, with a condition of three layers that go one after the
other, and changes the object by a number that is computed. -/
def layered : Expr :=
  .assign
    [(.conditional (.binary .lt (.int 1) (.int 2))
        (.unary .not (.unary .not (.all [.bool true, openField]))) .null,
      .call "remove" [.string "open"])]
    (some (.unary .neg (.binary .sub (.int 1) (.int 3))))

/-- Of the layers only the field is left. -/
theorem simplify_reaches_normal_form_layered :
    layered.simplify =
        .ok (.assign [(openField, .call "remove" [.string "open"])] (some (.int 2))) ∧
      (Expr.assign [(openField, .call "remove" [.string "open"])] (some (.int 2))).IsNormal ∧
      (Expr.assign [(openField, .call "remove" [.string "open"])] (some (.int 2))).simplify =
        .ok (.assign [(openField, .call "remove" [.string "open"])] (some (.int 2))) := by
  have hsimplify : layered.simplify =
      .ok (.assign [(openField, .call "remove" [.string "open"])] (some (.int 2))) := rfl
  exact ⟨hsimplify, simplify_reaches_normal_form hsimplify⟩

end TransitionRules.Expr
