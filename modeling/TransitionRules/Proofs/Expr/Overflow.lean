/-
TransitionRules/Proofs/Expr/Overflow.lean

When simplification gives a result, and what it computes from integers.

Simplification stops at a quotient that does not fit a word, wherever in the expression it stands.
That happens for the least word and minus one alone, which the operands need not be before they are
simplified themselves (`Overflows`).  Nothing else stops it: `simplifies_iff_parts` goes through the
kinds of expressions once, and `simplifies_iff` goes down the parts with it.

An evaluation has no such limit, because it wraps around (`FoldAbort.wrapped`).  Apart from that the
two compute the same: each operator on literals by `Proofs/Expr/Folding`, and everything that is made
of words by operators and conditionals, at any depth, by induction (`Arithmetic.eval_simplify`).

Main result: `integer_folding`.
-/
import TransitionRules.Proofs.Expr.NormalForm

namespace TransitionRules

/-- The word that an evaluation gives where simplification stops. -/
def FoldAbort.wrapped : FoldAbort → Int64
  | .quotientOverflow => Int64.minValue
  | .remainderOverflow => 0

namespace Expr

/-! ### What stops simplification -/

/-- Simplification gives a result. -/
def Simplifies (e : Expr) : Prop := ∃ e', e.simplify = .ok e'

/-- A quotient or a remainder of the least word and minus one, once the operands are simplified. -/
inductive Overflows : Expr → Prop
  | binary {op : BinaryOp} {left right : Expr} : op ∈ [.div, .mod] →
      left.simplify = .ok (.int Int64.minValue) → right.simplify = .ok (.int (-1)) →
      Overflows (.binary op left right)

variable {op : BinaryOp} {left right : Expr}

theorem foldBinary_overflow (hop : op ∈ [.div, .mod]) :
    ∃ abort, foldBinary op (.int Int64.minValue) (.int (-1)) = .error abort := by
  simp only [List.mem_cons, List.not_mem_nil, or_false] at hop
  rcases hop with rfl | rfl <;> exact ⟨_, rfl⟩

theorem foldWords?_total {a b : Int64} (h : op ∈ [.div, .mod] → quotientOverflows a b = false) :
    ∃ folded, foldWords? op a b = .ok folded := by
  cases op with
  | div | mod =>
    simp only [foldWords?, h (by decide)]
    split <;> exact ⟨_, rfl⟩
  | _ => exact ⟨_, rfl⟩

/-- Folding an operator fails only at a quotient that does not fit a word. -/
theorem foldBinary_total_iff :
    (∃ e', foldBinary op left right = .ok e') ↔
      ¬ (op ∈ [.div, .mod] ∧ left = .int Int64.minValue ∧ right = .int (-1)) := by
  constructor
  · rintro ⟨e', h⟩ ⟨hop, rfl, rfl⟩
    obtain ⟨abort, habort⟩ := foldBinary_overflow hop
    rw [habort] at h
    cases h
  · intro h
    unfold foldBinary
    split
    · rename_i a b
      have hfits : op ∈ [.div, .mod] → quotientOverflows a b = false := by
        intro hop
        simp only [quotientOverflows, Bool.and_eq_false_iff, decide_eq_false_iff_not]
        by_cases ha : a = Int64.minValue
        · exact .inr fun hb => h ⟨hop, ha ▸ rfl, hb ▸ rfl⟩
        · exact .inl ha
      obtain ⟨folded, hfolded⟩ := foldWords?_total hfits
      rw [hfolded]
      exact ⟨_, rfl⟩
    all_goals exact ⟨_, rfl⟩

/-! ### Down the parts -/

theorem simplifyAll_total_iff {items : List Expr} :
    (∃ items', simplifyAll items = .ok items') ↔ ∀ item ∈ items, item.Simplifies := by
  induction items with
  | nil => exact ⟨fun _ => List.forall_mem_nil _, fun _ => ⟨_, rfl⟩⟩
  | cons item rest ih =>
    rw [List.forall_mem_cons, ← ih, simplifyAll]
    simp only [exists_bind_eq_ok, exists_pure_eq_ok, and_true, exists_and_right, Simplifies]

theorem simplifyEntries_total_iff {entries : List (String × Expr)} :
    (∃ entries', simplifyEntries entries = .ok entries') ↔
      ∀ entry ∈ entries, entry.2.Simplifies := by
  induction entries with
  | nil => exact ⟨fun _ => List.forall_mem_nil _, fun _ => ⟨_, rfl⟩⟩
  | cons entry rest ih =>
    rw [List.forall_mem_cons, ← ih, simplifyEntries]
    simp only [exists_bind_eq_ok, exists_pure_eq_ok, and_true, exists_and_right, Simplifies]

theorem simplifyRules_total_iff {rules : List (Expr × Expr)} :
    (∃ rules', simplifyRules rules = .ok rules') ↔
      ∀ rule ∈ rules, rule.1.Simplifies ∧ rule.2.Simplifies := by
  induction rules with
  | nil => exact ⟨fun _ => List.forall_mem_nil _, fun _ => ⟨_, rfl⟩⟩
  | cons rule rest ih =>
    rw [List.forall_mem_cons, ← ih, simplifyRules]
    simp only [exists_bind_eq_ok, exists_pure_eq_ok, and_true, exists_and_right, Simplifies,
      and_assoc]

/-- Only the operators with two operands may fail once their parts are simplified. -/
theorem simplifies_iff_of_not_binary {e : Expr} (h : ¬ ∃ op left right, e = .binary op left right)
    (position : Position) :
    e.Simplifies ↔ ∀ part ∈ e.parts position, part.expression.Simplifies := by
  cases e with
  | null | bool _ | int _ | float _ | string _ | ident _ =>
    exact ⟨fun _ => List.forall_mem_nil _, fun _ => ⟨_, rfl⟩⟩
  | list _ | call _ _ | all _ | any _ =>
    rw [parts, List.forall_mem_map, ← simplifyAll_total_iff, Simplifies, simplify]
    simp only [exists_bind_eq_ok, exists_pure_eq_ok, and_true]
  | map entries =>
    rw [parts, List.forall_mem_map, ← simplifyEntries_total_iff, Simplifies, simplify]
    simp only [exists_bind_eq_ok, exists_pure_eq_ok, and_true]
  | field _ _ | unary _ _ =>
    rw [parts, List.forall_mem_singleton, Simplifies, simplify]
    simp only [exists_bind_eq_ok, exists_pure_eq_ok, and_true, Simplifies]
  | index base key =>
    rw [parts, List.forall_mem_cons, List.forall_mem_singleton, Simplifies, simplify]
    simp only [exists_bind_eq_ok, exists_pure_eq_ok, and_true, exists_and_right, Simplifies]
  | binary op left right => exact absurd ⟨op, left, right, rfl⟩ h
  | conditional test yes no =>
    rw [parts, List.forall_mem_cons, List.forall_mem_cons, List.forall_mem_singleton, Simplifies,
      simplify]
    simp only [exists_bind_eq_ok, exists_pure_eq_ok, and_true, exists_and_right, Simplifies]
  | assign rules patch =>
    rw [forall_mem_parts_assign, ← simplifyRules_total_iff]
    cases patch with
    | none =>
      rw [Simplifies, simplify]
      simp only [exists_bind_eq_ok, exists_pure_eq_ok, and_true]
      exact (and_iff_left (by rintro _ ⟨⟩)).symm
    | some change =>
      rw [Simplifies, simplify]
      simp only [exists_bind_eq_ok, exists_pure_eq_ok, and_true, exists_and_right]
      exact and_congr_right'
        ⟨fun h _ hmem => Option.mem_some_iff.mp hmem ▸ h, fun h => h change rfl⟩

theorem simplifies_binary_iff :
    (Expr.binary op left right).Simplifies ↔
      (left.Simplifies ∧ right.Simplifies) ∧ ¬ (Expr.binary op left right).Overflows := by
  rw [Simplifies, simplify]
  simp only [exists_bind_eq_ok, foldBinary_total_iff]
  constructor
  · rintro ⟨left', hleft, right', hright, hfits⟩
    refine ⟨⟨⟨left', hleft⟩, right', hright⟩, fun hover => ?_⟩
    cases hover with
    | binary hop hleast hminus =>
      exact hfits ⟨hop, Except.ok.inj (hleft.symm.trans hleast),
        Except.ok.inj (hright.symm.trans hminus)⟩
  · rintro ⟨⟨⟨left', hleft⟩, right', hright⟩, hfits⟩
    refine ⟨left', hleft, right', hright, ?_⟩
    rintro ⟨hop, rfl, rfl⟩
    exact hfits (.binary hop hleft hright)

/-- An expression simplifies if its parts do and it does not overflow itself. -/
theorem simplifies_iff_parts {e : Expr} (position : Position) :
    e.Simplifies ↔ (∀ part ∈ e.parts position, part.expression.Simplifies) ∧ ¬ e.Overflows := by
  by_cases hbinary : ∃ op left right, e = .binary op left right
  · obtain ⟨op, left, right, rfl⟩ := hbinary
    rw [parts, List.forall_mem_cons, List.forall_mem_singleton]
    exact simplifies_binary_iff
  · have hfits : ¬ e.Overflows := by
      rintro ⟨⟩
      exact hbinary ⟨_, _, _, rfl⟩
    rw [and_iff_left hfits, simplifies_iff_of_not_binary hbinary]

/-- Simplification gives a result exactly if nothing inside overflows. -/
theorem simplifies_iff (e : Expr) :
    e.Simplifies ↔ ∀ inner, e.Contains inner → ¬ inner.Overflows := by
  constructor
  · intro h inner hinner
    induction hinner with
    | here => exact ((simplifies_iff_parts .value).mp h).2
    | inside hpart _ ih => exact ih (((simplifies_iff_parts _).mp h).1 _ hpart)
  · intro h
    refine (simplifies_iff_parts .value).mpr ⟨fun part hpart => ?_, h e .here⟩
    have := sizeOf_part hpart
    exact (simplifies_iff part.expression).mpr fun inner hinner => h inner (.inside hpart hinner)
termination_by sizeOf e

/-! ### Words at both times -/

/-- Expressions made of words by operators and conditionals.  The value of a pair of negations or of
a junction may be lost when it is simplified, so that these have no place here. -/
inductive Arithmetic : Expr → Prop
  | word (n : Int64) : Arithmetic (.int n)
  | negation {operand : Expr} : Arithmetic operand → Arithmetic (.unary .neg operand)
  | operator {op : BinaryOp} {left right : Expr} : Arithmetic left → Arithmetic right →
      Arithmetic (.binary op left right)
  | conditional {test yes no : Expr} : Arithmetic test → Arithmetic yes → Arithmetic no →
      Arithmetic (.conditional test yes no)

theorem eval_foldNegation (operand : Expr) (scope : Scope) :
    (foldUnary .neg operand).eval scope = (Expr.unary .neg operand).eval scope := by
  unfold foldUnary
  split <;> first | contradiction | rfl

/-- Simplification keeps what is computed from words, failures included. -/
theorem Arithmetic.eval_simplify {e e' : Expr} (he : e.Arithmetic) (h : e.simplify = .ok e')
    (scope : Scope) : e'.eval scope = e.eval scope := by
  induction he generalizing e' with
  | word n =>
    cases h
    rfl
  | negation _ ih =>
    unfold simplify at h
    obtain ⟨operand', hoperand, h⟩ := bind_eq_ok.mp h
    cases h
    rw [eval_foldNegation, eval, eval, ih hoperand]
  | @operator op left right _ _ ihleft ihright =>
    unfold simplify at h
    obtain ⟨left', hleft, h⟩ := bind_eq_ok.mp h
    obtain ⟨right', hright, h⟩ := bind_eq_ok.mp h
    rw [eval_foldBinary h]
    cases op <;> simp only [eval, ihleft hleft, ihright hright]
  | conditional _ _ _ ihtest ihyes ihno =>
    unfold simplify at h
    obtain ⟨test', htest, h⟩ := bind_eq_ok.mp h
    obtain ⟨yes', hyes, h⟩ := bind_eq_ok.mp h
    obtain ⟨no', hno, h⟩ := bind_eq_ok.mp h
    cases h
    rw [eval_foldConditional]
    simp only [eval, ihtest htest, ihyes hyes, ihno hno]

/-- An operator is simplified by folding it on its simplified operands. -/
theorem simplify_binary {left' right' : Expr} (hleft : left.simplify = .ok left')
    (hright : right.simplify = .ok right') :
    (Expr.binary op left right).simplify = foldBinary op left' right' := by
  rw [simplify, hleft, hright]
  rfl

theorem eval_of_aborted {a b : Int64} {abort : FoldAbort}
    (h : foldBinary op (.int a) (.int b) = .error abort) (scope : Scope) :
    (Expr.binary op (.int a) (.int b)).eval scope = pure (.int abort.wrapped) := by
  have hstopped : ¬ ∃ e', foldBinary op (.int a) (.int b) = .ok e' := by
    rintro ⟨e', he'⟩
    rw [h] at he'
    cases he'
  obtain ⟨hop, ha, hb⟩ := not_not.mp (foldBinary_total_iff.not.mp hstopped)
  cases ha
  cases hb
  simp only [List.mem_cons, List.not_mem_nil, or_false] at hop
  rcases hop with rfl | rfl <;> cases h <;> rfl

/-- **Folding integers.**  Simplification gives a result exactly if no quotient inside overflows.
What it computes from two words, its operands simplified first, is what an evaluation computes from
them; where it stops, an evaluation wraps around.  What is made of words has one value, simplified or
not. -/
theorem integer_folding (e : Expr) (scope : Scope) :
    ((∃ e', e.simplify = .ok e') ↔ ∀ inner, e.Contains inner → ¬ inner.Overflows) ∧
    (∀ (op : BinaryOp) (left right : Expr) (a b : Int64), e = .binary op left right →
      left.simplify = .ok (.int a) → right.simplify = .ok (.int b) →
      (∀ e' v, e.simplify = .ok e' → e'.literalValue? = some v →
        (Expr.binary op (.int a) (.int b)).eval scope = pure v) ∧
      ∀ abort, e.simplify = .error abort →
        (Expr.binary op (.int a) (.int b)).eval scope = pure (.int abort.wrapped)) ∧
    ∀ e', e.Arithmetic → e.simplify = .ok e' → e'.eval scope = e.eval scope := by
  refine ⟨simplifies_iff e, ?_, fun e' he h => he.eval_simplify h scope⟩
  rintro op left right a b rfl hleft hright
  rw [simplify_binary hleft hright]
  constructor
  · intro e' v h hv
    rw [← eval_foldBinary h, eval_of_literalValue? hv]
  · intro abort h
    exact eval_of_aborted h scope

/-- One less than the least word, which is the greatest one. -/
def belowLeast : Expr := .binary .sub (.int Int64.minValue) (.unary .neg (.int (-1)))

/-- The least word over minus one, both computed. -/
def leastOverMinusOne : Expr :=
  .binary .div (.binary .add (.int Int64.maxValue) (.int 1)) (.binary .sub (.int 1) (.int 2))

/-- The first is computed with wrapping at both times.  The second one stops simplification also
where it is never reached, and is computed by an evaluation. -/
theorem integer_folding_least :
    belowLeast.simplify = .ok (.int Int64.maxValue) ∧
      (∀ scope, belowLeast.eval scope = pure (.int Int64.maxValue)) ∧
      (∀ scope, (Expr.binary .sub (.int Int64.minValue) (.int 1)).eval scope =
        pure (.int Int64.maxValue)) ∧
      (¬ ∃ e', (Expr.conditional (.bool false) leastOverMinusOne .null).simplify = .ok e') ∧
      leastOverMinusOne.simplify = .error .quotientOverflow ∧
      ∀ scope, (Expr.binary .div (.int Int64.minValue) (.int (-1))).eval scope =
        pure (.int Int64.minValue) := by
  have hbelow : belowLeast.simplify = .ok (.int Int64.maxValue) := rfl
  have hover : leastOverMinusOne.simplify = .error .quotientOverflow := rfl
  have hmade : belowLeast.Arithmetic := .operator (.word _) (.negation (.word _))
  have hinside : (Expr.conditional (.bool false) leastOverMinusOne .null).Contains
      leastOverMinusOne := @Contains.inside .value _ _ ⟨.value, _, .outer⟩ (.tail _ (.head _)) .here
  refine ⟨hbelow, fun scope => ?_, fun scope => ?_, fun h => ?_, hover, fun scope => ?_⟩
  · exact ((integer_folding belowLeast scope).2.2 _ hmade hbelow).symm
  · exact ((integer_folding belowLeast scope).2.1 _ _ _ _ _ rfl rfl rfl).1 _ _ hbelow rfl
  · exact (integer_folding _ (.transform .nil .nil)).1.mp h leastOverMinusOne hinside
      (.binary (by decide) rfl rfl)
  · exact ((integer_folding leastOverMinusOne scope).2.1 _ _ _ _ _ rfl rfl rfl).2 _ hover

end Expr

end TransitionRules
