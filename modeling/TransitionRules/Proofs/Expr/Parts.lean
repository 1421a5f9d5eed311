/-
TransitionRules/Proofs/Expr/Parts.lean

Expressions by their parts.  Expressions hold lists of expressions, of entries and of rules, so
that the induction that Lean makes for them speaks of all these lists as well.  `Expr.byParts` is
the one to use: a case for each kind of expression, with one hypothesis for each part or one for
all members of a list.

What happens to the value of a part depends on where the part stands.  In a test position only its
truthiness counts, in a value position all of it does (`Position`).  `Expr.parts` lists the parts
of an expression with their positions, given the position of the whole, and with the setting in
which they are evaluated.  Two closures of it serve different ends:

* `Contains e part` says that `part` stands somewhere in `e`;
* `Occurs p e q part` says besides that it stands in position `q` if the whole stands in position
  `p`.
-/
import TransitionRules.Expr.Eval

namespace TransitionRules

/-! ### Induction -/

/-- Induction over expressions. -/
@[elab_as_elim, induction_eliminator]
theorem Expr.byParts {motive : Expr → Prop} (null : motive .null) (bool : ∀ b, motive (.bool b))
    (int : ∀ n, motive (.int n)) (float : ∀ x, motive (.float x))
    (string : ∀ s, motive (.string s))
    (list : ∀ items, (∀ item ∈ items, motive item) → motive (.list items))
    (map : ∀ entries, (∀ entry ∈ entries, motive entry.2) → motive (.map entries))
    (ident : ∀ name, motive (.ident name))
    (field : ∀ base name, motive base → motive (.field base name))
    (index : ∀ base key, motive base → motive key → motive (.index base key))
    (unary : ∀ op operand, motive operand → motive (.unary op operand))
    (binary : ∀ op left right, motive left → motive right → motive (.binary op left right))
    (conditional : ∀ test yes no, motive test → motive yes → motive no →
      motive (.conditional test yes no))
    (call : ∀ function arguments, (∀ argument ∈ arguments, motive argument) →
      motive (.call function arguments))
    (all : ∀ operands, (∀ operand ∈ operands, motive operand) → motive (.all operands))
    (any : ∀ operands, (∀ operand ∈ operands, motive operand) → motive (.any operands))
    (assign : ∀ rules patch, (∀ rule ∈ rules, motive rule.1 ∧ motive rule.2) →
      (∀ change ∈ patch, motive change) → motive (.assign rules patch)) :
    ∀ e, motive e :=
  @Expr.rec motive (fun items => ∀ item ∈ items, motive item)
    (fun entries => ∀ entry ∈ entries, motive entry.2)
    (fun rules => ∀ rule ∈ rules, motive rule.1 ∧ motive rule.2)
    (fun patch => ∀ change ∈ patch, motive change)
    (fun entry => motive entry.2) (fun rule => motive rule.1 ∧ motive rule.2)
    null bool int float string list map ident field index unary binary conditional call all any
    assign
    (List.forall_mem_nil _) (fun _ _ h hrest => List.forall_mem_cons.mpr ⟨h, hrest⟩)
    (List.forall_mem_nil _) (fun _ _ h hrest => List.forall_mem_cons.mpr ⟨h, hrest⟩)
    (List.forall_mem_nil _) (fun _ _ h hrest => List.forall_mem_cons.mpr ⟨h, hrest⟩)
    (fun _ h => nomatch h) (fun _ h _ hmem => Option.some.inj hmem ▸ h)
    (fun _ _ h => h) (fun _ _ hcondition htransform => ⟨hcondition, htransform⟩)

/-! ### Positions -/

/-- How the value of an expression is used. -/
inductive Position where
  /-- Only whether it is truthy counts. -/
  | test
  /-- All of it counts. -/
  | value
  deriving DecidableEq, Repr

namespace Position

/-- Two values between which a position sees no difference. -/
def Same : Position → Value → Value → Prop
  | .test => fun first second => first.truthy = second.truthy
  | .value => Eq

variable {position : Position} {first second third : Value}

theorem Same.refl (position : Position) (value : Value) : position.Same value value := by
  cases position <;> rfl

theorem Same.trans (h : position.Same first second) (h' : position.Same second third) :
    position.Same first third := by
  cases position with
  | test => exact Eq.trans h h'
  | value => exact Eq.trans h h'

theorem Same.truthy (h : position.Same first second) : first.truthy = second.truthy := by
  cases position with
  | test => exact h
  | value => exact congrArg Value.truthy h

end Position

/-- The position of the operand. -/
def UnaryOp.operandPosition : UnaryOp → Position
  | .not => .test
  | .neg => .value

/-- The position of both operands. -/
def BinaryOp.operandPosition : BinaryOp → Position
  | .and | .or => .test
  | _ => .value

namespace Expr

/-! ### Parts -/

/-- Where the scope of a part comes from. -/
inductive Setting where
  /-- It is the scope of the whole. -/
  | outer
  /-- It is made for the condition of a rule inside the expression. -/
  | condition
  /-- It is made for the transform of a rule inside the expression. -/
  | transform

/-- A part of an expression. -/
structure Part where
  position : Position
  expression : Expr
  setting : Setting

/-- The direct parts of an expression that stands in this position. -/
def parts (position : Position) : Expr → List Part
  | .null | .bool _ | .int _ | .float _ | .string _ | .ident _ => []
  | .list items => items.map (⟨.value, ·, .outer⟩)
  | .map entries => entries.map (⟨.value, ·.2, .outer⟩)
  | .field base _ => [⟨.value, base, .outer⟩]
  | .index base key => [⟨.value, base, .outer⟩, ⟨.value, key, .outer⟩]
  | .unary op operand => [⟨op.operandPosition, operand, .outer⟩]
  | .binary op left right =>
    [⟨op.operandPosition, left, .outer⟩, ⟨op.operandPosition, right, .outer⟩]
  | .conditional test yes no =>
    [⟨.test, test, .outer⟩, ⟨position, yes, .outer⟩, ⟨position, no, .outer⟩]
  | .call _ arguments => arguments.map (⟨.value, ·, .outer⟩)
  | .all operands | .any operands => operands.map (⟨.test, ·, .outer⟩)
  | .assign rules patch =>
    rules.flatMap (fun rule => [⟨.test, rule.1, .condition⟩, ⟨.value, rule.2, .transform⟩]) ++
      patch.toList.map (⟨.value, ·, .outer⟩)

section Assignments

variable {position : Position} {rules : List (Expr × Expr)} {patch : Option Expr}

theorem condition_mem_parts {rule : Expr × Expr} (h : rule ∈ rules) :
    ⟨.test, rule.1, .condition⟩ ∈ (Expr.assign rules patch).parts position :=
  List.mem_append_left _ (List.mem_flatMap.mpr ⟨rule, h, .head _⟩)

theorem transform_mem_parts {rule : Expr × Expr} (h : rule ∈ rules) :
    ⟨.value, rule.2, .transform⟩ ∈ (Expr.assign rules patch).parts position :=
  List.mem_append_left _ (List.mem_flatMap.mpr ⟨rule, h, .tail _ (.head _)⟩)

theorem patch_mem_parts {change : Expr} (h : change ∈ patch) :
    ⟨.value, change, .outer⟩ ∈ (Expr.assign rules patch).parts position :=
  List.mem_append_right _ (List.mem_map_of_mem (Option.mem_toList.mpr h))

/-- What holds of the parts of an assignment holds of both sides of its rules and of its patch. -/
theorem forall_mem_parts_assign {p : Expr → Prop} :
    (∀ part ∈ (Expr.assign rules patch).parts position, p part.expression) ↔
      (∀ rule ∈ rules, p rule.1 ∧ p rule.2) ∧ ∀ change ∈ patch, p change := by
  rw [parts, List.forall_mem_append, List.forall_mem_flatMap, List.forall_mem_map]
  refine and_congr (forall₂_congr fun rule _ => ?_) (forall_congr' fun change => ?_)
  · rw [List.forall_mem_cons, List.forall_mem_singleton]
  · rw [Option.mem_toList]
    exact Iff.rfl

end Assignments

/-- The parts of an expression are smaller than itself. -/
theorem sizeOf_part {position : Position} {e : Expr} {part : Part} (h : part ∈ e.parts position) :
    sizeOf part.expression < sizeOf e := by
  have hmember : ∀ {items : List Expr} {place : Position},
      part ∈ items.map (⟨place, ·, .outer⟩) → sizeOf part.expression < sizeOf items := by
    intro items place h
    obtain ⟨item, hmem, rfl⟩ := List.mem_map.mp h
    exact List.sizeOf_lt_of_mem hmem
  cases e with
  | null | bool _ | int _ | float _ | string _ | ident _ => cases h
  | list items | all items | any items | call _ items =>
    have := hmember h
    simp only [list.sizeOf_spec, all.sizeOf_spec, any.sizeOf_spec, call.sizeOf_spec]
    omega
  | map entries =>
    obtain ⟨⟨key, value⟩, hmem, rfl⟩ := List.mem_map.mp h
    have := List.sizeOf_lt_of_mem hmem
    simp only [map.sizeOf_spec, Prod.mk.sizeOf_spec] at this ⊢
    omega
  | field base name =>
    obtain rfl := List.mem_singleton.mp h
    simp only [field.sizeOf_spec]
    omega
  | index base key =>
    simp only [parts, List.mem_cons, List.not_mem_nil, or_false] at h
    rcases h with rfl | rfl <;> simp only [index.sizeOf_spec] <;> omega
  | unary op operand =>
    obtain rfl := List.mem_singleton.mp h
    simp only [unary.sizeOf_spec]
    omega
  | binary op left right =>
    simp only [parts, List.mem_cons, List.not_mem_nil, or_false] at h
    rcases h with rfl | rfl <;> simp only [binary.sizeOf_spec] <;> omega
  | conditional test yes no =>
    simp only [parts, List.mem_cons, List.not_mem_nil, or_false] at h
    rcases h with rfl | rfl | rfl <;> simp only [conditional.sizeOf_spec] <;> omega
  | assign rules patch =>
    rcases List.mem_append.mp h with h | h
    · obtain ⟨⟨condition, transform⟩, hmem, h⟩ := List.mem_flatMap.mp h
      have := List.sizeOf_lt_of_mem hmem
      simp only [List.mem_cons, List.not_mem_nil, or_false] at h
      rcases h with rfl | rfl <;> simp only [assign.sizeOf_spec, Prod.mk.sizeOf_spec] at this ⊢ <;>
        omega
    · cases patch with
      | none => cases h
      | some change =>
        obtain rfl := List.mem_singleton.mp h
        simp only [assign.sizeOf_spec, Option.some.sizeOf_spec]
        omega

/-! ### Occurrences -/

/-- An expression contains another one, wherever it stands. -/
inductive Contains : Expr → Expr → Prop
  | here {e : Expr} : Contains e e
  | inside {position : Position} {e inner : Expr} {part : Part} :
      part ∈ e.parts position → Contains part.expression inner → Contains e inner

/-- An expression in one position contains another one, in the position that follows. -/
inductive Occurs : Position → Expr → Position → Expr → Prop
  | here {position : Position} {e : Expr} : Occurs position e position e
  | inside {position position' : Position} {e inner : Expr} {part : Part} :
      part ∈ e.parts position → Occurs part.position part.expression position' inner →
      Occurs position e position' inner

end Expr

end TransitionRules
