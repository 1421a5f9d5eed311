/-
TransitionRules/Proofs/Expr/Equality.lean

Two comparisons that agree.  Documents are compared by value where runs compare objects, and run-time
values are compared by the operator of expressions.  The two are written apart from each other, over
numbers of different forms: a document has one kind of integer, a value has signed and unsigned words,
and the operator takes doubles that lie close together for equal.

On documents without doubles both comparisons are equality (`equal_ofJson`,
`Json.sameValue_iff_eq`).  So a condition can ask with `!=` whether a field has changed
(`Context.changed_iff_ne`), except that a field that is missing reads as null.

Main result: `equality_agrees`.
-/
import TransitionRules.Expr.Eval
import TransitionRules.Proofs.Budgeted
import TransitionRules.Proofs.Json.FloatFree
import TransitionRules.Proofs.Value.Fields
import TransitionRules.Proofs.Value.Integers

namespace TransitionRules

namespace Value

/-! ### Integers -/

variable {n m : Int}

/-- Words are equal if they are the same integer, whatever their form. -/
theorem equal_of_integer? {first second : Value} (hfirst : first.integer? = some n)
    (hsecond : second.integer? = some m) : first.equal second = (n == m) := by
  cases first with
  | int a =>
    cases hfirst
    cases second with
    | int b =>
      cases hsecond
      show (a == b) = (a.toInt == b.toInt)
      rw [Bool.eq_iff_iff, beq_iff_eq, beq_iff_eq, Int64.toInt_inj]
    | uint b =>
      cases hsecond
      rfl
    | _ => cases hsecond
  | uint a =>
    cases hfirst
    cases second with
    | int b | uint b =>
      cases hsecond
      rfl
    | _ => cases hsecond
  | _ => cases hfirst

/-- A word equals nothing that is no number. -/
theorem equal_integer?_of_other {first other : Value} (hfirst : first.integer? = some n)
    (hint : other.kind ≠ .int) (hfloat : other.kind ≠ .float) :
    first.equal other = false ∧ other.equal first = false := by
  cases first with
  | int a | uint a =>
    cases other with
    | int b | uint b => exact absurd rfl hint
    | float x => exact absurd rfl hfloat
    | _ => exact ⟨rfl, rfl⟩
  | _ => cases hfirst

theorem equal_ofInteger_of_other {other : Value} (hint : other.kind ≠ .int)
    (hfloat : other.kind ≠ .float) (low : -0x8000000000000000 ≤ n)
    (high : n < 0x10000000000000000) : other.equal (ofInteger n) = false :=
  (equal_integer?_of_other (integer?_ofInteger low high) hint hfloat).2

/-! ### Lists and maps -/

/-- Lists of values are compared like lists of documents, if their items are. -/
theorem equalItems_ofJsonItems {items others : List Json}
    (hothers : ∀ other ∈ others, other.FloatFree)
    (hitems : ∀ item ∈ items, ∀ {other : Json}, other.FloatFree →
      (ofJson item).equal (ofJson other) = item.sameValue other) :
    equalItems (ofJsonItems items) (ofJsonItems others) = Json.sameItems items others := by
  induction items generalizing others with
  | nil => cases others <;> rfl
  | cons item rest ih =>
    cases others with
    | nil => rfl
    | cons other others =>
      rw [List.forall_mem_cons] at hothers hitems
      rw [ofJsonItems, ofJsonItems, equalItems, Json.sameItems, hitems.1 hothers.1,
        ih hothers.2 hitems.2]

/-- Maps of values are compared like objects, if their fields are. -/
theorem equalFields_ofJsonFields {low : Option String} {fields : FieldsAfter Json low}
    {others : Object} (hothers : others.FloatFree)
    (hfields : ∀ name value, fields.get? name = some value → ∀ {other : Json}, other.FloatFree →
      (ofJson value).equal (ofJson other) = value.sameValue other) :
    equalFields (ofJsonFields fields) (ofJsonFields others) = Json.sameFields fields others := by
  induction fields with
  | nil => rfl
  | cons name after value rest ih =>
    obtain ⟨hvalue, hrest⟩ := FieldsAfter.forall_get?_cons_iff.mp hfields
    rw [ofJsonFields, equalFields, Json.sameFields, get?_ofJsonFields, ih hrest]
    congr 1
    rcases hother : others.get? name with - | other
    · rfl
    · exact hvalue (hothers name other hother)

/-! ### Documents as values -/

variable {first second : Json}

/-- On documents without doubles, the operator compares values as documents are compared. -/
theorem equal_ofJson (hfirst : first.FloatFree) (hsecond : second.FloatFree) :
    (ofJson first).equal (ofJson second) = first.sameValue second := by
  induction hfirst generalizing second with
  | null =>
    cases hsecond with
    | int m low high => exact equal_ofInteger_of_other (by nofun) (by nofun) low high
    | _ => rfl
  | bool b =>
    cases hsecond with
    | int m low high => exact equal_ofInteger_of_other (by nofun) (by nofun) low high
    | _ => rfl
  | int n low high =>
    have hinteger := integer?_ofInteger low high
    cases hsecond with
    | int m low' high' => exact equal_of_integer? hinteger (integer?_ofInteger low' high')
    | _ => exact (equal_integer?_of_other hinteger (by nofun) (by nofun)).1
  | string s =>
    cases hsecond with
    | int m low high => exact equal_ofInteger_of_other (by nofun) (by nofun) low high
    | _ => rfl
  | array hitems ih =>
    cases hsecond with
    | int m low high => exact equal_ofInteger_of_other (by nofun) (by nofun) low high
    | array hothers => exact equalItems_ofJsonItems hothers ih
    | _ => rfl
  | @object fields hfields ih =>
    cases hsecond with
    | int m low high => exact equal_ofInteger_of_other (by nofun) (by nofun) low high
    | @object others hothers =>
      show ((ofJsonFields fields).size == (ofJsonFields others).size &&
        equalFields (ofJsonFields fields) (ofJsonFields others)) = _
      rw [size_ofJsonFields, size_ofJsonFields, equalFields_ofJsonFields hothers ih]
      rfl
    | _ => rfl

end Value

/-! ### Fields that have changed -/

variable {before next : Object}

/-- Without doubles, a field has changed if it is not the same, present or missing. -/
theorem Context.changed_iff_ne (hbefore : before.FloatFree) (hnext : next.FloatFree)
    (field : String) :
    Context.changed ⟨before, next⟩ field = true ↔ before.get? field ≠ next.get? field := by
  rw [Context.changed]
  rcases hfirst : before.get? field with - | first
  · rcases hsecond : next.get? field with - | second
    · simp
    · simp
  · rcases hsecond : next.get? field with - | second
    · simp
    · have hsame := Json.sameValue_iff_eq (hbefore field first hfirst) (hnext field second hsecond)
      rw [Bool.not_eq_true', ne_eq, Option.some.injEq, ← hsame, Bool.not_eq_true]

/-- Two fields differ if their values differ, where a missing field counts as null, or if one of them
is missing and the other one is null. -/
theorem Json.field_ne_iff {first second : Option Json} :
    first ≠ second ↔ first.getD .null ≠ second.getD .null ∨
      (first = some .null ∧ second = none) ∨ (first = none ∧ second = some .null) := by
  rcases first with - | first
  · rcases second with - | second
    · simp
    · simp [eq_comm, em']
  · rcases second with - | second
    · simp [em']
    · simp

namespace Expr

/-- The condition that a field is not the same before and after. -/
def differs (field : String) : Expr :=
  .binary .ne (.field (.ident "before") field) (.field (.ident "next") field)

/-- Without doubles, the condition says whether the field's values differ, where a missing field counts
as null. -/
theorem differs_ends (hbefore : before.FloatFree) (hnext : next.FloatFree) (field : String)
    (environment : Environment) :
    ∃ answer, ((differs field).eval (.condition ⟨before, next⟩ environment)).Ends
        (.ok (.bool answer)) ∧
      (answer = true ↔ (before.get? field).getD .null ≠ (next.get? field).getD .null) := by
  let left := ((Value.ofJsonFields before).get? field).getD .null
  let right := ((Value.ofJsonFields next).get? field).getD .null
  refine ⟨!left.equal right, ⟨0, rfl⟩, ?_⟩
  have hleft := hbefore.getD_get? field
  have hright := hnext.getD_get? field
  have hequal : left.equal right =
      ((before.get? field).getD .null).sameValue ((next.get? field).getD .null) := by
    show Value.equal (((Value.ofJsonFields before).get? field).getD .null)
      (((Value.ofJsonFields next).get? field).getD .null) = _
    rw [Value.getD_get?_ofJsonFields, Value.getD_get?_ofJsonFields, Value.equal_ofJson hleft hright]
  rw [hequal, Bool.not_eq_true', ne_eq, ← Json.sameValue_iff_eq hleft hright, Bool.not_eq_true]

end Expr

/-- **The comparisons agree.**  On documents without doubles, equality by value, the operator `==` on
the documents as values, and equality give the same answer.  So, for objects without doubles, a field
has changed exactly if the condition that it is not the same before and after holds, or if one of the
objects lacks the field and it is null in the other. -/
theorem equality_agrees :
    (∀ first second : Json, first.FloatFree → second.FloatFree →
      ∃ same, first.sameValue second = same ∧
        BinaryOp.eq.apply (.ofJson first) (.ofJson second) = .ok (.bool same) ∧
        (same = true ↔ first = second)) ∧
    ∀ before next : Object, before.FloatFree → next.FloatFree →
      ∀ (field : String) (environment : Environment),
      ∃ answer, ((Expr.differs field).eval (.condition ⟨before, next⟩ environment)).Ends
          (.ok (.bool answer)) ∧
        (Context.changed ⟨before, next⟩ field = true ↔ answer = true ∨
          (before.get? field = some .null ∧ next.get? field = none) ∨
          (before.get? field = none ∧ next.get? field = some .null)) := by
  constructor
  · intro first second hfirst hsecond
    refine ⟨first.sameValue second, rfl, ?_, Json.sameValue_iff_eq hfirst hsecond⟩
    rw [BinaryOp.apply, Value.equal_ofJson hfirst hsecond]
  · intro before next hbefore hnext field environment
    obtain ⟨answer, hend, hanswer⟩ := Expr.differs_ends hbefore hnext field environment
    refine ⟨answer, hend, ?_⟩
    rw [Context.changed_iff_ne hbefore hnext, Json.field_ne_iff, hanswer]

/-- The largest integer of a document, in a list. -/
def largest : Json := .array [.number (.int 0xFFFFFFFFFFFFFFFF (by decide) (by decide))]

/-- The integer with the same bits, signed. -/
def minusOne : Json := .array [.number (.int (-1) (by decide) (by decide))]

/-- An object with a field that is null. -/
def unnoted : Object := FieldsAfter.nil.insert "note" .null

/-- Integers with the same bits are different, and so are a null and a missing field, although the
condition does not see that. -/
theorem equality_agrees_unnoted :
    largest.FloatFree ∧ minusOne.FloatFree ∧ unnoted.FloatFree ∧ Object.FloatFree .nil ∧
      BinaryOp.eq.apply (.ofJson largest) (.ofJson minusOne) = .ok (.bool false) ∧
      largest ≠ minusOne ∧
      ((Expr.differs "note").eval (.condition ⟨unnoted, .nil⟩ .nil)).Ends (.ok (.bool false)) ∧
      Context.changed ⟨unnoted, .nil⟩ "note" = true := by
  have hlargest : largest.FloatFree := .array (List.forall_mem_singleton.mpr (.int _ _ _))
  have hminusOne : minusOne.FloatFree := .array (List.forall_mem_singleton.mpr (.int _ _ _))
  have hunnoted : unnoted.FloatFree := Object.floatFree_nil.insert "note" .null
  obtain ⟨hdocuments, hobjects⟩ := equality_agrees
  obtain ⟨same, hvalue, hoperator, hsame⟩ := hdocuments largest minusOne hlargest hminusOne
  obtain ⟨answer, hend, hchanged⟩ := hobjects unnoted .nil hunnoted Object.floatFree_nil "note" .nil
  have hdifferent : largest.sameValue minusOne = false := rfl
  obtain rfl : same = false := hvalue.symm.trans hdifferent
  obtain rfl : answer = false := by
    cases hend.unique ⟨0, rfl⟩
    rfl
  exact ⟨hlargest, hminusOne, hunnoted, Object.floatFree_nil, hoperator,
    fun heq => Bool.false_ne_true (hsame.mpr heq), hend, hchanged.mpr (.inr (.inl ⟨rfl, rfl⟩))⟩

end TransitionRules
