/-
TransitionRules/Proofs/Expr/ArrayGrammar.lean

The grammar of expressions written as arrays.  `Grammatical` says which documents are expressions, one
rule for each kind of operator, and does not ask how they are read.  `Offends` says what is wrong with a
document by itself, and `Subexpression` which parts of a document are read as expressions: all operands
but that of `literal`.

Reading accepts exactly the grammar.  What is read is grammatical (`grammatical_of_ofArrays`), and what
is rejected has a subexpression that offends (`offends_of_ofArrays`); the two exclude each other, since
no part of a grammatical document offends (`Grammatical.subexpression`, `Offends.not_grammatical`).  So
completeness needs no induction of its own, and an error in any subexpression rejects the whole.

Main result: `ofArrays_accepts_grammar`.
-/
import TransitionRules.Expr.ArraySyntax
import TransitionRules.Proofs.Json.Parts
import TransitionRules.Proofs.Steps

namespace TransitionRules.Expr

variable {accepts accepts' : Json → Prop} {name : String} {operands : List Json}
variable {data inner : Json} {e : Expr} {fault : SyntaxFault}

/-! ### The grammar -/

/-- The names of the operators with two operands. -/
def binaryNames : List String :=
  ["==", "!=", "<", "<=", ">", ">=", "+", "-", "*", "/", "%", "contains", "starts-with",
    "ends-with", "matches", "in"]

/-- How many operands a name takes, if it does not take any number of them. -/
def operandCount? (name : String) : Option Nat :=
  if name ∈ binaryNames then some 2
  else if name ∈ ["!", "not", "get", "literal"] then some 1
  else if name = "if" then some 3
  else none

/-- The operands fit the name, where some documents are accepted as expressions. -/
inductive OperandsFit (accepts : Json → Prop) : String → List Json → Prop
  | binary {name : String} {left right : Json} (hname : name ∈ binaryNames)
      (hleft : accepts left) (hright : accepts right) : OperandsFit accepts name [left, right]
  | minus {operand : Json} (hoperand : accepts operand) : OperandsFit accepts "-" [operand]
  | not {name : String} {operand : Json} (hname : name = "!" ∨ name = "not")
      (hoperand : accepts operand) : OperandsFit accepts name [operand]
  | conditional {test yes no : Json} (htest : accepts test) (hyes : accepts yes)
      (hno : accepts no) : OperandsFit accepts "if" [test, yes, no]
  /-- The operand of `get` is a path and no expression. -/
  | get {path : String} {e : Expr} (hpath : ofPath path = .ok e) :
      OperandsFit accepts "get" [.string path]
  /-- The operand of `literal` may be any document. -/
  | literal (document : Json) : OperandsFit accepts "literal" [document]
  | other {name : String} {operands : List Json} (hname : operandCount? name = none)
      (hoperands : ∀ operand ∈ operands, accepts operand) : OperandsFit accepts name operands

/-- The document is an expression. -/
inductive Grammatical : Json → Prop
  | null : Grammatical .null
  | bool (b : Bool) : Grammatical (.bool b)
  | number (n : Number) : Grammatical (.number n)
  | string (s : String) : Grammatical (.string s)
  | empty : Grammatical (.array [])
  | object {fields : Object}
      (hfields : ∀ name value, fields.get? name = some value → Grammatical value) :
      Grammatical (.object fields)
  | operator {name : String} {operands : List Json}
      (hfit : OperandsFit Grammatical name operands) :
      Grammatical (.array (.string name :: operands))

/-- A document contains another one as an expression. -/
inductive Subexpression : Json → Json → Prop
  | here {data : Json} : Subexpression data data
  | operand {name : String} {operands : List Json} {operand inner : Json}
      (hname : name ≠ "literal") (hmem : operand ∈ operands) :
      Subexpression operand inner → Subexpression (.array (.string name :: operands)) inner
  | field {fields : Object} {name : String} {value inner : Json}
      (hvalue : fields.get? name = some value) :
      Subexpression value inner → Subexpression (.object fields) inner

/-- What is wrong with a document by itself, whatever its parts are: the error is one of parsing. -/
inductive Offends : Json → RuleError → Prop
  | head {head : Json} {operands : List Json} (hhead : ∀ name, head ≠ .string name) :
      Offends (.array (head :: operands)) (.parse (.head head))
  | count {name : String} {operands : List Json} {count : Nat}
      (hcount : operandCount? name = some count) (hlength : operands.length ≠ count)
      (hminus : ¬ (name = "-" ∧ operands.length = 1)) :
      Offends (.array (.string name :: operands)) (.parse (.arity name count operands.length))
  | pathOperand {operand : Json} (hoperand : ∀ path, operand ≠ .string path) :
      Offends (.array [.string "get", operand]) (.parse (.pathOperand operand))
  | path {path : String} {fault : SyntaxFault} (hpath : ofPath path = .error fault) :
      Offends (.array [.string "get", .string path]) (.parse fault)

/-! ### Operands that fit -/

theorem operandCount?_of_mem (h : name ∈ binaryNames) : operandCount? name = some 2 := if_pos h

theorem OperandsFit.mono (h : OperandsFit accepts name operands)
    (himp : ∀ operand ∈ operands, accepts operand → accepts' operand) :
    OperandsFit accepts' name operands := by
  cases h with
  | binary hname hleft hright =>
    exact .binary hname (himp _ (.head _) hleft) (himp _ (.tail _ (.head _)) hright)
  | minus hoperand => exact .minus (himp _ (.head _) hoperand)
  | not hname hoperand => exact .not hname (himp _ (.head _) hoperand)
  | conditional htest hyes hno =>
    exact .conditional (himp _ (.head _) htest) (himp _ (.tail _ (.head _)) hyes)
      (himp _ (.tail _ (.tail _ (.head _))) hno)
  | get hpath => exact .get hpath
  | literal document => exact .literal document
  | other hname hoperands =>
    exact .other hname fun operand hmem => himp operand hmem (hoperands operand hmem)

/-- A name has the number of operands that it takes, only the minus sign may have one. -/
theorem OperandsFit.length_eq {count : Nat} (h : OperandsFit accepts name operands)
    (hcount : operandCount? name = some count) :
    operands.length = count ∨ name = "-" ∧ operands.length = 1 := by
  cases h with
  | binary hname _ _ =>
    rw [operandCount?_of_mem hname] at hcount
    exact .inl (Option.some.inj hcount)
  | minus _ => exact .inr ⟨rfl, rfl⟩
  | not hname _ =>
    rcases hname with rfl | rfl <;> exact .inl (Option.some.inj hcount)
  | conditional _ _ _ => exact .inl (Option.some.inj hcount)
  | get _ => exact .inl (Option.some.inj hcount)
  | literal _ => exact .inl (Option.some.inj hcount)
  | other hname _ =>
    rw [hname] at hcount
    cases hcount

/-- The operand of `get` is a path. -/
theorem OperandsFit.path_of_get {operand : Json} (h : OperandsFit accepts name [operand])
    (hget : name = "get") : ∃ path e, operand = .string path ∧ ofPath path = .ok e := by
  cases h with
  | minus _ => exact absurd hget (by decide)
  | not hname _ =>
    rcases hname with rfl | rfl <;> exact absurd hget (by decide)
  | get hpath => exact ⟨_, _, rfl, hpath⟩
  | literal _ => exact absurd hget (by decide)
  | other hname _ =>
    subst hget
    cases hname

/-- But for the operand of `literal`, every operand is an expression. -/
theorem OperandsFit.grammatical (h : OperandsFit Grammatical name operands)
    (hname : name ≠ "literal") : ∀ operand ∈ operands, Grammatical operand := by
  cases h with
  | binary _ hleft hright => simp [hleft, hright]
  | minus hoperand => simp [hoperand]
  | not _ hoperand => simp [hoperand]
  | conditional htest hyes hno => simp [htest, hyes, hno]
  | get _ => simp [Grammatical.string]
  | literal _ => exact absurd rfl hname
  | other _ hoperands => exact hoperands

/-! ### Grammatical documents have no offending parts -/

theorem Grammatical.subexpression (h : Grammatical data) (hinner : Subexpression data inner) :
    Grammatical inner := by
  induction hinner with
  | here => exact h
  | operand hname hmem _ ih =>
    cases h with
    | operator hfit => exact ih (hfit.grammatical hname _ hmem)
  | field hvalue _ ih =>
    cases h with
    | object hfields => exact ih (hfields _ _ hvalue)

theorem Offends.not_grammatical {error : RuleError} (h : Offends data error) :
    ¬ Grammatical data := by
  intro hdata
  cases h with
  | head hhead =>
    cases hdata with
    | operator _ => exact hhead _ rfl
  | count hcount hlength hminus =>
    cases hdata with
    | operator hfit => exact (hfit.length_eq hcount).elim hlength hminus
  | pathOperand hoperand =>
    cases hdata with
    | operator hfit =>
      obtain ⟨path, e, rfl, -⟩ := hfit.path_of_get rfl
      exact hoperand path rfl
  | path hpath =>
    cases hdata with
    | operator hfit =>
      obtain ⟨path, e, heq, hpath'⟩ := hfit.path_of_get rfl
      obtain rfl := Json.string.inj heq
      rw [hpath] at hpath'
      cases hpath'

/-! ### Names of operators -/

theorem binaryOp?_isSome_iff (name : String) :
    (binaryOp? name).isSome ↔ name ∈ binaryNames := by
  unfold binaryOp?
  split <;> simp_all [binaryNames]

theorem binaryOp?_eq_sub_iff (name : String) : binaryOp? name = some .sub ↔ name = "-" := by
  unfold binaryOp?
  split <;> simp_all

/-- The head that a name stands for, by the operands that it takes. -/
inductive Head.Named : String → Head → Prop
  | binary {name : String} {op : BinaryOp} (hop : binaryOp? name = some op) :
      Named name (.binary op)
  | not {name : String} (hname : name = "!" ∨ name = "not") : Named name .not
  | get : Named "get" .get
  | conditional : Named "if" .conditional
  | literal : Named "literal" .literal
  | other {name : String} {head : Head} (hname : operandCount? name = none)
      (hhead : head = .all ∨ head = .any ∨ head = .assign ∨ head = .call) : Named name head

theorem Head.named_ofName (name : String) : Named name (ofName name) := by
  unfold ofName
  split
  · next op hop => exact .binary hop
  · next hop =>
    have hbinary : name ∉ binaryNames := by
      rw [← binaryOp?_isSome_iff, hop]
      simp
    split
    · exact .other rfl (by simp)
    · exact .other rfl (by simp)
    · exact .not (by simp)
    · exact .not (by simp)
    · exact .get
    · exact .conditional
    · exact .literal
    · exact .other rfl (by simp)
    · refine .other ?_ (by simp)
      simp_all [operandCount?]

/-! ### Reading operands -/

theorem exists_ok_of_allExpressions {es : List Expr}
    (h : allExpressions (operandsOf operands) = .ok es) :
    ∀ operand ∈ operands, ∃ e, ofArrays operand = .ok e := by
  induction operands generalizing es with
  | nil => exact List.forall_mem_nil _
  | cons operand rest ih =>
    obtain ⟨e, he, h⟩ := bind_eq_ok.mp h
    obtain ⟨es', hrest, -⟩ := bind_eq_ok.mp h
    exact List.forall_mem_cons.mpr ⟨⟨e, he⟩, ih hrest⟩

theorem exists_error_of_allExpressions
    (h : allExpressions (operandsOf operands) = .error fault) :
    ∃ operand ∈ operands, ofArrays operand = .error fault := by
  induction operands with
  | nil => cases h
  | cons operand rest ih =>
    rcases bind_eq_error.mp h with hfault | ⟨e, -, h⟩
    · exact ⟨operand, .head _, hfault⟩
    · rcases bind_eq_error.mp h with hfault | ⟨es, -, h⟩
      · obtain ⟨later, hmem, hlater⟩ := ih hfault
        exact ⟨later, .tail _ hmem, hlater⟩
      · cases h

/-- Expressions as conditions and transforms by turns; one left over is a patch. -/
def pairUp : List Expr → List (Expr × Expr) × Option Expr
  | [] => ([], none)
  | [patch] => ([], some patch)
  | condition :: transform :: rest =>
    ((condition, transform) :: (pairUp rest).1, (pairUp rest).2)

/-- Rules and a patch are read like any other operands. -/
theorem ruleExpressions_eq_map (operands : List Operand) :
    ruleExpressions operands = (allExpressions operands).map pairUp := by
  induction operands using ruleExpressions.induct with
  | case1 => rfl
  | case2 patch =>
    rcases hpatch : patch.expression with fault | e <;>
      simp [ruleExpressions, allExpressions, hpatch, bind, Except.bind, pure, Except.pure,
        Except.map, pairUp]
  | case3 condition transform rest ih =>
    rcases hcondition : condition.expression with fault | e <;>
      rcases htransform : transform.expression with fault' | e' <;>
        rcases hrest : allExpressions rest with fault'' | es <;>
          simp [ruleExpressions, allExpressions, hcondition, htransform, hrest, ih, bind,
            Except.bind, pure, Except.pure, Except.map, pairUp]

/-- What a name and its operands are read as. -/
inductive Application (name : String) (operands : List Json) :
    Except SyntaxFault Expr → Prop
  /-- All operands are read, in their order. -/
  | reads (build : List Expr → Expr) (hname : name ≠ "literal")
      (hfit : ∀ {accepts : Json → Prop}, (∀ operand ∈ operands, accepts operand) →
        OperandsFit accepts name operands) :
      Application name operands ((allExpressions (operandsOf operands)).map build)
  /-- The operand is no expression. -/
  | takes (e : Expr) (hfit : ∀ accepts, OperandsFit accepts name operands) :
      Application name operands (.ok e)
  | offends {fault : SyntaxFault}
      (h : Offends (.array (.string name :: operands)) (.parse fault)) :
      Application name operands (.error fault)

theorem length_operandsOf (operands : List Json) :
    (operandsOf operands).length = operands.length := by
  induction operands with
  | nil => rfl
  | cons operand rest ih => exact congrArg (· + 1) ih

/-- A wrong number of operands offends. -/
theorem Application.of_count {head : Head} {count : Nat} (hcount : operandCount? name = some count)
    (hlength : operands.length ≠ count) (hminus : ¬ (name = "-" ∧ operands.length = 1))
    (herror : applied name head (operandsOf operands) =
      .error (.arity name count (operandsOf operands).length)) :
    Application name operands (applied name head (operandsOf operands)) := by
  rw [herror, length_operandsOf]
  exact .offends (.count hcount hlength hminus)

theorem application_binary {op : BinaryOp} (hop : binaryOp? name = some op) :
    Application name operands (applied name (.binary op) (operandsOf operands)) := by
  have hname : name ∈ binaryNames := by
    rw [← binaryOp?_isSome_iff, hop]
    rfl
  have hliteral : name ≠ "literal" := by
    rintro rfl
    simp [binaryNames] at hname
  have hcount : operandCount? name = some 2 := operandCount?_of_mem hname
  rcases operands with - | ⟨first, - | ⟨second, - | ⟨third, rest⟩⟩⟩
  · exact .of_count hcount (by simp) (by simp) rfl
  · by_cases hsub : op = .sub
    · -- the minus sign with one operand
      subst hsub
      obtain rfl := (binaryOp?_eq_sub_iff name).mp hop
      have hreads : applied "-" (.binary .sub) (operandsOf [first]) =
          (allExpressions (operandsOf [first])).map fun es => .unary .neg (es.headD .null) := by
        show (do return Expr.unary .neg (← ofArrays first)) = _
        rw [operandsOf, operandsOf, allExpressions]
        cases ofArrays first <;> rfl
      rw [hreads]
      exact .reads _ hliteral fun h => .minus (h first (.head _))
    · have hminus : name ≠ "-" := fun h => hsub (Option.some.inj
        (hop.symm.trans ((binaryOp?_eq_sub_iff name).mpr h)))
      refine .of_count hcount (by simp) (by simp [hminus]) ?_
      -- the equation for the minus sign stands before the one for all others
      cases op <;> first | rfl | exact absurd rfl hsub
  · have hreads : applied name (.binary op) (operandsOf [first, second]) =
        (allExpressions (operandsOf [first, second])).map fun es =>
          .binary op (es.headD .null) (es.tail.headD .null) := by
      show (do return Expr.binary op (← ofArrays first) (← ofArrays second)) = _
      rw [operandsOf, operandsOf, operandsOf, allExpressions, allExpressions]
      cases ofArrays first <;> cases ofArrays second <;> rfl
    rw [hreads]
    exact .reads _ hliteral fun h => .binary hname (h first (.head _)) (h second (.tail _ (.head _)))
  · exact .of_count hcount (by simp) (by simp) rfl

theorem application_not (hname : name = "!" ∨ name = "not") :
    Application name operands (applied name .not (operandsOf operands)) := by
  have hliteral : name ≠ "literal" := by
    rcases hname with rfl | rfl <;> decide
  have hminus : name ≠ "-" := by
    rcases hname with rfl | rfl <;> decide
  have hcount : operandCount? name = some 1 := by
    rcases hname with rfl | rfl <;> rfl
  rcases operands with - | ⟨first, - | ⟨second, rest⟩⟩
  · exact .of_count hcount (by simp) (by simp) rfl
  · have hreads : applied name .not (operandsOf [first]) =
        (allExpressions (operandsOf [first])).map fun es => .unary .not (es.headD .null) := by
      show (do return Expr.unary .not (← ofArrays first)) = _
      rw [operandsOf, operandsOf, allExpressions]
      cases ofArrays first <;> rfl
    rw [hreads]
    exact .reads _ hliteral fun h => .not hname (h first (.head _))
  · exact .of_count hcount (by simp) (by simp) rfl

theorem application_conditional :
    Application "if" operands (applied "if" .conditional (operandsOf operands)) := by
  have hcount : operandCount? "if" = some 3 := rfl
  rcases operands with - | ⟨test, - | ⟨yes, - | ⟨no, - | ⟨fourth, rest⟩⟩⟩⟩
  · exact .of_count hcount (by simp) (by simp) rfl
  · exact .of_count hcount (by simp) (by simp) rfl
  · exact .of_count hcount (by simp) (by simp) rfl
  · have hreads : applied "if" .conditional (operandsOf [test, yes, no]) =
        (allExpressions (operandsOf [test, yes, no])).map fun es =>
          .conditional (es.headD .null) (es.tail.headD .null) (es.tail.tail.headD .null) := by
      show (do return Expr.conditional (← ofArrays test) (← ofArrays yes) (← ofArrays no)) = _
      rw [operandsOf, operandsOf, operandsOf, operandsOf, allExpressions, allExpressions,
        allExpressions]
      cases ofArrays test <;> cases ofArrays yes <;> cases ofArrays no <;> rfl
    rw [hreads]
    exact .reads _ (by decide) fun h => .conditional (h test (.head _)) (h yes (.tail _ (.head _)))
      (h no (.tail _ (.tail _ (.head _))))
  · exact .of_count hcount (by simp) (by simp) rfl

theorem application_get : Application "get" operands (applied "get" .get (operandsOf operands)) := by
  have hcount : operandCount? "get" = some 1 := rfl
  rcases operands with - | ⟨first, - | ⟨second, rest⟩⟩
  · exact .of_count hcount (by simp) (by simp) rfl
  · cases first with
    | string path =>
      show Application "get" [.string path] (ofPath path)
      rcases hpath : ofPath path with fault | e
      · exact .offends (.path hpath)
      · exact .takes e fun _ => .get hpath
    | _ => exact .offends (.pathOperand fun path h => nomatch h)
  · refine .of_count hcount (by simp) (by simp) ?_
    cases first <;> rfl

theorem application_literal :
    Application "literal" operands (applied "literal" .literal (operandsOf operands)) := by
  have hcount : operandCount? "literal" = some 1 := rfl
  rcases operands with - | ⟨first, - | ⟨second, rest⟩⟩
  · exact .of_count hcount (by simp) (by simp) rfl
  · exact .takes _ fun _ => .literal first
  · exact .of_count hcount (by simp) (by simp) rfl

theorem application_other {head : Head} (hname : operandCount? name = none)
    (hhead : head = .all ∨ head = .any ∨ head = .assign ∨ head = .call) :
    Application name operands (applied name head (operandsOf operands)) := by
  have hliteral : name ≠ "literal" := by
    rintro rfl
    cases hname
  have hreads : ∃ build, applied name head (operandsOf operands) =
      (allExpressions (operandsOf operands)).map build := by
    rcases hhead with rfl | rfl | rfl | rfl
    · exact ⟨.all, rfl⟩
    · exact ⟨.any, rfl⟩
    · refine ⟨fun es => .assign (pairUp es).1 (pairUp es).2, ?_⟩
      show (do
        let parts ← ruleExpressions (operandsOf operands)
        return Expr.assign parts.1 parts.2) = _
      rw [ruleExpressions_eq_map]
      cases allExpressions (operandsOf operands) <;> rfl
    · exact ⟨.call name, rfl⟩
  obtain ⟨build, hbuild⟩ := hreads
  rw [hbuild]
  exact .reads build hliteral fun h => .other hname h

/-- An array with a name is read in one of three ways, whatever the name is. -/
theorem application_ofArrays (name : String) (operands : List Json) :
    Application name operands (ofArrays (.array (.string name :: operands))) := by
  show Application name operands (applied name (Head.ofName name) (operandsOf operands))
  have hhead := Head.named_ofName name
  generalize Head.ofName name = head at hhead
  cases hhead with
  | binary hop => exact application_binary hop
  | not hname => exact application_not hname
  | get => exact application_get
  | conditional => exact application_conditional
  | literal => exact application_literal
  | other hname hhead => exact application_other hname hhead

/-! ### Reading documents -/

theorem exists_ok_of_entriesOfArrays {low : Option String} {fields : FieldsAfter Json low}
    {entries : List (String × Expr)} (h : entriesOfArrays fields = .ok entries) :
    ∀ name value, fields.get? name = some value → ∃ e, ofArrays value = .ok e := by
  induction fields generalizing entries with
  | nil => exact fun _ _ hvalue => nomatch hvalue
  | cons name after value rest ih =>
    obtain ⟨e, he, h⟩ := bind_eq_ok.mp h
    obtain ⟨later, hrest, -⟩ := bind_eq_ok.mp h
    exact FieldsAfter.forall_get?_cons_iff.mpr ⟨⟨e, he⟩, ih hrest⟩

theorem exists_error_of_entriesOfArrays {low : Option String} {fields : FieldsAfter Json low}
    (h : entriesOfArrays fields = .error fault) :
    ∃ name value, fields.get? name = some value ∧ ofArrays value = .error fault := by
  induction fields with
  | nil => cases h
  | cons name after value rest ih =>
    rcases bind_eq_error.mp h with hfault | ⟨e, -, h⟩
    · exact ⟨name, value, by rw [FieldsAfter.get?_cons, if_pos rfl], hfault⟩
    · rcases bind_eq_error.mp h with hfault | ⟨entries, -, h⟩
      · obtain ⟨later, found, hfound, hlater⟩ := ih hfault
        exact ⟨later, found, FieldsAfter.get?_cons_of_get? hfound, hlater⟩
      · cases h

/-- What is read is grammatical. -/
theorem grammatical_of_ofArrays (h : ofArrays data = .ok e) : Grammatical data := by
  induction data generalizing e with
  | null => exact .null
  | bool b => exact .bool b
  | number n => exact .number n
  | string s => exact .string s
  | object fields ih =>
    obtain ⟨entries, hentries, -⟩ := bind_eq_ok.mp h
    refine .object fun name value hvalue => ?_
    obtain ⟨e, he⟩ := exists_ok_of_entriesOfArrays hentries name value hvalue
    exact ih name value hvalue he
  | array items ih =>
    rcases items with - | ⟨head, operands⟩
    · exact .empty
    · rcases head with - | b | n | name | inner | fields
      case string =>
        rw [List.forall_mem_cons] at ih
        have happlication := application_ofArrays name operands
        generalize ofArrays (.array (.string name :: operands)) = result at h happlication
        cases happlication with
        | reads build _ hfit =>
          rcases hes : allExpressions (operandsOf operands) with fault | es
          · rw [hes] at h
            cases h
          · refine .operator (hfit fun operand hmem => ?_)
            obtain ⟨e', he'⟩ := exists_ok_of_allExpressions hes operand hmem
            exact ih.2 operand hmem he'
        | takes _ hfit => exact .operator (hfit Grammatical)
        | offends _ => cases h
      -- no other head is accepted
      all_goals cases h

/-- What is rejected has a subexpression that offends, for which it is rejected. -/
theorem offends_of_ofArrays (h : ofArrays data = .error fault) :
    ∃ inner, Subexpression data inner ∧ Offends inner (.parse fault) := by
  induction data with
  | null => cases h
  | bool b => cases h
  | number n => cases h
  | string s => cases h
  | object fields ih =>
    rcases bind_eq_error.mp h with hfault | ⟨entries, -, h⟩
    · obtain ⟨name, value, hvalue, hfault⟩ := exists_error_of_entriesOfArrays hfault
      obtain ⟨inner, hinner, hoffends⟩ := ih name value hvalue hfault
      exact ⟨inner, .field hvalue hinner, hoffends⟩
    · cases h
  | array items ih =>
    rcases items with - | ⟨head, operands⟩
    · cases h
    · rcases head with - | b | n | name | inner | fields
      case string =>
        rw [List.forall_mem_cons] at ih
        have happlication := application_ofArrays name operands
        generalize ofArrays (.array (.string name :: operands)) = result at h happlication
        cases happlication with
        | reads build hname _ =>
          rcases hes : allExpressions (operandsOf operands) with fault' | es
          · rw [hes] at h
            cases h
            obtain ⟨operand, hmem, hfault⟩ := exists_error_of_allExpressions hes
            obtain ⟨inner, hinner, hoffends⟩ := ih.2 operand hmem hfault
            exact ⟨inner, .operand hname hmem hinner, hoffends⟩
          · rw [hes] at h
            cases h
        | takes _ _ => cases h
        | offends hoffends =>
          cases h
          exact ⟨_, .here, hoffends⟩
      all_goals
        cases h
        exact ⟨_, .here, .head fun name hname => nomatch hname⟩

/-- A grammatical document is read. -/
theorem exists_ofArrays_of_grammatical (h : Grammatical data) : ∃ e, ofArrays data = .ok e := by
  rcases hread : ofArrays data with fault | e
  · -- otherwise some part of it would offend
    obtain ⟨inner, hinner, hoffends⟩ := offends_of_ofArrays hread
    exact absurd (h.subexpression hinner) hoffends.not_grammatical
  · exact ⟨e, rfl⟩

/-- **Reading accepts exactly the grammar.**  A document is read as an expression if and only if it is
grammatical.  It is rejected with a parse error, which is that of one of its subexpressions; and if one
of its subexpressions is rejected, so is the whole. -/
theorem ofArrays_accepts_grammar (data : Json) :
    ((∃ e, ofArrays data = .ok e) ↔ Grammatical data) ∧
      (∀ fault, ofArrays data = .error fault →
        ∃ inner, Subexpression data inner ∧ Offends inner (.parse fault)) ∧
      ∀ inner, Subexpression data inner → (∃ fault, ofArrays inner = .error fault) →
        ∃ fault, ofArrays data = .error fault := by
  have haccepts : ∀ data, (∃ e, ofArrays data = .ok e) ↔ Grammatical data := fun data =>
    ⟨fun ⟨e, he⟩ => grammatical_of_ofArrays he, exists_ofArrays_of_grammatical⟩
  refine ⟨haccepts data, fun fault h => offends_of_ofArrays h, ?_⟩
  rintro inner hinner ⟨fault, hfault⟩
  rcases hread : ofArrays data with fault' | e
  · exact ⟨fault', rfl⟩
  · have hdata : Grammatical data := grammatical_of_ofArrays hread
    obtain ⟨e', he'⟩ := (haccepts inner).mpr (hdata.subexpression hinner)
    rw [hfault] at he'
    cases he'

/-- A comparison that lacks an operand. -/
def halfComparison : Json := .array [.string "==", .bool true]

/-- A junction over the comparison as a literal. -/
def quotedHalf : Json := .array [.string "all", .array [.string "literal", halfComparison]]

/-- A junction over the comparison as an operand of another operator. -/
def negatedHalf : Json := .array [.string "all", .null, .array [.string "not", halfComparison]]

/-- The comparison is accepted where it is a literal, and spoils the whole where it is an operand. -/
theorem ofArrays_accepts_grammar_half :
    Grammatical quotedHalf ∧ Subexpression negatedHalf halfComparison ∧
      ∃ fault, ofArrays negatedHalf = .error fault ∧
        ∃ inner, Subexpression negatedHalf inner ∧ Offends inner (.parse fault) := by
  have hquoted : ∃ e, ofArrays quotedHalf = .ok e := ⟨_, rfl⟩
  have hhalf : ∃ fault, ofArrays halfComparison = .error fault := ⟨_, rfl⟩
  have hinner : Subexpression negatedHalf halfComparison :=
    .operand (by decide) (.tail _ (.head _)) (.operand (by decide) (.head _) .here)
  obtain ⟨fault, hfault⟩ := (ofArrays_accepts_grammar negatedHalf).2.2 _ hinner hhalf
  exact ⟨(ofArrays_accepts_grammar quotedHalf).1.mp hquoted, hinner, fault, hfault,
    (ofArrays_accepts_grammar negatedHalf).2.1 fault hfault⟩

end TransitionRules.Expr
