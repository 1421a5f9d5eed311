/-
TransitionRules/Proofs/Expr/Mentions.lean

What an expression mentions of its scope.  The value of an expression depends on `next`, on the
added functions that it calls, and on `before` if it reads it.

* `Calls e function` says that `e` calls the function somewhere, in the rules of its assignments too,
  because these are evaluated with the same functions.
* `ReadsBefore e` says that `e` may read the variable `before` of its own scope.  The rules of an
  assignment do not count, because they are evaluated in scopes of their own: their `before` is the
  outer `next`, or there is none.

Main results: scopes that agree on what an expression mentions give it the same outcome
(`eval_congr`), so that an inline rule never sees the outer `before`; simplification adds no call
(`Calls.of_simplify`); and declarations of which no expression calls a function compile to the same
rules with it and without it (`compileAll_congr`).
-/
import TransitionRules.Proofs.Expr.NormalForm
import TransitionRules.Rule.Compile

namespace TransitionRules

namespace Expr

/-! ### Calls and reads -/

/-- The expression calls the function, in itself or in the rules of its assignments. -/
def Calls (e : Expr) (function : String) : Prop :=
  ∃ arguments, e.Contains (.call function arguments)

/-- The expression may read the variable `before` of its scope: it names the variable, or it calls
`get`, which takes the name of a variable from its argument. -/
inductive ReadsBefore : Expr → Prop
  | variable : ReadsBefore (.ident "before")
  | get (arguments : List Expr) : ReadsBefore (.call "get" arguments)
  | inside {position : Position} {e : Expr} {part : Part} :
      part ∈ e.parts position → part.setting = .outer → ReadsBefore part.expression → ReadsBefore e

variable {e : Expr} {function : String} {position : Position} {part : Part}

theorem Calls.here {arguments : List Expr} : (Expr.call function arguments).Calls function :=
  ⟨arguments, .here⟩

theorem Calls.inside (hpart : part ∈ e.parts position) (h : part.expression.Calls function) :
    e.Calls function := by
  obtain ⟨arguments, hcontains⟩ := h
  exact ⟨arguments, .inside hpart hcontains⟩

/-- What calls a function is a call of it, or has a part that calls it. -/
theorem Calls.cases (h : e.Calls function) :
    (∃ arguments, e = .call function arguments) ∨
      ∃ position, ∃ part ∈ e.parts position, part.expression.Calls function := by
  obtain ⟨arguments, hcontains⟩ := h
  cases hcontains with
  | here => exact .inl ⟨arguments, rfl⟩
  | inside hpart hinside => exact .inr ⟨_, _, hpart, arguments, hinside⟩

/-- Of an assignment, only the patch is evaluated where the assignment stands. -/
theorem readsBefore_assign_iff {rules : List (Expr × Expr)} {patch : Option Expr} :
    (Expr.assign rules patch).ReadsBefore ↔ ∃ change ∈ patch, change.ReadsBefore := by
  constructor
  · intro h
    cases h with
    | inside hpart houter hreads =>
      rcases List.mem_append.mp hpart with hrule | hpatch
      · obtain ⟨rule, -, hrule⟩ := List.mem_flatMap.mp hrule
        simp only [List.mem_cons, List.not_mem_nil, or_false] at hrule
        -- the condition and the transform of a rule both have a scope of their own
        rcases hrule with rfl | rfl
        · cases houter
        · cases houter
      · obtain ⟨change, hchange, rfl⟩ := List.mem_map.mp hpatch
        exact ⟨change, Option.mem_toList.mp hchange, hreads⟩
  · rintro ⟨change, hchange, hreads⟩
    have hpart : ⟨.value, change, .outer⟩ ∈ (Expr.assign rules patch).parts .value :=
      patch_mem_parts hchange
    exact .inside hpart rfl hreads

end Expr

/-! ### Scopes that agree on what an expression mentions -/

/-- The two scopes have the same `next`, the same added functions as far as the expression calls
them, and the same `before`, if the expression may read it. -/
structure Scope.AgreeOn (e : Expr) (first second : Scope) : Prop where
  next : first.next = second.next
  functions : ∀ function, e.Calls function →
    first.environment.get? function = second.environment.get? function
  before : first.before = second.before ∨ ¬ e.ReadsBefore

namespace Scope.AgreeOn

variable {e : Expr} {first second : Scope}

/-- A part that is evaluated where the whole is. -/
theorem part {part : Expr.Part} (h : AgreeOn e first second) (hpart : part ∈ e.parts .value)
    (houter : part.setting = .outer) : AgreeOn part.expression first second where
  next := h.next
  functions function hcalls := h.functions function (hcalls.inside hpart)
  before := h.before.imp_right fun hnot hreads => hnot (.inside hpart houter hreads)

/-- A part in any context, the same for both: there the two scopes differ in their functions alone. -/
theorem inCondition {part : Expr.Part} (h : AgreeOn e first second) (hpart : part ∈ e.parts .value)
    (context : Context) : AgreeOn part.expression (.condition context first.environment)
      (.condition context second.environment) where
  next := rfl
  functions function hcalls := h.functions function (hcalls.inside hpart)
  before := .inl rfl

/-- The same for a part that transforms an object. -/
theorem inTransform {part : Expr.Part} (h : AgreeOn e first second) (hpart : part ∈ e.parts .value)
    (object : Object) : AgreeOn part.expression (.transform object first.environment)
      (.transform object second.environment) where
  next := rfl
  functions function hcalls := h.functions function (hcalls.inside hpart)
  before := .inl rfl

end Scope.AgreeOn

/-! ### Variables and functions -/

variable {first second : Scope}

/-- Only the variable `before` tells scopes with the same `next` apart. -/
theorem Scope.variableValue_congr {name : String} (hnext : first.next = second.next)
    (hbefore : name = "before" → first.before = second.before) :
    first.variableValue name = second.variableValue name := by
  unfold variableValue
  split
  · rw [hnext]
  · rw [hbefore rfl]
  · rfl

namespace Builtin

theorem name_of_ofName? {name : String} {function : Builtin} (h : ofName? name = some function) :
    function.name = name := by
  unfold ofName? at h
  split at h <;> cases h <;> rfl

theorem target_congr (hnext : first.next = second.next) (function : Builtin)
    (object : Option Value) : target function first object = target function second object := by
  unfold target
  rw [hnext]

/-- Only `get` tells scopes with the same `next` apart. -/
theorem call_congr {function : Builtin} (hnext : first.next = second.next)
    (hbefore : function = .get → first.before = second.before) (arguments : List Value) :
    function.call first arguments = function.call second arguments := by
  unfold call
  split
  case h_7 path =>
    have hvariable : ∀ name, first.variableValue name = second.variableValue name :=
      fun name => Scope.variableValue_congr hnext fun _ => hbefore rfl
    simp only [atPath, hvariable]
  all_goals simp only [removeField, setField, mergeFields, target_congr hnext]

end Builtin

namespace Expr

theorem callFunction_congr {function : String} {arguments : List Expr}
    (h : Scope.AgreeOn (.call function arguments) first second) (values : List Value) :
    callFunction function first values = callFunction function second values := by
  unfold callFunction
  rw [h.functions function .here]
  split
  · rfl
  · split
    · next builtin hname =>
      apply Builtin.call_congr h.next
      rintro rfl
      obtain rfl := Builtin.name_of_ofName? hname
      -- a call of `get` reads `before`, so the scopes have the same one
      exact h.before.resolve_right (not_not_intro (.get arguments))
    · rfl

/-! ### Lists of parts -/

theorem evalItems_congr {items : List Expr}
    (h : ∀ item ∈ items, item.eval first = item.eval second) :
    evalItems items first = evalItems items second := by
  induction items with
  | nil => rfl
  | cons item rest ih =>
    obtain ⟨hitem, hrest⟩ := List.forall_mem_cons.mp h
    rw [evalItems, evalItems, hitem, ih hrest]

theorem evalEntries_congr {entries : List (String × Expr)}
    (h : ∀ entry ∈ entries, entry.2.eval first = entry.2.eval second) (done : FieldMap Value) :
    evalEntries entries done first = evalEntries entries done second := by
  induction entries generalizing done with
  | nil => rfl
  | cons entry rest ih =>
    obtain ⟨hentry, hrest⟩ := List.forall_mem_cons.mp h
    rw [evalEntries, evalEntries, hentry]
    simp only [ih hrest]

theorem evalJunction_congr {operands : List Expr}
    (h : ∀ operand ∈ operands, operand.eval first = operand.eval second) (neutral : Bool) :
    evalJunction neutral operands first = evalJunction neutral operands second := by
  induction operands with
  | nil => rfl
  | cons operand rest ih =>
    obtain ⟨hoperand, hrest⟩ := List.forall_mem_cons.mp h
    rw [evalJunction, evalJunction, hoperand, ih hrest]

/-- Inline rules are the same with other functions, if their expressions are in every scope that such
a rule makes. -/
theorem inlineRules_congr {rules : List (Expr × Expr)} {environment environment' : Environment}
    (h : ∀ rule ∈ rules,
      (∀ context, rule.1.eval (.condition context environment) =
        rule.1.eval (.condition context environment')) ∧
      ∀ object, rule.2.eval (.transform object environment) =
        rule.2.eval (.transform object environment')) (place : Nat) :
    inlineRules place rules environment = inlineRules place rules environment' := by
  induction rules generalizing place with
  | nil => rfl
  | cons rule rest ih =>
    obtain ⟨⟨hcondition, htransform⟩, hrest⟩ := List.forall_mem_cons.mp h
    rw [inlineRules, inlineRules, ih hrest]
    simp only [hcondition, htransform]

/-! ### The whole expression -/

/-- Scopes that agree on what an expression mentions give it the same outcome. -/
theorem eval_congr {e : Expr} (h : Scope.AgreeOn e first second) : e.eval first = e.eval second := by
  induction e generalizing first second with
  | null | bool _ | int _ | float _ | string _ => rfl
  | list items ih =>
    have hitems := evalItems_congr fun item hmem =>
      ih item hmem (h.part (List.mem_map_of_mem hmem) rfl)
    rw [eval, eval, hitems]
  | map entries ih =>
    have hentries := evalEntries_congr fun entry hmem =>
      ih entry hmem (h.part (List.mem_map_of_mem hmem) rfl)
    rw [eval, eval, hentries]
  | ident name =>
    have hvariable : first.variableValue name = second.variableValue name := by
      apply Scope.variableValue_congr h.next
      rintro rfl
      exact h.before.resolve_right (not_not_intro .variable)
    rw [eval, eval, hvariable]
  | field base name ih =>
    rw [eval, eval, ih (h.part (List.mem_singleton_self _) rfl)]
  | index base key ihbase ihkey =>
    rw [eval, eval, ihbase (h.part (.head _) rfl),
      ihkey (h.part (.tail _ (.head _)) rfl)]
  | unary op operand ih =>
    rw [eval, eval, ih (h.part (List.mem_singleton_self _) rfl)]
  | binary op left right ihleft ihright =>
    have hleft := ihleft (h.part (.head _) rfl)
    have hright := ihright (h.part (.tail _ (.head _)) rfl)
    cases op <;> simp only [eval, hleft, hright]
  | conditional test yes no ihtest ihyes ihno =>
    rw [eval, eval, ihtest (h.part (.head _) rfl),
      ihyes (h.part (.tail _ (.head _)) rfl),
      ihno (h.part (.tail _ (.tail _ (.head _))) rfl)]
  | call function arguments ih =>
    have harguments := evalItems_congr fun argument hmem =>
      ih argument hmem (h.part (List.mem_map_of_mem hmem) rfl)
    rw [eval, eval, harguments]
    simp only [callFunction_congr h]
  | all operands ih =>
    have hoperands := evalJunction_congr fun operand hmem =>
      ih operand hmem (h.part (List.mem_map_of_mem hmem) rfl)
    rw [eval, eval, evalAll_eq, evalAll_eq, hoperands]
  | any operands ih =>
    have hoperands := evalJunction_congr fun operand hmem =>
      ih operand hmem (h.part (List.mem_map_of_mem hmem) rfl)
    rw [eval, eval, evalAny_eq, evalAny_eq, hoperands]
  | assign rules patch ihrules ihpatch =>
    -- the rules are evaluated in scopes that they make, in which `before` is the same
    have hrules : inlineRules 0 rules first.environment = inlineRules 0 rules second.environment := by
      apply inlineRules_congr
      intro rule hmem
      obtain ⟨ihcondition, ihtransform⟩ := ihrules rule hmem
      exact ⟨fun context => ihcondition (h.inCondition (condition_mem_parts hmem) context),
        fun object => ihtransform (h.inTransform (transform_mem_parts hmem) object)⟩
    cases patch with
    | none => rw [eval, eval, hrules, h.next]
    | some change =>
      have hchange : change.eval first = change.eval second :=
        ihpatch change rfl (h.part (patch_mem_parts rfl) rfl)
      rw [eval, eval, hrules, h.next, hchange]

/-! ### Simplification adds no call -/

variable {e e' : Expr} {function : String}

theorem not_calls_of_parts (hhere : ∀ arguments, e ≠ .call function arguments)
    (hparts : ∀ position, ∀ part ∈ e.parts position, ¬ part.expression.Calls function) :
    ¬ e.Calls function := by
  intro hcalls
  obtain ⟨arguments, rfl⟩ | ⟨position, part, hpart, hinside⟩ := hcalls.cases
  · exact hhere arguments rfl
  · exact hparts position part hpart hinside

theorem not_calls_part {part : Part} (h : ¬ e.Calls function) (hpart : part ∈ e.parts .value) :
    ¬ part.expression.Calls function :=
  fun hcalls => h (hcalls.inside hpart)

theorem not_calls_of_literalValue? {v : Value} (h : e.literalValue? = some v) :
    ¬ e.Calls function := by
  cases e with
  | null | bool _ | int _ | float _ | string _ => exact not_calls_of_parts nofun nofun
  | _ => cases h

theorem not_calls_foldBinary {op : BinaryOp} {left right : Expr} (hleft : ¬ left.Calls function)
    (hright : ¬ right.Calls function) (h : foldBinary op left right = .ok e') :
    ¬ e'.Calls function := by
  rcases foldBinary_cases h with ⟨v, hv⟩ | ⟨-, rfl⟩
  · exact not_calls_of_literalValue? hv
  · exact not_calls_of_parts nofun fun _ =>
      List.forall_mem_cons.mpr ⟨hleft, List.forall_mem_singleton.mpr hright⟩

theorem not_calls_foldUnary {op : UnaryOp} {operand : Expr} (h : ¬ operand.Calls function) :
    ¬ (foldUnary op operand).Calls function := by
  unfold foldUnary
  split
  · exact not_calls_of_literalValue? rfl
  · exact not_calls_part h (List.mem_singleton_self _)
  · exact not_calls_of_literalValue? rfl
  · exact not_calls_of_literalValue? rfl
  · exact not_calls_of_parts nofun fun _ => List.forall_mem_singleton.mpr h

theorem not_calls_foldConditional {test yes no : Expr} (htest : ¬ test.Calls function)
    (hyes : ¬ yes.Calls function) (hno : ¬ no.Calls function) :
    ¬ (foldConditional test yes no).Calls function := by
  unfold foldConditional
  split
  · exact hyes
  · exact hno
  · exact not_calls_of_parts nofun fun _ => List.forall_mem_cons.mpr
      ⟨htest, List.forall_mem_cons.mpr ⟨hyes, List.forall_mem_singleton.mpr hno⟩⟩

theorem not_calls_foldJunction {neutral : Bool} {operands : List Expr}
    (h : ∀ operand ∈ operands, ¬ operand.Calls function) :
    ¬ (foldJunction neutral operands).Calls function := by
  have hremaining : ∀ operand ∈ remaining neutral operands, ¬ operand.Calls function :=
    fun operand hmem => h operand (List.mem_of_mem_filter hmem)
  unfold foldJunction
  split
  · exact not_calls_of_literalValue? rfl
  · split
    · exact not_calls_of_literalValue? rfl
    · next operand hone =>
      rw [show remaining neutral operands = [operand] from hone] at hremaining
      exact hremaining operand (List.mem_singleton_self _)
    · refine not_calls_of_parts (e := junction neutral _) (fun _ heq => ?_) fun position => ?_
      · cases neutral <;> cases heq
      · rw [parts_junction]
        exact List.forall_mem_map.mpr hremaining

theorem not_calls_call_iff {name : String} {arguments : List Expr} :
    ¬ (Expr.call name arguments).Calls function ↔
      name ≠ function ∧ ∀ argument ∈ arguments, ¬ argument.Calls function := by
  constructor
  · intro h
    refine ⟨?_, fun argument hmem => not_calls_part h (List.mem_map_of_mem hmem)⟩
    rintro rfl
    exact h .here
  · rintro ⟨hname, harguments⟩
    refine not_calls_of_parts ?_ fun _ => List.forall_mem_map.mpr harguments
    rintro _ ⟨⟩
    exact hname rfl

/-- The rules of an assignment are no call themselves, only their parts are. -/
theorem not_calls_assign_iff {rules : List (Expr × Expr)} {patch : Option Expr} :
    ¬ (Expr.assign rules patch).Calls function ↔
      (∀ rule ∈ rules, ¬ rule.1.Calls function ∧ ¬ rule.2.Calls function) ∧
        ∀ change ∈ patch, ¬ change.Calls function := by
  rw [← forall_mem_parts_assign (p := fun part => ¬ part.Calls function)]
  exact ⟨fun h part => not_calls_part h, fun h => not_calls_of_parts nofun fun _ => h⟩

/-- What a simplified expression calls is called in the expression too. -/
theorem Calls.of_simplify (h : e.simplify = .ok e') (hcalls : e'.Calls function) :
    e.Calls function := by
  -- that something is not called passes to all parts at once, a call would be in one of them
  contrapose! hcalls
  revert hcalls
  apply simplify_byParts (motive := fun e e' => ¬ e.Calls function → ¬ e'.Calls function) (h := h)
  case literal => exact fun _ _ _ hnot => hnot
  case ident => exact fun _ hnot => hnot
  case list =>
    intro items items' hitems hnot
    exact not_calls_of_parts nofun fun _ => List.forall_mem_map.mpr
      (forall_mem_of_forall₂ hitems fun item hmem _ h =>
        h (not_calls_part hnot (List.mem_map_of_mem hmem)))
  case map =>
    intro entries entries' hentries hnot
    exact not_calls_of_parts nofun fun _ => List.forall_mem_map.mpr
      (forall_mem_of_forall₂ hentries fun entry hmem _ h =>
        h (not_calls_part hnot (List.mem_map_of_mem hmem)))
  case field =>
    intro base base' name hbase hnot
    have hpart := fun part => @not_calls_part _ function part hnot
    exact not_calls_of_parts nofun fun _ =>
      List.forall_mem_singleton.mpr (hbase (hpart _ (.head _)))
  case index =>
    intro base base' key key' hbase hkey hnot
    have hpart := fun part => @not_calls_part _ function part hnot
    exact not_calls_of_parts nofun fun _ => List.forall_mem_cons.mpr
      ⟨hbase (hpart _ (.head _)),
        List.forall_mem_singleton.mpr (hkey (hpart _ (.tail _ (.head _))))⟩
  case unary =>
    intro op operand operand' hoperand hnot
    exact not_calls_foldUnary
      (hoperand (not_calls_part hnot (List.mem_singleton_self _)))
  case binary =>
    intro op left left' right right' e' hleft hright hfold hnot
    have hpart := fun part => @not_calls_part _ function part hnot
    exact not_calls_foldBinary (hleft (hpart _ (.head _)))
      (hright (hpart _ (.tail _ (.head _)))) hfold
  case conditional =>
    intro test test' yes yes' no no' htest hyes hno hnot
    have hpart := fun part => @not_calls_part _ function part hnot
    exact not_calls_foldConditional (htest (hpart _ (.head _)))
      (hyes (hpart _ (.tail _ (.head _)))) (hno (hpart _ (.tail _ (.tail _ (.head _)))))
  case call =>
    intro name arguments arguments' harguments hnot
    obtain ⟨hname, hnotArguments⟩ := not_calls_call_iff.mp hnot
    exact not_calls_call_iff.mpr ⟨hname,
      forall_mem_of_forall₂ harguments fun argument hmem _ h => h (hnotArguments argument hmem)⟩
  case junction =>
    intro neutral operands operands' hoperands hnot
    refine not_calls_foldJunction (forall_mem_of_forall₂ hoperands fun operand hmem _ h => h ?_)
    have hpart : ⟨.test, operand, .outer⟩ ∈ (junction neutral operands).parts .value := by
      rw [parts_junction]
      exact List.mem_map_of_mem hmem
    exact not_calls_part hnot hpart
  case assign =>
    intro rules rules' patch patch' hrules hpatch hnot
    obtain ⟨hnotRules, hnotPatch⟩ := not_calls_assign_iff.mp hnot
    refine not_calls_assign_iff.mpr ⟨?_, ?_⟩
    · exact forall_mem_of_forall₂ hrules fun rule hmem _ h =>
        ⟨h.1 (hnotRules rule hmem).1, h.2 (hnotRules rule hmem).2⟩
    · rintro change ⟨⟩
      cases hpatch with
      | some hchange => exact hchange (hnotPatch _ rfl)

end Expr

/-! ### Declarations -/

namespace Declaration

/-- The data of the expressions of a declaration. -/
def expressionData (declaration : Declaration) : List Json :=
  (match declaration.condition with
    | some (.expression data) => [data]
    | _ => []) ++
  match declaration.performance with
    | some (.expression data) => [data]
    | _ => []

/-- An expression of the declaration, as it is read, calls the function. -/
def Calls (options : CompileOptions) (declaration : Declaration) (function : String) : Prop :=
  ∃ frontend ∈ options.frontend, ∃ data ∈ declaration.expressionData,
    ∃ e : Expr, frontend data = .ok e ∧ e.Calls function

variable {options : CompileOptions} {environment : Environment}

/-- What is evaluated for an expression calls nothing that the expression as it is read does not. -/
theorem calls_of_expression {declaration : Declaration} {role : Role} {data : Json} {e : Expr}
    {function : String} (h : expression options role data = .ok e)
    (hdata : data ∈ declaration.expressionData) (hcalls : e.Calls function) :
    declaration.Calls options function := by
  unfold expression at h
  split at h
  · cases h
  · next frontend hfrontend =>
    split at h
    · cases h
    · next written hwritten =>
      split at h
      · cases h
      · next simplified hsimplify =>
        cases h
        exact ⟨frontend, hfrontend, data, hdata, written, hwritten, hcalls.of_simplify hsimplify⟩

section OtherFunctions

variable {declaration : Declaration} (h : ∀ function, declaration.Calls options function →
  options.environment.get? function = environment.get? function)

include h

/-- With functions that a declaration cannot tell from the others, its expressions have the same
outcomes. -/
theorem eval_of_expression {role : Role} {data : Json} {e : Expr}
    (hexpression : expression options role data = .ok e) (hdata : data ∈ declaration.expressionData)
    (before : Option Object) (next : Object) :
    e.eval ⟨before, next, environment⟩ = e.eval ⟨before, next, options.environment⟩ := by
  have hfunctions : ∀ function, e.Calls function →
      environment.get? function = options.environment.get? function :=
    fun function hcalls => (h function (calls_of_expression hexpression hdata hcalls)).symm
  exact Expr.eval_congr ⟨rfl, hfunctions, .inl rfl⟩

theorem matcher_congr {condition : Condition} (hcondition : declaration.condition = some condition) :
    matcher { options with environment := environment } condition = matcher options condition := by
  cases condition with
  | constant fires => rfl
  | native test => rfl
  | expression data =>
    have hdata : data ∈ declaration.expressionData := by simp [expressionData, hcondition]
    -- an expression is read without the functions, which count only when it is evaluated
    show (expression options .condition data >>= _) = (expression options .condition data >>= _)
    rcases hexpression : expression options .condition data with stop | e
    · rfl
    · have heval : e.evalCondition environment = e.evalCondition options.environment := by
        funext context
        have hsame := eval_of_expression h hexpression hdata (some context.before) context.next
        rw [Expr.evalCondition, Expr.evalCondition, Scope.condition, Scope.condition, hsame]
      show Except.ok (e.matcher _) = Except.ok (e.matcher _)
      rw [heval]

theorem transform_congr {performance : Performance}
    (hperformance : declaration.performance = some performance) :
    transform { options with environment := environment } performance =
      transform options performance := by
  cases performance with
  | native change => rfl
  | actions specs => rfl
  | malformed reason => rfl
  | expression data =>
    have hdata : data ∈ declaration.expressionData := by simp [expressionData, hperformance]
    show (expression options .transform data >>= _) = (expression options .transform data >>= _)
    rcases hexpression : expression options .transform data with stop | e
    · rfl
    · have heval : e.evalTransform environment = e.evalTransform options.environment := by
        funext object
        have hsame := eval_of_expression h hexpression hdata none object
        rw [Expr.evalTransform, Expr.evalTransform, Scope.transform, Scope.transform, hsame]
      show Except.ok (e.evalTransform _) = Except.ok (e.evalTransform _)
      rw [heval]

/-- A declaration has the same rule with functions that it cannot tell from the others. -/
theorem compile_congr (position : Nat) :
    declaration.compile { options with environment := environment } position =
      declaration.compile options position := by
  unfold compile
  split
  · rfl
  · rfl
  · rfl
  · next condition performance _ hcondition hperformance =>
    rw [matcher_congr h hcondition, transform_congr h hperformance]

end OtherFunctions

/-- Declarations have the same rules with functions that they cannot tell from the others. -/
theorem compileAll_congr {declarations : List Declaration} (h : ∀ declaration ∈ declarations,
      ∀ function, declaration.Calls options function →
        options.environment.get? function = environment.get? function) :
    compileAll { options with environment := environment } declarations =
      compileAll options declarations := by
  have hfrom : ∀ position,
      compileFrom { options with environment := environment } position declarations =
        compileFrom options position declarations := by
    induction declarations with
    | nil => exact fun _ => rfl
    | cons declaration rest ih =>
      intro position
      obtain ⟨hdeclaration, hrest⟩ := List.forall_mem_cons.mp h
      rw [compileFrom, compileFrom, compile_congr hdeclaration, ih hrest]
  exact hfrom 0

end Declaration

/-! ### The dependence of evaluation -/

/-- **Evaluation depends only on what an expression mentions.**  An expression has the same outcome in
two scopes with the same `next` if the functions that it calls are the same in both, missing ones
included, and if `before` is the same too or the expression does not read it outside the rules of its
assignments.

So a function that no expression of some declarations calls makes no difference to their rules.  And
the rules of an assignment never see the outer `before`: it makes no difference to the assignment but
through the patch. -/
theorem evaluation_depends_on_mentions :
    (∀ (e : Expr) (first second : Scope), first.next = second.next →
      (∀ function, e.Calls function →
        first.environment.get? function = second.environment.get? function) →
      first.before = second.before ∨ ¬ e.ReadsBefore →
      e.eval first = e.eval second) ∧
    (∀ (options : CompileOptions) (declarations : List Declaration) (function : String)
        (extension : Extension),
      (∀ declaration ∈ declarations, ¬ declaration.Calls options function) →
      Declaration.compileAll
          { options with environment := options.environment.insert function extension }
          declarations =
        Declaration.compileAll options declarations) ∧
    ∀ (rules : List (Expr × Expr)) (patch : Option Expr) (scope : Scope) (before : Option Object),
      (∀ change ∈ patch, change.eval { scope with before := before } = change.eval scope) →
      (Expr.assign rules patch).eval { scope with before := before } =
        (Expr.assign rules patch).eval scope := by
  refine ⟨?_, ?_, ?_⟩
  · intro e first second hnext hfunctions hbefore
    exact Expr.eval_congr ⟨hnext, hfunctions, hbefore⟩
  · intro options declarations function extension hcalls
    apply Declaration.compileAll_congr
    intro declaration hmem called hcalled
    have hother : function ≠ called := by
      rintro rfl
      exact hcalls declaration hmem hcalled
    rw [FieldsAfter.get?_insert, if_neg hother]
  · intro rules patch scope before hpatch
    cases patch with
    | none => rw [Expr.eval, Expr.eval]
    | some change => rw [Expr.eval, Expr.eval, hpatch change rfl]

/-- An assignment that sets the total to the rate where the total before was another one. -/
def rated : Expr :=
  .assign [(.binary .ne (.call "get" [.string "before.total"]) (.call "rate" []),
    .call "set" [.string "total", .call "rate" []])] none

/-- The rate as an added function. -/
def rates : Environment := FieldsAfter.nil.insert "rate" fun _ => .ok (.int 7)

/-- A declaration of which `rated` is the transform. -/
def ratedDeclaration : Declaration where
  condition := some (.constant true)
  performance := some (.expression .null)

/-- Every expression is read as `rated`. -/
def ratedOptions : CompileOptions where
  environment := rates
  frontend := some fun _ => .ok rated

/-- An added function that `rated` does not call. -/
def spare : Extension := fun _ => .error (.undefinedFunction "spare")

theorem not_calls_spare_rated : ¬ rated.Calls "spare" := by
  have hstring : ∀ s, ¬ (Expr.string s).Calls "spare" := fun _ => Expr.not_calls_of_literalValue? rfl
  have hrate : ¬ (Expr.call "rate" []).Calls "spare" :=
    Expr.not_calls_call_iff.mpr ⟨by decide, nofun⟩
  have hget : ¬ (Expr.call "get" [.string "before.total"]).Calls "spare" :=
    Expr.not_calls_call_iff.mpr ⟨by decide, List.forall_mem_singleton.mpr (hstring _)⟩
  refine Expr.not_calls_assign_iff.mpr ⟨List.forall_mem_singleton.mpr ⟨?_, ?_⟩, nofun⟩
  · exact Expr.not_calls_of_parts nofun fun _ =>
      List.forall_mem_cons.mpr ⟨hget, List.forall_mem_singleton.mpr hrate⟩
  · exact Expr.not_calls_call_iff.mpr ⟨by decide,
      List.forall_mem_cons.mpr ⟨hstring _, List.forall_mem_singleton.mpr hrate⟩⟩

/-- The assignment calls `get`, but only in a rule: neither `before` nor a function that it does not
call makes a difference to it. -/
theorem evaluation_depends_on_mentions_rated :
    rated.eval ⟨some .nil, .nil, rates⟩ = rated.eval ⟨none, .nil, rates.insert "spare" spare⟩ ∧
      Declaration.compileAll { ratedOptions with environment := rates.insert "spare" spare }
          [ratedDeclaration] =
        Declaration.compileAll ratedOptions [ratedDeclaration] ∧
      (Expr.assign [(.ident "before", .ident "next")] (some (.ident "next"))).eval
          ⟨none, .nil, rates⟩ =
        (Expr.assign [(.ident "before", .ident "next")] (some (.ident "next"))).eval
          ⟨some .nil, .nil, rates⟩ := by
  have hfunctions : ∀ function, rated.Calls function →
      rates.get? function = (rates.insert "spare" spare).get? function := by
    intro function hcalls
    have hother : "spare" ≠ function := by
      rintro rfl
      exact not_calls_spare_rated hcalls
    rw [FieldsAfter.get?_insert, if_neg hother]
  have hbefore : ¬ rated.ReadsBefore := by
    rw [rated, Expr.readsBefore_assign_iff]
    exact nofun
  have hcalls : ¬ ratedDeclaration.Calls ratedOptions "spare" := by
    rintro ⟨_, ⟨⟩, _, -, _, ⟨⟩, hcalls⟩
    exact not_calls_spare_rated hcalls
  have hpatch : ∀ change ∈ some (Expr.ident "next"),
      change.eval ⟨none, .nil, rates⟩ = change.eval ⟨some .nil, .nil, rates⟩ := by
    rintro _ ⟨⟩
    rfl
  obtain ⟨hvalue, hcompile, hassign⟩ := evaluation_depends_on_mentions
  refine ⟨hvalue rated _ _ rfl hfunctions (.inr hbefore), ?_, ?_⟩
  · exact hcompile ratedOptions [ratedDeclaration] "spare" spare (List.forall_mem_singleton.mpr hcalls)
  · exact hassign [(.ident "before", .ident "next")] (some (.ident "next")) ⟨some .nil, .nil, rates⟩
      none hpatch

end TransitionRules
