/-
TransitionRules/Proofs/Rule/Compilation.lean

Compiling with warnings and without.  A declaration compiles by itself or does not, wherever it
stands: its place shows in the name of its rule and in nothing else (`compile_at`).  So with warnings
the rules are those of the valid declarations, and without warnings they are the same rules or there
is an error for the first invalid declaration.

The valid declarations alone, compiled without warnings, have other places and so other names.  As a
run does not ask for names (`Run.stabilize_anonymous`), their rules do the same (`reduce_compiled`).

Main result: `compileAll_warnings`.
-/
import TransitionRules.Proofs.Run.Batches
import TransitionRules.Proofs.Run.Log
import TransitionRules.Rule.Compile

namespace TransitionRules.Declaration

open Run (anonymous)

variable {options : CompileOptions} {declaration : Declaration}
variable {declarations rest : List Declaration} {position : Nat} {rule : Rule} {fault : DeclarationFault}

/-! ### Declarations by themselves -/

/-- The declaration stops the compilation, with warnings or without. -/
def Aborts (options : CompileOptions) (declaration : Declaration) : Prop :=
  ∃ abort, compileAll { options with warn := false } [declaration] = .error (.abort abort)

/-- Whether the declaration compiles by itself. -/
def isValid (options : CompileOptions) (declaration : Declaration) : Bool :=
  (compileAll { options with warn := false } [declaration]).isOk

/-- The place of a declaration shows in the name of its rule only. -/
theorem compile_at (options : CompileOptions) (declaration : Declaration) (position : Nat) :
    declaration.compile options position =
      (declaration.compile options 0).map fun rule : Rule =>
        { rule with name := declaration.nameAt position } := by
  have hrule : ∀ (test : Except CompileStop Matcher) (change : Except CompileStop Transform),
      (do return ⟨declaration.nameAt position, declaration.description, ← test, ← change⟩ :
        Except CompileStop Rule) =
      Except.map (fun rule : Rule => { rule with name := declaration.nameAt position })
        (do return ⟨declaration.nameAt 0, declaration.description, ← test, ← change⟩) := by
    intro test change
    cases test <;> cases change <;> rfl
  simp only [compile]
  split
  · rfl
  · rfl
  · rfl
  · exact hrule _ _

/-- Warnings make no difference to a single declaration. -/
theorem compile_warn (options : CompileOptions) (warn : Bool) (declaration : Declaration)
    (position : Nat) :
    declaration.compile { options with warn := warn } position =
      declaration.compile options position := rfl

theorem compileFrom_of_ok (warn : Bool) (h : declaration.compile options position = .ok rule) :
    compileFrom { options with warn := warn } position (declaration :: rest) =
      (compileFrom { options with warn := warn } (position + 1) rest).map (rule :: ·) := by
  rw [compileFrom, compile_warn, h]
  rfl

theorem compileFrom_of_fault (warn : Bool)
    (h : declaration.compile options position = .error (.fault fault)) :
    compileFrom { options with warn := warn } position (declaration :: rest) =
      if warn then compileFrom { options with warn := warn } (position + 1) rest
      else .error (.error (.declaration position (declaration.nameAt position) fault)) := by
  rw [compileFrom, compile_warn, h]

/-- A valid declaration has a rule, wherever it stands. -/
theorem exists_rule_of_isValid (h : declaration.isValid options = true) :
    ∃ rule : Rule, ∀ position, declaration.compile options position =
      .ok { rule with name := declaration.nameAt position } := by
  rcases hcompile : declaration.compile options 0 with (fault | abort) | rule
  · rw [isValid, compileAll, compileFrom_of_fault false hcompile] at h
    cases h
  · rw [isValid, compileAll, compileFrom, compile_warn, hcompile] at h
    cases h
  · refine ⟨rule, fun position => ?_⟩
    rw [compile_at, hcompile]
    rfl

/-- An invalid declaration that does not stop the compilation has a fault, wherever it stands. -/
theorem exists_fault_of_not_isValid (h : declaration.isValid options = false)
    (hstop : ¬ declaration.Aborts options) :
    ∃ fault, ∀ position, declaration.compile options position = .error (.fault fault) := by
  rcases hcompile : declaration.compile options 0 with (fault | abort) | rule
  · refine ⟨fault, fun position => ?_⟩
    rw [compile_at, hcompile]
    rfl
  · refine absurd ⟨abort, ?_⟩ hstop
    rw [compileAll, compileFrom, compile_warn, hcompile]
  · rw [isValid, compileAll, compileFrom_of_ok false hcompile] at h
    cases h

/-! ### Lists of declarations -/

/-- A rule of the declaration at some place of a list, with the name declared or one made from the
place. -/
def CompiledAt (options : CompileOptions) (entry : Declaration × Nat) (rule : Rule) : Prop :=
  entry.1.compile options entry.2 = .ok rule ∧
    rule.name = entry.1.name.getD ("rule-" ++ toString entry.2)

/-- With warnings, the rules are those of the valid declarations. -/
theorem compileFrom_warnings (h : ∀ declaration ∈ declarations, ¬ declaration.Aborts options)
    (position : Nat) :
    ∃ rules, compileFrom { options with warn := true } position declarations = .ok rules ∧
      List.Forall₂ (CompiledAt options)
        ((declarations.zipIdx position).filter fun entry => entry.1.isValid options) rules := by
  -- a declaration that is left out still takes up its place
  induction declarations generalizing position with
  | nil => exact ⟨[], rfl, .nil⟩
  | cons declaration rest ih =>
    rw [List.forall_mem_cons] at h
    obtain ⟨rules, hrest, hrules⟩ := ih h.2 (position + 1)
    rw [List.zipIdx_cons]
    rcases hvalid : declaration.isValid options with - | -
    · obtain ⟨fault, hfault⟩ := exists_fault_of_not_isValid hvalid h.1
      rw [compileFrom_of_fault true (hfault position), if_pos rfl, List.filter_cons,
        if_neg (by simpa using hvalid)]
      exact ⟨rules, hrest, hrules⟩
    · obtain ⟨rule, hrule⟩ := exists_rule_of_isValid hvalid
      rw [compileFrom_of_ok true (hrule position), hrest, List.filter_cons, if_pos hvalid]
      exact ⟨_, rfl, .cons ⟨hrule position, rfl⟩ hrules⟩

/-- If all declarations are valid, warnings make no difference. -/
theorem compileFrom_of_valid (hvalid : ∀ declaration ∈ declarations, declaration.isValid options)
    (position : Nat) :
    compileFrom { options with warn := false } position declarations =
      compileFrom { options with warn := true } position declarations := by
  induction declarations generalizing position with
  | nil => rfl
  | cons declaration rest ih =>
    rw [List.forall_mem_cons] at hvalid
    obtain ⟨rule, hrule⟩ := exists_rule_of_isValid hvalid.1
    rw [compileFrom_of_ok false (hrule position), compileFrom_of_ok true (hrule position),
      ih hvalid.2 (position + 1)]

/-- Without warnings, the first declaration with a fault is an error. -/
theorem compileFrom_of_invalid {front back : List Declaration}
    (hvalid : ∀ declaration ∈ front, declaration.isValid options)
    (hfault : ∀ position, declaration.compile options position = .error (.fault fault))
    (position : Nat) :
    compileFrom { options with warn := false } position (front ++ declaration :: back) =
      .error (.error (.declaration (position + front.length)
        (declaration.nameAt (position + front.length)) fault)) := by
  induction front generalizing position with
  | nil =>
    rw [List.nil_append, compileFrom_of_fault false (hfault position)]
    rfl
  | cons first front ih =>
    rw [List.forall_mem_cons] at hvalid
    obtain ⟨rule, hrule⟩ := exists_rule_of_isValid hvalid.1
    rw [List.cons_append, compileFrom_of_ok false (hrule position), ih hvalid.2 (position + 1),
      List.length_cons, Nat.add_right_comm, Nat.add_assoc]
    rfl

/-- Without warnings, a list of declarations has an error for the first that is invalid, whose fault is
the one it has by itself. -/
theorem compileAll_of_invalid {front back : List Declaration}
    (hfront : ∀ earlier ∈ front, earlier.isValid options)
    (hinvalid : declaration.isValid options = false) (hstop : ¬ declaration.Aborts options) :
    ∃ fault, compileAll { options with warn := false } [declaration] =
        .error (.error (.declaration 0 (declaration.nameAt 0) fault)) ∧
      compileAll { options with warn := false } (front ++ declaration :: back) =
        .error (.error (.declaration front.length (declaration.nameAt front.length) fault)) := by
  obtain ⟨fault, hfault⟩ := exists_fault_of_not_isValid hinvalid hstop
  refine ⟨fault, compileFrom_of_fault false (hfault 0), ?_⟩
  rw [compileAll, compileFrom_of_invalid hfront hfault 0, Nat.zero_add]

/-! ### What the rules do -/

theorem map_anonymous_compile (options : CompileOptions) (declaration : Declaration)
    (position : Nat) :
    (declaration.compile options position).map anonymous =
      (declaration.compile options 0).map anonymous := by
  rw [compile_at]
  cases declaration.compile options 0 <;> rfl

/-- The rules of the same declarations, at whatever places, are the same but for their names. -/
theorem anonymous_eq_of_compiledAt {entries entries' : List (Declaration × Nat)}
    {rules rules' : List Rule} (h : List.Forall₂ (CompiledAt options) entries rules)
    (h' : List.Forall₂ (CompiledAt options) entries' rules')
    (hsame : entries.map Prod.fst = entries'.map Prod.fst) :
    rules.map anonymous = rules'.map anonymous := by
  induction h generalizing entries' rules' with
  | nil =>
    obtain rfl := List.map_eq_nil_iff.mp hsame.symm
    cases h'
    rfl
  | @cons entry rule entries rules hrule _ ih =>
    obtain ⟨entry', rest, rfl, hfirst, hrest⟩ := List.map_eq_cons_iff.mp hsame.symm
    cases h' with
    | @cons _ rule' _ _ hrule' hrules' =>
      -- both rules are what the same declaration compiles to, up to the name
      have hrules : anonymous rule = anonymous rule' := by
        have hleft := map_anonymous_compile options entry.1 entry.2
        have hright := map_anonymous_compile options entry'.1 entry'.2
        rw [hrule.1] at hleft
        rw [hrule'.1, hfirst] at hright
        exact Except.ok.inj (hleft.trans hright.symm)
      rw [List.map_cons, List.map_cons, hrules, ih hrules' hrest.symm]

/-- The declarations of the rules that are compiled with warnings. -/
theorem map_fst_filter_zipIdx (options : CompileOptions) (declarations : List Declaration) :
    (declarations.zipIdx.filter fun entry => entry.1.isValid options).map Prod.fst =
      declarations.filter fun declaration => declaration.isValid options := by
  conv_rhs => rw [← List.zipIdx_map_fst 0 declarations, List.filter_map]
  rfl

/-- The rules that are compiled with warnings fold patches like those of the valid declarations. -/
theorem reduce_compiled (h : ∀ declaration ∈ declarations, ¬ declaration.Aborts options)
    {rules : List Rule}
    (hrules : List.Forall₂ (CompiledAt options)
      (declarations.zipIdx.filter fun entry => entry.1.isValid options) rules) :
    ∃ kept, compileAll { options with warn := false }
        (declarations.filter fun declaration => declaration.isValid options) = .ok kept ∧
      ∀ limit base patches, (Reducer.mk rules limit).reduce base patches =
        (Reducer.mk kept limit).reduce base patches := by
  have hstop : ∀ declaration ∈ declarations.filter fun declaration => declaration.isValid options,
      ¬ declaration.Aborts options :=
    fun declaration hmem => h declaration (List.mem_of_mem_filter hmem)
  obtain ⟨kept, hkept, hcompiled⟩ := compileFrom_warnings hstop 0
  refine ⟨kept, ?_, fun limit base patches => ?_⟩
  · rw [compileAll, compileFrom_of_valid fun declaration hmem => List.of_mem_filter hmem]
    exact hkept
  · -- both lists of rules come from the valid declarations
    have hsame : rules.map anonymous = kept.map anonymous := by
      refine anonymous_eq_of_compiledAt hrules hcompiled ?_
      rw [map_fst_filter_zipIdx, map_fst_filter_zipIdx, List.filter_filter]
      simp only [Bool.and_self]
    refine Reducer.reduce_congr base (fun before patch => ?_) patches
    rw [← Run.stabilize_anonymous, hsame, Run.stabilize_anonymous]

/-- **Compiling with warnings and without.**  With warnings a list of declarations always compiles,
to the rules of its valid declarations, named as declared or by their places in the whole list.
Without warnings it compiles if all are valid, to the same rules, and fails otherwise at the first
that is not, with its place, its name and the fault it has by itself.  The rules compiled with
warnings do what the valid declarations alone do. -/
theorem compileAll_warnings {options : CompileOptions} {declarations : List Declaration}
    (h : ∀ declaration ∈ declarations, ¬ declaration.Aborts options) :
    ∃ rules, compileAll { options with warn := true } declarations = .ok rules ∧
      List.Forall₂ (CompiledAt options)
        (declarations.zipIdx.filter fun entry => entry.1.isValid options) rules ∧
      ((∃ strict, compileAll { options with warn := false } declarations = .ok strict) ↔
        ∀ declaration ∈ declarations, declaration.isValid options) ∧
      (∀ strict, compileAll { options with warn := false } declarations = .ok strict →
        strict = rules) ∧
      (∀ front declaration back, declarations = front ++ declaration :: back →
        (∀ earlier ∈ front, earlier.isValid options) → declaration.isValid options = false →
        ∃ fault, compileAll { options with warn := false } [declaration] =
            .error (.error (.declaration 0 (declaration.nameAt 0) fault)) ∧
          compileAll { options with warn := false } declarations =
            .error (.error (.declaration front.length (declaration.nameAt front.length) fault))) ∧
      ∃ kept, compileAll { options with warn := false }
          (declarations.filter fun declaration => declaration.isValid options) = .ok kept ∧
        ∀ limit base patches, (Reducer.mk rules limit).reduce base patches =
          (Reducer.mk kept limit).reduce base patches := by
  obtain ⟨rules, hrules, hcompiled⟩ := compileFrom_warnings h 0
  have hvalid : (∀ declaration ∈ declarations, declaration.isValid options) →
      compileAll { options with warn := false } declarations = .ok rules :=
    fun hall => (compileFrom_of_valid hall 0).trans hrules
  -- either all declarations are valid, or there is a first one that is not
  have hstrict : (∃ strict, compileAll { options with warn := false } declarations = .ok strict) ↔
      ∀ declaration ∈ declarations, declaration.isValid options := by
    refine ⟨fun ⟨strict, hok⟩ => ?_, fun hall => ⟨rules, hvalid hall⟩⟩
    rcases hfind : declarations.find? (fun declaration => !declaration.isValid options) with
      - | declaration
    · simpa using hfind
    · obtain ⟨hdeclaration, front, back, rfl, hfront⟩ := List.find?_eq_some_iff_append.mp hfind
      obtain ⟨fault, -, herror⟩ := compileAll_of_invalid (by simpa using hfront)
        (by simpa using hdeclaration) (h declaration List.mem_append_cons_self)
      rw [hok] at herror
      cases herror
  refine ⟨rules, hrules, hcompiled, hstrict, fun strict hok => ?_, ?_, reduce_compiled h hcompiled⟩
  · rw [hvalid (hstrict.mp ⟨strict, hok⟩)] at hok
    exact (Except.ok.inj hok).symm
  · rintro front declaration back rfl hfront hdeclaration
    exact compileAll_of_invalid hfront hdeclaration (h declaration List.mem_append_cons_self)

/-- A rule without a name. -/
def nameless : Declaration where
  condition := some (.constant true)
  performance := some (.actions [⟨"remove", [.string "draft"]⟩])

/-- With an empty declaration between two others, there is an error or a gap in the names. -/
theorem compileAll_warnings_gap :
    (∀ declaration ∈ [nameless, {}, nameless], ¬ declaration.Aborts {}) ∧
      (∃ rules, compileAll { warn := true } [nameless, {}, nameless] = .ok rules ∧
        rules.map Rule.name = ["rule-0", "rule-2"]) ∧
      compileAll {} [nameless, {}, nameless] =
        .error (.error (.declaration 1 "rule-1" .noCondition)) := by
  have hstop : ∀ declaration ∈ [nameless, {}, nameless], ¬ declaration.Aborts {} := by
    simp only [List.forall_mem_cons]
    refine ⟨?_, ?_, ?_, List.forall_mem_nil _⟩ <;> rintro ⟨abort, h⟩ <;> cases h
  obtain ⟨rules, hrules, -, -, -, hinvalid, -⟩ := compileAll_warnings hstop
  refine ⟨hstop, ⟨rules, hrules, ?_⟩, ?_⟩
  · obtain rfl := Except.ok.inj (hrules.symm.trans (rfl : _ = Except.ok _))
    rfl
  · obtain ⟨fault, hfault, hall⟩ := hinvalid [nameless] {} [nameless] rfl (by decide) rfl
    cases hfault
    exact hall

end TransitionRules.Declaration
