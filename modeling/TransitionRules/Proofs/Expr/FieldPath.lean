/-
TransitionRules/Proofs/Expr/FieldPath.lean

Dotted paths, read when an expression is made and read when it is evaluated.  `Expr.ofPath` makes of a
path a variable and fields read from it; the function `get` looks the path up in the scope.  Both go
through the segments of the path, which are the pieces without a dot that make up the path when they
are joined by dots (`Text.segments_eq_iff`).

Main result: `ofPath_agrees_with_get`.  A path without an empty segment is an expression with that path
for its source, which simplification leaves as it is and which has in every scope the outcome of `get`.
-/
import TransitionRules.Expr.ArraySyntax
import TransitionRules.Expr.Eval
import TransitionRules.Expr.Simplify
import TransitionRules.Expr.Source
import TransitionRules.Proofs.Budgeted

namespace TransitionRules

/-- Steps that need no budget can be made at once. -/
theorem Budgeted.done_bind {α β : Type} (first : Outcome α) (next : α → Outcome β) :
    done (first >>= next) = done first >>= fun a => done (next a) := by
  cases first with
  | error e => rfl
  | ok a => rfl

/-! ### Segments -/

namespace Text

variable {separator : Char} {text piece : List Char}

theorem cut_eq_splitOn (separator : Char) (text : List Char) :
    cut separator text = text.splitOn separator := by
  induction text with
  | nil => rfl
  | cons c rest ih =>
    -- a cut always has a first piece, which the letter joins if it is no separator
    obtain ⟨piece, pieces, hrest⟩ :=
      List.exists_cons_of_ne_nil (List.splitOn_ne_nil separator rest)
    rw [cut, ih, hrest, List.splitOn, List.splitOnP_cons_eq_if_modifyHead, ← List.splitOn, hrest]
    simp only [beq_iff_eq, List.modifyHead_cons]

theorem notMem_of_mem_cut (h : piece ∈ cut separator text) : separator ∉ piece := by
  induction text generalizing piece with
  | nil =>
    obtain rfl := List.mem_singleton.mp h
    exact List.not_mem_nil
  | cons c rest ih =>
    rw [cut] at h
    split at h
    · rcases List.mem_cons.mp h with rfl | h
      · exact List.not_mem_nil
      · exact ih h
    · next hc =>
      split at h
      · obtain rfl := List.mem_singleton.mp h
        exact fun hmem => hc (List.mem_singleton.mp hmem).symm
      · next head pieces hcut =>
        rw [hcut] at ih
        rcases List.mem_cons.mp h with rfl | h
        · exact List.not_mem_cons_of_ne_of_not_mem (Ne.symm hc) (ih (.head _))
        · exact ih (.tail _ h)

/-- The segments of a text are the pieces without a dot that give the text, joined by dots. -/
theorem segments_eq_iff {text : String} {pieces : List String} :
    segments text = pieces ↔
      pieces ≠ [] ∧ (∀ piece ∈ pieces, '.' ∉ piece.toList) ∧ ".".intercalate pieces = text := by
  constructor
  · rintro rfl
    refine ⟨?_, ?_, ?_⟩
    · rw [segments, cut_eq_splitOn]
      simp [List.splitOn_ne_nil]
    · intro piece hpiece
      obtain ⟨letters, hletters, rfl⟩ := List.mem_map.mp hpiece
      rw [String.toList_ofList]
      exact notMem_of_mem_cut hletters
    · apply String.toList_injective
      have hpieces : (segments text).map String.toList = cut '.' text.toList := by
        simp [segments, Function.comp_def]
      rw [String.toList_intercalate, hpieces, cut_eq_splitOn]
      exact List.intercalate_splitOn '.'
  · -- no piece is cut any further, because there is no dot in it
    rintro ⟨hne, hpieces, rfl⟩
    have hletters : ∀ letters ∈ pieces.map String.toList, '.' ∉ letters :=
      List.forall_mem_map.mpr hpieces
    rw [segments, cut_eq_splitOn, String.toList_intercalate]
    show (List.splitOn '.' (['.'].intercalate _)).map _ = _
    rw [List.splitOn_intercalate '.' hletters (by simpa using hne)]
    simp [Function.comp_def]

end Text

namespace Expr

/-! ### Fields read one after the other -/

/-- The fields of these names, read from an expression one after the other. -/
def chained (base : Expr) (names : List String) : Expr := names.foldl .field base

theorem chained_cons (base : Expr) (name : String) (rest : List String) :
    chained base (name :: rest) = chained (.field base name) rest := rfl

/-- A chain of fields is made if no name in it is empty. -/
theorem readFields_eq (path : String) (base : Expr) (names : List String) :
    readFields path base names =
      if "" ∈ names then .error (.emptySegment path) else .ok (chained base names) := by
  induction names generalizing base with
  | nil => rfl
  | cons name rest ih =>
    rw [readFields, ih]
    by_cases hname : name = ""
    · subst hname
      rw [if_pos (List.mem_cons_self ..)]
      rfl
    · have hempty : ¬ name.isEmpty = true := by simpa using hname
      have hmem : "" ∈ name :: rest ↔ "" ∈ rest := by simp [Ne.symm hname]
      simp only [if_neg hempty, hmem, chained_cons]

theorem source_chained (base : Expr) (names : List String) :
    (chained base names).source = ".".intercalate (base.source :: names) := by
  induction names generalizing base with
  | nil => rw [chained, List.foldl_nil, String.intercalate_singleton]
  | cons name rest ih =>
    rw [chained_cons, ih, source, String.intercalate_cons_cons]
    cases rest with
    | nil => rw [String.intercalate_singleton, String.intercalate_singleton]
    | cons next rest =>
      rw [String.intercalate_cons_cons, String.intercalate_cons_cons]
      simp only [String.append_assoc]

theorem simplify_chained {base : Expr} (h : base.simplify = .ok base) (names : List String) :
    (chained base names).simplify = .ok (chained base names) := by
  induction names generalizing base with
  | nil => exact h
  | cons name rest ih =>
    apply ih
    rw [simplify, h]
    rfl

/-- The value of a chain of fields is read from the value of its base. -/
theorem eval_chained (base : Expr) (names : List String) (scope : Scope) :
    (chained base names).eval scope =
      base.eval scope >>= fun value => .done (Builtin.readFields value names) := by
  induction names generalizing base with
  | nil => exact (bind_pure _).symm
  | cons name rest ih =>
    have hfield : (Expr.field base name).eval scope =
        base.eval scope >>= fun value => .done (value.field name) := by
      rw [eval]
      rfl
    rw [chained_cons, ih, hfield, bind_assoc]
    refine congrArg _ (funext fun value => ?_)
    rw [Builtin.readFields, Budgeted.done_bind]

/-! ### Paths -/

theorem ofPath_of_segments {path root : String} {names : List String}
    (h : Text.segments path = root :: names) :
    ofPath path =
      if root = "" then .error (.emptyPath path)
      else if "" ∈ names then .error (.emptySegment path)
      else .ok (chained (.ident root) names) := by
  rw [ofPath, h]
  simp only [String.isEmpty_iff, readFields_eq]

/-- A path is an expression, the chain of its segments, if none of these is empty. -/
theorem ofPath_ok_iff {path root : String} {names : List String} {e : Expr}
    (h : Text.segments path = root :: names) :
    ofPath path = .ok e ↔ "" ∉ Text.segments path ∧ e = chained (.ident root) names := by
  rw [ofPath_of_segments h, h, List.mem_cons, not_or]
  by_cases hroot : root = ""
  · simp [hroot]
  · by_cases hnames : "" ∈ names
    · simp [hroot, hnames]
    · simp [hroot, hnames, Ne.symm hroot, eq_comm]

/-- The function `get` reads the later segments of a path from the value of the first one. -/
theorem call_get_of_segments {path root : String} {names : List String}
    (h : Text.segments path = root :: names) (hroot : root ≠ "") (scope : Scope) :
    Builtin.get.call scope [.string path] =
      scope.variableValue root >>= fun value => Builtin.readFields value names := by
  show Builtin.atPath scope path = _
  rw [Builtin.atPath, h]
  exact if_neg (by simpa using hroot)

theorem eval_call_get {scope : Scope} (h : scope.environment.get? "get" = none) (path : String) :
    (Expr.call "get" [.string path]).eval scope =
      .done (Builtin.get.call scope [.string path]) := by
  have hcall : callFunction "get" scope [.string path] = Builtin.get.call scope [.string path] := by
    rw [callFunction, h]
    rfl
  rw [← hcall, eval, evalItems, evalItems, eval]
  rfl

/-- **A path comes to the same read early and late.**  A path is an expression exactly if none of its
segments is empty, and otherwise refused, as an empty path or for an empty segment.  The expression has
the path for its source and is left as it is by simplification.  In every scope it has the outcome of
`get` for the path, and so of a call of `get`, unless an added function hides it. -/
theorem ofPath_agrees_with_get (path : String) :
    ((∃ e, ofPath path = .ok e) ↔ ∀ segment ∈ Text.segments path, segment ≠ "") ∧
      (∀ fault, ofPath path = .error fault →
        fault = .emptyPath path ∨ fault = .emptySegment path) ∧
      ∀ e, ofPath path = .ok e →
        e.source = path ∧ e.simplify = .ok e ∧
          ∀ scope, e.eval scope = .done (Builtin.get.call scope [.string path]) ∧
            (scope.environment.get? "get" = none →
              e.eval scope = (Expr.call "get" [.string path]).eval scope) := by
  obtain ⟨hne, -, hjoined⟩ := Text.segments_eq_iff.mp (rfl : Text.segments path = _)
  obtain ⟨root, names, hsegments⟩ := List.exists_cons_of_ne_nil hne
  refine ⟨?_, ?_, ?_⟩
  · simp only [ofPath_ok_iff hsegments, exists_and_left, exists_eq, and_true, ne_eq]
    exact ⟨fun h segment hmem hempty => h (hempty ▸ hmem), fun h hmem => h "" hmem rfl⟩
  · intro fault hfault
    rw [ofPath_of_segments hsegments] at hfault
    split at hfault
    · cases hfault
      exact .inl rfl
    · split at hfault
      · cases hfault
        exact .inr rfl
      · cases hfault
  · intro e he
    obtain ⟨hfull, rfl⟩ := (ofPath_ok_iff hsegments).mp he
    have hroot : root ≠ "" := fun hempty => hfull (hsegments ▸ hempty ▸ List.mem_cons_self ..)
    have heval : ∀ scope, (chained (.ident root) names).eval scope =
        .done (Builtin.get.call scope [.string path]) := by
      intro scope
      rw [eval_chained, eval, call_get_of_segments hsegments hroot, Budgeted.done_bind]
      rfl
    refine ⟨?_, simplify_chained rfl names, fun scope => ⟨heval scope, fun hget => ?_⟩⟩
    · rw [source_chained, source, ← hsegments, hjoined]
    · rw [heval, eval_call_get hget]

/-- The code of the region before. -/
def regionCode : Expr := .field (.field (.ident "before") "region") "code"

/-- The path of `regionCode`, also where there is no object before. -/
theorem ofPath_agrees_with_get_regionCode :
    ofPath "before.region.code" = .ok regionCode ∧ regionCode.source = "before.region.code" ∧
      regionCode.simplify = .ok regionCode ∧
      regionCode.eval (.transform .nil .nil) =
        (Expr.call "get" [.string "before.region.code"]).eval (.transform .nil .nil) := by
  have hpath : ofPath "before.region.code" = .ok regionCode := rfl
  obtain ⟨hsource, hsimplify, heval⟩ := (ofPath_agrees_with_get "before.region.code").2.2 _ hpath
  exact ⟨hpath, hsource, hsimplify, (heval _).2 rfl⟩

end Expr

end TransitionRules
