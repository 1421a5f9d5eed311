/-
TransitionRules/Proofs/CommandLine/Records.lean

What a request to fold patches prints, with records and without.  Whether the records are asked for
and in which form makes no difference to what is loaded and which runs are made, only to the text of
their results (`respond_apply`).  So such requests fail together and in the same words, and where
they succeed the text without records is part of the text with them.

Main result: `recorded_fold_keeps_results`, which says the same of the folds themselves and adds the
laws of batches.
-/
import TransitionRules.CommandLine.Report
import TransitionRules.Proofs.Run.Batches
import TransitionRules.Proofs.Run.Settled

namespace TransitionRules.CommandLine

variable (files : Files) (budget : Nat) (rules : RuleSource) (limit : Option Nat) (base : String)
variable (patches : List String)

/-! ### What is printed -/

/-- What a request to fold patches works on. -/
structure FoldInput where
  reducer : Reducer
  object : Object
  changes : List Object

/-- Loads what a request works on. -/
def loadFold : Except Failure FoldInput := do
  let rules ← loadRules files rules
  let object ← loadObject files base
  let changes ← patches.mapM (loadObject files)
  return ⟨⟨rules, limit⟩, object, changes⟩

/-- The runs of a request. -/
def FoldInput.runs (input : FoldInput) : Budgeted (Object × List Trace) :=
  input.reducer.reduceTraced input.object input.changes

/-- The text of a result. -/
def resultText (format : Format) (trace : Bool) (result : Object × List Trace) : String :=
  if trace then tracedText format result.1 result.2 else (Json.object result.1).pretty ++ "\n"

/-- With records and without, a request makes the same runs. -/
theorem applyText_eq_map (format : Format) (trace : Bool) :
    applyText files format rules limit trace base patches =
      (fun input : FoldInput => resultText format trace <$> input.runs) <$>
        loadFold files rules limit base patches := by
  simp only [applyText, loadFold, map_bind, map_pure]
  -- both sides load the same; what is left is the text of the runs
  refine congrArg _ (funext fun rules => congrArg _ (funext fun object => congrArg _
    (funext fun changes => ?_)))
  cases trace with
  | false =>
    refine congrArg pure ?_
    rw [Reducer.reduce_eq_map_reduceTraced, bind_map_left, ← bind_pure_comp]
    rfl
  | true =>
    refine congrArg pure ?_
    rw [← bind_pure_comp]
    rfl

theorem respond_apply (format : Format) (trace : Bool) :
    respond files budget (.run format (.apply rules limit trace base patches)) =
      match loadFold files rules limit base patches with
      | .error failure => failure.output
      | .ok input => outputWithin budget (resultText format trace <$> input.runs) := by
  rw [respond, applyText_eq_map]
  cases loadFold files rules limit base patches <;> rfl

/-- A failure prints nothing but its error. -/
theorem Failure.output_fails (failure : Failure) :
    failure.output.code ≠ 0 ∧ failure.output.stdout = "" := by
  unfold Failure.output
  split <;> exact ⟨Nat.succ_ne_zero _, rfl⟩

/-- Whatever text is asked for, a request fails in the same way or prints the same result. -/
theorem respond_apply_cases :
    (∃ failed : Output, failed.code ≠ 0 ∧ failed.stdout = "" ∧ ∀ format trace,
      respond files budget (.run format (.apply rules limit trace base patches)) = failed) ∨
    ∃ input result, loadFold files rules limit base patches = .ok input ∧
      input.runs.within budget = some (.ok result) ∧ ∀ format trace,
        respond files budget (.run format (.apply rules limit trace base patches)) =
          ⟨0, resultText format trace result, ""⟩ := by
  simp only [respond_apply]
  rcases hload : loadFold files rules limit base patches with failure | input
  · exact .inl ⟨failure.output, failure.output_fails.1, failure.output_fails.2, fun _ _ => rfl⟩
  · simp only [outputWithin, Budgeted.within_map]
    rcases hruns : input.runs.within budget with - | (e | result)
    · exact .inl ⟨⟨1, "", ""⟩, by decide, rfl, fun _ _ => rfl⟩
    · have hfails := (Failure.ofError e).output_fails
      exact .inl ⟨(Failure.ofError e).output, hfails.1, hfails.2, fun _ _ => rfl⟩
    · exact .inr ⟨input, result, rfl, hruns, fun _ _ => rfl⟩

/-! ### Records as members of a document -/

theorem sortedItems_eq_map (items : List OrderedJson) :
    OrderedJson.sortedItems items = items.map OrderedJson.sorted := by
  induction items with
  | nil => rfl
  | cons item rest ih => rw [OrderedJson.sortedItems, ih, List.map_cons]

/-- An object and the records of the runs that led to it, as the members of one object. -/
def resultMembers (object : Object) (traces : List Trace) : Object :=
  (FieldsAfter.nil.insert "result" (.object object)).insert "traces"
    (.array (traces.map fun trace => trace.document.sorted))

theorem tracedText_json (object : Object) (traces : List Trace) :
    tracedText .json object traces = (Json.object (resultMembers object traces)).pretty ++ "\n" := by
  have hrecord : OrderedJson.sorted (.record [("result", .json (.object object)),
      ("traces", .array (traces.map Trace.document))]) = .object (resultMembers object traces) := by
    simp only [OrderedJson.sorted, OrderedJson.sortedFields, sortedItems_eq_map, List.map_map]
    rfl
  rw [tracedText, hrecord]

/-! ### Results with and without records -/

/-- **Records and batches do not change results.**  A fold has the same outcome with records and
without; there is one record for each run, which starts where the runs before it led; no patches are
as good as an empty one; and a list of patches can be folded in batches.  So the text of a request
without records comes first in the text with them, and its object is a member of the document with
them. -/
theorem recorded_fold_keeps_results :
    (∀ (reducer : Reducer) (base : Object) (patches : List Object),
      reducer.reduce base patches = Prod.fst <$> reducer.reduceTraced base patches) ∧
    (∀ (reducer : Reducer) (base : Object) (patches : List Object) (final : Object)
        (traces : List Trace),
      (reducer.reduceTraced base patches).Ends (.ok (final, traces)) →
        traces.length = max 1 patches.length ∧
        ∀ place patch trace, (Reducer.runPatches patches)[place]? = some patch →
          traces[place]? = some trace →
          reducer.IsRun base (Reducer.runPatches patches) place patch trace) ∧
    (∀ (reducer : Reducer) (base : Object),
      reducer.reduce base [] = reducer.reduce base [.nil] ∧
      reducer.reduceTraced base [] = reducer.reduceTraced base [.nil]) ∧
    (∀ (reducer : Reducer) (base : Object) (first second : List Object),
      first ≠ [] → second ≠ [] →
        reducer.reduce base (first ++ second) = (do
          let next ← reducer.reduce base first
          reducer.reduce next second) ∧
        reducer.reduceTraced base (first ++ second) = (do
          let (next, traces) ← reducer.reduceTraced base first
          let (final, later) ← reducer.reduceTraced next second
          return (final, traces ++ later))) ∧
    ∀ (files : Files) (budget : Nat) (rules : RuleSource) (limit : Option Nat) (base : String)
        (patches : List String),
      (∃ failed : Output, failed.code ≠ 0 ∧ failed.stdout = "" ∧ ∀ format trace,
        respond files budget (.run format (.apply rules limit trace base patches)) = failed) ∨
      ∃ (input : FoldInput) (final : Object) (traces : List Trace) (members : Object),
        loadFold files rules limit base patches = .ok input ∧
        input.runs.within budget = some (.ok (final, traces)) ∧
        (∀ format, respond files budget (.run format (.apply rules limit false base patches)) =
          ⟨0, (Json.object final).pretty ++ "\n", ""⟩) ∧
        respond files budget (.run .text (.apply rules limit true base patches)) =
          ⟨0, (Json.object final).pretty ++ "\n" ++ tracesText 1 traces, ""⟩ ∧
        respond files budget (.run .json (.apply rules limit true base patches)) =
          ⟨0, (Json.object members).pretty ++ "\n", ""⟩ ∧
        members.get? "result" = some (.object final) := by
  refine ⟨Reducer.reduce_eq_map_reduceTraced, fun _ _ _ _ _ h => Reducer.isRun_of_reduceTraced h,
    fun reducer base => ⟨?_, rfl⟩, fun reducer base first second hfirst hsecond =>
      ⟨reducer.reduce_append base hfirst hsecond, reducer.reduceTraced_append base hfirst hsecond⟩,
    fun files budget rules limit base patches => ?_⟩
  · rw [Reducer.reduce_eq_applyAll, Reducer.reduce_eq_applyAll]
    rfl
  · obtain hfailed | ⟨input, ⟨final, traces⟩, hload, hruns, hrespond⟩ :=
      respond_apply_cases files budget rules limit base patches
    · exact .inl hfailed
    · refine .inr ⟨input, final, traces, resultMembers final traces, hload, hruns,
        fun format => hrespond format false, hrespond .text true, ?_, ?_⟩
      · rw [hrespond, resultText, if_pos rfl, tracedText_json]
      · simp [resultMembers, FieldsAfter.get?_insert]

/-- Two patches of a fold that turns a field on, at once and one after the other. -/
theorem recorded_fold_keeps_results_switch :
    let reducer : Reducer := ⟨[Run.switch true], none⟩
    let on : Object := FieldsAfter.nil.insert "on" (.bool true)
    let record : Trace := ⟨2, [⟨1, ["on"]⟩, ⟨2, ["on"]⟩], [⟨"on", 2⟩]⟩
    (reducer.reduceTraced .nil [.nil, Run.switchedOff]).Ends (.ok (on, [record, record])) ∧
      reducer.IsRun .nil [.nil, Run.switchedOff] 1 Run.switchedOff record ∧
      reducer.reduce .nil [.nil, Run.switchedOff] = (do
        let next ← reducer.reduce .nil [.nil]
        reducer.reduce next [Run.switchedOff]) := by
  obtain ⟨-, hrecords, -, hbatches, -⟩ := recorded_fold_keeps_results
  intro reducer on record
  have hfold : (reducer.reduceTraced .nil [.nil, Run.switchedOff]).Ends
      (.ok (on, [record, record])) := ⟨3, rfl⟩
  exact ⟨hfold, (hrecords _ _ _ _ _ hfold).2 1 _ _ rfl rfl,
    (hbatches reducer .nil [.nil] [Run.switchedOff] (by simp) (by simp)).1⟩

end TransitionRules.CommandLine
