/-
TransitionRules/Proofs/Run/Batches.lean

Folding patches with records and in batches.  A fold makes one run after each patch, and a single run
if there are no patches (`runPatches`).  A recorded fold makes the same runs
(`reduce_eq_map_reduceTraced`) and lists their records in order, each run starting where the patches
before it led (`isRun_of_reduceTraced`).

A list of patches can be split into batches, as long as none is empty: an empty one would make a run
that the whole list does not make (`reduce_append`, `reduceTraced_append`).
-/
import TransitionRules.Proofs.Run.Passes
import TransitionRules.Run.Reducer

namespace TransitionRules.Reducer

variable (reducer : Reducer) (base : Object)

/-- The patches of the runs that a fold makes: without any patch, one run with an empty one. -/
def runPatches (patches : List Object) : List Object :=
  if patches.isEmpty then [.nil] else patches

theorem length_runPatches (patches : List Object) :
    (runPatches patches).length = max 1 patches.length := by
  cases patches with
  | nil => rfl
  | cons patch rest =>
    show rest.length + 1 = max 1 (rest.length + 1)
    omega

theorem runPatches_of_ne_nil {patches : List Object} (h : patches ≠ []) :
    runPatches patches = patches :=
  if_neg (by simpa using h)

theorem reduce_eq_applyAll (patches : List Object) :
    reducer.reduce base patches = reducer.applyAll base (runPatches patches) := by
  cases patches with
  | nil =>
    show reducer.apply base .nil = reducer.apply base .nil >>= pure
    rw [bind_pure]
  | cons patch rest => rfl

theorem reduceTraced_eq_applyAllTraced (patches : List Object) :
    reducer.reduceTraced base patches = reducer.applyAllTraced base (runPatches patches) := rfl

/-- Rules whose runs are the same fold patches to the same objects. -/
theorem reduce_congr {rules rules' : List Rule} {limit : Option Nat}
    (h : ∀ before patch, Run.stabilize rules limit before patch =
      Run.stabilize rules' limit before patch) (patches : List Object) :
    (Reducer.mk rules limit).reduce base patches = (Reducer.mk rules' limit).reduce base patches := by
  rw [reduce_eq_applyAll, reduce_eq_applyAll]
  induction runPatches patches generalizing base with
  | nil => rfl
  | cons patch rest ih => simp only [applyAll, apply, h, ih]

/-! ### With records -/

/-- One run and its recorded twin. -/
theorem apply_eq_map_stabilizeTraced (patch : Object) :
    reducer.apply base patch =
      Prod.fst <$> Run.stabilizeTraced reducer.rules reducer.limit base patch :=
  Run.stabilize_eq_map_stabilizeTraced reducer.rules reducer.limit base patch

theorem applyAll_eq_map_applyAllTraced (patches : List Object) :
    reducer.applyAll base patches = Prod.fst <$> reducer.applyAllTraced base patches := by
  induction patches generalizing base with
  | nil => simp [applyAll, applyAllTraced]
  | cons patch rest ih =>
    simp only [applyAll, applyAllTraced, apply_eq_map_stabilizeTraced, bind_map_left, ih, map_bind,
      map_pure]
    refine congrArg _ (funext fun result => ?_)
    rw [← bind_pure_comp]

/-- A recorded fold is the fold with records beside it. -/
theorem reduce_eq_map_reduceTraced (patches : List Object) :
    reducer.reduce base patches = Prod.fst <$> reducer.reduceTraced base patches := by
  rw [reduce_eq_applyAll, reduceTraced_eq_applyAllTraced, applyAll_eq_map_applyAllTraced]

variable {reducer base} {patches : List Object} {final : Object} {traces : List Trace}

/-- A run of a fold, and its record: it has all the rules, starts where the patches before it lead,
and ends where these lead together with its own. -/
def IsRun (reducer : Reducer) (base : Object) (patches : List Object) (place : Nat)
    (patch : Object) (trace : Trace) : Prop :=
  ∃ start settled, (reducer.applyAll base (patches.take place)).Ends (.ok start) ∧
    (Run.stabilizeTraced reducer.rules reducer.limit start patch).Ends (.ok (settled, trace)) ∧
    (reducer.applyAll base (patches.take (place + 1))).Ends (.ok settled)

/-- The records of a fold are those of its runs, in order. -/
theorem isRun_of_applyAllTraced
    (h : (reducer.applyAllTraced base patches).Ends (.ok (final, traces))) :
    traces.length = patches.length ∧
      ∀ place patch trace, patches[place]? = some patch → traces[place]? = some trace →
        reducer.IsRun base patches place patch trace := by
  -- by induction on the patches; what the first one leads to is where the fold of the rest starts
  induction patches generalizing base traces with
  | nil =>
    cases Budgeted.ends_pure_iff.mp h
    exact ⟨rfl, fun place patch trace hpatch => by simp at hpatch⟩
  | cons first rest ih =>
    obtain ⟨⟨next, trace⟩, hfirst, h⟩ := Budgeted.ends_bind_ok_iff.mp h
    obtain ⟨⟨final', later⟩, hrest, h⟩ := Budgeted.ends_bind_ok_iff.mp h
    cases Budgeted.ends_pure_iff.mp h
    have happly : (reducer.apply base first).Ends (.ok next) := by
      rw [apply_eq_map_stabilizeTraced, Budgeted.ends_map_iff]
      exact ⟨_, hfirst, rfl⟩
    obtain ⟨hlength, hruns⟩ := ih hrest
    refine ⟨congrArg (· + 1) hlength, fun place patch record hpatch hrecord => ?_⟩
    cases place with
    | zero =>
      cases hpatch
      cases hrecord
      refine ⟨base, next, Budgeted.ends_pure_iff.mpr rfl, hfirst, ?_⟩
      exact Budgeted.ends_bind_ok_iff.mpr ⟨next, happly, Budgeted.ends_pure_iff.mpr rfl⟩
    | succ place =>
      obtain ⟨start, settled, hstart, hrun, hsettled⟩ := hruns place patch record hpatch hrecord
      exact ⟨start, settled, Budgeted.ends_bind_ok_iff.mpr ⟨next, happly, hstart⟩, hrun,
        Budgeted.ends_bind_ok_iff.mpr ⟨next, happly, hsettled⟩⟩

theorem isRun_of_reduceTraced
    (h : (reducer.reduceTraced base patches).Ends (.ok (final, traces))) :
    traces.length = max 1 patches.length ∧
      ∀ place patch trace, (runPatches patches)[place]? = some patch →
        traces[place]? = some trace → reducer.IsRun base (runPatches patches) place patch trace := by
  rw [reduceTraced_eq_applyAllTraced] at h
  obtain ⟨hlength, hruns⟩ := isRun_of_applyAllTraced h
  exact ⟨hlength.trans (length_runPatches patches), hruns⟩

/-! ### In batches -/

variable (reducer base) (first second : List Object)

theorem applyAll_append :
    reducer.applyAll base (first ++ second) = (do
      let next ← reducer.applyAll base first
      reducer.applyAll next second) := by
  induction first generalizing base with
  | nil => simp [applyAll]
  | cons patch rest ih => simp only [List.cons_append, applyAll, ih, bind_assoc]

theorem applyAllTraced_append :
    reducer.applyAllTraced base (first ++ second) = (do
      let (next, traces) ← reducer.applyAllTraced base first
      let (final, later) ← reducer.applyAllTraced next second
      return (final, traces ++ later)) := by
  induction first generalizing base with
  | nil => simp [applyAllTraced]
  | cons patch rest ih =>
    simp only [List.cons_append, applyAllTraced, ih, bind_assoc, pure_bind]

variable {first second}

/-- Folding one batch of patches after another is folding them at once. -/
theorem reduce_append (hfirst : first ≠ []) (hsecond : second ≠ []) :
    reducer.reduce base (first ++ second) = (do
      let next ← reducer.reduce base first
      reducer.reduce next second) := by
  have hboth : first ++ second ≠ [] := by simp [hfirst]
  simp only [reduce_eq_applyAll, runPatches_of_ne_nil, hfirst, hsecond, hboth, applyAll_append,
    ne_eq, not_false_eq_true]

/-- The records of batches are put together in order. -/
theorem reduceTraced_append (hfirst : first ≠ []) (hsecond : second ≠ []) :
    reducer.reduceTraced base (first ++ second) = (do
      let (next, traces) ← reducer.reduceTraced base first
      let (final, later) ← reducer.reduceTraced next second
      return (final, traces ++ later)) := by
  have hboth : first ++ second ≠ [] := by simp [hfirst]
  simp only [reduceTraced_eq_applyAllTraced, runPatches_of_ne_nil, hfirst, hsecond, hboth,
    applyAllTraced_append, ne_eq, not_false_eq_true]

end TransitionRules.Reducer
