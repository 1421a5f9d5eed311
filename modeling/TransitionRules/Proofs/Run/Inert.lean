/-
TransitionRules/Proofs/Run/Inert.lean

Rules that change nothing.  A rule is inert if its matcher always answers and either never holds or
guards a transform that gives back the object it gets.  Such a rule can be put into a list of rules
anywhere: it may match and retire in any pass, but every other rule gets the same objects, retires in
the same pass, and the run stops in the same pass.

The one delicate point is a pass in which only the inert rule matches.  Without the rule nothing
matches and the run stops; with it the output is the candidate, which has its own value
(`Object.sameValue_refl`), and the run stops as well.

Main result: `stabilize_insert_inert`.  The step lemma is `loggedRound_without`, which relates a
round to the round over the remaining rules, logs included.
-/
import TransitionRules.Proofs.Json.SameValue
import TransitionRules.Proofs.Run.Log

namespace TransitionRules.Run

open Budgeted (Agrees RoundsAgree)
open Reference (Turn turns lastOutput idle)

/-- The rule never has an effect, and its matcher always answers. -/
structure Inert (rule : Rule) : Prop where
  answers : ∀ context, ∃ holds, (rule.matcher.holds context).Ends (.ok holds)
  idle : (∀ context, (rule.matcher.holds context).Ends (.ok false)) ∨
    ∀ object, (rule.transform object).Ends (.ok object)

variable {ι : Type} [DecidableEq ι]

/-- A list without one place. -/
def without (place : ι) (places : List ι) : List ι := places.filter fun other => other ≠ place

/-- A pass without the part that one rule has in it. -/
def PassLog.without (place : ι) (pass : PassLog ι) : PassLog ι :=
  ⟨Run.without place pass.matched, pass.output, Run.without place pass.retired⟩

/-- A log without the part that one rule has in it. -/
def Log.without (place : ι) (log : Log ι) : Log ι := log.map (PassLog.without place)

theorem without_cons_self (place : ι) (places : List ι) :
    without place (place :: places) = without place places := by
  simp [without]

theorem without_cons_of_ne {place other : ι} (h : other ≠ place) (places : List ι) :
    without place (other :: places) = other :: without place places := by
  simp [without, h]

theorem without_map_succ {count : Nat} (place : Fin count) (places : List (Fin count)) :
    without place.succ (places.map Fin.succ) = (without place places).map Fin.succ := by
  simp only [without, List.filter_map]
  refine congrArg _ (List.filter_congr fun other _ => ?_)
  simp [Fin.succ_inj]

/-- Leaving out one place and leaving out several commute. -/
theorem without_filter_notMem (place : ι) (places gone : List ι) :
    without place (places.filter fun other => other ∉ gone) =
      (without place places).filter fun other => other ∉ without place gone := by
  simp only [without, List.filter_filter]
  refine List.filter_congr fun other _ => ?_
  by_cases h : other = place <;> simp [h]

/-! ### One pass -/

variable {rule : ι → Rule} {place : ι} {before candidate : Object}

/-- Asking one matcher more, which answers, changes nothing about the other rules. -/
theorem filterM_without (test : ι → Budgeted Bool) {place : ι} {holds : Bool}
    (hanswers : (test place).Ends (.ok holds)) (places : List ι) :
    Agrees (fun kept kept' => kept = without place kept' ∧
        ∀ other ∈ kept', (test other).Ends (.ok true))
      ((without place places).filterM test) (places.filterM test) := by
  induction places with
  | nil =>
    rw [without, List.filter_nil, Budgeted.filterM_nil]
    exact .pure ⟨rfl, by simp⟩
  | cons item rest ih =>
    rw [Budgeted.filterM_cons]
    by_cases hitem : item = place
    · subst hitem
      rw [without_cons_self, ← bind_pure ((without item rest).filterM test)]
      refine .after hanswers (ih.bind fun kept kept' hkept => .pure ?_)
      cases holds with
      | false => exact hkept
      | true =>
        refine ⟨?_, by simpa [hanswers] using hkept.2⟩
        rw [if_pos rfl, without_cons_self]
        exact hkept.1
    · rw [without_cons_of_ne hitem, Budgeted.filterM_cons]
      refine (Agrees.self (test item)).bind fun answer _ hanswer => ?_
      obtain ⟨rfl, hanswer⟩ := hanswer
      refine ih.bind fun kept kept' hkept => .pure ?_
      cases answer with
      | false => exact hkept
      | true =>
        refine ⟨?_, by simpa [hanswer] using hkept.2⟩
        rw [if_pos rfl, if_pos rfl, without_cons_of_ne hitem, hkept.1]

/-- A turn of a transform that gives back what it gets changes nothing about the other turns. -/
theorem turns_without {matched : List ι}
    (hidle : place ∈ matched → ∀ object, ((rule place).transform object).Ends (.ok object))
    (input : Object) :
    Agrees (fun results results' =>
        results = results'.filter (fun turn => turn.rule ≠ place) ∧
          results'.map Turn.rule = matched ∧ lastOutput input results = lastOutput input results')
      (turns rule input (without place matched)) (turns rule input matched) := by
  induction matched generalizing input with
  | nil => exact .pure ⟨rfl, rfl, rfl⟩
  | cons item rest ih =>
    have hrest := ih fun hmem => hidle (List.mem_cons_of_mem item hmem)
    by_cases hitem : item = place
    · subst hitem
      rw [without_cons_self, ← bind_pure (turns rule input (without item rest))]
      refine .after (hidle List.mem_cons_self input) ((hrest input).bind fun results results' h => ?_)
      obtain ⟨hresults, hplaces, houtput⟩ := h
      refine .pure ⟨?_, ?_, ?_⟩
      · rw [List.filter_cons_of_neg (by simp), hresults]
      · rw [List.map_cons, hplaces]
      · rw [Reference.lastOutput_cons, houtput]
    · rw [without_cons_of_ne hitem]
      refine (Agrees.refl (R := Eq) (fun _ => rfl) _).bind fun output _ houtput => ?_
      subst houtput
      refine (hrest output).bind fun results results' h => ?_
      obtain ⟨hresults, hplaces, houtput⟩ := h
      refine .pure ⟨?_, ?_, ?_⟩
      · rw [List.filter_cons_of_pos (by simpa using hitem), hresults]
      · rw [List.map_cons, hplaces]
      · rw [Reference.lastOutput_cons, Reference.lastOutput_cons, houtput]

theorem idle_without (place : ι) (results : List (Turn ι)) :
    idle (results.filter fun turn => turn.rule ≠ place) = without place (idle results) := by
  simp only [idle, without, List.filter_map, List.filter_filter]
  refine congrArg _ (List.filter_congr fun turn _ => ?_)
  exact Bool.and_comm _ _

/-- A pass with an inert rule and the pass without it agree on the other rules, and on whether the
run stops. -/
theorem loggedPass_without (hinert : Inert (rule place)) (before candidate : Object)
    (places : List ι) :
    Agrees (fun pass pass' => pass = pass'.without place ∧
        pass.isStable candidate = pass'.isStable candidate)
      (loggedPass rule before candidate (without place places))
      (loggedPass rule before candidate places) := by
  obtain ⟨holds, hanswers⟩ := hinert.answers ⟨before, candidate⟩
  refine (filterM_without (fun place => (rule place).matcher.holds ⟨before, candidate⟩)
    hanswers places).bind fun _ matched h => ?_
  obtain ⟨rfl, hmatched⟩ := h
  have hidle : place ∈ matched → ∀ object, ((rule place).transform object).Ends (.ok object) := by
    intro hmem
    refine hinert.idle.resolve_left fun hnever => ?_
    cases (hnever ⟨before, candidate⟩).unique (hmatched place hmem)
  refine (turns_without hidle candidate).bind fun results results' h => .pure ?_
  obtain ⟨rfl, hplaces, houtput⟩ := h
  rw [idle_without, houtput]
  -- what is left to see is that the two passes are stable together
  refine ⟨rfl, ?_⟩
  rw [PassLog.isStable, PassLog.isStable]
  by_cases hothers : without place matched = []
  · -- only the inert rule can have matched, and the candidate is left as it was
    have hnone : results'.filter (fun turn => turn.rule ≠ place) = [] := by
      rw [← List.map_eq_nil_iff (f := Turn.rule), ← hothers, ← hplaces, without, List.filter_map]
      rfl
    have hsame : (lastOutput candidate results').sameValue candidate = true := by
      rw [← houtput, hnone]
      exact candidate.sameValue_refl
    rw [hsame, Bool.or_true, Bool.or_true]
  · have hsome : matched ≠ [] := by
      rintro rfl
      exact hothers rfl
    rw [List.isEmpty_eq_false_iff.mpr hothers, List.isEmpty_eq_false_iff.mpr hsome]

/-! ### Whole runs -/

/-- States of a run without an inert rule and of one with it. -/
def StateWithout (place : ι) (state state' : LogState ι) : Prop :=
  state.candidate = state'.candidate ∧ state.active = without place state'.active ∧
    state.log = state'.log.without place

/-- Results of a run without an inert rule and of one with it. -/
def ResultWithout (place : ι) (result result' : Object × Log ι) : Prop :=
  result = (result'.1, result'.2.without place)

theorem loggedRound_without (hinert : Inert (rule place)) (before : Object) (limit : Option Nat) :
    RoundsAgree (StateWithout place) (ResultWithout place) (loggedRound rule before limit)
      (loggedRound rule before limit) := by
  rintro ⟨candidate, _, _, _⟩ ⟨_, active, nodup, log⟩ ⟨hcandidate, hactive, hlog⟩
  dsimp only at hcandidate hactive hlog
  subst hcandidate hactive hlog
  refine (loggedPass_without hinert before candidate active).bind fun _ pass h => ?_
  obtain ⟨rfl, hstable⟩ := h
  have hlog : Log.without place log ++ [pass.without place] = Log.without place (log ++ [pass]) := by
    rw [Log.without, Log.without, List.map_append, List.map_singleton]
  have hlength : (Log.without place (log ++ [pass])).length = (log ++ [pass]).length :=
    List.length_map _
  dsimp only
  rw [hstable, hlog, hlength]
  split
  · exact .pure (.inr rfl)
  · split
    · exact .fail _
    · exact .pure (.inl ⟨rfl, (without_filter_notMem place active pass.retired).symm, rfl⟩)

/-- The place of a rule that has been put into a list. -/
def insertedPlace (front : List Rule) (rule : Rule) (back : List Rule) :
    Fin (front ++ rule :: back).length :=
  ⟨front.length, by simp⟩

theorem get_insertedPlace (front : List Rule) (rule : Rule) (back : List Rule) :
    (front ++ rule :: back).get (insertedPlace front rule back) = rule := by
  simp [insertedPlace]

/-- The places of a list but for that of the rule put into it are those of the list before. -/
theorem map_get_without_insertedPlace (front : List Rule) (rule : Rule) (back : List Rule) :
    (without (insertedPlace front rule back) (List.finRange _)).map (front ++ rule :: back).get =
      front ++ back := by
  induction front with
  | nil =>
    show (without 0 (List.finRange (back.length + 1))).map (rule :: back).get = back
    rw [List.finRange_succ, without_cons_self, without, List.filter_map]
    simp [Function.comp_def, Fin.succ_ne_zero]
  | cons first front ih =>
    show (without (insertedPlace front rule back).succ
        (List.finRange ((front ++ rule :: back).length + 1))).map
        (first :: (front ++ rule :: back)).get = first :: (front ++ back)
    rw [List.finRange_succ, without_cons_of_ne (Fin.succ_ne_zero _).symm, without_map_succ,
      List.map_cons, List.map_map, ← ih]
    rfl

/-- **Inert rules are transparent.**  A run over a list of rules and the run over the list with an
inert rule put into it end in the same pass, with the same object or the same error, or go on for
ever together.  The record of the run with the inert rule is a log in names, and the record of the
other run is that log without the part that the inert rule has in it; the inert rule retires once at
most and matches in no later pass. -/
theorem stabilize_insert_inert (front back : List Rule) {inert : Rule} (hinert : Inert inert)
    (limit : Option Nat) (before patch : Object) :
    (∀ number outcome,
      PlainEndsInPass (front ++ inert :: back) limit before patch number outcome ↔
        PlainEndsInPass (front ++ back) limit before patch number outcome) ∧
    ((stabilize (front ++ inert :: back) limit before patch).Diverges ↔
      (stabilize (front ++ back) limit before patch).Diverges) ∧
    ∀ number object trace,
      EndsInPass (front ++ inert :: back) limit before patch number (.ok (object, trace)) →
      let rule := (front ++ inert :: back).get
      let place := insertedPlace front inert back
      ∃ log, LogsInPass rule (List.nodup_finRange _) limit before patch number (.ok (object, log)) ∧
        trace = log.trace (fun place => (rule place).name) ∧
        EndsInPass (front ++ back) limit before patch number
          (.ok (object, (log.without place).trace fun place => (rule place).name)) ∧
        (log.flatMap PassLog.retired).count place ≤ 1 ∧
        log.Pairwise fun earlier later => place ∈ earlier.retired → place ∉ later.matched := by
  have hget : Inert ((front ++ inert :: back).get (insertedPlace front inert back)) := by
    rwa [get_insertedPlace]
  have hrounds := loggedRound_without hget before limit
  -- the two runs start with the given places, all of them or all but that of the inert rule
  have hnodup := List.nodup_finRange (front ++ inert :: back).length
  have hothers : (without (insertedPlace front inert back) (List.finRange _)).Nodup :=
    hnodup.filter _
  have hstart : StateWithout (insertedPlace front inert back) (.start before patch hothers)
      (.start before patch hnodup) := ⟨rfl, rfl, rfl⟩
  have hback := map_get_without_insertedPlace front inert back
  have hplain : ∀ number outcome,
      PlainEndsInPass (front ++ inert :: back) limit before patch number outcome ↔
        PlainEndsInPass (front ++ back) limit before patch number outcome := by
    intro number outcome
    have hwithout := plainEndsInPass_iff_logged (front ++ inert :: back).get hothers limit before
      patch number outcome
    rw [hback] at hwithout
    rw [plainEndsInPass_iff_logged_get, hwithout]
    exact (hrounds.endsIn_iff hstart (fun _ _ h => congrArg Prod.fst h) number outcome).symm
  refine ⟨hplain, stabilize_diverges_iff hplain, ?_⟩
  intro number object trace hend rule place
  obtain ⟨log, hlog, rfl⟩ := exists_log_of_endsInPass hend
  obtain ⟨_, hlog', halike⟩ := hrounds.symm.endsIn hstart hlog
  cases halike with
  | @ok _ result' hresult =>
    obtain rfl : result' = (object, log.without place) := hresult
    have hothers' := LogsInPass.endsInPass hlog'
    rw [hback] at hothers'
    obtain ⟨active, horderly⟩ := hlog.orderly
    refine ⟨log, hlog, rfl, hothers', ?_, horderly.later.imp fun h => h place⟩
    exact List.nodup_iff_count_le_one.mp horderly.retired_nodup place

/-- A rule that gives back what it gets. -/
def echo : Rule where
  name := "echo"
  matcher := .constant true
  transform := pure

theorem echo_inert : Inert echo where
  answers _ := ⟨true, 0, rfl⟩
  idle := .inr fun _ => ⟨0, rfl⟩

/-- A rule that sets a field. -/
def stamp : Rule where
  name := "stamp"
  matcher := .constant true
  transform object := pure (object.insert "stamped" (.bool true))

/-- An echo before the rule that stamps: both runs settle on the stamped object in the second
pass. -/
theorem stabilize_insert_inert_echo :
    Inert echo ∧
      PlainEndsInPass [stamp] (some 2) .nil .nil 2
        (.ok (FieldsAfter.nil.insert "stamped" (.bool true))) ∧
      PlainEndsInPass [echo, stamp] (some 2) .nil .nil 2
        (.ok (FieldsAfter.nil.insert "stamped" (.bool true))) := by
  have hrun : PlainEndsInPass [stamp] (some 2) .nil .nil 2
      (.ok (FieldsAfter.nil.insert "stamped" (.bool true))) :=
    .next ⟨0, rfl⟩ (.answer ⟨0, rfl⟩)
  have hboth := stabilize_insert_inert [] [stamp] echo_inert (some 2) .nil .nil
  exact ⟨echo_inert, hrun, (hboth.1 _ _).mpr hrun⟩

end TransitionRules.Run
