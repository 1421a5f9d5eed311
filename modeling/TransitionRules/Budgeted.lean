/-
TransitionRules/Budgeted.lean

Computations that may go on for ever.  `Budgeted α` gives an outcome within a budget, or none if
the budget is too small, and keeps its outcome under every larger budget.  So an outcome is never
an artefact of the budget (`within_eq_of_le`), and a computation that has no outcome within any
budget is one that does not end.

Sequencing hands the same budget to both parts; only `loop` spends it, one unit a round.
-/
import TransitionRules.Error

namespace TransitionRules

/-- The outcome of a finished computation. -/
abbrev Outcome (α : Type) := Except RuleError α

/-- A computation whose outcome may need a budget. -/
structure Budgeted (α : Type) where
  within : Nat → Option (Outcome α)
  within_eq_of_le : ∀ {few many : Nat} {outcome : Outcome α}, few ≤ many →
    within few = some outcome → within many = some outcome

namespace Budgeted

variable {α β σ : Type}

/-- A computation that is finished. -/
def done (outcome : Outcome α) : Budgeted α where
  within _ := some outcome
  within_eq_of_le _ h := h

/-- What follows a computation within a budget. -/
def nextWithin (first : Option (Outcome α)) (next : α → Option (Outcome β)) :
    Option (Outcome β) :=
  match first with
  | none => none
  | some (.error e) => some (.error e)
  | some (.ok a) => next a

/-- One computation after another; the first failure ends both. -/
def andThen (first : Budgeted α) (next : α → Budgeted β) : Budgeted β where
  within budget := nextWithin (first.within budget) fun a => (next a).within budget
  within_eq_of_le {few many outcome} hle h := by
    unfold nextWithin at h ⊢
    cases hfirst : first.within few with
    | none => simp [hfirst] at h
    | some result =>
      rw [first.within_eq_of_le hle hfirst]
      rw [hfirst] at h
      cases result with
      | error e => exact h
      | ok a => exact (next a).within_eq_of_le hle h

instance : Monad Budgeted where
  pure a := done (.ok a)
  bind := andThen

instance : MonadLift (Except RuleError) Budgeted where
  monadLift := done

/-- A computation that has failed. -/
def fail (e : RuleError) : Budgeted α := done (.error e)

/-! ### Repetition -/

/-- Rounds of a loop within a budget. -/
def loopWithin (round : σ → Budgeted (σ ⊕ α)) : Nat → σ → Option (Outcome α)
  | 0, _ => none
  | budget + 1, state =>
    match (round state).within budget with
    | none => none
    | some (.error e) => some (.error e)
    | some (.ok (.inl state)) => loopWithin round budget state
    | some (.ok (.inr a)) => some (.ok a)

theorem loopWithin_eq_of_le (round : σ → Budgeted (σ ⊕ α)) {few many : Nat}
    {outcome : Outcome α} (hle : few ≤ many) {state : σ}
    (h : loopWithin round few state = some outcome) :
    loopWithin round many state = some outcome := by
  induction few generalizing many state with
  | zero => cases h
  | succ few ih =>
    obtain ⟨many, rfl⟩ : ∃ m, many = m + 1 := ⟨many - 1, by omega⟩
    have hle : few ≤ many := by omega
    unfold loopWithin at h ⊢
    cases hround : (round state).within few with
    | none => simp [hround] at h
    | some result =>
      rw [(round state).within_eq_of_le hle hround]
      rw [hround] at h
      cases result with
      | error e => exact h
      | ok next =>
        cases next with
        | inl state => exact ih hle h
        | inr a => exact h

/-- Repeats a round from state to state until one gives an answer. -/
def loop (round : σ → Budgeted (σ ⊕ α)) (start : σ) : Budgeted α where
  within budget := loopWithin round budget start
  within_eq_of_le hle h := loopWithin_eq_of_le round hle h

/-! ### Ending -/

/-- The computation ends with this outcome. -/
def Ends (computation : Budgeted α) (outcome : Outcome α) : Prop :=
  ∃ budget, computation.within budget = some outcome

/-- The computation never ends. -/
def Diverges (computation : Budgeted α) : Prop :=
  ∀ budget, computation.within budget = none

/-- A computation has one outcome at most. -/
theorem Ends.unique {computation : Budgeted α} {first second : Outcome α}
    (hfirst : computation.Ends first) (hsecond : computation.Ends second) : first = second := by
  obtain ⟨n, hn⟩ := hfirst
  obtain ⟨m, hm⟩ := hsecond
  have h := computation.within_eq_of_le (Nat.le_max_left n m) hn
  rw [computation.within_eq_of_le (Nat.le_max_right n m) hm] at h
  exact (Option.some.inj h).symm

end Budgeted

end TransitionRules
