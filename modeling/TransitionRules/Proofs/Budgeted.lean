/-
TransitionRules/Proofs/Budgeted.lean

The theory of computations that may go on for ever.  A computation is determined by what it gives
within each budget (`ext`), and sequencing obeys the monad laws (`instLawfulMonad`), so programs
can be rearranged as equations.  Statements about what a program leads to use `Ends` instead, with
one equation for each way of building a program (`ends_bind_iff`, `ends_map_iff`).

Loops are described by their rounds:

* `Reaches round s k t` says that `k` rounds lead from the state `s` to the state `t`;
* `EndsIn round s k outcome` says that the loop started in `s` ends in its `k`-th round.

Main results: a loop has an outcome exactly when it ends in some round (`loop_ends_iff`), it ends in
one round at most (`EndsIn.unique`), and whatever number of rounds is allowed, the loop ends within
them, outlasts them, or is held up for ever by one of them (`endsIn_or_reaches_or_held_up`).  A measure
that every round makes smaller bounds the number of rounds (`reaches_last_of_measure`).
-/
import TransitionRules.Budgeted

namespace TransitionRules.Budgeted

variable {α β γ σ τ : Type}

/-! ### Equations of computations -/

@[ext] theorem ext {first second : Budgeted α}
    (h : ∀ budget, first.within budget = second.within budget) : first = second := by
  cases first
  cases second
  simp only [Budgeted.mk.injEq]
  exact funext h

theorem within_bind (first : Budgeted α) (next : α → Budgeted β) (budget : Nat) :
    (first >>= next).within budget =
      nextWithin (first.within budget) fun a => (next a).within budget := rfl

instance instLawfulMonad : LawfulMonad Budgeted :=
  LawfulMonad.mk' Budgeted
    (fun x => by
      refine ext fun budget => ?_
      show nextWithin (x.within budget) (fun a => some (.ok a)) = x.within budget
      rcases x.within budget with - | (e | a) <;> rfl)
    (fun _ _ => rfl)
    (fun x f g => by
      refine ext fun budget => ?_
      simp only [within_bind]
      rcases x.within budget with - | (e | a) <;> rfl)

theorem within_map (f : α → β) (x : Budgeted α) (budget : Nat) :
    (f <$> x).within budget = (x.within budget).map (Except.map f) := by
  rw [← bind_pure_comp, within_bind]
  rcases x.within budget with - | (e | a) <;> rfl

/-! ### Outcomes -/

theorem ends_done_iff {outcome outcome' : Outcome α} :
    (done outcome).Ends outcome' ↔ outcome' = outcome := by
  constructor
  · rintro ⟨budget, h⟩
    exact (Option.some.inj h).symm
  · rintro rfl
    exact ⟨0, rfl⟩

theorem ends_pure_iff {a : α} {outcome : Outcome α} :
    (pure a : Budgeted α).Ends outcome ↔ outcome = .ok a := ends_done_iff

theorem ends_fail_iff {e : RuleError} {outcome : Outcome α} :
    (fail e : Budgeted α).Ends outcome ↔ outcome = .error e := ends_done_iff

/-- A sequence ends where its first part fails, or where both parts have ended. -/
theorem ends_bind_iff {first : Budgeted α} {next : α → Budgeted β} {outcome : Outcome β} :
    (first >>= next).Ends outcome ↔
      (∃ e, first.Ends (.error e) ∧ outcome = .error e) ∨
        ∃ a, first.Ends (.ok a) ∧ (next a).Ends outcome := by
  constructor
  · rintro ⟨budget, h⟩
    rw [within_bind] at h
    rcases hfirst : first.within budget with - | (e | a)
    · rw [hfirst] at h
      cases h
    · rw [hfirst] at h
      exact .inl ⟨e, ⟨budget, hfirst⟩, (Option.some.inj h).symm⟩
    · rw [hfirst] at h
      exact .inr ⟨a, ⟨budget, hfirst⟩, ⟨budget, h⟩⟩
  · rintro (⟨e, ⟨budget, h⟩, rfl⟩ | ⟨a, ⟨few, hfirst⟩, ⟨many, hnext⟩⟩)
    · exact ⟨budget, by rw [within_bind, h]; rfl⟩
    · refine ⟨max few many, ?_⟩
      rw [within_bind, first.within_eq_of_le (Nat.le_max_left few many) hfirst]
      exact (next a).within_eq_of_le (Nat.le_max_right few many) hnext

theorem ends_bind_ok_iff {first : Budgeted α} {next : α → Budgeted β} {b : β} :
    (first >>= next).Ends (.ok b) ↔ ∃ a, first.Ends (.ok a) ∧ (next a).Ends (.ok b) := by
  simp [ends_bind_iff]

theorem ends_map_iff {f : α → β} {x : Budgeted α} {outcome : Outcome β} :
    (f <$> x).Ends outcome ↔ ∃ result, x.Ends result ∧ outcome = result.map f := by
  simp only [Ends, within_map, Option.map_eq_some_iff]
  constructor
  · rintro ⟨budget, result, h, rfl⟩
    exact ⟨result, ⟨budget, h⟩, rfl⟩
  · rintro ⟨result, ⟨budget, h⟩, rfl⟩
    exact ⟨budget, result, h, rfl⟩

/-- The computation ends. -/
def Halts (x : Budgeted α) : Prop := ∃ outcome, x.Ends outcome

/-- What never ends is what does not end. -/
theorem diverges_iff_not_halts {x : Budgeted α} : x.Diverges ↔ ¬ x.Halts := by
  constructor
  · rintro h ⟨outcome, budget, hbudget⟩
    rw [h budget] at hbudget
    cases hbudget
  · intro h budget
    rcases hbudget : x.within budget with - | outcome
    · rfl
    · exact absurd ⟨outcome, budget, hbudget⟩ h

theorem halts_pure (a : α) : (pure a : Budgeted α).Halts := ⟨_, ends_pure_iff.mpr rfl⟩

theorem halts_fail (e : RuleError) : (fail e : Budgeted α).Halts := ⟨_, ends_fail_iff.mpr rfl⟩

theorem Halts.bind {first : Budgeted α} {next : α → Budgeted β} (hfirst : first.Halts)
    (hnext : ∀ a, first.Ends (.ok a) → (next a).Halts) : (first >>= next).Halts := by
  obtain ⟨e | a, hends⟩ := hfirst
  · exact ⟨_, ends_bind_iff.mpr (.inl ⟨e, hends, rfl⟩)⟩
  · obtain ⟨outcome, houtcome⟩ := hnext a hends
    exact ⟨outcome, ends_bind_iff.mpr (.inr ⟨a, hends, houtcome⟩)⟩

theorem Halts.of_bind {first : Budgeted α} {next : α → Budgeted β}
    (h : (first >>= next).Halts) : first.Halts := by
  obtain ⟨outcome, hends⟩ := h
  obtain ⟨e, hends, -⟩ | ⟨a, hends, -⟩ := ends_bind_iff.mp hends
  · exact ⟨_, hends⟩
  · exact ⟨_, hends⟩

theorem halts_map_iff {f : α → β} {x : Budgeted α} : (f <$> x).Halts ↔ x.Halts := by
  constructor
  · rintro ⟨_, hends⟩
    obtain ⟨result, hresult, -⟩ := ends_map_iff.mp hends
    exact ⟨result, hresult⟩
  · rintro ⟨result, hresult⟩
    exact ⟨_, ends_map_iff.mpr ⟨result, hresult, rfl⟩⟩

/-- What follows a computation need only agree on the results that it can give. -/
theorem bind_congr_of_ends {first : Budgeted α} {next next' : α → Budgeted β}
    (h : ∀ a, first.Ends (.ok a) → next a = next' a) : first >>= next = first >>= next' := by
  refine ext fun budget => ?_
  simp only [within_bind]
  rcases hfirst : first.within budget with - | (e | a)
  · rfl
  · rfl
  · simp only [nextWithin, h a ⟨budget, hfirst⟩]

/-! ### What results satisfy -/

/-- Every result of the computation has the property. -/
def Gives (p : α → Prop) (x : Budgeted α) : Prop := ∀ a, x.Ends (.ok a) → p a

theorem gives_done_iff {p : α → Prop} {outcome : Outcome α} :
    (done outcome).Gives p ↔ ∀ a, outcome = .ok a → p a := by
  simp only [Gives, ends_done_iff, eq_comm]

theorem gives_pure_iff {p : α → Prop} {a : α} : (pure a : Budgeted α).Gives p ↔ p a := by
  simp only [Gives, ends_pure_iff, Except.ok.injEq, forall_eq]

theorem Gives.bind {p : α → Prop} {q : β → Prop} {first : Budgeted α} {next : α → Budgeted β}
    (h : first.Gives p) (hnext : ∀ a, p a → (next a).Gives q) : (first >>= next).Gives q := by
  intro b hb
  obtain ⟨a, ha, hb⟩ := ends_bind_ok_iff.mp hb
  exact hnext a (h a ha) b hb

/-- What a computation gives need not depend on what comes before it. -/
theorem gives_bind_of_next {q : β → Prop} {first : Budgeted α} {next : α → Budgeted β}
    (hnext : ∀ a, (next a).Gives q) : (first >>= next).Gives q := by
  intro b hb
  obtain ⟨a, -, hb⟩ := ends_bind_ok_iff.mp hb
  exact hnext a b hb

/-! ### Filtering by a computation -/

theorem filterAuxM_eq_map (test : α → Budgeted Bool) (items kept : List α) :
    items.filterAuxM test kept = (· ++ kept) <$> items.filterAuxM test [] := by
  induction items generalizing kept with
  | nil => simp
  | cons item rest ih =>
    simp only [List.filterAuxM, map_bind]
    refine congrArg _ (funext fun holds => ?_)
    rw [ih, ih (cond holds [item] [])]
    cases holds <;> simp

@[simp] theorem filterM_nil (test : α → Budgeted Bool) :
    ([] : List α).filterM test = pure [] := by
  simp [List.filterM]

theorem filterM_cons (test : α → Budgeted Bool) (item : α) (rest : List α) :
    (item :: rest).filterM test = do
      let holds ← test item
      let kept ← rest.filterM test
      return if holds then item :: kept else kept := by
  simp only [List.filterM, List.filterAuxM, bind_assoc, pure_bind]
  refine congrArg _ (funext fun holds => ?_)
  rw [filterAuxM_eq_map]
  cases holds <;> simp

/-- Filtering commutes with relabelling. -/
theorem filterM_map (f : β → α) (test : α → Budgeted Bool) (items : List β) :
    (items.map f).filterM test = List.map f <$> items.filterM (test ∘ f) := by
  induction items with
  | nil => simp
  | cons item rest ih =>
    simp only [List.map_cons, filterM_cons, ih, map_bind, bind_map_left, Function.comp_apply,
      map_pure]
    refine congrArg _ (funext fun holds => congrArg _ (funext fun kept => ?_))
    cases holds <;> rfl

/-- What a filter keeps was there, in the same order. -/
theorem sublist_of_filterM {test : α → Budgeted Bool} {items kept : List α}
    (h : (items.filterM test).Ends (.ok kept)) : kept.Sublist items := by
  induction items generalizing kept with
  | nil =>
    rw [filterM_nil] at h
    cases ends_pure_iff.mp h
    exact .refl _
  | cons item rest ih =>
    rw [filterM_cons] at h
    obtain ⟨holds, -, h⟩ := ends_bind_ok_iff.mp h
    obtain ⟨later, hlater, h⟩ := ends_bind_ok_iff.mp h
    obtain rfl : kept = if holds then item :: later else later :=
      Except.ok.inj (ends_pure_iff.mp h)
    cases holds with
    | false => exact (ih hlater).cons item
    | true => exact (ih hlater).cons_cons item

/-! ### Rounds of a loop -/

/-- So many rounds lead from one state to another. -/
inductive Reaches (round : σ → Budgeted (σ ⊕ α)) : σ → Nat → σ → Prop where
  | start {state : σ} : Reaches round state 0 state
  | next {state later final : σ} {rounds : Nat} :
      (round state).Ends (.ok (.inl later)) → Reaches round later rounds final →
      Reaches round state (rounds + 1) final

/-- The loop ends in the round of this number, with this outcome. -/
inductive EndsIn (round : σ → Budgeted (σ ⊕ α)) : σ → Nat → Outcome α → Prop where
  | answer {state : σ} {a : α} :
      (round state).Ends (.ok (.inr a)) → EndsIn round state 1 (.ok a)
  | failure {state : σ} {e : RuleError} :
      (round state).Ends (.error e) → EndsIn round state 1 (.error e)
  | next {state later : σ} {rounds : Nat} {outcome : Outcome α} :
      (round state).Ends (.ok (.inl later)) → EndsIn round later rounds outcome →
      EndsIn round state (rounds + 1) outcome

variable {round : σ → Budgeted (σ ⊕ α)} {state later final : σ} {rounds : Nat}
variable {outcome : Outcome α}

/-- What every round keeps, any number of rounds keep. -/
theorem Reaches.keeps {P : σ → Prop} (h : Reaches round state rounds later)
    (hround : ∀ state next, (round state).Ends (.ok (.inl next)) → P state → P next)
    (hstate : P state) : P later := by
  induction h with
  | start => exact hstate
  | next hnext _ ih => exact ih (hround _ _ hnext hstate)

/-- After some rounds that do not end a loop, it ends as one started in the state they reach. -/
theorem Reaches.endsIn_iff {number : Nat} (h : Reaches round state rounds later) :
    EndsIn round state number outcome ↔
      ∃ more, number = more + rounds ∧ EndsIn round later more outcome := by
  induction h generalizing number with
  | start => simp
  | @next state middle later rounds hround _ ih =>
    constructor
    · intro hend
      cases hend with
      | answer hend => cases hround.unique hend
      | failure hend => cases hround.unique hend
      | next hend hrest =>
        cases hround.unique hend
        obtain ⟨more, rfl, hmore⟩ := ih.mp hrest
        exact ⟨more, rfl, hmore⟩
    · rintro ⟨more, rfl, hmore⟩
      exact .next hround (ih.mpr ⟨more, rfl, hmore⟩)

/-- A loop ends in one round at most, with one outcome. -/
theorem EndsIn.unique {rounds' : Nat} {outcome' : Outcome α}
    (h : EndsIn round state rounds outcome) (h' : EndsIn round state rounds' outcome') :
    rounds = rounds' ∧ outcome = outcome' := by
  induction h generalizing rounds' outcome' with
  | answer hround =>
    cases h' with
    | answer hround' => cases hround.unique hround'; exact ⟨rfl, rfl⟩
    | failure hround' => cases hround.unique hround'
    | next hround' _ => cases hround.unique hround'
  | failure hround =>
    cases h' with
    | answer hround' => cases hround.unique hround'
    | failure hround' => cases hround.unique hround'; exact ⟨rfl, rfl⟩
    | next hround' _ => cases hround.unique hround'
  | next hround _ ih =>
    cases h' with
    | answer hround' => cases hround.unique hround'
    | failure hround' => cases hround.unique hround'
    | next hround' hrest' =>
      cases hround.unique hround'
      obtain ⟨hrounds, houtcome⟩ := ih hrest'
      exact ⟨congrArg (· + 1) hrounds, houtcome⟩

/-- The answer of a loop is the answer of its last round. -/
theorem EndsIn.last {a : α} (h : EndsIn round state rounds (.ok a)) :
    ∃ earlier final, rounds = earlier + 1 ∧ Reaches round state earlier final ∧
      (round final).Ends (.ok (.inr a)) := by
  generalize houtcome : (Except.ok a : Outcome α) = outcome at h
  induction h with
  | @answer state _ hround =>
    cases houtcome
    exact ⟨0, state, rfl, .start, hround⟩
  | failure _ => cases houtcome
  | next hround _ ih =>
    obtain ⟨earlier, final, rfl, hreach, hanswer⟩ := ih houtcome
    exact ⟨earlier + 1, final, rfl, .next hround hreach, hanswer⟩

/-- A loop that ends within a budget ends in one of its rounds. -/
theorem endsIn_of_loopWithin {budget : Nat}
    (h : loopWithin round budget state = some outcome) :
    ∃ rounds, EndsIn round state rounds outcome := by
  induction budget generalizing state with
  | zero => cases h
  | succ budget ih =>
    unfold loopWithin at h
    rcases hround : (round state).within budget with - | (e | (later | a))
    · simp [hround] at h
    · simp only [hround, Option.some.injEq] at h
      exact ⟨1, h ▸ .failure ⟨budget, hround⟩⟩
    · simp only [hround] at h
      obtain ⟨rounds, hrest⟩ := ih h
      exact ⟨rounds + 1, .next ⟨budget, hround⟩ hrest⟩
    · simp only [hround, Option.some.injEq] at h
      exact ⟨1, h ▸ .answer ⟨budget, hround⟩⟩

theorem EndsIn.ends_loop (h : EndsIn round state rounds outcome) :
    (loop round state).Ends outcome := by
  induction h with
  | answer hround =>
    obtain ⟨budget, hbudget⟩ := hround
    exact ⟨budget + 1, by simp [loop, loopWithin, hbudget]⟩
  | failure hround =>
    obtain ⟨budget, hbudget⟩ := hround
    exact ⟨budget + 1, by simp [loop, loopWithin, hbudget]⟩
  | @next state later _ outcome hround _ ih =>
    obtain ⟨few, hfew⟩ := hround
    obtain ⟨many, hmany⟩ := ih
    -- one budget serves the first round and all the others
    refine ⟨max few many + 1, ?_⟩
    have hround := (round state).within_eq_of_le (Nat.le_max_left few many) hfew
    have hrest := loopWithin_eq_of_le round (Nat.le_max_right few many) hmany
    simp [loop, loopWithin, hround, hrest]

/-- A loop has an outcome exactly when it ends in some round. -/
theorem loop_ends_iff :
    (loop round state).Ends outcome ↔ ∃ rounds, EndsIn round state rounds outcome := by
  constructor
  · rintro ⟨budget, h⟩
    exact endsIn_of_loopWithin h
  · rintro ⟨rounds, h⟩
    exact h.ends_loop

/-- A loop with a round that never ends does not end either. -/
theorem Reaches.diverges_loop (h : Reaches round state rounds later)
    (hround : (round later).Diverges) : (loop round state).Diverges := by
  rw [diverges_iff_not_halts] at hround ⊢
  rintro ⟨outcome, hend⟩
  obtain ⟨number, hend⟩ := loop_ends_iff.mp hend
  obtain ⟨more, -, hlater⟩ := h.endsIn_iff.mp hend
  cases hlater with
  | answer hanswer => exact hround ⟨_, hanswer⟩
  | failure hfailure => exact hround ⟨_, hfailure⟩
  | next hnext _ => exact hround ⟨_, hnext⟩

/-- Whatever number of rounds is allowed, a loop ends within them, outlasts them, or is held up
for ever by one of them. -/
theorem endsIn_or_reaches_or_held_up (round : σ → Budgeted (σ ⊕ α)) (rounds : Nat) (state : σ) :
    (∃ number, number ≤ rounds ∧ ∃ outcome, EndsIn round state number outcome) ∨
      (∃ final, Reaches round state rounds final) ∨
      ∃ number, number < rounds ∧ ∃ later, Reaches round state number later ∧
        (round later).Diverges := by
  induction rounds generalizing state with
  | zero => exact .inr (.inl ⟨state, .start⟩)
  | succ rounds ih =>
    by_cases hround : (round state).Halts
    · obtain ⟨e | (later | a), hround⟩ := hround
      · exact .inl ⟨1, by omega, _, .failure hround⟩
      · obtain ⟨number, hle, outcome, hend⟩ | ⟨final, hreach⟩ | ⟨number, hlt, held, hreach, hdiv⟩ :=
          ih later
        · exact .inl ⟨number + 1, by omega, outcome, .next hround hend⟩
        · exact .inr (.inl ⟨final, .next hround hreach⟩)
        · exact .inr (.inr ⟨number + 1, by omega, held, .next hround hreach, hdiv⟩)
      · exact .inl ⟨1, by omega, _, .answer hround⟩
    · exact .inr (.inr ⟨0, by omega, state, .start, diverges_iff_not_halts.mpr hround⟩)

/-- A loop whose rounds always end, and of which every round that is not the last one makes a measure
smaller, comes to its last round.  It makes no more rounds before that than the measure lost. -/
theorem reaches_last_of_measure {P : σ → Prop} (measure : σ → Nat)
    (hround : ∀ state, P state → ∃ result, (round state).Ends (.ok result) ∧
      ∀ later, result = .inl later → P later ∧ measure later < measure state)
    (hstate : P state) :
    ∃ earlier final a, Reaches round state earlier final ∧ (round final).Ends (.ok (.inr a)) ∧
      P final ∧ earlier + measure final ≤ measure state := by
  induction hbound : measure state using Nat.strongRecOn generalizing state with
  | ind bound ih =>
    subst hbound
    obtain ⟨later | a, hresult, hlater⟩ := hround state hstate
    · obtain ⟨hkept, hless⟩ := hlater later rfl
      obtain ⟨earlier, final, a, hreach, hlast, hfinal, hle⟩ := ih _ hless hkept rfl
      exact ⟨earlier + 1, final, a, .next hresult hreach, hlast, hfinal, by omega⟩
    · exact ⟨0, state, a, .start, hresult, hstate, by omega⟩

/-! ### Loops that keep in step -/

/-- Two loops whose rounds are the same up to a reading of the states are the same up to that
reading. -/
theorem loop_map {round' : τ → Budgeted (τ ⊕ β)} {f : τ → σ} {g : β → α}
    (h : ∀ state, round (f state) = Sum.map f g <$> round' state) (start : τ) :
    loop round (f start) = g <$> loop round' start := by
  refine ext fun budget => ?_
  rw [within_map]
  show loopWithin round budget (f start) = (loopWithin round' budget start).map (Except.map g)
  induction budget generalizing start with
  | zero => rfl
  | succ budget ih =>
    unfold loopWithin
    rw [h, within_map]
    rcases (round' start).within budget with - | (e | (later | a))
    · rfl
    · rfl
    · exact ih later
    · rfl

end TransitionRules.Budgeted
