/-
TransitionRules/Proofs/Agrees.lean

Two computations that come to the same.  `Agrees R x y` says that `x` and `y` end together, with the
same failure or with results that `R` relates, so that neither goes on for ever alone.  Unlike a
refinement (`Refines`) it keeps failures and looks both ways; unlike an equation it leaves open what
budget the two need, so one of them may do work that the other does not (`Agrees.after`).

`Follows` is one direction of it, and what is proved of `Follows` holds of `Agrees` by reading it
both ways.  Loops whose rounds agree end in the same round (`RoundsAgree.endsIn_iff`) and go through
related states (`RoundsAgree.reaches`).
-/
import TransitionRules.Proofs.Budgeted

namespace TransitionRules.Budgeted

variable {α β γ δ σ τ : Type}

/-- Outcomes that are the same failure, or related results. -/
inductive Alike (R : α → β → Prop) : Outcome α → Outcome β → Prop where
  | error (e : RuleError) : Alike R (.error e) (.error e)
  | ok {a : α} {b : β} (h : R a b) : Alike R (.ok a) (.ok b)

namespace Alike

variable {R R' : α → β → Prop}

theorem refl {R : α → α → Prop} (hrel : ∀ a, R a a) (outcome : Outcome α) :
    Alike R outcome outcome := by
  cases outcome with
  | error e => exact .error e
  | ok a => exact .ok (hrel a)

theorem mono {first : Outcome α} {second : Outcome β} (h : Alike R first second)
    (hrel : ∀ a b, R a b → R' a b) : Alike R' first second := by
  cases h with
  | error e => exact .error e
  | ok hab => exact .ok (hrel _ _ hab)

/-- Alike outcomes that are read the same are equal when read. -/
theorem map_eq {f : α → γ} {g : β → γ} {first : Outcome α} {second : Outcome β}
    (h : Alike R first second) (hrel : ∀ a b, R a b → f a = g b) :
    first.map f = second.map g := by
  cases h with
  | error e => rfl
  | ok hab => exact congrArg Except.ok (hrel _ _ hab)

end Alike

/-! ### One computation following another -/

/-- Every outcome of the first computation is one of the second, up to the relation. -/
def Follows (R : α → β → Prop) (x : Budgeted α) (y : Budgeted β) : Prop :=
  ∀ outcome, x.Ends outcome → ∃ outcome', y.Ends outcome' ∧ Alike R outcome outcome'

namespace Follows

variable {R : α → β → Prop} {S : γ → δ → Prop} {x : Budgeted α} {y : Budgeted β}

theorem mono {R' : α → β → Prop} (h : Follows R x y) (hrel : ∀ a b, R a b → R' a b) :
    Follows R' x y := by
  intro outcome hx
  obtain ⟨outcome', hy, halike⟩ := h outcome hx
  exact ⟨outcome', hy, halike.mono hrel⟩

theorem bind {f : α → Budgeted γ} {g : β → Budgeted δ} (h : Follows R x y)
    (hnext : ∀ a b, R a b → Follows S (f a) (g b)) : Follows S (x >>= f) (y >>= g) := by
  intro outcome hends
  obtain ⟨e, hx, rfl⟩ | ⟨a, hx, hnextx⟩ := ends_bind_iff.mp hends
  · obtain ⟨_, hy, halike⟩ := h _ hx
    cases halike
    exact ⟨.error e, ends_bind_iff.mpr (.inl ⟨e, hy, rfl⟩), .error e⟩
  · obtain ⟨_, hy, halike⟩ := h _ hx
    cases halike with
    | @ok _ b hab =>
      obtain ⟨outcome', hnexty, halike⟩ := hnext a b hab outcome hnextx
      exact ⟨outcome', ends_bind_iff.mpr (.inr ⟨b, hy, hnexty⟩), halike⟩

variable {Q : σ → τ → Prop} {round : σ → Budgeted (σ ⊕ α)} {round' : τ → Budgeted (τ ⊕ β)}
variable {s : σ} {t : τ} {number : Nat}

/-- A loop whose rounds follow those of another ends in the same round as it. -/
theorem endsIn (hround : ∀ s t, Q s t → Follows (Sum.LiftRel Q R) (round s) (round' t))
    (h : Q s t) {outcome : Outcome α} (hend : EndsIn round s number outcome) :
    ∃ outcome', EndsIn round' t number outcome' ∧ Alike R outcome outcome' := by
  -- by induction on the rounds; the states stay related, so the other loop makes each round too
  induction hend generalizing t with
  | answer hanswer =>
    obtain ⟨_, hfinal, halike⟩ := hround _ t h _ hanswer
    cases halike with
    | ok hrel =>
      cases hrel with
      | inr hab => exact ⟨_, .answer hfinal, .ok hab⟩
  | failure hfailure =>
    obtain ⟨_, hfinal, halike⟩ := hround _ t h _ hfailure
    cases halike
    exact ⟨_, .failure hfinal, .error _⟩
  | next hnext _ ih =>
    obtain ⟨_, hfinal, halike⟩ := hround _ t h _ hnext
    cases halike with
    | ok hrel =>
      cases hrel with
      | inl hlater =>
        obtain ⟨outcome', hrest, halike⟩ := ih hlater
        exact ⟨outcome', .next hfinal hrest, halike⟩

/-- A loop whose rounds follow those of another goes through related states. -/
theorem reaches (hround : ∀ s t, Q s t → Follows (Sum.LiftRel Q R) (round s) (round' t))
    (h : Q s t) {later : σ} (hreach : Reaches round s number later) :
    ∃ later', Reaches round' t number later' ∧ Q later later' := by
  induction hreach generalizing t with
  | start => exact ⟨t, .start, h⟩
  | next hnext _ ih =>
    obtain ⟨_, hfinal, halike⟩ := hround _ t h _ hnext
    cases halike with
    | ok hrel =>
      cases hrel with
      | inl hlater =>
        obtain ⟨later', hrest, hstates⟩ := ih hlater
        exact ⟨later', .next hfinal hrest, hstates⟩

end Follows

/-! ### Computations that agree -/

/-- The two computations end together, with the same failure or with related results. -/
structure Agrees (R : α → β → Prop) (x : Budgeted α) (y : Budgeted β) : Prop where
  forward : Follows R x y
  backward : Follows (flip R) y x

namespace Agrees

variable {R : α → β → Prop} {S : γ → δ → Prop} {x : Budgeted α} {y : Budgeted β}

theorem refl {R : α → α → Prop} (hrel : ∀ a, R a a) (x : Budgeted α) : Agrees R x x :=
  ⟨fun outcome h => ⟨outcome, h, .refl hrel outcome⟩,
    fun outcome h => ⟨outcome, h, .refl (R := flip R) hrel outcome⟩⟩

/-- A computation agrees with itself on the results that it has. -/
theorem self (x : Budgeted α) : Agrees (fun a b => a = b ∧ x.Ends (.ok a)) x x := by
  constructor
  · intro outcome h
    refine ⟨outcome, h, ?_⟩
    cases outcome with
    | error e => exact .error e
    | ok a => exact .ok ⟨rfl, h⟩
  · intro outcome h
    refine ⟨outcome, h, ?_⟩
    cases outcome with
    | error e => exact .error e
    | ok a => exact .ok ⟨rfl, h⟩

theorem symm (h : Agrees R x y) : Agrees (flip R) y x := ⟨h.backward, h.forward⟩

theorem mono {R' : α → β → Prop} (h : Agrees R x y) (hrel : ∀ a b, R a b → R' a b) :
    Agrees R' x y :=
  ⟨h.forward.mono hrel, h.backward.mono fun b a hab => hrel a b hab⟩

theorem pure {a : α} {b : β} (h : R a b) : Agrees R (Pure.pure a) (Pure.pure b) := by
  constructor
  · intro outcome ha
    cases ends_pure_iff.mp ha
    exact ⟨_, ends_pure_iff.mpr rfl, .ok h⟩
  · intro outcome hb
    cases ends_pure_iff.mp hb
    exact ⟨_, ends_pure_iff.mpr rfl, .ok h⟩

theorem fail (e : RuleError) : Agrees R (Budgeted.fail e) (Budgeted.fail e) := by
  constructor
  · intro outcome he
    cases ends_fail_iff.mp he
    exact ⟨_, ends_fail_iff.mpr rfl, .error e⟩
  · intro outcome he
    cases ends_fail_iff.mp he
    exact ⟨_, ends_fail_iff.mpr rfl, .error e⟩

/-- Sequences agree part by part. -/
theorem bind {f : α → Budgeted γ} {g : β → Budgeted δ} (h : Agrees R x y)
    (hnext : ∀ a b, R a b → Agrees S (f a) (g b)) : Agrees S (x >>= f) (y >>= g) :=
  ⟨h.forward.bind fun a b hab => (hnext a b hab).forward,
    h.backward.bind fun b a hab => (hnext a b hab).backward⟩

/-- What gives a result can be done first without changing an agreement. -/
theorem after {b : γ} {first : Budgeted γ} {g : γ → Budgeted β} (hfirst : first.Ends (.ok b))
    (h : Agrees R x (g b)) : Agrees R x (first >>= g) := by
  constructor
  · intro outcome hx
    obtain ⟨outcome', hy, halike⟩ := h.forward outcome hx
    exact ⟨outcome', ends_bind_iff.mpr (.inr ⟨b, hfirst, hy⟩), halike⟩
  · intro outcome hends
    obtain ⟨e, hy, rfl⟩ | ⟨b', hy, hnext⟩ := ends_bind_iff.mp hends
    · cases hfirst.unique hy
    · cases hfirst.unique hy
      exact h.backward outcome hnext

/-- A computation agrees with its result being read. -/
theorem map_left (f : β → α) (y : Budgeted β) : Agrees (fun a b => a = f b) (f <$> y) y := by
  constructor
  · intro outcome hx
    obtain ⟨result, hresult, rfl⟩ := ends_map_iff.mp hx
    refine ⟨result, hresult, ?_⟩
    cases result with
    | error e => exact .error e
    | ok b => exact .ok rfl
  · intro outcome hy
    refine ⟨_, ends_map_iff.mpr ⟨outcome, hy, rfl⟩, ?_⟩
    cases outcome with
    | error e => exact .error e
    | ok b => exact .ok rfl

end Agrees

/-! ### Loops whose rounds agree -/

variable {R : α → β → Prop} {Q : σ → τ → Prop} {round : σ → Budgeted (σ ⊕ α)}
variable {round' : τ → Budgeted (τ ⊕ β)} {s : σ} {t : τ} {number : Nat}

/-- The rounds of two loops agree on related states. -/
def RoundsAgree (Q : σ → τ → Prop) (R : α → β → Prop) (round : σ → Budgeted (σ ⊕ α))
    (round' : τ → Budgeted (τ ⊕ β)) : Prop :=
  ∀ s t, Q s t → Agrees (Sum.LiftRel Q R) (round s) (round' t)

namespace RoundsAgree

theorem symm (h : RoundsAgree Q R round round') : RoundsAgree (flip Q) (flip R) round' round := by
  intro t s hts
  refine (h s t hts).symm.mono fun b a hab => ?_
  cases hab with
  | inl hlater => exact .inl hlater
  | inr hanswer => exact .inr hanswer

theorem endsIn (h : RoundsAgree Q R round round') (hstart : Q s t) {outcome : Outcome α}
    (hend : EndsIn round s number outcome) :
    ∃ outcome', EndsIn round' t number outcome' ∧ Alike R outcome outcome' :=
  Follows.endsIn (fun s t hst => (h s t hst).forward) hstart hend

theorem reaches (h : RoundsAgree Q R round round') (hstart : Q s t) {later : σ}
    (hreach : Reaches round s number later) :
    ∃ later', Reaches round' t number later' ∧ Q later later' :=
  Follows.reaches (fun s t hst => (h s t hst).forward) hstart hreach

/-- Loops whose rounds agree end in the same round, with outcomes that are equal when read. -/
theorem endsIn_iff {f : α → γ} {g : β → γ} (h : RoundsAgree Q R round round') (hstart : Q s t)
    (hread : ∀ a b, R a b → f a = g b) (number : Nat) (outcome : Outcome γ) :
    (∃ result, EndsIn round s number result ∧ outcome = result.map f) ↔
      ∃ result, EndsIn round' t number result ∧ outcome = result.map g := by
  constructor
  · rintro ⟨result, hend, rfl⟩
    obtain ⟨result', hend', halike⟩ := h.endsIn hstart hend
    exact ⟨result', hend', halike.map_eq hread⟩
  · rintro ⟨result, hend, rfl⟩
    obtain ⟨result', hend', halike⟩ := h.symm.endsIn hstart hend
    exact ⟨result', hend', halike.map_eq fun b a hab => (hread a b hab).symm⟩

end RoundsAgree

/-- Loops whose rounds are the same up to a reading of the states end in the same round, with the
same outcome as it is read. -/
theorem endsIn_iff_of_map {f : τ → σ} {g : β → α}
    (h : ∀ state, round (f state) = Sum.map f g <$> round' state) {outcome : Outcome α} :
    EndsIn round (f t) number outcome ↔
      ∃ result, EndsIn round' t number result ∧ outcome = result.map g := by
  have hrounds : RoundsAgree (fun s t => s = f t) (fun a b => a = g b) round round' := by
    rintro _ t rfl
    rw [h]
    refine (Agrees.map_left _ _).mono fun a b hab => ?_
    subst hab
    cases b with
    | inl later => exact .inl rfl
    | inr answer => exact .inr rfl
  have hiff := hrounds.endsIn_iff (t := t) rfl (f := id) (fun _ _ hab => hab) number outcome
  simpa only [Except.map_id, id_eq, exists_eq_right'] using hiff

/-! ### Filtering by a test that never fails -/

open Classical in
/-- A filter by a test that never fails ends where all the tests do, and keeps the items that
pass. -/
theorem filterM_ends_ok_iff {test : α → Budgeted Bool} {items kept : List α} :
    (items.filterM test).Ends (.ok kept) ↔
      (∀ item ∈ items, ∃ holds, (test item).Ends (.ok holds)) ∧
        kept = items.filter fun item => decide ((test item).Ends (.ok true)) := by
  induction items generalizing kept with
  | nil =>
    rw [filterM_nil, ends_pure_iff]
    simp
  | cons item rest ih =>
    rw [filterM_cons]
    simp only [ends_bind_ok_iff, ih, ends_pure_iff, Except.ok.injEq, List.forall_mem_cons]
    constructor
    · rintro ⟨holds, hitem, _, ⟨hrest, rfl⟩, rfl⟩
      refine ⟨⟨⟨holds, hitem⟩, hrest⟩, ?_⟩
      cases holds with
      | true => simp [hitem]
      | false =>
        have hnot : ¬ (test item).Ends (.ok true) := fun h => by cases hitem.unique h
        simp [hnot]
    · rintro ⟨⟨⟨holds, hitem⟩, hrest⟩, rfl⟩
      refine ⟨holds, hitem, _, ⟨hrest, rfl⟩, ?_⟩
      cases holds with
      | true => simp [hitem]
      | false =>
        have hnot : ¬ (test item).Ends (.ok true) := fun h => by cases hitem.unique h
        simp [hnot]

theorem filterM_not_ends_error {test : α → Budgeted Bool} {items : List α}
    (hnever : ∀ item ∈ items, ∀ e, ¬ (test item).Ends (.error e)) (e : RuleError) :
    ¬ (items.filterM test).Ends (.error e) := by
  induction items with
  | nil =>
    rw [filterM_nil, ends_pure_iff]
    exact fun h => by cases h
  | cons item rest ih =>
    rw [List.forall_mem_cons] at hnever
    rw [filterM_cons]
    simp only [ends_bind_iff, ends_pure_iff]
    rintro (⟨e', hitem, -⟩ | ⟨holds, -, ⟨e', hrest, h⟩ | ⟨kept, -, h⟩⟩)
    · exact hnever.1 e' hitem
    · cases h
      exact ih hnever.2 hrest
    · cases h

/-- Filters by tests that agree keep the same items. -/
theorem filterM_congr {test test' : α → Budgeted Bool} {items : List α}
    (h : ∀ item ∈ items, Agrees Eq (test item) (test' item)) :
    Agrees Eq (items.filterM test) (items.filterM test') := by
  induction items with
  | nil =>
    rw [filterM_nil, filterM_nil]
    exact .pure rfl
  | cons item rest ih =>
    rw [List.forall_mem_cons] at h
    rw [filterM_cons, filterM_cons]
    refine h.1.bind fun holds _ hholds => ?_
    subst hholds
    refine (ih h.2).bind fun kept _ hkept => ?_
    subst hkept
    exact .pure rfl

/-- A filter by a test that never fails keeps the same items in another order. -/
theorem filterM_perm {test : α → Budgeted Bool}
    (hnever : ∀ item e, ¬ (test item).Ends (.error e)) {items items' : List α}
    (hperm : items.Perm items') :
    Agrees List.Perm (items.filterM test) (items'.filterM test) := by
  -- no test fails, so the order of the tests does not show; one direction serves both ways
  have hfollows : ∀ {items items' : List α}, items.Perm items' →
      Follows List.Perm (items.filterM test) (items'.filterM test) := by
    intro items items' hperm outcome hends
    rcases outcome with e | kept
    · exact absurd hends (filterM_not_ends_error (fun item _ => hnever item) e)
    · obtain ⟨hanswers, rfl⟩ := filterM_ends_ok_iff.mp hends
      refine ⟨_, filterM_ends_ok_iff.mpr ⟨?_, rfl⟩, .ok (hperm.filter _)⟩
      exact fun item hitem => hanswers item (hperm.mem_iff.mpr hitem)
  exact ⟨hfollows hperm, (hfollows hperm.symm).mono fun _ _ h => h.symm⟩

end TransitionRules.Budgeted
