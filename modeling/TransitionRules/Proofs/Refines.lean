/-
TransitionRules/Proofs/Refines.lean

One computation doing at least what another does.  `Refines R x y` says that wherever `x` has a
result, `y` has one that `R` relates to it; where `x` fails or never ends, `y` may do anything.
This is what a rewriting of programs has to guarantee that must not lose results.

Refinement goes along the ways of building programs: `Refines.bind` for sequences, `Refines.filterM`
for filters, and `Refines.loop` for loops.  What follows a result need only refine for results that
there are (`Refines.bind_of_ends`), and a round of a loop only for states that the loop reaches.
-/
import TransitionRules.Proofs.Budgeted

namespace TransitionRules.Budgeted

variable {α β γ δ σ : Type}

/-- Wherever the first computation has a result, the second has a related one. -/
def Refines (R : α → β → Prop) (x : Budgeted α) (y : Budgeted β) : Prop :=
  ∀ a, x.Ends (.ok a) → ∃ b, y.Ends (.ok b) ∧ R a b

namespace Refines

variable {R : α → β → Prop} {S : γ → δ → Prop} {x : Budgeted α} {y : Budgeted β}

theorem pure {a : α} {b : β} (h : R a b) : Refines R (Pure.pure a) (Pure.pure b) := by
  intro a' ha'
  cases ends_pure_iff.mp ha'
  exact ⟨b, ends_pure_iff.mpr rfl, h⟩

theorem of_eq {R : α → α → Prop} {x y : Budgeted α} (hrel : ∀ a, R a a) (h : x = y) :
    Refines R x y := by
  rw [h]
  exact fun a ha => ⟨a, ha, hrel a⟩

theorem mono {R' : α → β → Prop} (h : Refines R x y) (hrel : ∀ a b, R a b → R' a b) :
    Refines R' x y := by
  intro a ha
  obtain ⟨b, hb, hab⟩ := h a ha
  exact ⟨b, hb, hrel a b hab⟩

theorem trans {z : Budgeted γ} {R' : β → γ → Prop} {R'' : α → γ → Prop} (h : Refines R x y)
    (h' : Refines R' y z) (hrel : ∀ a b c, R a b → R' b c → R'' a c) : Refines R'' x z := by
  intro a ha
  obtain ⟨b, hb, hab⟩ := h a ha
  obtain ⟨c, hc, hbc⟩ := h' b hb
  exact ⟨c, hc, hrel a b c hab hbc⟩

/-- What follows a computation need only be refined for the results that it has. -/
theorem bind_of_ends {f : α → Budgeted γ} {g : β → Budgeted δ} (h : Refines R x y)
    (hnext : ∀ a b, x.Ends (.ok a) → R a b → Refines S (f a) (g b)) :
    Refines S (x >>= f) (y >>= g) := by
  intro c hc
  obtain ⟨a, ha, hc⟩ := ends_bind_ok_iff.mp hc
  obtain ⟨b, hb, hab⟩ := h a ha
  obtain ⟨d, hd, hcd⟩ := hnext a b ha hab c hc
  exact ⟨d, ends_bind_ok_iff.mpr ⟨b, hb, hd⟩, hcd⟩

/-- Sequences refine each other part by part. -/
theorem bind {f : α → Budgeted γ} {g : β → Budgeted δ} (h : Refines R x y)
    (hnext : ∀ a b, R a b → Refines S (f a) (g b)) : Refines S (x >>= f) (y >>= g) :=
  h.bind_of_ends fun a b _ => hnext a b

theorem map {f : α → γ} {g : β → δ} (h : Refines R x y) (hrel : ∀ a b, R a b → S (f a) (g b)) :
    Refines S (f <$> x) (g <$> y) := by
  rw [← bind_pure_comp, ← bind_pure_comp]
  exact h.bind fun a b hab => pure (hrel a b hab)

/-- Filters refine each other test by test. -/
theorem filterM {test test' : α → Budgeted Bool} {items : List α}
    (h : ∀ item ∈ items, Refines Eq (test item) (test' item)) :
    Refines Eq (items.filterM test) (items.filterM test') := by
  induction items with
  | nil =>
    rw [filterM_nil, filterM_nil]
    exact pure rfl
  | cons item rest ih =>
    obtain ⟨hitem, hrest⟩ := List.forall_mem_cons.mp h
    rw [filterM_cons, filterM_cons]
    refine hitem.bind fun holds _ hholds => (ih hrest).bind fun kept _ hkept => pure ?_
    rw [hholds, hkept]

/-- Loops refine each other round by round, as far as the first one goes. -/
theorem loop {round round' : σ → Budgeted (σ ⊕ α)} {state : σ}
    (hround : ∀ rounds later, Reaches round state rounds later →
      Refines Eq (round later) (round' later)) :
    Refines Eq (Budgeted.loop round state) (Budgeted.loop round' state) := by
  intro a ha
  obtain ⟨number, hend⟩ := loop_ends_iff.mp ha
  clear ha
  refine ⟨a, ?_, rfl⟩
  -- by induction on the rounds that the first loop takes; the second one makes the same
  generalize houtcome : (Except.ok a : Outcome α) = outcome at hend
  induction hend with
  | answer hanswer =>
    cases houtcome
    obtain ⟨_, hsame, rfl⟩ := hround 0 _ .start _ hanswer
    exact (EndsIn.answer hsame).ends_loop
  | failure _ => cases houtcome
  | next hnext _ ih =>
    obtain ⟨_, hsame, rfl⟩ := hround 0 _ .start _ hnext
    have hrest := ih (fun rounds later hreach => hround (rounds + 1) later (.next hnext hreach))
      houtcome
    obtain ⟨rounds, hrounds⟩ := loop_ends_iff.mp hrest
    exact (EndsIn.next hsame hrounds).ends_loop

end Refines

end TransitionRules.Budgeted
