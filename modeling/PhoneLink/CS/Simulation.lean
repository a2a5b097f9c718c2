import Mathlib.Data.List.Induction
import PhoneLink.CS.Run

/-!
# What a run shows, and runs of a specification

A step of a machine may show something: operations of a specification, in order. A
machine is simulated by the specification if every step from related states is matched by
the operations it shows; then the operations that a run shows, put together, are a run of
the specification.

## Main definitions

* `shown`: what a run shows
* `Simulates`: the specification follows every step
* `Reaches`: some run leads from one state to another

## Main results

* `Simulates.exec_shown`: what a run shows is a run of the specification
* `run_shownBy`: a relation between the ends of a step and what it shows, for runs
* `run_getD_lastOf`, `run_append_flatMap`: parts of the state that are overwritten or extended
-/

namespace CS.Transition

variable {σ τ α β : Type*} {step : σ → α → Option σ} {spec : τ → β → Option τ}
  {shows : σ → α → List β}

/-- What the steps of a run show, in order. -/
def shown (step : σ → α → Option σ) (shows : σ → α → List β) : σ → List α → List β
  | _, [] => []
  | s, a :: as => shows s a ++ ((step s a).elim [] fun t => shown step shows t as)

@[simp] theorem shown_nil (s : σ) : shown step shows s [] = [] := rfl

theorem shown_cons_of_eq_some {s t : σ} {a : α} (h : step s a = some t) (as : List α) :
    shown step shows s (a :: as) = shows s a ++ shown step shows t as := by
  rw [shown, h, Option.elim_some]

/-- From related states every step that meets the condition is followed by the
specification: it does what the step shows, and the states are related again. -/
def Simulates (step : σ → α → Option σ) (cond : σ → α → Prop) (shows : σ → α → List β)
    (spec : τ → β → Option τ) (related : σ → τ → Prop) : Prop :=
  ∀ s t a s', related s t → cond s a → step s a = some s' →
    ∃ t', exec spec t (shows s a) = some t' ∧ related s' t'

theorem exec_singleton {s t : σ} {a : α} (h : step s a = some t) : exec step s [a] = some t :=
  exec_cons_eq_some.mpr ⟨t, h, rfl⟩

/-- Some run leads from the one state to the other. -/
def Reaches (step : σ → α → Option σ) (s t : σ) : Prop := ∃ as, exec step s as = some t

theorem Reaches.refl (s : σ) : Reaches step s s := ⟨[], rfl⟩

theorem Reaches.tail {s t u : σ} {a : α} (h : Reaches step s t) (ha : step t a = some u) :
    Reaches step s u := by
  obtain ⟨as, has⟩ := h
  exact ⟨as ++ [a], (exec_append_of_eq_some has [a]).trans (exec_singleton ha)⟩

theorem Reaches.trans {s t u : σ} (h : Reaches step s t) (h' : Reaches step t u) :
    Reaches step s u := by
  obtain ⟨as, has⟩ := h
  obtain ⟨bs, hbs⟩ := h'
  exact ⟨as ++ bs, (exec_append_of_eq_some has bs).trans hbs⟩

variable {cond : σ → α → Prop} {related : σ → τ → Prop}

theorem Simulates.exec_shown (h : Simulates step cond shows spec related) {s s' : σ} {t : τ}
    {as : List α} (hst : related s t) (hmeets : Meets step cond s as)
    (hrun : exec step s as = some s') :
    ∃ t', exec spec t (shown step shows s as) = some t' ∧ related s' t' := by
  induction as generalizing s t with
  | nil =>
    obtain rfl : s = s' := by simpa using hrun
    exact ⟨t, rfl, hst⟩
  | cons a as ih =>
    obtain ⟨u, hu, hrest⟩ := exec_cons_eq_some.mp hrun
    obtain ⟨v, hv, huv⟩ := h s t a u hst hmeets.1 hu
    obtain ⟨t', ht', hrelated⟩ := ih huv (hmeets.2 u hu) hrest
    refine ⟨t', ?_, hrelated⟩
    rw [shown_cons_of_eq_some hu, exec_append_of_eq_some hv]
    exact ht'

/-! ### Machines that are never blocked -/

section Total

variable {next : σ → α → σ}

/-- What the steps of a run show, in order. -/
def shownBy (next : σ → α → σ) (shows : σ → α → List β) : σ → List α → List β
  | _, [] => []
  | s, a :: as => shows s a ++ shownBy next shows (next s a) as

theorem shownBy_concat (s : σ) (as : List α) (a : α) :
    shownBy next shows s (as ++ [a]) = shownBy next shows s as ++ shows (run next s as) a := by
  induction as generalizing s with
  | nil => exact List.append_nil _
  | cons b as ih => rw [List.cons_append, shownBy, shownBy, ih, run_cons, List.append_assoc]

/-- What each step does with what it shows, a run does with what the run shows. -/
theorem run_shownBy {R : σ → σ → List β → Prop} (refl : ∀ s, R s s [])
    (trans : ∀ {s t u bs cs}, R s t bs → R t u cs → R s u (bs ++ cs))
    (h : ∀ s a, R s (next s a) (shows s a)) (s : σ) (as : List α) :
    R s (run next s as) (shownBy next shows s as) := by
  induction as generalizing s with
  | nil => exact refl s
  | cons a as ih => exact trans (h s a) (ih (next s a))

/-! ### Parts of the state with a history of their own -/

/-- The last value, or the one that was there before. -/
theorem getD_lastOf_append (f : α → Option β) (as bs : List α) (b : β) :
    (lastOf f (as ++ bs)).getD b = (lastOf f bs).getD ((lastOf f as).getD b) := by
  rw [lastOf, List.filterMap_append, List.getLast?_append, Option.getD_or]
  rfl

theorem lastOf_singleton (f : α → Option β) (a : α) : lastOf f [a] = f a := by
  cases h : f a with
  | none => rw [lastOf, List.filterMap_cons_none h]; rfl
  | some b => rw [lastOf, List.filterMap_cons_some h]; rfl

/-- A part of the state that every step overwrites if it has a value for it. -/
theorem run_getD_lastOf (get : σ → β) {f : α → Option β}
    (h : ∀ s a, get (next s a) = (f a).getD (get s)) (s : σ) (as : List α) :
    get (run next s as) = (lastOf f as).getD (get s) := by
  induction as using List.reverseRecOn with
  | nil => rfl
  | append_singleton as a ih => rw [run_concat, h, ih, getD_lastOf_append, lastOf_singleton]

/-- A part of the state that every step extends. -/
theorem run_append_flatMap (get : σ → List β) {f : α → List β}
    (h : ∀ s a, get (next s a) = get s ++ f a) (s : σ) (as : List α) :
    get (run next s as) = get s ++ as.flatMap f := by
  induction as generalizing s with
  | nil => exact (List.append_nil _).symm
  | cons a as ih => rw [run_cons, ih, h, List.flatMap_cons, List.append_assoc]

end Total

end CS.Transition
