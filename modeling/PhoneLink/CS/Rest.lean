import PhoneLink.CS.Run

/-!
# Runs that come to rest

Some of a machine's actions are its own; the others are brought about from outside. If
every own step lowers a measure, the machine cannot go on for ever by itself, and what
can be said of a state in which no own step is enabled can be said of where it ends.

## Main results

* `length_add_le_of_lowers`: a run of own steps is no longer than what it takes off the
  measure
* `exists_stuck_of_lowers`: from every state own steps lead to one that has none
* `exists_of_lowers`: own steps that meet a condition lead to where none of them is left
-/

namespace CS.Transition

variable {σ α : Type*} {step : σ → α → Option σ}

/-- Every own step lowers the measure. -/
def Lowers (step : σ → α → Option σ) (own : α → Prop) (measure : σ → ℕ) : Prop :=
  ∀ s a t, own a → step s a = some t → measure t < measure s

/-- No own step is enabled. -/
def Stuck (step : σ → α → Option σ) (own : α → Prop) (s : σ) : Prop := ∀ a, own a → step s a = none

variable {own : α → Prop} {measure : σ → ℕ}

theorem length_add_le_of_lowers (h : Lowers step own measure) {s t : σ} {as : List α}
    (hown : ∀ a ∈ as, own a) (hrun : exec step s as = some t) :
    as.length + measure t ≤ measure s := by
  induction as generalizing s with
  | nil =>
    obtain rfl : s = t := by simpa using hrun
    exact Nat.le_of_eq (Nat.zero_add (measure s))
  | cons a as ih =>
    obtain ⟨u, hu, hrest⟩ := exec_cons_eq_some.mp hrun
    have hfirst : measure u < measure s := h s a u (hown a List.mem_cons_self) hu
    have hlater := ih (fun b hb => hown b (List.mem_cons_of_mem a hb)) hrest
    rw [List.length_cons]
    omega

/-- A state that is not stuck has an own step. -/
theorem exists_step_of_not_stuck {s : σ} (h : ¬ Stuck step own s) :
    ∃ a t, own a ∧ step s a = some t := by
  unfold Stuck at h
  push Not at h
  obtain ⟨a, ha, hne⟩ := h
  obtain ⟨t, ht⟩ := Option.ne_none_iff_exists'.mp hne
  exact ⟨a, t, ha, ht⟩

/-- If wherever the goal is not reached there is an own step that meets a condition, such
steps lead there, and what they keep still holds. -/
theorem exists_of_lowers {inv goal : σ → Prop} {cond : σ → α → Prop}
    (h : Lowers step own measure)
    (keep : ∀ s a t, inv s → own a → cond s a → step s a = some t → inv t)
    (progress : ∀ s, inv s → ¬ goal s → ∃ a t, own a ∧ cond s a ∧ step s a = some t)
    {s : σ} (hs : inv s) :
    ∃ as t, (∀ a ∈ as, own a) ∧ exec step s as = some t ∧ Meets step cond s as ∧ inv t ∧
      goal t := by
  -- induction on the measure of the state to start from
  induction hn : measure s using Nat.strongRecOn generalizing s with
  | ind n ih =>
    by_cases hgoal : goal s
    · exact ⟨[], s, fun _ hmem => (nomatch hmem), rfl, trivial, hs, hgoal⟩
    · obtain ⟨a, u, ha, hc, hu⟩ := progress s hs hgoal
      have hlower := h s a u ha hu
      rw [hn] at hlower
      obtain ⟨as, t, has, hrun, hmeets, ht⟩ := ih (measure u) hlower (keep s a u hs ha hc hu) rfl
      refine ⟨a :: as, t, List.forall_mem_cons.mpr ⟨ha, has⟩, ?_, ⟨hc, fun v hv => ?_⟩, ht⟩
      · exact exec_cons_eq_some.mpr ⟨u, hu, hrun⟩
      · obtain rfl := Option.some.inj (hu.symm.trans hv)
        exact hmeets

theorem exists_stuck_of_lowers (h : Lowers step own measure) (s : σ) :
    ∃ as t, (∀ a ∈ as, own a) ∧ exec step s as = some t ∧ Stuck step own t := by
  have hprogress : ∀ s : σ, True → ¬ Stuck step own s →
      ∃ a t, own a ∧ True ∧ step s a = some t := by
    intro s _ hstuck
    obtain ⟨a, t, ha, ht⟩ := exists_step_of_not_stuck hstuck
    exact ⟨a, t, ha, trivial, ht⟩
  obtain ⟨as, t, hown, hrun, -, -, hstuck⟩ :=
    exists_of_lowers h (fun _ _ _ _ _ _ _ => trivial) hprogress (s := s) trivial
  exact ⟨as, t, hown, hrun, hstuck⟩

end CS.Transition
