import Mathlib.Data.List.Basic

/-!
# Runs of a machine with labelled partial steps

A machine is a function `step : σ → α → Option σ`: the action `a` is enabled in
`s` when `step s a` is a state. A run executes a list of actions. Assumptions on
the environment and conditions on the schedule are predicates on the state
before a step and the action taken; `Meets` says that every step of a run
satisfies one. Invariants are lifted from steps to runs once, here.

## Main results

* `exec_invariant`: a property kept by every step holds at the end of every run
* `exec_invariant_of_meets`: the same, for runs whose steps all meet a condition
* `exec_history_of_meets`: the same, for properties that see the actions so far
* `exec_append`, `exec_append_of_eq_some`: runs compose
* `throughout_holds_iff`: for machines that are never blocked, how the steps after which a
  property holds are described by a condition on the states before them
* `throughout_iff_split`: the same, with the beginning of the run that leads to the step
* `lastOf_concat_of_none`, `lastOf_concat_of_some`: the last value of a history, one
  action later
-/

namespace CS.Transition

variable {σ α : Type*} {step : σ → α → Option σ}

/-- Execute the actions in order; `none` as soon as one of them is not enabled. -/
def exec (step : σ → α → Option σ) : σ → List α → Option σ
  | s, [] => some s
  | s, a :: as => (step s a).bind fun t => exec step t as

/-- Every step of the run from `s` over the actions meets the condition `cond`,
which sees the state before the step and the action. -/
def Meets (step : σ → α → Option σ) (cond : σ → α → Prop) : σ → List α → Prop
  | _, [] => True
  | s, a :: as => cond s a ∧ ∀ t, step s a = some t → Meets step cond t as

instance decidableMeets {cond : σ → α → Prop} [∀ s a, Decidable (cond s a)] :
    ∀ s as, Decidable (Meets step cond s as)
  | _, [] => isTrue trivial
  | s, a :: as =>
    -- there is at most one state to go on from
    have _rest : Decidable (∀ t, step s a = some t → Meets step cond t as) :=
      match step s a with
      | none => isTrue fun _ h => nomatch h
      | some t =>
        match decidableMeets t as with
        | isTrue h => isTrue fun _ ht => Option.some.inj ht ▸ h
        | isFalse h => isFalse fun hall => h (hall t rfl)
    inferInstanceAs (Decidable (cond s a ∧ ∀ t, step s a = some t → Meets step cond t as))

@[simp] theorem exec_nil (s : σ) : exec step s [] = some s := rfl

theorem exec_cons (s : σ) (a : α) (as : List α) :
    exec step s (a :: as) = (step s a).bind fun t => exec step t as := rfl

theorem exec_cons_eq_some {s u : σ} {a : α} {as : List α} :
    exec step s (a :: as) = some u ↔ ∃ t, step s a = some t ∧ exec step t as = some u := by
  rw [exec_cons, Option.bind_eq_some_iff]

theorem exec_append (s : σ) (as bs : List α) :
    exec step s (as ++ bs) = (exec step s as).bind fun t => exec step t bs := by
  induction as generalizing s with
  | nil => rfl
  | cons a as ih =>
    rw [List.cons_append, exec_cons, exec_cons, Option.bind_assoc]
    exact Option.bind_congr fun t _ => ih t

theorem exec_append_of_eq_some {s t : σ} {as : List α} (h : exec step s as = some t)
    (bs : List α) : exec step s (as ++ bs) = exec step t bs := by
  rw [exec_append, h, Option.bind_some]

variable {cond assumed : σ → α → Prop}

theorem Meets.and {s : σ} {as : List α} (h : Meets step cond s as)
    (h' : Meets step assumed s as) : Meets step (fun s a => cond s a ∧ assumed s a) s as := by
  induction as generalizing s with
  | nil => trivial
  | cons a as ih => exact ⟨⟨h.1, h'.1⟩, fun t ht => ih (h.2 t ht) (h'.2 t ht)⟩

/-- A condition that the actions meet in every state. -/
theorem meets_of_forall_mem {s : σ} {as : List α} (h : ∀ a ∈ as, ∀ s, cond s a) :
    Meets step cond s as := by
  induction as generalizing s with
  | nil => trivial
  | cons a as ih =>
    exact ⟨h a List.mem_cons_self s, fun t _ => ih fun b hb => h b (List.mem_cons_of_mem a hb)⟩

/-- Every run meets the condition that asks for nothing. -/
theorem meets_true (s : σ) (as : List α) : Meets step (fun _ _ => True) s as :=
  meets_of_forall_mem fun _ _ _ => trivial

/-- **Invariance along guarded runs.** A property that every step meeting the
condition keeps holds in the last state of every run that meets it throughout. -/
theorem exec_invariant_of_meets (inv : σ → Prop)
    (keep : ∀ s a t, inv s → cond s a → step s a = some t → inv t)
    {s t : σ} {as : List α} (hs : inv s) (hmeets : Meets step cond s as)
    (hrun : exec step s as = some t) : inv t := by
  -- induction on the schedule, for every state it may start from
  induction as generalizing s with
  | nil =>
    obtain rfl : s = t := by simpa using hrun
    exact hs
  | cons a as ih =>
    obtain ⟨u, hu, hrest⟩ := exec_cons_eq_some.mp hrun
    exact ih (keep s a u hs hmeets.1 hu) (hmeets.2 u hu) hrest

/-- Invariance along all runs. -/
theorem exec_invariant (inv : σ → Prop) (keep : ∀ s a t, inv s → step s a = some t → inv t)
    {s t : σ} {as : List α} (hs : inv s) (hrun : exec step s as = some t) : inv t := by
  induction as generalizing s with
  | nil =>
    obtain rfl : s = t := by simpa using hrun
    exact hs
  | cons a as ih =>
    obtain ⟨u, hu, hrest⟩ := exec_cons_eq_some.mp hrun
    exact ih (keep s a u hs hu) hrest

/-- Invariance along guarded runs of a property that sees the actions so far. -/
theorem exec_history_of_meets (inv : List α → σ → Prop)
    (keep : ∀ past s a t, inv past s → cond s a → step s a = some t → inv (past ++ [a]) t)
    {past : List α} {s t : σ} {as : List α} (hs : inv past s) (hmeets : Meets step cond s as)
    (hrun : exec step s as = some t) : inv (past ++ as) t := by
  induction as generalizing past s with
  | nil =>
    obtain rfl : s = t := by simpa using hrun
    rwa [List.append_nil]
  | cons a as ih =>
    obtain ⟨u, hu, hrest⟩ := exec_cons_eq_some.mp hrun
    rw [← List.singleton_append, ← List.append_assoc]
    exact ih (keep past s a u hs hmeets.1 hu) (hmeets.2 u hu) hrest

/-! ### Machines that are never blocked -/

section Total

variable {next : σ → α → σ}

/-- The state after the actions. -/
def run (next : σ → α → σ) (s : σ) (as : List α) : σ := as.foldl next s

@[simp] theorem run_nil (s : σ) : run next s [] = s := rfl

@[simp] theorem run_cons (s : σ) (a : α) (as : List α) :
    run next s (a :: as) = run next (next s a) as := rfl

theorem run_append (s : σ) (as bs : List α) :
    run next s (as ++ bs) = run next (run next s as) bs := List.foldl_append

theorem run_concat (s : σ) (as : List α) (a : α) :
    run next s (as ++ [a]) = next (run next s as) a := by
  rw [run_append, run_cons, run_nil]

/-- Every step of the run has the property `P`, which sees the state before the step,
the action and the state after it. -/
def Throughout (next : σ → α → σ) (P : σ → α → σ → Prop) : σ → List α → Prop
  | _, [] => True
  | s, a :: as => P s a (next s a) ∧ Throughout next P (next s a) as

variable {P : σ → α → σ → Prop}

/-- A state property holds in every state of a run exactly when every step meets the
condition under which it is kept. -/
theorem throughout_holds_iff (inv : σ → Prop) {cond : σ → α → Prop}
    (h : ∀ s a, inv s → (inv (next s a) ↔ cond s a)) {s : σ} (hs : inv s) (as : List α) :
    Throughout next (fun _ _ t => inv t) s as ↔ Throughout next (fun s a _ => cond s a) s as := by
  induction as generalizing s with
  | nil => exact Iff.rfl
  | cons a as ih =>
    -- from the first step that breaks the property on, both sides fail
    refine ⟨fun ⟨hinv, hrest⟩ => ⟨(h s a hs).mp hinv, (ih hinv).mp hrest⟩, ?_⟩
    rintro ⟨hcond, hrest⟩
    have hinv := (h s a hs).mpr hcond
    exact ⟨hinv, (ih hinv).mpr hrest⟩

/-- A property of every step is a property of the step behind every beginning of the run. -/
theorem throughout_iff_split {s : σ} {as : List α} :
    Throughout next P s as ↔ ∀ before a after, as = before ++ a :: after →
      P (run next s before) a (next (run next s before) a) := by
  induction as generalizing s with
  | nil => exact iff_of_true trivial fun before a after h => by simp at h
  | cons a as ih =>
    constructor
    · rintro ⟨hfirst, hrest⟩ before b after h
      cases before with
      | nil =>
        obtain ⟨rfl, -⟩ := List.cons.inj h
        exact hfirst
      | cons c before =>
        obtain ⟨rfl, hlater⟩ := List.cons.inj h
        exact ih.mp hrest before b after hlater
    · intro h
      refine ⟨h [] a as rfl, ih.mpr fun before b after hlater => ?_⟩
      exact h (a :: before) b after (congrArg (List.cons a) hlater)

end Total

/-! ### The last of a history -/

section Last

variable {β : Type*} {f : α → Option β} {as : List α} {a : α} {b : β}

/-- The value of `f` at the last action at which it has one. -/
def lastOf (f : α → Option β) (as : List α) : Option β := (as.filterMap f).getLast?

theorem filterMap_concat_of_none (h : f a = none) :
    (as ++ [a]).filterMap f = as.filterMap f := by
  rw [List.filterMap_append, List.filterMap_cons_none h, List.filterMap_nil, List.append_nil]

theorem filterMap_concat_of_some (h : f a = some b) :
    (as ++ [a]).filterMap f = as.filterMap f ++ [b] := by
  rw [List.filterMap_append, List.filterMap_cons_some h, List.filterMap_nil]

theorem lastOf_concat_of_none (h : f a = none) : lastOf f (as ++ [a]) = lastOf f as :=
  congrArg List.getLast? (filterMap_concat_of_none h)

theorem lastOf_concat_of_some (h : f a = some b) : lastOf f (as ++ [a]) = some b := by
  rw [lastOf, filterMap_concat_of_some h, List.getLast?_concat]

theorem lastOf_append_of_none {bs : List α} (h : ∀ b ∈ bs, f b = none) :
    lastOf f (as ++ bs) = lastOf f as := by
  rw [lastOf, List.filterMap_append, List.filterMap_eq_nil_iff.mpr h, List.append_nil]
  rfl

theorem lastOf_eq_none_iff : lastOf f as = none ↔ ∀ a ∈ as, f a = none := by
  rw [lastOf, List.getLast?_eq_none_iff, List.filterMap_eq_nil_iff]

/-- The last value is the value at some action. -/
theorem exists_of_lastOf (h : lastOf f as = some b) : ∃ a ∈ as, f a = some b :=
  List.mem_filterMap.mp (List.mem_of_getLast? h)

/-- Once there was a value there is a last one. -/
theorem exists_lastOf (ha : a ∈ as) (h : f a = some b) : ∃ last, lastOf f as = some last := by
  have hne : as.filterMap f ≠ [] := List.ne_nil_of_mem (List.mem_filterMap.mpr ⟨a, ha, h⟩)
  exact ⟨_, List.getLast?_eq_some_getLast hne⟩

end Last

end CS.Transition
