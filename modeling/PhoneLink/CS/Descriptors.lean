import Mathlib.Data.Finset.Card
import Mathlib.Order.Interval.Finset.Nat
import Mathlib.Tactic.SplitIfs

/-!
# Tables of file descriptors

A process may have so many descriptors open at a time and no more. A descriptor that is
handed out is one that is not open; what is never closed is never handed out again.

## Main results

* `Descriptors.close_of_acquire`: to close what was just handed out undoes it
* `Descriptors.Owned.acquire`: descriptors kept open stay pairwise different
* `Descriptors.Owned.length_le`: there are no more of them than descriptors
-/

namespace CS

/-- The descriptors below `limit`, and those of them that are open. -/
structure Descriptors where
  limit : ℕ
  opened : Finset ℕ
  lt_limit : ∀ fd ∈ opened, fd < limit

namespace Descriptors

/-- Hand out a descriptor. -/
def acquire (d : Descriptors) (fd : ℕ) : Option Descriptors :=
  if h : fd < d.limit ∧ fd ∉ d.opened then
    some ⟨d.limit, insert fd d.opened, fun k hk => by
      rcases Finset.mem_insert.mp hk with rfl | hold
      · exact h.1
      · exact d.lt_limit k hold⟩
  else none

def close (d : Descriptors) (fd : ℕ) : Descriptors :=
  ⟨d.limit, d.opened.erase fd, fun k hk => d.lt_limit k (Finset.mem_of_mem_erase hk)⟩

/-- No descriptor is open. -/
def allClosed (limit : ℕ) : Descriptors :=
  ⟨limit, ∅, fun _ hfd => absurd hfd (Finset.notMem_empty _)⟩

variable {d e : Descriptors} {fd : ℕ} {fds : List ℕ}

theorem acquire_eq_some (h : d.acquire fd = some e) :
    (fd < d.limit ∧ fd ∉ d.opened) ∧ e.limit = d.limit ∧ e.opened = insert fd d.opened := by
  unfold acquire at h
  split_ifs at h with hfree
  obtain rfl := Option.some.inj h
  exact ⟨hfree, rfl, rfl⟩

theorem close_of_acquire (h : d.acquire fd = some e) : e.close fd = d := by
  unfold acquire at h
  split_ifs at h with hfree
  obtain rfl := Option.some.inj h
  unfold close
  congr 1
  exact Finset.erase_insert hfree.2

/-- The descriptors of the list are open, and the list names none twice. -/
structure Owned (d : Descriptors) (fds : List ℕ) : Prop where
  nodup : fds.Nodup
  opened : ∀ fd ∈ fds, fd ∈ d.opened

theorem owned_nil (d : Descriptors) : d.Owned [] := ⟨List.nodup_nil, fun _ h => (nomatch h)⟩

/-- Somebody else is handed a descriptor. -/
theorem Owned.of_acquire (h : d.Owned fds) (hacquire : d.acquire fd = some e) : e.Owned fds := by
  obtain ⟨-, -, hopened⟩ := acquire_eq_some hacquire
  exact ⟨h.nodup, fun k hk => hopened ▸ Finset.mem_insert_of_mem (h.opened k hk)⟩

/-- One more descriptor is kept. -/
theorem Owned.acquire (h : d.Owned fds) (hacquire : d.acquire fd = some e) :
    e.Owned (fds ++ [fd]) := by
  obtain ⟨⟨-, hfree⟩, -, hopened⟩ := acquire_eq_some hacquire
  -- what is kept is open, what is handed out was not
  have hnew : fd ∉ fds := fun hmem => hfree (h.opened fd hmem)
  refine ⟨List.nodup_append.mpr ⟨h.nodup, List.nodup_singleton fd, ?_⟩, ?_⟩
  · rintro k hk _ hfd rfl
    exact hnew (List.mem_singleton.mp hfd ▸ hk)
  · intro k hk
    rw [hopened, Finset.mem_insert]
    rcases List.mem_append.mp hk with hold | hlast
    · exact .inr (h.opened k hold)
    · exact .inl (List.mem_singleton.mp hlast)

/-- Somebody else closes a descriptor. -/
theorem Owned.close (h : d.Owned fds) (hfd : fd ∉ fds) : (d.close fd).Owned fds :=
  ⟨h.nodup, fun k hk => Finset.mem_erase.mpr ⟨fun heq => hfd (heq ▸ hk), h.opened k hk⟩⟩

theorem Owned.subset_range (h : d.Owned fds) : fds.toFinset ⊆ Finset.range d.limit :=
  fun k hk => Finset.mem_range.mpr (d.lt_limit k (h.opened k (List.mem_toFinset.mp hk)))

theorem Owned.length_le (h : d.Owned fds) : fds.length ≤ d.limit := by
  have hcard := Finset.card_le_card h.subset_range
  rwa [List.toFinset_card_of_nodup h.nodup, Finset.card_range] at hcard

/-- Who keeps as many descriptors as there may be keeps all of them. -/
theorem Owned.mem_of_length_eq (h : d.Owned fds) (hall : fds.length = d.limit)
    (hfd : fd < d.limit) : fd ∈ fds := by
  have hcard : fds.toFinset.card = (Finset.range d.limit).card := by
    rw [List.toFinset_card_of_nodup h.nodup, Finset.card_range, hall]
  have heq := Finset.eq_of_subset_of_card_le h.subset_range (Nat.le_of_eq hcard.symm)
  exact List.mem_toFinset.mp (heq ▸ Finset.mem_range.mpr hfd)

/-- Every descriptor is open. -/
def Full (d : Descriptors) : Prop := ∀ fd < d.limit, fd ∈ d.opened

instance (d : Descriptors) : Decidable d.Full :=
  inferInstanceAs (Decidable (∀ fd < d.limit, fd ∈ d.opened))

theorem Owned.full (h : d.Owned fds) (hall : fds.length = d.limit) : d.Full :=
  fun fd hfd => h.opened fd (h.mem_of_length_eq hall hfd)

theorem Full.acquire_eq_none (h : d.Full) : d.acquire fd = none :=
  dif_neg fun ⟨hlt, hfree⟩ => hfree (h fd hlt)

/-- What is not open need not be closed. -/
theorem Full.close (h : d.Full) (hfd : fd ∉ d.opened) : (d.close fd).Full :=
  fun k hk => Finset.mem_erase.mpr ⟨fun heq => hfd (heq ▸ h k hk), h k hk⟩

end Descriptors

end CS
