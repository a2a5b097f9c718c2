import Mathlib.Data.List.Forall2
import Mathlib.Data.List.Infix

/-!
# Streams sent in pieces

Two facts about a byte stream or a record stream that is put together from
pieces: a concatenation of blocks of one size determines the blocks, and what
arrives of several streams in a row, each possibly cut short, stays of that form
when it is cut short itself.
-/

namespace CS

variable {α β : Type*}

/-! ### Blocks of one size -/

/-- If the blocks of `ys`, followed by more, are the blocks of `xs`, then `ys` is a
prefix of `xs`. -/
theorem prefix_of_flatMap_append {block : α → List β} {n : ℕ}
    (hinj : Function.Injective block) (hsize : ∀ a, (block a).length = n) (hn : 0 < n)
    {xs ys : List α} {rest : List β} (h : xs.flatMap block = ys.flatMap block ++ rest) :
    ys <+: xs := by
  induction ys generalizing xs with
  | nil => exact List.nil_prefix
  | cons y ys ih =>
    cases xs with
    | nil =>
      have hlen := congrArg List.length h
      simp [hsize y] at hlen
      omega
    | cons x xs =>
      rw [List.flatMap_cons, List.flatMap_cons, List.append_assoc] at h
      -- two first blocks of one size on equal lists are the same block
      obtain ⟨hblock, hrest⟩ := List.append_inj h ((hsize x).trans (hsize y).symm)
      obtain rfl := hinj hblock
      exact List.cons_prefix_cons.mpr ⟨rfl, ih hrest⟩

/-! ### Streams cut short -/

/-- `l` consists of a prefix of each of the streams, one after the other. -/
def PrefixesOf (l : List α) (streams : List (List α)) : Prop :=
  ∃ parts, l = parts.flatten ∧ List.Forall₂ (· <+: ·) parts streams

variable {l l' p q : List α} {streams : List (List α)}

theorem prefixesOf_nil (streams : List (List α)) : PrefixesOf [] streams := by
  refine ⟨streams.map fun _ => [], by simp, ?_⟩
  induction streams with
  | nil => exact .nil
  | cons q streams ih => exact .cons List.nil_prefix ih

/-- One more stream begins. -/
theorem PrefixesOf.append (h : PrefixesOf l streams) (hp : p <+: q) :
    PrefixesOf (l ++ p) (streams ++ [q]) := by
  obtain ⟨parts, rfl, hparts⟩ := h
  refine ⟨parts ++ [p], by simp, ?_⟩
  exact List.rel_append hparts (.cons hp .nil)

theorem PrefixesOf.of_isPrefix (h : PrefixesOf l streams) (hp : l' <+: l) :
    PrefixesOf l' streams := by
  obtain ⟨parts, rfl, hparts⟩ := h
  induction hparts generalizing l' with
  | nil =>
    obtain rfl : l' = [] := List.prefix_nil.mp hp
    exact prefixesOf_nil []
  | @cons p q parts streams hpq _ ih =>
    rw [List.flatten_cons] at hp
    -- the cut falls into the first part, or behind it
    rcases List.prefix_or_prefix_of_prefix hp (List.prefix_append p parts.flatten) with
      hshort | ⟨tail, rfl⟩
    · obtain ⟨nils, hnil, hnils⟩ := prefixesOf_nil streams
      exact ⟨l' :: nils, by simp [← hnil], .cons (hshort.trans hpq) hnils⟩
    · obtain ⟨tails, rfl, htails⟩ := ih ((List.prefix_append_right_inj p).mp hp)
      exact ⟨p :: tails, rfl, .cons hpq htails⟩

/-- What arrives of translated streams is the translation of what arrives. -/
theorem PrefixesOf.of_map {f : β → α} {streams : List (List β)}
    (h : PrefixesOf l (streams.map (List.map f))) :
    ∃ l', l = l'.map f ∧ PrefixesOf l' streams := by
  obtain ⟨parts, rfl, hparts⟩ := h
  rw [List.forall₂_map_right_iff] at hparts
  refine ⟨(parts.zipWith (fun p q => q.take p.length) streams).flatten, ?_, _, rfl, ?_⟩
  · rw [List.map_flatten]
    congr 1
    induction hparts with
    | nil => rfl
    | cons hpq _ ih =>
      rw [List.zipWith_cons_cons, List.map_cons, ← ih, List.map_take,
        ← List.prefix_iff_eq_take.mp hpq]
  · induction hparts with
    | nil => exact .nil
    | cons _ _ ih => exact .cons (List.take_prefix _ _) ih

end CS
