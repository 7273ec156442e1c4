import Mathlib.Data.List.Pairwise

/-!
# Lists in order, and lists of fates

Queues are sorted by a number, stably, and cut at a number.  What becomes of the things that pass
through a queue is kept in a list of entries, each with its fate.
-/

namespace Groovebox

/-! ## Sorting by a number -/

section Sorting

variable {α β : Type} {key : α → Nat}

/-- A list sorted by a number; entries of one number stay in their order. -/
def sortedBy (key : α → Nat) (xs : List α) : List α :=
  xs.mergeSort fun a b => key a ≤ key b

theorem sortedBy_perm (key : α → Nat) (xs : List α) : (sortedBy key xs).Perm xs :=
  List.mergeSort_perm ..

theorem pairwise_sortedBy (key : α → Nat) (xs : List α) :
    (sortedBy key xs).Pairwise (key · ≤ key ·) := by
  have hsorted : (sortedBy key xs).Pairwise fun a b => decide (key a ≤ key b) = true :=
    List.pairwise_mergeSort (by simp; omega) (by simp; omega) xs
  exact hsorted.imp of_decide_eq_true

/-- A list is sorted alike after a change that keeps the order of the numbers. -/
theorem map_sortedBy (other : β → Nat) {f : α → β} {xs : List α}
    (h : ∀ a ∈ xs, ∀ b ∈ xs, key a ≤ key b ↔ other (f a) ≤ other (f b)) :
    (sortedBy key xs).map f = sortedBy other (xs.map f) :=
  List.map_mergeSort fun a ha b hb => decide_eq_decide.mpr (h a ha b hb)

/-- A list that is sorted by a number without a repetition is the only such order of its entries. -/
theorem eq_sortedBy_of_distinct {xs ys : List α} (hxs : xs.Pairwise (key · ≤ key ·))
    (hperm : xs.Perm ys) (hys : ys.Pairwise (key · ≠ key ·)) : xs = sortedBy key ys := by
  have hsorted := hperm.trans (sortedBy_perm key ys).symm
  refine hsorted.eq_of_pairwise ?_ hxs (pairwise_sortedBy key ys)
  intro a b ha hb hab hba
  by_contra hne
  have : Std.Symm fun a b => key a ≠ key b := ⟨fun _ _ => Ne.symm⟩
  exact hys.forall (hperm.subset ha) ((sortedBy_perm key ys).subset hb) hne
    (Nat.le_antisymm hab hba)

/-- Sorting keeps the order among the entries of one number. -/
theorem filter_sortedBy (key : α → Nat) (xs : List α) (k : Nat) :
    (sortedBy key xs).filter (key · = k) = xs.filter (key · = k) := by
  have hclass : (xs.filter (key · = k)).Pairwise fun a b => decide (key a ≤ key b) = true := by
    refine List.pairwise_of_forall_mem_list fun a ha b hb => ?_
    have ha := of_decide_eq_true (List.mem_filter.mp ha).2
    have hb := of_decide_eq_true (List.mem_filter.mp hb).2
    exact decide_eq_true (Nat.le_of_eq (ha.trans hb.symm))
  have hsub : List.Sublist (xs.filter (key · = k)) (sortedBy key xs) :=
    List.sublist_mergeSort (by simp; omega) (by simp; omega) hclass List.filter_sublist
  have hfilter := hsub.filter (key · = k)
  rw [List.filter_filter, List.filter_congr fun _ _ => Bool.and_self _] at hfilter
  exact (hfilter.eq_of_length ((sortedBy_perm key xs).filter _).length_eq.symm).symm

/-- A list that is sorted by a number begins with the least. -/
theorem le_of_mem_cons {x y : α} {xs : List α} (h : (x :: xs).Pairwise (key · ≤ key ·))
    (hy : y ∈ x :: xs) : key x ≤ key y := by
  rcases List.mem_cons.mp hy with rfl | hmem
  · exact Nat.le_refl _
  · exact List.rel_of_pairwise_cons h hmem

theorem mem_of_filter_eq {xs ys : List α}
    (h : ∀ k, xs.filter (key · = k) = ys.filter (key · = k)) {x : α} (hx : x ∈ xs) : x ∈ ys := by
  have hclass : x ∈ xs.filter (key · = key x) := List.mem_filter.mpr ⟨hx, decide_eq_true rfl⟩
  rw [h] at hclass
  exact (List.mem_filter.mp hclass).1

/-- Two lists that are sorted by a number are the same if, for each number, they have the same
entries of it in the same order. -/
theorem eq_of_filter_eq {xs ys : List α} (hxs : xs.Pairwise (key · ≤ key ·))
    (hys : ys.Pairwise (key · ≤ key ·))
    (h : ∀ k, xs.filter (key · = k) = ys.filter (key · = k)) : xs = ys := by
  have hsymm : ∀ k, ys.filter (key · = k) = xs.filter (key · = k) := fun k => (h k).symm
  induction xs generalizing ys with
  | nil =>
    cases ys with
    | nil => rfl
    | cons y ys => exact absurd (mem_of_filter_eq hsymm List.mem_cons_self) List.not_mem_nil
  | cons x xs ih =>
    cases ys with
    | nil => exact absurd (mem_of_filter_eq h List.mem_cons_self) List.not_mem_nil
    | cons y ys =>
      -- each head is of the least number of its list, and both lists have the same numbers
      have hxy : key x ≤ key y := le_of_mem_cons hxs (mem_of_filter_eq hsymm List.mem_cons_self)
      have hyx : key y ≤ key x := le_of_mem_cons hys (mem_of_filter_eq h List.mem_cons_self)
      have hkey : key y = key x := Nat.le_antisymm hyx hxy
      have hhead := h (key x)
      rw [List.filter_cons_of_pos (by simp), List.filter_cons_of_pos (by simp [hkey])] at hhead
      obtain ⟨rfl, _⟩ := List.cons.inj hhead
      have htail : ∀ k, xs.filter (key · = k) = ys.filter (key · = k) := by
        intro k
        have hclass := h k
        rw [List.filter_cons, List.filter_cons] at hclass
        split at hclass
        · exact (List.cons.inj hclass).2
        · exact hclass
      exact congrArg (x :: ·) (ih hxs.of_cons hys.of_cons htail fun k => (htail k).symm)

/-- Of a list that is sorted by a number, the entries from a number on come last. -/
theorem dropWhile_eq_filter {xs : List α} (h : xs.Pairwise (key · ≤ key ·)) (k : Nat) :
    xs.dropWhile (key · < k) = xs.filter (k ≤ key ·) := by
  induction xs with
  | nil => rfl
  | cons x xs ih =>
    by_cases hx : key x < k
    · rw [List.dropWhile_cons_of_pos (by simpa using hx),
        List.filter_cons_of_neg (by simpa using hx), ih h.of_cons]
    · have hall : ∀ y ∈ x :: xs, k ≤ key y := by
        intro y hy
        have hle := le_of_mem_cons h hy
        omega
      rw [List.dropWhile_cons_of_neg (by simpa using hx), eq_comm, List.filter_eq_self]
      exact fun y hy => decide_eq_true (hall y hy)

/-- Of a list that is sorted by a number, the entries before a number come first. -/
theorem takeWhile_eq_filter {xs : List α} (h : xs.Pairwise (key · ≤ key ·)) (k : Nat) :
    xs.takeWhile (key · < k) = xs.filter (key · < k) := by
  induction xs with
  | nil => rfl
  | cons x xs ih =>
    by_cases hx : key x < k
    · rw [List.takeWhile_cons_of_pos (by simpa using hx),
        List.filter_cons_of_pos (by simpa using hx), ih h.of_cons]
    · rw [List.takeWhile_cons_of_neg (by simpa using hx), eq_comm, List.filter_eq_nil_iff]
      intro y hy
      have hle := le_of_mem_cons h hy
      simp only [decide_eq_true_eq]
      omega

end Sorting

/-! ## Cutting -/

/-- What is cut off a list in two goes. -/
theorem takeWhile_append_takeWhile_dropWhile {α : Type} {p q : α → Bool} (h : ∀ a, p a → q a)
    (xs : List α) :
    xs.takeWhile p ++ (xs.dropWhile p).takeWhile q = xs.takeWhile q ∧
      (xs.dropWhile p).dropWhile q = xs.dropWhile q := by
  induction xs with
  | nil => exact ⟨rfl, rfl⟩
  | cons x rest ih =>
    by_cases hp : p x
    · rw [List.takeWhile_cons_of_pos hp, List.dropWhile_cons_of_pos hp,
        List.takeWhile_cons_of_pos (h x hp), List.dropWhile_cons_of_pos (h x hp), List.cons_append,
        ih.1]
      exact ⟨rfl, ih.2⟩
    · rw [List.takeWhile_cons_of_neg hp, List.dropWhile_cons_of_neg hp]
      exact ⟨rfl, rfl⟩

/-! ## Entries with fates -/

section Fates

variable {α φ : Type} [DecidableEq φ]

/-- What has a fate among some entries, in order. -/
def withFate (fate : φ) (entries : List (α × φ)) : List α :=
  (entries.filter (·.2 = fate)).map (·.1)

theorem withFate_append (fate : φ) (a b : List (α × φ)) :
    withFate fate (a ++ b) = withFate fate a ++ withFate fate b := by
  rw [withFate, List.filter_append, List.map_append, withFate, withFate]

theorem withFate_map (fate other : φ) (xs : List α) :
    withFate fate (xs.map (·, other)) = if other = fate then xs else [] := by
  rw [withFate, List.filter_map, List.map_map]
  split
  · next h => simp [h, Function.comp_def]
  · next h => simp [h, Function.comp_def]

theorem withFate_perm {a b : List (α × φ)} (h : a.Perm b) (fate : φ) :
    (withFate fate a).Perm (withFate fate b) :=
  (h.filter _).map _

end Fates

end Groovebox
