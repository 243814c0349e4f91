import Kunstkammer.Foundation.Paging

/-!
# Lists in the order of recency, read page by page

A list is kept with the element that changed last in front.  A reader asks for its pages one after
the other, and the list goes on changing in between.

* `touch key a l`: `a` comes to the front of `l`, and what had its key is gone;
* `Moving key changes S`: the list `S k` at the time of the request for page `k`, with the elements
  of `changes k` touched before the next request;
* `Untouched key changes m x`: nothing with the key of `x` is touched before the request for page
  `m`;
* `Moving.mem_concat`: a reader that stops behind the end of the list has seen every untouched
  element.
-/

namespace Recency

open Paging

variable {α κ : Type*} [DecidableEq κ] {key : α → κ}

/-- `a` comes to the front, in the place of the element with its key or as a new one. -/
def touch (key : α → κ) (l : List α) (a : α) : List α := a :: l.eraseP fun b => key b = key a

/-- An element that is not touched does not come nearer to the front. -/
theorem getElem?_touch {l : List α} {i : ℕ} {x a : α} (h : l[i]? = some x) (hne : key a ≠ key x) :
    ∃ j, i ≤ j ∧ (touch key l a)[j]? = some x := by
  induction l generalizing i with
  | nil => simp at h
  | cons b l ih =>
    by_cases hb : key b = key a
    · -- `b` makes room for `a`
      cases i with
      | zero =>
        obtain rfl : b = x := by simpa using h
        exact absurd hb.symm hne
      | succ i => exact ⟨i + 1, le_rfl, by simpa [touch, hb] using h⟩
    · cases i with
      | zero => exact ⟨1, Nat.zero_le 1, by simpa [touch, hb] using h⟩
      | succ i =>
        obtain ⟨j, hij, hj⟩ := ih (by simpa using h)
        cases j with
        | zero =>
          obtain rfl : a = x := by simpa [touch] using hj
          exact absurd rfl hne
        | succ j => exact ⟨j + 2, by omega, by simpa [touch, hb] using hj⟩

/-- Nor does it when many others are touched, the last of them last. -/
theorem getElem?_touch_all {as : List α} {x : α} (hne : ∀ a ∈ as, key a ≠ key x) {l : List α}
    {i : ℕ} (h : l[i]? = some x) : ∃ j, i ≤ j ∧ (as.foldl (touch key) l)[j]? = some x := by
  induction as generalizing l i with
  | nil => exact ⟨i, le_rfl, h⟩
  | cons a as ih =>
    rw [List.forall_mem_cons] at hne
    obtain ⟨j, hij, hj⟩ := getElem?_touch h hne.1
    obtain ⟨k, hjk, hk⟩ := ih hne.2 hj
    exact ⟨k, hij.trans hjk, hk⟩

/-- The list changes between the requests by touches only. -/
def Moving (key : α → κ) (changes S : ℕ → List α) : Prop :=
  ∀ k, S (k + 1) = (changes k).foldl (touch key) (S k)

/-- Nothing with the key of `x` is touched before the request for page `m`. -/
def Untouched (key : α → κ) (changes : ℕ → List α) (m : ℕ) (x : α) : Prop :=
  ∀ k < m, ∀ a ∈ changes k, key a ≠ key x

variable {changes S : ℕ → List α} {L m : ℕ}

/-- Up to any request, an untouched element has been read or is still to come. -/
theorem Moving.read_or_ahead (h : Moving key changes S) {x : α} (hx : x ∈ S 0) {n : ℕ}
    (huntouched : Untouched key changes n x) :
    x ∈ concat (fun k => page L (S k) k) 0 n ∨ ∃ j, n * L ≤ j ∧ (S n)[j]? = some x := by
  induction n with
  | zero =>
    obtain ⟨j, hj⟩ := List.mem_iff_getElem?.1 hx
    exact Or.inr ⟨j, by omega, hj⟩
  | succ n ih =>
    rw [concat_add, concat_one, Nat.zero_add, List.mem_append]
    rcases ih fun k hk => huntouched k (by omega) with hread | ⟨j, hnj, hj⟩
    · exact Or.inl (Or.inl hread)
    · by_cases hnext : j < (n + 1) * L
      · -- it is on page `n`
        refine Or.inl (Or.inr (List.mem_iff_getElem?.2 ⟨j - n * L, ?_⟩))
        have hlt : j - n * L < L := by
          rw [Nat.succ_mul] at hnext
          omega
        rw [page, List.getElem?_take_of_lt hlt, List.getElem?_drop, Nat.add_sub_cancel' hnj, hj]
      · obtain ⟨i, hji, hi⟩ := getElem?_touch_all (huntouched n (Nat.lt_succ_self n)) hj
        rw [← h n] at hi
        exact Or.inr ⟨i, by omega, hi⟩

/-- **A reader that stops behind the end of the list has seen every untouched element.** -/
theorem Moving.mem_concat (h : Moving key changes S) (hend : (S m).length < (m + 1) * L) {x : α}
    (hx : x ∈ S 0) (huntouched : Untouched key changes m x) :
    x ∈ concat (fun k => page L (S k) k) 0 (m + 1) := by
  rw [concat_add, concat_one, Nat.zero_add, List.mem_append]
  rcases h.read_or_ahead (L := L) hx huntouched with hread | ⟨j, hmj, hj⟩
  · exact Or.inl hread
  · have hlt : j < (S m).length := (List.getElem?_eq_some_iff.1 hj).1
    refine Or.inr (List.mem_iff_getElem?.2 ⟨j - m * L, ?_⟩)
    have hon : j - m * L < L := by
      rw [Nat.succ_mul] at hend
      omega
    rw [page, List.getElem?_take_of_lt hon, List.getElem?_drop, Nat.add_sub_cancel' hmj, hj]

/-- Some request is the first one behind the end of a list that does not grow for ever. -/
theorem exists_end (hL : 0 < L) {N : ℕ} (hN : ∀ k, (S k).length ≤ N) :
    ∃ m, m * L ≤ N ∧ (S m).length < (m + 1) * L ∧
      ∀ k < m, (k + 1) * L ≤ (S k).length := by
  classical
  have hex : ∃ m, (S m).length < (m + 1) * L :=
    ⟨N, (hN N).trans_lt (by nlinarith)⟩
  refine ⟨Nat.find hex, ?_, Nat.find_spec hex, fun k hk => not_lt.1 (Nat.find_min hex hk)⟩
  rcases Nat.eq_zero_or_pos (Nat.find hex) with hzero | hpos
  · rw [hzero, Nat.zero_mul]
    exact Nat.zero_le N
  · have hlast := not_lt.1 (Nat.find_min hex (Nat.sub_lt hpos one_pos))
    have hsucc : Nat.find hex - 1 + 1 = Nat.find hex := Nat.succ_pred_eq_of_pos hpos
    rw [hsucc] at hlast
    exact hlast.trans (hN _)

/-- What is read was in the list. -/
theorem exists_mem_of_mem_concat {P : ℕ → List α} {n : ℕ} {x : α} (h : x ∈ concat P 0 n) :
    ∃ k < n, x ∈ P k := by
  obtain ⟨p, hp, hx⟩ := List.mem_flatten.1 h
  obtain ⟨k, hk, rfl⟩ := List.mem_map.1 hp
  rw [List.mem_range'_1] at hk
  exact ⟨k, by omega, hx⟩

end Recency
