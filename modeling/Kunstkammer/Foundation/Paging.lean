import Mathlib.Tactic

/-!
# Listings read page by page

A collection is served in pages of `L` items.  A reader that asks for the pages `0, 1, …` in
turn can stop at the first page that is not full.

* `page L l k`: page `k` of the list `l`; `concat P k n`: the pages `k, …, k + n - 1` of `P`
  one after the other;
* `EndsAt P L m`: page `m` is the first page of `P` that is not full, and nothing follows it;
* `lossy P fails`: the pages of `P` as a reader sees them when a failed request yields an empty
  page; `lossy_endsAt_of_fails` and `lossy_endsAt_of_ok` find its last page.
-/

namespace Paging

variable {α : Type*}

/-- Page `k` of `l`. -/
def page (L : ℕ) (l : List α) (k : ℕ) : List α := (l.drop (k * L)).take L

/-- The pages `k, …, k + n - 1` of `P` joined. -/
def concat (P : ℕ → List α) (k n : ℕ) : List α := ((List.range' k n).map P).flatten

@[simp] theorem concat_zero (P : ℕ → List α) (k : ℕ) : concat P k 0 = [] := rfl

theorem concat_succ (P : ℕ → List α) (k n : ℕ) :
    concat P k (n + 1) = P k ++ concat P (k + 1) n := by
  simp [concat, List.range'_succ]

@[simp] theorem concat_one (P : ℕ → List α) (k : ℕ) : concat P k 1 = P k := by
  rw [concat_succ, concat_zero, List.append_nil]

theorem concat_add (P : ℕ → List α) (k m n : ℕ) :
    concat P k (m + n) = concat P k m ++ concat P (k + m) n := by
  simp [concat, ← List.range'_append_1]

theorem concat_congr {P Q : ℕ → List α} {k n : ℕ} (h : ∀ i, k ≤ i → i < k + n → P i = Q i) :
    concat P k n = concat Q k n := by
  unfold concat
  congr 1
  refine List.map_congr_left fun i hi => ?_
  rw [List.mem_range'_1] at hi
  exact h i hi.1 hi.2

theorem length_page (L : ℕ) (l : List α) (k : ℕ) :
    (page L l k).length = min L (l.length - k * L) := by
  simp [page]

theorem page_eq_nil_iff {L : ℕ} (hL : 0 < L) (l : List α) (k : ℕ) :
    page L l k = [] ↔ l.length ≤ k * L := by
  rw [← List.length_eq_zero_iff, length_page]; omega

/-- The first `n` pages are the first `n * L` items. -/
theorem concat_page (L : ℕ) (l : List α) (n : ℕ) : concat (page L l) 0 n = l.take (n * L) := by
  induction n with
  | zero => simp
  | succ n ih =>
    rw [concat_add, ih, concat_one, Nat.zero_add, page, Nat.succ_mul, List.take_add]

/-- The pages from the second on are the items after the first page. -/
theorem concat_page_one (L : ℕ) (l : List α) (n : ℕ) :
    concat (page L l) 1 n = (l.take ((n + 1) * L)).drop L := by
  have h := concat_page L l (n + 1)
  rw [concat_succ] at h
  rcases le_or_gt L l.length with hl | hl
  · rw [← h, List.drop_left' (by simp [length_page, hl])]
  · have hnil : ∀ i, 1 ≤ i → i < 1 + n → page L l i = [] := fun i hi _ => by
      rw [page, List.drop_of_length_le (by nlinarith), List.take_nil]
    rw [concat_congr (Q := fun _ => []) hnil, List.drop_of_length_le (by simp; omega)]
    simp [concat]

/-- Page `m` is the first page of `P` that is not full.  If it has items at all, the page after
it has none. -/
structure EndsAt (P : ℕ → List α) (L m : ℕ) : Prop where
  full : ∀ k < m, (P k).length = L
  last : (P m).length < L
  after : P m ≠ [] → P (m + 1) = []

/-- A list ends at the page its length falls into. -/
theorem page_endsAt {L : ℕ} (hL : 0 < L) (l : List α) : EndsAt (page L l) L (l.length / L) where
  full k hk := by
    have h : (k + 1) * L ≤ l.length :=
      (Nat.mul_le_mul_right L hk).trans (Nat.div_mul_le_self _ _)
    rw [length_page, Nat.succ_mul] at *
    omega
  last := by
    have h : l.length < (l.length / L + 1) * L := by
      rw [mul_comm]; exact Nat.lt_mul_div_succ _ hL
    rw [length_page, Nat.succ_mul] at *
    omega
  after _ := by
    rw [page_eq_nil_iff hL, mul_comm]
    exact (Nat.lt_mul_div_succ _ hL).le

theorem page_length_div_ne_nil_iff {L : ℕ} (hL : 0 < L) (l : List α) :
    page L l (l.length / L) ≠ [] ↔ l.length % L ≠ 0 := by
  rw [Ne, page_eq_nil_iff hL, not_le, Nat.pos_iff_ne_zero.symm]
  have h := Nat.div_add_mod l.length L
  rw [mul_comm] at h
  omega

/-- The pages of `P` as a reader gets them, a failed request yielding an empty page. -/
def lossy (P : ℕ → List α) (fails : ℕ → Prop) [DecidablePred fails] (k : ℕ) : List α :=
  if fails k then [] else P k

section Lossy

variable {P : ℕ → List α} {fails : ℕ → Prop} [DecidablePred fails] {L m : ℕ}

theorem lossy_of_fails {k : ℕ} (h : fails k) : lossy P fails k = [] := if_pos h

theorem lossy_of_ok {k : ℕ} (h : ¬ fails k) : lossy P fails k = P k := if_neg h

/-- A failed page ends the listing. -/
theorem lossy_endsAt_of_fails {p : ℕ} (hL : 0 < L) (h : EndsAt P L m) (hp : p ≤ m) (hf : fails p)
    (hok : ∀ k < p, ¬ fails k) : EndsAt (lossy P fails) L p where
  full k hk := by rw [lossy_of_ok (hok k hk)]; exact h.full k (by omega)
  last := by rw [lossy_of_fails hf]; exact hL
  after hne := absurd (lossy_of_fails hf) hne

end Lossy

/-- When every page with items is served, the reader sees the pages of the list. -/
theorem lossy_page_eq {L : ℕ} (hL : 0 < L) {l : List α} {fails : ℕ → Prop} [DecidablePred fails]
    (hok : ∀ k, k * L < l.length → ¬ fails k) : lossy (page L l) fails = page L l := by
  funext k
  rcases lt_or_ge (k * L) l.length with hk | hk
  · exact lossy_of_ok (hok k hk)
  · rw [lossy, (page_eq_nil_iff hL l k).2 hk, ite_self]

/-- All pages of a list joined are the list. -/
theorem concat_page_all {L : ℕ} (hL : 0 < L) (l : List α) :
    concat (page L l) 0 (l.length / L + 1) = l := by
  rw [concat_page, mul_comm]
  exact List.take_of_length_le (Nat.lt_mul_div_succ _ hL).le

/-- What is read before a failed page is a proper part of the list. -/
theorem concat_lossy_of_fails {L : ℕ} {l : List α} {fails : ℕ → Prop} [DecidablePred fails]
    {p : ℕ} (hf : fails p) (hok : ∀ k < p, ¬ fails k) :
    concat (lossy (page L l) fails) 0 (p + 1) = l.take (p * L) := by
  rw [concat_add, concat_one, Nat.zero_add, lossy_of_fails hf, List.append_nil, ← concat_page]
  exact concat_congr fun i _ hi => lossy_of_ok (hok i (by omega))

/-- A page that fails first, among those that fail. -/
theorem exists_first (fails : ℕ → Prop) {k : ℕ} (h : fails k) :
    ∃ p ≤ k, fails p ∧ ∀ i < p, ¬ fails i := by
  classical
  exact ⟨Nat.find ⟨k, h⟩, Nat.find_min' _ h, Nat.find_spec ⟨k, h⟩, fun i hi => Nat.find_min _ hi⟩

end Paging
