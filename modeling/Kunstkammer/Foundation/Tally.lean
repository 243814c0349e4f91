import Kunstkammer.Foundation.OrdMap

/-!
# Counting in an ordered map

* `increment`: one more under a key, where a missing key counts as zero;
* `tally f l`: how often the values of `f` occur in `l`;
* `find?_tally`, `tally_perm`, `sum_tally`: it counts right, in whatever order, and leaves nothing
  out.
-/

namespace OrdMap

variable {κ ν α : Type*} [LinearOrder κ]

theorem find?_insert_self (m : OrdMap κ ν) (k : κ) (v : ν) : (m.insert k v).find? k = some v :=
  OrdAssoc.find?_insert_self k v m.items

theorem find?_insert_of_ne (m : OrdMap κ ν) {k i : κ} (h : i ≠ k) (v : ν) :
    (m.insert k v).find? i = m.find? i :=
  OrdAssoc.find?_insert_of_ne h v m.items

theorem find?_eq_some_iff {m : OrdMap κ ν} {k : κ} {v : ν} :
    m.find? k = some v ↔ (k, v) ∈ m.items :=
  OrdAssoc.find?_eq_some_iff m.sorted.nodup_keys

/-- A map is determined by what is found in it. -/
theorem ext_find? {m n : OrdMap κ ν} (h : ∀ k, m.find? k = n.find? k) : m = n := by
  have hmem : ∀ p, p ∈ m.items ↔ p ∈ n.items := fun p => by
    rw [← find?_eq_some_iff (k := p.1), h, find?_eq_some_iff]
  have hnodup : ∀ m : OrdMap κ ν, m.items.Nodup := fun m =>
    List.Nodup.of_map Prod.fst m.sorted.nodup_keys
  have hperm : m.items.Perm n.items := (List.perm_ext_iff_of_nodup (hnodup m) (hnodup n)).2 hmem
  refine ext (hperm.eq_of_pairwise ?_ m.sorted n.sorted)
  intro p q _ _ hpq hqp
  exact absurd hqp hpq.not_gt

/-- Count one more `k`. -/
def increment (m : OrdMap κ ℕ) (k : κ) : OrdMap κ ℕ := m.insert k ((m.find? k).getD 0 + 1)

/-- How often each value of `f` occurs in `l`, counted on top of `m`. -/
def tallyFrom (f : α → κ) (m : OrdMap κ ℕ) (l : List α) : OrdMap κ ℕ :=
  l.foldl (fun m a => m.increment (f a)) m

/-- How often each value of `f` occurs in `l`. -/
def tally (f : α → κ) (l : List α) : OrdMap κ ℕ := tallyFrom f empty l

variable (f : α → κ)

/-- The count of a key that does not occur is left alone, a missing one stays missing. -/
theorem find?_tallyFrom (m : OrdMap κ ℕ) (l : List α) (k : κ) :
    (tallyFrom f m l).find? k =
      if k ∈ l.map f then some ((m.find? k).getD 0 + l.countP (f · = k)) else m.find? k := by
  induction l generalizing m with
  | nil => rfl
  | cons a l ih =>
    rw [tallyFrom, List.foldl_cons]
    refine (ih _).trans ?_
    rw [List.map_cons, increment]
    by_cases hk : k = f a
    · subst hk
      rw [find?_insert_self, if_pos List.mem_cons_self, List.countP_cons_of_pos (by simp)]
      split_ifs with hmem
      · rw [Option.getD_some]
        congr 1
        ring
      · have hzero : l.countP (f · = f a) = 0 := by
          rw [List.countP_eq_zero]
          intro b hb
          rw [decide_eq_true_iff]
          exact fun he => hmem (List.mem_map.2 ⟨b, hb, he⟩)
        rw [hzero]
    · rw [find?_insert_of_ne _ hk, List.countP_cons_of_neg (by simpa using Ne.symm hk)]
      simp only [List.mem_cons, hk, false_or]

theorem find?_tally (l : List α) (k : κ) :
    (tally f l).find? k = if k ∈ l.map f then some (l.countP (f · = k)) else none := by
  rw [tally, find?_tallyFrom]
  simp [find?, empty, OrdAssoc.find?]

/-- The order does not count. -/
theorem tally_perm {l l' : List α} (h : l.Perm l') : tally f l = tally f l' := by
  apply ext_find?
  intro k
  rw [find?_tally, find?_tally, h.countP_eq]
  simp only [(h.map f).mem_iff]

theorem sum_increment (m : OrdMap κ ℕ) (k : κ) :
    ((m.increment k).items.map Prod.snd).sum = (m.items.map Prod.snd).sum + 1 := by
  obtain ⟨items, hsorted⟩ := m
  unfold increment find? insert
  dsimp only
  induction items with
  | nil => rfl
  | cons p l ih =>
    have hl : OrdAssoc.Sorted l := (List.pairwise_cons.1 hsorted).2
    unfold OrdAssoc.insert OrdAssoc.find?
    split_ifs with hlt heq heq
    · exact absurd heq hlt.ne
    · have hnone : OrdAssoc.find? k l = none := by
        rw [OrdAssoc.find?_eq_none_iff]
        intro hmem
        obtain ⟨q, hq, rfl⟩ := List.mem_map.1 hmem
        exact absurd ((List.pairwise_cons.1 hsorted).1 q hq) hlt.not_gt
      rw [hnone]
      simp
      ring
    · simp
      ring
    · rw [List.map_cons, List.sum_cons, ih hl, List.map_cons, List.sum_cons]
      ring

/-- Everything is counted. -/
theorem sum_tally (l : List α) : ((tally f l).items.map Prod.snd).sum = l.length := by
  suffices h : ∀ m, ((tallyFrom f m l).items.map Prod.snd).sum =
      (m.items.map Prod.snd).sum + l.length by
    rw [tally, h]
    simp
  induction l with
  | nil => exact fun m => rfl
  | cons a l ih =>
    intro m
    rw [tallyFrom, List.foldl_cons]
    refine (ih _).trans ?_
    rw [sum_increment, List.length_cons]
    ring

end OrdMap
