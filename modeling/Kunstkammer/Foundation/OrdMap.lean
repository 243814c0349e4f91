import Mathlib.Tactic

/-!
# Ordered association lists

The sequences of pairs an ordered map walks through, smallest key first.

* `OrdAssoc.find?`, `OrdAssoc.insert` (insert or overwrite) on raw lists;
* `OrdAssoc.perm_foldl_insert`: what is inserted under distinct keys is all there;
* `OrdMap κ ν`: a list of pairs with strictly increasing keys, so that a map has one
  representation only;
* `OrdAssoc.foldl_insert`: inserting the pairs of a sorted list in order rebuilds the list.
-/

namespace OrdAssoc

/-- Where all keys differ, overwriting an entry is overwriting what stands under its key. -/
theorem set_eq_map {κ ν : Type*} [DecidableEq κ] {l : List (κ × ν)}
    (h : (l.map Prod.fst).Nodup) {i : ℕ} {k : κ} (hi : (l.map Prod.fst)[i]? = some k) (v : ν) :
    l.set i (k, v) = l.map fun p => if p.1 = k then (p.1, v) else p := by
  induction l generalizing i with
  | nil => rfl
  | cons p l ih =>
    rw [List.map_cons, List.nodup_cons] at h
    cases i with
    | zero =>
      obtain rfl : p.1 = k := Option.some.inj hi
      have hrest : l.map (fun q => if q.1 = p.1 then (q.1, v) else q) = l.map id := by
        apply List.map_congr_left
        intro q hq
        rw [if_neg fun he => h.1 (List.mem_map.2 ⟨q, hq, he⟩), id]
      rw [List.set_cons_zero, List.map_cons, if_pos rfl, hrest, List.map_id]
    | succ i =>
      rw [List.map_cons, List.getElem?_cons_succ] at hi
      have hne : p.1 ≠ k := fun he => h.1 (he ▸ List.mem_of_getElem? hi)
      rw [List.set_cons_succ, List.map_cons, if_neg hne, ih h.2 hi]

variable {κ ν : Type*} [LinearOrder κ]

/-- The value stored under `k`. -/
def find? (k : κ) : List (κ × ν) → Option ν
  | [] => none
  | p :: l => if k = p.1 then some p.2 else find? k l

/-- Store `v` under `k`: overwrite the entry of `k`, or insert one before the first larger key. -/
def insert (k : κ) (v : ν) : List (κ × ν) → List (κ × ν)
  | [] => [(k, v)]
  | p :: l =>
      if k < p.1 then (k, v) :: p :: l
      else if k = p.1 then (k, v) :: l
      else p :: insert k v l

@[simp] theorem insert_nil (k : κ) (v : ν) : insert k v [] = [(k, v)] := rfl

theorem find?_insert_self (k : κ) (v : ν) (l : List (κ × ν)) : find? k (insert k v l) = some v := by
  induction l with
  | nil => simp [find?]
  | cons p l ih =>
    unfold insert
    split_ifs with h1 h2
    · simp [find?]
    · simp [find?]
    · rw [find?, if_neg h2, ih]

theorem find?_insert_of_ne {k i : κ} (h : i ≠ k) (v : ν) (l : List (κ × ν)) :
    find? i (insert k v l) = find? i l := by
  induction l with
  | nil => simp [find?, h]
  | cons p l ih =>
    unfold insert
    split_ifs with h1 h2
    · rw [find?, if_neg h]
    · rw [find?, if_neg h, find?, if_neg (h2 ▸ h)]
    · rw [find?, ih, find?]

theorem mem_of_find? {k : κ} {v : ν} {l : List (κ × ν)} (h : find? k l = some v) : (k, v) ∈ l := by
  induction l with
  | nil => cases h
  | cons p l ih =>
    rw [find?] at h
    split_ifs at h with hk
    · rw [hk, ← Option.some.inj h]
      exact List.mem_cons_self
    · exact List.mem_cons_of_mem _ (ih h)

theorem find?_eq_none_iff {k : κ} {l : List (κ × ν)} :
    find? k l = none ↔ k ∉ l.map Prod.fst := by
  induction l with
  | nil => simp [find?]
  | cons p l ih =>
    rw [find?, List.map_cons, List.mem_cons, not_or, ← ih]
    by_cases hk : k = p.1
    · simp [hk]
    · simp [hk]

/-- With distinct keys, every entry is found. -/
theorem find?_eq_some_iff {k : κ} {v : ν} {l : List (κ × ν)} (h : (l.map Prod.fst).Nodup) :
    find? k l = some v ↔ (k, v) ∈ l := by
  induction l with
  | nil => simp [find?]
  | cons p l ih =>
    rw [List.map_cons, List.nodup_cons] at h
    rw [find?, List.mem_cons]
    by_cases hk : k = p.1
    · subst hk
      rw [if_pos rfl, Option.some.injEq]
      constructor
      · rintro rfl
        exact Or.inl rfl
      · rintro (hp | hp)
        · exact congrArg Prod.snd hp.symm
        · exact absurd (List.mem_map_of_mem hp) h.1
    · rw [if_neg hk, ih h.2]
      exact ⟨Or.inr, fun hp => hp.resolve_left fun he => hk (congrArg Prod.fst he)⟩

theorem find?_map {μ : Type*} (k : κ) (f : ν → μ) (l : List (κ × ν)) :
    find? k (l.map fun p => (p.1, f p.2)) = (find? k l).map f := by
  induction l with
  | nil => rfl
  | cons p l ih =>
    rw [List.map_cons, find?, find?, ih]
    split_ifs
    · rfl
    · rfl

/-- A key is inserted before the first larger one. -/
theorem insert_cons_of_lt {k : κ} {p : κ × ν} (h : k < p.1) (v : ν) (l : List (κ × ν)) :
    insert k v (p :: l) = (k, v) :: p :: l := if_pos h

/-- A key is inserted after the smaller ones. -/
theorem insert_cons_of_gt {k : κ} {p : κ × ν} (h : p.1 < k) (v : ν) (l : List (κ × ν)) :
    insert k v (p :: l) = p :: insert k v l := by
  rw [insert, if_neg h.not_gt, if_neg h.ne']

/-- Strictly increasing keys. -/
def Sorted (l : List (κ × ν)) : Prop := l.Pairwise fun p q => p.1 < q.1

theorem mem_insert {k : κ} {v : ν} {l : List (κ × ν)} {q : κ × ν} (h : q ∈ insert k v l) :
    q = (k, v) ∨ q ∈ l := by
  induction l with
  | nil => exact Or.inl (List.mem_singleton.1 h)
  | cons p l ih =>
    unfold insert at h
    split_ifs at h with h1 h2
    · exact List.mem_cons.1 h
    · rcases List.mem_cons.1 h with h | h
      · exact Or.inl h
      · exact Or.inr (List.mem_cons_of_mem _ h)
    · rcases List.mem_cons.1 h with rfl | h
      · exact Or.inr List.mem_cons_self
      · exact (ih h).imp_right (List.mem_cons_of_mem _)

theorem Sorted.insert {l : List (κ × ν)} (h : Sorted l) (k : κ) (v : ν) :
    Sorted (OrdAssoc.insert k v l) := by
  induction l with
  | nil => exact List.pairwise_singleton _ _
  | cons p l ih =>
    obtain ⟨hp, hl⟩ := List.pairwise_cons.1 h
    unfold OrdAssoc.insert
    split_ifs with h1 h2
    · refine List.pairwise_cons.2 ⟨fun q hq => ?_, h⟩
      rcases List.mem_cons.1 hq with rfl | hq
      · exact h1
      · exact h1.trans (hp q hq)
    · exact List.pairwise_cons.2 ⟨fun q hq => by rw [h2]; exact hp q hq, hl⟩
    · refine List.pairwise_cons.2 ⟨fun q hq => ?_, ih hl⟩
      rcases mem_insert hq with rfl | hq
      · exact lt_of_le_of_ne (not_lt.1 h1) (Ne.symm h2)
      · exact hp q hq

/-- A key above all keys of `l` is inserted at the end. -/
theorem insert_eq_append {k : κ} {v : ν} {l : List (κ × ν)} (h : ∀ p ∈ l, p.1 < k) :
    insert k v l = l ++ [(k, v)] := by
  induction l with
  | nil => rfl
  | cons p l ih =>
    have hp : p.1 < k := h p List.mem_cons_self
    rw [insert, if_neg hp.le.not_gt, if_neg hp.ne', ih fun q hq => h q (List.mem_cons_of_mem _ hq)]
    rfl

/-- Inserting the pairs of a sorted list one after the other appends them. -/
theorem foldl_insert_append {l acc : List (κ × ν)} (h : Sorted (acc ++ l)) :
    l.foldl (fun m p => insert p.1 p.2 m) acc = acc ++ l := by
  induction l generalizing acc with
  | nil => rw [List.foldl_nil, List.append_nil]
  | cons p l ih =>
    have hlast : ∀ q ∈ acc, q.1 < p.1 := fun q hq =>
      (List.pairwise_append.1 h).2.2 q hq p List.mem_cons_self
    rw [List.foldl_cons, insert_eq_append hlast, ih (by simpa [Sorted] using h)]
    simp

theorem foldl_insert {l : List (κ × ν)} (h : Sorted l) :
    l.foldl (fun m p => insert p.1 p.2 m) [] = l :=
  @foldl_insert_append κ ν _ l [] h

theorem Sorted.nodup_keys {l : List (κ × ν)} (h : Sorted l) : (l.map Prod.fst).Nodup :=
  List.pairwise_map.2 (h.imp fun hlt => hlt.ne)

/-- A new key adds its entry and changes no other. -/
theorem perm_insert {k : κ} {l : List (κ × ν)} (h : k ∉ l.map Prod.fst) (v : ν) :
    (insert k v l).Perm ((k, v) :: l) := by
  induction l with
  | nil => exact List.Perm.refl _
  | cons p l ih =>
    rw [List.map_cons, List.mem_cons, not_or] at h
    unfold insert
    rw [if_neg h.1]
    split_ifs
    · exact List.Perm.refl _
    · exact ((ih h.2).cons p).trans (List.Perm.swap _ _ _)

/-- Pairs with distinct keys are all there after they have been inserted, in whatever order. -/
theorem perm_foldl_insert {l acc : List (κ × ν)} (h : ((l ++ acc).map Prod.fst).Nodup) :
    (l.foldl (fun m p => insert p.1 p.2 m) acc).Perm (l ++ acc) := by
  induction l generalizing acc with
  | nil => exact List.Perm.refl _
  | cons p l ih =>
    rw [List.cons_append, List.map_cons, List.nodup_cons, List.map_append, List.mem_append,
      not_or] at h
    have hstep : (l ++ insert p.1 p.2 acc).Perm (p :: (l ++ acc)) :=
      ((perm_insert h.1.2 p.2).append_left l).trans List.perm_middle
    have hnodup : ((l ++ insert p.1 p.2 acc).map Prod.fst).Nodup := by
      rw [(hstep.map Prod.fst).nodup_iff, List.map_cons, List.map_append, List.nodup_cons,
        List.mem_append, not_or]
      exact ⟨h.1, List.map_append ▸ h.2⟩
    exact (ih hnodup).trans hstep

theorem Sorted.map {μ : Type*} {l : List (κ × ν)} (h : Sorted l) (f : ν → μ) :
    Sorted (l.map fun p => (p.1, f p.2)) :=
  List.pairwise_map.2 h

end OrdAssoc

/-- An ordered map: its pairs with strictly increasing keys. -/
structure OrdMap (κ ν : Type*) [LinearOrder κ] where
  items : List (κ × ν)
  sorted : OrdAssoc.Sorted items

namespace OrdMap

variable {κ ν : Type*} [LinearOrder κ]

@[ext] theorem ext {m n : OrdMap κ ν} (h : m.items = n.items) : m = n := by
  cases m; cases n; cases h; rfl

instance [DecidableEq ν] : DecidableEq (OrdMap κ ν) := fun m n =>
  decidable_of_iff (m.items = n.items) ⟨ext, congrArg items⟩

/-- The map without entries. -/
def empty : OrdMap κ ν := ⟨[], List.Pairwise.nil⟩

/-- Store `v` under `k`. -/
def insert (m : OrdMap κ ν) (k : κ) (v : ν) : OrdMap κ ν :=
  ⟨OrdAssoc.insert k v m.items, m.sorted.insert k v⟩

/-- The value stored under `k`. -/
def find? (m : OrdMap κ ν) (k : κ) : Option ν := OrdAssoc.find? k m.items

/-- The map without the entry of `k`. -/
def erase (m : OrdMap κ ν) (k : κ) : OrdMap κ ν :=
  ⟨m.items.filter (·.1 ≠ k), m.sorted.filter _⟩

@[simp] theorem empty_items : (empty : OrdMap κ ν).items = [] := rfl

@[simp] theorem insert_items (m : OrdMap κ ν) (k : κ) (v : ν) :
    (m.insert k v).items = OrdAssoc.insert k v m.items := rfl

theorem foldl_insert_items (l : List (κ × ν)) (m : OrdMap κ ν) :
    (l.foldl (fun m p => m.insert p.1 p.2) m).items =
      l.foldl (fun m p => OrdAssoc.insert p.1 p.2 m) m.items := by
  induction l generalizing m with
  | nil => rfl
  | cons p l ih => rw [List.foldl_cons, ih, List.foldl_cons, insert_items]

/-- A map is rebuilt by inserting its own pairs into the empty map. -/
theorem foldl_insert_self (m : OrdMap κ ν) :
    m.items.foldl (fun n p => n.insert p.1 p.2) empty = m :=
  ext (by rw [foldl_insert_items, empty_items, OrdAssoc.foldl_insert m.sorted])

end OrdMap
