import Mathlib.Data.List.Basic
import Mathlib.Tactic

/-!
# Texts with marks

Segments of a text, each behind the same mark.

* `marks a segs`: the text, and `splitOn_append_marks`: how it is split again;
* `marks_splitOn`: every text behind a mark is a row of marked segments;
* `aligned_or_apart`: two readings of a text that each contain a block with one head either agree
  or have their blocks apart;
* `toList_append_inj`: segments that may be missing, told apart by their kind.
-/

namespace Marks

/-- Each segment behind a mark. -/
def marks {α : Type*} (a : α) (segs : List (List α)) : List α := segs.flatMap (a :: ·)

theorem marks_append {α : Type*} {a : α} (segs segs' : List (List α)) :
    marks a (segs ++ segs') = marks a segs ++ marks a segs' :=
  List.flatMap_append

theorem marks_eq_intercalate {α : Type*} {a : α} {segs : List (List α)} (h : segs ≠ []) :
    marks a segs = a :: [a].intercalate segs := by
  induction segs with
  | nil => exact absurd rfl h
  | cons s segs ih =>
    cases segs with
    | nil => simp [marks]
    | cons t segs =>
      have hcons : marks a (s :: t :: segs) = a :: (s ++ marks a (t :: segs)) := rfl
      rw [hcons, ih (List.cons_ne_nil _ _), List.intercalate_cons_cons]
      simp

section Splitting

variable {α : Type*} [BEq α] [LawfulBEq α] {a : α}

/-- Segments without the mark are found again. -/
theorem splitOn_append_marks (l : List α) {segs : List (List α)} (h : ∀ s ∈ segs, a ∉ s) :
    (l ++ marks a segs).splitOn a = l.splitOn a ++ segs := by
  induction segs generalizing l with
  | nil => simp [marks]
  | cons s segs ih =>
    have hcons : marks a (s :: segs) = a :: (s ++ marks a segs) := rfl
    rw [hcons, List.splitOn_append_cons_self, ih _ fun t ht => h t (List.mem_cons_of_mem _ ht),
      List.splitOn_eq_singleton (h s List.mem_cons_self), List.singleton_append]

theorem splitOn_injective : Function.Injective (List.splitOn a) := fun l l' h => by
  have hjoin : [a].intercalate (l.splitOn a) = [a].intercalate (l'.splitOn a) := by rw [h]
  rwa [List.intercalate_splitOn, List.intercalate_splitOn] at hjoin

/-- A text behind a mark is a row of marked segments. -/
theorem marks_splitOn (l : List α) : marks a (l.splitOn a) = a :: l := by
  rw [marks_eq_intercalate (List.splitOn_ne_nil a l), List.intercalate_splitOn]

/-- Marks inside the segments are as good as marks before them. -/
theorem marks_flatMap_splitOn (segs : List (List α)) :
    marks a (segs.flatMap (·.splitOn a)) = marks a segs := by
  induction segs with
  | nil => rfl
  | cons s segs ih =>
    rw [List.flatMap_cons, marks_append, marks_splitOn, ih]
    rfl

/-- Segments without the mark are determined by the text. -/
theorem marks_inj {segs segs' : List (List α)} (h : ∀ s ∈ segs, a ∉ s) (h' : ∀ s ∈ segs', a ∉ s) :
    marks a segs = marks a segs' ↔ segs = segs' := by
  constructor
  · intro heq
    have hsplit := splitOn_append_marks [] h
    rw [heq, splitOn_append_marks [] h'] at hsplit
    exact (List.append_cancel_left hsplit).symm
  · rintro rfl
    rfl

theorem notMem_of_mem_splitOn {l s : List α} (h : s ∈ l.splitOn a) : a ∉ s := by
  induction l generalizing s with
  | nil =>
    rw [List.splitOn_nil, List.mem_singleton] at h
    rw [h]
    exact List.not_mem_nil
  | cons b l ih =>
    rw [List.splitOn_cons_eq_if_modifyHead] at h
    split_ifs at h with hb
    · rcases List.mem_cons.1 h with rfl | h
      · exact List.not_mem_nil
      · exact ih h
    · obtain ⟨t, segs, hsplit⟩ := List.exists_cons_of_ne_nil (List.splitOn_ne_nil a l)
      rw [hsplit, List.modifyHead_cons] at h
      rcases List.mem_cons.1 h with rfl | h
      · rw [List.mem_cons, not_or]
        exact ⟨fun hab => hb (beq_iff_eq.2 hab.symm), ih (hsplit ▸ List.mem_cons_self)⟩
      · exact ih (hsplit ▸ List.mem_cons_of_mem _ h)

/-- The first segment begins as the text does. -/
theorem splitOn_cons_of_ne {b : α} (h : b ≠ a) (l : List α) :
    ∃ t segs, (b :: l).splitOn a = (b :: t) :: segs := by
  obtain ⟨t, segs, hsplit⟩ := List.exists_cons_of_ne_nil (List.splitOn_ne_nil a l)
  refine ⟨t, segs, ?_⟩
  rw [List.splitOn_cons_eq_if_modifyHead, if_neg (by simpa using h), hsplit, List.modifyHead_cons]

end Splitting

section Blocks

variable {α : Type*}

/-- A block with a head that does not occur in the rest of another is in front of it or behind. -/
theorem behind {c y y' t t' : List α} {a : α} (ht : a ∉ t)
    (h : a :: t ++ y = c ++ (a :: t' ++ y')) :
    c = [] ∨ ∃ d, c = a :: t ++ d ∧ y = d ++ (a :: t' ++ y') := by
  rcases List.append_eq_append_iff.1 h with ⟨d, hd, hy⟩ | ⟨d, hd, hy⟩
  · exact Or.inr ⟨d, hd, hy⟩
  · cases c with
    | nil => exact Or.inl rfl
    | cons b c =>
      obtain ⟨rfl, rfl⟩ := List.cons.inj hd
      cases d with
      | nil => exact Or.inr ⟨[], by simp, hy.symm⟩
      | cons e d =>
        -- the second block would begin inside the first one
        obtain ⟨rfl, -⟩ := List.cons.inj hy
        exact absurd (List.mem_append_right c List.mem_cons_self) ht

/-- **Two blocks with one head, each followed by anything, stand at the same place or apart.** -/
theorem aligned_or_apart {x y x' y' t t' : List α} {a : α} (ht : a ∉ t) (ht' : a ∉ t')
    (h : x ++ (a :: t ++ y) = x' ++ (a :: t' ++ y')) :
    (x = x' ∧ t ++ y = t' ++ y') ∨ (∃ d, x' = x ++ (a :: t ++ d) ∧ y = d ++ (a :: t' ++ y')) ∨
      ∃ d, x = x' ++ (a :: t' ++ d) ∧ y' = d ++ (a :: t ++ y) := by
  rcases List.append_eq_append_iff.1 h with ⟨c, rfl, hrest⟩ | ⟨c, rfl, hrest⟩
  · rcases behind ht hrest with rfl | ⟨d, rfl, hy⟩
    · exact Or.inl ⟨(List.append_nil x).symm, (List.cons.inj hrest).2⟩
    · exact Or.inr (Or.inl ⟨d, rfl, hy⟩)
  · rcases behind ht' hrest with rfl | ⟨d, rfl, hy⟩
    · exact Or.inl ⟨List.append_nil x', (List.cons.inj hrest).2.symm⟩
    · exact Or.inr (Or.inr ⟨d, rfl, hy⟩)

/-- A segment of the kind `p` that may be missing, in front of one that is not of this kind. -/
theorem toList_append_inj {p : α → Prop} {o o' : Option α} {l l' : List α}
    (ho : ∀ s ∈ o, p s) (ho' : ∀ s ∈ o', p s) (hl : ∀ s ∈ l.head?, ¬ p s)
    (hl' : ∀ s ∈ l'.head?, ¬ p s) (h : o.toList ++ l = o'.toList ++ l') : o = o' ∧ l = l' := by
  cases o with
  | none =>
    cases o' with
    | none => exact ⟨rfl, h⟩
    | some s' =>
      have hhead : s' ∈ l.head? := by
        rw [show l = s' :: l' from h]
        rfl
      exact absurd (ho' s' rfl) (hl s' hhead)
  | some s =>
    cases o' with
    | none =>
      have hhead : s ∈ l'.head? := by
        rw [show l' = s :: l from h.symm]
        rfl
      exact absurd (ho s rfl) (hl' s hhead)
    | some s' =>
      obtain ⟨rfl, rfl⟩ := List.cons.inj h
      exact ⟨rfl, rfl⟩

end Blocks

end Marks
