import Mathlib.Data.List.AList
import Mathlib.Tactic

/-!
# Maps that shed dead entries

The entries of a map die in the course of time and stay dead.  A table may drop a dead entry at
any moment without changing what is found alive in it.

* `Sheds dead t full kept`: `kept` is `full` less some entries that are dead at `t`;
* the operations of a map keep it: `Sheds.update`, `Sheds.drop`, `Sheds.filter`, `Sheds.mono`;
* `Sheds.alive`: both maps have the same live entries;
* `AList.sift`: an association list without the entries that fail a test.
-/

section Sheds

variable {κ ε τ : Type*} {dead : τ → ε → Prop} {t u : τ} {full kept : κ → Option ε}

/-- `kept` is `full` without some of the entries that are dead at `t`. -/
def Sheds (dead : τ → ε → Prop) (t : τ) (full kept : κ → Option ε) : Prop :=
  ∀ k, kept k = full k ∨ kept k = none ∧ ∃ e, full k = some e ∧ dead t e

namespace Sheds

theorem refl (dead : τ → ε → Prop) (t : τ) (full : κ → Option ε) : Sheds dead t full full :=
  fun _ => Or.inl rfl

/-- Both maps are changed at one key. -/
theorem update [DecidableEq κ] (h : Sheds dead t full kept) (k : κ) (v : Option ε) :
    Sheds dead t (Function.update full k v) (Function.update kept k v) := by
  intro i
  by_cases hik : i = k
  · subst hik
    simp
  · simpa [Function.update_of_ne hik] using h i

/-- A dead entry is dropped. -/
theorem drop [DecidableEq κ] (h : Sheds dead t full kept) {k : κ} {e : ε} (hk : kept k = some e)
    (hdead : dead t e) : Sheds dead t full (Function.update kept k none) := by
  intro i
  by_cases hik : i = k
  · subst hik
    rcases h i with heq | ⟨hnone, -⟩
    · exact Or.inr ⟨by simp, e, heq ▸ hk, hdead⟩
    · rw [hnone] at hk
      cases hk
  · simpa [Function.update_of_ne hik] using h i

/-- Every entry is looked at once, and only dead ones are dropped. -/
theorem filter (h : Sheds dead t full kept) {keep : κ → ε → Bool}
    (hkeep : ∀ k e, full k = some e → keep k e = false → dead t e) :
    Sheds dead t full fun k => (kept k).filter (keep k) := by
  intro k
  rcases h k with heq | ⟨hnone, he⟩
  · simp only [heq]
    cases hk : full k with
    | none => exact Or.inl rfl
    | some e =>
      by_cases hke : keep k e = true
      · exact Or.inl (by simp [hke])
      · rw [Bool.not_eq_true] at hke
        exact Or.inr ⟨by simp [hke], e, rfl, hkeep k e hk hke⟩
  · exact Or.inr ⟨by simp [hnone], he⟩

variable [Preorder τ]

theorem mono (hdead : ∀ {t u e}, t ≤ u → dead t e → dead u e) (h : Sheds dead t full kept)
    (htu : t ≤ u) : Sheds dead u full kept := fun k =>
  (h k).imp_right fun ⟨hnone, e, he, hd⟩ => ⟨hnone, e, he, hdead htu hd⟩

/-- What is found alive is the same in both maps. -/
theorem alive (hdead : ∀ {t u e}, t ≤ u → dead t e → dead u e) (h : Sheds dead t full kept)
    (htu : t ≤ u) (k : κ) {e : ε} (halive : ¬ dead u e) : kept k = some e ↔ full k = some e := by
  rcases h k with heq | ⟨hnone, f, hf, hd⟩
  · rw [heq]
  · rw [hnone, hf]
    constructor
    · intro habs
      cases habs
    · rintro ⟨⟩
      exact absurd (hdead htu hd) halive

end Sheds

end Sheds

namespace AList

variable {κ ε : Type*} [DecidableEq κ]

/-- The entries that pass a test. -/
def sift (keep : κ → ε → Bool) (s : AList fun _ : κ => ε) : AList fun _ : κ => ε where
  entries := s.entries.filter fun p => keep p.1 p.2
  nodupKeys := s.nodupKeys.sublist List.filter_sublist

theorem lookup_sift (keep : κ → ε → Bool) (s : AList fun _ : κ => ε) (k : κ) :
    (s.sift keep).lookup k = (s.lookup k).filter (keep k) := by
  ext e
  have hsift : (s.sift keep).lookup k = some e ↔ ⟨k, e⟩ ∈ (s.sift keep).entries :=
    List.mem_dlookup_iff (s.sift keep).nodupKeys
  have hall : s.lookup k = some e ↔ ⟨k, e⟩ ∈ s.entries := List.mem_dlookup_iff s.nodupKeys
  rw [Option.filter_eq_some_iff, hsift, hall]
  exact List.mem_filter

end AList
