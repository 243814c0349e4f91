import Mathlib.Tactic

/-!
# Memoised queries

Queries are answered from a memory of earlier results where it has one under the key of the query,
and asked otherwise.  Nothing is forgotten and nothing changes in between.

* `known past k`: what the memory has under `k` after the queries `past`;
* `answers past qs`: how the queries `qs` are answered after `past`;
* `Agree p q`: `q` is answered by what `p` leaves behind;
* `answers_eq_map_iff`: the answers are those without a memory exactly when every two queries agree.
-/

namespace Memo

variable {Q K V A : Type*} [DecidableEq K] (key : Q → K) (fetch : Q → Option V) (hit : V → A)
  (ask : Q → A)

/-- The first value that was fetched for `k`. -/
def known (past : List Q) (k : K) : Option V :=
  past.findSome? fun q => if key q = k then fetch q else none

/-- The answer of one query. -/
def answer (past : List Q) (q : Q) : A := ((known key fetch past (key q)).map hit).getD (ask q)

/-- The answers of a history. -/
def answers (past : List Q) : List Q → List A
  | [] => []
  | q :: qs => answer key fetch hit ask past q :: answers (past ++ [q]) qs

/-- What is fetched for `p` answers `q`, if it has the same key. -/
def Agree (p q : Q) : Prop := key p = key q → ∀ v, fetch p = some v → ask q = hit v

variable {key fetch hit ask} {past : List Q}

@[simp] theorem known_nil (k : K) : known key fetch [] k = none := rfl

/-- A query leaves something behind where nothing was known before. -/
theorem known_concat (q : Q) (k : K) : known key fetch (past ++ [q]) k =
    (known key fetch past k).or (if key q = k then fetch q else none) := by
  simp only [known, List.findSome?_append, List.findSome?_cons, List.findSome?_nil]
  cases h : if key q = k then fetch q else none <;> rfl

theorem known_eq_some {k : K} {v : V} (h : known key fetch past k = some v) :
    ∃ q ∈ past, key q = k ∧ fetch q = some v := by
  obtain ⟨q, hq, hv⟩ := List.exists_of_findSome?_eq_some h
  by_cases hk : key q = k
  · rw [if_pos hk] at hv
    exact ⟨q, hq, hk, hv⟩
  · rw [if_neg hk] at hv
    cases hv

/-- What is known answers every query of the past that fetched something for the same key. -/
theorem ask_of_known (hfetch : ∀ q v, fetch q = some v → ask q = hit v)
    (hpast : past.Pairwise (Agree key fetch hit ask)) {k : K} {p : Q} {v w : V} (hp : p ∈ past)
    (hkey : key p = k) (hv : fetch p = some v) (hw : known key fetch past k = some w) :
    hit v = hit w := by
  induction past with
  | nil => cases hp
  | cons q past ih =>
    rw [List.pairwise_cons] at hpast
    rw [known, List.findSome?_cons] at hw
    by_cases hq : key q = k
    · rw [if_pos hq] at hw
      cases hf : fetch q with
      | none =>
        rw [hf] at hw
        rcases List.mem_cons.1 hp with rfl | hp
        · rw [hf] at hv
          cases hv
        · exact ih hpast.2 hp hw
      | some u =>
        -- `q` was the first, and what it fetched is known
        rw [hf] at hw
        cases hw
        rcases List.mem_cons.1 hp with rfl | hp
        · rw [hf] at hv
          cases hv
          rfl
        · rw [← hfetch p v hv]
          exact hpast.1 p hp (hq.trans hkey.symm) w hf
    · rw [if_neg hq] at hw
      rcases List.mem_cons.1 hp with rfl | hp
      · exact absurd hkey hq
      · exact ih hpast.2 hp hw

/-- One query is answered as it is asked when it agrees with the past. -/
theorem answer_eq_ask_iff (hfetch : ∀ q v, fetch q = some v → ask q = hit v)
    (hpast : past.Pairwise (Agree key fetch hit ask)) (q : Q) :
    answer key fetch hit ask past q = ask q ↔ ∀ p ∈ past, Agree key fetch hit ask p q := by
  unfold answer
  cases hknown : known key fetch past (key q) with
  | none =>
    refine iff_of_true rfl fun p hp hkey v hv => ?_
    have hnone := List.findSome?_eq_none_iff.1 hknown p hp
    rw [if_pos hkey, hv] at hnone
    cases hnone
  | some w =>
    show hit w = ask q ↔ _
    constructor
    · intro hask p hp hkey v hv
      rw [← hask, ask_of_known hfetch hpast hp hkey hv hknown]
    · intro hagree
      obtain ⟨p, hp, hkey, hw⟩ := known_eq_some hknown
      exact (hagree p hp hkey w hw).symm

theorem answers_eq_map_iff_of_past (hfetch : ∀ q v, fetch q = some v → ask q = hit v)
    (hpast : past.Pairwise (Agree key fetch hit ask)) (qs : List Q) :
    answers key fetch hit ask past qs = qs.map ask ↔
      (past ++ qs).Pairwise (Agree key fetch hit ask) := by
  induction qs generalizing past with
  | nil => simpa [answers] using hpast
  | cons q qs ih =>
    have hconcat : (past ++ [q]).Pairwise (Agree key fetch hit ask) ↔
        ∀ p ∈ past, Agree key fetch hit ask p q := by
      simp [List.pairwise_append, hpast]
    rw [answers, List.map_cons, List.cons.injEq, answer_eq_ask_iff hfetch hpast, ← hconcat]
    have hassoc : past ++ q :: qs = past ++ [q] ++ qs := by simp
    rw [hassoc]
    constructor
    · rintro ⟨hq, hqs⟩
      exact (ih hq).1 hqs
    · intro h
      have hq := (List.pairwise_append.1 h).1
      exact ⟨hq, (ih hq).2 h⟩

/-- **A memory makes no difference** exactly when every query agrees with those before it. -/
theorem answers_eq_map_iff (hfetch : ∀ q v, fetch q = some v → ask q = hit v) (qs : List Q) :
    answers key fetch hit ask [] qs = qs.map ask ↔ qs.Pairwise (Agree key fetch hit ask) :=
  answers_eq_map_iff_of_past hfetch List.Pairwise.nil qs

end Memo
