import Kunstkammer.Cache

/-!
# The size of the cache

What happens at the limit of a cache is a clean-up, and a clean-up removes expired entries only.

* `Cache.size`, `Cache.alive`: the entries, and those a clean-up leaves;
* `Cache.HasRoom`: the unexpired entries do not exceed the limit, a new one among them;
* `within_limit_iff`: the limit is kept along a run exactly when every call finds room.
-/

namespace Kaiten

section Bound

variable {κ ν : Type*}

namespace Cache

/-- The number of entries. -/
def size (c : Cache κ ν) : ℕ := c.cache.entries.length

/-- The number of entries that have not expired when a clean-up looks at them. -/
def alive (sweep : κ → ℤ) (c : Cache κ ν) : ℕ :=
  c.cache.entries.countP fun p => !p.2.isExpired (sweep p.1)

/-- No more entries than the limit. -/
def Within (c : Cache κ ν) : Prop := c.size ≤ c.maxSize

instance instDecidableWithin (c : Cache κ ν) : Decidable c.Within :=
  inferInstanceAs (Decidable (_ ≤ _))

theorem size_cleanupExpired (sweep : κ → ℤ) (c : Cache κ ν) :
    (c.cleanupExpired sweep).size = c.alive sweep := by
  rw [alive, List.countP_eq_length_filter]
  rfl

theorem alive_le_size (sweep : κ → ℤ) (c : Cache κ ν) : c.alive sweep ≤ c.size :=
  List.countP_le_length

/-- A clean-up keeps the limit exactly when there are not too many entries alive. -/
theorem within_trim_iff (sweep : κ → ℤ) (c : Cache κ ν) :
    (c.trim sweep).Within ↔ c.alive sweep ≤ c.maxSize := by
  by_cases hfull : c.size > c.maxSize
  · have htrim : c.trim sweep = c.cleanupExpired sweep := if_pos hfull
    rw [htrim, Within, size_cleanupExpired]
    rfl
  · have htrim : c.trim sweep = c := if_neg hfull
    rw [htrim]
    exact iff_of_true (not_lt.1 hfull) ((c.alive_le_size sweep).trans (not_lt.1 hfull))

variable [DecidableEq κ]

/-- A new entry takes the place of the one under its key. -/
theorem alive_insert (sweep : κ → ℤ) (key : κ) (entry : CacheEntry ν) (c : Cache κ ν) :
    alive sweep { c with cache := c.cache.insert key entry } =
      (c.invalidate key).alive sweep + if entry.isExpired (sweep key) then 0 else 1 := by
  rw [alive, AList.entries_insert, List.countP_cons]
  cases entry.isExpired (sweep key) <;> rfl

theorem size_erase_le (key : κ) (c : Cache κ ν) : (c.invalidate key).size ≤ c.size :=
  (List.kerase_sublist key c.cache.entries).length_le

/-- A lookup keeps the limit. -/
theorem Within.get {c : Cache κ ν} (h : c.Within) (now : ℤ) (key : κ) :
    (c.get now key).2.Within := by
  have herase : (c.invalidate key).Within := (size_erase_le key c).trans h
  unfold Cache.get
  split_ifs
  · split
    · split_ifs
      · exact herase
      · exact h
    · exact h
  · exact h

end Cache

/-- The calls that look at the limit. -/
def CacheCall.Limits : CacheCall κ ν → Prop
  | .put _ _ _ | .setMaxSize _ => True
  | _ => False

variable [DecidableEq κ]

/-- There is room for what the call leaves in the cache.  A store counts the unexpired entries
under the other keys and its own, unless that one has expired already; a change of the limit counts
the unexpired entries. -/
def Cache.HasRoom (c : Cache κ ν) (e : CacheEvent κ ν) : Prop :=
  match e.call with
  | .put key value ttl =>
      let entry : CacheEntry ν :=
        { value := value, timestamp := e.moment.now, ttl := lifetime c.defaultTtl ttl }
      c.enabled = true →
        (c.invalidate key).alive e.moment.sweep +
          (if entry.isExpired (e.moment.sweep key) then 0 else 1) ≤ c.maxSize
  | .setMaxSize maxSize => c.alive e.moment.sweep ≤ maxSize
  | _ => True

/-- One call keeps the limit exactly when there is room. -/
theorem Cache.Within.perform_iff {c : Cache κ ν} (h : c.Within) (e : CacheEvent κ ν) :
    (e.call.Limits → (c.perform e).2.Within) ↔ c.HasRoom e := by
  obtain ⟨call, moment⟩ := e
  cases call with
  | put key value ttl =>
    have hcall : (CacheCall.put key value ttl).Limits := trivial
    rw [imp_iff_right hcall]
    show (c.put moment.now moment.sweep key value ttl).Within ↔ (c.enabled = true → _)
    by_cases hen : c.enabled = true
    · rw [imp_iff_right hen, Cache.put, if_pos hen, within_trim_iff, alive_insert]
    · rw [Cache.put, if_neg hen]
      exact iff_of_true h fun habs => absurd habs hen
  | setMaxSize maxSize =>
    have hcall : (CacheCall.setMaxSize maxSize : CacheCall κ ν).Limits := trivial
    rw [imp_iff_right hcall]
    exact within_trim_iff _ _
  | get key => exact iff_of_true (fun habs => habs.elim) trivial
  | invalidate key => exact iff_of_true (fun habs => habs.elim) trivial
  | clear => exact iff_of_true (fun habs => habs.elim) trivial
  | setEnabled enabled => exact iff_of_true (fun habs => habs.elim) trivial
  | setDefaultTtl ttl => exact iff_of_true (fun habs => habs.elim) trivial

/-- The other calls keep it always. -/
theorem Cache.Within.perform {c : Cache κ ν} (h : c.Within) {e : CacheEvent κ ν}
    (hlimits : e.call.Limits → (c.perform e).2.Within) : (c.perform e).2.Within := by
  obtain ⟨call, moment⟩ := e
  cases call with
  | put key value ttl => exact hlimits trivial
  | setMaxSize maxSize => exact hlimits trivial
  | get key => exact h.get moment.now key
  | invalidate key => exact (size_erase_le key c).trans h
  | clear => exact Nat.zero_le _
  | setEnabled enabled => exact h
  | setDefaultTtl ttl => exact h

theorem Cache.next_machine {s t : ℤ × Cache κ ν} {e : CacheEvent κ ν}
    (h : (Cache.machine κ ν).next s e = some t) : t.2 = (s.2.perform e).2 := by
  obtain ⟨o, hstep⟩ := Machine.next_eq_some.1 h
  rw [Cache.machine] at hstep
  dsimp only at hstep
  split_ifs at hstep
  cases hstep
  rfl

/-- **The limit of a cache.**  Along every run, of any calls at any readings of the clock, the cache
is within its limit after every store and every change of the limit exactly when each of these
calls finds room. -/
theorem within_limit_iff (start defaultTtl : ℤ) (es : List (CacheEvent κ ν)) :
    (Cache.machine κ ν).Along (fun _ e t => e.call.Limits → t.2.Within)
        (start, { defaultTtl := defaultTtl }) es ↔
      (Cache.machine κ ν).Along (fun s e _ => s.2.HasRoom e)
        (start, { defaultTtl := defaultTtl }) es := by
  refine Machine.along_congr (I := fun s => s.2.Within) (fun s e t hs ht hlimits => ?_)
    (fun s e t hs ht => ?_) (Nat.zero_le _) es
  · rw [Cache.next_machine ht] at hlimits ⊢
    exact hs.perform hlimits
  · rw [Cache.next_machine ht]
    exact hs.perform_iff e

/-- Two values under a limit of one, at once. -/
def overfull : List (CacheEvent ℕ ℕ) :=
  [⟨.setMaxSize 1, .at ℕ 0⟩, ⟨.put 1 7 (-1), .at ℕ 0⟩, ⟨.put 2 8 (-1), .at ℕ 0⟩]

/-- Both are there: neither has expired, so the clean-up removes nothing. -/
theorem overfull_exceeds : ¬ (Cache.machine ℕ ℕ).Along (fun _ e t => e.call.Limits → t.2.Within)
    (0, { defaultTtl := 120 }) overfull := by
  intro h
  obtain ⟨-, h⟩ := h _ rfl
  obtain ⟨-, h⟩ := h _ rfl
  obtain ⟨h, -⟩ := h _ rfl
  exact absurd (h trivial) (by decide)

end Bound

end Kaiten
