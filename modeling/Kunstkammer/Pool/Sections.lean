import Kunstkammer.Pool.Model

/-!
# What one critical section of the pool does

The clean-up is a filter on the idle queue and on `_all_connections`, the search splits the idle
queue at its first match, and a call of `get_connection` or a caller coming out of the wait
lends an idle entry, creates a connection or waits.

* `cleanup_eq`, `cleanup_cleanup`;
* `popMatching_some`, `popMatching_none`;
* `Served`, `served_getConnection`, `served_awaitConnection`: the three ways, with their guards;
-/

namespace Kaiten.ConnectionPool

/-! ### Clean-up -/

/-- The entries of the idle queue are not in use. -/
def IdleUnused (pool : Pool) : Prop := ∀ p ∈ pool.idle, (pool.info p).inUse = false

theorem filter_erase_of_neg {α : Type*} [DecidableEq α] {keep : α → Bool} {a : α}
    (h : keep a = false) (l : List α) : (l.erase a).filter keep = l.filter keep := by
  induction l with
  | nil => rfl
  | cons b l ih =>
    by_cases hb : b = a
    · rw [hb, List.erase_cons_head, List.filter_cons_of_neg (by rw [h]; exact Bool.false_ne_true)]
    · rw [List.erase_cons_tail (by simpa using hb), List.filter_cons, List.filter_cons, ih]

theorem sweepIdle_fst (isFresh : ℕ → Bool) (idle valididle all : List ℕ) :
    (sweepIdle isFresh idle valididle all).1 = valididle ++ idle.filter isFresh := by
  induction idle generalizing valididle all with
  | nil => rw [sweepIdle, List.filter_nil, List.append_nil]
  | cons p idle ih =>
    unfold sweepIdle
    split_ifs with h
    · rw [ih, List.filter_cons_of_pos h, List.append_assoc, List.singleton_append]
    · rw [ih, List.filter_cons_of_neg h]

/-- Erasing the expired entries early does not change what the second loop keeps. -/
theorem filter_sweepIdle_snd {isFresh keep : ℕ → Bool} (idle valididle all : List ℕ)
    (h : ∀ p ∈ idle, isFresh p = false → keep p = false) :
    (sweepIdle isFresh idle valididle all).2.filter keep = all.filter keep := by
  induction idle generalizing valididle all with
  | nil => rfl
  | cons p idle ih =>
    have htail : ∀ q ∈ idle, isFresh q = false → keep q = false :=
      fun q hq => h q (List.mem_cons_of_mem _ hq)
    unfold sweepIdle
    split_ifs with hp
    · exact ih _ _ htail
    · rw [ih _ _ htail, filter_erase_of_neg (h p List.mem_cons_self (by simpa using hp))]

/-- The clean-up keeps the fresh entries of the idle queue, and of all entries those that are
fresh or in use. -/
theorem cleanup_eq {c : Config} {now : ℤ} {pool : Pool} (h : IdleUnused pool) :
    cleanupExpiredConnections c now pool =
      { pool with
        idle := pool.idle.filter (fresh c now pool)
        all := pool.all.filter fun p => (pool.info p).inUse || fresh c now pool p } := by
  unfold cleanupExpiredConnections
  dsimp only
  rw [sweepIdle_fst, List.nil_append, filter_sweepIdle_snd]
  intro p hp hstale
  rw [h p hp, hstale, Bool.or_false]

section Cleanup

variable {c : Config} {now : ℤ} {pool : Pool}

theorem cleanup_idle (h : IdleUnused pool) :
    (cleanupExpiredConnections c now pool).idle = pool.idle.filter (fresh c now pool) := by
  rw [cleanup_eq h]

theorem cleanup_all (h : IdleUnused pool) :
    (cleanupExpiredConnections c now pool).all =
      pool.all.filter fun p => (pool.info p).inUse || fresh c now pool p := by
  rw [cleanup_eq h]

/-- A second clean-up at the same time finds nothing to remove, also after entries have been
popped from the idle queue. -/
theorem cleanup_cleanup (h : IdleUnused pool) {idle : List ℕ}
    (hidle : idle.Sublist (cleanupExpiredConnections c now pool).idle) :
    cleanupExpiredConnections c now { cleanupExpiredConnections c now pool with idle } =
      { cleanupExpiredConnections c now pool with idle } := by
  rw [cleanup_idle h] at hidle
  have hunused : IdleUnused { cleanupExpiredConnections c now pool with idle } :=
    fun p hp => h p (List.mem_filter.1 (hidle.subset hp)).1
  have hfresh : idle.filter (fresh c now pool) = idle :=
    List.filter_eq_self.2 fun p hp => (List.mem_filter.1 (hidle.subset hp)).2
  rw [cleanup_eq hunused, cleanup_eq h]
  show ({ pool with idle := idle.filter (fresh c now pool), all := _ } : Pool) = _
  rw [hfresh]
  congr 1
  exact List.filter_eq_self.2 fun p hp => (List.mem_filter.1 hp).2

end Cleanup

/-! ### Search -/

/-- No entry of the idle queue is for `endpoint`. -/
def NoMatch (pool : Pool) (endpoint : Endpoint) : Prop :=
  ∀ p ∈ pool.idle, (pool.info p).endpoint ≠ endpoint

theorem popMatching_none {info : ℕ → ConnectionInfo} {endpoint : Endpoint} {idle : List ℕ}
    (h : (popMatching info endpoint idle).1 = none) :
    (∀ p ∈ idle, (info p).endpoint ≠ endpoint) ∧ (popMatching info endpoint idle).2 = [] := by
  induction idle with
  | nil => exact ⟨fun _ hp => absurd hp List.not_mem_nil, rfl⟩
  | cons p idle ih =>
    unfold popMatching at h ⊢
    split_ifs at h ⊢ with hp
    exact ⟨List.forall_mem_cons.2 ⟨hp, (ih h).1⟩, (ih h).2⟩

theorem popMatching_some {info : ℕ → ConnectionInfo} {endpoint : Endpoint} {idle : List ℕ} {p : ℕ}
    (h : (popMatching info endpoint idle).1 = some p) :
    ∃ pre, idle = pre ++ p :: (popMatching info endpoint idle).2 ∧
      (∀ q ∈ pre, (info q).endpoint ≠ endpoint) ∧ (info p).endpoint = endpoint := by
  induction idle with
  | nil => cases h
  | cons q idle ih =>
    unfold popMatching at h ⊢
    split_ifs at h ⊢ with hq
    · cases h
      exact ⟨[], rfl, fun _ hr => absurd hr List.not_mem_nil, hq⟩
    · obtain ⟨pre, hidle, hpre, hp⟩ := ih h
      exact ⟨q :: pre, by rw [List.cons_append, ← hidle], List.forall_mem_cons.2 ⟨hq, hpre⟩, hp⟩

/-! ### Serving a caller -/

/-- The pool after the clean-up that starts every section. -/
abbrev cleaned (c : Config) (s : State) : Pool := cleanupExpiredConnections c s.clock s.pool

/-- The state in which the clean-up and the search have left the idle queue `idle`. -/
def searched (c : Config) (s : State) (idle : List ℕ) : State :=
  { s with pool := { cleaned c s with idle } }

/-- The ways a caller is served: `resumed` for one that comes out of the condition wait.  Only
such a caller can create a connection without a look at the capacity. -/
inductive Served (c : Config) (resumed : Bool) (s : State) (endpoint : Endpoint) (connects : Bool) :
    State × Answer → Prop
  | lends (pre : List ℕ) (p : ℕ) (idle : List ℕ) (hidle : (cleaned c s).idle = pre ++ p :: idle)
      (hpre : ∀ q ∈ pre, (s.pool.info q).endpoint ≠ endpoint)
      (hp : (s.pool.info p).endpoint = endpoint) :
      Served c resumed s endpoint connects (lend (searched c s idle) p)
  | creates (hnone : NoMatch (cleaned c s) endpoint)
      (hroom : (cleaned c s).all.length < c.maxConnections ∨
        resumed = true ∧ (cleaned c s).idle ≠ []) :
      Served c resumed s endpoint connects
        (createNewConnection (searched c s []) endpoint connects)
  | waits (hnone : NoMatch (cleaned c s) endpoint)
      (hfull : c.maxConnections ≤ (cleaned c s).all.length)
      (hempty : resumed = true → (cleaned c s).idle = []) :
      Served c resumed s endpoint connects
        ({ searched c s [] with blocked := s.blocked ++ [endpoint] }, .waits)

theorem findOrElse_cases (c : Config) (s : State) (endpoint : Endpoint)
    (other : State → State × Answer) :
    (∃ pre p idle, (cleaned c s).idle = pre ++ p :: idle ∧
      (∀ q ∈ pre, (s.pool.info q).endpoint ≠ endpoint) ∧ (s.pool.info p).endpoint = endpoint ∧
      findOrElse c s endpoint other = lend (searched c s idle) p) ∨
    (NoMatch (cleaned c s) endpoint ∧ findOrElse c s endpoint other = other (searched c s [])) := by
  unfold findOrElse findIdleConnection
  dsimp only
  cases h : (popMatching (cleaned c s).info endpoint (cleaned c s).idle).1 with
  | none =>
    obtain ⟨hnone, hnil⟩ := popMatching_none h
    exact Or.inr ⟨hnone, by rw [hnil]; rfl⟩
  | some p =>
    obtain ⟨pre, hidle, hpre, hp⟩ := popMatching_some h
    exact Or.inl ⟨pre, p, _, hidle, hpre, hp, rfl⟩

variable {c : Config} {s : State} {endpoint : Endpoint} {connects : Bool}

/-- The clean-up of the wait changes nothing when it comes right after another one. -/
theorem cleaned_searched (h : IdleUnused s.pool) {idle : List ℕ}
    (hidle : idle.Sublist (cleaned c s).idle) :
    cleaned c (searched c s idle) = (searched c s idle).pool :=
  cleanup_cleanup h hidle

theorem searched_searched (h : IdleUnused s.pool) {idle : List ℕ}
    (hidle : idle.Sublist (cleaned c s).idle) (idle' : List ℕ) :
    searched c (searched c s idle) idle' = searched c s idle' := by
  show { s with pool := { cleaned c (searched c s idle) with idle := idle' } } = _
  rw [cleaned_searched h hidle]
  rfl

theorem served_awaitConnection (h : IdleUnused s.pool) :
    Served c true s endpoint connects (awaitConnection c s endpoint connects) := by
  have hsub := List.Sublist.refl (cleaned c s).idle
  have heq : awaitConnection c s endpoint connects =
      if available c (cleaned c s) then
        findOrElse c (searched c s (cleaned c s).idle) endpoint fun s =>
          createNewConnection s endpoint connects
      else ({ searched c s (cleaned c s).idle with blocked := s.blocked ++ [endpoint] }, .waits) :=
    rfl
  rw [heq]
  split_ifs with hav
  · rcases findOrElse_cases c (searched c s (cleaned c s).idle) endpoint
      (fun s => createNewConnection s endpoint connects) with
      ⟨pre, p, idle, hidle, hpre, hp, hlend⟩ | ⟨hnone, hcreate⟩
    · rw [hlend, searched_searched h hsub]
      rw [cleaned_searched h hsub] at hidle
      exact .lends pre p idle hidle hpre hp
    · rw [hcreate, searched_searched h hsub]
      rw [cleaned_searched h hsub] at hnone
      refine .creates hnone ?_
      simp only [available, Bool.or_eq_true, decide_eq_true_eq] at hav
      rcases hav with hidle | hroom
      · exact Or.inr ⟨rfl, by simpa using hidle⟩
      · exact Or.inl hroom
  · simp only [available, Bool.or_eq_true, decide_eq_true_eq, not_or, not_lt] at hav
    have hempty : (cleaned c s).idle = [] := by simpa using hav.1
    rw [hempty]
    exact .waits (fun p hp => by rw [hempty] at hp; cases hp) hav.2 fun _ => hempty

theorem served_getConnection (h : IdleUnused s.pool) :
    Served c false s endpoint connects (getConnection c s endpoint connects) := by
  unfold getConnection
  rcases findOrElse_cases c s endpoint (fun s =>
      if c.maxConnections ≤ s.pool.all.length then awaitConnection c s endpoint connects
      else createNewConnection s endpoint connects) with
    ⟨pre, p, idle, hidle, hpre, hp, hlend⟩ | ⟨hnone, hother⟩
  · rw [hlend]
    exact .lends pre p idle hidle hpre hp
  rw [hother]
  have hagain := cleaned_searched (c := c) h (List.nil_sublist (cleaned c s).idle)
  split_ifs with hfull
  · -- the search has emptied the queue, so the wait is over only if there is room
    have hav : available c (cleaned c (searched c s [])) = false := by
      rw [hagain]
      exact Bool.or_eq_false_iff.2 ⟨rfl, decide_eq_false hfull.not_gt⟩
    have hwait : awaitConnection c (searched c s []) endpoint connects =
        ({ searched c s [] with blocked := s.blocked ++ [endpoint] }, .waits) := by
      unfold awaitConnection
      dsimp only
      rw [hav, if_neg Bool.false_ne_true]
      show ({ searched c s [] with
        pool := cleaned c (searched c s []), blocked := s.blocked ++ [endpoint] }, _) = _
      rw [hagain]
    rw [hwait]
    exact .waits hnone hfull fun hf => absurd hf Bool.false_ne_true
  · exact .creates hnone (Or.inl (not_le.1 hfull))

end Kaiten.ConnectionPool
