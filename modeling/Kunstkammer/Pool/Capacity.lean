import Kunstkammer.Pool.Invariant

/-!
# The capacity and the books of the pool

Two properties of the pool that a run keeps only as long as it avoids one kind of step.

* `always_within_capacity_iff`: the number of entries stays within `_max_connections` as long as
  no caller comes out of the wait to a full pool whose idle entries are all for other endpoints;
* `always_books_iff`: the entries that are not in use are those of the idle queue as long as no
  search discards an entry.
-/

namespace Kaiten.ConnectionPool

variable {c : Config} {s : State}

theorem Sound.cleaned_all_sublist (hs : Sound s) (c : Config) :
    (cleaned c s).all.Sublist s.pool.all := by
  rw [cleanup_all hs.idle_unused]; exact List.filter_sublist

@[simp] theorem notifyOne_pool (pick : ℕ) (s : State) : (notifyOne pick s).pool = s.pool := by
  unfold notifyOne; split <;> rfl

/-! ### Capacity -/

/-- A caller out of the wait creates a connection for a full pool: its idle entries ended the
wait, but none of them is for the caller. -/
def Overfills (c : Config) (s : State) : Event → Prop
  | .resume i connects => connects = true ∧ ∃ w, s.woken[i]? = some w ∧
      (cleaned c s).idle ≠ [] ∧ NoMatch (cleaned c s) w ∧
      c.maxConnections ≤ (cleaned c s).all.length
  | _ => False

/-- Serving a caller keeps within the capacity unless it creates a connection for a full pool. -/
theorem Served.within_iff (hs : Sound s) (hcap : s.pool.all.length ≤ c.maxConnections)
    {resumed : Bool} {endpoint : Endpoint} {connects : Bool} {r : State × Answer}
    (h : Served c resumed s endpoint connects r) :
    r.1.pool.all.length ≤ c.maxConnections ↔
      ¬ (connects = true ∧ resumed = true ∧ (cleaned c s).idle ≠ [] ∧
        NoMatch (cleaned c s) endpoint ∧ c.maxConnections ≤ (cleaned c s).all.length) := by
  have hle : (cleaned c s).all.length ≤ c.maxConnections :=
    (hs.cleaned_all_sublist c).length_le.trans hcap
  cases h with
  | lends pre p idle hidle hpre hp =>
    refine iff_of_true hle fun hover => hover.2.2.2.1 p ?_ hp
    rw [hidle]; exact List.mem_append_cons_self
  | creates hnone hroom =>
    cases connects with
    | false => exact iff_of_true hle fun hover => Bool.false_ne_true hover.1
    | true =>
      have hlen : (createNewConnection (searched c s []) endpoint true).1.pool.all.length =
          (cleaned c s).all.length + 1 := by
        rw [createNewConnection_true]; exact List.length_append
      rw [hlen]
      constructor
      · rintro hlt ⟨-, -, -, -, hfull⟩
        omega
      · intro hnot
        by_contra hover
        have hfull : c.maxConnections ≤ (cleaned c s).all.length := by omega
        obtain ⟨hres, hne⟩ := hroom.resolve_left hfull.not_gt
        exact hnot ⟨rfl, hres, hne, hnone, hfull⟩
  | waits hnone hfull hempty => exact iff_of_true hle fun hover => hover.2.2.1 (hempty hover.2.1)

theorem within_next_iff (hs : Sound s) (hcap : s.pool.all.length ≤ c.maxConnections) {e : Event}
    {t : State} (h : (machine c).next s e = some t) :
    t.pool.all.length ≤ c.maxConnections ↔ ¬ Overfills c s e := by
  obtain ⟨r, hr, rfl⟩ := hs.moves_next h
  cases hr with
  | call hserved =>
    rw [hserved.within_iff hs hcap]
    exact iff_of_true (fun hover => Bool.false_ne_true hover.2.1) id
  | wake => exact iff_of_true hcap id
  | resume hw hserved =>
    rw [hserved.within_iff (hs.unwait _) hcap]
    apply not_congr
    constructor
    · rintro ⟨hc, -, hover⟩
      exact ⟨hc, _, hw, hover⟩
    · rintro ⟨hc, w, hw', hover⟩
      cases hw.symm.trans hw'
      exact ⟨hc, rfl, hover⟩
  | destroy => rw [notifyOne_pool]; exact iff_of_true hcap id
  | destroyClosed => exact iff_of_true hcap id
  | close => exact iff_of_true (Nat.zero_le _) id
  | tick => exact iff_of_true hcap id

/-- **When the pool keeps within its capacity.** -/
theorem always_within_capacity_iff (c : Config) (es : List Event) :
    (machine c).Always (fun s => s.pool.all.length ≤ c.maxConnections) initial es ↔
      (machine c).Along (fun s e _ => ¬ Overfills c s e) initial es :=
  Machine.always_iff_along (I := Sound) (fun _ _ _ hs => hs.next)
    (fun _ _ _ hs hcap h => within_next_iff hs hcap h) sound_initial (Nat.zero_le _) es

/-- Two endpoints that differ. -/
def sampleEndpoints : Endpoint × Endpoint := (⟨[97], [49]⟩, ⟨[98], [49]⟩)

/-- A pool for one connection: a caller for the second endpoint waits until the connection to the
first one is returned, and then creates a second connection. -/
theorem capacity_exceeded :
    ((machine ⟨1, 300⟩).run initial [.getConnection sampleEndpoints.1 true,
      .getConnection sampleEndpoints.2 true, .destroy 0 0, .resume 0 true]).map
        (fun s => s.pool.all.length) = some 2 := by
  decide

/-! ### Books -/

/-- The entries that are not in use are in the idle queue once, the idle queue has only such
entries, and the statistics add up. -/
structure Books (s : State) : Prop where
  queued : ∀ p ∈ s.pool.all, (s.pool.info p).inUse = false → s.pool.idle.count p = 1
  unused : ∀ p ∈ s.pool.idle, p ∈ s.pool.all ∧ (s.pool.info p).inUse = false
  stats : (getStats s.pool).activeConnections + (getStats s.pool).idleConnections =
    (getStats s.pool).totalConnections

/-- The entries that are not in use are in the idle queue. -/
def Queued (pool : Pool) : Prop := ∀ p ∈ pool.all, (pool.info p).inUse = false → p ∈ pool.idle

/-- In a sound state, the books are right as soon as no unused entry is missing in the queue. -/
theorem Sound.books_iff (hs : Sound s) : Books s ↔ Queued s.pool := by
  constructor
  · intro hb p hp hfree
    exact List.count_pos_iff.1 (by rw [hb.queued p hp hfree]; exact one_pos)
  · intro hq
    -- the idle queue is a permutation of the entries that are not in use
    have hperm : s.pool.idle.Perm (s.pool.all.filter fun p => !(s.pool.info p).inUse) := by
      apply (List.perm_ext_iff_of_nodup hs.idle_nodup (hs.all_nodup.filter _)).2
      intro p
      rw [List.mem_filter, Bool.not_eq_true']
      constructor
      · intro hp
        exact ⟨hs.idle_mem p hp, hs.idle_unused p hp⟩
      · rintro ⟨hp, hfree⟩
        exact hq p hp hfree
    refine ⟨?_, ?_, ?_⟩
    · intro p hp hfree
      exact List.count_eq_one_of_mem hs.idle_nodup (hq p hp hfree)
    · intro p hp
      exact ⟨hs.idle_mem p hp, hs.idle_unused p hp⟩
    · show s.pool.all.countP _ + s.pool.idle.length = s.pool.all.length
      rw [hperm.length_eq, ← List.countP_eq_length_filter]
      have hsplit := List.length_eq_countP_add_countP (fun p => (s.pool.info p).inUse)
        (l := s.pool.all)
      simpa using hsplit.symm

/-- The first idle entry after the clean-up is for another endpoint, and the search pops it. -/
def FrontMismatch (c : Config) (s : State) (endpoint : Endpoint) : Prop :=
  ∃ p, (cleaned c s).idle.head? = some p ∧ (s.pool.info p).endpoint ≠ endpoint

/-- The step discards an idle entry. -/
def Discards (c : Config) (s : State) : Event → Prop
  | .getConnection endpoint _ => FrontMismatch c s endpoint
  | .resume i _ => ∃ w, s.woken[i]? = some w ∧ FrontMismatch c s w
  | _ => False

/-- The clean-up keeps the books. -/
theorem Sound.queued_cleaned (hs : Sound s) (hq : Queued s.pool) : Queued (cleaned c s) := by
  intro p hp hfree
  rw [cleanup_all hs.idle_unused] at hp
  rw [cleanup_idle hs.idle_unused]
  obtain ⟨hp, hkeep⟩ := List.mem_filter.1 hp
  rw [show (s.pool.info p).inUse = false from hfree, Bool.false_or] at hkeep
  exact List.mem_filter.2 ⟨hq p hp hfree, hkeep⟩

theorem NoMatch.frontMismatch_iff {endpoint : Endpoint} (h : NoMatch (cleaned c s) endpoint) :
    FrontMismatch c s endpoint ↔ (cleaned c s).idle ≠ [] := by
  constructor
  · rintro ⟨p, hp, -⟩ hnil
    rw [hnil] at hp
    cases hp
  · intro hne
    refine ⟨(cleaned c s).idle.head hne, List.head?_eq_some_head hne, h _ (List.head_mem hne)⟩

/-- A search that empties the idle queue keeps the books only if it finds the queue empty. -/
theorem Sound.queued_emptied (hs : Sound s) (hq : Queued s.pool) {pool : Pool}
    (hidle : pool.idle = [])
    (hfree : ∀ p, p ∈ pool.all ∧ (pool.info p).inUse = false ↔
      p ∈ (cleaned c s).all ∧ (s.pool.info p).inUse = false) :
    Queued pool ↔ (cleaned c s).idle = [] := by
  constructor
  · intro hqueued
    refine List.eq_nil_iff_forall_not_mem.2 fun p hp => ?_
    have hunused := (hs.searched c (List.Sublist.refl _)).idle_unused p hp
    obtain ⟨hmem, hp⟩ := (hfree p).2 ⟨hs.cleaned_idle_mem c hp, hunused⟩
    exact List.not_mem_nil (hidle ▸ hqueued p hmem hp)
  · intro hnil p hp hunused
    have hmem := hs.queued_cleaned hq p ((hfree p).1 ⟨hp, hunused⟩).1 ((hfree p).1 ⟨hp, hunused⟩).2
    rw [hnil] at hmem
    cases hmem

/-- Creating a connection adds no unused entry. -/
theorem Sound.free_create (hs : Sound s) (endpoint : Endpoint) (connects : Bool) (p : ℕ) :
    p ∈ (createNewConnection s endpoint connects).1.pool.all ∧
        ((createNewConnection s endpoint connects).1.pool.info p).inUse = false ↔
      p ∈ s.pool.all ∧ (s.pool.info p).inUse = false := by
  cases connects with
  | false => exact Iff.rfl
  | true =>
    rw [createNewConnection_true]
    rcases eq_or_ne p s.pool.next with rfl | hne
    · rw [lend_info_self]
      exact iff_of_false (fun h => Bool.false_ne_true h.2.symm) fun h => hs.next_not_mem.1 h.1
    · rw [lend_info_of_ne _ _ hne, addEntry_info_of_ne _ _ hne]
      refine and_congr_left' ?_
      show p ∈ s.pool.all ++ [s.pool.next] ↔ _
      rw [List.mem_append, List.mem_singleton, or_iff_left hne]

/-- Serving a caller keeps the books unless the first idle entry is discarded. -/
theorem Served.queued_iff (hs : Sound s) (hq : Queued s.pool) {resumed : Bool}
    {endpoint : Endpoint} {connects : Bool} {r : State × Answer}
    (h : Served c resumed s endpoint connects r) :
    Queued r.1.pool ↔ ¬ FrontMismatch c s endpoint := by
  have hclean := hs.queued_cleaned (c := c) hq
  have hsound := hs.searched c (List.Sublist.refl (cleaned c s).idle)
  cases h with
  | lends pre p idle hidle hpre hp =>
    have hnodup : (pre ++ p :: idle).Nodup := hidle ▸ hsound.idle_nodup
    cases pre with
    | nil =>
      -- the first idle entry is the match
      refine iff_of_true (fun q hq hfree => ?_) ?_
      · have hne : q ≠ p := by
          rintro rfl
          rw [lend_info_self] at hfree
          cases hfree
        rw [lend_info_of_ne _ _ hne] at hfree
        have hmem := hclean q hq hfree
        rw [hidle] at hmem
        exact (List.mem_cons.1 hmem).resolve_left hne
      · rintro ⟨q, hhead, hne⟩
        rw [hidle] at hhead
        cases hhead
        exact hne hp
    | cons q pre =>
      -- the first idle entry `q` is popped on the way to the match, and is unused
      have hqp : q ≠ p := fun heq => hpre q List.mem_cons_self (heq ▸ hp)
      have hq_mem : q ∈ (cleaned c s).idle := by rw [hidle]; exact List.mem_cons_self
      refine iff_of_false (fun hqueued => ?_) fun hnot => hnot ⟨q, by rw [hidle]; rfl,
        hpre q List.mem_cons_self⟩
      have hmem := hqueued q (hs.cleaned_idle_mem c hq_mem)
        (by rw [lend_info_of_ne _ _ hqp]; exact hsound.idle_unused q hq_mem)
      exact (List.nodup_cons.1 hnodup).1 (List.mem_append_right _ (List.mem_cons_of_mem _ hmem))
  | creates hnone =>
    have hidle : (createNewConnection (searched c s []) endpoint connects).1.pool.idle = [] := by
      cases connects <;> rfl
    rw [hnone.frontMismatch_iff, not_not]
    exact hs.queued_emptied hq hidle
      ((hs.searched c (List.nil_sublist _)).free_create endpoint connects)
  | waits hnone =>
    rw [hnone.frontMismatch_iff, not_not]
    exact hs.queued_emptied hq rfl fun _ => Iff.rfl

theorem queued_next_iff (hs : Sound s) (hq : Queued s.pool) {e : Event} {t : State}
    (h : (machine c).next s e = some t) : Queued t.pool ↔ ¬ Discards c s e := by
  obtain ⟨r, hr, rfl⟩ := hs.moves_next h
  cases hr with
  | call hserved => exact hserved.queued_iff hs hq
  | wake => exact iff_of_true hq id
  | resume hw hserved =>
    rw [hserved.queued_iff (hs.unwait _) hq]
    apply not_congr
    constructor
    · intro hfront
      exact ⟨_, hw, hfront⟩
    · rintro ⟨w, hw', hfront⟩
      cases hw.symm.trans hw'
      exact hfront
  | @destroy i pick g hi hp =>
    rw [notifyOne_pool]
    refine iff_of_true (fun q hq' hfree => ?_) id
    rcases eq_or_ne q g.stream.id with rfl | hne
    · exact List.mem_append_right _ (List.mem_singleton_self _)
    · rw [giveBack_info_of_ne _ _ hne] at hfree
      exact List.mem_append_left _ (hq q hq' hfree)
  | destroyClosed => exact iff_of_true hq id
  | close => exact iff_of_true (fun q hq' => absurd hq' List.not_mem_nil) id
  | tick => exact iff_of_true hq id

/-- **When the pool keeps its books.** -/
theorem always_books_iff (c : Config) (es : List Event) :
    (machine c).Always Books initial es ↔
      (machine c).Along (fun s e _ => ¬ Discards c s e) initial es :=
  Machine.always_iff_along (I := Sound) (fun _ _ _ hs => hs.next)
    (fun _ _ _ hs hb h => (hs.next h).books_iff.trans (queued_next_iff hs (hs.books_iff.1 hb) h))
    sound_initial (sound_initial.books_iff.2 fun _ hp => absurd hp List.not_mem_nil) es

/-- A search for the second endpoint pops the idle connection to the first one, which stays in
the pool without being counted as active or idle. -/
theorem books_broken :
    ∃ s, (machine {}).run initial [.getConnection sampleEndpoints.1 true, .destroy 0 0,
        .getConnection sampleEndpoints.2 true] = some s ∧
      (getStats s.pool).activeConnections = 1 ∧ (getStats s.pool).idleConnections = 0 ∧
      (getStats s.pool).totalConnections = 2 ∧ ¬ Books s :=
  ⟨_, rfl, rfl, rfl, rfl, fun hb => absurd hb.stats (by decide)⟩

end Kaiten.ConnectionPool
