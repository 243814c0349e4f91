import Kunstkammer.Pool.Waiters

/-!
# A pool for one endpoint

The program talks to one host and port.  Then no search discards an entry, every connection is in
use or idle, and the pool is as tight as it can be.

* `Event.For`, `OneEndpoint`: calls for one endpoint, and what holds between them;
* `OneEndpoint.served_cases`: the ways a caller is served;
* `connections_le_peak`: a connection is made only when all others are in use;
* `clients_never_wait`: as many clients as there may be connections never wait;
* `always_covered_iff`: when no wake-up is lost.
-/

namespace Kaiten.ConnectionPool

variable {c : Config} {s : State} {endpoint : Endpoint}

/-- A caller asks for this endpoint, if there is one. -/
def Event.For (endpoint : Endpoint) : Event → Prop
  | .getConnection requested _ => requested = endpoint
  | _ => True

/-- All entries and all callers are for `endpoint`, and an entry that is not in use is idle. -/
structure OneEndpoint (endpoint : Endpoint) (s : State) : Prop where
  sound : Sound s
  entries : ∀ p ∈ s.pool.all, (s.pool.info p).endpoint = endpoint
  queued : Queued s.pool
  blocked : ∀ w ∈ s.blocked, w = endpoint
  woken : ∀ w ∈ s.woken, w = endpoint

/-- The number of connections in use. -/
def active (pool : Pool) : ℕ := (getStats pool).activeConnections

theorem oneEndpoint_initial (endpoint : Endpoint) : OneEndpoint endpoint initial where
  sound := sound_initial
  entries _ hp := absurd hp List.not_mem_nil
  queued _ hp := absurd hp List.not_mem_nil
  blocked _ hw := absurd hw List.not_mem_nil
  woken _ hw := absurd hw List.not_mem_nil

/-- A notification moves a caller from the blocked to the woken ones. -/
theorem notifyOne_blocked_subset {pick : ℕ} {w : Endpoint} (h : w ∈ (notifyOne pick s).blocked) :
    w ∈ s.blocked := by
  unfold notifyOne at h
  split at h
  · exact List.mem_of_mem_eraseIdx h
  · exact h

theorem notifyOne_woken_subset {pick : ℕ} {w : Endpoint} (h : w ∈ (notifyOne pick s).woken) :
    w ∈ s.woken ∨ w ∈ s.blocked := by
  unfold notifyOne at h
  split at h
  · rename_i v hv
    rcases List.mem_append.1 h with h | h
    · exact Or.inl h
    · rw [List.mem_singleton.1 h]
      exact Or.inr (List.mem_of_getElem? hv)
  · exact Or.inl h

/-- A caller that is served by a connection more than before the search finds the queue empty. -/
theorem Served.idle_eq_nil_of_length {resumed connects : Bool} {r : State × Answer} {n : ℕ}
    (h : Served c resumed s endpoint connects r) (hclean : (cleaned c s).all.length ≤ n)
    (hmore : ¬ r.1.pool.all.length ≤ n) : r.1.pool.idle = [] := by
  cases h with
  | lends => exact absurd hclean hmore
  | creates => cases connects <;> rfl
  | waits => rfl

namespace OneEndpoint

/-! ### Counting -/

theorem books (hs : OneEndpoint endpoint s) : Books s := hs.sound.books_iff.2 hs.queued

/-- Every connection is in use or idle. -/
theorem total (hs : OneEndpoint endpoint s) :
    s.pool.all.length = active s.pool + s.pool.idle.length := hs.books.stats.symm

/-- The connections in use are held. -/
theorem active_le (hs : OneEndpoint endpoint s) : active s.pool ≤ s.handles.length := by
  have hsub : (s.pool.all.filter fun p => (s.pool.info p).inUse) ⊆ heldStreams s.handles := by
    intro p hp
    rw [List.mem_filter] at hp
    exact (hs.sound.held p hp.1).1 hp.2
  have hlen := ((hs.sound.all_nodup.filter _).subperm hsub).length_le
  rw [heldStreams, List.length_map, ← List.countP_eq_length_filter] at hlen
  exact hlen

/-- The clean-up drops no connection in use. -/
theorem active_cleaned (hs : OneEndpoint endpoint s) : active (cleaned c s) = active s.pool := by
  show (cleaned c s).all.countP _ = s.pool.all.countP _
  rw [cleanup_all hs.sound.idle_unused, List.countP_filter]
  apply List.countP_congr
  intro p _
  show ((s.pool.info p).inUse && ((s.pool.info p).inUse || fresh c s.clock s.pool p)) = true ↔ _
  rw [Bool.and_eq_true, Bool.or_eq_true]
  exact and_iff_left_of_imp Or.inl

/-! ### Serving a caller -/

theorem cleaned_entries (hs : OneEndpoint endpoint s) {p : ℕ} (hp : p ∈ (cleaned c s).all) :
    (s.pool.info p).endpoint = endpoint :=
  hs.entries p ((hs.sound.cleaned_all_sublist c).subset hp)

theorem idle_entries (hs : OneEndpoint endpoint s) {p : ℕ} (hp : p ∈ (cleaned c s).idle) :
    (s.pool.info p).endpoint = endpoint := hs.cleaned_entries (hs.sound.cleaned_idle_mem c hp)

/-- Only an empty idle queue has nothing for the caller. -/
theorem noMatch (hs : OneEndpoint endpoint s) (h : NoMatch (cleaned c s) endpoint) :
    (cleaned c s).idle = [] := by
  rw [List.eq_nil_iff_forall_not_mem]
  intro p hp
  exact h p hp (hs.idle_entries hp)

theorem not_frontMismatch (hs : OneEndpoint endpoint s) : ¬ FrontMismatch c s endpoint := by
  rintro ⟨p, hp, hne⟩
  exact hne (hs.idle_entries (List.mem_of_mem_head? hp))

/-- After the clean-up, all connections are in use or idle as before. -/
theorem searched (hs : OneEndpoint endpoint s) :
    OneEndpoint endpoint (searched c s (cleaned c s).idle) where
  sound := hs.sound.searched c (List.Sublist.refl _)
  entries _ hp := hs.cleaned_entries hp
  queued := hs.sound.queued_cleaned hs.queued
  blocked := hs.blocked
  woken := hs.woken

theorem total_cleaned (hs : OneEndpoint endpoint s) :
    (cleaned c s).all.length = active s.pool + (cleaned c s).idle.length := by
  rw [← hs.active_cleaned (c := c)]
  exact hs.searched.total

/-- A new connection is for the endpoint of the caller. -/
theorem entries_create {u : State} (h : ∀ p ∈ u.pool.all, (u.pool.info p).endpoint = endpoint) :
    ∀ p ∈ (createNewConnection u endpoint true).1.pool.all,
      ((createNewConnection u endpoint true).1.pool.info p).endpoint = endpoint := by
  rw [createNewConnection_true]
  intro p hp
  rcases eq_or_ne p u.pool.next with rfl | hne
  · rw [lend_info_self, addEntry_info_self]
  · rw [lend_info_of_ne _ _ hne, addEntry_info_of_ne _ _ hne]
    have hmem : p ∈ u.pool.all ++ [u.pool.next] := hp
    rw [List.mem_append, List.mem_singleton] at hmem
    exact h p (hmem.resolve_right hne)

theorem served (hs : OneEndpoint endpoint s) {resumed connects : Bool} {r : State × Answer}
    (h : Served c resumed s endpoint connects r) : OneEndpoint endpoint r.1 := by
  have hqueued := (h.queued_iff hs.sound hs.queued).2 hs.not_frontMismatch
  have hsound := hs.sound.served h
  cases h with
  | lends pre p idle hidle hpre hp =>
    refine ⟨hsound, fun q hq => ?_, hqueued, hs.blocked, hs.woken⟩
    rcases eq_or_ne q p with rfl | hne
    · rw [lend_info_self]
      exact hp
    · rw [lend_info_of_ne _ _ hne]
      exact hs.cleaned_entries hq
  | creates =>
    cases connects with
    | false => exact ⟨hsound, fun q hq => hs.cleaned_entries hq, hqueued, hs.blocked, hs.woken⟩
    | true =>
      exact ⟨hsound, entries_create fun q hq => hs.cleaned_entries hq, hqueued, hs.blocked,
        hs.woken⟩
  | waits =>
    refine ⟨hsound, fun q hq => hs.cleaned_entries hq, hqueued, fun w hw => ?_, hs.woken⟩
    rcases List.mem_append.1 hw with hw | hw
    · exact hs.blocked w hw
    · exact List.mem_singleton.1 hw

/-- Every step of a run for one endpoint keeps it that way. -/
theorem next (hs : OneEndpoint endpoint s) {e : Event} (he : e.For endpoint) {t : State}
    (h : (machine c).next s e = some t) : OneEndpoint endpoint t := by
  have hsound := hs.sound.next h
  obtain ⟨r, hr, rfl⟩ := hs.sound.moves_next h
  cases hr with
  | call hserved =>
    obtain rfl : _ = endpoint := he
    exact hs.served hserved
  | @wake i w hw =>
    refine ⟨hsound, hs.entries, hs.queued, fun v hv => ?_, fun v hv => ?_⟩
    · exact hs.blocked v (List.mem_of_mem_eraseIdx hv)
    · rcases List.mem_append.1 hv with hv | hv
      · exact hs.woken v hv
      · rw [List.mem_singleton.1 hv]
        exact hs.blocked w (List.mem_of_getElem? hw)
  | @resume i w connects r hw hserved =>
    obtain rfl : w = endpoint := hs.woken w (List.mem_of_getElem? hw)
    have hunwait : OneEndpoint w (unwait s i) := ⟨hs.sound.unwait i, hs.entries, hs.queued,
      hs.blocked, fun v hv => hs.woken v (List.mem_of_mem_eraseIdx hv)⟩
    exact hunwait.served hserved
  | @destroy i pick g hi hp =>
    have hqueued := (queued_next_iff hs.sound hs.queued h).2 (by simp [Discards])
    refine ⟨hsound, fun q hq => ?_, hqueued, fun w hw => ?_, fun w hw => ?_⟩
    · rw [notifyOne_pool] at hq ⊢
      rcases eq_or_ne q g.stream.id with rfl | hne
      · rw [giveBack_info_self]
        exact hs.entries _ hq
      · rw [giveBack_info_of_ne _ _ hne]
        exact hs.entries q hq
    · exact hs.blocked w (notifyOne_blocked_subset (s := giveBack (dropHandle s i) _) hw)
    · exact (notifyOne_woken_subset (s := giveBack (dropHandle s i) _) hw).elim (hs.woken w)
        (hs.blocked w)
  | destroyClosed => exact ⟨hsound, hs.entries, hs.queued, hs.blocked, hs.woken⟩
  | close =>
    exact ⟨hsound, fun p hp => absurd hp List.not_mem_nil, fun p hp => absurd hp List.not_mem_nil,
      hs.blocked, hs.woken⟩
  | tick => exact ⟨hsound, hs.entries, hs.queued, hs.blocked, hs.woken⟩

end OneEndpoint

/-! ### As many connections as are needed -/

/-- What one step does to the number of connections. -/
theorem OneEndpoint.length_next_le (hs : OneEndpoint endpoint s) {e : Event} (he : e.For endpoint)
    {t : State} (h : (machine c).next s e = some t) :
    t.pool.all.length ≤ max s.pool.all.length t.handles.length := by
  have ht := hs.next he h
  by_cases hle : t.pool.all.length ≤ s.pool.all.length
  · omega
  · -- a connection was made, so no other one is idle
    have hidle : t.pool.idle = [] := by
      obtain ⟨r, hr, rfl⟩ := hs.sound.moves_next h
      have hclean := (hs.sound.cleaned_all_sublist c).length_le
      cases hr with
      | call hserved => exact hserved.idle_eq_nil_of_length hclean hle
      | resume hw hserved =>
        exact hserved.idle_eq_nil_of_length hclean hle
      | destroy => exact absurd (by rw [notifyOne_pool]; exact le_rfl) hle
      | wake => exact absurd le_rfl hle
      | destroyClosed => exact absurd le_rfl hle
      | close => exact absurd (Nat.zero_le _) hle
      | tick => exact absurd le_rfl hle
    have htotal := ht.total
    have hactive := ht.active_le
    rw [hidle, List.length_nil] at htotal
    omega

/-- **A connection is made only when all others are in use**: as long as there are never more than
`n` handles alive at once, there are never more than `n` connections. -/
theorem connections_le_peak (c : Config) (endpoint : Endpoint) {es : List Event}
    (hes : ∀ e ∈ es, e.For endpoint) {n : ℕ}
    (h : (machine c).Always (fun s => s.handles.length ≤ n) initial es) :
    (machine c).Always (fun s => s.pool.all.length ≤ n) initial es := by
  have hhandles := (Machine.always_iff_along_post.1 h).2
  have hrun := (Machine.along_of_forall (M := machine c) initial hes).and hhandles
  have hall := hrun.always (I := fun s => OneEndpoint endpoint s ∧ s.pool.all.length ≤ n)
    (fun s e t hs hst hC => ⟨hs.1.next hC.1 hst, (hs.1.length_next_le hC.1 hst).trans
      (max_le hs.2 hC.2)⟩) ⟨oneEndpoint_initial endpoint, Nat.zero_le n⟩
  exact hall.imp fun s hs => hs.2

/-- A connection that is lent, given back and lent again. -/
def oneClientRun : List Event :=
  [.getConnection sampleEndpoints.1 true, .destroy 0 0, .getConnection sampleEndpoints.1 true]

theorem oneClientRun_for : ∀ e ∈ oneClientRun, e.For sampleEndpoints.1 := by
  simp [oneClientRun, Event.For]

theorem connections_le_peak_oneClientRun :
    (machine {}).Always (fun s => s.pool.all.length ≤ 1) initial oneClientRun := by
  refine connections_le_peak {} sampleEndpoints.1 oneClientRun_for ?_
  refine ⟨by decide, fun t ht => ?_⟩
  obtain rfl := Option.some.inj ht
  refine ⟨by decide, fun t ht => ?_⟩
  obtain rfl := Option.some.inj ht
  refine ⟨by decide, fun t ht => ?_⟩
  obtain rfl := Option.some.inj ht
  show List.length _ ≤ 1
  decide

/-! ### Enough connections for all clients -/

/-- A call is made while fewer than `n` handles are alive: there are `n` clients, and a client asks
for a connection when it has none. -/
def CallsBelow (n : ℕ) (s : State) : Event → Prop
  | .getConnection _ _ => s.handles.length < n
  | _ => True

/-- Nobody waits, and there are at most `n` handles and connections. -/
structure Calm (endpoint : Endpoint) (n : ℕ) (s : State) : Prop where
  one : OneEndpoint endpoint s
  blocked : s.blocked = []
  woken : s.woken = []
  handles : s.handles.length ≤ n
  connections : s.pool.all.length ≤ n

/-- A caller finds an idle connection or room for a new one. -/
theorem Calm.served {n : ℕ} (hs : Calm endpoint n s) (hn : n ≤ c.maxConnections)
    (hbelow : s.handles.length < n) {connects : Bool} {r : State × Answer}
    (h : Served c false s endpoint connects r) :
    r.1.blocked = [] ∧ r.1.woken = [] ∧ r.1.handles.length ≤ n := by
  cases h with
  | lends => exact ⟨hs.blocked, hs.woken, by simpa [lend, searched] using hbelow⟩
  | creates =>
    cases connects with
    | false => exact ⟨hs.blocked, hs.woken, hs.handles⟩
    | true =>
      exact ⟨hs.blocked, hs.woken, by simpa [createNewConnection, searched] using hbelow⟩
  | waits hnone hfull =>
    -- then as many connections would be in use as there are handles
    have htotal := hs.one.total_cleaned (c := c)
    have hactive := hs.one.active_le
    rw [hs.one.noMatch hnone, List.length_nil] at htotal
    omega

theorem Calm.next {n : ℕ} (hs : Calm endpoint n s) (hn : n ≤ c.maxConnections) {e : Event}
    (he : e.For endpoint) (hcalls : CallsBelow n s e) {t : State}
    (h : (machine c).next s e = some t) : Calm endpoint n t := by
  have ht := hs.one.next he h
  have hlength := hs.one.length_next_le he h
  have hquiet : t.blocked = [] ∧ t.woken = [] ∧ t.handles.length ≤ n := by
    obtain ⟨r, hr, rfl⟩ := hs.one.sound.moves_next h
    cases hr with
    | call hserved =>
      obtain rfl : _ = endpoint := he
      exact hs.served hn hcalls hserved
    | wake hw => simp [hs.blocked] at hw
    | resume hw => simp [hs.woken] at hw
    | @destroy i pick g hi hp =>
      have hgone : (s.handles.eraseIdx i).length ≤ n :=
        (List.length_eraseIdx_le s.handles i).trans hs.handles
      have hnone : (giveBack (dropHandle s i) g.stream.id).blocked = [] := hs.blocked
      simpa [notifyOne, hnone] using ⟨hs.woken, hgone⟩
    | @destroyClosed i pick g hi hp =>
      exact ⟨hs.blocked, hs.woken, (List.length_eraseIdx_le s.handles i).trans hs.handles⟩
    | close => exact ⟨hs.blocked, hs.woken, hs.handles⟩
    | tick => exact ⟨hs.blocked, hs.woken, hs.handles⟩
  exact ⟨ht, hquiet.1, hquiet.2.1, hquiet.2.2,
    hlength.trans (max_le hs.connections hquiet.2.2)⟩

/-- **As many clients as there may be connections never wait**: each of them asks for a connection
when it has none, and in every state nobody waits, there are no more connections than clients,
every connection is in use or idle, and the statistics say so. -/
theorem clients_never_wait (c : Config) (endpoint : Endpoint) {n : ℕ} (hn : n ≤ c.maxConnections)
    {es : List Event} (hes : ∀ e ∈ es, e.For endpoint)
    (h : (machine c).Along (fun s e _ => CallsBelow n s e) initial es) :
    (machine c).Always (fun s => s.blocked = [] ∧ s.woken = [] ∧ s.pool.all.length ≤ n ∧ Books s)
      initial es := by
  have hrun := (Machine.along_of_forall (M := machine c) initial hes).and h
  have hcalm := hrun.always (I := Calm endpoint n)
    (fun s e t hs hst hC => hs.next hn hC.1 hC.2 hst)
    ⟨oneEndpoint_initial endpoint, rfl, rfl, Nat.zero_le n, Nat.zero_le n⟩
  exact hcalm.imp fun s hs => ⟨hs.blocked, hs.woken, hs.connections, hs.one.books⟩

theorem clients_never_wait_oneClientRun :
    (machine {}).Always (fun s => s.blocked = [] ∧ s.woken = [] ∧ s.pool.all.length ≤ 1 ∧ Books s)
      initial oneClientRun := by
  refine clients_never_wait {} sampleEndpoints.1 (by decide) oneClientRun_for fun t ht => ?_
  obtain rfl := Option.some.inj ht
  refine ⟨by show 0 < 1; decide, fun t ht => ?_⟩
  obtain rfl := Option.some.inj ht
  refine ⟨trivial, fun t ht => ?_⟩
  obtain rfl := Option.some.inj ht
  exact ⟨by show 0 < 1; decide, trivial⟩

/-! ### No wake-up is lost -/

/-- As long as a caller is blocked, every connection there may be is in use, or a woken caller is
on its way to it. -/
def Covered (c : Config) (s : State) : Prop :=
  s.blocked ≠ [] → c.maxConnections ≤ active s.pool + s.woken.length

/-- The step leaves a caller blocked without need, and nobody is told: the pool is closed while
fewer callers are woken than there may be connections, or a caller comes out of the wait, finds
nothing idle and the pool not full, and fails to connect, while the connections in use and the
woken callers together are no more than there may be connections. -/
def Loses (c : Config) (s : State) : Event → Prop
  | .closeAllConnections => s.blocked ≠ [] ∧ s.woken.length < c.maxConnections
  | .resume i connects => connects = false ∧ s.woken[i]?.isSome ∧ s.blocked ≠ [] ∧
      (cleaned c s).idle = [] ∧ (cleaned c s).all.length < c.maxConnections ∧
      active s.pool + s.woken.length ≤ c.maxConnections
  | _ => False

instance decidableLoses (c : Config) (s : State) : (e : Event) → Decidable (Loses c s e)
  | .closeAllConnections =>
      inferInstanceAs (Decidable (s.blocked ≠ [] ∧ s.woken.length < c.maxConnections))
  | .resume i connects =>
      inferInstanceAs (Decidable (connects = false ∧ s.woken[i]?.isSome ∧ s.blocked ≠ [] ∧
        (cleaned c s).idle = [] ∧ (cleaned c s).all.length < c.maxConnections ∧
        active s.pool + s.woken.length ≤ c.maxConnections))
  | .getConnection _ _ | .wake _ | .destroy _ _ | .tick _ => inferInstanceAs (Decidable False)

/-- What serving a caller does to the connections in use: there is one more, or the caller blocks
when all are in use, or it fails to connect. -/
theorem OneEndpoint.active_served (hs : OneEndpoint endpoint s) {resumed connects : Bool}
    {r : State × Answer} (h : Served c resumed s endpoint connects r) :
    r.1.woken = s.woken ∧
      ((active r.1.pool = active s.pool + 1 ∧ r.1.blocked = s.blocked ∧
          ¬ (connects = false ∧ (cleaned c s).idle = [] ∧
            (cleaned c s).all.length < c.maxConnections)) ∨
        (active r.1.pool = active s.pool ∧ c.maxConnections ≤ active s.pool ∧
          ¬ (cleaned c s).all.length < c.maxConnections) ∨
        (active r.1.pool = active s.pool ∧ r.1.blocked = s.blocked ∧ connects = false ∧
          (cleaned c s).idle = [] ∧ (cleaned c s).all.length < c.maxConnections)) := by
  have hr := (hs.served h).total
  have htotal := hs.total_cleaned (c := c)
  cases h with
  | lends pre p idle hidle hpre hp =>
    have hall : (cleaned c s).all.length =
        active (lend (ConnectionPool.searched c s idle) p).1.pool + idle.length := hr
    rw [hidle, List.length_append, List.length_cons] at htotal
    have hpre' : pre = [] := by
      cases pre with
      | nil => rfl
      | cons q pre =>
        have hq : q ∈ (cleaned c s).idle := by simp [hidle]
        exact absurd (hs.idle_entries hq) (hpre q List.mem_cons_self)
    rw [hpre', List.length_nil] at htotal
    refine ⟨rfl, Or.inl ⟨by omega, rfl, ?_⟩⟩
    rintro ⟨-, hnil, -⟩
    simp [hidle] at hnil
  | creates hnone hroom =>
    have hnil := hs.noMatch hnone
    have hlt : (cleaned c s).all.length < c.maxConnections :=
      hroom.resolve_right fun h => h.2 hnil
    rw [hnil, List.length_nil] at htotal
    cases connects with
    | false =>
      have hall : (cleaned c s).all.length = active (ConnectionPool.searched c s []).pool + 0 := hr
      have hsame : active (ConnectionPool.searched c s []).pool = active s.pool := by omega
      exact ⟨rfl, Or.inr (Or.inr ⟨hsame, rfl, rfl, hnil, hlt⟩)⟩
    | true =>
      have hall : ((cleaned c s).all ++ [s.pool.next]).length =
        active (createNewConnection (ConnectionPool.searched c s []) endpoint true).1.pool + 0 := hr
      rw [List.length_append, List.length_singleton] at hall
      exact ⟨rfl, Or.inl ⟨by omega, rfl, fun h => Bool.noConfusion h.1⟩⟩
  | waits hnone hfull =>
    have hnil := hs.noMatch hnone
    rw [hnil, List.length_nil] at htotal
    have hall : (cleaned c s).all.length = active (ConnectionPool.searched c s []).pool + 0 := hr
    have hsame : active (ConnectionPool.searched c s []).pool = active s.pool := by omega
    exact ⟨rfl, Or.inr (Or.inl ⟨hsame, by omega, by omega⟩)⟩

theorem length_notifyOne_woken (pick : ℕ) (h : s.blocked ≠ []) :
    (notifyOne pick s).woken.length = s.woken.length + 1 := by
  have hlt := Nat.mod_lt pick (List.length_pos_iff.2 h)
  rw [notifyOne, List.getElem?_eq_getElem hlt]
  exact List.length_append

theorem covered_next_iff (hs : OneEndpoint endpoint s) (hcov : Covered c s) {e : Event}
    (he : e.For endpoint) {t : State} (h : (machine c).next s e = some t) :
    Covered c t ↔ ¬ Loses c s e := by
  have ht := hs.next he h
  obtain ⟨r, hr, rfl⟩ := hs.sound.moves_next h
  cases hr with
  | call hserved =>
    obtain rfl : _ = endpoint := he
    obtain ⟨hwoken, hcases⟩ := hs.active_served hserved
    refine iff_of_true (fun hblocked => ?_) id
    rw [hwoken]
    rcases hcases with ⟨hactive, hsame, -⟩ | ⟨hactive, hfull, -⟩ | ⟨hactive, hsame, -⟩
    · have hold := hcov (hsame ▸ hblocked)
      omega
    · omega
    · have hold := hcov (hsame ▸ hblocked)
      omega
  | @wake i w hw =>
    refine iff_of_true (fun _ => ?_) id
    have hne : s.blocked ≠ [] := fun hnil => by simp [hnil] at hw
    have hold := hcov hne
    show c.maxConnections ≤ active s.pool + (s.woken ++ [w]).length
    rw [List.length_append]
    omega
  | @resume i w connects r hw hserved =>
    obtain rfl : w = endpoint := hs.woken w (List.mem_of_getElem? hw)
    have hunwait : OneEndpoint w (unwait s i) := ⟨hs.sound.unwait i, hs.entries, hs.queued,
      hs.blocked, fun v hv => hs.woken v (List.mem_of_mem_eraseIdx hv)⟩
    obtain ⟨hwoken, hcases⟩ := hunwait.active_served hserved
    have hlt := (List.getElem?_eq_some_iff.1 hw).1
    have hlen : r.1.woken.length + 1 = s.woken.length := by
      rw [hwoken]
      show (s.woken.eraseIdx i).length + 1 = _
      rw [List.length_eraseIdx_of_lt hlt]
      omega
    have hsome : s.woken[i]?.isSome = true := by rw [hw]; rfl
    rcases hcases with ⟨hactive, hsame, hnot⟩ | ⟨hactive, hfull, hnot⟩ |
      ⟨hactive, hsame, hfails, hnil, hroom⟩
    · refine iff_of_true (fun hblocked => ?_) fun hloses =>
        hnot ⟨hloses.1, hloses.2.2.2.1, hloses.2.2.2.2.1⟩
      have hold := hcov fun hnil => hblocked (hsame.trans hnil)
      have hactive' : active r.1.pool = active s.pool + 1 := hactive
      omega
    · refine iff_of_true (fun _ => ?_) fun hloses => hnot hloses.2.2.2.2.1
      have hfull' : c.maxConnections ≤ active s.pool := hfull
      have hactive' : active r.1.pool = active s.pool := hactive
      omega
    · have hactive' : active r.1.pool = active s.pool := hactive
      have hblocked : r.1.blocked = s.blocked := hsame
      constructor
      · rintro h ⟨-, -, hne, -, -, htight⟩
        have hnew := h (hblocked ▸ hne)
        omega
      · intro hnot hne
        by_contra hlost
        rw [hblocked] at hne
        exact hnot ⟨hfails, hsome, hne, hnil, hroom, by omega⟩
  | @destroy i pick g hi hp =>
    refine iff_of_true (fun hblocked => ?_) id
    have htwo := (notifyOne_blocked_ne_nil_iff pick _).1 hblocked
    have hne : s.blocked ≠ [] := List.length_pos_iff.1 (Nat.lt_of_lt_of_le two_pos htwo)
    have hold := hcov hne
    have htotal := ht.total
    have hstotal := hs.total
    have hwoken := length_notifyOne_woken pick (s := giveBack (dropHandle s i) g.stream.id) hne
    have hlen : (giveBack (dropHandle s i) g.stream.id).woken.length = s.woken.length := rfl
    simp only [notifyOne_pool] at htotal ⊢
    have hidle : (giveBack (dropHandle s i) g.stream.id).pool.idle.length =
      s.pool.idle.length + 1 := List.length_append
    have hall : (giveBack (dropHandle s i) g.stream.id).pool.all.length = s.pool.all.length := rfl
    omega
  | destroyClosed => exact iff_of_true hcov id
  | close =>
    constructor
    · rintro h ⟨hne, hlt⟩
      have hnew : c.maxConnections ≤ 0 + s.woken.length := h hne
      omega
    · intro hnot hne
      show c.maxConnections ≤ 0 + s.woken.length
      by_contra hlt
      exact hnot ⟨hne, by omega⟩
  | tick => exact iff_of_true hcov id

/-- **When no wake-up is lost.**  In a run for one endpoint, as long as a caller is blocked, every
connection there may be is in use or has a woken caller on its way to it, exactly when no step
`Loses` a caller, by closing the pool or by a failure to connect after the wait. -/
theorem always_covered_iff (c : Config) (endpoint : Endpoint) {es : List Event}
    (hes : ∀ e ∈ es, e.For endpoint) :
    (machine c).Always (Covered c) initial es ↔
      (machine c).Along (fun s e _ => ¬ Loses c s e) initial es :=
  Machine.always_iff_along_of_forall (I := OneEndpoint endpoint)
    (fun _ _ _ he hs h => hs.next he h) (fun _ _ _ he hs hcov h => covered_next_iff hs hcov he h)
    (oneEndpoint_initial endpoint) (fun h => absurd rfl h) hes

/-- Two callers and one connection: the second one blocks, is woken when the first gives its
connection back, and takes it. -/
def waitingRun : List Event :=
  [.getConnection sampleEndpoints.1 true, .getConnection sampleEndpoints.1 true, .destroy 0 0,
    .resume 0 true]

/-- With a third caller blocked, the second one is woken for nothing, and the pool is closed. -/
def closedRun : List Event :=
  [.getConnection sampleEndpoints.1 true, .getConnection sampleEndpoints.1 true,
    .getConnection sampleEndpoints.1 true, .wake 0, .resume 0 true, .closeAllConnections]

theorem always_covered_iff_waiting :
    ((machine ⟨1, 300⟩).Always (Covered ⟨1, 300⟩) initial waitingRun) ∧
      ¬ (machine ⟨1, 300⟩).Always (Covered ⟨1, 300⟩) initial closedRun :=
  ⟨(always_covered_iff ⟨1, 300⟩ sampleEndpoints.1 (by simp [waitingRun, Event.For])).2 (by decide),
    mt (always_covered_iff ⟨1, 300⟩ sampleEndpoints.1 (by simp [closedRun, Event.For])).1
      (by decide)⟩

end Kaiten.ConnectionPool
