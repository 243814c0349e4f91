import Kunstkammer.Pool.Sections

/-!
# The invariant of the connection pool

What holds of the pool, its entries and the live handles in every reachable state, whatever the
interleaving.

* `Sound`: the entries of the idle queue are entries of the pool that are not in use; the entries
  in use are those of the live handles; no two handles share a stream;
* one preservation lemma for each way a section changes the state: `Sound.shrink` (entries leave
  the pool), `Sound.lend`, `Sound.create`, `Sound.giveBack`;
* `Moves`, `Sound.moves`: everything a section can do in a sound state, said once;
* `Sound.next`, `sound_of_reaches`.
-/

namespace Kaiten.ConnectionPool

/-- The streams of the handles. -/
def heldStreams (handles : List PooledConnection) : List ℕ := handles.map fun h => h.stream.id

@[simp] theorem heldStreams_append (handles : List PooledConnection) (h : PooledConnection) :
    heldStreams (handles ++ [h]) = heldStreams handles ++ [h.stream.id] :=
  List.map_append

theorem mem_heldStreams {handles : List PooledConnection} {h : PooledConnection}
    (hh : h ∈ handles) : h.stream.id ∈ heldStreams handles :=
  List.mem_map_of_mem hh

/-- The invariant. -/
structure Sound (s : State) : Prop where
  all_nodup : s.pool.all.Nodup
  idle_nodup : s.pool.idle.Nodup
  idle_mem : ∀ p ∈ s.pool.idle, p ∈ s.pool.all
  idle_unused : IdleUnused s.pool
  lt_next : ∀ p ∈ s.pool.all, p < s.pool.next
  stream_id : ∀ p ∈ s.pool.all, (s.pool.info p).stream.id = p
  stream_endpoint : ∀ p ∈ s.pool.all, (s.pool.info p).stream.endpoint = (s.pool.info p).endpoint
  handle_lt : ∀ h ∈ s.handles, h.stream.id < s.pool.next
  handle_valid : ∀ h ∈ s.handles, h.valid = true
  held_nodup : (heldStreams s.handles).Nodup
  held : ∀ p ∈ s.pool.all, (s.pool.info p).inUse = true ↔ p ∈ heldStreams s.handles
  idle_since : ∀ p ∈ s.pool.idle, (s.pool.info p).lastUsed = s.idleSince p

theorem sound_initial : Sound initial where
  all_nodup := List.nodup_nil
  idle_nodup := List.nodup_nil
  idle_mem _ hp := absurd hp List.not_mem_nil
  idle_unused _ hp := absurd hp List.not_mem_nil
  lt_next _ hp := absurd hp List.not_mem_nil
  stream_id _ hp := absurd hp List.not_mem_nil
  stream_endpoint _ hp := absurd hp List.not_mem_nil
  handle_lt _ hh := absurd hh List.not_mem_nil
  handle_valid _ hh := absurd hh List.not_mem_nil
  held_nodup := List.nodup_nil
  held _ hp := absurd hp List.not_mem_nil
  idle_since _ hp := absurd hp List.not_mem_nil

/-! ### The changes of the entry at one pointer -/

section Entry

variable (s : State) (p : ℕ)

theorem lend_info_self : (lend s p).1.pool.info p =
    { s.pool.info p with inUse := true, lastUsed := s.clock } :=
  Function.update_self _ _ _

theorem lend_info_of_ne {q : ℕ} (h : q ≠ p) : (lend s p).1.pool.info q = s.pool.info q :=
  Function.update_of_ne h _ _

theorem giveBack_info_self : (giveBack s p).pool.info p =
    { s.pool.info p with inUse := false, lastUsed := s.clock } :=
  Function.update_self _ _ _

theorem giveBack_info_of_ne {q : ℕ} (h : q ≠ p) : (giveBack s p).pool.info q = s.pool.info q :=
  Function.update_of_ne h _ _

theorem giveBack_idleSince_self : (giveBack s p).idleSince p = s.clock :=
  Function.update_self _ _ _

theorem giveBack_idleSince_of_ne {q : ℕ} (h : q ≠ p) :
    (giveBack s p).idleSince q = s.idleSince q :=
  Function.update_of_ne h _ _

/-- The pool with an entry for a new stream that is not in use. -/
def addEntry (endpoint : Endpoint) : State :=
  { s with
    pool := { s.pool.set s.pool.next ⟨⟨s.pool.next, endpoint⟩, endpoint, s.clock, false⟩ with
      all := s.pool.all ++ [s.pool.next]
      next := s.pool.next + 1 } }

theorem addEntry_info_self (endpoint : Endpoint) : (addEntry s endpoint).pool.info s.pool.next =
    ⟨⟨s.pool.next, endpoint⟩, endpoint, s.clock, false⟩ :=
  Function.update_self _ _ _

theorem addEntry_info_of_ne (endpoint : Endpoint) {q : ℕ} (h : q ≠ s.pool.next) :
    (addEntry s endpoint).pool.info q = s.pool.info q :=
  Function.update_of_ne h _ _

/-- A new connection is a new entry that is lent. -/
theorem createNewConnection_true (endpoint : Endpoint) :
    createNewConnection s endpoint true = ((lend (addEntry s endpoint) s.pool.next).1,
      .lent { stream := ⟨s.pool.next, endpoint⟩, endpoint }) := by
  unfold createNewConnection lend
  rw [if_pos rfl]
  dsimp only
  rw [addEntry_info_self]
  simp [addEntry, Pool.set]

end Entry

namespace Sound

variable {s : State}

/-- The invariant is about the pool, the handles and the idle times only. -/
theorem frame (hs : Sound s) {t : State} (hpool : t.pool = s.pool)
    (hhandles : t.handles = s.handles) (hsince : t.idleSince = s.idleSince) : Sound t := by
  obtain ⟨pool, clock, handles, blocked, woken, idleSince⟩ := t
  dsimp only at hpool hhandles hsince
  subst hpool hhandles hsince
  exact { hs with }

/-- Entries leave the idle queue and the pool. -/
theorem shrink (hs : Sound s) {idle all : List ℕ} (hidle : idle.Sublist s.pool.idle)
    (hall : all.Sublist s.pool.all) (hmem : ∀ p ∈ idle, p ∈ all) :
    Sound { s with pool := { s.pool with idle, all } } where
  all_nodup := hall.nodup hs.all_nodup
  idle_nodup := hidle.nodup hs.idle_nodup
  idle_mem := hmem
  idle_unused p hp := hs.idle_unused p (hidle.subset hp)
  lt_next p hp := hs.lt_next p (hall.subset hp)
  stream_id p hp := hs.stream_id p (hall.subset hp)
  stream_endpoint p hp := hs.stream_endpoint p (hall.subset hp)
  handle_lt := hs.handle_lt
  handle_valid := hs.handle_valid
  held_nodup := hs.held_nodup
  held p hp := hs.held p (hall.subset hp)
  idle_since p hp := hs.idle_since p (hidle.subset hp)

/-- An entry the clean-up leaves in the idle queue stays in the pool. -/
theorem cleaned_idle_mem (hs : Sound s) (c : Config) {p : ℕ} (hp : p ∈ (cleaned c s).idle) :
    p ∈ (cleaned c s).all := by
  rw [cleanup_idle hs.idle_unused] at hp
  rw [cleanup_all hs.idle_unused]
  obtain ⟨hp, hfresh⟩ := List.mem_filter.1 hp
  exact List.mem_filter.2 ⟨hs.idle_mem p hp, by rw [hfresh, Bool.or_true]⟩

/-- The clean-up and the search. -/
theorem searched (hs : Sound s) (c : Config) {idle : List ℕ}
    (hidle : idle.Sublist (cleaned c s).idle) : Sound (searched c s idle) := by
  have hsub : (cleaned c s).idle.Sublist s.pool.idle := by
    rw [cleanup_idle hs.idle_unused]; exact List.filter_sublist
  have hall : (cleaned c s).all.Sublist s.pool.all := by
    rw [cleanup_all hs.idle_unused]; exact List.filter_sublist
  exact hs.shrink (hidle.trans hsub) hall fun p hp => hs.cleaned_idle_mem c (hidle.subset hp)

/-- An entry that is not in use is lent. -/
theorem lend (hs : Sound s) {p : ℕ} (hp : p ∈ s.pool.all) (hidle : p ∉ s.pool.idle)
    (hfree : (s.pool.info p).inUse = false) : Sound (lend s p).1 := by
  have hother : ∀ q ∈ s.pool.idle, q ≠ p := fun q hq hqp => hidle (hqp ▸ hq)
  have hnot : p ∉ heldStreams s.handles := fun h => by
    rw [(hs.held p hp).2 h] at hfree; cases hfree
  have hids : heldStreams (ConnectionPool.lend s p).1.handles = heldStreams s.handles ++ [p] :=
    (heldStreams_append _ _).trans (by rw [hs.stream_id p hp])
  exact {
    all_nodup := hs.all_nodup
    idle_nodup := hs.idle_nodup
    idle_mem := hs.idle_mem
    idle_unused := fun q hq => by rw [lend_info_of_ne s p (hother q hq)]; exact hs.idle_unused q hq
    lt_next := hs.lt_next
    stream_id := fun q hq => by
      rcases eq_or_ne q p with rfl | hne
      · rw [lend_info_self]; exact hs.stream_id q hq
      · rw [lend_info_of_ne s p hne]; exact hs.stream_id q hq
    stream_endpoint := fun q hq => by
      rcases eq_or_ne q p with rfl | hne
      · rw [lend_info_self]; exact hs.stream_endpoint q hq
      · rw [lend_info_of_ne s p hne]; exact hs.stream_endpoint q hq
    handle_lt := fun h hh => by
      rcases List.mem_append.1 hh with hh | hh
      · exact hs.handle_lt h hh
      · rw [List.mem_singleton.1 hh, hs.stream_id p hp]; exact hs.lt_next p hp
    handle_valid := fun h hh => by
      rcases List.mem_append.1 hh with hh | hh
      · exact hs.handle_valid h hh
      · rw [List.mem_singleton.1 hh]
    held_nodup := by
      rw [hids]
      exact List.nodup_append.2 ⟨hs.held_nodup, List.nodup_singleton p, fun a ha b hb hab =>
        hnot (by rwa [← List.mem_singleton.1 hb, ← hab])⟩
    held := fun q hq => by
      rw [hids, List.mem_append, List.mem_singleton]
      rcases eq_or_ne q p with rfl | hne
      · rw [lend_info_self]; exact iff_of_true rfl (Or.inr rfl)
      · rw [lend_info_of_ne s p hne, or_iff_left hne]; exact hs.held q hq
    idle_since := fun q hq => by
      rw [lend_info_of_ne s p (hother q hq)]; exact hs.idle_since q hq }

/-- The next pointer is new to the pool and to the handles. -/
theorem next_not_mem (hs : Sound s) :
    s.pool.next ∉ s.pool.all ∧ s.pool.next ∉ heldStreams s.handles := by
  refine ⟨fun h => (hs.lt_next _ h).false, fun h => ?_⟩
  obtain ⟨g, hg, heq⟩ := List.mem_map.1 h
  exact (hs.handle_lt g hg).ne heq

theorem addEntry (hs : Sound s) (endpoint : Endpoint) : Sound (addEntry s endpoint) := by
  obtain ⟨hall, hheld⟩ := hs.next_not_mem
  have hne : ∀ q ∈ s.pool.all, q ≠ s.pool.next := fun q hq => (hs.lt_next q hq).ne
  have hcases : ∀ q ∈ (ConnectionPool.addEntry s endpoint).pool.all,
      q ∈ s.pool.all ∨ q = s.pool.next := fun q hq =>
    (List.mem_append.1 hq).imp_right List.mem_singleton.1
  exact {
    all_nodup := List.nodup_append.2 ⟨hs.all_nodup, List.nodup_singleton _, fun a ha b hb hab =>
      hne a ha (hab.trans (List.mem_singleton.1 hb))⟩
    idle_nodup := hs.idle_nodup
    idle_mem := fun q hq => List.mem_append_left _ (hs.idle_mem q hq)
    idle_unused := fun q hq => by
      rw [addEntry_info_of_ne s endpoint (hne q (hs.idle_mem q hq))]; exact hs.idle_unused q hq
    lt_next := fun q hq => by
      rcases hcases q hq with hq | rfl
      · exact (hs.lt_next q hq).trans (Nat.lt_succ_self _)
      · exact Nat.lt_succ_self _
    stream_id := fun q hq => by
      rcases hcases q hq with hq | rfl
      · rw [addEntry_info_of_ne s endpoint (hne q hq)]; exact hs.stream_id q hq
      · rw [addEntry_info_self]
    stream_endpoint := fun q hq => by
      rcases hcases q hq with hq | rfl
      · rw [addEntry_info_of_ne s endpoint (hne q hq)]; exact hs.stream_endpoint q hq
      · rw [addEntry_info_self]
    handle_lt := fun h hh => (hs.handle_lt h hh).trans (Nat.lt_succ_self _)
    handle_valid := hs.handle_valid
    held_nodup := hs.held_nodup
    held := fun q hq => by
      rcases hcases q hq with hq | rfl
      · rw [addEntry_info_of_ne s endpoint (hne q hq)]; exact hs.held q hq
      · rw [addEntry_info_self]; exact iff_of_false Bool.false_ne_true hheld
    idle_since := fun q hq => by
      rw [addEntry_info_of_ne s endpoint (hne q (hs.idle_mem q hq))]; exact hs.idle_since q hq }

theorem create (hs : Sound s) (endpoint : Endpoint) (connects : Bool) :
    Sound (createNewConnection s endpoint connects).1 := by
  cases connects with
  | false => exact hs
  | true =>
    rw [createNewConnection_true]
    refine (hs.addEntry endpoint).lend (List.mem_append_right _ (List.mem_singleton_self _))
      (fun h => hs.next_not_mem.1 (hs.idle_mem _ h)) ?_
    rw [addEntry_info_self]

/-! ### Returning -/

/-- A handle finds its entry by its stream. -/
theorem find_entry (hs : Sound s) (id : ℕ) :
    (s.pool.all.find? fun p => (s.pool.info p).stream.id = id) =
      if id ∈ s.pool.all then some id else none := by
  split_ifs with hid
  · cases hfind : s.pool.all.find? fun p => (s.pool.info p).stream.id = id with
    | none =>
      refine absurd (List.find?_eq_none.1 hfind id hid) ?_
      rw [hs.stream_id id hid, not_not, decide_eq_true rfl]
    | some p =>
      have heq := List.find?_some hfind
      rw [decide_eq_true_eq, hs.stream_id p (List.mem_of_find?_eq_some hfind)] at heq
      rw [heq]
  · refine List.find?_eq_none.2 fun p hp heq => hid ?_
    rw [decide_eq_true_eq, hs.stream_id p hp] at heq
    exact heq ▸ hp

theorem mem_heldStreams_dropHandle (hs : Sound s) {i : ℕ} {h : PooledConnection}
    (hi : s.handles[i]? = some h) (q : ℕ) :
    q ∈ heldStreams (dropHandle s i).handles ↔ q ≠ h.stream.id ∧ q ∈ heldStreams s.handles := by
  obtain ⟨hlt, rfl⟩ := List.getElem?_eq_some_iff.1 hi
  have hmap : heldStreams (dropHandle s i).handles = (heldStreams s.handles).eraseIdx i :=
    (List.eraseIdx_map _ _ _).symm
  have hlt' : i < (heldStreams s.handles).length := by rwa [heldStreams, List.length_map]
  have hget : (heldStreams s.handles)[i] = s.handles[i].stream.id := List.getElem_map _
  rw [hmap, ← hs.held_nodup.erase_getElem i hlt', hget, hs.held_nodup.mem_erase_iff]

/-- A handle is gone whose entry has left the pool. -/
theorem dropHandle (hs : Sound s) {i : ℕ} {h : PooledConnection} (hi : s.handles[i]? = some h)
    (hgone : h.stream.id ∉ s.pool.all) : Sound (dropHandle s i) :=
  { hs with
    handle_lt := fun g hg => hs.handle_lt g (List.mem_of_mem_eraseIdx hg)
    handle_valid := fun g hg => hs.handle_valid g (List.mem_of_mem_eraseIdx hg)
    held_nodup := ((List.eraseIdx_sublist _ _).map _).nodup hs.held_nodup
    held := fun q hq => by
      rw [hs.mem_heldStreams_dropHandle hi, and_iff_right (ne_of_mem_of_not_mem hq hgone)]
      exact hs.held q hq }

/-- The entry of a handle that is gone is put into the idle queue. -/
theorem giveBack (hs : Sound s) {i : ℕ} {h : PooledConnection} (hi : s.handles[i]? = some h)
    (hp : h.stream.id ∈ s.pool.all) :
    Sound (giveBack (ConnectionPool.dropHandle s i) h.stream.id) := by
  have huse : (s.pool.info h.stream.id).inUse = true :=
    (hs.held _ hp).2 (mem_heldStreams (List.mem_of_getElem? hi))
  have hidle : h.stream.id ∉ s.pool.idle := fun hmem => by
    rw [hs.idle_unused _ hmem] at huse; cases huse
  have hne : ∀ q ∈ s.pool.idle, q ≠ h.stream.id := fun q hq => ne_of_mem_of_not_mem hq hidle
  have hcases : ∀ q ∈ (ConnectionPool.giveBack (ConnectionPool.dropHandle s i)
      h.stream.id).pool.idle, q ∈ s.pool.idle ∨ q = h.stream.id := fun q hq =>
    (List.mem_append.1 hq).imp_right List.mem_singleton.1
  exact {
    all_nodup := hs.all_nodup
    idle_nodup := List.nodup_append.2 ⟨hs.idle_nodup, List.nodup_singleton _,
      fun a ha b hb hab => hne a ha (hab.trans (List.mem_singleton.1 hb))⟩
    idle_mem := fun q hq => (hcases q hq).elim (hs.idle_mem q) fun heq => heq ▸ hp
    idle_unused := fun q hq => by
      rcases eq_or_ne q h.stream.id with rfl | hqne
      · rw [giveBack_info_self]
      · rw [giveBack_info_of_ne _ _ hqne]
        exact hs.idle_unused q ((hcases q hq).resolve_right hqne)
    lt_next := hs.lt_next
    stream_id := fun q hq => by
      rcases eq_or_ne q h.stream.id with rfl | hqne
      · rw [giveBack_info_self]; exact hs.stream_id _ hq
      · rw [giveBack_info_of_ne _ _ hqne]; exact hs.stream_id q hq
    stream_endpoint := fun q hq => by
      rcases eq_or_ne q h.stream.id with rfl | hqne
      · rw [giveBack_info_self]; exact hs.stream_endpoint _ hq
      · rw [giveBack_info_of_ne _ _ hqne]; exact hs.stream_endpoint q hq
    handle_lt := fun g hg => hs.handle_lt g (List.mem_of_mem_eraseIdx hg)
    handle_valid := fun g hg => hs.handle_valid g (List.mem_of_mem_eraseIdx hg)
    held_nodup := ((List.eraseIdx_sublist _ _).map _).nodup hs.held_nodup
    held := fun q hq => by
      refine Iff.trans ?_ (hs.mem_heldStreams_dropHandle hi q).symm
      rcases eq_or_ne q h.stream.id with rfl | hqne
      · rw [giveBack_info_self]; exact iff_of_false Bool.false_ne_true fun hq => hq.1 rfl
      · rw [giveBack_info_of_ne _ _ hqne, and_iff_right hqne]; exact hs.held q hq
    idle_since := fun q hq => by
      rcases eq_or_ne q h.stream.id with rfl | hqne
      · rw [giveBack_info_self, giveBack_idleSince_self]
      · rw [giveBack_info_of_ne _ _ hqne, giveBack_idleSince_of_ne _ _ hqne]
        exact hs.idle_since q ((hcases q hq).resolve_right hqne) }

theorem frame_notifyOne (hs : Sound s) (pick : ℕ) : Sound (notifyOne pick s) := by
  unfold notifyOne
  split
  · exact hs.frame rfl rfl rfl
  · exact hs

/-- What the destruction of a handle does to the pool. -/
theorem returnConnection_dropHandle (hs : Sound s) {i : ℕ} {h : PooledConnection}
    (hi : s.handles[i]? = some h) (pick : ℕ) :
    returnConnection (ConnectionPool.dropHandle s i) h pick =
      if h.stream.id ∈ s.pool.all then
        notifyOne pick (ConnectionPool.giveBack (ConnectionPool.dropHandle s i) h.stream.id)
      else ConnectionPool.dropHandle s i := by
  have hfind := hs.find_entry h.stream.id
  unfold returnConnection
  rw [if_pos (hs.handle_valid h (List.mem_of_getElem? hi)),
    show (ConnectionPool.dropHandle s i).pool = s.pool from rfl, hfind]
  split_ifs <;> rfl

/-! ### Steps and runs -/

theorem served (hs : Sound s) {c : Config} {resumed : Bool} {endpoint : Endpoint} {connects : Bool}
    {r : State × Answer} (h : Served c resumed s endpoint connects r) : Sound r.1 := by
  cases h with
  | lends pre p idle hidle hpre hp =>
    have hmem : p ∈ (cleaned c s).idle := by
      rw [hidle]; exact List.mem_append_cons_self
    have hsub : idle.Sublist (cleaned c s).idle := by
      rw [hidle]; exact (List.sublist_cons_self _ _).trans (List.sublist_append_right _ _)
    have hnodup : (p :: idle).Nodup :=
      (List.nodup_append.1 (hidle ▸ (hs.searched c (List.Sublist.refl _)).idle_nodup)).2.1
    refine (hs.searched c hsub).lend (hs.cleaned_idle_mem c hmem) (List.nodup_cons.1 hnodup).1 ?_
    exact (hs.searched c (List.Sublist.refl _)).idle_unused p hmem
  | creates => exact (hs.searched c (List.nil_sublist _)).create endpoint connects
  | waits => exact (hs.searched c (List.nil_sublist _)).frame rfl rfl rfl

end Sound

/-- A caller that comes out of the condition wait. -/
def unwait (s : State) (i : ℕ) : State := { s with woken := s.woken.eraseIdx i }

/-- Everything a critical section can do in a sound state. -/
inductive Moves (c : Config) (s : State) : Event → State × Answer → Prop
  | call {endpoint : Endpoint} {connects : Bool} {r : State × Answer}
      (hr : Served c false s endpoint connects r) : Moves c s (.getConnection endpoint connects) r
  | wake {i : ℕ} {w : Endpoint} (hw : s.blocked[i]? = some w) :
      Moves c s (.wake i) (wakeUp s i w, .done)
  | resume {i : ℕ} {w : Endpoint} {connects : Bool} {r : State × Answer}
      (hw : s.woken[i]? = some w) (hr : Served c true (unwait s i) w connects r) :
      Moves c s (.resume i connects) r
  | destroy {i pick : ℕ} {h : PooledConnection} (hi : s.handles[i]? = some h)
      (hp : h.stream.id ∈ s.pool.all) :
      Moves c s (.destroy i pick) (notifyOne pick (giveBack (dropHandle s i) h.stream.id), .done)
  | destroyClosed {i pick : ℕ} {h : PooledConnection} (hi : s.handles[i]? = some h)
      (hp : h.stream.id ∉ s.pool.all) : Moves c s (.destroy i pick) (dropHandle s i, .done)
  | close : Moves c s .closeAllConnections (closeAllConnections s, .done)
  | tick (d : ℕ) : Moves c s (.tick d) ({ s with clock := s.clock + d }, .done)

theorem Sound.moves {s : State} (hs : Sound s) {c : Config} {e : Event} {r : State × Answer}
    (h : step c s e = some r) : Moves c s e r := by
  cases e with
  | getConnection endpoint connects =>
    obtain rfl := Option.some.inj h
    exact .call (served_getConnection hs.idle_unused)
  | wake i =>
    obtain ⟨w, hw, rfl⟩ := Option.map_eq_some_iff.1 h
    exact .wake hw
  | resume i connects =>
    obtain ⟨w, hw, rfl⟩ := Option.map_eq_some_iff.1 h
    exact .resume hw (served_awaitConnection hs.idle_unused)
  | destroy i pick =>
    obtain ⟨g, hi, rfl⟩ := Option.map_eq_some_iff.1 h
    rw [hs.returnConnection_dropHandle hi]
    split_ifs with hp
    · exact .destroy hi hp
    · exact .destroyClosed hi hp
  | closeAllConnections =>
    obtain rfl := Option.some.inj h
    exact .close
  | tick d =>
    obtain rfl := Option.some.inj h
    exact .tick d

theorem Sound.moves_next {s : State} (hs : Sound s) {c : Config} {e : Event} {t : State}
    (h : (machine c).next s e = some t) : ∃ r, Moves c s e r ∧ r.1 = t := by
  obtain ⟨a, ha⟩ := Machine.next_eq_some.1 h
  exact ⟨(t, a), hs.moves ha, rfl⟩

theorem Sound.unwait {s : State} (hs : Sound s) (i : ℕ) : Sound (unwait s i) :=
  hs.frame rfl rfl rfl

theorem Sound.next {s : State} (hs : Sound s) {c : Config} {e : Event} {t : State}
    (h : (machine c).next s e = some t) : Sound t := by
  obtain ⟨r, hr, rfl⟩ := hs.moves_next h
  cases hr with
  | call hserved => exact hs.served hserved
  | wake => exact hs.frame rfl rfl rfl
  | resume _ hserved => exact (hs.unwait _).served hserved
  | destroy hi hp => exact (hs.giveBack hi hp).frame_notifyOne _
  | destroyClosed hi hp => exact hs.dropHandle hi hp
  | close => exact hs.shrink (List.nil_sublist _) (List.nil_sublist _) fun _ hp => hp
  | tick => exact hs.frame rfl rfl rfl

/-- **Every reachable state is sound.** -/
theorem sound_of_reaches {c : Config} {s : State} (h : (machine c).Reaches initial s) : Sound s :=
  h.invariant sound_initial fun _ _ _ hs => hs.next

end Kaiten.ConnectionPool
