import Kunstkammer.Pool.Capacity

/-!
# What a caller gets

Whatever the interleaving, a caller that is served gets a stream connected to its endpoint that
no other live handle has, and one from the idle queue has not been idle for longer than the
timeout.

* `Served.lent`: the handles a served caller can get;
* `lent_is_exclusive`: the property of every reachable state.
-/

namespace Kaiten.ConnectionPool

variable {c : Config} {s : State}

/-- The endpoint of the caller that runs in the step. -/
def requested (s : State) : Event → Option Endpoint
  | .getConnection endpoint _ => some endpoint
  | .resume i _ => s.woken[i]?
  | _ => none

/-- What is promised of a handle `h` for `endpoint`, lent in the state `s`. -/
structure SafelyLent (c : Config) (s : State) (endpoint : Endpoint) (h : PooledConnection)
    (t : State) : Prop where
  connected : h.stream.endpoint = endpoint
  live : t.handles = s.handles ++ [h]
  exclusive : ∀ g ∈ s.handles, g.stream.id ≠ h.stream.id
  rested : ∀ p ∈ s.pool.idle, (s.pool.info p).stream.id = h.stream.id →
    s.clock - s.idleSince p < c.connectionTimeout

/-- The streams of a sound state's handles differ from that of a handle that can be added. -/
theorem Sound.exclusive {t : State} (ht : Sound t) {handles : List PooledConnection}
    {h : PooledConnection} (heq : t.handles = handles ++ [h]) :
    ∀ g ∈ handles, g.stream.id ≠ h.stream.id := by
  intro g hg
  have hnodup := ht.held_nodup
  rw [heq, heldStreams_append] at hnodup
  exact (List.nodup_append.1 hnodup).2.2 _ (mem_heldStreams hg) _ (List.mem_singleton_self _)

theorem Served.lent (hs : Sound s) {resumed : Bool} {endpoint : Endpoint} {connects : Bool}
    {r : State × Answer} (hserved : Served c resumed s endpoint connects r) {h : PooledConnection}
    (hr : r.2 = .lent h) : SafelyLent c s endpoint h r.1 := by
  have hsound := hs.served hserved
  cases hserved with
  | lends pre p idle hidle hpre hp =>
    cases hr
    have hmem : p ∈ (cleaned c s).idle := by
      rw [hidle]; exact List.mem_append_cons_self
    rw [cleanup_idle hs.idle_unused] at hmem
    obtain ⟨hqueued, hfresh⟩ := List.mem_filter.1 hmem
    have hall := hs.idle_mem p hqueued
    refine ⟨(hs.stream_endpoint p hall).trans hp, rfl, hsound.exclusive rfl, fun q hq heq => ?_⟩
    have hid : q = p := by
      rw [← hs.stream_id q (hs.idle_mem q hq), heq]
      exact hs.stream_id p hall
    rw [hid, ← hs.idle_since p hqueued]
    exact of_decide_eq_true hfresh
  | creates =>
    cases connects with
    | false => cases hr
    | true =>
      change Answer.lent { stream := ⟨s.pool.next, endpoint⟩, endpoint } = .lent h at hr
      cases hr
      refine ⟨rfl, rfl, hsound.exclusive rfl, fun q hq heq => ?_⟩
      rw [hs.stream_id q (hs.idle_mem q hq)] at heq
      exact absurd heq (hs.lt_next q (hs.idle_mem q hq)).ne
  | waits => cases hr

/-- **A handle is safe to use**: in every reachable state, the stream lent to a caller is
connected to the caller's endpoint, no other live handle has it, and if it was idle, it was so
for less than the timeout. -/
theorem lent_is_exclusive (hs : (machine c).Reaches initial s) {e : Event} {t : State}
    {h : PooledConnection} (hstep : step c s e = some (t, .lent h)) :
    ∃ endpoint, requested s e = some endpoint ∧ SafelyLent c s endpoint h t := by
  have hsound := sound_of_reaches hs
  generalize hr : (t, Answer.lent h) = r at hstep
  obtain ⟨rfl, ha⟩ : r.1 = t ∧ r.2 = .lent h := by rw [← hr]; exact ⟨rfl, rfl⟩
  cases hsound.moves hstep with
  | call hserved => exact ⟨_, rfl, hserved.lent hsound ha⟩
  | resume hw hserved =>
    obtain ⟨hconn, hlive, hexcl, hrest⟩ := hserved.lent (hsound.unwait _) ha
    exact ⟨_, hw, hconn, hlive, hexcl, hrest⟩
  | wake => cases ha
  | destroy => cases ha
  | destroyClosed => cases ha
  | close => cases ha
  | tick => cases ha

/-- A connection is returned, and ten seconds pass. -/
def sampleReturn : List Event := [.getConnection sampleEndpoints.1 true, .destroy 0 0, .tick 10]

theorem lent_is_exclusive_after_return :
    ∃ s t h, (machine {}).run initial sampleReturn = some s ∧
      step {} s (.getConnection sampleEndpoints.1 false) = some (t, .lent h) ∧
      ∃ endpoint, requested s (.getConnection sampleEndpoints.1 false) = some endpoint ∧
        SafelyLent {} s endpoint h t :=
  ⟨_, _, _, rfl, rfl, lent_is_exclusive ⟨sampleReturn, rfl⟩ rfl⟩

end Kaiten.ConnectionPool
