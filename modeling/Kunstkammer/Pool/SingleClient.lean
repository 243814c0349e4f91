import Kunstkammer.Pool.Delivery
import Kunstkammer.Pool.SingleEndpoint

/-!
# A client of one host

A client whose calls all go to one endpoint never waits for a connection.

* `CalmRun`: a run of the pool in which nobody waits, and there is at most one connection;
* `exchange_returns`: a request comes to its end in such a run;
* `Ready`, `Ready.step`: between two calls, every further call returns.
-/

namespace Kaiten.HttpClient

open ConnectionPool

variable {c : ConnectionPool.Config} {endpoint : Endpoint}

/-! ### The pool -/

/-- The events lead the pool from `s` to `t` through states in which nobody waits, with at most one
connection and one handle. -/
structure CalmRun (c : ConnectionPool.Config) (endpoint : Endpoint) (es : List Event)
    (s t : State) : Prop where
  run : (machine c).run s es = some t
  calm : (machine c).Always (Calm endpoint 1) s es

theorem CalmRun.nil {s : State} (hs : Calm endpoint 1 s) : CalmRun c endpoint [] s s := ⟨rfl, hs⟩

theorem CalmRun.append {s t u : State} {es fs : List Event} (h : CalmRun c endpoint es s t)
    (h' : CalmRun c endpoint fs t u) : CalmRun c endpoint (es ++ fs) s u where
  run := (Machine.run_append h.run fs).trans h'.run
  calm := h.calm.append h.run h'.calm

/-- One event for the endpoint, which is no call while a handle is alive. -/
theorem CalmRun.single (hc : 0 < c.maxConnections) {s t : State} (hs : Calm endpoint 1 s)
    (e : Event) (he : e.For endpoint) (hcalls : CallsBelow 1 s e)
    (h : (machine c).next s e = some t) : Calm endpoint 1 t ∧ CalmRun c endpoint [e] s t := by
  have ht := hs.next hc he hcalls h
  refine ⟨ht, ?_, hs, fun u hu => ?_⟩
  · rw [Machine.run_cons_of_next h, Machine.run_nil]
  · rw [h] at hu
    cases hu
    exact ht

/-- What a request does to the pool: it asks for a connection, and gives it back when there is an
exchange. -/
def poolEvents (endpoint : Endpoint) (course : Course) (ex : Option Exchange) : List Event :=
  [.tick course.before, .getConnection endpoint course.connects] ++
    if ex.isSome then [.tick course.during, .destroy 0 0] else []

/-- The end of an exchange. -/
theorem Holding.calmRun (hc : 0 < c.maxConnections) {s : State} {h : PooledConnection}
    (hs : Holding s h) (hcalm : Calm endpoint 1 s) (d : ℕ) :
    ∃ t, (machine c).run s [.tick d, .destroy 0 0] = some t ∧ Calm endpoint 1 t ∧
      CalmRun c endpoint [.tick d, .destroy 0 0] s t := by
  obtain ⟨t, hrun, -⟩ := hs.release (c := c) d
  obtain ⟨u, hu, hrun'⟩ := Option.bind_eq_some_iff.1 hrun
  obtain ⟨v, hv, hnil⟩ := Option.bind_eq_some_iff.1 hrun'
  cases hnil
  obtain ⟨hcalm', htick⟩ := CalmRun.single hc hcalm (.tick d) trivial trivial hu
  obtain ⟨hcalm'', hdestroy⟩ := CalmRun.single hc hcalm' (.destroy 0 0) trivial trivial hv
  exact ⟨_, hrun, hcalm'', htick.append hdestroy⟩

/-- A request for the endpoint finds a connection, or fails to connect, without a wait. -/
theorem exchange_returns (hc : 0 < c.maxConnections) {s : State} {idle : List ℕ}
    (hs : Vacant s idle []) (hidle : idle.length ≤ 1) (hcalm : Calm endpoint 1 s)
    (message : Message) (course : Course) :
    ∃ t ex answer, exchange c s endpoint message course = some (t, ex, answer) ∧
      Calm endpoint 1 t ∧ CalmRun c endpoint (poolEvents endpoint course ex) s t := by
  have hvacant := hs.tick course.before
  obtain ⟨hcalm', htick⟩ := CalmRun.single hc hcalm (.tick course.before) trivial trivial rfl
  have hbelow : CallsBelow 1 { s with clock := s.clock + course.before }
      (.getConnection endpoint course.connects) := by
    show s.handles.length < 1
    rw [hs.handles]
    exact Nat.one_pos
  obtain ⟨hcalm'', hget⟩ := CalmRun.single hc hcalm'
    (.getConnection endpoint course.connects) rfl hbelow rfl
  -- the ways the pool may answer
  have hanswer : (∃ u g, getConnection c { s with clock := s.clock + course.before } endpoint
        course.connects = (u, .lent g) ∧ Holding u g) ∨
      ∃ u, getConnection c { s with clock := s.clock + course.before } endpoint
        course.connects = (u, .failed) := by
    rcases hvacant.getConnection_cases c endpoint course.connects hidle with
      ⟨p, g, -, -, u, hu, hhold, -⟩ | ⟨-, hsettled⟩
    · exact Or.inl ⟨u, g, hu, hhold⟩
    · generalize hr : getConnection c { s with clock := s.clock + course.before } endpoint
        course.connects = r at hsettled hcalm''
      cases hsettled with
      | @lent u g hhold => exact Or.inl ⟨u, g, rfl, hhold⟩
      | @failed u => exact Or.inr ⟨u, rfl⟩
      | @waits u hwaits =>
        -- nobody is blocked
        have hblocked : u.blocked = [] := hcalm''.blocked
        rw [hwaits.blocked] at hblocked
        cases hblocked
  have hawait (r : State × Answer) (hr : r.2 ≠ .waits) :
      await c course.connects course.wakes r = some r := by
    obtain ⟨u, answer⟩ := r
    cases answer with
    | waits => exact absurd rfl hr
    | lent g => cases course.wakes <;> rfl
    | failed => cases course.wakes <;> rfl
    | done => cases course.wakes <;> rfl
  unfold exchange
  rw [show (machine c).next s (.tick course.before) = some _ from rfl, Option.bind_some,
    show step c _ (.getConnection endpoint course.connects) = some _ from rfl, Option.bind_some]
  rcases hanswer with ⟨u, g, hu, hhold⟩ | ⟨u, hu⟩
  · rw [hu] at hcalm'' hget
    obtain ⟨t, hrun, hcalmt, hend⟩ := hhold.calmRun hc hcalm'' course.during
    refine ⟨t, some ⟨g.stream, message, course.reply.isNone⟩, course.reply.getD (-1, []), ?_,
      hcalmt, (htick.append hget).append hend⟩
    rw [hu, hawait _ (fun h => by cases h), Option.bind_some]
    dsimp only
    rw [hrun]
    rfl
  · rw [hu] at hcalm'' hget
    refine ⟨u, none, (-1, []), ?_, hcalm'', htick.append hget⟩
    rw [hu, hawait _ (fun h => by cases h)]
    rfl

/-! ### The client -/

/-- Between two calls for the endpoint. -/
structure Ready (endpoint : Endpoint) (s : Client) : Prop where
  rested : Rested s
  calm : Calm endpoint 1 s.pool

theorem ready_initial (endpoint : Endpoint) : Ready endpoint .initial :=
  ⟨rested_initial, oneEndpoint_initial endpoint, rfl, rfl, Nat.zero_le 1, Nat.zero_le 1⟩

/-- Every call for the endpoint returns. -/
theorem Ready.step (hc : 0 < c.maxConnections) (userAgent : Str) {s : Client}
    {x : Call × Course} (hs : Ready endpoint s) (hx : x.1.endpoint = endpoint) :
    ∃ t answer, (client c userAgent).step s x = some (t, answer) ∧ Ready endpoint t ∧
      CalmRun c endpoint (poolEvents x.1.endpoint x.2 t.previous) s.pool t.pool := by
  subst hx
  have hlen : (s.previous.map fun y => y.stream.id).toList.length ≤ 1 := by
    cases s.previous <;> simp
  obtain ⟨pool, ex, answer, hexchange, hcalm, hrun⟩ := exchange_returns hc hs.rested.vacant hlen
    hs.calm (x.1.message userAgent) x.2
  have hstep : (client c userAgent).step s x =
      some (⟨pool, s.exchanges ++ ex.toList, ex⟩, answer) := by
    show (exchange c s.pool x.1.endpoint _ x.2).map _ = _
    rw [hexchange]
    rfl
  have hnext := Machine.next_eq_some.2 ⟨answer, hstep⟩
  exact ⟨_, answer, hstep, ⟨(hs.rested.next_cases hnext).1, hcalm⟩, hrun⟩

end Kaiten.HttpClient
