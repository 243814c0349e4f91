import Kunstkammer.Pool.Capacity

/-!
# `Http_client`

`Http_client::get`, `post` and `patch` one after the other over a pool of their own.  A request
takes a connection, writes its message, reads the answer and destroys the handle; an exception in
between destroys the handle as well, and nothing invalidates it.

* `Message`, `Call`: what is sent;
* `Course`: how a request goes, as far as the network, the clock and the scheduler decide;
* `exchange`, `client`: a request, and the machine of a client, whose state records the exchanges;
* `Vacant`, `Holding`: the pool between two requests and during an exchange;
* `always_unbroken_iff`: no stream is used again after a failure on it as long as no request
  follows a failed one to the same endpoint within the timeout.
-/

namespace Kaiten.HttpClient

open ConnectionPool

/-! ### Requests -/

inductive Verb
  | get
  | post
  | patch
  deriving DecidableEq

/-- A request message. -/
structure Message where
  verb : Verb
  target : Str
  fields : List (Str × Str)
  body : Str
  deriving DecidableEq

/-- The message of `post` and `patch`; `userAgent` is the version string of the library. -/
def payloadMessage (verb : Verb) (userAgent host target body token : Str) : Message where
  verb := verb
  target := target
  fields := [(lit "Host", host), (lit "User-Agent", userAgent),
    (lit "Content-Type", lit "application/json"), (lit "Accept", lit "application/json"),
    (lit "Authorization", lit "Bearer " ++ token)]
  body := body

/-- The message of `post`. -/
def postMessage (userAgent host target body token : Str) : Message :=
  payloadMessage .post userAgent host target body token

/-- The message of `patch`. -/
def patchMessage (userAgent host target body token : Str) : Message :=
  payloadMessage .patch userAgent host target body token

/-- The message of `get`: without a token, it carries no authorization. -/
def getMessage (host target token : Str) : Message where
  verb := .get
  target := target
  fields := [(lit "Host", host), (lit "User-Agent", lit "curl/7.81.0"),
    (lit "Accept", lit "application/json")] ++
      if token = [] then [] else [(lit "Authorization", lit "Bearer " ++ token)]
  body := []

/-- A call of one of the request methods. -/
inductive Call
  | post (endpoint : Endpoint) (target body token : Str)
  | get (endpoint : Endpoint) (target token : Str)
  | patch (endpoint : Endpoint) (target body token : Str)

def Call.endpoint : Call → Endpoint
  | .post endpoint .. => endpoint
  | .get endpoint .. => endpoint
  | .patch endpoint .. => endpoint

def Call.message (userAgent : Str) : Call → Message
  | .post endpoint target body token => postMessage userAgent endpoint.host target body token
  | .get endpoint target token => getMessage endpoint.host target token
  | .patch endpoint target body token => patchMessage userAgent endpoint.host target body token

/-- How a request goes: the time before it asks the pool, with the wait of the rate limiter;
whether a new connection succeeds; the spurious wakes of a wait, with the time before each; the
time of the exchange; and the status and the body read, or none if the write or the read throws. -/
structure Course where
  before : ℕ := 0
  connects : Bool := true
  wakes : List ℕ := []
  during : ℕ := 0
  reply : Option (ℤ × Str)

/-- One use of a stream. -/
structure Exchange where
  stream : Stream
  message : Message
  broke : Bool

/-- Wait for a connection.  Nobody else returns one, so only spurious wakes end the wait; without
any left, the call does not return. -/
def await (c : ConnectionPool.Config) (connects : Bool) :
    List ℕ → State × Answer → Option (State × Answer)
  | [], (_, .waits) => none
  | d :: wakes, (s, .waits) =>
      ((machine c).run s [.tick d, .wake 0]).bind fun s =>
        (step c s (.resume 0 connects)).bind (await c connects wakes)
  | _, r => some r

/-- A request: the pool after it, the exchange if there was one, and what is returned.  The handle
is destroyed on both paths, before the exception is handled. -/
def exchange (c : ConnectionPool.Config) (s : State) (endpoint : Endpoint) (message : Message)
    (course : Course) :
    Option (State × Option Exchange × ℤ × Str) :=
  ((machine c).next s (.tick course.before)).bind fun s =>
    (step c s (.getConnection endpoint course.connects)).bind fun r =>
      (await c course.connects course.wakes r).bind fun
        | (s, .lent h) => ((machine c).run s [.tick course.during, .destroy 0 0]).map fun s =>
            (s, some ⟨h.stream, message, course.reply.isNone⟩, course.reply.getD (-1, []))
        | (s, _) => some (s, none, -1, [])

/-- A client: its pool, and for observation the exchanges so far and the one of the previous
request. -/
structure Client where
  pool : State
  exchanges : List Exchange
  previous : Option Exchange

/-- A client that has made no request. -/
def Client.initial : Client := ⟨ConnectionPool.initial, [], none⟩

/-- The machine of a client. -/
def client (c : ConnectionPool.Config) (userAgent : Str) :
    Machine Client (Call × Course) (ℤ × Str) where
  step s x :=
    (exchange c s.pool x.1.endpoint (x.1.message userAgent) x.2).map fun r =>
      (⟨r.1, s.exchanges ++ r.2.1.toList, r.2.1⟩, r.2.2)

/-! ### The pool during a request -/

/-- Nobody has a handle; `idle` is the idle queue, and the callers `blocked` wait. -/
structure Vacant (s : State) (idle : List ℕ) (blocked : List Endpoint) : Prop where
  sound : Sound s
  handles : s.handles = []
  idle : s.pool.idle = idle
  blocked : s.blocked = blocked
  woken : s.woken = []

/-- `h` is the only handle, and the idle queue is empty. -/
structure Holding (s : State) (h : PooledConnection) : Prop where
  sound : Sound s
  handles : s.handles = [h]
  idle : s.pool.idle = []
  blocked : s.blocked = []
  woken : s.woken = []
  mem : h.stream.id ∈ s.pool.all
  entry : (s.pool.info h.stream.id).stream = h.stream

/-- A request for a connection that finds no idle one: the streams from `n` on are new. -/
inductive Settled (n : ℕ) (endpoint : Endpoint) : State × Answer → Prop
  | lent {s : State} {h : PooledConnection} (hs : Holding s h) (hnew : n ≤ h.stream.id)
      (hend : h.stream.endpoint = endpoint) : Settled n endpoint (s, .lent h)
  | failed {s : State} (hs : Vacant s [] []) (hn : n ≤ s.pool.next) :
      Settled n endpoint (s, .failed)
  | waits {s : State} (hs : Vacant s [] [endpoint]) (hn : n ≤ s.pool.next) :
      Settled n endpoint (s, .waits)

section Request

variable {c : ConnectionPool.Config} {s : State} {idle : List ℕ} {endpoint : Endpoint}
  {connects : Bool} {n : ℕ}

theorem Vacant.tick (hs : Vacant s idle []) (d : ℕ) :
    Vacant { s with clock := s.clock + d } idle [] :=
  ⟨hs.sound.frame rfl rfl rfl, hs.handles, hs.idle, hs.blocked, hs.woken⟩

/-- The search of a caller that finds nothing empties the idle queue. -/
theorem Vacant.searched (hs : Vacant s idle []) (c : ConnectionPool.Config) :
    Vacant (searched c s []) [] [] :=
  ⟨hs.sound.searched c (List.nil_sublist _), hs.handles, rfl, hs.blocked, hs.woken⟩

theorem Vacant.create (hs : Vacant s [] []) (hn : n ≤ s.pool.next) :
    Settled n endpoint (createNewConnection s endpoint connects) := by
  cases connects with
  | false => exact .failed hs hn
  | true =>
    have hsound := hs.sound.create endpoint true
    rw [createNewConnection_true] at hsound ⊢
    refine .lent ⟨hsound, ?_, hs.idle, hs.blocked, hs.woken, ?_, ?_⟩ hn rfl
    · show s.handles ++ [_] = _
      rw [hs.handles, addEntry_info_self]
      rfl
    · exact List.mem_append_right _ (List.mem_singleton_self _)
    · rw [lend_info_self, addEntry_info_self]

theorem Vacant.settled (hs : Vacant s idle []) (hn : n ≤ s.pool.next)
    (hno : NoMatch (cleaned c s) endpoint) {resumed : Bool} {r : State × Answer}
    (h : Served c resumed s endpoint connects r) : Settled n endpoint r := by
  cases h with
  | lends pre p rest hidle hpre hp =>
    refine absurd hp (hno p ?_)
    rw [hidle]; exact List.mem_append_cons_self
  | creates => exact (hs.searched c).create hn
  | waits =>
    refine .waits ⟨(hs.searched c).sound.frame rfl rfl rfl, hs.handles, rfl, ?_, hs.woken⟩ hn
    show s.blocked ++ [endpoint] = _
    rw [hs.blocked, List.nil_append]

/-- A spurious wake lets the caller look again. -/
theorem Settled.await {r r' : State × Answer} {wakes : List ℕ} (h : Settled n endpoint r)
    (hr : await c connects wakes r = some r') : Settled n endpoint r' ∧ r'.2 ≠ .waits := by
  induction wakes generalizing r with
  | nil =>
    cases h with
    | lent hs hnew hend => cases hr; exact ⟨.lent hs hnew hend, nofun⟩
    | failed hs hn => cases hr; exact ⟨.failed hs hn, nofun⟩
    | waits => cases hr
  | cons d wakes ih =>
    cases h with
    | lent hs hnew hend => cases hr; exact ⟨.lent hs hnew hend, nofun⟩
    | failed hs hn => cases hr; exact ⟨.failed hs hn, nofun⟩
    | @waits s hs hn =>
      -- the state in which the woken caller tests its predicate again
      let s' : State := { s with clock := s.clock + d, blocked := [], woken := [] }
      have hrun : (machine c).run s [.tick d, .wake 0] =
          some { s with clock := s.clock + d, blocked := [], woken := [endpoint] } := by
        obtain ⟨-, -, -, hblocked, hwoken⟩ := hs
        obtain ⟨pool, clock, handles, blocked, woken, since⟩ := s
        dsimp only at hblocked hwoken
        subst hblocked hwoken
        rfl
      have hs' : Vacant s' [] [] := ⟨hs.sound.frame rfl rfl rfl, hs.handles, hs.idle, rfl, rfl⟩
      have hno : NoMatch (cleaned c s') endpoint := fun p hp => by
        rw [cleanup_idle hs'.sound.idle_unused, hs'.idle] at hp
        cases hp
      rw [HttpClient.await, hrun, Option.bind_some] at hr
      obtain ⟨r'', hr'', hr⟩ := Option.bind_eq_some_iff.1 hr
      obtain rfl : awaitConnection c s' endpoint connects = r'' := Option.some.inj hr''
      exact ih (hs'.settled hn hno (served_awaitConnection hs'.sound.idle_unused)) hr

theorem notifyOne_of_blocked_nil (h : s.blocked = []) (pick : ℕ) : notifyOne pick s = s := by
  unfold notifyOne
  rw [h]
  rfl

theorem Holding.tick {h : PooledConnection} (hs : Holding s h) (d : ℕ) :
    Holding { s with clock := s.clock + d } h :=
  ⟨hs.sound.frame rfl rfl rfl, hs.handles, hs.idle, hs.blocked, hs.woken, hs.mem, hs.entry⟩

theorem Holding.next_destroy {h : PooledConnection} (hs : Holding s h) :
    (machine c).next s (.destroy 0 0) = some (giveBack (dropHandle s 0) h.stream.id) := by
  have hi : s.handles[0]? = some h := by rw [hs.handles]; rfl
  have hreturn : returnConnection (dropHandle s 0) h 0 = giveBack (dropHandle s 0) h.stream.id := by
    rw [hs.sound.returnConnection_dropHandle hi, if_pos hs.mem]
    exact notifyOne_of_blocked_nil
      (show (giveBack (dropHandle s 0) _).blocked = [] from hs.blocked) 0
  refine Machine.next_eq_some.2 ⟨.done, ?_⟩
  show s.handles[0]?.map _ = _
  rw [hi, Option.map_some, hreturn]

/-- The handle is destroyed at the end of the exchange. -/
theorem Holding.release {h : PooledConnection} (hs : Holding s h) (d : ℕ) :
    ∃ t, (machine c).run s [.tick d, .destroy 0 0] = some t ∧ Vacant t [h.stream.id] [] ∧
      (t.pool.info h.stream.id).lastUsed = t.clock ∧
      (t.pool.info h.stream.id).endpoint = h.stream.endpoint ∧ t.pool.next = s.pool.next := by
  have hs1 := hs.tick d
  have hi : s.handles[0]? = some h := by rw [hs.handles]; rfl
  refine ⟨giveBack (dropHandle { s with clock := s.clock + d } 0) h.stream.id, ?_, ?_, ?_, ?_, rfl⟩
  · rw [Machine.run_cons_of_next (show (machine c).next s (.tick d) = some _ from rfl),
      Machine.run_cons_of_next hs1.next_destroy, Machine.run_nil]
  · refine ⟨hs1.sound.giveBack hi hs.mem, ?_, ?_, hs.blocked, hs.woken⟩
    · show s.handles.eraseIdx 0 = []
      rw [hs.handles]; rfl
    · show s.pool.idle ++ [h.stream.id] = _
      rw [hs.idle]; rfl
  · rw [giveBack_info_self]; rfl
  · rw [giveBack_info_self]
    show (s.pool.info h.stream.id).endpoint = _
    rw [← hs.sound.stream_endpoint _ hs.mem, hs.entry]

/-- The pool after an exchange on `stream`, with the streams from `n` on still new. -/
structure Returned (n : ℕ) (t : State) (stream : Stream) : Prop where
  vacant : Vacant t [stream.id] []
  now : (t.pool.info stream.id).lastUsed = t.clock
  entry : (t.pool.info stream.id).endpoint = stream.endpoint
  next_le : n ≤ t.pool.next

theorem Holding.returned {h : PooledConnection} (hs : Holding s h) (hn : n ≤ s.pool.next) (d : ℕ) :
    ∃ t, (machine c).run s [.tick d, .destroy 0 0] = some t ∧ Returned n t h.stream := by
  obtain ⟨t, hrun, hvacant, hnow, hentry, hnext⟩ := hs.release (c := c) d
  exact ⟨t, hrun, hvacant, hnow, hentry, hnext ▸ hn⟩

theorem Holding.lt_next {h : PooledConnection} (hs : Holding s h) : h.stream.id < s.pool.next :=
  hs.sound.lt_next _ hs.mem

/-- The idle entry `p` is lent at the time `now` to a caller for `endpoint`. -/
def Reusable (c : ConnectionPool.Config) (pool : Pool) (now : ℤ) (endpoint : Endpoint) (p : ℕ) :
    Prop :=
  p ∈ pool.idle ∧ fresh c now pool p = true ∧ (pool.info p).endpoint = endpoint

variable (c endpoint connects) in
/-- Of at most one idle entry, the search finds it when it is reusable, or else nothing. -/
theorem Vacant.getConnection_cases (hs : Vacant s idle []) (hidle : idle.length ≤ 1) :
    (∃ p h, Reusable c s.pool s.clock endpoint p ∧ h.stream = (s.pool.info p).stream ∧
      ∃ t, getConnection c s endpoint connects = (t, .lent h) ∧ Holding t h ∧
        t.pool.next = s.pool.next) ∨
    ((∀ p, ¬ Reusable c s.pool s.clock endpoint p) ∧
      Settled s.pool.next endpoint (getConnection c s endpoint connects)) := by
  have hclean : (cleaned c s).idle = s.pool.idle.filter (fresh c s.clock s.pool) :=
    cleanup_idle hs.sound.idle_unused
  have hserved : Served c false s endpoint connects (getConnection c s endpoint connects) :=
    served_getConnection hs.sound.idle_unused
  by_cases hno : NoMatch (cleaned c s) endpoint
  · refine Or.inr ⟨?_, hs.settled le_rfl hno hserved⟩
    rintro p ⟨hp, hfresh, hend⟩
    refine hno p ?_ hend
    rw [hclean]
    exact List.mem_filter.2 ⟨hp, hfresh⟩
  left
  have hsound := hs.sound.served hserved
  generalize getConnection c s endpoint connects = r at hserved hsound
  cases hserved with
  | creates hnone => exact absurd hnone hno
  | waits hnone => exact absurd hnone hno
  | lends pre p rest heq hpre hp =>
    have hlen : (pre ++ p :: rest).length ≤ 1 := by
      rw [← heq, hclean]
      exact (List.length_filter_le _ _).trans (hs.idle ▸ hidle)
    rw [List.length_append, List.length_cons] at hlen
    obtain rfl : pre = [] := List.length_eq_zero_iff.1 (by omega)
    obtain rfl : rest = [] := List.length_eq_zero_iff.1 (by omega)
    have hmem : p ∈ (cleaned c s).idle := by rw [heq]; exact List.mem_singleton_self p
    have hall := hs.sound.cleaned_idle_mem c hmem
    rw [hclean] at hmem
    obtain ⟨hqueued, hfresh⟩ := List.mem_filter.1 hmem
    have hid := hs.sound.stream_id p (hs.sound.idle_mem p hqueued)
    refine ⟨p, _, ⟨hqueued, hfresh, hp⟩, rfl, _, rfl,
      ⟨hsound, ?_, rfl, hs.blocked, hs.woken, ?_, ?_⟩, rfl⟩
    · show s.handles ++ [_] = _
      rw [hs.handles]; rfl
    · show (s.pool.info p).stream.id ∈ (cleaned c s).all
      rw [hid]; exact hall
    · show ((lend (ConnectionPool.searched c s []) p).1.pool.info
        (s.pool.info p).stream.id).stream = _
      rw [hid, lend_info_self]

/-- A request reuses the one idle stream if it can, and otherwise a new one if any. -/
theorem exchange_cases {message : Message} {course : Course} {t : State} {ex : Option Exchange}
    {answer : ℤ × Str} (hs : Vacant s idle []) (hidle : idle.length ≤ 1)
    (h : exchange c s endpoint message course = some (t, ex, answer)) :
    (∃ p x, Reusable c s.pool (s.clock + course.before) endpoint p ∧ ex = some x ∧
      x.stream = (s.pool.info p).stream ∧ Returned s.pool.next t x.stream) ∨
    ((∀ p, ¬ Reusable c s.pool (s.clock + course.before) endpoint p) ∧
      ((ex = none ∧ Vacant t [] [] ∧ s.pool.next ≤ t.pool.next) ∨
        ∃ x, ex = some x ∧ s.pool.next ≤ x.stream.id ∧ Returned s.pool.next t x.stream)) := by
  unfold exchange at h
  rw [show (machine c).next s (.tick course.before) = some _ from rfl, Option.bind_some,
    show step c _ (.getConnection endpoint course.connects) = some _ from rfl,
    Option.bind_some] at h
  obtain ⟨r, hr, h⟩ := Option.bind_eq_some_iff.1 h
  rcases (hs.tick course.before).getConnection_cases c endpoint course.connects hidle with
    ⟨p, g, hreuse, hstream, u, hget, hhold, hnext⟩ | ⟨hno, hsettled⟩
  · left
    rw [hget] at hr
    have hru : r = (u, .lent g) := by
      cases hw : course.wakes <;> rw [hw] at hr <;> cases hr <;> rfl
    subst hru
    obtain ⟨v, hrun, hret⟩ := hhold.returned (c := c) hnext.ge course.during
    dsimp only at h
    rw [hrun] at h
    cases h
    exact ⟨p, _, hreuse, rfl, hstream, hret⟩
  · refine Or.inr ⟨hno, ?_⟩
    obtain ⟨hsettled, hne⟩ := hsettled.await hr
    cases hsettled with
    | @lent u g hhold hnew hend =>
      obtain ⟨v, hrun, hret⟩ := hhold.returned (c := c) (hnew.trans hhold.lt_next.le) course.during
      dsimp only at h
      rw [hrun] at h
      cases h
      exact Or.inr ⟨_, rfl, hnew, hret⟩
    | failed hvacant hn =>
      cases h
      exact Or.inl ⟨rfl, hvacant, hn⟩
    | waits => exact absurd rfl hne

end Request

/-! ### Runs of a client -/

/-- Between two requests: the idle queue holds the stream of the previous exchange, which was
returned just now. -/
structure Rested (s : Client) : Prop where
  vacant : Vacant s.pool (s.previous.map fun x => x.stream.id).toList []
  now : ∀ x, s.previous = some x → (s.pool.pool.info x.stream.id).lastUsed = s.pool.clock
  entry : ∀ x, s.previous = some x →
    (s.pool.pool.info x.stream.id).endpoint = x.stream.endpoint
  last : ∀ x, s.previous = some x → ∃ xs, s.exchanges = xs ++ [x]
  lt_next : ∀ x ∈ s.exchanges, x.stream.id < s.pool.pool.next

theorem rested_initial : Rested .initial where
  vacant := ⟨sound_initial, rfl, rfl, rfl, rfl⟩
  now _ h := nomatch h
  entry _ h := nomatch h
  last _ h := nomatch h
  lt_next _ h := nomatch h

/-- The request goes to the endpoint of the previous exchange, within the timeout. -/
def Follows (c : ConnectionPool.Config) (s : Client) (x : Call × Course) (y : Exchange) : Prop :=
  s.previous = some y ∧ y.stream.endpoint = x.1.endpoint ∧
    (x.2.before : ℤ) < c.connectionTimeout

section Client

variable {c : ConnectionPool.Config} {userAgent : Str} {s t : Client} {x : Call × Course}

/-- The one idle entry is reusable when the request follows the previous exchange. -/
theorem Rested.reusable_iff (hs : Rested s) (p : ℕ) :
    Reusable c s.pool.pool (s.pool.clock + x.2.before) x.1.endpoint p ↔
      ∃ y, Follows c s x y ∧ p = y.stream.id := by
  unfold Reusable Follows
  rw [hs.vacant.idle]
  cases hprev : s.previous with
  | none => simp
  | some y =>
    simp only [Option.map_some, Option.toList_some, List.mem_singleton, Option.some.injEq]
    constructor
    · rintro ⟨rfl, hfresh, hend⟩
      have hlt := of_decide_eq_true hfresh
      rw [hs.now y hprev] at hlt
      exact ⟨y, ⟨rfl, (hs.entry y hprev).symm.trans hend, by omega⟩, rfl⟩
    · rintro ⟨z, ⟨rfl, hend, hlt⟩, rfl⟩
      refine ⟨rfl, decide_eq_true ?_, (hs.entry _ hprev).trans hend⟩
      rw [hs.now _ hprev]
      omega

/-- The state after an exchange on `stream` is rested. -/
theorem Rested.returned (hs : Rested s) {pool : State} {z : Exchange}
    (hret : Returned s.pool.pool.next pool z.stream) :
    Rested ⟨pool, s.exchanges ++ [z], some z⟩ where
  vacant := hret.vacant
  now _ h := by cases h; exact hret.now
  entry _ h := by cases h; exact hret.entry
  last _ h := by cases h; exact ⟨_, rfl⟩
  lt_next y hy := by
    rcases List.mem_append.1 hy with hy | hy
    · exact (hs.lt_next y hy).trans_le hret.next_le
    · obtain rfl := List.mem_singleton.1 hy
      have hsound := hret.vacant.sound
      exact hsound.lt_next _ (hsound.idle_mem _ (hret.vacant.idle ▸ List.mem_singleton_self _))

/-- A request repeats the stream of the previous exchange when it follows it; otherwise its stream
is new to the client. -/
theorem Rested.next_cases (hs : Rested s) (h : (client c userAgent).next s x = some t) :
    Rested t ∧ ((∃ y z, Follows c s x y ∧ t.exchanges = s.exchanges ++ [z] ∧
        z.stream.id = y.stream.id) ∨
      ((∀ y, ¬ Follows c s x y) ∧ (t.exchanges = s.exchanges ∨ ∃ z,
        t.exchanges = s.exchanges ++ [z] ∧ s.pool.pool.next ≤ z.stream.id))) := by
  obtain ⟨answer, hstep⟩ := Machine.next_eq_some.1 h
  obtain ⟨⟨pool, ex, answer'⟩, hex, heq⟩ := Option.map_eq_some_iff.1 hstep
  cases heq
  have hlen : (s.previous.map fun x => x.stream.id).toList.length ≤ 1 := by
    cases s.previous <;> simp
  rcases exchange_cases hs.vacant hlen hex with
    ⟨p, z, hreuse, rfl, hstream, hret⟩ | ⟨hno, hcases⟩
  · -- the stream of the previous exchange
    obtain ⟨y, hfollows, rfl⟩ := (hs.reusable_iff p).1 hreuse
    refine ⟨hs.returned hret, Or.inl ⟨y, z, hfollows, rfl, ?_⟩⟩
    have hsound := hs.vacant.sound
    rw [hstream, hsound.stream_id _ (hsound.idle_mem _ hreuse.1)]
  have hnot : ∀ y, ¬ Follows c s x y := by
    intro y hy
    exact hno _ ((hs.reusable_iff _).2 ⟨y, hy, rfl⟩)
  rcases hcases with ⟨rfl, hvacant, hn⟩ | ⟨z, rfl, hnew, hret⟩
  · -- no stream at all
    have hlt : ∀ y ∈ s.exchanges, y.stream.id < pool.pool.next := by
      intro y hy
      exact (hs.lt_next y hy).trans_le hn
    have hsame : s.exchanges ++ (none : Option Exchange).toList = s.exchanges := List.append_nil _
    rw [← hsame] at hlt
    exact ⟨⟨hvacant, nofun, nofun, nofun, hlt⟩, Or.inr ⟨hnot, Or.inl hsame⟩⟩
  · -- a new stream
    exact ⟨hs.returned hret, Or.inr ⟨hnot, Or.inr ⟨z, rfl, hnew⟩⟩⟩

end Client

/-- No stream is used after an exchange on it broke. -/
def Unbroken (s : Client) : Prop :=
  s.exchanges.Pairwise fun x y => x.broke = true → y.stream.id ≠ x.stream.id

/-- The request follows a broken exchange. -/
def FollowsBroken (c : ConnectionPool.Config) (s : Client) (x : Call × Course) : Prop :=
  ∃ y, Follows c s x y ∧ y.broke = true

theorem unbroken_append_iff {xs : List Exchange} {z : Exchange}
    (h : xs.Pairwise fun x y => x.broke = true → y.stream.id ≠ x.stream.id) :
    (xs ++ [z]).Pairwise (fun x y => x.broke = true → y.stream.id ≠ x.stream.id) ↔
      ∀ x ∈ xs, x.broke = true → z.stream.id ≠ x.stream.id := by
  rw [List.pairwise_append, and_iff_right h, and_iff_right (List.pairwise_singleton _ _)]
  exact forall₂_congr fun x _ => ⟨fun hx => hx z (List.mem_singleton_self z),
    fun hx y hy => by rw [List.mem_singleton.1 hy]; exact hx⟩

theorem unbroken_next_iff {c : ConnectionPool.Config} {userAgent : Str} {s t : Client}
    {x : Call × Course}
    (hs : Rested s) (hu : Unbroken s) (h : (client c userAgent).next s x = some t) :
    Unbroken t ↔ ¬ FollowsBroken c s x := by
  unfold Unbroken
  rcases (hs.next_cases h).2 with ⟨y, z, hfollows, heq, hid⟩ | ⟨hno, heq | ⟨z, heq, hnew⟩⟩
  · have hbroken : FollowsBroken c s x ↔ y.broke = true := by
      constructor
      · rintro ⟨y', hfollows', hy'⟩
        cases hfollows.1.symm.trans hfollows'.1
        exact hy'
      · intro hy
        exact ⟨y, hfollows, hy⟩
    rw [heq, unbroken_append_iff hu, hbroken, hid]
    obtain ⟨xs, hxs⟩ := hs.last y hfollows.1
    have hu' := hu
    rw [Unbroken, hxs, List.pairwise_append] at hu'
    constructor
    · intro hall hy
      exact hall y (by rw [hxs]; exact List.mem_append_right _ (List.mem_singleton_self y)) hy rfl
    · intro hy w hw hwb
      rw [hxs] at hw
      rcases List.mem_append.1 hw with hw | hw
      · exact hu'.2.2 w hw y (List.mem_singleton_self y) hwb
      · rw [List.mem_singleton.1 hw] at hwb
        exact absurd hwb hy
  · rw [heq]
    refine iff_of_true hu ?_
    rintro ⟨y, hy, -⟩
    exact hno y hy
  · -- the stream is new, and those of all earlier exchanges are not
    rw [heq, unbroken_append_iff hu]
    refine iff_of_true ?_ ?_
    · intro w hw _
      exact ((hs.lt_next w hw).trans_le hnew).ne'
    · rintro ⟨y, hy, -⟩
      exact hno y hy

/-- **When no broken stream is used again.** -/
theorem always_unbroken_iff (c : ConnectionPool.Config) (userAgent : Str)
    (xs : List (Call × Course)) :
    (client c userAgent).Always Unbroken .initial xs ↔
      (client c userAgent).Along (fun s x _ => ¬ FollowsBroken c s x) .initial xs :=
  Machine.always_iff_along (I := Rested) (fun _ _ _ hs h => (hs.next_cases h).1)
    (fun _ _ _ hs hu h => unbroken_next_iff hs hu h) rested_initial List.Pairwise.nil xs

/-- A request whose read fails, and one to the same endpoint a second later. -/
theorem broken_stream_reused :
    ∃ s, (client {} []).run .initial [(.get sampleEndpoints.1 [] [], { reply := none }),
        (.get sampleEndpoints.1 [] [], { before := 1, reply := some (200, []) })] = some s ∧
      s.exchanges.map (fun x => (x.stream.id, x.broke)) = [(0, true), (0, false)] ∧
      ¬ Unbroken s := by
  refine ⟨_, rfl, rfl, fun hu => ?_⟩
  exact (List.pairwise_cons.1 hu).1 _ (List.mem_singleton_self _) rfl rfl

end Kaiten.HttpClient
