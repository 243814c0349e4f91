import Kunstkammer.Foundation.Transition
import Kunstkammer.Json

/-!
# The connection pool

`Connection_pool` and `Pooled_connection` of `connection_pool.cpp`, as a machine whose events are
the critical sections of `_pool_mutex`, so that a run is an interleaving of its clients.

* `ConnectionInfo` entries are shared by the idle queue and `_all_connections`; a pointer to one
  is a number, and `Pool.info` is the heap;
* `cleanupExpiredConnections`, `findIdleConnection`, `createNewConnection`, `getConnection`,
  `awaitConnection` (the condition wait), `returnConnection`, `closeAllConnections`, `getStats`;
* `machine`: a caller whose wait is not over stays `blocked` until `notify_one` or a spurious wake
  makes it `woken`; it then takes the lock again and tests its predicate.

The clock is read once per critical section, and passes in `tick`s between them.  Whether a
connection attempt succeeds is part of the event.
-/

namespace Kaiten.ConnectionPool

/-- A host and a port. -/
structure Endpoint where
  host : Str
  port : Str
  deriving DecidableEq

/-- A stream: its identity and what it was connected to. -/
structure Stream where
  id : ℕ
  endpoint : Endpoint
  deriving DecidableEq

/-- A handle, `Pooled_connection`. -/
structure PooledConnection where
  stream : Stream
  endpoint : Endpoint
  valid : Bool := true
  deriving DecidableEq

/-- An entry of the pool, `Connection_info`. -/
structure ConnectionInfo where
  stream : Stream
  endpoint : Endpoint
  lastUsed : ℤ
  inUse : Bool

/-- `_max_connections` and `_connection_timeout`, the latter already in the unit of the clock. -/
structure Config where
  maxConnections : ℕ := 10
  connectionTimeout : ℤ := 300

/-- The members of the pool: the heap of its entries, `_idle_connections` with its front first,
`_all_connections`, and the next pointer to be allocated. -/
structure Pool where
  info : ℕ → ConnectionInfo
  idle : List ℕ
  all : List ℕ
  next : ℕ

/-- Overwrite the entry at `p`. -/
def Pool.set (pool : Pool) (p : ℕ) (i : ConnectionInfo) : Pool :=
  { pool with info := Function.update pool.info p i }

/-- `Stats`. -/
structure Stats where
  activeConnections : ℕ
  idleConnections : ℕ
  totalConnections : ℕ

/-! ### Clean-up and search -/

/-- The entry at `p` was last used less than the timeout ago. -/
def fresh (c : Config) (now : ℤ) (pool : Pool) (p : ℕ) : Bool :=
  now - (pool.info p).lastUsed < c.connectionTimeout

/-- The first loop of `cleanup_expired_connections`: the idle queue is emptied into `valididle`,
and an expired entry is erased from `_all_connections` instead. -/
def sweepIdle (isFresh : ℕ → Bool) : List ℕ → List ℕ → List ℕ → List ℕ × List ℕ
  | [], valididle, all => (valididle, all)
  | p :: idle, valididle, all =>
      if isFresh p then sweepIdle isFresh idle (valididle ++ [p]) all
      else sweepIdle isFresh idle valididle (all.erase p)

/-- `cleanup_expired_connections`; its second loop erases the expired entries that are not in
use. -/
def cleanupExpiredConnections (c : Config) (now : ℤ) (pool : Pool) : Pool :=
  let swept := sweepIdle (fresh c now pool) pool.idle [] pool.all
  { pool with
    idle := swept.1
    all := swept.2.filter fun p => (pool.info p).inUse || fresh c now pool p }

/-- The loop of `find_idle_connection`: entries of other endpoints are popped on the way to the
first match. -/
def popMatching (info : ℕ → ConnectionInfo) (endpoint : Endpoint) :
    List ℕ → Option ℕ × List ℕ
  | [] => (none, [])
  | p :: idle =>
      if (info p).endpoint = endpoint then (some p, idle) else popMatching info endpoint idle

/-- `find_idle_connection`. -/
def findIdleConnection (c : Config) (now : ℤ) (pool : Pool) (endpoint : Endpoint) :
    Option ℕ × Pool :=
  let pool := cleanupExpiredConnections c now pool
  let found := popMatching pool.info endpoint pool.idle
  -- what was popped on the way stays in `_all_connections`
  (found.1, { pool with idle := found.2 })

/-- `get_stats`. -/
def getStats (pool : Pool) : Stats where
  activeConnections := pool.all.countP fun p => (pool.info p).inUse
  idleConnections := pool.idle.length
  totalConnections := pool.all.length

/-! ### The pool and its clients -/

/-- The pool, the time, the live handles and the callers inside the condition wait.  `idleSince`
only observes the run: when each entry was last put into the idle queue. -/
structure State where
  pool : Pool
  clock : ℤ
  handles : List PooledConnection
  blocked : List Endpoint
  woken : List Endpoint
  idleSince : ℕ → ℤ

/-- A pool without connections or clients. -/
def initial : State where
  pool := ⟨fun _ => ⟨⟨0, ⟨[], []⟩⟩, ⟨[], []⟩, 0, false⟩, [], [], 0⟩
  clock := 0
  handles := []
  blocked := []
  woken := []
  idleSince := fun _ => 0

/-- What a critical section answers: `lent` is the status 0, `failed` the status -1. -/
inductive Answer
  | lent (handle : PooledConnection)
  | failed
  | waits
  | done
  deriving DecidableEq

/-- Mark the idle entry at `p` as in use and make a handle for it. -/
def lend (s : State) (p : ℕ) : State × Answer :=
  let i := s.pool.info p
  let handle : PooledConnection := { stream := i.stream, endpoint := i.endpoint }
  ({ s with
      pool := s.pool.set p { i with inUse := true, lastUsed := s.clock }
      handles := s.handles ++ [handle] },
    .lent handle)

/-- The end of `get_connection`: `create_new_connection`, and the entry and the handle for its
stream. -/
def createNewConnection (s : State) (endpoint : Endpoint) (connects : Bool) : State × Answer :=
  if connects then
    let stream : Stream := ⟨s.pool.next, endpoint⟩
    let handle : PooledConnection := { stream, endpoint }
    ({ s with
        pool := { s.pool.set s.pool.next ⟨stream, endpoint, s.clock, true⟩ with
          all := s.pool.all ++ [s.pool.next]
          next := s.pool.next + 1 }
        handles := s.handles ++ [handle] },
      .lent handle)
  else (s, .failed)

/-- Lend an idle connection to `endpoint`, or else go on with `other`. -/
def findOrElse (c : Config) (s : State) (endpoint : Endpoint) (other : State → State × Answer) :
    State × Answer :=
  match findIdleConnection c s.clock s.pool endpoint with
  | (some p, pool) => lend { s with pool } p
  | (none, pool) => other { s with pool }

/-- The predicate of the condition wait, after its clean-up. -/
def available (c : Config) (pool : Pool) : Bool :=
  !pool.idle.isEmpty || pool.all.length < c.maxConnections

/-- The condition wait, with the lock held, and what follows it. -/
def awaitConnection (c : Config) (s : State) (endpoint : Endpoint) (connects : Bool) :
    State × Answer :=
  let pool := cleanupExpiredConnections c s.clock s.pool
  if available c pool then
    -- the capacity is not tested again before a connection is created
    findOrElse c { s with pool } endpoint fun s => createNewConnection s endpoint connects
  else ({ s with pool, blocked := s.blocked ++ [endpoint] }, .waits)

/-- `get_connection`. -/
def getConnection (c : Config) (s : State) (endpoint : Endpoint) (connects : Bool) :
    State × Answer :=
  findOrElse c s endpoint fun s =>
    if c.maxConnections ≤ s.pool.all.length then awaitConnection c s endpoint connects
    else createNewConnection s endpoint connects

/-- The `i`-th blocked caller, `w`, wakes up. -/
def wakeUp (s : State) (i : ℕ) (w : Endpoint) : State :=
  { s with blocked := s.blocked.eraseIdx i, woken := s.woken ++ [w] }

/-- `notify_one`: some blocked caller wakes up, if there is one. -/
def notifyOne (pick : ℕ) (s : State) : State :=
  match s.blocked[pick % s.blocked.length]? with
  | some w => wakeUp s (pick % s.blocked.length) w
  | none => s

/-- Put the entry at `p` into the idle queue. -/
def giveBack (s : State) (p : ℕ) : State :=
  { s with
    pool := { s.pool.set p { s.pool.info p with inUse := false, lastUsed := s.clock } with
      idle := s.pool.idle ++ [p] }
    idleSince := Function.update s.idleSince p s.clock }

/-- `return_connection`: the entry is found by its stream. -/
def returnConnection (s : State) (handle : PooledConnection) (pick : ℕ) : State :=
  if handle.valid then
    match s.pool.all.find? fun p => (s.pool.info p).stream.id = handle.stream.id with
    | some p => notifyOne pick (giveBack s p)
    | none => s -- the pool was closed in the meantime
  else s

/-- The handle at `i` is gone. -/
def dropHandle (s : State) (i : ℕ) : State := { s with handles := s.handles.eraseIdx i }

/-- `close_all_connections`. -/
def closeAllConnections (s : State) : State :=
  { s with pool := { s.pool with all := [], idle := [] } }

/-- What the clients, the network and the scheduler can do. -/
inductive Event
  | getConnection (endpoint : Endpoint) (connects : Bool)
  /-- A spurious wake of the `i`-th blocked caller. -/
  | wake (i : ℕ)
  /-- The `i`-th woken caller takes the lock again. -/
  | resume (i : ℕ) (connects : Bool)
  /-- The `i`-th live handle is destroyed; a notification goes to the caller given by `pick`. -/
  | destroy (i pick : ℕ)
  | closeAllConnections
  | tick (d : ℕ)

/-- One critical section. -/
def step (c : Config) (s : State) : Event → Option (State × Answer)
  | .getConnection endpoint connects => some (getConnection c s endpoint connects)
  | .wake i => s.blocked[i]?.map fun w => (wakeUp s i w, .done)
  | .resume i connects => s.woken[i]?.map fun w =>
      awaitConnection c { s with woken := s.woken.eraseIdx i } w connects
  | .destroy i pick => s.handles[i]?.map fun h =>
      (returnConnection (dropHandle s i) h pick, .done)
  | .closeAllConnections => some (closeAllConnections s, .done)
  | .tick d => some ({ s with clock := s.clock + d }, .done)

/-- The machine of the pool. -/
def machine (c : Config) : Machine State Event Answer := ⟨step c⟩

end Kaiten.ConnectionPool
