import Kunstkammer.Cards.Traces
import Kunstkammer.Listing.QueryText
import Kunstkammer.Pool.SingleClient
import Kunstkammer.Startup

/-!
# A run over its client

The modes know a server that answers; what they have is an `Http_client` with its pool, and the
network behind it.

* `Link`, `Wire`: what all calls of a run share, and the client after some of them;
* `Link.perform`: a call; `Link.server`: the client, as the server that the modes know;
* `Delivers`: calls that lead from one state of the client to another, each of which returns;
* `Carries`: the calls behind an exchange of the log; `DeliveredBy`: those behind a whole log;
* `log_delivered`: the log of a run is what its client was asked and has answered;
* `one_connection`: its pool never has more than one connection, and nobody waits for it.
-/

namespace Kaiten.Main

open HttpClient ConnectionPool

/-! ### The client as a server -/

/-- What all calls of a run share: the endpoint, the token, the version string of the library, and
how the network treats the first call, the second one, and so on. -/
structure Link where
  endpoint : ConnectionPool.Endpoint
  token : Str
  userAgent : Str
  courses : ℕ → Course

/-- The client, and the number of its calls so far. -/
structure Wire where
  client : Client
  calls : ℕ

/-- The client at the start of the program. -/
def Wire.initial : Wire := ⟨.initial, 0⟩

namespace Link

variable (link : Link)

/-- A call, when its turn comes.  A call that does not return has no answer; in a run there is none,
since the client comes through all its calls (`DeliveredBy.run`). -/
def perform (call : Call) (s : Wire) : (ℤ × Str) × Wire :=
  match (client {} link.userAgent).step s.client (call, link.courses s.calls) with
  | some (t, answer) => (answer, ⟨t, s.calls + 1⟩)
  | none => ((-1, []), s)

/-- The client after some calls. -/
def performAll (calls : List Call) (s : Wire) : Wire :=
  calls.foldl (fun s call => (link.perform call s).2) s

variable {Text : Type} (json : NlohmannText Text) (text : Str → Text) (apiPath : Str)

/-- A request of the modes as a call. -/
def requestCall : Request Text → Call
  | .get target => .get link.endpoint target link.token
  | .post target body => .post link.endpoint target (json.bytes body) link.token
  | .patch target body => .patch link.endpoint target (json.bytes body) link.token

/-- The call for a page of users. -/
def usersCall (q : Query UserFilterParams) : Call :=
  .get link.endpoint (usersTarget apiPath q) link.token

/-- The page of users that is asked for as number `k` of its listing. -/
def pageCall (k : ℕ) : Call := link.usersCall apiPath (UserOperations.pageQuery 100 {} k)

/-- An answer of the client as the modes read it. -/
def reply (answer : ℤ × Str) : ℤ × Text := (answer.1, text answer.2)

/-- The number of the page that a query asks for. -/
def pageNumber (q : Query UserFilterParams) : ℕ := (q.offset.getD 0 / q.limit).toNat

/-- What a listing reads as the page of a query: it is asked for after the pages before it. -/
def usersPage (s : Wire) (q : Query UserFilterParams) : ℤ × Text :=
  let s := link.performAll ((List.range (pageNumber q)).map (link.pageCall apiPath)) s
  reply text (link.perform (link.usersCall apiPath q) s).1

/-- The client, as the server of the modes. -/
def server : Server Wire Text where
  answer s request :=
    let (answer, t) := link.perform (link.requestCall json request) s
    (reply text answer, t)
  users s :=
    let page := link.usersPage text apiPath s
    (page, link.performAll ((userListing json page).requests.map (link.usersCall apiPath)) s)

end Link

/-! ### Deliveries -/

section Deliveries

/-- What a delivery does to the pool. -/
def Delivery.events {userAgent : Str} (d : Delivery userAgent) : List ConnectionPool.Event :=
  poolEvents d.call.1.endpoint d.call.2 d.exchange

/-- The deliveries lead from `s` to `t`: the client comes through their calls with their answers,
the network treats them as their turn is, they leave the exchanges, and the pool stays calm. -/
structure Delivers (link : Link) (s : Wire) (ds : List (Delivery link.userAgent)) (t : Wire) :
    Prop where
  run : (client {} link.userAgent).run s.client (ds.map Delivery.call) = some t.client
  answers : (client {} link.userAgent).outputs s.client (ds.map Delivery.call) =
    ds.map Delivery.answer
  courses : ds.map (fun d => d.call.2) = (List.range' s.calls ds.length).map link.courses
  exchanges : t.client.exchanges = s.client.exchanges ++ ds.filterMap Delivery.exchange
  calls : t.calls = s.calls + ds.length
  ready : Ready link.endpoint t.client
  pool : CalmRun {} link.endpoint (ds.flatMap Delivery.events) s.client.pool t.client.pool

variable {link : Link}

theorem Delivers.nil {s : Wire} (hs : Ready link.endpoint s.client) : Delivers link s [] s where
  run := rfl
  answers := rfl
  courses := rfl
  exchanges := (List.append_nil _).symm
  calls := rfl
  ready := hs
  pool := .nil hs.calm

theorem Delivers.append {s t u : Wire} {ds ds' : List (Delivery link.userAgent)}
    (h : Delivers link s ds t) (h' : Delivers link t ds' u) : Delivers link s (ds ++ ds') u where
  run := by rw [List.map_append, Machine.run_append h.run, h'.run]
  answers := by
    rw [List.map_append, Machine.outputs_append h.run, h.answers, h'.answers, List.map_append]
  courses := by
    rw [List.map_append, h.courses, h'.courses, h.calls, List.length_append, ← List.map_append,
      List.range'_append_1]
  exchanges := by rw [h'.exchanges, h.exchanges, List.append_assoc, List.filterMap_append]
  calls := by rw [h'.calls, h.calls, List.length_append, Nat.add_assoc]
  ready := h'.ready
  pool := by
    rw [List.flatMap_append]
    exact h.pool.append h'.pool

/-- A call for the endpoint is one delivery. -/
theorem perform_delivers {s : Wire} (hs : Ready link.endpoint s.client) {call : Call}
    (hcall : call.endpoint = link.endpoint) : ∃ d : Delivery link.userAgent,
      d.call.1 = call ∧ d.answer = (link.perform call s).1 ∧
        Delivers link s [d] (link.perform call s).2 := by
  have hmax : 0 < ({} : ConnectionPool.Config).maxConnections := by decide
  obtain ⟨t, answer, hstep, hready, hpool⟩ :=
    hs.step hmax link.userAgent (x := (call, link.courses s.calls)) hcall
  obtain ⟨ex, hanswers, hprevious, hexchanges⟩ := client_step hs.rested hstep
  have hperform : link.perform call s = (answer, ⟨t, s.calls + 1⟩) := by
    unfold Link.perform
    rw [hstep]
  rw [hperform]
  refine ⟨⟨_, ex, answer, hanswers⟩, rfl, rfl, ?_, ?_, rfl, ?_, rfl, hready, ?_⟩
  · exact Machine.run_cons_of_next (Machine.next_eq_some.2 ⟨answer, hstep⟩) []
  · exact Machine.outputs_cons_of_step hstep []
  · rw [hexchanges]
    cases ex with
    | none => rfl
    | some y => rfl
  · rw [hprevious] at hpool
    rwa [List.flatMap_singleton]

/-- Calls for the endpoint are one delivery each, each answered after those before it. -/
theorem performAll_delivers {s : Wire} (hs : Ready link.endpoint s.client) (call : ℕ → Call)
    (hcall : ∀ k, (call k).endpoint = link.endpoint) (m : ℕ) :
    ∃ ds : List (Delivery link.userAgent),
      ds.map (fun d => d.call.1) = (List.range m).map call ∧
      ds.map Delivery.answer = (List.range m).map (fun k =>
        (link.perform (call k) (link.performAll ((List.range k).map call) s)).1) ∧
      Delivers link s ds (link.performAll ((List.range m).map call) s) := by
  induction m with
  | zero => exact ⟨[], rfl, rfl, .nil hs⟩
  | succ m ih =>
    obtain ⟨ds, hcalls, hanswers, hds⟩ := ih
    obtain ⟨d, hd, hanswer, hlast⟩ := perform_delivers hds.ready (hcall m)
    refine ⟨ds ++ [d], ?_, ?_, ?_⟩
    · rw [List.map_append, hcalls, List.range_succ, List.map_append, List.map_singleton, hd,
        List.map_singleton]
    · rw [List.map_append, hanswers, List.range_succ, List.map_append, List.map_singleton, hanswer,
        List.map_singleton]
    · have hall : link.performAll ((List.range (m + 1)).map call) s =
          (link.perform (call m) (link.performAll ((List.range m).map call) s)).2 := by
        rw [List.range_succ, List.map_append, List.map_singleton]
        exact List.foldl_append ..
      rw [hall]
      exact hds.append hlast

end Deliveries

/-! ### The log -/

section Log

variable {Text : Type} (link : Link) (json : NlohmannText Text) (text : Str → Text) (apiPath : Str)

/-- The pages of a listing, as its calls were answered. -/
def pagesOf {userAgent : Str} (ds : List (Delivery userAgent)) (q : Query UserFilterParams) :
    ℤ × Text :=
  Link.reply text ((ds.map Delivery.answer).getD (Link.pageNumber q) (-1, []))

/-- The deliveries behind an exchange of the log: one for a request, whose answer is the response;
and one for each page of the listing that their answers make. -/
inductive Carries : Exchange Text → List (Delivery link.userAgent) → Prop
  | request (request : Request Text) (d : Delivery link.userAgent)
      (hcall : d.call.1 = link.requestCall json request) :
      Carries (.request request (Link.reply text d.answer)) [d]
  | users (ds : List (Delivery link.userAgent))
      (hcalls : ds.map (fun d => d.call.1) =
        (userListing json (pagesOf text ds)).requests.map (link.usersCall apiPath)) :
      Carries (.users (userListing json (pagesOf text ds)).requests) ds

variable {link json text apiPath}

theorem pageNumber_pageQuery (k : ℕ) :
    Link.pageNumber (UserOperations.pageQuery 100 {} k) = k := by
  show (((if ((k * 100 : ℕ) : ℤ) > 0 then some ((k * 100 : ℕ) : ℤ) else none).getD 0) /
    ((100 : ℕ) : ℤ)).toNat = k
  split_ifs with hpos
  · rw [Option.getD_some]
    omega
  · rw [Option.getD_none]
    omega

theorem usersPage_pageQuery (s : Wire) (k : ℕ) :
    link.usersPage text apiPath s (UserOperations.pageQuery 100 {} k) =
      Link.reply text (link.perform (link.pageCall apiPath k)
        (link.performAll ((List.range k).map (link.pageCall apiPath)) s)).1 := by
  unfold Link.usersPage
  rw [pageNumber_pageQuery]
  rfl

/-- The pages that were asked for are those of their answers. -/
theorem pagesOf_pageQuery {ds : List (Delivery link.userAgent)} {m : ℕ} {answer : ℕ → ℤ × Str}
    (h : ds.map Delivery.answer = (List.range m).map answer) {k : ℕ} (hk : k < m) :
    pagesOf text ds (UserOperations.pageQuery 100 {} k) = Link.reply text (answer k) := by
  unfold pagesOf
  rw [pageNumber_pageQuery, h, List.getD_eq_getElem?_getD, List.getElem?_map,
    List.getElem?_range hk, Option.map_some, Option.getD_some]

/-- An exchange with the client is carried by deliveries of its own. -/
theorem carries_of_step {s t : Wire} {e : Exchange Text} (hs : Ready link.endpoint s.client)
    (h : ServerStep json (link.server json text apiPath) s e t) :
    ∃ ds, Carries link json text apiPath e ds ∧ Delivers link s ds t := by
  cases h with
  | request request =>
    have hend : (link.requestCall json request).endpoint = link.endpoint := by
      cases request <;> rfl
    obtain ⟨d, hd, hanswer, hdelivers⟩ := perform_delivers hs hend
    refine ⟨[d], ?_, hdelivers⟩
    have hresponse : ((link.server json text apiPath).answer s request).1 =
        Link.reply text d.answer := by
      rw [hanswer]
      rfl
    rw [hresponse]
    exact .request request d hd
  | users =>
    obtain ⟨m, hm⟩ : ∃ m, (userListing json (link.usersPage text apiPath s)).requests =
        (List.range m).map (UserOperations.pageQuery 100 {}) :=
      UserOperations.requests_getAllUsers (by decide) (by decide) intMax
    have hcalls : (userListing json (link.usersPage text apiPath s)).requests.map
        (link.usersCall apiPath) = (List.range m).map (link.pageCall apiPath) := by
      rw [hm, List.map_map]
      rfl
    obtain ⟨ds, hds, hanswers, hdelivers⟩ :=
      performAll_delivers hs (link.pageCall apiPath) (fun _ => rfl) m
    -- the listing reads the answers of these calls, and nothing else
    have hlisting : userListing json (pagesOf text ds) =
        userListing json (link.usersPage text apiPath s) := by
      refine UserOperations.getAllUsers_congr fun q hq => ?_
      have hrange : q ∈ (List.range m).map (UserOperations.pageQuery 100 {}) := hm ▸ hq
      obtain ⟨k, hk, rfl⟩ := List.mem_map.1 hrange
      rw [pagesOf_pageQuery hanswers (List.mem_range.1 hk), usersPage_pageQuery]
    have hstate : ((link.server json text apiPath).users s).2 =
        link.performAll ((List.range m).map (link.pageCall apiPath)) s := by
      rw [← hcalls]
      rfl
    rw [hstate]
    refine ⟨ds, ?_, hdelivers⟩
    show Carries link json text apiPath
      (.users (userListing json (link.usersPage text apiPath s)).requests) ds
    rw [← hlisting]
    refine .users ds ?_
    rw [hlisting, hcalls, hds]

/-- So are the exchanges of a whole log. -/
theorem carries_of_trace {s t : Wire} {es : List (Exchange Text)}
    (hs : Ready link.endpoint s.client)
    (h : Effects.Trace (ServerStep json (link.server json text apiPath)) s es t) :
    ∃ dss, List.Forall₂ (Carries link json text apiPath) es dss ∧
      Delivers link s dss.flatten t := by
  induction h with
  | nil => exact ⟨[], .nil, .nil hs⟩
  | cons hstep _ ih =>
    obtain ⟨ds, hds, hfirst⟩ := carries_of_step hs hstep
    obtain ⟨dss, hdss, hrest⟩ := ih hfirst.ready
    exact ⟨ds :: dss, .cons hds hdss, hfirst.append hrest⟩

end Log

/-! ### Runs of the program -/

section Runs

variable {Text : Type} (json : NlohmannText Text) (text : Str → Text)

theorem traces_run {σ : Type} (server : Server σ Text) (apiPath : Str) (config : Config)
    (mode : Mode Text) : TracesServer json server (mode.run json server apiPath config) := by
  cases mode with
  | createCard title size parent tagsCsv => exact traces_handleCreateCard config title size _ _
  | getCard cardNumber => exact (traces_getCard cardNumber).bind fun _ => .pure _
  | backlog file => exact traces_handleBacklog config file

/-- The link of a configuration. -/
def Link.of (config : Config) (host userAgent : Str) (courses : ℕ → Course) : Link :=
  ⟨⟨host, config.port⟩, config.token, userAgent, courses⟩

/-- The end of a run of the program over its client. -/
def Mode.over (config : Config) (host apiPath userAgent : Str) (courses : ℕ → Course)
    (mode : Mode Text) (readings : ℕ → Reading) : World Wire Text :=
  let link := Link.of config host userAgent courses
  Effects.state (mode.run json (link.server json text apiPath) apiPath config
    (World.initial .initial readings))

/-- The deliveries behind a whole log: they carry its exchanges, in their order; the network treats
them as their turn is; the client comes from its start through all their calls, each of which
returns its answer, to `t`; and their exchanges are all it has written to its streams. -/
structure DeliveredBy (link : Link) (apiPath : Str) (log : List (Exchange Text)) (t : Client)
    (dss : List (List (Delivery link.userAgent))) : Prop where
  carries : List.Forall₂ (Carries link json text apiPath) log dss
  courses : dss.flatten.map (fun d => d.call.2) =
    (List.range dss.flatten.length).map link.courses
  run : (client {} link.userAgent).run .initial (dss.flatten.map Delivery.call) = some t
  answers : (client {} link.userAgent).outputs .initial (dss.flatten.map Delivery.call) =
    dss.flatten.map Delivery.answer
  exchanges : dss.flatten.filterMap Delivery.exchange = t.exchanges

variable (config : Config) (host apiPath userAgent : Str) (courses : ℕ → Course)
  (mode : Mode Text) (readings : ℕ → Reading)

theorem delivers_over : ∃ dss : List (List (Delivery userAgent)),
    DeliveredBy json text (.of config host userAgent courses) apiPath
      (mode.over json text config host apiPath userAgent courses readings).log
      (mode.over json text config host apiPath userAgent courses readings).server.client dss ∧
    Delivers (.of config host userAgent courses) .initial dss.flatten
      (mode.over json text config host apiPath userAgent courses readings).server := by
  let link := Link.of config host userAgent courses
  obtain ⟨es, hes, htrace⟩ := traces_run json (link.server json text apiPath) apiPath config mode
    (World.initial .initial readings)
  have hlog : (mode.over json text config host apiPath userAgent courses readings).log = es := hes
  rw [hlog]
  obtain ⟨dss, hdss, hdelivers⟩ := carries_of_trace (ready_initial link.endpoint) htrace
  refine ⟨dss, ⟨hdss, ?_, hdelivers.run, hdelivers.answers, hdelivers.exchanges.symm⟩, hdelivers⟩
  rw [hdelivers.courses, List.range_eq_range']
  rfl

/-- **The log of a run is what its client was asked and has answered**: the exchanges of the log
are carried, in their order, by calls of the client to the endpoint of the configuration, with its
token; the client comes through all of them, with the answers that are read; and what it writes to
its streams are the messages of these calls, each at most once. -/
theorem log_delivered : ∃ dss : List (List (Delivery userAgent)),
    DeliveredBy json text (.of config host userAgent courses) apiPath
      (mode.over json text config host apiPath userAgent courses readings).log
      (mode.over json text config host apiPath userAgent courses readings).server.client dss := by
  obtain ⟨dss, hdss, -⟩ :=
    delivers_over json text config host apiPath userAgent courses mode readings
  exact ⟨dss, hdss⟩

/-- **A run needs one connection**: the pool goes through what the calls behind its log do to it,
one after the other; nobody ever waits for a connection, there is never more than one, and all are
given back. -/
theorem one_connection : ∃ dss : List (List (Delivery userAgent)),
    DeliveredBy json text (.of config host userAgent courses) apiPath
      (mode.over json text config host apiPath userAgent courses readings).log
      (mode.over json text config host apiPath userAgent courses readings).server.client dss ∧
    (machine {}).run initial (dss.flatten.flatMap Delivery.events) =
      some (mode.over json text config host apiPath userAgent courses
        readings).server.client.pool ∧
    (machine {}).Always (fun s => s.blocked = [] ∧ s.woken = [] ∧ s.pool.all.length ≤ 1 ∧ Books s)
      initial (dss.flatten.flatMap Delivery.events) ∧
    (mode.over json text config host apiPath userAgent courses
      readings).server.client.pool.handles = [] := by
  obtain ⟨dss, hdss, hdelivers⟩ :=
    delivers_over json text config host apiPath userAgent courses mode readings
  refine ⟨dss, hdss, hdelivers.pool.run, hdelivers.pool.calm.imp fun s hs => ?_,
    hdelivers.ready.rested.vacant.handles⟩
  exact ⟨hs.blocked, hs.woken, hs.connections, hs.one.books⟩

end Runs

end Kaiten.Main
