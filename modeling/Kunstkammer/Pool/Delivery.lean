import Kunstkammer.Pool.HttpClient
import Kunstkammer.Pool.Lending

/-!
# What a client sends, and where

Every call of `get`, `post` or `patch` is answered by one exchange of its own, or by -1.

* `Delivery`: a call, its exchange and its answer, which belong together;
* `exchange_answered`, `client_step`: how one request is answered;
* `calls_delivered`: the calls, the exchanges and the answers of a run are those of one list of
  deliveries, in their order;
* `one_stream_iff`: when all exchanges of a run share a stream.
-/

namespace Kaiten.HttpClient

open ConnectionPool

/-- The exchange for a call, and its answer: the message of the call over a stream to its endpoint,
and what is read; without an exchange, the answer is -1. -/
def Answers (userAgent : Str) (x : Call × Course) (answer : ℤ × Str) : Option Exchange → Prop
  | some y => y.message = x.1.message userAgent ∧ y.stream.endpoint = x.1.endpoint ∧
      y.broke = x.2.reply.isNone ∧ answer = x.2.reply.getD (-1, [])
  | none => answer = (-1, [])

/-- A call that was answered. -/
structure Delivery (userAgent : Str) where
  call : Call × Course
  exchange : Option Exchange
  answer : ℤ × Str
  answers : Answers userAgent call answer exchange

section Request

variable {c : ConnectionPool.Config} {s : State} {idle : List ℕ}

/-- A request whose message is written, is written to a stream of its endpoint. -/
theorem exchange_answered {endpoint : Endpoint} {message : Message} {course : Course} {t : State}
    {ex : Option Exchange} {answer : ℤ × Str} (hs : Vacant s idle []) (hidle : idle.length ≤ 1)
    (h : exchange c s endpoint message course = some (t, ex, answer)) :
    (∃ h : PooledConnection, ex = some ⟨h.stream, message, course.reply.isNone⟩ ∧
      h.stream.endpoint = endpoint ∧ answer = course.reply.getD (-1, [])) ∨
    (ex = none ∧ answer = (-1, [])) := by
  unfold exchange at h
  rw [show (machine c).next s (.tick course.before) = some _ from rfl, Option.bind_some,
    show step c _ (.getConnection endpoint course.connects) = some _ from rfl,
    Option.bind_some] at h
  obtain ⟨⟨u, result⟩, hr, h⟩ := Option.bind_eq_some_iff.1 h
  have hconnected : ∀ g, result = .lent g → g.stream.endpoint = endpoint := by
    rintro g rfl
    have htick := hs.tick course.before
    rcases htick.getConnection_cases c endpoint course.connects hidle with
      ⟨p, g', ⟨hqueued, -, hend⟩, hstream, v, hget, -⟩ | ⟨-, hsettled⟩
    · -- the idle stream: the wait is over at once
      rw [hget] at hr
      have hsame : (v, Answer.lent g') = (u, .lent g) := by
        cases hw : course.wakes <;> rw [hw] at hr <;> cases hr <;> rfl
      cases hsame
      have hall := hs.sound.idle_mem p hqueued
      rw [hstream]
      exact (hs.sound.stream_endpoint p hall).trans hend
    · cases (hsettled.await hr).1 with
      | lent _ _ hend => exact hend
  cases result with
  | lent g =>
    obtain ⟨v, -, hv⟩ := Option.map_eq_some_iff.1 h
    cases hv
    exact Or.inl ⟨g, rfl, hconnected g rfl, rfl⟩
  | failed =>
    cases h
    exact Or.inr ⟨rfl, rfl⟩
  | waits =>
    cases h
    exact Or.inr ⟨rfl, rfl⟩
  | done =>
    cases h
    exact Or.inr ⟨rfl, rfl⟩

end Request

section Client

variable {c : ConnectionPool.Config} {userAgent : Str} {s t : Client} {x : Call × Course}

/-- One call adds its exchange, if it has one. -/
theorem client_step {answer : ℤ × Str} (hs : Rested s)
    (h : (client c userAgent).step s x = some (t, answer)) :
    ∃ ex, Answers userAgent x answer ex ∧ t.previous = ex ∧
      t.exchanges = s.exchanges ++ ex.toList := by
  obtain ⟨⟨pool, ex, answer'⟩, hex, heq⟩ := Option.map_eq_some_iff.1 h
  cases heq
  have hlen : (s.previous.map fun y => y.stream.id).toList.length ≤ 1 := by
    cases s.previous <;> simp
  refine ⟨ex, ?_, rfl, rfl⟩
  rcases exchange_answered hs.vacant hlen hex with ⟨g, rfl, hend, rfl⟩ | ⟨rfl, rfl⟩
  · exact ⟨rfl, hend, rfl, rfl⟩
  · rfl

theorem deliveries_of_run {xs : List (Call × Course)} (hs : Rested s)
    (h : (client c userAgent).run s xs = some t) :
    ∃ ds : List (Delivery userAgent), ds.map Delivery.call = xs ∧
      ds.map Delivery.answer = (client c userAgent).outputs s xs ∧
      t.exchanges = s.exchanges ++ ds.filterMap Delivery.exchange := by
  induction xs generalizing s with
  | nil =>
    cases h
    exact ⟨[], rfl, rfl, (List.append_nil _).symm⟩
  | cons x xs ih =>
    rw [Machine.run_cons, Option.bind_eq_some_iff] at h
    obtain ⟨u, hu, hrun⟩ := h
    obtain ⟨answer, hstep⟩ := Machine.next_eq_some.1 hu
    obtain ⟨ex, hanswers, -, hexchanges⟩ := client_step hs hstep
    obtain ⟨ds, hcalls, houtputs, hrest⟩ := ih (hs.next_cases hu).1 hrun
    refine ⟨⟨x, ex, answer, hanswers⟩ :: ds, ?_, ?_, ?_⟩
    · rw [List.map_cons, hcalls]
    · rw [List.map_cons, houtputs, Machine.outputs_cons_of_step hstep]
    · rw [hrest, hexchanges, List.append_assoc]
      cases ex with
      | none => rfl
      | some y => rfl

end Client

/-- **No request is lost, repeated or misdirected**: in a run of the client, the messages written
are those of its calls, in their order and each at most once; each goes over a stream to the
endpoint of its call, and what is read from there is what the call returns.  A call without a
message returns -1. -/
theorem calls_delivered {c : ConnectionPool.Config} {userAgent : Str} {xs : List (Call × Course)}
    {t : Client} (h : (client c userAgent).run .initial xs = some t) :
    ∃ ds : List (Delivery userAgent), ds.map Delivery.call = xs ∧
      ds.map Delivery.answer = (client c userAgent).outputs .initial xs ∧
      ds.filterMap Delivery.exchange = t.exchanges := by
  obtain ⟨ds, hcalls, houtputs, hexchanges⟩ := deliveries_of_run rested_initial h
  exact ⟨ds, hcalls, houtputs, hexchanges.symm⟩

/-- Two calls to different hosts, the second of which is not answered. -/
theorem calls_delivered_two : ∃ t, (client {} []).run .initial
      [(.get sampleEndpoints.1 [] [], { reply := some (200, []) }),
        (.get sampleEndpoints.2 [] [], { reply := none })] = some t ∧ t.exchanges.length = 2 ∧
    ∃ ds : List (Delivery []), ds.map Delivery.call =
        [(.get sampleEndpoints.1 [] [], { reply := some (200, []) }),
          (.get sampleEndpoints.2 [] [], { reply := none })] ∧
      ds.map Delivery.answer = (client {} []).outputs .initial
        [(.get sampleEndpoints.1 [] [], { reply := some (200, []) }),
          (.get sampleEndpoints.2 [] [], { reply := none })] ∧
      ds.filterMap Delivery.exchange = t.exchanges := by
  obtain ⟨t, hrun, hlength⟩ : ∃ t, (client {} []).run .initial
      [(.get sampleEndpoints.1 [] [], { reply := some (200, []) }),
        (.get sampleEndpoints.2 [] [], { reply := none })] = some t ∧ t.exchanges.length = 2 :=
    ⟨_, rfl, rfl⟩
  exact ⟨t, hrun, hlength, calls_delivered hrun⟩

/-! ### Streams that are kept -/

/-- All exchanges use the same stream. -/
def OneStream (s : Client) : Prop := ∀ x ∈ s.exchanges, ∀ y ∈ s.exchanges, x.stream.id = y.stream.id

/-- The request finds the stream of the exchange before it, or none was made, or none is made. -/
def KeepsStream (c : ConnectionPool.Config) (s : Client) (x : Call × Course) (t : Client) : Prop :=
  (∃ y, Follows c s x y) ∨ s.exchanges = [] ∨ t.exchanges = s.exchanges

theorem oneStream_append_iff {s t : Client} {z : Exchange} (hs : OneStream s)
    (ht : t.exchanges = s.exchanges ++ [z]) :
    OneStream t ↔ ∀ y ∈ s.exchanges, z.stream.id = y.stream.id := by
  unfold OneStream
  rw [ht]
  constructor
  · intro h y hy
    exact h z (List.mem_append_right _ (List.mem_singleton.2 rfl)) y (List.mem_append_left _ hy)
  · intro h x hx y hy
    rcases List.mem_append.1 hx with hx | hx
    · rcases List.mem_append.1 hy with hy | hy
      · exact hs x hx y hy
      · rw [List.mem_singleton.1 hy]
        exact (h x hx).symm
    · rw [List.mem_singleton.1 hx]
      rcases List.mem_append.1 hy with hy | hy
      · exact h y hy
      · rw [List.mem_singleton.1 hy]

theorem oneStream_next_iff {c : ConnectionPool.Config} {userAgent : Str} {s t : Client}
    {x : Call × Course} (hs : Rested s) (hone : OneStream s)
    (h : (client c userAgent).next s x = some t) : OneStream t ↔ KeepsStream c s x t := by
  rcases (hs.next_cases h).2 with ⟨y, z, hfollows, ht, hid⟩ | ⟨hno, ht | ⟨z, ht, hnew⟩⟩
  · -- the stream of the exchange before, which is that of all others
    refine iff_of_true ((oneStream_append_iff hone ht).2 fun w hw => ?_) (Or.inl ⟨y, hfollows⟩)
    obtain ⟨ys, hys⟩ := hs.last y hfollows.1
    have hy : y ∈ s.exchanges := by
      rw [hys]
      exact List.mem_append_right _ (List.mem_singleton.2 rfl)
    exact hid.trans (hone y hy w hw)
  · refine iff_of_true ?_ (Or.inr (Or.inr ht))
    unfold OneStream
    rw [ht]
    exact hone
  · -- a new stream, other than those of the exchanges before
    rw [oneStream_append_iff hone ht]
    have hne : t.exchanges ≠ s.exchanges := by
      rw [ht]
      simp
    constructor
    · intro hall
      refine Or.inr (Or.inl (List.eq_nil_iff_forall_not_mem.2 fun y hy => ?_))
      exact ((hs.lt_next y hy).trans_le hnew).ne' (hall y hy)
    · rintro (⟨y, hy⟩ | hnil | hsame)
      · exact absurd hy (hno y)
      · rw [hnil]
        exact fun y hy => absurd hy List.not_mem_nil
      · exact absurd hsame hne

/-- **When one stream serves a run**: all exchanges use one stream exactly when every request that
is exchanged, after the first one, goes to the endpoint of the exchange right before it within the
timeout. -/
theorem one_stream_iff (c : ConnectionPool.Config) (userAgent : Str) (xs : List (Call × Course)) :
    (client c userAgent).Always OneStream .initial xs ↔
      (client c userAgent).Along (KeepsStream c) .initial xs := by
  have hinitial : OneStream .initial := fun x hx => absurd hx List.not_mem_nil
  rw [Machine.always_iff_along_post, and_iff_right hinitial]
  refine Machine.along_congr (I := fun s => Rested s ∧ OneStream s) ?_ ?_
    ⟨rested_initial, hinitial⟩ xs
  · intro s x t hs ht hone
    exact ⟨(hs.1.next_cases ht).1, hone⟩
  · intro s x t hs ht
    exact oneStream_next_iff hs.1 hs.2 ht

end Kaiten.HttpClient
