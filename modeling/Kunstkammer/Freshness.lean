import Kunstkammer.Disabling

/-!
# How old an answer can be

The calls of `get_card` and `get_user` with their caches, against a server that may change at any
time.

* `Session.ReceivesCard`, `Session.ReceivesUser`: a call gets a card or a user from the server, and
  the time it is stored with;
* `getCard_counts`, `getUser_counts`: all that one call does to the caches, the clock and the
  counters;
* `Session.Stamped`: the keys and the lifetimes of what is stored;
* `answers_fresh`: an answer that does not come from the server was received from it before, and not
  longer ago than the lifetime of the cache;
* `hits_add_requests`: every call is a hit or a request.
-/

namespace Kaiten

/-! ### One cache -/

section Entries

variable {κ ν : Type*} [DecidableEq κ]

/-- A lookup leaves only entries that were there. -/
theorem Cache.find_of_find_get {now : ℤ} {key k : κ} {c : Cache κ ν} {entry : CacheEntry ν}
    (h : (c.get now key).2.find k = some entry) : c.find k = some entry := by
  rcases (Cache.updates_get now key c).find k entry h with habs | ⟨hold, -⟩
  · cases habs
  · exact hold

/-- An entry after `put` is the new one, stamped with the time, or was there before. -/
theorem Cache.find_of_find_put {now : ℤ} {sweep : κ → ℤ} {key k : κ} {value : ν} {ttl : ℤ}
    {c : Cache κ ν} {entry : CacheEntry ν}
    (h : (c.put now sweep key value ttl).find k = some entry) :
    (k = key ∧ entry = ⟨value, now, lifetime c.defaultTtl ttl⟩) ∨ c.find k = some entry := by
  unfold Cache.put at h
  split_ifs at h
  · rcases (Cache.updates_trim sweep _).find k entry h with habs | ⟨hinsert, -⟩
    · cases habs
    · have hupdate : Function.update c.find key
          (some ⟨value, now, lifetime c.defaultTtl ttl⟩) k = some entry :=
        (congrFun (find_insert key _ c) k).symm.trans hinsert
      by_cases hk : k = key
      · subst hk
        rw [Function.update_self] at hupdate
        exact Or.inl ⟨rfl, (Option.some.inj hupdate).symm⟩
      · rw [Function.update_of_ne hk] at hupdate
        exact Or.inr hupdate
  · exact Or.inr h

/-- A lookup counts a hit exactly when it has an answer. -/
theorem Cache.hits_get (now : ℤ) (key : κ) (c : Cache κ ν) :
    (c.get now key).2.hits = c.hits + if (c.get now key).1.isSome then 1 else 0 := by
  unfold Cache.get
  by_cases henabled : c.enabled = true
  · rw [if_pos henabled]
    cases c.cache.lookup key with
    | none => rfl
    | some entry => cases hexpired : entry.isExpired now <;> simp [hexpired]
  · rw [if_neg henabled]
    rfl

omit [DecidableEq κ] in
theorem Cache.hits_trim (sweep : κ → ℤ) (c : Cache κ ν) : (c.trim sweep).hits = c.hits := by
  unfold Cache.trim
  split_ifs <;> rfl

theorem Cache.hits_put (now : ℤ) (sweep : κ → ℤ) (key : κ) (value : ν) (ttl : ℤ) (c : Cache κ ν) :
    (c.put now sweep key value ttl).hits = c.hits := by
  unfold Cache.put
  split_ifs
  · exact Cache.hits_trim sweep _
  · rfl

end Entries

/-! ### One call of `get_card` -/

section Cards

variable {σ Text : Type}

/-- The hits of both caches. -/
def World.hits (w : World σ Text) : ℕ := w.cards.hits + w.cardNumbers.hits

/-- The caches of `w'` are those of `w`, less some entries, and with the card `stored` under its id
and under its number, stamped with readings of the clock between the two. -/
structure StampedFrom (w : World σ Text) (stored : Option Card) (w' : World σ Text) : Prop where
  readings : w'.readings = w.readings
  reads : w.reads ≤ w'.reads
  cardsTtl : w'.cards.defaultTtl = w.cards.defaultTtl
  cardNumbersTtl : w'.cardNumbers.defaultTtl = w.cardNumbers.defaultTtl
  cards : ∀ key entry, w'.cards.find key = some entry → w.cards.find key = some entry ∨
    ∃ card n, stored = some card ∧ key = card.id ∧ w.reads ≤ n ∧ n < w'.reads ∧
      entry = ⟨card, (w.readings n).now, Cache.lifetime w.cards.defaultTtl (-1)⟩
  cardNumbers : ∀ key entry, w'.cardNumbers.find key = some entry →
    w.cardNumbers.find key = some entry ∨
    ∃ card n, stored = some card ∧ key = card.number ∧ w.reads ≤ n ∧ n < w'.reads ∧
      entry = ⟨card, (w.readings n).now, Cache.lifetime w.cardNumbers.defaultTtl (-1)⟩

/-- Nothing is stored, and some entries may be gone. -/
theorem StampedFrom.none {w w' : World σ Text} (hreadings : w'.readings = w.readings)
    (hreads : w.reads ≤ w'.reads) (hcardsTtl : w'.cards.defaultTtl = w.cards.defaultTtl)
    (hnumbersTtl : w'.cardNumbers.defaultTtl = w.cardNumbers.defaultTtl)
    (hcards : ∀ key entry, w'.cards.find key = some entry → w.cards.find key = some entry)
    (hnumbers : ∀ key entry, w'.cardNumbers.find key = some entry →
      w.cardNumbers.find key = some entry) : StampedFrom w none w' where
  readings := hreadings
  reads := hreads
  cardsTtl := hcardsTtl
  cardNumbersTtl := hnumbersTtl
  cards key entry h := Or.inl (hcards key entry h)
  cardNumbers key entry h := Or.inl (hnumbers key entry h)

theorem StampedFrom.trans {u v w : World σ Text} {stored : Option Card}
    (h : StampedFrom u Option.none v) (h' : StampedFrom v stored w) : StampedFrom u stored w where
  readings := h'.readings.trans h.readings
  reads := h.reads.trans h'.reads
  cardsTtl := h'.cardsTtl.trans h.cardsTtl
  cardNumbersTtl := h'.cardNumbersTtl.trans h.cardNumbersTtl
  cards key entry hw := by
    rcases h'.cards key entry hw with hv | ⟨card, n, hcard, hkey, hle, hlt, rfl⟩
    · refine Or.inl ((h.cards key entry hv).resolve_right ?_)
      rintro ⟨_, _, habs, -⟩
      cases habs
    · refine Or.inr ⟨card, n, hcard, hkey, h.reads.trans hle, hlt, ?_⟩
      rw [h.readings, h.cardsTtl]
  cardNumbers key entry hw := by
    rcases h'.cardNumbers key entry hw with hv | ⟨card, n, hcard, hkey, hle, hlt, rfl⟩
    · refine Or.inl ((h.cardNumbers key entry hv).resolve_right ?_)
      rintro ⟨_, _, habs, -⟩
      cases habs
    · refine Or.inr ⟨card, n, hcard, hkey, h.reads.trans hle, hlt, ?_⟩
      rw [h.readings, h.cardNumbersTtl]

/-- Asking the caches stores nothing, and counts a hit when a card is found. -/
theorem cached_counts {w u : World σ Text} {s : Str} {found : Option Card}
    (h : cached s w = .ok found u) : StampedFrom w none u ∧ u.log = w.log ∧
      u.hits = w.hits + if found.isSome then 1 else 0 := by
  unfold cached at h
  split_ifs at h
  · cases h
    refine ⟨.none rfl (Nat.le_succ _) rfl (Cache.defaultTtl_get _ _ _) (fun _ _ h => h)
      (fun _ _ => Cache.find_of_find_get), rfl, ?_⟩
    show w.cards.hits + (w.cardNumbers.get (w.readings w.reads).now s).2.hits = _
    rw [Cache.hits_get, ← Nat.add_assoc]
    rfl
  · cases hstoll : stoll s with
    | none =>
      rw [hstoll] at h
      cases h
      exact ⟨.none rfl le_rfl rfl rfl (fun _ _ h => h) (fun _ _ h => h), rfl, rfl⟩
    | some id =>
      rw [hstoll] at h
      cases h
      refine ⟨.none rfl (Nat.le_succ _) (Cache.defaultTtl_get _ _ _) rfl
        (fun _ _ => Cache.find_of_find_get) (fun _ _ h => h), rfl, ?_⟩
      show (w.cards.get (w.readings w.reads).now id).2.hits + w.cardNumbers.hits = _
      rw [Cache.hits_get, Nat.add_right_comm]
      rfl

/-- A card that is stored is stamped with the two next readings. -/
theorem storeCard_counts (card : Card) (w : World σ Text) : ∃ w',
    storeCard card w = .ok () w' ∧ StampedFrom w (some card) w' ∧ w'.log = w.log ∧
      w'.hits = w.hits := by
  refine ⟨_, rfl, ?_, rfl, ?_⟩
  · constructor
    · rfl
    · exact Nat.le_add_right _ 2
    · exact Cache.defaultTtl_put _ _ _ _ _ _
    · exact Cache.defaultTtl_put _ _ _ _ _ _
    · intro key entry h
      rcases Cache.find_of_find_put h with ⟨hkey, hentry⟩ | hold
      · exact Or.inr ⟨card, w.reads, rfl, hkey, le_rfl, Nat.lt_add_of_pos_right two_pos, hentry⟩
      · exact Or.inl hold
    · intro key entry h
      rcases Cache.find_of_find_put h with ⟨hkey, hentry⟩ | hold
      · exact Or.inr ⟨card, w.reads + 1, rfl, hkey, Nat.le_succ _, Nat.lt_succ_self _, hentry⟩
      · exact Or.inl hold
  · unfold World.hits
    rw [Cache.hits_put, Cache.hits_put]

variable (json : NlohmannText Text) (server : Server σ Text) (apiPath : Str)

/-- The response to the request for a card. -/
def World.cardResponse (w : World σ Text) (s : Str) : ℤ × Text :=
  (server.answer w.server (.get (cardTarget apiPath s))).1

/-- The call for `s` sends its request, stores what comes back and counts no hit. -/
structure FetchesCard (w : World σ Text) (s : Str) (answer : ℤ × Card) (w' : World σ Text) :
    Prop where
  answer : answer = fetchedAnswer json (w.cardResponse server apiPath s)
  log : w'.log = w.log ++
    [.request (.get (cardTarget apiPath s)) (w.cardResponse server apiPath s)]
  stamped : StampedFrom w (fetchedCard json (w.cardResponse server apiPath s)) w'
  hits : w'.hits = w.hits

/-- The call for `s` returns the card of an entry, sends nothing and counts a hit. -/
structure FindsCard (w : World σ Text) (s : Str) (answer : ℤ × Card) (w' : World σ Text) :
    Prop where
  answer : ∃ entry, w.Hit s entry ∧ answer = (200, entry.value)
  log : w'.log = w.log
  stamped : StampedFrom w none w'
  hits : w'.hits = w.hits + 1

theorem fetchCard_counts (w : World σ Text) (s : Str) : ∃ answer w',
    fetchCard json server apiPath s w = .ok answer w' ∧
      FetchesCard json server apiPath w s answer w' := by
  have hsend : send server (.get (cardTarget apiPath s)) w = .ok (w.cardResponse server apiPath s)
      (w.afterSend server (.get (cardTarget apiPath s))) := rfl
  have hsent : StampedFrom w none (w.afterSend server (.get (cardTarget apiPath s))) :=
    .none rfl le_rfl rfl rfl (fun _ _ h => h) (fun _ _ h => h)
  unfold fetchCard
  rw [Effects.bind_ok hsend]
  by_cases hstatus : (w.cardResponse server apiPath s).1 = 200
  · rw [if_pos hstatus]
    cases hread : readCard json (w.cardResponse server apiPath s).2 with
    | none =>
      have hnone : fetchedCard json (w.cardResponse server apiPath s) = none := by
        rw [fetchedCard, if_pos hstatus, hread]
      exact ⟨_, _, rfl, ⟨by rw [fetchedAnswer, hnone, Option.getD_none], rfl, by rwa [hnone], rfl⟩⟩
    | some card =>
      have hsome : fetchedCard json (w.cardResponse server apiPath s) = some card := by
        rw [fetchedCard, if_pos hstatus, hread]
      obtain ⟨w', hstore, hstamped, hlog, hhits⟩ := storeCard_counts card
        (w.afterSend server (.get (cardTarget apiPath s)))
      dsimp only
      rw [Effects.bind_ok hstore]
      refine ⟨_, _, rfl, ⟨?_, hlog, ?_, hhits⟩⟩
      · rw [fetchedAnswer, hsome, Option.getD_some]
      · rw [hsome]
        exact hsent.trans hstamped
  · have hnone : fetchedCard json (w.cardResponse server apiPath s) = none := by
      rw [fetchedCard, if_neg hstatus]
    rw [if_neg hstatus]
    exact ⟨_, _, rfl, ⟨by rw [fetchedAnswer, hnone, Option.getD_none], rfl, by rwa [hnone], rfl⟩⟩

/-- **All that one call does**: it finds a card and counts a hit, or sends one request. -/
theorem getCard_counts (w : World σ Text) (s : Str) : ∃ answer w',
    getCard json server apiPath s w = .ok answer w' ∧
      (FindsCard w s answer w' ∨ FetchesCard json server apiPath w s answer w') := by
  obtain ⟨found, u, hcached, hserver, -, -, hhit⟩ := cached_spec w s
  obtain ⟨hstamped, hlog, hhits⟩ := cached_counts hcached
  unfold getCard
  rw [Effects.bind_ok hcached]
  cases found with
  | some card =>
    obtain ⟨entry, hentry, rfl⟩ := (hhit card).1 rfl
    exact ⟨_, u, rfl, Or.inl ⟨⟨entry, hentry, rfl⟩, hlog, hstamped, hhits⟩⟩
  | none =>
    obtain ⟨answer, w', hfetch, h⟩ := fetchCard_counts json server apiPath u s
    have hresponse : u.cardResponse server apiPath s = w.cardResponse server apiPath s := by
      unfold World.cardResponse
      rw [hserver]
    refine ⟨answer, w', hfetch, Or.inr ⟨?_, ?_, ?_, h.hits.trans hhits⟩⟩
    · rw [h.answer, hresponse]
    · rw [h.log, hlog, hresponse]
    · rw [← hresponse]
      exact hstamped.trans h.stamped

end Cards

/-! ### One call of `get_user` -/

section Users

variable {σ Text : Type} (json : NlohmannText Text) (server : Server σ Text) (apiPath : Str)

/-- The cache of `w'` is that of `w`, less some entries, and with the user `stored` under its id,
stamped with a reading of the clock between the two. -/
structure UsersStampedFrom (w : UserWorld σ Text) (stored : Option User) (w' : UserWorld σ Text) :
    Prop where
  readings : w'.readings = w.readings
  reads : w.reads ≤ w'.reads
  ttl : w'.users.defaultTtl = w.users.defaultTtl
  users : ∀ key entry, w'.users.find key = some entry → w.users.find key = some entry ∨
    ∃ user n, stored = some user ∧ key = user.id ∧ w.reads ≤ n ∧ n < w'.reads ∧
      entry = ⟨user, (w.readings n).now, Cache.lifetime w.users.defaultTtl (-1)⟩

/-- The response to the request for a user. -/
def UserWorld.userResponse (w : UserWorld σ Text) (spaceId userId : Int64) : ℤ × Text :=
  (server.answer w.server (.get (userTarget apiPath spaceId userId))).1

/-- What follows from a request for a user. -/
structure FetchesUser (w : UserWorld σ Text) (spaceId userId : Int64) (answer : ℤ × User)
    (w' : UserWorld σ Text) : Prop where
  answer : answer = fetchedUserAnswer json (w.userResponse server apiPath spaceId userId)
  state : w'.server = (server.answer w.server (.get (userTarget apiPath spaceId userId))).2
  stamped : UsersStampedFrom w (fetchedUser json (w.userResponse server apiPath spaceId userId)) w'
  hits : w'.users.hits = w.users.hits

/-- What follows from a hit. -/
structure FindsUser (w : UserWorld σ Text) (userId : Int64) (answer : ℤ × User)
    (w' : UserWorld σ Text) : Prop where
  answer : ∃ entry, w.users.Finds (w.readings w.reads).now userId entry ∧
    answer = (200, entry.value)
  state : w'.server = w.server
  stamped : UsersStampedFrom w none w'
  hits : w'.users.hits = w.users.hits + 1

variable {w : UserWorld σ Text} {spaceId userId : Int64}

theorem getUser_eq_of_hit {user : User}
    (h : (w.users.get (w.readings w.reads).now userId).1 = some user) :
    getUser json server apiPath spaceId userId w = ((200, user), { w with
      users := (w.users.get (w.readings w.reads).now userId).2
      reads := w.reads + 1 }) := by
  unfold getUser
  dsimp only
  rw [h]

theorem getUser_eq_of_miss (h : (w.users.get (w.readings w.reads).now userId).1 = none) :
    getUser json server apiPath spaceId userId w =
      (fetchedUserAnswer json (w.userResponse server apiPath spaceId userId), { w with
        server := (server.answer w.server (.get (userTarget apiPath spaceId userId))).2
        users := (fetchedUser json (w.userResponse server apiPath spaceId userId)).elim
          (w.users.get (w.readings w.reads).now userId).2 fun user =>
            (w.users.get (w.readings w.reads).now userId).2.put (w.readings (w.reads + 1)).now
              (w.readings (w.reads + 1)).sweep user.id user (-1)
        reads := w.reads + 1 +
          if (fetchedUser json (w.userResponse server apiPath spaceId userId)).isSome then 1
          else 0 }) := by
  unfold getUser fetchedUserAnswer fetchedUser UserWorld.userResponse
  dsimp only
  rw [h]
  dsimp only
  by_cases hstatus : (server.answer w.server (.get (userTarget apiPath spaceId userId))).1.1 = 200
  · simp only [if_pos hstatus]
    cases json.parse (server.answer w.server (.get (userTarget apiPath spaceId userId))).1.2 <;> rfl
  · simp only [if_neg hstatus]
    rfl

variable (w spaceId userId)

/-- **All that one call does**: it finds a user and counts a hit, or sends one request. -/
theorem getUser_counts :
    FindsUser w userId (getUser json server apiPath spaceId userId w).1
        (getUser json server apiPath spaceId userId w).2 ∨
      FetchesUser json server apiPath w spaceId userId
        (getUser json server apiPath spaceId userId w).1
        (getUser json server apiPath spaceId userId w).2 := by
  have hhits := Cache.hits_get (w.readings w.reads).now userId w.users
  have hkept : ∀ key entry, (w.users.get (w.readings w.reads).now userId).2.find key = some entry →
      w.users.find key = some entry := fun _ _ => Cache.find_of_find_get
  have httl := Cache.defaultTtl_get (w.readings w.reads).now userId w.users
  cases hget : (w.users.get (w.readings w.reads).now userId).1 with
  | some user =>
    obtain ⟨entry, hfinds, rfl⟩ := Cache.get_eq_some_iff.1 hget
    rw [hget] at hhits
    rw [getUser_eq_of_hit json server apiPath hget]
    exact Or.inl ⟨⟨entry, hfinds, rfl⟩, rfl,
      ⟨rfl, Nat.le_succ _, httl, fun key e he => Or.inl (hkept key e he)⟩, hhits⟩
  | none =>
    rw [hget] at hhits
    rw [getUser_eq_of_miss json server apiPath hget]
    refine Or.inr ⟨rfl, rfl, ?_, ?_⟩
    · cases hfetched : fetchedUser json (w.userResponse server apiPath spaceId userId) with
      | none => exact ⟨rfl, Nat.le_succ _, httl, fun key e he => Or.inl (hkept key e he)⟩
      | some user =>
        refine ⟨rfl, Nat.le_add_right _ 2, (Cache.defaultTtl_put _ _ _ _ _ _).trans httl,
          fun key e he => ?_⟩
        rcases Cache.find_of_find_put he with ⟨hkey, rfl⟩ | hold
        · refine Or.inr ⟨user, w.reads + 1, rfl, hkey, Nat.le_succ _, Nat.lt_succ_self _, ?_⟩
          rw [httl]
        · exact Or.inl (hkept key e hold)
    · cases hfetched : fetchedUser json (w.userResponse server apiPath spaceId userId) with
      | none => exact hhits
      | some user => exact (Cache.hits_put _ _ _ _ _ _).trans hhits

end Users

/-! ### The calls of a process -/

section Runs

variable {σ Text : Type} (json : NlohmannText Text) (server : Server σ Text) (apiPath : Str)

/-- The hits of the caches that are asked. -/
def Session.hits (s : Session σ Text) : ℕ :=
  s.caches.cardCache.hits + s.caches.cardNumberCache.hits + s.caches.userCache.hits

/-- The process when the call `e` is made. -/
def Session.at (s : Session σ Text) (e : LookupEvent σ) : Session σ Text :=
  { s with server := e.state }

theorem Session.perform_card (s : Session σ Text) (state : σ) (t : Str) : ∃ answer w',
    s.perform json server apiPath ⟨state, .card t⟩ =
        (some (.card answer), (s.at ⟨state, .card t⟩).withCards w') ∧
      (FindsCard (s.at ⟨state, .card t⟩).cardWorld t answer w' ∨
        FetchesCard json server apiPath (s.at ⟨state, .card t⟩).cardWorld t answer w') := by
  obtain ⟨answer, w', hget, h⟩ :=
    getCard_counts json server apiPath (s.at ⟨state, .card t⟩).cardWorld t
  refine ⟨answer, w', ?_, h⟩
  unfold perform
  dsimp only [Session.at] at hget ⊢
  rw [hget]

/-- A call that finds nothing asks the server, and is no hit; a call that finds something sends
nothing. -/
theorem Session.perform_counts (s : Session σ Text) (e : LookupEvent σ) :
    (s.perform json server apiPath e).2.hits + (s.perform json server apiPath e).2.log.length =
      s.hits + s.log.length + 1 := by
  obtain ⟨state, call⟩ := e
  cases call with
  | card t =>
    obtain ⟨answer, w', hperform, h⟩ := s.perform_card json server apiPath state t
    rw [hperform]
    have hhits : ((s.at ⟨state, .card t⟩).withCards w').hits =
      w'.hits + s.caches.userCache.hits := rfl
    have hold : s.hits = (s.at ⟨state, .card t⟩).cardWorld.hits + s.caches.userCache.hits := rfl
    rcases h with h | h
    · rw [hhits, hold, h.hits]
      show _ + w'.log.length = _
      rw [h.log]
      show _ + s.log.length = _
      omega
    · rw [hhits, hold, h.hits]
      show _ + w'.log.length = _
      rw [h.log, List.length_append, List.length_singleton]
      rfl
  | user spaceId userId =>
    have hhits : (s.perform json server apiPath ⟨state, .user spaceId userId⟩).2.hits =
      s.caches.cardCache.hits + s.caches.cardNumberCache.hits + (getUser json server.logged apiPath
        spaceId userId (s.at ⟨state, .user spaceId userId⟩).userWorld).2.users.hits := rfl
    have hlog : (s.perform json server apiPath ⟨state, .user spaceId userId⟩).2.log =
      (getUser json server.logged apiPath spaceId userId
        (s.at ⟨state, .user spaceId userId⟩).userWorld).2.server.2 := rfl
    have hold : (s.at ⟨state, .user spaceId userId⟩).userWorld.users.hits =
      s.caches.userCache.hits := rfl
    rw [hhits, hlog]
    rcases getUser_counts json server.logged apiPath
      (s.at ⟨state, .user spaceId userId⟩).userWorld spaceId userId with h | h
    · rw [h.hits, h.state, hold]
      show _ + s.log.length = _
      unfold Session.hits
      omega
    · rw [h.hits, h.state, hold]
      show _ + (s.log ++ [_]).length = _
      rw [List.length_append, List.length_singleton]
      rfl

/-- **Every call is a hit or a request.**  In every run of calls, from any state of the caches, the
hits they count and the requests that are sent add up to the number of calls. -/
theorem hits_add_requests {s t : Session σ Text} {es : List (LookupEvent σ)}
    (h : (lookupMachine json server apiPath).run s es = some t) :
    t.hits + t.log.length = s.hits + s.log.length + es.length := by
  induction es generalizing s with
  | nil =>
    cases h
    rfl
  | cons e es ih =>
    have hrest := ih (s := (s.perform json server apiPath e).2) h
    rw [hrest, s.perform_counts, List.length_cons]
    omega

/-! ### The age of an answer -/

/-- The call gets the card `p.1` from the server, and stores it at the time `p.2`. -/
structure Session.ReceivesCard (s : Session σ Text) (e : LookupEvent σ) (p : Card × ℤ) : Prop where
  asks : s.Asks json server apiPath e
  card : ∃ t, e.call = .card t
  fetched : fetchedCard json (e.response server apiPath) = some p.1
  time : ∃ n, s.reads ≤ n ∧ n < (s.perform json server apiPath e).2.reads ∧
    p.2 = (s.readings n).now

/-- The call gets the user `p.1` from the server, and stores it at the time `p.2`. -/
structure Session.ReceivesUser (s : Session σ Text) (e : LookupEvent σ) (p : User × ℤ) : Prop where
  asks : s.Asks json server apiPath e
  user : ∃ spaceId userId, e.call = .user spaceId userId
  fetched : fetchedUser json (e.response server apiPath) = some p.1
  time : ∃ n, s.userReads ≤ n ∧ n < (s.perform json server apiPath e).2.userReads ∧
    p.2 = (s.userReadings n).now

/-- The caches have the lifetimes of their constructors, and every entry has its own key and
lifetime. -/
structure Session.Stamped (s : Session σ Text) : Prop where
  cardsTtl : s.caches.cardCache.defaultTtl = cardTtl
  numbersTtl : s.caches.cardNumberCache.defaultTtl = cardTtl
  usersTtl : s.caches.userCache.defaultTtl = userTtl
  cards : ∀ key entry, s.caches.cardCache.find key = some entry →
    key = entry.value.id ∧ entry.ttl = cardTtl
  numbers : ∀ key entry, s.caches.cardNumberCache.find key = some entry →
    key = entry.value.number ∧ entry.ttl = cardTtl
  users : ∀ key entry, s.caches.userCache.find key = some entry →
    key = entry.value.id ∧ entry.ttl = userTtl

/-- One of the caches has the card `p.1` since the time `p.2`. -/
def Session.HoldsCard (s : Session σ Text) (p : Card × ℤ) : Prop :=
  (∃ key entry, s.caches.cardCache.find key = some entry ∧ (entry.value, entry.timestamp) = p) ∨
    ∃ key entry, s.caches.cardNumberCache.find key = some entry ∧
      (entry.value, entry.timestamp) = p

/-- The cache has the user `p.1` since the time `p.2`. -/
def Session.HoldsUser (s : Session σ Text) (p : User × ℤ) : Prop :=
  ∃ key entry, s.caches.userCache.find key = some entry ∧ (entry.value, entry.timestamp) = p

variable {json server apiPath} {s : Session σ Text}

/-- A call that sends a request asks. -/
theorem FetchesCard.asks {state : σ} {t : Str} {answer : ℤ × Card} {w' : World σ Text}
    (hperform : s.perform json server apiPath ⟨state, .card t⟩ =
      (some (.card answer), (s.at ⟨state, .card t⟩).withCards w'))
    (h : FetchesCard json server apiPath (s.at ⟨state, .card t⟩).cardWorld t answer w') :
    s.Asks json server apiPath ⟨state, .card t⟩ := by
  constructor
  · rw [hperform, h.answer]
    rfl
  · rw [hperform]
    exact h.log

theorem FetchesUser.asks {state : σ} {spaceId userId : Int64}
    (h : FetchesUser json server.logged apiPath (s.at ⟨state, .user spaceId userId⟩).userWorld
      spaceId userId
      (getUser json server.logged apiPath spaceId userId
        (s.at ⟨state, .user spaceId userId⟩).userWorld).1
      (getUser json server.logged apiPath spaceId userId
        (s.at ⟨state, .user spaceId userId⟩).userWorld).2) :
    s.Asks json server apiPath ⟨state, .user spaceId userId⟩ :=
  ⟨congrArg (fun answer => some (Found.user answer)) h.answer, congrArg Prod.snd h.state⟩

/-- What is stored keeps its key and its lifetime. -/
theorem Session.Stamped.perform (hs : s.Stamped) (e : LookupEvent σ) :
    (s.perform json server apiPath e).2.Stamped := by
  obtain ⟨state, call⟩ := e
  cases call with
  | card t =>
    obtain ⟨answer, w', hperform, h⟩ := s.perform_card json server apiPath state t
    have hlife : Cache.lifetime s.caches.cardCache.defaultTtl (-1) = cardTtl := hs.cardsTtl
    have hlife' : Cache.lifetime s.caches.cardNumberCache.defaultTtl (-1) = cardTtl :=
      hs.numbersTtl
    obtain ⟨stored, hstamped⟩ : ∃ stored,
        StampedFrom (s.at ⟨state, .card t⟩).cardWorld stored w' :=
      h.elim (fun h => ⟨_, h.stamped⟩) fun h => ⟨_, h.stamped⟩
    rw [hperform]
    constructor
    · exact hstamped.cardsTtl.trans hs.cardsTtl
    · exact hstamped.cardNumbersTtl.trans hs.numbersTtl
    · exact hs.usersTtl
    · intro key entry hfind
      rcases hstamped.cards key entry hfind with hold | ⟨card, n, -, hkey, -, -, rfl⟩
      · exact hs.cards key entry hold
      · exact ⟨hkey, hlife⟩
    · intro key entry hfind
      rcases hstamped.cardNumbers key entry hfind with hold | ⟨card, n, -, hkey, -, -, rfl⟩
      · exact hs.numbers key entry hold
      · exact ⟨hkey, hlife'⟩
    · exact hs.users
  | user spaceId userId =>
    have hlife : Cache.lifetime s.caches.userCache.defaultTtl (-1) = userTtl := hs.usersTtl
    obtain ⟨stored, hstamped⟩ : ∃ stored,
        UsersStampedFrom (s.at ⟨state, .user spaceId userId⟩).userWorld stored
          (getUser json server.logged apiPath spaceId userId
            (s.at ⟨state, .user spaceId userId⟩).userWorld).2 :=
      (getUser_counts json server.logged apiPath (s.at ⟨state, .user spaceId userId⟩).userWorld
        spaceId userId).elim (fun h => ⟨_, h.stamped⟩) fun h => ⟨_, h.stamped⟩
    refine ⟨hs.cardsTtl, hs.numbersTtl, hstamped.ttl.trans hs.usersTtl, hs.cards, hs.numbers,
      fun key entry hfind => ?_⟩
    rcases hstamped.users key entry hfind with hold | ⟨user, n, -, hkey, -, -, rfl⟩
    · exact hs.users key entry hold
    · exact ⟨hkey, hlife⟩

/-- A card in a cache was there before, or has just been received. -/
theorem Session.holdsCard_perform (s : Session σ Text) (e : LookupEvent σ) (p : Card × ℤ)
    (hp : (s.perform json server apiPath e).2.HoldsCard p) :
    s.HoldsCard p ∨ s.ReceivesCard json server apiPath e p := by
  obtain ⟨state, call⟩ := e
  cases call with
  | card t =>
    obtain ⟨answer, w', hperform, h⟩ := s.perform_card json server apiPath state t
    rw [hperform] at hp
    have hreads : (s.perform json server apiPath ⟨state, .card t⟩).2.reads = w'.reads := by
      rw [hperform]
      rfl
    rcases h with h | h
    · -- nothing is stored after a hit
      rcases hp with ⟨key, entry, hfind, rfl⟩ | ⟨key, entry, hfind, rfl⟩
      · rcases h.stamped.cards key entry hfind with hold | ⟨_, _, habs, -⟩
        · exact Or.inl (Or.inl ⟨key, entry, hold, rfl⟩)
        · cases habs
      · rcases h.stamped.cardNumbers key entry hfind with hold | ⟨_, _, habs, -⟩
        · exact Or.inl (Or.inr ⟨key, entry, hold, rfl⟩)
        · cases habs
    · rcases hp with ⟨key, entry, hfind, rfl⟩ | ⟨key, entry, hfind, rfl⟩
      · rcases h.stamped.cards key entry hfind with hold | ⟨card, n, hcard, -, hle, hlt, rfl⟩
        · exact Or.inl (Or.inl ⟨key, entry, hold, rfl⟩)
        · exact Or.inr ⟨h.asks hperform, ⟨t, rfl⟩, hcard, n, hle, hreads ▸ hlt, rfl⟩
      · rcases h.stamped.cardNumbers key entry hfind with hold | ⟨card, n, hcard, -, hle, hlt, rfl⟩
        · exact Or.inl (Or.inr ⟨key, entry, hold, rfl⟩)
        · exact Or.inr ⟨h.asks hperform, ⟨t, rfl⟩, hcard, n, hle, hreads ▸ hlt, rfl⟩
  | user spaceId userId => exact Or.inl hp

/-- A user in the cache was there before, or has just been received. -/
theorem Session.holdsUser_perform (s : Session σ Text) (e : LookupEvent σ) (p : User × ℤ)
    (hp : (s.perform json server apiPath e).2.HoldsUser p) :
    s.HoldsUser p ∨ s.ReceivesUser json server apiPath e p := by
  obtain ⟨state, call⟩ := e
  cases call with
  | card t =>
    obtain ⟨answer, w', hperform, h⟩ := s.perform_card json server apiPath state t
    rw [hperform] at hp
    exact Or.inl hp
  | user spaceId userId =>
    obtain ⟨key, entry, hfind, rfl⟩ := hp
    rcases getUser_counts json server.logged apiPath
      (s.at ⟨state, .user spaceId userId⟩).userWorld spaceId userId with h | h
    · rcases h.stamped.users key entry hfind with hold | ⟨_, _, habs, -⟩
      · exact Or.inl ⟨key, entry, hold, rfl⟩
      · cases habs
    · rcases h.stamped.users key entry hfind with hold | ⟨user, n, huser, -, hle, hlt, rfl⟩
      · exact Or.inl ⟨key, entry, hold, rfl⟩
      · exact Or.inr ⟨h.asks, ⟨spaceId, userId, rfl⟩, huser, n, hle, hlt, rfl⟩

/-- The caches are as they are constructed, and may be disabled by `--no-cache`. -/
def Session.Starts (s : Session σ Text) : Prop :=
  s.caches = {} ∨ s.caches = ApiCache.noCache {}

theorem Session.Starts.stamped (hs : s.Starts) : s.Stamped := by
  have httl : s.caches.cardCache.defaultTtl = cardTtl ∧
      s.caches.cardNumberCache.defaultTtl = cardTtl ∧
      s.caches.userCache.defaultTtl = userTtl := by
    rcases hs with hs | hs <;> rw [hs] <;> exact ⟨rfl, rfl, rfl⟩
  refine ⟨httl.1, httl.2.1, httl.2.2, ?_, ?_, ?_⟩
  · rintro key entry h
    rcases hs with hs | hs <;> rw [hs] at h <;> cases h
  · rintro key entry h
    rcases hs with hs | hs <;> rw [hs] at h <;> cases h
  · rintro key entry h
    rcases hs with hs | hs <;> rw [hs] at h <;> cases h

theorem Session.Starts.not_holdsCard (hs : s.Starts) (p : Card × ℤ) : ¬ s.HoldsCard p := by
  rintro (⟨key, entry, h, -⟩ | ⟨key, entry, h, -⟩)
  · rcases hs with hs | hs <;> rw [hs] at h <;> cases h
  · rcases hs with hs | hs <;> rw [hs] at h <;> cases h

theorem Session.Starts.not_holdsUser (hs : s.Starts) (p : User × ℤ) : ¬ s.HoldsUser p := by
  rintro ⟨key, entry, h, -⟩
  rcases hs with hs | hs <;> rw [hs] at h <;> cases h

/-- An entry that has not expired is not older than its lifetime. -/
theorem CacheEntry.age_le {ν : Type} {entry : CacheEntry ν} {now ttl : ℤ} (httl : entry.ttl = ttl)
    (hfits : FitsClock ttl) (h : entry.isExpired now = false) :
    now - entry.timestamp ≤ ttl * second := by
  subst httl
  have hdead : ¬ entry.Dead now := by
    rw [← isExpired_iff hfits, h]
    exact Bool.false_ne_true
  unfold CacheEntry.Dead at hdead
  omega

/-- A card that is found has been looked for, and is in a cache for no longer than its lifetime. -/
theorem Session.Stamped.hit (hs : s.Stamped) {state : σ} {t : Str} {entry : CacheEntry Card}
    (h : (s.at ⟨state, .card t⟩).cardWorld.Hit t entry) :
    LooksUp t entry.value ∧ s.HoldsCard (entry.value, entry.timestamp) ∧
      (s.readings s.reads).now - entry.timestamp ≤ cardTtl * second := by
  unfold World.Hit at h
  unfold LooksUp
  split_ifs at h ⊢
  · obtain ⟨hkey, httl⟩ := hs.numbers t entry h.find
    exact ⟨hkey, Or.inr ⟨t, entry, h.find, rfl⟩, CacheEntry.age_le httl (by decide) h.alive⟩
  · obtain ⟨id, hid, hfinds⟩ := h
    obtain ⟨hkey, httl⟩ := hs.cards id entry hfinds.find
    exact ⟨hid.trans (congrArg some hkey), Or.inl ⟨id, entry, hfinds.find, rfl⟩,
      CacheEntry.age_le httl (by decide) hfinds.alive⟩

/-- **Bounded staleness.**  In every run of `get_card` and `get_user` from empty caches, on a server
that may change between any two calls, a call returns what the server answers at that moment, or a
card or user that has the id or number it asks for and was received from the server by an earlier
call of the run, not more than two minutes before for a card, and ten for a user. -/
theorem answers_fresh (hs : s.Starts) {t : Session σ Text} {es : List (LookupEvent σ)}
    (h : (lookupMachine json server apiPath).run s es = some t) (e : LookupEvent σ) :
    t.Asks json server apiPath e ∨
      match e.call with
      | .card idOrNumber => ∃ card time,
          (t.perform json server apiPath e).1 = some (.card (200, card)) ∧
          LooksUp idOrNumber card ∧
          (lookupMachine json server apiPath).Recorded
            (fun s e p => s.ReceivesCard json server apiPath e p) s es (card, time) ∧
          (t.readings t.reads).now - time ≤ cardTtl * second
      | .user _ userId => ∃ user time,
          (t.perform json server apiPath e).1 = some (.user (200, user)) ∧
          user.id = userId ∧
          (lookupMachine json server apiPath).Recorded
            (fun s e p => s.ReceivesUser json server apiPath e p) s es (user, time) ∧
          (t.userReadings t.userReads).now - time ≤ userTtl * second := by
  have hstamped : t.Stamped := Machine.Reaches.invariant ⟨es, h⟩ hs.stamped fun s e t hs ht => by
    obtain rfl := Option.some.inj ht
    exact hs.perform e
  obtain ⟨state, call⟩ := e
  cases call with
  | card idOrNumber =>
    obtain ⟨answer, w', hperform, hfinds | hfetches⟩ :=
      t.perform_card json server apiPath state idOrNumber
    · obtain ⟨entry, hhit, rfl⟩ := hfinds.answer
      obtain ⟨hlooks, hholds, hage⟩ := hstamped.hit hhit
      have hseen := (Machine.recorded_of_held (M := lookupMachine json server apiPath)
        (I := fun _ => True) (fun _ _ _ _ _ => trivial) (fun s e t p _ ht hp => by
          obtain rfl := Option.some.inj ht
          exact s.holdsCard_perform e p hp) trivial h hholds).resolve_left (hs.not_holdsCard _)
      refine Or.inr ⟨entry.value, entry.timestamp, ?_, hlooks, hseen, hage⟩
      rw [hperform]
    · exact Or.inl (hfetches.asks hperform)
  | user spaceId userId =>
    rcases getUser_counts json server.logged apiPath
      (t.at ⟨state, .user spaceId userId⟩).userWorld spaceId userId with hfinds | hfetches
    · obtain ⟨entry, hhit, hanswer⟩ := hfinds.answer
      obtain ⟨hkey, httl⟩ := hstamped.users userId entry hhit.find
      have hseen := (Machine.recorded_of_held (M := lookupMachine json server apiPath)
        (I := fun _ => True) (fun _ _ _ _ _ => trivial) (fun s e t p _ ht hp => by
          obtain rfl := Option.some.inj ht
          exact s.holdsUser_perform e p hp) trivial h
        ⟨userId, entry, hhit.find, rfl⟩).resolve_left (hs.not_holdsUser _)
      exact Or.inr ⟨entry.value, entry.timestamp,
        congrArg (fun answer => some (Found.user answer)) hanswer, hkey.symm, hseen,
        CacheEntry.age_le httl (by decide) hhit.alive⟩
    · exact Or.inl hfetches.asks

end Runs

/-- The card is renamed between the two calls: the second one is a hit, or asks. -/
theorem hits_add_requests_renamed : ∃ t,
    (lookupMachine .symbolic renamingServer []).run standingSession renamedBetween = some t ∧
      t.hits + t.log.length = 2 := by
  have hrun : (lookupMachine .symbolic renamingServer []).run standingSession renamedBetween =
    some (Session.perform .symbolic renamingServer [] ⟨true, .card (lit "CARD-5")⟩
      (standingSession.perform .symbolic renamingServer []
        ⟨false, .card (lit "CARD-5")⟩).2).2 := rfl
  exact ⟨_, hrun, hits_add_requests .symbolic renamingServer [] hrun⟩

/-- The card that is found is the one from before it was renamed. -/
theorem answers_fresh_renamed : ∃ t,
    (lookupMachine .symbolic renamingServer []).run standingSession
        [⟨false, .card (lit "CARD-5")⟩] = some t ∧
      (t.Asks .symbolic renamingServer [] ⟨true, .card (lit "CARD-5")⟩ ∨ ∃ card time,
        (t.perform .symbolic renamingServer [] ⟨true, .card (lit "CARD-5")⟩).1 =
            some (.card (200, card)) ∧
          LooksUp (lit "CARD-5") card ∧
          (lookupMachine .symbolic renamingServer []).Recorded
            (fun s e p => s.ReceivesCard .symbolic renamingServer [] e p) standingSession
            [⟨false, .card (lit "CARD-5")⟩] (card, time) ∧
          (t.readings t.reads).now - time ≤ cardTtl * second) :=
  ⟨_, rfl, answers_fresh (s := standingSession) (Or.inl rfl) rfl
    ⟨true, .card (lit "CARD-5")⟩⟩

end Kaiten
