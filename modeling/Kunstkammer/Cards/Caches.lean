import Kunstkammer.Cards.Operations

/-!
# What `get_card` does

All that one call can do, said once: it returns a card of a cache, or it asks the server and stores
the card that comes back.

* `LooksUp t card`: the call for `t` looks up the id, or the number, of `card`;
* `fetchedCard`, `fetchedAnswer`: what a response amounts to;
* `World.Hit w s entry`: the call for `s` finds `entry`; `World.Stores`: it would, were that not
  expired;
* `CachesFrom w stored w'`: the caches of `w'` hold what those of `w` held, and the card `stored`;
* `getCard_cases`.
-/

namespace Kaiten

/-- The call for `t` looks for the id of the card, or for its number. -/
def LooksUp (t : Str) (card : Card) : Prop :=
  if isCardNumber t then t = card.number else stoll t = some card.id

section Caches

variable {σ Text : Type}

/-- The card in a response of success. -/
def fetchedCard (json : NlohmannText Text) (response : ℤ × Text) : Option Card :=
  if response.1 = 200 then readCard json response.2 else none

/-- What `get_card` makes of a response. -/
def fetchedAnswer (json : NlohmannText Text) (response : ℤ × Text) : ℤ × Card :=
  (response.1, (fetchedCard json response).getD {})

/-- The call for `s` finds `entry` in the cache it looks into. -/
def World.Hit (w : World σ Text) (s : Str) (entry : CacheEntry Card) : Prop :=
  if isCardNumber s then w.cardNumbers.Finds (w.readings w.reads).now s entry
  else ∃ id, stoll s = some id ∧ w.cards.Finds (w.readings w.reads).now id entry

theorem World.Hit.unique {w : World σ Text} {s : Str} {entry entry' : CacheEntry Card}
    (h : w.Hit s entry) (h' : w.Hit s entry') : entry = entry' := by
  unfold World.Hit at h h'
  split_ifs at h h'
  · exact Option.some.inj (h.find.symm.trans h'.find)
  · obtain ⟨id, hid, hfinds⟩ := h
    obtain ⟨id', hid', hfinds'⟩ := h'
    obtain rfl := Option.some.inj (hid.symm.trans hid')
    exact Option.some.inj (hfinds.find.symm.trans hfinds'.find)

/-- The caches of `w'` are those of `w`, less some entries, and with the card `stored` under its id
and under its number. -/
structure CachesFrom (w : World σ Text) (stored : Option Card) (w' : World σ Text) : Prop where
  cards : w.cards.Updates (stored.map fun card => (card.id, card)) w'.cards
  cardNumbers : w.cardNumbers.Updates (stored.map fun card => (card.number, card)) w'.cardNumbers

/-- `entry` is in the cache that the call for `s` looks into, expired or not. -/
def World.Stores (w : World σ Text) (s : Str) (entry : CacheEntry Card) : Prop :=
  if isCardNumber s then w.cardNumbers.find s = some entry
  else ∃ id, stoll s = some id ∧ w.cards.find id = some entry

theorem World.Hit.stores {w : World σ Text} {s : Str} {entry : CacheEntry Card}
    (h : w.Hit s entry) : w.Stores s entry := by
  unfold World.Hit at h
  unfold World.Stores
  split_ifs at h ⊢
  · exact h.find
  · obtain ⟨id, hid, hfinds⟩ := h
    exact ⟨id, hid, hfinds.find⟩

/-- Both caches are enabled. -/
structure World.Enabled (w : World σ Text) : Prop where
  cards : w.cards.enabled = true
  cardNumbers : w.cardNumbers.enabled = true

theorem CachesFrom.enabled {w w' : World σ Text} {stored : Option Card}
    (h : CachesFrom w stored w') (hw : w.Enabled) : w'.Enabled :=
  ⟨h.cards.enabled.trans hw.cards, h.cardNumbers.enabled.trans hw.cardNumbers⟩

/-- What is stored is the new card, where that is looked up, or else an old entry. -/
theorem CachesFrom.stores {w w' : World σ Text} {stored : Option Card} (h : CachesFrom w stored w')
    (hw : w.Enabled) {t : Str} {entry : CacheEntry Card} (ht : w'.Stores t entry) :
    (stored = some entry.value ∧ LooksUp t entry.value) ∨
      w.Stores t entry ∧ ∀ card, stored = some card → ¬ LooksUp t card := by
  unfold World.Stores at ht ⊢
  unfold LooksUp
  split_ifs at ht ⊢
  · rcases h.cardNumbers.find t entry ht with hnew | ⟨hold, hother⟩
    · obtain ⟨card, hcard, hpair⟩ := Option.map_eq_some_iff.1 hnew
      obtain ⟨rfl, rfl⟩ := Prod.mk.inj hpair
      exact Or.inl ⟨hcard, rfl⟩
    · refine Or.inr ⟨hold, fun card hcard hlooks => hother hw.cardNumbers card ?_⟩
      rw [hcard, hlooks, Option.map_some]
  · obtain ⟨id, hid, hfind⟩ := ht
    rcases h.cards.find id entry hfind with hnew | ⟨hold, hother⟩
    · obtain ⟨card, hcard, hpair⟩ := Option.map_eq_some_iff.1 hnew
      obtain ⟨rfl, rfl⟩ := Prod.mk.inj hpair
      exact Or.inl ⟨hcard, hid⟩
    · refine Or.inr ⟨⟨id, hid, hold⟩, fun card hcard hlooks => hother hw.cards card ?_⟩
      rw [hcard, Option.map_some, Option.some.inj (hid.symm.trans hlooks)]

/-- The caches are asked: the card of a hit is found. -/
theorem cached_spec (w : World σ Text) (s : Str) : ∃ found w', cached s w = .ok found w' ∧
    w'.server = w.server ∧ w'.log = w.log ∧ CachesFrom w none w' ∧
    ∀ card, found = some card ↔ ∃ entry, w.Hit s entry ∧ entry.value = card := by
  unfold cached World.Hit
  split_ifs with hnumber
  · exact ⟨_, _, rfl, rfl, rfl, ⟨.refl _, Cache.updates_get _ _ _⟩, fun card =>
      Cache.get_eq_some_iff⟩
  · cases hstoll : stoll s with
    | none =>
      refine ⟨none, w, rfl, rfl, rfl, ⟨.refl _, .refl _⟩, fun card =>
        ⟨fun h => (by cases h), ?_⟩⟩
      rintro ⟨_, ⟨_, habs, -⟩, -⟩
      cases habs
    | some id =>
      refine ⟨_, _, rfl, rfl, rfl, ⟨Cache.updates_get _ _ _, .refl _⟩, fun card => ?_⟩
      refine Cache.get_eq_some_iff.trans ⟨?_, ?_⟩
      · rintro ⟨entry, hfinds, hvalue⟩
        exact ⟨entry, ⟨id, rfl, hfinds⟩, hvalue⟩
      · rintro ⟨entry, ⟨_, ⟨⟩, hfinds⟩, hvalue⟩
        exact ⟨entry, hfinds, hvalue⟩

variable (json : NlohmannText Text) (server : Server σ Text) (apiPath : Str)

/-- The call for `s` returns a card of a cache. -/
def AnsweredByCache (w : World σ Text) (s : Str) (answer : ℤ × Card) (w' : World σ Text) : Prop :=
  ∃ entry, w.Hit s entry ∧ answer = (200, entry.value) ∧ w'.server = w.server ∧ w'.log = w.log ∧
    CachesFrom w none w'

/-- The call for `s` asks the server and stores what comes back. -/
def AnsweredByServer (w : World σ Text) (s : Str) (answer : ℤ × Card) (w' : World σ Text) : Prop :=
  ∃ response, response = (server.answer w.server (.get (cardTarget apiPath s))).1 ∧
    answer = fetchedAnswer json response ∧
    w'.server = (server.answer w.server (.get (cardTarget apiPath s))).2 ∧
    w'.log = w.log ++ [.request (.get (cardTarget apiPath s)) response] ∧
    CachesFrom w (fetchedCard json response) w'

/-- There is room in both caches, and their entries live for two minutes. -/
structure World.Roomy (w : World σ Text) : Prop where
  cards : w.cards.Roomy
  cardNumbers : w.cardNumbers.Roomy
  cardsTtl : w.cards.defaultTtl = cardTtl
  cardNumbersTtl : w.cardNumbers.defaultTtl = cardTtl

theorem cached_roomy {w w' : World σ Text} {s : Str} {found : Option Card} (h : w.Roomy)
    (hcached : cached s w = .ok found w') : w'.Roomy ∧ w'.readings = w.readings := by
  unfold cached at hcached
  split_ifs at hcached
  · cases hcached
    exact ⟨⟨h.cards, h.cardNumbers.get _ _, h.cardsTtl,
      (Cache.defaultTtl_get _ _ _).trans h.cardNumbersTtl⟩, rfl⟩
  · cases hstoll : stoll s with
    | none =>
      rw [hstoll] at hcached
      cases hcached
      exact ⟨h, rfl⟩
    | some id =>
      rw [hstoll] at hcached
      cases hcached
      exact ⟨⟨h.cards.get _ _, h.cardNumbers, (Cache.defaultTtl_get _ _ _).trans h.cardsTtl,
        h.cardNumbersTtl⟩, rfl⟩

/-- The call for `s` misses: nothing comes from the caches. -/
theorem cached_eq_none_iff {w : World σ Text} {s : Str} :
    (∃ w', cached s w = .ok none w') ↔ ∀ entry, ¬ w.Hit s entry := by
  obtain ⟨found, u, hcached, -, -, -, hhit⟩ := cached_spec w s
  constructor
  · rintro ⟨w', h⟩ entry hentry
    rw [hcached] at h
    cases h
    cases (hhit entry.value).2 ⟨entry, hentry, rfl⟩
  · intro hmiss
    cases found with
    | none => exact ⟨u, hcached⟩
    | some card =>
      obtain ⟨entry, hentry, -⟩ := (hhit card).1 rfl
      exact absurd hentry (hmiss entry)

/-- After a miss the server is asked. -/
theorem fetchCard_spec (w : World σ Text) (s : Str) : ∃ answer w',
    fetchCard json server apiPath s w = .ok answer w' ∧
    AnsweredByServer json server apiPath w s answer w' := by
  have hsend : send server (.get (cardTarget apiPath s)) w = .ok
      (server.answer w.server (.get (cardTarget apiPath s))).1
      (w.afterSend server (.get (cardTarget apiPath s))) := rfl
  unfold fetchCard
  rw [Effects.bind_ok hsend]
  generalize hresponse : (server.answer w.server (.get (cardTarget apiPath s))).1 = response
  have hlog : (w.afterSend server (.get (cardTarget apiPath s))).log =
      w.log ++ [.request (.get (cardTarget apiPath s)) response] := by
    rw [World.afterSend, hresponse]
  by_cases hstatus : response.1 = 200
  · rw [if_pos hstatus]
    cases hread : readCard json response.2 with
    | none =>
      have hfetched : fetchedCard json response = none := by rw [fetchedCard, if_pos hstatus, hread]
      refine ⟨_, _, rfl, response, hresponse.symm, ?_, rfl, hlog, ?_⟩
      · rw [fetchedAnswer, hfetched, Option.getD_none]
      · rw [hfetched]
        exact ⟨.refl _, .refl _⟩
    | some card =>
      have hfetched : fetchedCard json response = some card := by
        rw [fetchedCard, if_pos hstatus, hread]
      refine ⟨_, _, rfl, response, hresponse.symm, ?_, rfl, hlog, ?_⟩
      · rw [fetchedAnswer, hfetched, Option.getD_some]
      · rw [hfetched]
        exact ⟨Cache.updates_put _ _ _ _ _ _, Cache.updates_put _ _ _ _ _ _⟩
  · have hfetched : fetchedCard json response = none := by rw [fetchedCard, if_neg hstatus]
    rw [if_neg hstatus]
    refine ⟨_, _, rfl, response, hresponse.symm, ?_, rfl, hlog, ?_⟩
    · rw [fetchedAnswer, hfetched, Option.getD_none]
    · rw [hfetched]
      exact ⟨.refl _, .refl _⟩

/-- **All that `get_card` can do**: the card of a hit, or else the answer of the server. -/
theorem getCard_cases (w : World σ Text) (s : Str) : ∃ answer w',
    getCard json server apiPath s w = .ok answer w' ∧
    (AnsweredByCache w s answer w' ∨
      (∀ entry, ¬ w.Hit s entry) ∧ AnsweredByServer json server apiPath w s answer w') := by
  obtain ⟨found, u, hcached, hserver, hlog, hcaches, hhit⟩ := cached_spec w s
  unfold getCard
  rw [Effects.bind_ok hcached]
  cases found with
  | some card =>
    obtain ⟨entry, hentry, rfl⟩ := (hhit card).1 rfl
    exact ⟨_, u, rfl, Or.inl ⟨entry, hentry, rfl, hserver, hlog, hcaches⟩⟩
  | none =>
    obtain ⟨answer, w', hfetch, response, hresponse, hanswer, hserver', hlog', hcaches'⟩ :=
      fetchCard_spec json server apiPath u s
    rw [hserver] at hresponse hserver'
    rw [hlog] at hlog'
    have hmiss : ∀ entry, ¬ w.Hit s entry := fun entry hentry => by
      cases (hhit entry.value).2 ⟨entry, hentry, rfl⟩
    exact ⟨answer, w', hfetch, Or.inr ⟨hmiss, response, hresponse, hanswer, hserver', hlog',
      hcaches.cards.trans hcaches'.cards, hcaches.cardNumbers.trans hcaches'.cardNumbers⟩⟩

variable {json server apiPath}

/-- A card that was fetched is found at once, by its id and by its number. -/
theorem getCard_stores {w w' : World σ Text} {s : Str} {answer : ℤ × Card} (hw : w.Roomy)
    (hmiss : ∀ entry, ¬ w.Hit s entry) {now : ℤ} (hnow : ∀ n, (w.readings n).now = now)
    {card : Card} (hcard : fetchedCard json
      (server.answer w.server (.get (cardTarget apiPath s))).1 = some card)
    (hget : getCard json server apiPath s w = .ok answer w') :
    w'.readings = w.readings ∧
      w'.cards.Finds now card.id ⟨card, now, cardTtl⟩ ∧
      w'.cardNumbers.Finds now card.number ⟨card, now, cardTtl⟩ := by
  obtain ⟨found, u, hcached, hserver, -⟩ := cached_spec w s
  obtain ⟨u', hnone⟩ := cached_eq_none_iff.2 hmiss
  rw [hcached] at hnone
  cases hnone
  obtain ⟨hu, hreadings⟩ := cached_roomy hw hcached
  obtain ⟨hstatus, hread⟩ : (server.answer w.server (.get (cardTarget apiPath s))).1.1 = 200 ∧
      readCard json (server.answer w.server (.get (cardTarget apiPath s))).1.2 = some card := by
    unfold fetchedCard at hcard
    split_ifs at hcard with hstatus
    exact ⟨hstatus, hcard⟩
  rw [← hserver] at hstatus hread
  have hfetch : fetchCard json server apiPath s u = (do
      storeCard card
      return ((server.answer u.server (.get (cardTarget apiPath s))).1.1, card) : Run σ Text _)
      (u.afterSend server (.get (cardTarget apiPath s))) := by
    have hsend : send server (.get (cardTarget apiPath s)) u = .ok
        (server.answer u.server (.get (cardTarget apiPath s))).1
        (u.afterSend server (.get (cardTarget apiPath s))) := rfl
    unfold fetchCard
    rw [Effects.bind_ok hsend, if_pos hstatus, hread]
  have hrun : getCard json server apiPath s w = fetchCard json server apiPath s u := by
    unfold getCard
    rw [Effects.bind_ok hcached]
  rw [hrun, hfetch] at hget
  cases hget
  have hfirst : (u.readings u.reads).now = now := by rw [hreadings, hnow]
  have hsecond : (u.readings (u.reads + 1)).now = now := by rw [hreadings, hnow]
  have halive : CacheEntry.isExpired now (⟨card, now, cardTtl⟩ : CacheEntry Card) = false := by
    have hpositive : ¬ 0 > toNanoseconds cardTtl := by decide
    rw [CacheEntry.isExpired, sub_self]
    exact decide_eq_false hpositive
  refine ⟨hreadings, ⟨?_, ?_, halive⟩, ⟨?_, ?_, halive⟩⟩
  · exact (Cache.updates_put _ _ _ _ _ _).enabled.trans hu.cards.enabled
  · refine (hu.cards.find_put _ _ _ _ _).trans (congrArg some ?_)
    exact CacheEntry.ext rfl hfirst hu.cardsTtl
  · exact (Cache.updates_put _ _ _ _ _ _).enabled.trans hu.cardNumbers.enabled
  · refine (hu.cardNumbers.find_put _ _ _ _ _).trans (congrArg some ?_)
    exact CacheEntry.ext rfl hsecond hu.cardNumbersTtl

end Caches

end Kaiten
