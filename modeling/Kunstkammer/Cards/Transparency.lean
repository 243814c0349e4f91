import Kunstkammer.Cards.Caches

/-!
# `get_card` with and without caches

The same history of calls against the same unchanging server, once with the caches and once with
both of them disabled.

* `RepliesWith reply`: the server has a fixed reply for every segment of a path;
* `Transparent`: the two histories are answered the same;
* `transparent_iff`: the histories over a set of segments are transparent exactly when no segment
  looks up a card that the server does not answer it with.
-/

namespace Kaiten

section Histories

variable {σ Text : Type} (json : NlohmannText Text) (server : Server σ Text) (apiPath : Str)

/-- The segment `s` is always replied to with `reply s`. -/
def RepliesWith (reply : Str → ℤ × Text) : Prop :=
  ∀ state s, (server.answer state (.get (cardTarget apiPath s))).1 = reply s

/-- A history of calls. -/
def getCards (segments : List Str) : Run σ Text (List (ℤ × Card)) :=
  segments.mapM (getCard json server apiPath)

/-- Both caches are disabled. -/
def World.disabled (w : World σ Text) : World σ Text :=
  { w with cards := w.cards.setEnabled false, cardNumbers := w.cardNumbers.setEnabled false }

/-- The clock stays within the lifetime of an entry. -/
def WithinLifetime (readings : ℕ → Reading) : Prop :=
  ∃ start, ∀ n, start ≤ (readings n).now ∧ (readings n).now ≤ start + cardTtl * second

/-- The calls are answered the same with and without caches. -/
def Transparent (segments : List Str) (state : σ) (readings : ℕ → Reading) : Prop :=
  ∃ answers w w',
    getCards json server apiPath segments (.initial state readings) = .ok answers w ∧
    getCards json server apiPath segments (World.initial state readings).disabled = .ok answers w'

end Histories

section Histories

variable {σ Text : Type} {json : NlohmannText Text} {server : Server σ Text} {apiPath : Str}
  {reply : Str → ℤ × Text} {segments : List Str} {A : Set Str}

theorem getCards_cons (s : Str) (segments : List Str) :
    getCards json server apiPath (s :: segments) = (do
      let answer ← getCard json server apiPath s
      let answers ← getCards json server apiPath segments
      return answer :: answers : Run σ Text (List (ℤ × Card))) :=
  List.mapM_cons

/-- If every call keeps an invariant and is answered with the reply of the server, so is a whole
history. -/
theorem getCards_of_invariant {I : World σ Text → Prop}
    (hstep : ∀ w s, I w → s ∈ segments → ∃ w',
      getCard json server apiPath s w = .ok (fetchedAnswer json (reply s)) w' ∧ I w')
    {w : World σ Text} (hw : I w) : ∃ w', getCards json server apiPath segments w =
      .ok (segments.map fun s => fetchedAnswer json (reply s)) w' := by
  induction segments generalizing w with
  | nil => exact ⟨w, rfl⟩
  | cons s segments ih =>
    obtain ⟨u, hu, hI⟩ := hstep w s hw List.mem_cons_self
    obtain ⟨v, hv⟩ := ih (fun w t hw ht => hstep w t hw (List.mem_cons_of_mem _ ht)) hI
    refine ⟨v, ?_⟩
    rw [getCards_cons, Effects.bind_ok hu, Effects.bind_ok hv]
    rfl

/-! ### Without caches -/

/-- Both caches are disabled. -/
structure World.Disabled (w : World σ Text) : Prop where
  cards : w.cards.enabled = false
  cardNumbers : w.cardNumbers.enabled = false

theorem getCard_of_disabled (hreply : RepliesWith server apiPath reply) {w : World σ Text}
    (hw : w.Disabled) (s : Str) : ∃ w',
      getCard json server apiPath s w = .ok (fetchedAnswer json (reply s)) w' ∧ w'.Disabled := by
  obtain ⟨answer, w', hget, hcases⟩ := getCard_cases json server apiPath w s
  rcases hcases with ⟨entry, hhit, -⟩ | ⟨-, response, rfl, rfl, -, -, hcaches⟩
  · -- nothing is found in a disabled cache
    unfold World.Hit at hhit
    split_ifs at hhit
    · have hen := hhit.enabled
      rw [hw.cardNumbers] at hen
      cases hen
    · obtain ⟨id, -, hfinds⟩ := hhit
      have hen := hfinds.enabled
      rw [hw.cards] at hen
      cases hen
  · rw [hreply] at hget
    exact ⟨w', hget, hcaches.cards.enabled.trans hw.cards,
      hcaches.cardNumbers.enabled.trans hw.cardNumbers⟩

theorem getCards_of_disabled (hreply : RepliesWith server apiPath reply) (segments : List Str)
    (state : σ) (readings : ℕ → Reading) : ∃ w',
      getCards json server apiPath segments (World.initial state readings).disabled =
        .ok (segments.map fun s => fetchedAnswer json (reply s)) w' :=
  getCards_of_invariant (I := World.Disabled) (fun _ s hw _ => getCard_of_disabled hreply hw s)
    ⟨rfl, rfl⟩

/-! ### With caches -/

variable (json reply A) in
/-- Every entry is the card of a reply to a segment in `A`, under its own id or number. -/
structure FilledFrom (w : World σ Text) : Prop where
  cards : ∀ key entry, w.cards.find key = some entry →
    key = entry.value.id ∧ ∃ s ∈ A, fetchedCard json (reply s) = some entry.value
  cardNumbers : ∀ key entry, w.cardNumbers.find key = some entry →
    key = entry.value.number ∧ ∃ s ∈ A, fetchedCard json (reply s) = some entry.value

theorem FilledFrom.hit {w : World σ Text} (h : FilledFrom json reply A w) {t : Str}
    {entry : CacheEntry Card} (hhit : w.Hit t entry) : LooksUp t entry.value ∧
      ∃ s ∈ A, fetchedCard json (reply s) = some entry.value := by
  unfold World.Hit at hhit
  unfold LooksUp
  split_ifs at hhit ⊢
  · exact h.cardNumbers t entry hhit.find
  · obtain ⟨id, hstoll, hfinds⟩ := hhit
    obtain ⟨rfl, hcard⟩ := h.cards id entry hfinds.find
    exact ⟨hstoll, hcard⟩

theorem FilledFrom.of_cachesFrom {w w' : World σ Text} (h : FilledFrom json reply A w)
    {stored : Option Card} (hcaches : CachesFrom w stored w')
    (hstored : ∀ card, stored = some card → ∃ s ∈ A, fetchedCard json (reply s) = some card) :
    FilledFrom json reply A w' := by
  constructor
  · intro key entry hfind
    rcases hcaches.cards.find key entry hfind with hnew | ⟨hold, -⟩
    · obtain ⟨card, hcard, hpair⟩ := Option.map_eq_some_iff.1 hnew
      obtain ⟨rfl, rfl⟩ := Prod.mk.inj hpair
      exact ⟨rfl, hstored _ hcard⟩
    · exact h.cards key entry hold
  · intro key entry hfind
    rcases hcaches.cardNumbers.find key entry hfind with hnew | ⟨hold, -⟩
    · obtain ⟨card, hcard, hpair⟩ := Option.map_eq_some_iff.1 hnew
      obtain ⟨rfl, rfl⟩ := Prod.mk.inj hpair
      exact ⟨rfl, hstored _ hcard⟩
    · exact h.cardNumbers key entry hold

variable (json reply A) in
/-- A segment that looks up the card of another one is replied to with the same card. -/
def Consistent : Prop :=
  ∀ s ∈ A, ∀ t ∈ A, ∀ card, fetchedCard json (reply s) = some card → LooksUp t card →
    fetchedAnswer json (reply t) = (200, card)

theorem getCard_of_consistent (hreply : RepliesWith server apiPath reply)
    (hA : Consistent json reply A) {w : World σ Text} (hw : FilledFrom json reply A w) {s : Str}
    (hs : s ∈ A) : ∃ w', getCard json server apiPath s w = .ok (fetchedAnswer json (reply s)) w' ∧
      FilledFrom json reply A w' := by
  obtain ⟨answer, w', hget, hcases⟩ := getCard_cases json server apiPath w s
  rcases hcases with ⟨entry, hhit, rfl, -, -, hcaches⟩ | ⟨-, response, rfl, rfl, -, -, hcaches⟩
  · obtain ⟨hlooks, s', hs', hcard⟩ := hw.hit hhit
    rw [hA s' hs' s hs _ hcard hlooks]
    exact ⟨w', hget, hw.of_cachesFrom hcaches fun _ h => by cases h⟩
  · rw [hreply] at hget hcaches
    exact ⟨w', hget, hw.of_cachesFrom hcaches fun card hcard => ⟨s, hs, hcard⟩⟩

theorem transparent_of_consistent (hreply : RepliesWith server apiPath reply)
    (hA : Consistent json reply A) (hsegments : ∀ s ∈ segments, s ∈ A) (state : σ)
    (readings : ℕ → Reading) : Transparent json server apiPath segments state readings := by
  obtain ⟨w, hw⟩ := getCards_of_invariant (I := FilledFrom json reply A)
    (fun w s hw hs => getCard_of_consistent hreply hA hw (hsegments s hs))
    (w := World.initial state readings) ⟨fun _ _ h => (by cases h), fun _ _ h => (by cases h)⟩
  obtain ⟨w', hw'⟩ := getCards_of_disabled hreply segments state readings
  exact ⟨_, w, w', hw, hw'⟩

/-! ### Two calls -/

/-- The clock stands still. -/
def still : ℕ → Reading := fun _ => ⟨0, fun _ => 0, fun _ => 0⟩

/-- After the card of `s` was fetched, a call that looks it up is answered with it. -/
theorem getCard_of_looksUp (hreply : RepliesWith server apiPath reply) {s t : Str} {card : Card}
    (hcard : fetchedCard json (reply s) = some card) (hlooks : LooksUp t card) (state : σ)
    {answer answer' : ℤ × Card} {w w' : World σ Text}
    (hs : getCard json server apiPath s (.initial state still) = .ok answer w)
    (ht : getCard json server apiPath t w = .ok answer' w') : answer' = (200, card) := by
  have hmiss (entry : CacheEntry Card) :
      ¬ (World.initial state still : World σ Text).Hit s entry := by
    intro hhit
    unfold World.Hit at hhit
    split_ifs at hhit
    · cases hhit.find
    · obtain ⟨_, -, hfinds⟩ := hhit
      cases hfinds.find
  have hroom : 0 < 10000 := by decide
  have hroomy : (World.initial state still : World σ Text).Roomy :=
    ⟨⟨rfl, hroom⟩, ⟨rfl, hroom⟩, rfl, rfl⟩
  obtain ⟨hreadings, hcards, hnumbers⟩ := getCard_stores hroomy hmiss (fun _ => rfl)
    (by rw [hreply, hcard]) hs
  have hnow : (w.readings w.reads).now = 0 := by rw [hreadings]; rfl
  have hhit : w.Hit t ⟨card, 0, cardTtl⟩ := by
    unfold World.Hit
    unfold LooksUp at hlooks
    rw [hnow]
    split_ifs at hlooks ⊢
    · rw [hlooks]
      exact hnumbers
    · exact ⟨card.id, hlooks, hcards⟩
  obtain ⟨answer'', w'', hget, hcases⟩ := getCard_cases json server apiPath w t
  rw [ht] at hget
  cases hget
  rcases hcases with ⟨entry, hentry, rfl, -⟩ | ⟨hno, -⟩
  · rw [hentry.unique hhit]
  · exact absurd hhit (hno _)

/-- Two calls that are answered the same with and without caches. -/
theorem consistent_of_transparent (hreply : RepliesWith server apiPath reply) {s t : Str}
    {card : Card} (hcard : fetchedCard json (reply s) = some card) (hlooks : LooksUp t card)
    {state : σ} (h : Transparent json server apiPath [s, t] state still) :
    fetchedAnswer json (reply t) = (200, card) := by
  obtain ⟨answers, w, w', hen, hdis⟩ := h
  obtain ⟨v, hv⟩ : ∃ v, getCards json server apiPath [s, t] (World.initial state still).disabled =
      .ok [fetchedAnswer json (reply s), fetchedAnswer json (reply t)] v :=
    getCards_of_disabled hreply [s, t] state still
  rw [hdis] at hv
  cases hv
  rw [getCards_cons] at hen
  obtain ⟨first, u, hs, hrest⟩ := Effects.bind_eq_ok.1 hen
  obtain ⟨rest, u1, hrest, hlast⟩ := Effects.bind_eq_ok.1 hrest
  rw [getCards_cons] at hrest
  obtain ⟨second, u2, ht, hnil⟩ := Effects.bind_eq_ok.1 hrest
  obtain ⟨last, u3, hempty, hpair⟩ := Effects.bind_eq_ok.1 hnil
  cases hempty
  cases hpair
  cases hlast
  exact getCard_of_looksUp hreply hcard hlooks state hs ht

end Histories

/-- **A history is answered as without caches**, on every server with fixed replies, exactly when
every segment that looks up a card is replied to with that card. -/
theorem transparent_iff {σ Text : Type} (json : NlohmannText Text) (server : Server σ Text)
    (apiPath : Str) {reply : Str → ℤ × Text} (hreply : RepliesWith server apiPath reply)
    (state : σ) (A : Set Str) :
    (∀ (readings : ℕ → Reading) (segments : List Str), WithinLifetime readings →
      (∀ s ∈ segments, s ∈ A) → Transparent json server apiPath segments state readings) ↔
      Consistent json reply A := by
  constructor
  · intro h s hs t ht card hcard hlooks
    have hlifetime : 0 ≤ 0 + cardTtl * second := by decide
    have hstill : WithinLifetime still := ⟨0, fun _ => ⟨le_rfl, hlifetime⟩⟩
    exact consistent_of_transparent hreply hcard hlooks (h still [s, t] hstill (by simp [hs, ht]))
  · intro hA readings segments _ hsegments
    exact transparent_of_consistent hreply hA hsegments state readings

/-! ### A server with one card -/

/-- A server that replies to the segments of paths, and knows nothing else. -/
def replyServer {Text : Type} (reply : Str → ℤ × Text) : Server Unit Text where
  answer _ r :=
    match r with
    | .get target => (reply (target.drop (lit "/cards/").length), ())
    | .post target _ => (reply target, ())
    | .patch target _ => (reply target, ())
  users _ := (fun _ => reply [], ())

theorem replyServer_replies {Text : Type} (reply : Str → ℤ × Text) :
    RepliesWith (replyServer reply) [] reply := by
  intro state s
  show reply ((cardTarget [] s).drop (lit "/cards/").length) = reply s
  rw [cardTarget, List.nil_append, List.drop_left]

/-- The card 5 with the number CARD-5. -/
def cardFive : Json :=
  .object [(lit "id", .integer 5), (lit "number", .string (lit "CARD-5"))]

/-- Only the card 5 is there. -/
def fiveReply (s : Str) : ℤ × Option { j : Json // j.validUtf8 = true } :=
  if s = lit "5" ∨ s = lit "CARD-5" then (200, some ⟨cardFive, by decide +kernel⟩) else (404, none)

/-- What a server is to make of ids and numbers: the card in a response of success has them. -/
structure LawfulReplies {Text : Type} (json : NlohmannText Text) (reply : Str → ℤ × Text) :
    Prop where
  byId : ∀ n : Int64, (reply (intToString n.toInt)).1 = 200 →
    ∃ card, readCard json (reply (intToString n.toInt)).2 = some card ∧ card.id = n
  byNumber : ∀ s, isCardNumber s = true → (reply s).1 = 200 →
    ∃ card, readCard json (reply s).2 = some card ∧ card.number = s

theorem fetchedCard_symbolic (j : { j : Json // j.validUtf8 = true }) :
    fetchedCard .symbolic (200, some j) = Card.fromJson j := by
  rw [fetchedCard, if_pos rfl]
  exact Option.bind_some j.1 Card.fromJson

theorem fiveReply_of_status {s : Str} (h : (fiveReply s).1 = 200) :
    (s = lit "5" ∨ s = lit "CARD-5") ∧ fiveReply s = (200, some ⟨cardFive, by decide +kernel⟩) := by
  unfold fiveReply at h ⊢
  split_ifs at h ⊢ with hs
  · exact ⟨hs, rfl⟩
  · exact absurd h (by decide)

/-- The card 5 as it is read. -/
theorem exists_cardFive :
    ∃ card, Card.fromJson cardFive = some card ∧ card.id = 5 ∧ card.number = lit "CARD-5" := by
  have hsome : (Card.fromJson cardFive).isSome := by decide +kernel
  obtain ⟨card, hcard⟩ := Option.isSome_iff_exists.1 hsome
  obtain ⟨hid, hnumber, -⟩ := Card.fromJson_fields hcard
  exact ⟨card, hcard, hid, hnumber⟩

theorem transparent_iff_five : Transparent .symbolic (replyServer fiveReply) []
    [lit "5", lit "CARD-5", lit "5"] () still := by
  refine (transparent_iff .symbolic (replyServer fiveReply) [] (replyServer_replies fiveReply) ()
    {lit "5", lit "CARD-5"}).2 ?_ still _ ⟨0, fun _ => ⟨le_rfl, ?_⟩⟩ (by simp)
  · intro s hs t ht card hcard hlooks
    have hreply {r : Str} (hr : r ∈ ({lit "5", lit "CARD-5"} : Set Str)) :
        fiveReply r = (200, some ⟨cardFive, by decide +kernel⟩) := by
      rw [fiveReply, if_pos (by simpa using hr)]
    rw [hreply hs] at hcard
    rw [fetchedAnswer, hreply ht, hcard, Option.getD_some]
  · show (0 : ℤ) ≤ 0 + cardTtl * second
    decide

theorem fiveReply_lawful : LawfulReplies .symbolic fiveReply := by
  obtain ⟨card, hcard, hid, hnumber⟩ := exists_cardFive
  have hread {s : Str} (h : (fiveReply s).1 = 200) :
      readCard .symbolic (fiveReply s).2 = some card := by
    rw [(fiveReply_of_status h).2]
    exact (Option.bind_some cardFive Card.fromJson).trans hcard
  constructor
  · intro n hn
    refine ⟨card, hread hn, hid.trans ?_⟩
    have hstoll := stoll_intToString n
    rcases (fiveReply_of_status hn).1 with h | h
    · rw [h, show stoll (lit "5") = some 5 by decide +kernel] at hstoll
      exact Option.some.inj hstoll
    · rw [h, show stoll (lit "CARD-5") = none by decide +kernel] at hstoll
      cases hstoll
  · intro s hs hstatus
    refine ⟨card, hread hstatus, hnumber.trans ?_⟩
    rcases (fiveReply_of_status hstatus).1 with rfl | rfl
    · exact absurd hs (by decide)
    · rfl

/-- The second call asks for nothing the server has, and is answered with the card 5. -/
theorem trailing_garbage_answered : LawfulReplies .symbolic fiveReply ∧
    RepliesWith (replyServer fiveReply) [] fiveReply ∧ WithinLifetime still ∧
    ¬ Transparent .symbolic (replyServer fiveReply) [] [lit "5", lit "5abc"] () still := by
  refine ⟨fiveReply_lawful, replyServer_replies _, ⟨0, fun _ => ⟨le_rfl, ?_⟩⟩, fun h => ?_⟩
  · show (0 : ℤ) ≤ 0 + cardTtl * second
    decide
  · obtain ⟨card, hcard, hid, -⟩ := exists_cardFive
    have hlooks : LooksUp (lit "5abc") card := by
      rw [LooksUp, if_neg (by decide), hid]
      decide +kernel
    have habs := consistent_of_transparent (replyServer_replies fiveReply)
      ((fetchedCard_symbolic _).trans hcard) hlooks h
    have hstatus : (fiveReply (lit "5abc")).1 = 200 := congrArg Prod.fst habs
    exact absurd hstatus (by decide +kernel)

end Kaiten
