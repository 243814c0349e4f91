import Kunstkammer.Cards.Caches
import Kunstkammer.Foundation.Transition

/-!
# Reading one's own writes

`get_card`, `update_card`, `add_tag_to_card` and `add_child_card` in any order, against a server
that nobody else talks to.  The clock may move as it likes between the calls.

* `CardStore`: which card a segment names, and which version of a card the server holds;
* `CardCall`, `CardHistory`, `cardMachine`: the calls, and the world with a record of each call;
* `ReadsHeld`: `get_card` returns the card as the server holds it;
* `FindsFresh`: `get_card` finds no card that was stored before the card last changed;
* `read_own_writes`.
-/

namespace Kaiten

/-! ### Servers that hold cards -/

/-- A server that holds cards.  Whatever it answers with a card, that is the version it holds of
the card named. -/
structure CardStore {σ Text : Type} (json : NlohmannText Text) (server : Server σ Text)
    (apiPath : Str) where
  names : Str → Option Int64
  holds : σ → Int64 → Option Card
  reply : ∀ state s card,
    fetchedCard json (server.answer state (.get (cardTarget apiPath s))).1 = some card →
      ∃ id, names s = some id ∧ holds state id = some card
  id : ∀ state id card, holds state id = some card → card.id = id
  number : ∀ state id card, holds state id = some card → isCardNumber card.number = true →
    names card.number = some id
  numeric : ∀ s id n, names s = some id → isCardNumber s = false → stoll s = some n → n = id

/-- A name that looks up a held card is a name of it. -/
theorem CardStore.eq_of_looksUp {σ Text : Type} {json : NlohmannText Text}
    {server : Server σ Text} {apiPath : Str} (store : CardStore json server apiPath) {state : σ}
    {id id' : Int64} {card : Card} (hcard : store.holds state id = some card) {t : Str}
    (hlooks : LooksUp t card) (ht : store.names t = some id') : id' = id := by
  unfold LooksUp at hlooks
  split_ifs at hlooks with hnumber
  · subst hlooks
    exact Option.some.inj (ht.symm.trans (store.number state id card hcard hnumber))
  · have hn := store.numeric t id' card.id ht (by simpa using hnumber) hlooks
    exact hn.symm.trans (store.id state id card hcard)

/-- A call of the client. -/
inductive CardCall
  | get (idOrNumber : Str)
  | update (idOrNumber title : Str)
  | addTag (cardId : Int64) (tag : Str)
  | addChild (parentCardId childCardId : Int64)

/-- What a call did: the card it fetched, and the cards that changed at the server meanwhile. -/
structure CallRecord where
  fetched : Option Card
  changed : Set Int64

/-- A world, and the calls so far, the last one first. -/
structure CardHistory (σ Text : Type) where
  world : World σ Text
  past : List CallRecord

section Calls

variable {σ Text : Type} (json : NlohmannText Text) (server : Server σ Text) (apiPath : Str)

/-- A call, and the status it returns. -/
def CardCall.run : CardCall → Run σ Text ℤ
  | .get idOrNumber => do return (← getCard json server apiPath idOrNumber).1
  | .update idOrNumber title => do return (← updateCard json server apiPath idOrNumber title).1
  | .addTag cardId tag => do return (← addTagToCard json server apiPath cardId tag).1
  | .addChild parentCardId childCardId => do
      return (← addChildCard json server apiPath parentCardId childCardId).1

/-- The card that a call fetches: one that is read, and is in no cache. -/
def CardCall.fetched (call : CardCall) (w : World σ Text) : Option Card :=
  match call with
  | .get idOrNumber =>
      match cached idOrNumber w with
      | .ok none _ =>
          fetchedCard json (server.answer w.server (.get (cardTarget apiPath idOrNumber))).1
      | _ => none
  | _ => none

/-- The status, where the call did not throw. -/
def returned {α : Type} : EStateM.Result Stop (World σ Text) α → Option α
  | .ok a _ => some a
  | .error _ _ => none

variable {json server apiPath}

/-- The history after one more call. -/
def CardStore.after (store : CardStore json server apiPath) (h : CardHistory σ Text)
    (call : CardCall) : CardHistory σ Text where
  world := Effects.state (call.run json server apiPath h.world)
  past :=
    { fetched := call.fetched json server apiPath h.world
      changed := {id | store.holds h.world.server id ≠
        store.holds (Effects.state (call.run json server apiPath h.world)).server id} } :: h.past

/-- The calls as steps, each answered with its status. -/
def cardMachine (store : CardStore json server apiPath) :
    Machine (CardHistory σ Text) CardCall (Option ℤ) where
  step h call := some (store.after h call, returned (call.run json server apiPath h.world))

theorem cardMachine_next (store : CardStore json server apiPath) (h : CardHistory σ Text)
    (call : CardCall) : (cardMachine store).next h call = some (store.after h call) := rfl

/-! ### What is promised -/

/-- The call of `get_card` for a card returns what the server answers now, or the card as the server
holds it now. -/
def ReadsHeld (store : CardStore json server apiPath) (h : CardHistory σ Text) : CardCall → Prop
  | .get s => ∀ id, store.names s = some id → ∃ answer w',
      getCard json server apiPath s h.world = .ok answer w' ∧
      (answer = fetchedAnswer json
          (server.answer h.world.server (.get (cardTarget apiPath s))).1 ∨
        ∃ card, store.holds h.world.server id = some card ∧ answer = (200, card))
  | _ => True

/-- Since the card named `s` last changed, a call has fetched it under what `s` looks up. -/
def CardStore.FetchedSince (store : CardStore json server apiPath) (s : Str) :
    List CallRecord → Prop :=
  Since (fun r => ∃ card, r.fetched = some card ∧ LooksUp s card)
    (fun r => ∃ id ∈ r.changed, store.names s = some id)

/-- What a call of `get_card` finds in a cache was stored after the card last changed. -/
def FindsFresh (store : CardStore json server apiPath) (h : CardHistory σ Text) : CardCall → Prop
  | .get s => ∀ entry, h.world.Hit s entry → store.FetchedSince s h.past
  | _ => True

/-! ### One call -/

/-- A payload is sent, and the answer evaluated: the caches are left alone. -/
theorem keeps_write {α : Type} (payload : Json) (request : Text → Request Text)
    (f : ℤ × Text → Run σ Text α)
    (hf : ∀ response, Effects.Keeps (fun w => (w.cards, w.cardNumbers)) (f response)) :
    Effects.Keeps (fun w => (w.cards, w.cardNumbers)) (do
      let body ← dump json payload
      let response ← send server (request body)
      f response : Run σ Text α) := by
  refine Effects.Keeps.bind ?_ fun body => Effects.Keeps.bind (fun _ => rfl) hf
  unfold dump
  split
  · exact .pure _
  · exact .throw _

theorem cachesFrom_of_keeps {α : Type} {m : Run σ Text α}
    (hm : Effects.Keeps (fun w => (w.cards, w.cardNumbers)) m) (w : World σ Text) :
    CachesFrom w none (Effects.state (m w)) := by
  obtain ⟨hcards, hnumbers⟩ := Prod.mk.inj (hm w)
  constructor
  · rw [hcards]
    exact .refl _
  · rw [hnumbers]
    exact .refl _

/-- A call stores the card it fetches, and no other. -/
theorem cachesFrom_run (call : CardCall) (w : World σ Text) :
    CachesFrom w (call.fetched json server apiPath w)
      (Effects.state (call.run json server apiPath w)) := by
  cases call with
  | get s =>
    obtain ⟨answer, w', hget, hcases⟩ := getCard_cases json server apiPath w s
    have hstate : Effects.state ((CardCall.get s).run json server apiPath w) = w' :=
      (Effects.state_bind_pure _ _ _).trans (congrArg Effects.state hget)
    rw [hstate]
    dsimp only [CardCall.fetched]
    rcases hcases with ⟨entry, hentry, -, -, -, hcaches⟩ | ⟨hmiss, response, rfl, -, -, -, hcaches⟩
    · split
      · rename_i hnone
        exact absurd hentry (cached_eq_none_iff.1 ⟨_, hnone⟩ entry)
      · exact hcaches
    · obtain ⟨u, hnone⟩ := cached_eq_none_iff.2 hmiss
      rw [hnone]
      exact hcaches
  | update s title =>
    refine cachesFrom_of_keeps (Effects.Keeps.bind (keeps_write _ _ _ fun response => ?_)
      fun _ => .pure _) w
    split_ifs
    · exact .pure _
    · exact .pure _
  | addTag cardId tag =>
    exact cachesFrom_of_keeps (Effects.Keeps.bind (keeps_write _ _ _ fun _ => .pure _)
      fun _ => .pure _) w
  | addChild parentCardId childCardId =>
    exact cachesFrom_of_keeps (Effects.Keeps.bind (keeps_write _ _ _ fun _ => .pure _)
      fun _ => .pure _) w

/-- What a call fetches is held by the server. -/
theorem CardStore.holds_of_fetched (store : CardStore json server apiPath) {call : CardCall}
    {w : World σ Text} {card : Card} (h : call.fetched json server apiPath w = some card) :
    ∃ id, store.holds w.server id = some card := by
  cases call with
  | get s =>
    unfold CardCall.fetched at h
    dsimp only at h
    split at h
    · obtain ⟨id, -, hcard⟩ := store.reply w.server s card h
      exact ⟨id, hcard⟩
    · cases h
  | update s title => cases h
  | addTag cardId tag => cases h
  | addChild parentCardId childCardId => cases h

/-! ### The invariant -/

/-- A stored card that was fetched since it last changed is the one the server holds. -/
structure Coherent (store : CardStore json server apiPath) (h : CardHistory σ Text) : Prop where
  enabled : h.world.Enabled
  current : ∀ t entry id, h.world.Stores t entry → store.names t = some id →
    store.FetchedSince t h.past → store.holds h.world.server id = some entry.value

theorem coherent_initial (store : CardStore json server apiPath) (state : σ)
    (readings : ℕ → Reading) : Coherent store ⟨.initial state readings, []⟩ :=
  ⟨⟨rfl, rfl⟩, fun _ _ _ _ _ habs => habs.elim⟩

theorem coherent_after {store : CardStore json server apiPath} {h : CardHistory σ Text}
    (hh : Coherent store h) (call : CardCall) : Coherent store (store.after h call) := by
  have hcaches : CachesFrom h.world (call.fetched json server apiPath h.world)
      (store.after h call).world := cachesFrom_run call h.world
  refine ⟨hcaches.enabled hh.enabled, fun t entry id hstores hid hsince => ?_⟩
  obtain ⟨hunchanged, hsince⟩ := hsince
  -- the card did not change during this call
  have hsame : store.holds (store.after h call).world.server id =
      store.holds h.world.server id := by
    by_contra hne
    exact hunchanged ⟨id, Ne.symm hne, hid⟩
  rw [hsame]
  rcases hcaches.stores hh.enabled hstores with ⟨hfetched, hlooks⟩ | ⟨hold, hother⟩
  · obtain ⟨id', hcard⟩ := store.holds_of_fetched hfetched
    rw [store.eq_of_looksUp hcard hlooks hid]
    exact hcard
  · rcases hsince with ⟨card, hcard, hlooks⟩ | hsince
    · exact absurd hlooks (hother card hcard)
    · exact hh.current t entry id hold hid hsince

theorem readsHeld_of_findsFresh {store : CardStore json server apiPath} {h : CardHistory σ Text}
    (hh : Coherent store h) {call : CardCall} (hfresh : FindsFresh store h call) :
    ReadsHeld store h call := by
  cases call with
  | get s =>
    intro id hid
    obtain ⟨answer, w', hget, hcases⟩ := getCard_cases json server apiPath h.world s
    refine ⟨answer, w', hget, ?_⟩
    rcases hcases with ⟨entry, hentry, rfl, -⟩ | ⟨-, response, rfl, rfl, -⟩
    · have hcard := hh.current s entry id hentry.stores hid (hfresh entry hentry)
      exact Or.inr ⟨entry.value, hcard, rfl⟩
    · exact Or.inl rfl
  | update s title => trivial
  | addTag cardId tag => trivial
  | addChild parentCardId childCardId => trivial

/-- **A client reads what it has written**, along every run in which no call finds a card that was
stored before the card last changed. -/
theorem read_own_writes (store : CardStore json server apiPath) (state : σ)
    (readings : ℕ → Reading) (calls : List CardCall)
    (h : (cardMachine store).Along (fun h call _ => FindsFresh store h call)
      ⟨.initial state readings, []⟩ calls) :
    (cardMachine store).Along (fun h call _ => ReadsHeld store h call)
      ⟨.initial state readings, []⟩ calls := by
  refine Machine.Along.imp (I := Coherent store) ?_ ?_ (coherent_initial store state readings) h
  · intro h call h' hh hnext _
    rw [cardMachine_next] at hnext
    cases hnext
    exact coherent_after hh call
  · intro h call _ hh _ hfresh
    exact readsHeld_of_findsFresh hh hfresh

end Calls

/-! ### A server with one card -/

/-- The card 5 with the number CARD-5, before and after its title is changed. -/
def retitledCard (changed : Bool) : Json :=
  .object [(lit "id", .integer 5), (lit "number", .string (lit "CARD-5")),
    (lit "title", .string (if changed then lit "new" else lit "old"))]

theorem retitledCard_valid (changed : Bool) : (retitledCard changed).validUtf8 = true := by
  cases changed
  · decide +kernel
  · decide +kernel

/-- The two paths of the card 5. -/
def retitledTargets : List Str := [lit "/cards/5", lit "/cards/CARD-5"]

theorem cardTarget_mem_retitledTargets {s : Str} :
    cardTarget [] s ∈ retitledTargets ↔ s = lit "5" ∨ s = lit "CARD-5" := by
  have hfive : lit "/cards/5" = lit "/cards/" ++ lit "5" := by decide
  have hnumber : lit "/cards/CARD-5" = lit "/cards/" ++ lit "CARD-5" := by decide
  rw [cardTarget, List.nil_append, retitledTargets, List.mem_pair, hfive, hnumber,
    List.append_cancel_left_eq, List.append_cancel_left_eq]

/-- A server of the card 5, whose state says whether the title was changed. -/
def retitlingServer : Server Bool (Option { j : Json // j.validUtf8 = true }) where
  answer changed r :=
    match r with
    | .get target =>
        if target ∈ retitledTargets then
          ((200, some ⟨retitledCard changed, retitledCard_valid changed⟩), changed)
        else ((404, none), changed)
    | .patch target _ =>
        if target ∈ retitledTargets then
          ((200, some ⟨retitledCard true, retitledCard_valid true⟩), true)
        else ((404, none), changed)
    | .post _ _ => ((404, none), changed)
  users changed := (fun _ => (404, none), changed)

/-- What that server holds. -/
def retitlingStore : CardStore .symbolic retitlingServer [] where
  names s := if s = lit "5" ∨ s = lit "CARD-5" then some 5 else none
  holds changed id := if id = 5 then Card.fromJson (retitledCard changed) else none
  reply changed s card h := by
    by_cases hs : cardTarget [] s ∈ retitledTargets
    · refine ⟨5, if_pos (cardTarget_mem_retitledTargets.1 hs), ?_⟩
      simp only [retitlingServer, if_pos hs] at h
      rw [if_pos rfl, ← h]
      exact (Option.bind_some _ Card.fromJson).symm
    · simp only [retitlingServer, if_neg hs] at h
      cases h
  id changed id card h := by
    split_ifs at h with hid
    exact (Card.fromJson_fields h).1.trans hid.symm
  number changed id card h _ := by
    split_ifs at h with hid
    have hnumber : card.number = lit "CARD-5" := (Card.fromJson_fields h).2.1
    rw [if_pos (Or.inr hnumber), hid]
  numeric s id n h hs hn := by
    split_ifs at h with hname
    rcases hname with rfl | rfl
    · have hfive : stoll (lit "5") = some 5 := by decide +kernel
      exact Option.some.inj (hn.symm.trans (hfive.trans h))
    · exact absurd hs (by decide)

/-- A clock that moves on by `step` at each reading. -/
def ticking (step : ℤ) : ℕ → Reading := fun n => ⟨n * step, fun _ => n * step, fun _ => n * step⟩

/-- The card is read, changed, and read again. -/
def retitling : List CardCall := [.get (lit "5"), .update (lit "5") (lit "new"), .get (lit "5")]

/-- The history before the card is read again. -/
def retitled (step : ℤ) : CardHistory Bool (Option { j : Json // j.validUtf8 = true }) :=
  retitlingStore.after (retitlingStore.after ⟨.initial false (ticking step), []⟩
    (.get (lit "5"))) (.update (lit "5") (lit "new"))

theorem along_retitling {C : CardHistory Bool (Option { j : Json // j.validUtf8 = true }) →
    CardCall → Prop} {step : ℤ} :
    (cardMachine retitlingStore).Along (fun h call _ => C h call)
      ⟨.initial false (ticking step), []⟩ retitling ↔
    C ⟨.initial false (ticking step), []⟩ (.get (lit "5")) ∧
      C (retitlingStore.after ⟨.initial false (ticking step), []⟩ (.get (lit "5")))
        (.update (lit "5") (lit "new")) ∧
      C (retitled step) (.get (lit "5")) := by
  unfold retitling
  rw [Machine.along_cons_of_next (cardMachine_next _ _ _),
    Machine.along_cons_of_next (cardMachine_next _ _ _),
    Machine.along_cons_of_next (cardMachine_next _ _ _)]
  exact ⟨fun h => ⟨h.1, h.2.1, h.2.2.1⟩, fun h => ⟨h.1, h.2.1, h.2.2, trivial⟩⟩

/-- Two readings later the card is no longer in the cache. -/
theorem retitled_expired : ∃ w', cached (lit "5") (retitled (cardTtl * second)).world =
    .ok none w' := by
  have hmiss : (returned (cached (lit "5") (retitled (cardTtl * second)).world)).map
      Option.isNone = some true := by decide +kernel
  cases hcached : cached (lit "5") (retitled (cardTtl * second)).world with
  | ok found w' =>
    rw [hcached] at hmiss
    obtain rfl := Option.isNone_iff_eq_none.1 (Option.some.inj hmiss)
    exact ⟨w', rfl⟩
  | error e w' =>
    rw [hcached] at hmiss
    cases hmiss

theorem read_own_writes_retitling : (cardMachine retitlingStore).Along
    (fun h call _ => ReadsHeld retitlingStore h call)
      ⟨.initial false (ticking (cardTtl * second)), []⟩ retitling := by
  refine read_own_writes retitlingStore false (ticking (cardTtl * second)) retitling ?_
  refine along_retitling.2 ⟨?_, trivial, ?_⟩
  · -- nothing has been stored yet
    intro entry hentry
    obtain ⟨_, -, hfinds⟩ : ∃ id, stoll (lit "5") = some id ∧ _ := hentry
    cases hfinds.find
  · -- the entry of the first call has expired
    intro entry hentry
    exact absurd hentry (cached_eq_none_iff.1 retitled_expired entry)

/-- Read again within two minutes, the card is the one before the change. -/
theorem card_read_before_change :
    (cardMachine retitlingStore).outputs ⟨.initial false (ticking 0), []⟩ retitling =
      [some 200, some 200, some 200] ∧
    ¬ (cardMachine retitlingStore).Along (fun h call _ => ReadsHeld retitlingStore h call)
      ⟨.initial false (ticking 0), []⟩ retitling := by
  refine ⟨by decide +kernel, fun h => ?_⟩
  obtain ⟨-, -, hread⟩ := along_retitling.1 h
  obtain ⟨answer, w', hget, hanswer⟩ := hread 5 rfl
  have hold : (returned (getCard .symbolic retitlingServer [] (lit "5") (retitled 0).world)).map
      (fun answer => answer.2.title) = some (lit "old") := by decide +kernel
  rw [hget] at hold
  have htitle : answer.2.title = lit "old" := Option.some.inj hold
  rcases hanswer with rfl | ⟨card, hcard, rfl⟩
  · exact absurd htitle (by decide +kernel)
  · have hheld : (retitlingStore.holds (retitled 0).world.server 5).map Card.title =
        some (lit "new") := by decide +kernel
    rw [hcard] at hheld
    exact absurd (htitle.symm.trans (Option.some.inj hheld)) (by decide)

end Kaiten
