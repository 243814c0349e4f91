import Kunstkammer.Cards.Sprint
import Kunstkammer.Cards.Validity
import Kunstkammer.Foundation.Composed

/-!
# What the caches change

One entry of a backlog hands on to the next what it has left in the caches of cards.  Here the run
of an entry is compared with that of a program which starts at the same moment.

* `World.restarted`: the world of a program that starts now, with empty caches;
* `World.submissions`: the requests that change something on the server, and their answers;
* `Primitive`: what the programs that process entries are put together from;
* `ParentId entry id`: `id` is looked up for the entry;
* `ParentCurrent`: what is cached of a card says what the server would answer now;
* `agree_planEntry`: then the plan of the entry is the one a program makes that starts now.
-/

namespace Kaiten

/-! ### Starting again -/

section Worlds

variable {σ Text : Type}

/-- The world of a program that starts now: the caches are empty. -/
def World.restarted (w : World σ Text) : World σ Text :=
  { w with cards := { defaultTtl := cardTtl }, cardNumbers := { defaultTtl := cardTtl } }

/-- The request is to change something. -/
def Exchange.submits : Exchange Text → Bool
  | .request (.get _) _ => false
  | .request (.post _ _) _ | .request (.patch _ _) _ => true
  | .users _ => false

/-- What has been submitted, and how it was answered. -/
def World.submissions (w : World σ Text) : List (Exchange Text) := w.log.filter Exchange.submits

end Worlds

/-! ### Primitives -/

section Primitives

variable {σ Text : Type} (json : NlohmannText Text) (server : Server σ Text) (apiPath : Str)

/-- What the programs that process entries are put together from; cards are looked up only if
`lookUp`. -/
inductive Primitive (lookUp : Prop) : (α : Type) → Run σ Text α → Prop
  | post (target : Str) (body : Text) :
      Primitive lookUp (ℤ × Text) (send server (.post target body))
  | patch (target : Str) (body : Text) :
      Primitive lookUp (ℤ × Text) (send server (.patch target body))
  | currentUser :
      Primitive lookUp (ℤ × Text) (send server (.get (apiPath ++ lit "/users/current")))
  | users : Primitive lookUp (ℤ × List User) (getAllUsers json server)
  | card (h : lookUp) (id : Int64) :
      Primitive lookUp (ℤ × Card) (getCard json server apiPath (intToString id.toInt))

variable {json server apiPath} {lookUp : Prop}

theorem Primitive.imp {lookUp lookUp' : Prop} (h : lookUp → lookUp') {α : Type}
    {m : Run σ Text α} (hm : Primitive json server apiPath lookUp α m) :
    Primitive json server apiPath lookUp' α m := by
  cases hm with
  | post target body => exact .post target body
  | patch target body => exact .patch target body
  | currentUser => exact .currentUser
  | users => exact .users
  | card hlooks id => exact .card (h hlooks) id

theorem composed_orThrow {prim : (α : Type) → Run σ Text α → Prop} {T : Type} (o : Option T) :
    Effects.Composed prim (orThrow o : Run σ Text T) := by
  cases o with
  | some t => exact .pure t
  | none => exact .throw _

/-- A payload is printed and sent. -/
theorem composed_request {α : Type} (j : Json) {r : Text → Request Text}
    (hr : ∀ body, Primitive json server apiPath lookUp (ℤ × Text) (send server (r body)))
    {f : ℤ × Text → Run σ Text α}
    (hf : ∀ response, Effects.Composed (Primitive json server apiPath lookUp) (f response)) :
    Effects.Composed (Primitive json server apiPath lookUp) (do
      let body ← dump json j
      let response ← send server (r body)
      f response) := by
  refine .bind ?_ fun _ body _ _ => .bind (.prim (hr body)) fun _ response _ _ => hf response
  unfold dump
  split
  · exact .pure _
  · exact .throw _

variable (json server apiPath) in
theorem composed_createCard (desired : SimpleCard) :
    Effects.Composed (Primitive json server apiPath lookUp)
      (createCard json server apiPath desired) := by
  refine composed_request _ (fun body => .post _ body) fun response => ?_
  split_ifs
  · exact .pure _
  · exact .pure _

variable (json server apiPath) in
theorem composed_updateCard (idOrNumber title : Str) :
    Effects.Composed (Primitive json server apiPath lookUp)
      (updateCard json server apiPath idOrNumber title) := by
  refine composed_request _ (fun body => .patch _ body) fun response => ?_
  split_ifs
  · exact .pure _
  · exact .pure _

variable (json server apiPath) in
theorem composed_addTags (id : Int64) (tags : List Str) :
    Effects.Composed (Primitive json server apiPath lookUp)
      (addTagsToCreatedCard json server apiPath id tags) := by
  induction tags with
  | nil => exact .pure _
  | cons tag tags ih =>
    exact .bind (composed_request _ (fun body => .post _ body) fun _ => .pure _) fun _ _ _ _ => ih

variable (json server apiPath) in
theorem composed_postprocess (cardData : SimpleCard) (parent : Int64) (product work : Str)
    (updateTitle : Bool) (id : Int64) : Effects.Composed (Primitive json server apiPath lookUp)
      (postprocess json server apiPath cardData parent product work updateTitle id) := by
  refine .bind ?_ fun _ _ _ _ => .bind ?_ fun _ _ _ _ => ?_
  · unfold linkIfWanted linkCardToParent
    split_ifs
    · exact .pure _
    · exact .bind (composed_request _ (fun body => .post _ body) fun _ => .pure _)
        fun _ _ _ _ => .pure _
    · exact .pure _
  · unfold tagIfWanted
    split_ifs
    · exact composed_addTags _ _ _ id _
    · exact .pure _
  · unfold titleIfWanted
    split_ifs
    · exact .bind (composed_updateCard _ _ _ _ _) fun _ _ _ _ => .pure _
    · exact .pure _

variable (json server apiPath) in
theorem composed_submitTasks (plan : EntryPlan) (tasks : List Json) :
    Effects.Composed (Primitive json server apiPath lookUp)
      (submitTasks json server apiPath plan tasks) := by
  induction tasks with
  | nil => exact .pure _
  | cons task tasks ih =>
    refine .bind (composed_orThrow _) fun _ card _ _ => .bind ?_ fun _ created _ _ =>
      .bind ih fun _ counts _ _ => ?_
    · refine .bind (composed_createCard _ _ _ _) fun _ response _ _ => ?_
      dsimp only
      split_ifs
      · exact .bind (composed_postprocess _ _ _ _ _ _ _ _ _) fun _ _ _ _ => .pure _
      · exact .pure _
    · dsimp only
      split_ifs
      · exact .pure _
      · exact .pure _

variable (json server apiPath) in
theorem composed_findResponsible (email : Str) :
    Effects.Composed (Primitive json server apiPath lookUp)
      (findResponsibleUserId json server email) := by
  unfold findResponsibleUserId
  split_ifs
  · exact .pure _
  · refine .bind (.prim .users) fun _ answer _ _ => ?_
    dsimp only
    split_ifs
    · exact .pure _
    · exact .pure _

/-- The parent of the entry is looked up under `id`. -/
def ParentId (entry : Json) (id : Int64) : Prop :=
  ∃ s, entry.member? (lit "parent") = some (.string s) ∧ stoll s = some id ∧ 0 < id

/-- The card of a parent is looked up. -/
def LooksUpParent (entry : Json) : Prop := ∃ id, ParentId entry id

/-- The parent of an entry with these fields. -/
theorem entryFields_parent? {config : Config} {entry : Json} {fields : EntryFields}
    (hfields : entryFields config entry = some fields) (hne : fields.parent ≠ []) :
    entry.member? (lit "parent") = some (.string fields.parent) := by
  simp only [entryFields, Option.bind_eq_bind, Option.bind_eq_some_iff, Option.some.injEq]
    at hfields
  obtain ⟨parent, hparent, _, -, _, -, rfl⟩ := hfields
  cases entry with
  | object l =>
    rw [Json.value] at hparent
    show OrdAssoc.find? (lit "parent") l = some (.string parent)
    cases hfind : OrdAssoc.find? (lit "parent") l with
    | none =>
      rw [hfind] at hparent
      exact absurd (Option.some.inj hparent).symm hne
    | some v =>
      rw [hfind] at hparent
      cases v with
      | string s => rw [← Option.some.inj hparent]
      | _ => cases hparent
  | _ => cases hparent

/-- What a response, or a card from a cache, tells of the parent, and whether that is all. -/
def parentInfo (json : NlohmannText Text) (answer : ℤ × Card) : Bool × ParentInfo :=
  if answer.1 ≠ 200 then (false, {}) else readParentInfo json answer.2 {}

variable (json server apiPath) in
/-- `fetch_parent_card_info` looks up a card, or does nothing. -/
theorem fetchParentCardInfo_cases {config : Config} {entry : Json} {fields : EntryFields}
    (hfields : entryFields config entry = some fields) :
    (∃ id, ParentId entry id ∧ fetchParentCardInfo json server apiPath fields.parent {} = (do
      let answer ← getCard json server apiPath (intToString id.toInt)
      return parentInfo json answer : Run σ Text (Bool × ParentInfo))) ∨
    ¬ LooksUpParent entry ∧
      fetchParentCardInfo json server apiPath fields.parent {} = pure (false, {}) := by
  have hlooks (h : ∀ id, stoll fields.parent = some id → ¬ 0 < id) : ¬ LooksUpParent entry := by
    rintro ⟨id, s, hs, hstoll, hid⟩
    exact h id (entryFields_parent hfields hs ▸ hstoll) hid
  unfold fetchParentCardInfo
  split_ifs with hnil
  · exact Or.inr ⟨hlooks fun id hstoll => (by rw [hnil] at hstoll; cases hstoll), rfl⟩
  · cases hstoll : stoll fields.parent with
    | none => exact Or.inr ⟨hlooks fun id habs => (by rw [hstoll] at habs; cases habs), rfl⟩
    | some id =>
      dsimp only
      split_ifs with hid
      · refine Or.inr ⟨hlooks fun id' habs => ?_, rfl⟩
        rw [hstoll] at habs
        cases habs
        exact Int64.not_lt.2 hid
      · exact Or.inl ⟨id, ⟨_, entryFields_parent? hfields hnil, hstoll, Int64.not_le.1 hid⟩, rfl⟩

variable (json server apiPath) in
theorem composed_planEntry (config : Config) (entry : Json) (userId : Int64) :
    Effects.Composed (Primitive json server apiPath (LooksUpParent entry))
      (planEntry json server apiPath config entry userId) := by
  refine .bind (composed_orThrow _) fun _ fields _ hthrow => .bind ?_ fun _ parentCardId _ _ =>
    .bind ?_ fun _ info _ _ => .bind (composed_findResponsible _ _ _ _) fun _ _ _ _ => .pure _
  · split_ifs
    · exact .pure _
    · exact composed_orThrow _
  · rcases fetchParentCardInfo_cases json server apiPath (orThrow_eq_ok hthrow).1 with
      ⟨id, hid, hfetch⟩ | ⟨-, hfetch⟩
    · rw [hfetch]
      exact .bind (.prim (.card ⟨id, hid⟩ id)) fun _ _ _ _ => .pure _
    · rw [hfetch]
      exact .pure _

variable (json server apiPath) in
theorem composed_processEntries (config : Config) (userId : Int64) (entries : List Json) :
    Effects.Composed (Primitive json server apiPath (∃ entry ∈ entries, LooksUpParent entry))
      (processEntries json server apiPath config userId entries) := by
  induction entries with
  | nil => exact .pure _
  | cons entry entries ih =>
    refine .bind (.bind ((composed_planEntry _ _ _ config entry userId).mono fun _ _ =>
      .imp fun h => ⟨entry, List.mem_cons_self, h⟩) fun _ plan _ _ => ?_) fun _ c _ _ =>
        .bind (ih.mono fun _ _ => .imp ?_) fun _ c' _ _ => .pure _
    · split
      · exact composed_submitTasks _ _ _ plan _
      · exact .pure _
    · rintro ⟨e, he, hlooks⟩
      exact ⟨e, List.mem_cons_of_mem _ he, hlooks⟩

/-! ### The same from outside -/

theorem isCardNumber_intToString (n : Int64) : isCardNumber (intToString n.toInt) = false := by
  have hstoll := stoll_intToString n
  rw [Bool.eq_false_iff]
  intro hnumber
  rw [isCardNumber, Bool.or_eq_true] at hnumber
  rcases hnumber with hnumber | hnumber
  · obtain ⟨rest, hrest⟩ := List.isPrefixOf_iff_prefix.1 hnumber
    rw [← hrest] at hstoll
    cases hstoll
  · obtain ⟨rest, hrest⟩ := List.isPrefixOf_iff_prefix.1 hnumber
    rw [← hrest] at hstoll
    cases hstoll

/-- A numeral hits the entry of its id. -/
theorem hit_intToString {w : World σ Text} {id : Int64} {entry : CacheEntry Card} :
    w.Hit (intToString id.toInt) entry ↔ w.cards.Finds (w.readings w.reads).now id entry := by
  rw [World.Hit, isCardNumber_intToString, if_neg Bool.false_ne_true, stoll_intToString]
  simp

variable (json server apiPath) in
/-- The server tells the same of a parent whenever it is asked, under the id it is asked for, and
asking changes nothing. -/
structure SteadyParents : Prop where
  unmoved : ∀ state (id : Int64),
    (server.answer state (.get (cardTarget apiPath (intToString id.toInt)))).2 = state
  same : ∀ state state' (id : Int64),
    parentInfo json (fetchedAnswer json
      (server.answer state (.get (cardTarget apiPath (intToString id.toInt)))).1) =
    parentInfo json (fetchedAnswer json
      (server.answer state' (.get (cardTarget apiPath (intToString id.toInt)))).1)
  named : ∀ state (id : Int64), ∀ card ∈ fetchedCard json
    (server.answer state (.get (cardTarget apiPath (intToString id.toInt)))).1, card.id = id

variable (json server apiPath) in
/-- All that is cached is what the server tells, in whatever state. -/
def CardsCurrent (w : World σ Text) : Prop :=
  ∀ id entry, w.cards.find id = some entry → ∀ state,
    parentInfo json (200, entry.value) = parentInfo json (fetchedAnswer json
      (server.answer state (.get (cardTarget apiPath (intToString id.toInt)))).1)

/-- A steady server leaves nothing else in the cache. -/
theorem SteadyParents.getCard (h : SteadyParents json server apiPath) {w : World σ Text}
    (hw : CardsCurrent json server apiPath w) (id : Int64) : CardsCurrent json server apiPath
      (Effects.state (getCard json server apiPath (intToString id.toInt) w)) := by
  obtain ⟨answer, u, hget, hcases⟩ := getCard_cases json server apiPath w (intToString id.toInt)
  rw [hget, Effects.state_ok]
  rcases hcases with ⟨-, -, -, -, -, hcaches⟩ | ⟨-, response, hresponse, -, -, -, hcaches⟩
  · intro key entry hfind
    rcases hcaches.cards.find key entry hfind with habs | ⟨hold, -⟩
    · cases habs
    · exact hw key entry hold
  · intro key entry hfind state
    rcases hcaches.cards.find key entry hfind with hnew | ⟨hold, -⟩
    · obtain ⟨card, hcard, hpair⟩ := Option.map_eq_some_iff.1 hnew
      obtain ⟨rfl, rfl⟩ := Prod.mk.inj hpair
      have hid : entry.value.id = id := h.named w.server id _ (hresponse ▸ hcard)
      have hstatus : response.1 = 200 := by
        unfold fetchedCard at hcard
        split_ifs at hcard with hstatus
        exact hstatus
      rw [hid, h.same state w.server, ← hresponse, fetchedAnswer, hcard, Option.getD_some, hstatus]
    · exact hw key entry hold state

theorem SteadyParents.processEntries (h : SteadyParents json server apiPath) {config : Config}
    {userId : Int64} {entries : List Json} {w u : World σ Text} {counts : ℕ × ℕ}
    (hw : CardsCurrent json server apiPath w)
    (hrun : processEntries json server apiPath config userId entries w = .ok counts u) :
    CardsCurrent json server apiPath u := by
  have hkept := (composed_processEntries json server apiPath config userId entries).invariant
    (I := CardsCurrent json server apiPath) ?_ hw
  · rwa [hrun, Effects.state_ok] at hkept
  · intro α m hm v hv
    cases hm with
    | post target body => exact hv
    | patch target body => exact hv
    | currentUser => exact hv
    | users =>
      unfold getAllUsers
      dsimp only
      split
      · exact hv
      · exact hv
    | card _ id => exact h.getCard hv id

end Primitives

/-! ### A misleading server -/

/-- A card with a sprint. -/
def sprintCard (id : Int64) : Json :=
  .object [(lit "id", .integer id.toInt),
    (lit "properties", .object [(sprintNumberProperty, .integer 1)])]

theorem sprintCard_valid (id : Int64) : (sprintCard id).validUtf8 = true := rfl

/-- A server that answers the first look-up of a card with the card `id`, and has no other. -/
def misleadingServer (id : Int64) : Server Bool (Option { j : Json // j.validUtf8 = true }) where
  answer asked r :=
    match r with
    | .get target =>
        if target = lit "/users/current" ∨ asked then ((404, none), asked)
        else ((200, some ⟨sprintCard id, sprintCard_valid id⟩), true)
    | .post _ _ | .patch _ _ => ((200, none), asked)
  users asked := (fun _ => (200, none), asked)

/-- A world with such a server, which knows whether it was asked for a card. -/
abbrev AskedWorld : Type := World Bool (Option { j : Json // j.validUtf8 = true })

/-- No card has been looked up yet. -/
structure Unasked (w : AskedWorld) : Prop where
  server : w.server = false
  readings : ∀ n, (w.readings n).now = 0
  roomy : w.Roomy
  empty : ∀ key, w.cards.find key = none

/-- The card has been handed out, and is found. -/
structure Misled (card : Card) (w : AskedWorld) : Prop where
  server : w.server = true
  readings : ∀ n, (w.readings n).now = 0
  finds : w.cards.Finds 0 card.id ⟨card, 0, cardTtl⟩

section Misled

variable {id : Int64} {card : Card} {w : AskedWorld}

theorem cardTarget_ne_currentUser (s : Str) : cardTarget [] s ≠ lit "/users/current" := by
  intro h
  cases h

theorem cached_intToString {σ Text : Type} (w : World σ Text) (key : Int64) :
    cached (intToString key.toInt) w = .ok (w.cards.get (w.readings w.reads).now key).1
      { w with
        cards := (w.cards.get (w.readings w.reads).now key).2
        reads := w.reads + 1 } := by
  unfold cached
  rw [isCardNumber_intToString, if_neg Bool.false_ne_true, stoll_intToString]
  rfl

/-- Nothing is handed out any more. -/
theorem answer_of_asked (s : Str) :
    (misleadingServer id).answer true (.get (cardTarget [] s)) = ((404, none), true) := by
  dsimp only [misleadingServer]
  exact if_pos (Or.inr rfl)

/-- The first look-up. -/
theorem answer_of_unasked (id : Int64) (s : Str) :
    (misleadingServer id).answer false (.get (cardTarget [] s)) =
      ((200, some ⟨sprintCard id, sprintCard_valid id⟩), true) := by
  dsimp only [misleadingServer]
  exact if_neg (not_or.2 ⟨cardTarget_ne_currentUser s, Bool.false_ne_true⟩)

theorem Unasked.of_eq (h : Unasked w) {v : AskedWorld} (hserver : v.server = w.server)
    (hreadings : v.readings = w.readings) (hcards : v.cards = w.cards)
    (hnumbers : v.cardNumbers = w.cardNumbers) : Unasked v where
  server := hserver.trans h.server
  readings n := hreadings ▸ h.readings n
  roomy := ⟨hcards ▸ h.roomy.cards, hnumbers ▸ h.roomy.cardNumbers, hcards ▸ h.roomy.cardsTtl,
    hnumbers ▸ h.roomy.cardNumbersTtl⟩
  empty key := hcards ▸ h.empty key

/-- The first look-up misleads the cache. -/
theorem Unasked.getCard (h : Unasked w) (hcard : Card.fromJson (sprintCard id) = some card)
    (key : Int64) : Misled card (Effects.state
      (getCard .symbolic (misleadingServer id) [] (intToString key.toInt) w)) := by
  obtain ⟨answer, u, hget, hcases⟩ :=
    getCard_cases .symbolic (misleadingServer id) [] w (intToString key.toInt)
  rw [hget, Effects.state_ok]
  have hmiss (entry : CacheEntry Card) : ¬ w.Hit (intToString key.toInt) entry := by
    intro hhit
    have hfind := (hit_intToString.1 hhit).find
    rw [h.empty] at hfind
    cases hfind
  rcases hcases with ⟨entry, hhit, -⟩ | ⟨-, -, -, -, hserver, -⟩
  · exact absurd hhit (hmiss entry)
  · have hanswer := answer_of_unasked id (intToString key.toInt)
    rw [h.server, hanswer] at hserver
    have hfetched : fetchedCard .symbolic ((misleadingServer id).answer w.server
        (.get (cardTarget [] (intToString key.toInt)))).1 = some card := by
      rw [h.server, hanswer, fetchedCard, if_pos rfl]
      exact (Option.bind_some (sprintCard id) Card.fromJson).trans hcard
    obtain ⟨hreadings, hfinds, -⟩ := getCard_stores h.roomy hmiss h.readings hfetched hget
    exact ⟨hserver, fun n => hreadings ▸ h.readings n, hfinds⟩

/-- Later look-ups do not help. -/
theorem Misled.getCard (h : Misled card w) (key : Int64) : Misled card (Effects.state
      (getCard .symbolic (misleadingServer id) [] (intToString key.toInt) w)) := by
  have hfinds := h.finds.get key
  unfold Kaiten.getCard
  rw [Effects.bind_ok (cached_intToString w key), h.readings]
  cases (w.cards.get 0 key).1 with
  | some found => exact ⟨h.server, h.readings, hfinds⟩
  | none =>
    generalize hv : ({ w with
      cards := (w.cards.get 0 key).2
      reads := w.reads + 1 } : AskedWorld) = v
    have hserver : v.server = true := by
      rw [← hv]
      exact h.server
    have hsend : send (misleadingServer id) (.get (cardTarget [] (intToString key.toInt))) v =
        .ok (404, none)
          (v.afterSend (misleadingServer id) (.get (cardTarget [] (intToString key.toInt)))) := by
      unfold send
      rw [World.afterSend, hserver, answer_of_asked]
    dsimp only
    unfold fetchCard
    rw [Effects.bind_ok hsend]
    subst hv
    refine ⟨?_, h.readings, hfinds⟩
    show ((misleadingServer id).answer w.server _).2 = true
    rw [h.server, answer_of_asked]

theorem ParentId.unique {entry : Json} {id id' : Int64} (h : ParentId entry id)
    (h' : ParentId entry id') : id = id' := by
  obtain ⟨s, hs, hstoll, -⟩ := h
  obtain ⟨s', hs', hstoll', -⟩ := h'
  rw [hs] at hs'
  obtain rfl := Json.string.inj (Option.some.inj hs')
  exact Option.some.inj (hstoll.symm.trans hstoll')

end Misled

end Kaiten
