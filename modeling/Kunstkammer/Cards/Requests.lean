import Kunstkammer.Cards.Modes

/-!
# The requests of a creation, in order

`create_card_with_postprocessing` sends what it plans, one request after the other.

* `sendAll`: send a list of requests, and stop with an exception at the first that cannot be
  printed;
* `sendAll_spec`: what this leaves in the log;
* `followUps`, `plannedRequests`: the requests for a card;
* `creation_same`: the program does the same as `sendAll` on its plan;
* `creation_requests`: so all requests are sent in their order, up to the first that is not UTF-8.
-/

namespace Kaiten

section Sending

variable {σ Text : Type} (json : NlohmannText Text) (server : Server σ Text)

/-- A request with its payload before it is printed. -/
abbrev Plan := Request Json

/-- The payload can be printed. -/
def Plan.printable : Plan → Bool
  | .get _ => true
  | .post _ payload => payload.validUtf8
  | .patch _ payload => payload.validUtf8

/-- Print the payload. -/
def printPlan : Plan → Run σ Text (Request Text)
  | .get target => pure (.get target)
  | .post target payload => do
      let body ← dump json payload
      return .post target body
  | .patch target payload => do
      let body ← dump json payload
      return .patch target body

/-- Print the payload and send the request. -/
def sendPlan (plan : Plan) : Run σ Text (ℤ × Text) := do
  let request ← printPlan json plan
  send server request

/-- Send the requests, whatever they are answered. -/
def sendAll : List Plan → Run σ Text Unit
  | [] => pure ()
  | plan :: plans => do
      let _ ← sendPlan json server plan
      sendAll plans

/-- The plan a request was printed from. -/
def Request.plan : Request Text → Option Plan
  | .get target => some (.get target)
  | .post target body => (json.parse body).map (.post target)
  | .patch target body => (json.parse body).map (.patch target)

/-- The plan of a request in the log. -/
def Exchange.plan : Exchange Text → Option Plan
  | .request r _ => r.plan json
  | .users _ => none

variable {json server}

variable (json) in
theorem printPlan_of_printable {plan : Plan} (h : plan.printable = true) (w : World σ Text) :
    ∃ request, printPlan json plan w = .ok request w ∧ request.plan json = some plan := by
  cases plan with
  | get target => exact ⟨_, rfl, rfl⟩
  | post target payload =>
    obtain ⟨body, hbody, hdump⟩ : ∃ body, json.dump payload = some body ∧
      dump json payload w = .ok body w := dump_of_valid h w
    exact ⟨.post target body, Effects.bind_ok hdump, by
      rw [Request.plan, json.parse_dump _ _ hbody, Option.map_some]⟩
  | patch target payload =>
    obtain ⟨body, hbody, hdump⟩ : ∃ body, json.dump payload = some body ∧
      dump json payload w = .ok body w := dump_of_valid h w
    exact ⟨.patch target body, Effects.bind_ok hdump, by
      rw [Request.plan, json.parse_dump _ _ hbody, Option.map_some]⟩

theorem printPlan_of_not_printable {plan : Plan} (h : plan.printable = false) (w : World σ Text) :
    printPlan json plan w = .error .exception w := by
  cases plan with
  | get target => cases h
  | post target payload => exact Effects.bind_error (dump_of_invalid h w)
  | patch target payload => exact Effects.bind_error (dump_of_invalid h w)

theorem sendAll_append (l r : List Plan) :
    sendAll json server (l ++ r) = (do
      sendAll json server l
      sendAll json server r : Run σ Text Unit) := by
  induction l with
  | nil => rfl
  | cons plan l ih =>
    rw [List.cons_append, sendAll, sendAll, ih, bind_assoc]

variable (json server) in
/-- **What is sent**: the requests in their order, up to the first that cannot be printed. -/
theorem sendAll_spec (plans : List Plan) (w : World σ Text) :
    (∃ es, (Effects.state (sendAll json server plans w)).log = w.log ++ es ∧
        es.map (Exchange.plan json) = (plans.takeWhile Plan.printable).map some) ∧
      ((∃ a t, sendAll json server plans w = .ok a t) ↔ ∀ plan ∈ plans, plan.printable = true) := by
  induction plans generalizing w with
  | nil => exact ⟨⟨[], (List.append_nil _).symm, rfl⟩, iff_of_true ⟨_, _, rfl⟩ (by simp)⟩
  | cons plan plans ih =>
    cases hplan : plan.printable with
    | true =>
      obtain ⟨request, hprint, hparsed⟩ := printPlan_of_printable json hplan w
      have hsend : sendPlan json server plan w = .ok (server.answer w.server request).1
        (w.afterSend server request) := Effects.bind_ok hprint
      obtain ⟨⟨es, hes, hmap⟩, hreturns⟩ := ih (w.afterSend server request)
      rw [sendAll, Effects.bind_ok hsend]
      constructor
      · refine ⟨.request request (server.answer w.server request).1 :: es, ?_, ?_⟩
        · rw [hes, World.afterSend, List.append_assoc, List.singleton_append]
        · rw [List.takeWhile_cons, hplan, if_pos rfl, List.map_cons, List.map_cons, hmap]
          exact congrArg (· :: _) hparsed
      · rw [hreturns, List.forall_mem_cons, and_iff_right hplan]
    | false =>
      have hsend : sendPlan json server plan w = .error .exception w :=
        Effects.bind_error (printPlan_of_not_printable hplan w)
      rw [sendAll, Effects.bind_error hsend]
      constructor
      · refine ⟨[], (List.append_nil _).symm, ?_⟩
        rw [List.takeWhile_cons, hplan, if_neg Bool.false_ne_true]
        rfl
      · refine iff_of_false ?_ fun h => ?_
        · rintro ⟨_, _, ⟨⟩⟩
        · exact absurd (h plan List.mem_cons_self) (by rw [hplan]; exact Bool.false_ne_true)

end Sending

/-! ### The plan of a creation -/

section Plans

variable {σ Text : Type} (json : NlohmannText Text) (server : Server σ Text) (apiPath : Str)

/-- The request that creates a card. -/
def creationPlan (cardData : SimpleCard) : Plan := .post (apiPath ++ lit "/cards") cardData.payload

/-- The link of the card `id` to its parent. -/
def linkPlan (parentCardId id : Int64) : Plan :=
  .post (cardTarget apiPath (intToString parentCardId.toInt) ++ lit "/children")
    (.ofPairs [(lit "card_id", .integer id.toInt)])

/-- A tag of the card `id`. -/
def tagPlan (id : Int64) (tag : Str) : Plan :=
  .post (cardTarget apiPath (intToString id.toInt) ++ lit "/tags")
    (.ofPairs [(lit "name", .string tag)])

/-- The new title of the card `id`. -/
def titlePlan (productCode workCode originalTitle : Str) (id : Int64) : Plan :=
  .patch (cardTarget apiPath (intToString id.toInt))
    (changesPayload (updatedTitle productCode workCode id originalTitle))

/-- What follows the creation of the card `id`: its link, its tags, and its title. -/
def followUps (cardData : SimpleCard) (parentCardId : Int64) (productCode workCode : Str)
    (updateTitle : Bool) (id : Int64) : List Plan :=
  (if parentCardId > 0 then [linkPlan apiPath parentCardId id] else []) ++
    cardData.tags.map (tagPlan apiPath id) ++
    if updateTitle = true ∧ productCode ≠ [] ∧ workCode ≠ [] then
      [titlePlan apiPath productCode workCode cardData.title id]
    else []

/-- The answer of the server to the creation, if that is sent. -/
def creationResponse (cardData : SimpleCard) (w : World σ Text) : Option (ℤ × Text) :=
  (json.dump cardData.payload).map fun body =>
    (server.answer w.server (.post (apiPath ++ lit "/cards") body)).1

/-- All requests of `create_card_with_postprocessing`: after a success, those that follow are for
the id that is read off the response. -/
def plannedRequests (cardData : SimpleCard) (parentCardId : Int64) (productCode workCode : Str)
    (updateTitle : Bool) (w : World σ Text) : List Plan :=
  creationPlan apiPath cardData ::
    match creationResponse json server apiPath cardData w with
    | some response =>
        if IsSuccess response.1 then
          followUps apiPath cardData parentCardId productCode workCode updateTitle
            ((readCard json response.2).getD {}).id
        else []
    | none => []

variable {json server apiPath}

theorem same_sendPlan_singleton (plan : Plan) :
    Effects.Same (sendPlan json server plan) (sendAll json server [plan]) :=
  fun w => (Effects.Same.bind_pure (sendPlan json server plan) (fun _ => ()) w).symm

/-- A payload is posted, and the response only looked at. -/
theorem same_post {α : Type} (target : Str) (payload : Json) (g : ℤ × Text → α) :
    Effects.Same
      (do
        let body ← dump json payload
        let response ← send server (.post target body)
        return g response : Run σ Text α)
      (sendPlan json server (.post target payload)) := by
  unfold sendPlan printPlan
  rw [bind_assoc]
  exact .bind_left _ fun body => Effects.Same.bind_pure _ _

theorem same_linkIfWanted (parentCardId id : Int64) :
    Effects.Same (linkIfWanted json server apiPath parentCardId id)
      (sendAll json server
        (if parentCardId > 0 then [linkPlan apiPath parentCardId id] else [])) := by
  unfold linkIfWanted linkCardToParent
  split_ifs with hpos hle
  · exact absurd hpos (Int64.not_lt.2 hle)
  · refine (Effects.Same.bind_pure _ _).trans (Effects.Same.trans ?_ (same_sendPlan_singleton _))
    exact same_post _ _ fun response => (response.1, decide (IsSuccess response.1))
  · exact .pure _ _

theorem same_addTags (id : Int64) (tags : List Str) :
    Effects.Same (addTagsToCreatedCard json server apiPath id tags)
      (sendAll json server (tags.map (tagPlan apiPath id))) := by
  induction tags with
  | nil => exact .pure _ _
  | cons tag tags ih =>
    refine Effects.Same.bind ?_ fun _ _ => ih
    exact same_post _ _ fun response => (response.1, decide (IsSuccess response.1))

theorem same_tagIfWanted (tags : List Str) (id : Int64) :
    Effects.Same (tagIfWanted json server apiPath tags id)
      (sendAll json server (tags.map (tagPlan apiPath id))) := by
  unfold tagIfWanted
  split_ifs with hnil
  · exact same_addTags id tags
  · rw [not_not.1 hnil]
    exact .pure _ _

theorem same_titleIfWanted (productCode workCode originalTitle : Str) (updateTitle : Bool)
    (id : Int64) :
    Effects.Same
      (titleIfWanted json server apiPath productCode workCode originalTitle updateTitle id)
      (sendAll json server (if updateTitle = true ∧ productCode ≠ [] ∧ workCode ≠ [] then
        [titlePlan apiPath productCode workCode originalTitle id] else [])) := by
  unfold titleIfWanted
  split_ifs
  · refine (Effects.Same.bind_pure _ _).trans (Effects.Same.trans ?_ (same_sendPlan_singleton _))
    unfold updateCard sendPlan titlePlan printPlan
    rw [bind_assoc]
    refine .bind_left _ fun body => ?_
    rw [pure_bind]
    refine Effects.Same.trans (.bind_left _ fun response => ?_)
      (Effects.Same.bind_pure (send server _) fun response => response)
    split_ifs <;> exact .pure _ _
  · exact .pure _ _

/-- What follows a creation is the sending of its plan. -/
theorem same_postprocess (cardData : SimpleCard) (parentCardId : Int64) (productCode workCode : Str)
    (updateTitle : Bool) (id : Int64) :
    Effects.Same
      (postprocess json server apiPath cardData parentCardId productCode workCode updateTitle id)
      (sendAll json server
        (followUps apiPath cardData parentCardId productCode workCode updateTitle id)) := by
  unfold postprocess followUps
  rw [List.append_assoc, sendAll_append, sendAll_append]
  refine (same_linkIfWanted parentCardId id).bind fun _ _ => ?_
  exact (same_tagIfWanted cardData.tags id).bind fun _ _ => same_titleIfWanted _ _ _ _ _

variable (json server apiPath) in
/-- **A creation sends its plan**: `create_card_with_postprocessing` has the effect of sending all
its requests, one after the other. -/
theorem creation_same (cardData : SimpleCard) (parentCardId : Int64) (productCode workCode : Str)
    (updateTitle : Bool) (w : World σ Text) :
    Effects.erase (createCardWithPostprocessing json server apiPath cardData parentCardId
        productCode workCode updateTitle w) =
      Effects.erase (sendAll json server (plannedRequests json server apiPath cardData parentCardId
        productCode workCode updateTitle w) w) := by
  have hplan : sendAll json server (plannedRequests json server apiPath cardData parentCardId
      productCode workCode updateTitle w) = (do
        let _ ← sendPlan json server (creationPlan apiPath cardData)
        sendAll json server (match creationResponse json server apiPath cardData w with
          | some response =>
              if IsSuccess response.1 then
                followUps apiPath cardData parentCardId productCode workCode updateTitle
                  ((readCard json response.2).getD {}).id
              else []
          | none => []) : Run σ Text Unit) := rfl
  rw [hplan]
  cases hdump : json.dump cardData.payload with
  | none =>
    have hcreate : createCard json server apiPath cardData w = .error .exception w :=
      createCard_of_dump_none hdump w
    have hprint : printPlan json (creationPlan apiPath cardData) w = .error .exception w := by
      refine Effects.bind_error ?_
      unfold dump
      rw [hdump]
      rfl
    have hsend : sendPlan json server (creationPlan apiPath cardData) w = .error .exception w :=
      Effects.bind_error hprint
    rw [createCardWithPostprocessing, Effects.bind_error hcreate, Effects.bind_error hsend]
    rfl
  | some body =>
    have hprint : printPlan json (creationPlan apiPath cardData) w =
        .ok (.post (apiPath ++ lit "/cards") body) w := by
      refine (Effects.bind_ok (a := body) (t := w) ?_).trans rfl
      unfold dump
      rw [hdump]
      rfl
    have hsend : sendPlan json server (creationPlan apiPath cardData) w =
        .ok (server.answer w.server (.post (apiPath ++ lit "/cards") body)).1
          (w.afterSend server (.post (apiPath ++ lit "/cards") body)) := Effects.bind_ok hprint
    have hresponse : creationResponse json server apiPath cardData w =
        some (server.answer w.server (.post (apiPath ++ lit "/cards") body)).1 := by
      rw [creationResponse, hdump, Option.map_some]
    rw [Effects.bind_ok hsend, hresponse]
    dsimp only
    split_ifs with hs
    · rw [create_of_success _ _ _ _ _ hdump rfl hs]
      exact ((Effects.Same.bind_pure _ _).trans (same_postprocess _ _ _ _ _ _)) _
    · rw [create_of_failure _ _ _ _ _ hdump rfl hs]
      rfl

/-- A card is returned exactly after a success. -/
theorem isSome_of_creation {cardData : SimpleCard} {parentCardId : Int64}
    {productCode workCode : Str} {updateTitle : Bool} {w t : World σ Text} {created : Option Card}
    (h : createCardWithPostprocessing json server apiPath cardData parentCardId productCode workCode
      updateTitle w = .ok created t) :
    ∃ response, creationResponse json server apiPath cardData w = some response ∧
      (created.isSome ↔ IsSuccess response.1) := by
  cases hdump : json.dump cardData.payload with
  | none =>
    rw [createCardWithPostprocessing, Effects.bind_error (createCard_of_dump_none hdump w)] at h
    cases h
  | some body =>
    refine ⟨_, by rw [creationResponse, hdump, Option.map_some], ?_⟩
    by_cases hs : IsSuccess (server.answer w.server (.post (apiPath ++ lit "/cards") body)).1.1
    · rw [create_of_success _ _ _ _ _ hdump rfl hs] at h
      obtain ⟨_, _, -, hreturn⟩ := Effects.bind_eq_ok.1 h
      cases hreturn
      exact iff_of_true rfl hs
    · rw [create_of_failure _ _ _ _ _ hdump rfl hs] at h
      cases h
      exact iff_of_false Bool.false_ne_true hs

variable (json server apiPath) in
/-- **The requests of a creation.**  On every server, `create_card_with_postprocessing` sends its
requests in the order of the plan: the creation, and after a success the link to the parent, the
tags in their order, and the new title.  The first request that is not UTF-8 stops it, with an
exception; else it returns, and with a card exactly when the creation was a success. -/
theorem creation_requests (cardData : SimpleCard) (parentCardId : Int64)
    (productCode workCode : Str) (updateTitle : Bool) (w : World σ Text) :
    (∃ es, (Effects.state (createCardWithPostprocessing json server apiPath cardData parentCardId
        productCode workCode updateTitle w)).log = w.log ++ es ∧
        es.map (Exchange.plan json) = ((plannedRequests json server apiPath cardData parentCardId
          productCode workCode updateTitle w).takeWhile Plan.printable).map some) ∧
      ((∃ created t, createCardWithPostprocessing json server apiPath cardData parentCardId
          productCode workCode updateTitle w = .ok created t) ↔
        ∀ plan ∈ plannedRequests json server apiPath cardData parentCardId productCode workCode
          updateTitle w, plan.printable = true) ∧
      ∀ created t, createCardWithPostprocessing json server apiPath cardData parentCardId
          productCode workCode updateTitle w = .ok created t →
        ∃ response, creationResponse json server apiPath cardData w = some response ∧
          (created.isSome ↔ IsSuccess response.1) := by
  have hsame := creation_same json server apiPath cardData parentCardId productCode workCode
    updateTitle w
  obtain ⟨hlog, hreturns⟩ := sendAll_spec json server
    (plannedRequests json server apiPath cardData parentCardId productCode workCode updateTitle w) w
  refine ⟨?_, ?_, fun created t ht => isSome_of_creation ht⟩
  · rwa [← Effects.state_erase, hsame, Effects.state_erase]
  · rw [← hreturns]
    exact Effects.returns_iff_of_erase hsame

end Plans

end Kaiten
