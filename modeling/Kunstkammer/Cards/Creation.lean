import Kunstkammer.Cards.Operations
import Kunstkammer.Cards.Titles

/-!
# Creating a card and what follows

`create_card_with_postprocessing`: a card is created, linked to its parent, tagged, and given a
title with its work code.

* `createCardWithPostprocessing` and its parts;
* `FollowUp id r`: the request `r` links, tags or renames the card `id`;
* `FollowUpsSound`: the follow-up requests of a run only name the card the server created;
* `followUpsSound_iff`: this fails exactly when a creation succeeds without a readable id.
-/

namespace Kaiten

section Creation

variable {σ Text : Type} (json : NlohmannText Text) (server : Server σ Text) (apiPath : Str)

/-- `update_card_title_with_work_code`. -/
def updateCardTitleWithWorkCode (cardId : Int64) (productCode workCode originalTitle : Str) :
    Run σ Text Bool := do
  let result ← updateCard json server apiPath (intToString cardId.toInt)
    (updatedTitle productCode workCode cardId originalTitle)
  return decide (IsSuccess result.1)

/-- `add_tags_to_created_card`. -/
def addTagsToCreatedCard (cardId : Int64) : List Str → Run σ Text Unit
  | [] => pure ()
  | tag :: tags => do
      let _ ← addTagToCard json server apiPath cardId tag
      addTagsToCreatedCard cardId tags

/-- `link_card_to_parent`. -/
def linkCardToParent (parentCardId childCardId : Int64) : Run σ Text Bool :=
  if parentCardId ≤ 0 then pure false
  else do
    let result ← addChildCard json server apiPath parentCardId childCardId
    return decide (IsSuccess result.1)

/-- The link of the new card, if there is a parent. -/
def linkIfWanted (parentCardId childCardId : Int64) : Run σ Text Bool :=
  if parentCardId > 0 then linkCardToParent json server apiPath parentCardId childCardId
  else pure false

/-- The tags of the new card, if there are any. -/
def tagIfWanted (tags : List Str) (childCardId : Int64) : Run σ Text Unit :=
  if tags ≠ [] then addTagsToCreatedCard json server apiPath childCardId tags else pure ()

/-- The title of the new card, if it is to be changed. -/
def titleIfWanted (productCode workCode originalTitle : Str) (updateTitle : Bool)
    (childCardId : Int64) : Run σ Text Bool :=
  if updateTitle = true ∧ productCode ≠ [] ∧ workCode ≠ [] then
    updateCardTitleWithWorkCode json server apiPath childCardId productCode workCode originalTitle
  else pure false

/-- What is done with the card that was created. -/
def postprocess (cardData : SimpleCard) (parentCardId : Int64) (productCode workCode : Str)
    (updateTitle : Bool) (childCardId : Int64) : Run σ Text Bool := do
  let _ ← linkIfWanted json server apiPath parentCardId childCardId
  tagIfWanted json server apiPath cardData.tags childCardId
  titleIfWanted json server apiPath productCode workCode cardData.title updateTitle childCardId

/-- `create_card_with_postprocessing`. -/
def createCardWithPostprocessing (cardData : SimpleCard) (parentCardId : Int64)
    (productCode workCode : Str) (updateTitle : Bool) : Run σ Text (Option Card) := do
  let (status, created) ← createCard json server apiPath cardData
  if ¬ IsSuccess status then return none
  else
    let _ ← postprocess json server apiPath cardData parentCardId productCode workCode updateTitle
      created.id
    return some created

end Creation

/-! ### Follow-up requests -/

section FollowUps

variable {σ Text : Type} (json : NlohmannText Text) (server : Server σ Text) (apiPath : Str)

/-- The request links, tags or renames the card `id`. -/
inductive FollowUp (id : Int64) : Request Text → Prop
  | link (parent : Int64) (body : Text)
      (h : json.dump (.ofPairs [(lit "card_id", .integer id.toInt)]) = some body) :
      FollowUp id (.post (cardTarget apiPath (intToString parent.toInt) ++ lit "/children") body)
  | tag (body : Text) :
      FollowUp id (.post (cardTarget apiPath (intToString id.toInt) ++ lit "/tags") body)
  | title (body : Text) : FollowUp id (.patch (cardTarget apiPath (intToString id.toInt)) body)

/-- The entry of the log is such a request. -/
def Exchange.FollowsUp (id : Int64) : Exchange Text → Prop
  | .request r _ => FollowUp json apiPath id r
  | .users _ => False

/-- The id in a response, where `from_json` finds one. -/
def assignedId (j : Json) : Option Int64 :=
  match j.present? (lit "id") with
  | some (.string s) => stoll s
  | some v => v.getInt64
  | none => none

/-- The log of a run: nothing, when the payload could not be printed; else the creation and
requests that only name the card of a response that was read, with the id it carries.  After a
success that cannot be read there are none, and nothing is returned. -/
def FollowUpsSound (cardData : SimpleCard) (parentCardId : Int64) (productCode workCode : Str)
    (updateTitle : Bool) (w : World σ Text) : Prop :=
  let result := createCardWithPostprocessing json server apiPath cardData parentCardId productCode
    workCode updateTitle w
  (Effects.state result).log = w.log ∨
  ∃ body response later,
    (Effects.state result).log =
      w.log ++ .request (.post (apiPath ++ lit "/cards") body) response :: later ∧
    (∀ e ∈ later, ∃ j id, IsSuccess response.1 ∧ json.parse response.2 = some j ∧
      (Card.fromJson j).isSome ∧ assignedId j = some id ∧ e.FollowsUp json apiPath id) ∧
    (IsSuccess response.1 → readCard json response.2 = none →
      later = [] ∧ ∃ t, result = .ok none t)

/-- Some follow-up request is sent after a creation that yields the id 0. -/
def FollowUpWanted (cardData : SimpleCard) (parentCardId : Int64) (productCode workCode : Str)
    (updateTitle : Bool) : Prop :=
  0 < parentCardId ∨
    match cardData.tags with
    | tag :: _ => tag.validUtf8 = true
    | [] => updateTitle = true ∧ productCode ≠ [] ∧ workCode ≠ [] ∧
        (updatedTitle productCode workCode 0 cardData.title).validUtf8 = true

/-- The creation request is answered with a card that has an id, or fails, or is not sent; without
an id, nothing is to follow. -/
def CreationSound (cardData : SimpleCard) (parentCardId : Int64) (productCode workCode : Str)
    (updateTitle : Bool) (w : World σ Text) : Prop :=
  ∀ body, json.dump cardData.payload = some body →
    let response := (server.answer w.server (.post (apiPath ++ lit "/cards") body)).1
    IsSuccess response.1 → ∃ j, json.parse response.2 = some j ∧ (Card.fromJson j).isSome ∧
      ((assignedId j).isSome ∨
        ¬ FollowUpWanted cardData parentCardId productCode workCode updateTitle)

end FollowUps

/-! ### What the parts emit -/

section Emits

variable {σ Text : Type} {json : NlohmannText Text} {server : Server σ Text} {apiPath : Str}

theorem emits_send {P : Exchange Text → Prop} {r : Request Text}
    (h : ∀ response, P (.request r response)) :
    Effects.Emits World.log P (send server r : Run σ Text (ℤ × Text)) :=
  fun w => ⟨[.request r (server.answer w.server r).1], rfl, by simpa using h _⟩

theorem emits_dump {P : Exchange Text → Prop} (j : Json) :
    Effects.Emits World.log P (dump json j : Run σ Text Text) := by
  unfold dump
  cases json.dump j with
  | some text => exact .pure text
  | none => exact .throw _

theorem dump_eq_ok {j : Json} {w t : World σ Text} {text : Text} (h : dump json j w = .ok text t) :
    json.dump j = some text := by
  unfold dump at h
  cases hd : json.dump j with
  | some text' =>
    rw [hd] at h
    cases h
    rfl
  | none =>
    rw [hd] at h
    cases h

/-- A creation sends one request. -/
theorem emits_createCard {P : Exchange Text → Prop} {desired : SimpleCard}
    (h : ∀ body response, json.dump desired.payload = some body →
      P (.request (.post (apiPath ++ lit "/cards") body) response)) :
    Effects.Emits World.log P (createCard json server apiPath desired) := by
  refine (emits_dump _).bind fun _ body _ hbody => ?_
  refine (emits_send fun response => h body response (dump_eq_ok hbody)).bind
    fun _ response _ _ => ?_
  split_ifs
  · exact .pure _
  · exact .pure _

theorem emits_addTagToCard (id : Int64) (tag : Str) : Effects.Emits World.log
    (Exchange.FollowsUp json apiPath id) (addTagToCard json server apiPath id tag) := by
  refine (emits_dump _).bind fun _ body _ _ => ?_
  exact (emits_send fun _ => FollowUp.tag body).bind fun _ _ _ _ => .pure _

theorem emits_addTags (id : Int64) (tags : List Str) : Effects.Emits World.log
    (Exchange.FollowsUp json apiPath id) (addTagsToCreatedCard json server apiPath id tags) := by
  induction tags with
  | nil => exact .pure _
  | cons tag tags ih => exact (emits_addTagToCard id tag).bind fun _ _ _ _ => ih

/-- A link sends one request. -/
theorem emits_linkIfWanted {P : Exchange Text → Prop} {parent id : Int64}
    (h : ∀ body response, json.dump (.ofPairs [(lit "card_id", .integer id.toInt)]) = some body →
      P (.request (.post (cardTarget apiPath (intToString parent.toInt) ++ lit "/children") body)
        response)) :
    Effects.Emits World.log P (linkIfWanted json server apiPath parent id) := by
  have hadd : Effects.Emits World.log P (addChildCard json server apiPath parent id) := by
    refine (emits_dump _).bind fun _ body _ hbody => ?_
    exact (emits_send fun response => h body response (dump_eq_ok hbody)).bind
      fun _ _ _ _ => .pure _
  unfold linkIfWanted linkCardToParent
  split_ifs
  · exact .pure _
  · exact hadd.bind fun _ _ _ _ => .pure _
  · exact .pure _

/-- A change of the title sends one request. -/
theorem emits_titleIfWanted {P : Exchange Text → Prop} {id : Int64}
    (h : ∀ body response,
      P (.request (.patch (cardTarget apiPath (intToString id.toInt)) body) response))
    (product work title : Str) (updateTitle : Bool) :
    Effects.Emits World.log P
      (titleIfWanted json server apiPath product work title updateTitle id) := by
  have hupdate (changed : Str) : Effects.Emits World.log P
      (updateCard json server apiPath (intToString id.toInt) changed) := by
    refine (emits_dump _).bind fun _ body _ _ => ?_
    refine (emits_send (h body)).bind fun _ response _ _ => ?_
    split_ifs
    · exact .pure _
    · exact .pure _
  unfold titleIfWanted
  split_ifs
  · exact (hupdate _).bind fun _ _ _ _ => .pure _
  · exact .pure _

theorem emits_tagIfWanted (tags : List Str) (id : Int64) : Effects.Emits World.log
    (Exchange.FollowsUp json apiPath id) (tagIfWanted json server apiPath tags id) := by
  unfold tagIfWanted
  split_ifs
  · exact emits_addTags id tags
  · exact .pure _

variable (json server apiPath) in
/-- All requests after the creation name the card they are given. -/
theorem emits_postprocess (cardData : SimpleCard) (parent : Int64) (product work : Str)
    (updateTitle : Bool) (id : Int64) : Effects.Emits World.log
    (Exchange.FollowsUp json apiPath id)
    (postprocess json server apiPath cardData parent product work updateTitle id) :=
  (emits_linkIfWanted fun body _ h => FollowUp.link parent body h).bind fun _ _ _ _ =>
    (emits_tagIfWanted cardData.tags id).bind fun _ _ _ _ =>
      emits_titleIfWanted (fun body _ => FollowUp.title body) product work cardData.title
        updateTitle

end Emits

/-! ### Whether anything follows -/

section Wanted

variable {σ Text : Type} {json : NlohmannText Text} {server : Server σ Text} {apiPath : Str}

theorem dump_of_valid {j : Json} (h : j.validUtf8 = true) (w : World σ Text) :
    ∃ text, json.dump j = some text ∧ dump json j w = .ok text w := by
  obtain ⟨text, htext⟩ := Option.isSome_iff_exists.1 ((json.dump_isSome j).trans h)
  exact ⟨text, htext, by unfold dump; rw [htext]; rfl⟩

theorem dump_of_invalid {j : Json} (h : j.validUtf8 = false) (w : World σ Text) :
    dump json j w = .error .exception w := by
  have hnone : json.dump j = none := by
    rw [← Option.not_isSome_iff_eq_none, json.dump_isSome, h]
    exact Bool.false_ne_true
  unfold dump
  rw [hnone]
  rfl

/-- An object with one member. -/
theorem validUtf8_ofPairs_singleton (key : String) (v : Json) :
    (Json.ofPairs [(lit key, v)]).validUtf8 = v.validUtf8 := by
  rw [Json.ofPairs_sorted (List.pairwise_singleton _ _), Json.validUtf8_object]
  simp [validUtf8_lit]

/-- Requests with a valid payload lengthen the log. -/
theorem length_log_lt_of_send {α : Type} {j : Json} (h : j.validUtf8 = true)
    (target : Text → Request Text) (f : ℤ × Text → Run σ Text α)
    (hf : ∀ r, Effects.Emits World.log (fun _ => True) (f r))
    (w : World σ Text) :
    w.log.length < (Effects.state ((do
      let body ← dump json j
      let response ← send server (target body)
      f response : Run σ Text α) w)).log.length := by
  obtain ⟨text, -, hdump⟩ : ∃ text, json.dump j = some text ∧ dump json j w = .ok text w :=
    dump_of_valid h w
  rw [Effects.bind_ok hdump]
  have hsend : send server (target text) w = .ok (server.answer w.server (target text)).1
      { w with
        server := (server.answer w.server (target text)).2
        log := w.log ++ [.request (target text) (server.answer w.server (target text)).1] } := rfl
  rw [Effects.bind_ok hsend]
  obtain ⟨es, hes, -⟩ := hf (server.answer w.server (target text)).1 _
  rw [hes]
  simp

theorem log_addTagToCard (id : Int64) {tag : Str} (h : tag.validUtf8 = true) (w : World σ Text) :
    w.log.length < (Effects.state (addTagToCard json server apiPath id tag w)).log.length :=
  length_log_lt_of_send (by rwa [validUtf8_ofPairs_singleton]) _ _ (fun _ => .pure _) w

theorem log_addChildCard (parent id : Int64) (w : World σ Text) :
    w.log.length < (Effects.state (addChildCard json server apiPath parent id w)).log.length :=
  length_log_lt_of_send (by rw [validUtf8_ofPairs_singleton]; rfl) _ _ (fun _ => .pure _) w

theorem changesPayload_of_title {productCode workCode originalTitle : Str} {cardId : Int64} :
    (changesPayload (updatedTitle productCode workCode cardId originalTitle)).validUtf8 =
      (updatedTitle productCode workCode cardId originalTitle).validUtf8 := by
  have hne : updatedTitle productCode workCode cardId originalTitle ≠ [] := by
    have hbracket : lit "[" = [91] := by decide
    simp [updatedTitle, hbracket]
  rw [changesPayload, if_pos hne, validUtf8_ofPairs_singleton, Json.validUtf8_string]

theorem log_updateTitle (id : Int64) {product work title : Str}
    (h : (updatedTitle product work id title).validUtf8 = true) (w : World σ Text) :
    w.log.length < (Effects.state
      (updateCardTitleWithWorkCode json server apiPath id product work title w)).log.length := by
  refine Effects.Emits.length_lt_bind (P := fun _ => True) ?_ fun _ => .pure _
  refine length_log_lt_of_send (changesPayload_of_title.trans h) _ _ (fun r => ?_) w
  split_ifs
  · exact .pure _
  · exact .pure _

variable {cardData : SimpleCard} {parent : Int64} {product work : Str} {updateTitle : Bool}

variable (json server apiPath) in
/-- Something follows when it is wanted. -/
theorem log_postprocess_of_wanted (h : FollowUpWanted cardData parent product work updateTitle)
    (w : World σ Text) :
    w.log.length < (Effects.state (postprocess json server apiPath cardData parent product work
      updateTitle 0 w)).log.length := by
  have htitle : Effects.Emits World.log (Exchange.FollowsUp json apiPath 0)
      (titleIfWanted json server apiPath product work cardData.title updateTitle 0) :=
    emits_titleIfWanted (fun body _ => FollowUp.title body) product work _ updateTitle
  have hrest : Effects.Emits World.log (Exchange.FollowsUp json apiPath 0)
      (do
        tagIfWanted json server apiPath cardData.tags 0
        titleIfWanted json server apiPath product work cardData.title updateTitle 0 :
        Run σ Text Bool) :=
    (emits_tagIfWanted cardData.tags 0).bind fun _ _ _ _ => htitle
  by_cases hparent : 0 < parent
  · refine Effects.Emits.length_lt_bind ?_ fun _ => hrest
    unfold linkIfWanted linkCardToParent
    rw [if_pos hparent, if_neg (Int64.not_le.2 hparent)]
    exact Effects.Emits.length_lt_bind (P := fun _ => True) (log_addChildCard parent 0 w)
      fun _ => .pure _
  · have hlink : linkIfWanted json server apiPath parent 0 w = .ok false w := by
      rw [linkIfWanted, if_neg hparent]
      rfl
    have hwanted := h.resolve_left hparent
    unfold postprocess
    rw [Effects.bind_ok hlink]
    cases htags : cardData.tags with
    | cons tag tags =>
      rw [htags] at hwanted
      refine Effects.Emits.length_lt_bind ?_ fun _ => htitle
      rw [tagIfWanted, if_pos (List.cons_ne_nil _ _)]
      exact Effects.Emits.length_lt_bind (log_addTagToCard 0 hwanted w)
        fun _ => emits_addTags 0 tags
    | nil =>
      rw [htags] at hwanted
      obtain ⟨hupdate, hproduct, hwork, hvalid⟩ := hwanted
      have htag : tagIfWanted json server apiPath [] 0 w = .ok () w := rfl
      rw [Effects.bind_ok htag, titleIfWanted, if_pos ⟨hupdate, hproduct, hwork⟩]
      exact log_updateTitle 0 hvalid w

variable (json server apiPath) in
/-- Nothing follows when nothing is wanted. -/
theorem log_postprocess_of_not_wanted
    (h : ¬ FollowUpWanted cardData parent product work updateTitle) (w : World σ Text) :
    (Effects.state (postprocess json server apiPath cardData parent product work
      updateTitle 0 w)).log = w.log := by
  obtain ⟨hparent, hnot⟩ := not_or.1 h
  have hlink : linkIfWanted json server apiPath parent 0 w = .ok false w := by
    rw [linkIfWanted, if_neg hparent]
    rfl
  unfold postprocess
  rw [Effects.bind_ok hlink]
  cases htags : cardData.tags with
  | cons tag tags =>
    rw [htags] at hnot
    have hinvalid : (Json.ofPairs [(lit "name", .string tag)]).validUtf8 = false := by
      rw [validUtf8_ofPairs_singleton, Json.validUtf8_string]
      exact Bool.not_eq_true _ ▸ hnot
    have hadd : tagIfWanted json server apiPath (tag :: tags) 0 w = .error .exception w := by
      rw [tagIfWanted, if_pos (List.cons_ne_nil _ _)]
      exact Effects.bind_error (Effects.bind_error (dump_of_invalid hinvalid w))
    rw [Effects.bind_error hadd]
    rfl
  | nil =>
    rw [htags] at hnot
    have htag : tagIfWanted json server apiPath [] 0 w = .ok () w := rfl
    rw [Effects.bind_ok htag, titleIfWanted]
    split_ifs with hupdate
    · have hinvalid : (changesPayload (updatedTitle product work 0 cardData.title)).validUtf8 =
          false := by
        rw [changesPayload_of_title, ← Bool.not_eq_true]
        exact fun hvalid => hnot ⟨hupdate.1, hupdate.2.1, hupdate.2.2, hvalid⟩
      have hcall : updateCard json server apiPath (intToString (0 : Int64).toInt)
          (updatedTitle product work 0 cardData.title) w = .error .exception w :=
        Effects.bind_error (dump_of_invalid hinvalid w)
      rw [updateCardTitleWithWorkCode, Effects.bind_error hcall]
      rfl
    · rfl

end Wanted

/-! ### The whole run -/

section Whole

variable {σ Text : Type} {json : NlohmannText Text} {server : Server σ Text} {apiPath : Str}

/-- A payload that cannot be printed stops `create_card` before anything is sent. -/
theorem createCard_of_dump_none {desired : SimpleCard} (h : json.dump desired.payload = none)
    (w : World σ Text) : createCard json server apiPath desired w = .error .exception w := by
  refine Effects.bind_error ?_
  unfold dump
  rw [h]
  rfl

/-- Else the creation is sent, and its card returned if there is one. -/
theorem createCard_of_dump_some {desired : SimpleCard} {body : Text}
    (h : json.dump desired.payload = some body) (w : World σ Text) {response : ℤ × Text}
    (hr : response = (server.answer w.server (.post (apiPath ++ lit "/cards") body)).1) :
    createCard json server apiPath desired w =
      .ok (response.1, if IsSuccess response.1 then (readCard json response.2).getD {} else {})
        (w.afterSend server (.post (apiPath ++ lit "/cards") body)) := by
  subst hr
  have hdump : dump json desired.payload w = .ok body w := by
    unfold dump
    rw [h]
    rfl
  refine (Effects.bind_ok hdump).trans ?_
  show (if IsSuccess _ then _ else _ : Run σ Text (ℤ × Card)) _ = _
  split_ifs
  · rfl
  · rfl

theorem id_of_assignedId {j : Json} {card : Card} (h : Card.fromJson j = some card) :
    card.id = (assignedId j).getD 0 := by
  rw [(Card.fromJson_fields h).1, getInt64Optional, assignedId]
  cases hid : j.present? (lit "id") with
  | none => rfl
  | some v => cases v <;> rfl

variable (cardData : SimpleCard) (parent : Int64) (product work : Str) (updateTitle : Bool)
  {w : World σ Text}

/-- After a success, the requests that follow are those of `postprocess`. -/
theorem create_of_success {body : Text} (hdump : json.dump cardData.payload = some body)
    {response : ℤ × Text}
    (hr : response = (server.answer w.server (.post (apiPath ++ lit "/cards") body)).1)
    (hs : IsSuccess response.1) :
    createCardWithPostprocessing json server apiPath cardData parent product work updateTitle w =
      (do
        let _ ← postprocess json server apiPath cardData parent product work updateTitle
          ((readCard json response.2).getD {}).id
        return some ((readCard json response.2).getD {}) : Run σ Text (Option Card))
        (w.afterSend server (.post (apiPath ++ lit "/cards") body)) := by
  refine (Effects.bind_ok (createCard_of_dump_some hdump w hr)).trans ?_
  simp only [hs, not_true_eq_false, if_false, if_true]

/-- After a failure nothing follows. -/
theorem create_of_failure {body : Text} (hdump : json.dump cardData.payload = some body)
    {response : ℤ × Text}
    (hr : response = (server.answer w.server (.post (apiPath ++ lit "/cards") body)).1)
    (hs : ¬ IsSuccess response.1) :
    createCardWithPostprocessing json server apiPath cardData parent product work updateTitle w =
      .ok none (w.afterSend server (.post (apiPath ++ lit "/cards") body)) := by
  refine (Effects.bind_ok (createCard_of_dump_some hdump w hr)).trans ?_
  simp only [hs, not_false_eq_true, if_true]
  rfl

/-- The log after a success: the creation, and requests that name the card that was read. -/
theorem log_of_success {body : Text} (hdump : json.dump cardData.payload = some body)
    {response : ℤ × Text}
    (hr : response = (server.answer w.server (.post (apiPath ++ lit "/cards") body)).1)
    (hs : IsSuccess response.1) {result : EStateM.Result Stop (World σ Text) (Option Card)}
    (hresult : result = createCardWithPostprocessing json server apiPath cardData parent product
      work updateTitle w) {id : Int64} (hid : id = ((readCard json response.2).getD {}).id) :
    (∀ t, result ≠ .ok none t) ∧
    ∃ later, (Effects.state result).log =
        w.log ++ .request (.post (apiPath ++ lit "/cards") body) response :: later ∧
      (∀ e ∈ later, e.FollowsUp json apiPath id) ∧
      (id = 0 → (later = [] ↔ ¬ FollowUpWanted cardData parent product work updateTitle)) := by
  rw [create_of_success _ _ _ _ _ hdump hr hs, ← hid] at hresult
  have hlog : (w.afterSend server (.post (apiPath ++ lit "/cards") body)).log =
      w.log ++ [.request (.post (apiPath ++ lit "/cards") body) response] := by
    rw [World.afterSend, ← hr]
  obtain ⟨later, hlater, hall⟩ := emits_postprocess json server apiPath cardData parent product
    work updateTitle id (w.afterSend server (.post (apiPath ++ lit "/cards") body))
  refine ⟨?_, later, ?_, hall, ?_⟩
  · intro t ht
    rw [hresult, Effects.bind_eq_ok] at ht
    obtain ⟨_, _, -, hpure⟩ := ht
    cases hpure
  · rw [hresult, Effects.state_bind_pure, hlater, hlog, List.append_assoc, List.singleton_append]
  · rintro rfl
    constructor
    · intro hnil hwanted
      have hlt := log_postprocess_of_wanted json server apiPath hwanted
        (w.afterSend server (.post (apiPath ++ lit "/cards") body))
      rw [hlater, hnil, List.append_nil] at hlt
      exact absurd hlt (lt_irrefl _)
    · intro hnot
      have hsame := log_postprocess_of_not_wanted json server apiPath hnot
        (w.afterSend server (.post (apiPath ++ lit "/cards") body))
      rw [hlater] at hsame
      exact List.append_right_eq_self.1 hsame

end Whole

section Result

variable {σ Text : Type} {json : NlohmannText Text} {server : Server σ Text} {apiPath : Str}
  {cardData : SimpleCard} {parent : Int64} {product work : Str} {updateTitle : Bool}
  {w : World σ Text}

theorem creationSound_iff {body : Text} (hdump : json.dump cardData.payload = some body)
    {response : ℤ × Text}
    (hr : response = (server.answer w.server (.post (apiPath ++ lit "/cards") body)).1) :
    CreationSound json server apiPath cardData parent product work updateTitle w ↔
      (IsSuccess response.1 → ∃ j, json.parse response.2 = some j ∧ (Card.fromJson j).isSome ∧
        ((assignedId j).isSome ∨ ¬ FollowUpWanted cardData parent product work updateTitle)) := by
  unfold CreationSound
  rw [hdump]
  constructor
  · intro h
    have h := h body rfl
    rwa [← hr] at h
  · rintro h _ ⟨⟩
    rw [← hr]
    exact h

theorem FollowUpsSound.creationSound
    (h : FollowUpsSound json server apiPath cardData parent product work updateTitle w) :
    CreationSound json server apiPath cardData parent product work updateTitle w := by
  cases hdump : json.dump cardData.payload with
  | none =>
    intro body hbody
    rw [hdump] at hbody
    cases hbody
  | some body =>
    rw [creationSound_iff hdump rfl]
    intro hs
    obtain ⟨hnone, later, hlater, hall, hempty⟩ := log_of_success cardData parent product work
      updateTitle hdump rfl hs rfl rfl
    obtain hsame | ⟨body', response', later', hlog', hall', hread'⟩ := h
    · rw [hlater] at hsame
      exact absurd hsame (by simp)
    rw [hlater] at hlog'
    obtain ⟨hcreation, rfl⟩ := List.cons.inj (List.append_cancel_left hlog')
    obtain ⟨-, rfl⟩ := Exchange.request.inj hcreation
    generalize (server.answer w.server (.post (apiPath ++ lit "/cards") body)).1 = response at *
    cases hread : readCard json response.2 with
    | none =>
      -- a card is returned all the same
      obtain ⟨t, ht⟩ := (hread' hs hread).2
      exact absurd ht (hnone t)
    | some card =>
      obtain ⟨j, hj, hcard⟩ := Option.bind_eq_some_iff.1 hread
      refine ⟨j, hj, Option.isSome_iff_exists.2 ⟨card, hcard⟩, ?_⟩
      cases hid : assignedId j with
      | some id => exact Or.inl rfl
      | none =>
        have hzero : ((readCard json response.2).getD {}).id = 0 := by
          rw [hread, Option.getD_some, id_of_assignedId hcard, hid, Option.getD_none]
        refine Or.inr ((hempty hzero).1 (List.eq_nil_iff_forall_not_mem.2 fun e he => ?_))
        obtain ⟨j', id, -, hj', -, hid', -⟩ := hall' e he
        rw [hj, Option.some.injEq] at hj'
        rw [← hj', hid] at hid'
        cases hid'

theorem CreationSound.followUpsSound
    (h : CreationSound json server apiPath cardData parent product work updateTitle w) :
    FollowUpsSound json server apiPath cardData parent product work updateTitle w := by
  cases hdump : json.dump cardData.payload with
  | none =>
    have hrun : createCardWithPostprocessing json server apiPath cardData parent product work
        updateTitle w = .error .exception w :=
      Effects.bind_error (createCard_of_dump_none hdump w)
    exact Or.inl (by rw [hrun]; rfl)
  | some body =>
    obtain ⟨response, hr⟩ : ∃ response,
        response = (server.answer w.server (.post (apiPath ++ lit "/cards") body)).1 := ⟨_, rfl⟩
    rw [creationSound_iff hdump hr] at h
    by_cases hs : IsSuccess response.1
    · obtain ⟨-, later, hlater, hall, hempty⟩ := log_of_success cardData parent product work
        updateTitle hdump hr hs rfl rfl
      obtain ⟨j, hj, hcard, hcase⟩ := h hs
      obtain ⟨card, hcard⟩ := Option.isSome_iff_exists.1 hcard
      have hread : readCard json response.2 = some card := Option.bind_eq_some_iff.2 ⟨j, hj, hcard⟩
      have hid : ((readCard json response.2).getD {}).id = (assignedId j).getD 0 := by
        rw [hread, Option.getD_some, id_of_assignedId hcard]
      refine Or.inr ⟨body, response, later, hlater, ?_, fun _ habs => by
        rw [hread] at habs; cases habs⟩
      intro e he
      cases hassigned : assignedId j with
      | some id =>
        have hfollow := hall e he
        rw [hid, hassigned, Option.getD_some] at hfollow
        exact ⟨j, id, hs, hj, Option.isSome_iff_exists.2 ⟨card, hcard⟩, hassigned, hfollow⟩
      | none =>
        -- without an id, nothing was to follow
        rw [hassigned, Option.getD_none] at hid
        have hnot := hcase.resolve_left (by simp [hassigned])
        rw [(hempty hid).2 hnot] at he
        exact absurd he List.not_mem_nil
    · -- a failure: nothing follows
      refine Or.inr ⟨body, response, [], ?_, by simp, fun habs => absurd habs hs⟩
      rw [create_of_failure _ _ _ _ _ hdump hr hs, Effects.state_ok, World.afterSend, ← hr]

end Result

/-- **Follow-up requests only target the created card.**  For every server and all data, this is
so exactly when the creation is not sent, or fails, or is answered with a card that has an id; or
with one that has none, when nothing is to follow. -/
theorem followUpsSound_iff {σ Text : Type} (json : NlohmannText Text) (server : Server σ Text)
    (apiPath : Str) (cardData : SimpleCard) (parent : Int64) (product work : Str)
    (updateTitle : Bool) (w : World σ Text) :
    FollowUpsSound json server apiPath cardData parent product work updateTitle w ↔
      CreationSound json server apiPath cardData parent product work updateTitle w :=
  ⟨FollowUpsSound.creationSound, CreationSound.followUpsSound⟩

/-- A server whose answers are no JSON. -/
def garbledServer : Server Unit (Option { j : Json // j.validUtf8 = true }) where
  answer _ _ := ((200, none), ())
  users _ := (fun _ => (200, none), ())

/-- After a success that cannot be read, a card with the id 0 is linked to the parent. -/
theorem garbled_creation_linked :
    ¬ FollowUpsSound .symbolic garbledServer [] { title := lit "task" } 7 [] [] false
      (World.initial () fun _ => ⟨0, fun _ => 0, fun _ => 0⟩) := by
  intro h
  obtain ⟨j, hj, -⟩ := h.creationSound (some ⟨({ title := lit "task" } : SimpleCard).payload,
    by decide +kernel⟩) rfl (Or.inl rfl)
  cases hj

end Kaiten
