import Kunstkammer.Cards.Modes
import Kunstkammer.Listing.QueryText

/-!
# What a run changes

A run only changes cards that it has created itself.

* `Answered history id`: the history holds a creation that was answered with success, and `id` is
  read off the response;
* `Expected history e`: the exchange `e` reads, creates, or follows up such a creation;
* `Expected.targets`: what is expected is asked of the API;
* `follows_createCardWithPostprocessing`, `follows_submitTasks`, `follows_processEntries`: the
  programs only send requests that are expected after the ones before;
* `follows_handleBacklog`, `follows_handleCreateCard`: so it is with the modes.
-/

namespace Kaiten

section Changes

variable {σ Text : Type} (json : NlohmannText Text) (server : Server σ Text) (apiPath : Str)

/-- The history holds a creation that was answered with success, and with the card `id`; a response
that cannot be read stands for the empty card, whose id is 0. -/
def Answered (history : List (Exchange Text)) (id : Int64) : Prop :=
  ∃ body response, .request (.post (apiPath ++ lit "/cards") body) response ∈ history ∧
    IsSuccess response.1 ∧ ((readCard json response.2).getD {}).id = id

/-- An exchange that is expected after the history: a card, the current user or all users are asked
for, a card is created, or one is changed that was created before. -/
inductive Expected (history : List (Exchange Text)) : Exchange Text → Prop
  | card (idOrNumber : Str) (response : ℤ × Text) :
      Expected history (.request (.get (cardTarget apiPath idOrNumber)) response)
  | currentUser (response : ℤ × Text) :
      Expected history (.request (.get (apiPath ++ lit "/users/current")) response)
  | users (requests : List (Query UserFilterParams)) : Expected history (.users requests)
  | create (body : Text) (response : ℤ × Text) :
      Expected history (.request (.post (apiPath ++ lit "/cards") body) response)
  | change {id : Int64} (hid : Answered json apiPath history id) {request : Request Text}
      (h : FollowUp json apiPath id request) (response : ℤ × Text) :
      Expected history (.request request response)

/-- The target of a request. -/
def Request.target : Request Text → Str
  | .get target => target
  | .post target _ => target
  | .patch target _ => target

/-- The target of the request for a page of users. -/
def usersTarget (apiPath : Str) (q : Query UserFilterParams) : Str :=
  apiPath ++ lit "/users" ++ QueryBuilder.usersQueryText q

/-- The targets of the requests of an exchange: a listing asks for several pages. -/
def Exchange.targets (apiPath : Str) : Exchange Text → List Str
  | .request r _ => [r.target]
  | .users qs => qs.map (usersTarget apiPath)

/-- All exchanges of `m` from `w` on are expected after what is before them. -/
abbrev ExpectedAt {α : Type} (m : Run σ Text α) (w : World σ Text) : Prop :=
  Effects.FollowsAt World.log (Expected json apiPath) m w

variable {json server apiPath}

theorem Answered.later {history later : List (Exchange Text)} {id : Int64}
    (h : Answered json apiPath history id) (hextends : history <+: later) :
    Answered json apiPath later id := by
  obtain ⟨body, response, hmem, hs, hid⟩ := h
  exact ⟨body, response, hextends.subset hmem, hs, hid⟩

theorem Expected.target {history : List (Exchange Text)} {request : Request Text}
    {response : ℤ × Text} (h : Expected json apiPath history (.request request response)) :
    apiPath ++ lit "/" <+: request.target := by
  have hslash : lit "/cards/" = lit "/" ++ lit "cards/" := by decide +kernel
  have hcard : ∀ idOrNumber suffix, apiPath ++ lit "/" <+:
      cardTarget apiPath idOrNumber ++ suffix := fun idOrNumber suffix =>
    ⟨lit "cards/" ++ idOrNumber ++ suffix, by
      simp only [cardTarget, hslash, List.append_assoc]⟩
  cases h with
  | card idOrNumber => simpa [Request.target] using hcard idOrNumber []
  | currentUser =>
    refine ⟨lit "users/current", ?_⟩
    rw [List.append_assoc]
    rfl
  | create =>
    refine ⟨lit "cards", ?_⟩
    rw [List.append_assoc]
    rfl
  | change hid h =>
    cases h with
    | link parent => exact hcard _ _
    | tag => exact hcard _ _
    | title => simpa [Request.target] using hcard _ []

/-- What is expected is asked of the API. -/
theorem Expected.targets {history : List (Exchange Text)} {e : Exchange Text}
    (h : Expected json apiPath history e) :
    ∀ target ∈ e.targets apiPath, apiPath ++ lit "/" <+: target := by
  intro target htarget
  cases e with
  | request request response =>
    obtain rfl := List.mem_singleton.1 htarget
    exact h.target
  | users requests =>
    obtain ⟨q, -, rfl⟩ := List.mem_map.1 htarget
    have hslash : lit "/users" = lit "/" ++ lit "users" := by decide +kernel
    exact ⟨lit "users" ++ QueryBuilder.usersQueryText q, by
      simp only [usersTarget, hslash, List.append_assoc]⟩

/-- What follows the creation of a card that the log holds. -/
theorem follows_postprocess (cardData : SimpleCard) (parent : Int64) (product work : Str)
    (updateTitle : Bool) {id : Int64} {w : World σ Text} (hid : Answered json apiPath w.log id) :
    ExpectedAt json apiPath
      (postprocess json server apiPath cardData parent product work updateTitle id) w := by
  refine .of_emits (emits_postprocess json server apiPath cardData parent product work updateTitle
    id) fun history e hextends he => ?_
  cases e with
  | users => cases he
  | request request response => exact .change (hid.later hextends) he response

/-- The log after a creation holds it with the id that is returned. -/
theorem answered_of_createCard {desired : SimpleCard} {w t : World σ Text} {status : ℤ}
    {card : Card} (h : createCard json server apiPath desired w = .ok (status, card) t)
    (hs : IsSuccess status) : Answered json apiPath t.log card.id := by
  cases hdump : json.dump desired.payload with
  | none =>
    rw [createCard_of_dump_none hdump] at h
    cases h
  | some body =>
    rw [createCard_of_dump_some hdump w rfl] at h
    cases h
    refine ⟨body, _, List.mem_append_right _ (List.mem_singleton.2 rfl), hs, ?_⟩
    rw [if_pos hs]

theorem follows_createCardWithPostprocessing (cardData : SimpleCard) (parent : Int64)
    (product work : Str) (updateTitle : Bool) (w : World σ Text) :
    ExpectedAt json apiPath
      (createCardWithPostprocessing json server apiPath cardData parent product work updateTitle)
      w := by
  have hcreate : Effects.Emits World.log
      (fun e => ∃ body response, e = .request (.post (apiPath ++ lit "/cards") body) response)
      (createCard json server apiPath cardData) :=
    emits_createCard fun body response _ => ⟨body, response, rfl⟩
  refine Effects.FollowsAt.bind (.of_emits hcreate ?_) fun created t hcreated => ?_
  · rintro history _ - ⟨body, response, rfl⟩
    exact .create body response
  · dsimp only
    split_ifs with hs
    · have hid := answered_of_createCard hcreated hs
      exact (follows_postprocess cardData parent product work updateTitle hid).bind
        fun _ _ _ => .pure _
    · exact .pure _

theorem follows_planEntry (config : Config) (entry : Json) (userId : Int64) (w : World σ Text) :
    ExpectedAt json apiPath (planEntry json server apiPath config entry userId) w :=
  .of_emits (P := fun e => ∀ history, Expected json apiPath history e)
    (emits_planEntry_of (fun idOrNumber response _ => .card idOrNumber response)
      (fun requests _ => .users requests) config entry userId) fun history _ _ he => he history

/-- The loop over the tasks. -/
theorem follows_submitTasks (plan : EntryPlan) (tasks : List Json) (w : World σ Text) :
    ExpectedAt json apiPath (submitTasks json server apiPath plan tasks) w := by
  induction tasks generalizing w with
  | nil => exact .pure _
  | cons task tasks ih =>
    have hread : ExpectedAt json apiPath
        (orThrow (parseTaskCardFromBacklog plan.base task plan.responsibleUserId)) w :=
      .of_emits (P := fun _ => False) (emits_orThrow _) fun _ _ _ => False.elim
    refine hread.bind fun card t _ => ?_
    refine (follows_createCardWithPostprocessing card _ _ _ _ t).bind fun created u _ => ?_
    refine (ih u).bind fun counts v _ => ?_
    dsimp only
    split_ifs
    · exact .pure _
    · exact .pure _

theorem follows_processBacklogEntry (config : Config) (entry : Json) (userId : Int64)
    (w : World σ Text) :
    ExpectedAt json apiPath (processBacklogEntry json server apiPath config entry userId) w := by
  refine (follows_planEntry config entry userId w).bind fun plan t _ => ?_
  split
  · exact follows_submitTasks plan _ t
  · exact .pure _

/-- The loop over the entries. -/
theorem follows_processEntries (config : Config) (userId : Int64) (entries : List Json)
    (w : World σ Text) :
    ExpectedAt json apiPath (processEntries json server apiPath config userId entries) w := by
  induction entries generalizing w with
  | nil => exact .pure _
  | cons entry entries ih =>
    refine (follows_processBacklogEntry config entry userId w).bind fun counts t _ => ?_
    exact (ih t).bind fun more u _ => .pure _

theorem follows_currentUserId (w : World σ Text) :
    ExpectedAt json apiPath (currentUserId json server apiPath) w :=
  .of_emits (P := fun e => ∀ history, Expected json apiPath history e)
    (emits_currentUserId_of fun response _ => .currentUser response)
    fun history _ _ he => he history

theorem follows_handleBacklog (config : Config) (file : Option Text) (w : World σ Text) :
    ExpectedAt json apiPath (handleBacklog json server apiPath config file) w := by
  unfold handleBacklog
  split
  · exact .pure _
  · refine (follows_currentUserId w).bind fun userId t _ => ?_
    exact (follows_processEntries config userId _ t).bind fun counts u _ => .pure _

theorem follows_handleCreateCard (config : Config) (title : Str) (size : Int32) (parent : Int64)
    (tags : List Str) (w : World σ Text) :
    ExpectedAt json apiPath
      (handleCreateCard json server apiPath config title size parent tags) w := by
  have hread : Effects.Emits World.log (fun e => ∀ history, Expected json apiPath history e)
      (if parent > 0 then
        fetchParentCardInfo json server apiPath (intToString parent.toInt) {}
        else pure (false, {}) : Run σ Text (Bool × ParentInfo)) := by
    split_ifs
    · exact emits_fetchParentCardInfo_of (fun idOrNumber response _ => .card idOrNumber response)
        _ _
    · exact .pure _
  unfold handleCreateCard
  split
  · exact .pure _
  · refine (follows_currentUserId w).bind fun userId t _ => ?_
    refine Effects.FollowsAt.bind
      (Effects.FollowsAt.of_emits hread fun history _ _ he => he history) fun info u _ => ?_
    exact (follows_createCardWithPostprocessing _ _ _ _ _ u).bind fun created v _ => .pure _

end Changes

end Kaiten
