import Kunstkammer.Cards.Modes

/-!
# What the log tells of the server

A run talks to the server only in requests that it logs.

* `userListing`: how all users are listed from the pages the server answers;
* `ServerStep json server`: a logged exchange, and the server before and after it;
* `TracesServer`: the log tells how the program has moved the server;
* `traces_getCard`, `traces_createCardWithPostprocessing`, `traces_submitTasks`: so do the parts of
  the modes;
* `traces_handleCreateCard`, `traces_handleBacklog`: and so do the modes.
-/

namespace Kaiten

section Traces

variable {σ Text : Type} (json : NlohmannText Text) (server : Server σ Text) (apiPath : Str)

/-- The listing of all users, from the answers to its pages. -/
def userListing (client : Query UserFilterParams → ℤ × Text) : Listing UserFilterParams User :=
  UserOperations.getAllUsers json.toNlohmann (fun j => some (User.fromJson j)) client {} 100 intMax

/-- An exchange with the server: the response is its answer, or all users are listed. -/
inductive ServerStep : σ → Exchange Text → σ → Prop
  | request (state : σ) (request : Request Text) :
      ServerStep state (.request request (server.answer state request).1)
        (server.answer state request).2
  | users (state : σ) :
      ServerStep state (.users (userListing json (server.users state).1).requests)
        (server.users state).2

/-- The log tells how `m` has moved the server. -/
abbrev TracesServer {α : Type} (m : Run σ Text α) : Prop :=
  Effects.Traces World.server World.log (ServerStep json server) m

variable {json server apiPath}

/-! ### Requests -/

theorem traces_send (request : Request Text) : TracesServer json server (send server request) :=
  .of_step (e := fun w => .request request (server.answer w.server request).1) (fun _ => rfl)
    fun w => .request w.server request

theorem traces_dump (j : Json) : TracesServer json server (dump json j : Run σ Text Text) := by
  unfold dump
  split
  · exact .pure _
  · exact .throw _

theorem traces_orThrow {T : Type} (o : Option T) :
    TracesServer json server (orThrow o : Run σ Text T) := by
  cases o with
  | some t => exact .pure t
  | none => exact .throw _

/-- A payload that is sent. -/
theorem traces_write {α : Type} (payload : Json) (request : Text → Request Text)
    (answer : ℤ × Text → α) :
    TracesServer json server (do
      let body ← dump json payload
      let response ← send server (request body)
      return answer response : Run σ Text α) :=
  (traces_dump payload).bind fun body => (traces_send (request body)).bind fun _ => .pure _

theorem traces_createCard (desired : SimpleCard) :
    TracesServer json server (createCard json server apiPath desired) := by
  refine (traces_dump _).bind fun body => (traces_send _).bind fun response => ?_
  split_ifs
  · exact .pure _
  · exact .pure _

theorem traces_updateCard (idOrNumber title : Str) :
    TracesServer json server (updateCard json server apiPath idOrNumber title) := by
  refine (traces_dump _).bind fun body => (traces_send _).bind fun response => ?_
  split_ifs
  · exact .pure _
  · exact .pure _

theorem traces_cached (idOrNumber : Str) :
    TracesServer json server (cached idOrNumber : Run σ Text (Option Card)) := by
  unfold cached
  split_ifs
  · exact .of_eq (fun _ => rfl) fun _ => rfl
  · split
    · exact .of_eq (fun _ => rfl) fun _ => rfl
    · exact .pure _

theorem traces_getCard (idOrNumber : Str) :
    TracesServer json server (getCard json server apiPath idOrNumber) := by
  refine (traces_cached idOrNumber).bind fun found => ?_
  cases found with
  | some card => exact .pure _
  | none =>
    refine (traces_send _).bind fun response => ?_
    split_ifs
    · cases readCard json response.2 with
      | none => exact .pure _
      | some card => exact Effects.Traces.bind (.of_eq (fun _ => rfl) fun _ => rfl) fun _ => .pure _
    · exact .pure _

theorem traces_getCurrentUser : TracesServer json server (getCurrentUser json server apiPath) := by
  refine (traces_send _).bind fun response => ?_
  split_ifs
  · cases json.parse response.2 with
    | none => exact .pure _
    | some j => exact .pure _
  · exact .pure _

theorem traces_getAllUsers :
    TracesServer json server (getAllUsers json server : Run σ Text (ℤ × List User)) := by
  refine .of_step (e := fun w => .users (userListing json (server.users w.server).1).requests)
    (fun w => ?_) fun w => ?_
  · unfold getAllUsers
    dsimp only
    split
    · rfl
    · rfl
  · have hstate : (Effects.state (getAllUsers json server w)).server =
        (server.users w.server).2 := by
      unfold getAllUsers
      dsimp only
      split
      · rfl
      · rfl
    rw [hstate]
    exact .users w.server

/-! ### Creations -/

theorem traces_addTags (id : Int64) (tags : List Str) :
    TracesServer json server (addTagsToCreatedCard json server apiPath id tags) := by
  induction tags with
  | nil => exact .pure _
  | cons tag tags ih => exact (traces_write _ _ _).bind fun _ => ih

theorem traces_postprocess (cardData : SimpleCard) (parent : Int64) (product work : Str)
    (updateTitle : Bool) (id : Int64) : TracesServer json server
      (postprocess json server apiPath cardData parent product work updateTitle id) := by
  have hlink : TracesServer json server (linkIfWanted json server apiPath parent id) := by
    unfold linkIfWanted linkCardToParent
    split_ifs
    · exact .pure _
    · exact (traces_write _ _ _).bind fun _ => .pure _
    · exact .pure _
  have htag : TracesServer json server (tagIfWanted json server apiPath cardData.tags id) := by
    unfold tagIfWanted
    split_ifs
    · exact traces_addTags id _
    · exact .pure _
  have htitle : TracesServer json server
      (titleIfWanted json server apiPath product work cardData.title updateTitle id) := by
    unfold titleIfWanted
    split_ifs
    · exact (traces_updateCard _ _).bind fun _ => .pure _
    · exact .pure _
  exact hlink.bind fun _ => htag.bind fun _ => htitle

theorem traces_createCardWithPostprocessing (cardData : SimpleCard) (parent : Int64)
    (product work : Str) (updateTitle : Bool) : TracesServer json server
      (createCardWithPostprocessing json server apiPath cardData parent product work
        updateTitle) := by
  refine (traces_createCard cardData).bind fun created => ?_
  dsimp only
  split_ifs
  · exact (traces_postprocess cardData parent product work updateTitle _).bind fun _ => .pure _
  · exact .pure _

/-! ### Modes -/

theorem traces_fetchParentCardInfo (parentId : Str) (info : ParentInfo) :
    TracesServer json server (fetchParentCardInfo json server apiPath parentId info) := by
  unfold fetchParentCardInfo
  split_ifs
  · exact .pure _
  · split
    · exact .pure _
    · split_ifs
      · exact .pure _
      · exact (traces_getCard _).bind fun _ => .pure _

theorem traces_findResponsible (email : Str) :
    TracesServer json server (findResponsibleUserId json server email : Run σ Text Int64) := by
  unfold findResponsibleUserId
  split_ifs
  · exact .pure _
  · refine traces_getAllUsers.bind fun answer => ?_
    dsimp only
    split_ifs
    · exact .pure _
    · exact .pure _

theorem traces_planEntry (config : Config) (entry : Json) (userId : Int64) :
    TracesServer json server (planEntry json server apiPath config entry userId) := by
  refine (traces_orThrow _).bind fun fields => Effects.Traces.bind ?_ fun parentCardId => ?_
  · split_ifs
    · exact .pure _
    · exact traces_orThrow _
  · exact (traces_fetchParentCardInfo _ _).bind fun _ =>
      (traces_findResponsible _).bind fun _ => .pure _

/-- The loop over the tasks. -/
theorem traces_submitTasks (plan : EntryPlan) (tasks : List Json) :
    TracesServer json server (submitTasks json server apiPath plan tasks) := by
  induction tasks with
  | nil => exact .pure _
  | cons task tasks ih =>
    refine (traces_orThrow _).bind fun card => ?_
    refine (traces_createCardWithPostprocessing card _ _ _ _).bind fun created => ?_
    refine ih.bind fun counts => ?_
    dsimp only
    split_ifs
    · exact .pure _
    · exact .pure _

theorem traces_processBacklogEntry (config : Config) (entry : Json) (userId : Int64) :
    TracesServer json server (processBacklogEntry json server apiPath config entry userId) := by
  refine (traces_planEntry config entry userId).bind fun plan => ?_
  split
  · exact traces_submitTasks plan _
  · exact .pure _

/-- The loop over the entries. -/
theorem traces_processEntries (config : Config) (userId : Int64) (entries : List Json) :
    TracesServer json server (processEntries json server apiPath config userId entries) := by
  induction entries with
  | nil => exact .pure _
  | cons entry entries ih =>
    exact (traces_processBacklogEntry config entry userId).bind fun _ => ih.bind fun _ => .pure _

theorem traces_currentUserId : TracesServer json server (currentUserId json server apiPath) := by
  refine traces_getCurrentUser.bind fun answer => ?_
  dsimp only
  split_ifs
  · exact .pure _
  · exact .pure _

theorem traces_handleBacklog (config : Config) (file : Option Text) :
    TracesServer json server (handleBacklog json server apiPath config file) := by
  unfold handleBacklog
  split
  · exact .pure _
  · exact traces_currentUserId.bind fun userId =>
      (traces_processEntries config userId _).bind fun _ => .pure _

theorem traces_handleCreateCard (config : Config) (title : Str) (size : Int32) (parent : Int64)
    (tags : List Str) :
    TracesServer json server
      (handleCreateCard json server apiPath config title size parent tags) := by
  unfold handleCreateCard
  split
  · exact .pure _
  · refine traces_currentUserId.bind fun userId => Effects.Traces.bind ?_ fun info => ?_
    · split_ifs
      · exact traces_fetchParentCardInfo _ _
      · exact .pure _
    · exact (traces_createCardWithPostprocessing _ _ _ _ _).bind fun created => .pure _

end Traces

end Kaiten
