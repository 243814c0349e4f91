import Kunstkammer.Cards.Creation

/-!
# The modes that create cards

`handle_create_card` and `handle_backlog` of `modes.cpp`.

* `findPropertyValueByName`: a property of a card as text;
* `fetchParentCardInfo`: sprint, product and work code of the parent, as far as they are found;
* `parseTaskCardFromBacklog`, `processBacklogEntry`, `handleBacklog`;
* `handleCreateCard`;
* `Exchange.creation`: the payload of a request that creates a card;
* `emits_submitTasks`: a run only creates the cards that were read off its tasks.
-/

namespace Kaiten

section Parent

variable {Text : Type} (json : NlohmannText Text)

/-- A JSON value as text; `none` when `dump` throws. -/
def propertyText : Json → Option Str
  | .string s => some s
  | .integer n => some (intToString (Int64.ofInt n).toInt)
  | .float x => some (doubleToString x)
  | .boolean b => some (if b then lit "true" else lit "false")
  | v => (json.dump v).map json.bytes

/-- The first object of a list with the given `name`. -/
def findNamed (name : Str) (l : List Json) : Option Json :=
  l.find? fun p =>
    match p.member? (lit "name") with
    | some (.string s) => s = name
    | _ => false

/-- `find_property_value_by_name`: in a list of names and values, else among the members; `none`
when `dump` throws. -/
def findPropertyValueByName (card : Card) (name : Str) : Option (Option Str) :=
  let flat :=
    match card.properties.member? name with
    | some v => (propertyText json v).map some
    | none => some none
  if name = [] then some none
  else
    match card.properties.member? (lit "properties") with
    | some (.array l) =>
        match findNamed name l with
        | some p =>
            match p.member? (lit "value") with
            | some v => (propertyText json v).map some
            | none => some none
        | none => flat
    | _ => flat

/-- What is known about the parent: the default values, or what was found. -/
structure ParentInfo where
  sprintNumber : Str := []
  productCode : Str := lit "CAD"
  workCode : Str := lit "A"

/-- What the card of the parent adds, and whether all of it was found. -/
def readParentInfo (card : Card) (info : ParentInfo) : Bool × ParentInfo :=
  match findPropertyValueByName json card sprintNumberProperty with
  | none => (false, info)
  | some sprint =>
      let info := { info with sprintNumber := sprint.getD info.sprintNumber }
      if card.title = [] then (false, info)
      else
        match extractWorkCode card.title with
        | some (product, code) => (true, { info with productCode := product, workCode := code })
        | none => (false, info)

variable {σ : Type} (server : Server σ Text) (apiPath : Str)

/-- `fetch_parent_card_info`: whether all was found, and what was found. -/
def fetchParentCardInfo (parentId : Str) (info : ParentInfo) : Run σ Text (Bool × ParentInfo) :=
  if parentId = [] then pure (false, info)
  else
    match stoll parentId with
    | none => pure (false, info)
    | some id =>
        if id ≤ 0 then pure (false, info)
        else do
          let (status, card) ← getCard json server apiPath (intToString id.toInt)
          return if status ≠ 200 then (false, info) else readParentInfo json card info

/-- `find_responsible_user_id`. -/
def findResponsibleUserId (email : Str) : Run σ Text Int64 :=
  if email = [] then pure 0
  else do
    let (status, users) ← getAllUsers json server
    if status = 200 then
      return ((users.find? fun user => user.email = email && user.id > 0).map User.id).getD 0
    else return 0

end Parent

/-! ### Tasks and entries -/

/-- The members of an object that `value` reads; an exception where it throws. -/
def orThrow {σ Text T : Type} (o : Option T) : Run σ Text T :=
  match o with
  | some t => pure t
  | none => throw .exception

/-- `parse_task_card_from_backlog`; `none` when it throws. -/
def parseTaskCardFromBacklog (base : SimpleCard) (task : Json) (responsibleUserId : Int64) :
    Option SimpleCard := do
  let title ← task.value Json.getString (lit "title") []
  let size ← task.value Json.getInt (lit "size") 0
  let card := base.setContent title size
  let card :=
    if responsibleUserId > 0 then { card with responsibleId := responsibleUserId } else card
  match (task.member? (lit "type_id")).bind Json.getInt64 with
  | some typeId => some { card with typeId := typeId }
  | none => some card

/-- `add_tags_from_json`. -/
def addTagsFromJson (card : SimpleCard) (tags : List Json) : SimpleCard :=
  card.addTags (tags.filterMap Json.getString)

section Modes

variable {σ Text : Type} (json : NlohmannText Text) (server : Server σ Text) (apiPath : Str)

/-- The members of an entry that are read first. -/
structure EntryFields where
  parent : Str
  responsible : Str
  role : Str

/-- `parent`, `responsible` and `role`; `none` when reading throws. -/
def entryFields (config : Config) (entry : Json) : Option EntryFields := do
  let parent ← entry.value Json.getString (lit "parent") []
  let responsible ← entry.value Json.getString (lit "responsible") []
  let role ← entry.value Json.getString (lit "role") config.role
  some ⟨parent, responsible, role⟩

/-- What the tasks of an entry have in common. -/
structure EntryPlan where
  base : SimpleCard
  parentCardId : Int64
  productCode : Str
  workCode : Str
  responsibleUserId : Int64

/-- The card all tasks of an entry are copied from. -/
def entryBase (config : Config) (sprintNumber role : Str) (entry : Json) : SimpleCard :=
  let base := createBaseCardFromConfig config sprintNumber role
  match entry.member? (lit "tags") with
  | some (.array tags) => addTagsFromJson base tags
  | _ => base

/-- The first half of `process_backlog_entry`: everything up to the tasks. -/
def planEntry (config : Config) (entry : Json) (currentUserId : Int64) : Run σ Text EntryPlan := do
  let fields ← orThrow (entryFields config entry)
  let parentCardId ← (if fields.parent = [] then pure 0 else orThrow (stoll fields.parent))
  let (_, info) ← fetchParentCardInfo json server apiPath fields.parent {}
  let found ← findResponsibleUserId json server fields.responsible
  let roleCode := resolveProductCodeFromRole fields.role
  return {
    base := entryBase config info.sprintNumber fields.role entry
    parentCardId := parentCardId
    productCode := if roleCode ≠ [] then roleCode else info.productCode
    workCode := info.workCode
    responsibleUserId := if found > 0 then found else currentUserId }

/-- The loop over the tasks of an entry: how many cards are created, and how many are not. -/
def submitTasks (plan : EntryPlan) : List Json → Run σ Text (ℕ × ℕ)
  | [] => pure (0, 0)
  | task :: tasks => do
      let card ← orThrow (parseTaskCardFromBacklog plan.base task plan.responsibleUserId)
      let created ← createCardWithPostprocessing json server apiPath card plan.parentCardId
        plan.productCode plan.workCode (plan.productCode ≠ [] ∧ plan.workCode ≠ [])
      let (success, errors) ← submitTasks plan tasks
      if created.isSome then return (success + 1, errors) else return (success, errors + 1)

/-- `process_backlog_entry`: numbers of successes and errors. -/
def processBacklogEntry (config : Config) (entry : Json) (currentUserId : Int64) :
    Run σ Text (ℕ × ℕ) := do
  let plan ← planEntry json server apiPath config entry currentUserId
  match entry.member? (lit "tasks") with
  | some (.array tasks) => submitTasks json server apiPath plan tasks
  | _ => return (0, 1)

/-- The loop over the entries. -/
def processEntries (config : Config) (currentUserId : Int64) : List Json → Run σ Text (ℕ × ℕ)
  | [] => pure (0, 0)
  | entry :: entries => do
      let (success, errors) ← processBacklogEntry json server apiPath config entry currentUserId
      let (moreSuccess, moreErrors) ← processEntries config currentUserId entries
      return (success + moreSuccess, errors + moreErrors)

/-- The id of the current user, 0 if it is not known. -/
def currentUserId : Run σ Text Int64 := do
  let (status, user) ← getCurrentUser json server apiPath
  if status = 200 then return user.id else return 0

/-- `handle_backlog`, with the content of the file if it can be opened. -/
def handleBacklog (config : Config) (file : Option Text) : Run σ Text ℤ :=
  match (file.bind json.parse).bind fun j => (j.member? (lit "backlog")).bind Json.elements? with
  | none => pure 1
  | some entries => do
      let userId ← currentUserId json server apiPath
      let (_, errors) ← processEntries json server apiPath config userId entries
      return (if errors > 0 then 1 else 0)

/-- The card of `handle_create_card`. -/
def desiredCard (config : Config) (sprintNumber title : Str) (size : Int32) (tags : List Str)
    (userId : Int64) : SimpleCard :=
  let desired := createBaseCardFromConfig config sprintNumber config.role
  let desired := { desired with title := title }
  let desired := if userId > 0 then { desired with responsibleId := userId } else desired
  let desired := if size > 0 then { desired with size := size.toInt64 } else desired
  if tags ≠ [] then { desired with tags := [] }.addTags tags else desired

/-- `handle_create_card`. -/
def handleCreateCard (config : Config) (title : Str) (size : Int32) (parentCardId : Int64)
    (tags : List Str) : Run σ Text ℤ :=
  if title = [] then pure 1
  else do
    let userId ← currentUserId json server apiPath
    let (_, info) ← (if parentCardId > 0 then
      fetchParentCardInfo json server apiPath (intToString parentCardId.toInt) {}
      else pure (false, {}))
    let roleCode := resolveProductCodeFromRole config.role
    let created ← createCardWithPostprocessing json server apiPath
      (desiredCard config info.sprintNumber title size tags userId) parentCardId
      (if roleCode ≠ [] then roleCode else info.productCode) info.workCode
      (parentCardId > 0)
    return (if created.isSome then 0 else 1)

end Modes

/-! ### A small world -/

/-- An empty configuration. -/
def emptyConfig : Config :=
  { token := [], baseUrl := [], port := [], logLevel := [], boardId := 0, columnId := 0,
    laneId := 0, spaceId := 0, tags := [], taskTypeId := 0, taskSize := 0, role := [] }

/-- A world in which nothing has happened. -/
def quietWorld : World Unit (Option { j : Json // j.validUtf8 = true }) :=
  .initial () fun _ => ⟨0, fun _ => 0, fun _ => 0⟩

/-- An entry with one task below the card 7. -/
def oneTaskEntry : Json :=
  .object [(lit "parent", .string (lit "7")),
    (lit "tasks", .array [.object [(lit "title", .string (lit "task"))]])]

/-! ### The card of a task -/

theorem setContent_fields (title : Str) (size : Int32) (card : SimpleCard) :
    (card.setContent title size).title = title ∧ (card.setContent title size).tags = card.tags ∧
      (card.setContent title size).properties = card.properties := by
  unfold SimpleCard.setContent
  dsimp only
  split_ifs
  · exact ⟨rfl, rfl, rfl⟩
  · exact ⟨rfl, rfl, rfl⟩

/-- What a task adds to the base card, and what it leaves. -/
theorem parseTask_fields {base card : SimpleCard} {task : Json} {userId : Int64}
    (h : parseTaskCardFromBacklog base task userId = some card) :
    task.value Json.getString (lit "title") [] = some card.title ∧
      (task.value Json.getInt (lit "size") 0).isSome ∧ card.tags = base.tags ∧
      card.properties = base.properties := by
  simp only [parseTaskCardFromBacklog, Option.bind_eq_bind, Option.bind_eq_some_iff] at h
  obtain ⟨title, htitle, size, hsize, h⟩ := h
  obtain ⟨hcontent, htags, hproperties⟩ := setContent_fields title size base
  have hfields : card.title = title ∧ card.tags = base.tags ∧
      card.properties = base.properties := by
    split at h
    · rw [← Option.some.inj h]
      dsimp only
      split_ifs
      · exact ⟨hcontent, htags, hproperties⟩
      · exact ⟨hcontent, htags, hproperties⟩
    · rw [← Option.some.inj h]
      split_ifs
      · exact ⟨hcontent, htags, hproperties⟩
      · exact ⟨hcontent, htags, hproperties⟩
  rw [hfields.1, hsize]
  exact ⟨htitle, rfl, hfields.2⟩

/-! ### The requests of a run that create cards -/

section Creations

variable {σ Text : Type} (json : NlohmannText Text) (server : Server σ Text) (apiPath : Str)

/-- The payload of a request that creates a card. -/
def Exchange.creation : Exchange Text → Option Json
  | .request (.post target body) _ =>
      if target = apiPath ++ lit "/cards" then json.parse body else none
  | _ => none

/-- If the request creates a card, its payload is in `P`. -/
def Exchange.CreatesOnly (P : Json → Prop) (e : Exchange Text) : Prop :=
  ∀ payload, e.creation json apiPath = some payload → P payload

variable {json server apiPath} {P : Json → Prop}

/-- The paths of links and tags are not the path of new cards. -/
theorem target_ne (id : Str) (suffix : Str) (h : suffix ≠ []) :
    cardTarget apiPath id ++ suffix ≠ apiPath ++ lit "/cards" := by
  intro habs
  have hlength := congrArg List.length habs
  have hslash : (lit "/cards/").length = (lit "/cards").length + 1 := by decide
  have hpos := List.length_pos_of_ne_nil h
  simp only [cardTarget, List.length_append, hslash] at hlength
  omega

/-- A link or a tag creates no card. -/
theorem creation_of_suffix (id : Str) {suffix : Str} (h : suffix ≠ []) (body : Text)
    (response : ℤ × Text) :
    (Exchange.request (.post (cardTarget apiPath id ++ suffix) body) response).creation json
      apiPath = none :=
  if_neg (target_ne id suffix h)

theorem createsOnly_of_followsUp {id : Int64} {e : Exchange Text}
    (h : e.FollowsUp json apiPath id) : e.CreatesOnly json apiPath P := by
  intro payload hpayload
  cases e with
  | users => cases hpayload
  | request r response =>
    cases h with
    | link parent body =>
      rw [creation_of_suffix _ (by decide)] at hpayload
      cases hpayload
    | tag body =>
      rw [creation_of_suffix _ (by decide)] at hpayload
      cases hpayload
    | title body => cases hpayload

theorem createsOnly_get (target : Str) (response : ℤ × Text) :
    (Exchange.request (.get target) response).CreatesOnly json apiPath P := by
  rintro _ ⟨⟩

/-- All that is created with a card and its follow-ups is that card. -/
theorem emits_createCardWithPostprocessing {cardData : SimpleCard} (h : P cardData.payload)
    (parent : Int64) (product work : Str) (updateTitle : Bool) :
    Effects.Emits World.log (Exchange.CreatesOnly json apiPath P)
      (createCardWithPostprocessing json server apiPath cardData parent product work
        updateTitle) := by
  have hcreate : Effects.Emits World.log (Exchange.CreatesOnly json apiPath P)
      (createCard json server apiPath cardData) := by
    refine emits_createCard fun body response hbody payload hpayload => ?_
    rw [Exchange.creation, if_pos rfl, json.parse_dump _ _ hbody] at hpayload
    rwa [← Option.some.inj hpayload]
  refine hcreate.bind fun _ response _ _ => ?_
  dsimp only
  split_ifs
  · refine Effects.Emits.bind ?_ fun _ _ _ _ => .pure _
    exact (emits_postprocess json server apiPath cardData parent product work updateTitle _).mono
      fun _ => createsOnly_of_followsUp
  · exact .pure _

theorem emits_cached {Q : Exchange Text → Prop} (idOrNumber : Str) :
    Effects.Emits World.log Q (cached idOrNumber : Run σ Text (Option Card)) := by
  unfold cached
  split_ifs
  · exact .of_log_eq fun _ => rfl
  · split
    · exact .of_log_eq fun _ => rfl
    · exact .pure _

/-- A card is asked for with one request, if at all. -/
theorem emits_getCard {Q : Exchange Text → Prop} {idOrNumber : Str}
    (h : ∀ response, Q (.request (.get (cardTarget apiPath idOrNumber)) response)) :
    Effects.Emits World.log Q (getCard json server apiPath idOrNumber) := by
  refine (emits_cached idOrNumber).bind fun _ found _ _ => ?_
  cases found with
  | some card => exact .pure _
  | none =>
    refine (emits_send h).bind fun _ response _ _ => ?_
    split_ifs
    · cases readCard json response.2 with
      | none => exact .pure _
      | some card => exact Effects.Emits.bind (.of_log_eq fun _ => rfl) fun _ _ _ _ => .pure _
    · exact .pure _

theorem emits_fetchParentCardInfo_of {Q : Exchange Text → Prop}
    (h : ∀ idOrNumber response, Q (.request (.get (cardTarget apiPath idOrNumber)) response))
    (parentId : Str) (info : ParentInfo) :
    Effects.Emits World.log Q (fetchParentCardInfo json server apiPath parentId info) := by
  unfold fetchParentCardInfo
  split_ifs
  · exact .pure _
  · split
    · exact .pure _
    · split_ifs
      · exact .pure _
      · exact (emits_getCard (h _)).bind fun _ _ _ _ => .pure _

theorem emits_fetchParentCardInfo (parentId : Str) (info : ParentInfo) : Effects.Emits World.log
    (Exchange.CreatesOnly json apiPath P)
    (fetchParentCardInfo json server apiPath parentId info) :=
  emits_fetchParentCardInfo_of (fun _ response => createsOnly_get _ response) parentId info

/-- The current user is asked for with one request. -/
theorem emits_currentUserId_of {Q : Exchange Text → Prop}
    (h : ∀ response, Q (.request (.get (apiPath ++ lit "/users/current")) response)) :
    Effects.Emits World.log Q (currentUserId json server apiPath) := by
  refine Effects.Emits.bind ?_ fun _ answer _ _ => ?_
  · refine (emits_send h).bind fun _ response _ _ => ?_
    split_ifs
    · cases json.parse response.2 with
      | none => exact .pure _
      | some j => exact .pure _
    · exact .pure _
  · dsimp only
    split_ifs
    · exact .pure _
    · exact .pure _

theorem emits_currentUserId : Effects.Emits World.log
    (Exchange.CreatesOnly json apiPath P) (currentUserId json server apiPath) :=
  emits_currentUserId_of fun response => createsOnly_get _ response

theorem emits_getAllUsers {P : Exchange Text → Prop} (h : ∀ requests, P (.users requests)) :
    Effects.Emits World.log P (getAllUsers json server : Run σ Text (ℤ × List User)) := by
  intro w
  refine ⟨[.users (UserOperations.getAllUsers json.toNlohmann (fun j => some (User.fromJson j))
    (server.users w.server).1 {} 100 intMax).requests], ?_, by simpa using h _⟩
  unfold getAllUsers
  dsimp only
  split
  · rfl
  · rfl

theorem emits_findResponsible_of {Q : Exchange Text → Prop} (h : ∀ requests, Q (.users requests))
    (email : Str) :
    Effects.Emits World.log Q (findResponsibleUserId json server email : Run σ Text Int64) := by
  unfold findResponsibleUserId
  split_ifs
  · exact .pure _
  · refine (emits_getAllUsers h).bind fun _ answer _ _ => ?_
    dsimp only
    split_ifs
    · exact .pure _
    · exact .pure _

theorem emits_orThrow {P : Exchange Text → Prop} {T : Type} (o : Option T) :
    Effects.Emits World.log P (orThrow o : Run σ Text T) := by
  cases o with
  | some t => exact .pure t
  | none => exact .throw _

theorem orThrow_eq_ok {T : Type} {o : Option T} {t : T} {w u : World σ Text}
    (h : orThrow o w = .ok t u) : o = some t ∧ u = w := by
  cases o with
  | some _ =>
    cases h
    exact ⟨rfl, rfl⟩
  | none => cases h

/-- **What the plan of an entry is made of**, when it is made: the fields of the entry, what the
card of its parent tells, and the user who is found. -/
theorem planEntry_eq_ok {config : Config} {entry : Json} {userId : Int64} {w u : World σ Text}
    {plan : EntryPlan} (h : planEntry json server apiPath config entry userId w = .ok plan u) :
    ∃ fields all info found t, entryFields config entry = some fields ∧
      (fields.parent = [] ∨ (stoll fields.parent).isSome) ∧
      fetchParentCardInfo json server apiPath fields.parent {} w = .ok (all, info) t ∧
      findResponsibleUserId json server fields.responsible t = .ok found u ∧
      plan.base = entryBase config info.sprintNumber fields.role entry ∧
      plan.responsibleUserId = if found > 0 then found else userId := by
  obtain ⟨fields, w1, hthrow, h1⟩ := Effects.bind_eq_ok.1 h
  obtain ⟨hfields, rfl⟩ := orThrow_eq_ok hthrow
  obtain ⟨parentCardId, w2, hnumber, h2⟩ := Effects.bind_eq_ok.1 h1
  obtain ⟨⟨all, info⟩, t, hinfo, h3⟩ := Effects.bind_eq_ok.1 h2
  obtain ⟨found, v, hfound, h4⟩ := Effects.bind_eq_ok.1 h3
  cases h4
  obtain ⟨hparent, rfl⟩ : (fields.parent = [] ∨ (stoll fields.parent).isSome) ∧ w2 = w1 := by
    split_ifs at hnumber with hnil
    · cases hnumber
      exact ⟨Or.inl hnil, rfl⟩
    · obtain ⟨hstoll, hw⟩ := orThrow_eq_ok hnumber
      exact ⟨Or.inr (Option.isSome_of_eq_some hstoll), hw⟩
  exact ⟨fields, all, info, found, t, hfields, hparent, hinfo, hfound, rfl, rfl⟩

/-- The plan of an entry is read off the card of its parent and the list of the users. -/
theorem emits_planEntry_of {Q : Exchange Text → Prop}
    (hcard : ∀ idOrNumber response, Q (.request (.get (cardTarget apiPath idOrNumber)) response))
    (husers : ∀ requests, Q (.users requests)) (config : Config) (entry : Json) (userId : Int64) :
    Effects.Emits World.log Q (planEntry json server apiPath config entry userId) := by
  refine (emits_orThrow _).bind fun _ fields _ _ => ?_
  refine Effects.Emits.bind ?_ fun _ parentCardId _ _ => ?_
  · split_ifs
    · exact .pure _
    · exact emits_orThrow _
  · refine (emits_fetchParentCardInfo_of hcard _ _).bind fun _ info _ _ => ?_
    exact (emits_findResponsible_of husers _).bind fun _ found _ _ => .pure _

theorem emits_planEntry (config : Config) (entry : Json) (userId : Int64) :
    Effects.Emits World.log (Exchange.CreatesOnly json apiPath P)
      (planEntry json server apiPath config entry userId) := by
  refine emits_planEntry_of (fun _ response => createsOnly_get _ response) (fun _ => ?_) config
    entry userId
  rintro _ ⟨⟩

/-- All that is created for the tasks of an entry are the cards that were read off them. -/
theorem emits_submitTasks {plan : EntryPlan}
    (h : ∀ task card, parseTaskCardFromBacklog plan.base task plan.responsibleUserId = some card →
      P card.payload) (tasks : List Json) :
    Effects.Emits World.log (Exchange.CreatesOnly json apiPath P)
      (submitTasks json server apiPath plan tasks) := by
  induction tasks with
  | nil => exact .pure _
  | cons task tasks ih =>
    refine (emits_orThrow _).bind fun _ card _ hcard => ?_
    refine Effects.Emits.bind ?_ fun _ created _ _ => ih.bind fun _ counts _ _ => ?_
    · exact emits_createCardWithPostprocessing (h task card (orThrow_eq_ok hcard).1) _ _ _ _
    · dsimp only
      split_ifs
      · exact .pure _
      · exact .pure _

/-! ### One entry after the other -/

variable {config : Config} {userId : Int64}

/-- The second half of `process_backlog_entry`. -/
theorem processBacklogEntry_of_plan {entry : Json} {w u : World σ Text} {plan : EntryPlan}
    (hplan : planEntry json server apiPath config entry userId w = .ok plan u) :
    (∀ tasks, entry.member? (lit "tasks") = some (.array tasks) →
      processBacklogEntry json server apiPath config entry userId w =
        submitTasks json server apiPath plan tasks u) ∧
    ((∀ tasks, entry.member? (lit "tasks") ≠ some (.array tasks)) →
      processBacklogEntry json server apiPath config entry userId w = .ok (0, 1) u) := by
  unfold processBacklogEntry
  rw [Effects.bind_ok hplan]
  constructor
  · intro tasks htasks
    rw [htasks]
  · intro hnone
    cases htasks : entry.member? (lit "tasks") with
    | none => rfl
    | some v =>
      cases v with
      | array tasks => exact absurd htasks (hnone tasks)
      | _ => rfl

theorem processEntries_cons {entry : Json} {entries : List Json} {w v : World σ Text}
    {counts : ℕ × ℕ} :
    processEntries json server apiPath config userId (entry :: entries) w = .ok counts v ↔
      ∃ c u c', processBacklogEntry json server apiPath config entry userId w = .ok c u ∧
        processEntries json server apiPath config userId entries u = .ok c' v ∧
        counts = c + c' := by
  constructor
  · intro h
    obtain ⟨c, u, hc, h⟩ := Effects.bind_eq_ok.1 h
    obtain ⟨c', v', hc', h⟩ := Effects.bind_eq_ok.1 h
    cases h
    exact ⟨c, u, c', hc, hc', rfl⟩
  · rintro ⟨c, u, c', hc, hc', rfl⟩
    exact (Effects.bind_ok hc).trans (Effects.bind_ok hc')

theorem processEntries_singleton {entry : Json} {w v : World σ Text} {counts : ℕ × ℕ} :
    processEntries json server apiPath config userId [entry] w = .ok counts v ↔
      processBacklogEntry json server apiPath config entry userId w = .ok counts v := by
  rw [processEntries_cons]
  constructor
  · rintro ⟨c, u, c', hc, hnil, rfl⟩
    cases hnil
    rw [hc]
    simp
  · exact fun h => ⟨counts, v, 0, h, rfl, (add_zero counts).symm⟩

end Creations

end Kaiten
