import Kunstkammer.Cards.Accounting
import Kunstkammer.Listing.Failures

/-!
# The tasks of a backlog and whom they are assigned to

An entry of a backlog may name somebody responsible by an email address.  `process_backlog_entry`
looks the address up among all users, which are fetched page by page, and falls back to the current
user; its tasks are copied from one base card, which gets their titles and the id.

* `Assigned`: the user an entry is assigned to;
* `getAllUsers_served`: all users, from a server that serves them;
* `payload_fixed`, `payload_responsible`: what is posted of a card;
* `backlog_assigned`: every card that is created for an entry has the title of one of its tasks, is
  put where the configuration says, and is assigned to that user.
-/

namespace Kaiten

/-! ### Whom an entry is assigned to -/

/-- The tasks of an entry with the address `email` are assigned to `id`: the first user with this
address who has an id, or the current user. -/
inductive Assigned (users : List User) (currentUser : Int64) (email : Str) : Int64 → Prop
  | named (l : List User) (user : User) (r : List User) (hne : email ≠ [])
      (husers : users = l ++ user :: r) (hemail : user.email = email) (hid : 0 < user.id)
      (hfirst : ∀ other ∈ l, other.email = email → ¬ 0 < other.id) :
      Assigned users currentUser email user.id
  | currentUser (hnobody : email = [] ∨ ∀ user ∈ users, user.email = email → ¬ 0 < user.id) :
      Assigned users currentUser email currentUser

/-- The card is posted with this `responsible_id`, which is left out when it is no id. -/
def AssignedTo (id : Int64) (payload : Json) : Prop :=
  payload.member? (lit "responsible_id") = if id > 0 then some (.integer id.toInt) else none

/-- The search of `find_responsible_user_id` and the choice of `process_backlog_entry`. -/
theorem assigned_of_find (users : List User) (userId : Int64) {email : Str} (hne : email ≠ []) :
    let found := ((users.find? fun user => user.email = email && user.id > 0).map User.id).getD 0
    Assigned users userId email (if found > 0 then found else userId) := by
  intro found
  cases hfind : users.find? fun user => user.email = email && user.id > 0 with
  | none =>
    have hfound : found = 0 := by simp only [found, hfind, Option.map_none, Option.getD_none]
    rw [hfound, if_neg (by decide)]
    refine .currentUser (Or.inr fun user hmem hemail hid => ?_)
    have hnone := List.find?_eq_none.1 hfind user hmem
    simp [hemail, hid] at hnone
  | some user =>
    have hfound : found = user.id := by simp only [found, hfind, Option.map_some, Option.getD_some]
    obtain ⟨hmatch, l, r, husers, hfirst⟩ := List.find?_eq_some_iff_append.1 hfind
    simp only [Bool.and_eq_true, decide_eq_true_eq] at hmatch
    rw [hfound, if_pos hmatch.2]
    refine .named l user r hne husers hmatch.1 hmatch.2 fun other hother hemail hid => ?_
    have hnone := hfirst other hother
    simp [hemail, hid] at hnone

/-! ### What is posted -/

theorem member?_ite_set {c : Prop} [Decidable c] {j v : Json} {key i : Str} (h : i ≠ key) :
    (if c then j.set key v else j).member? i = j.member? i := by
  split_ifs
  · exact Json.member?_set_of_ne h
  · rfl

/-- The members of a payload that are always there. -/
def SimpleCard.fixedMembers (card : SimpleCard) : List (Str × Json) :=
  [(lit "title", .string card.title), (lit "board_id", .integer card.boardId.toInt),
    (lit "column_id", .integer card.columnId.toInt), (lit "lane_id", .integer card.laneId.toInt)]

theorem payload_fixed (card : SimpleCard) {p : Str × Json} (hp : p ∈ card.fixedMembers) :
    card.payload.member? p.1 = some p.2 := by
  have hkeys : [lit "title", lit "board_id", lit "column_id", lit "lane_id"].Nodup := by
    decide +kernel
  have hothers : ∀ key ∈ [lit "title", lit "board_id", lit "column_id", lit "lane_id"],
      key ≠ lit "properties" ∧ key ≠ lit "size_text" ∧ key ≠ lit "responsible_id" ∧
        key ≠ lit "type_id" := by decide +kernel
  obtain ⟨hproperties, hsize, hresponsible, htype⟩ :=
    hothers p.1 (List.mem_map_of_mem (f := Prod.fst) hp)
  unfold SimpleCard.payload
  dsimp only
  rw [member?_ite_set hproperties, member?_ite_set hsize, member?_ite_set hresponsible,
    member?_ite_set htype]
  exact Json.member?_ofPairs (l := card.fixedMembers) hkeys hp

/-- The person responsible is posted if there is one. -/
theorem payload_responsible (card : SimpleCard) : AssignedTo card.responsibleId card.payload := by
  have hproperties : lit "responsible_id" ≠ lit "properties" := by decide +kernel
  have hsize : lit "responsible_id" ≠ lit "size_text" := by decide +kernel
  have htype : lit "responsible_id" ≠ lit "type_id" := by decide +kernel
  have hkeys : lit "responsible_id" ∉ [lit "title", lit "board_id", lit "column_id",
      lit "lane_id"] := by decide +kernel
  unfold AssignedTo SimpleCard.payload
  dsimp only
  rw [member?_ite_set hproperties, member?_ite_set hsize]
  split_ifs with hid htypeId
  · rw [Json.ofPairs_eq]
    exact Json.member?_set_self _ _ _
  · rw [Json.ofPairs_eq]
    exact Json.member?_set_self _ _ _
  · rw [Json.member?_set_of_ne htype]
    exact Json.member?_ofPairs_of_not_mem hkeys
  · exact Json.member?_ofPairs_of_not_mem hkeys

/-! ### All users -/

section Runs

variable {σ Text : Type} {json : NlohmannText Text} {server : Server σ Text} {apiPath : Str}
  {users : List User}

/-- The server answers every request for users, whatever has happened, from the list `users`. -/
def HoldsUsers (json : NlohmannText Text) (server : Server σ Text) (users : List User) : Prop :=
  ∀ s q, q.filters = {} → decodeItems json.toNlohmann (fun j => some (User.fromJson j))
    ((server.users s).1 q) = some (q.slice users)

theorem getAllUsers_served (hserves : HoldsUsers json server users)
    (hfit : users.length < intMax) (w : World σ Text) :
    ∃ v, getAllUsers json server w = .ok (200, users) v := by
  have hserves' : Serves json.toNlohmann (fun j => some (User.fromJson j))
      (server.users w.server).1 {} users := fun q hq => Or.inr (hserves w.server q hq)
  have hok : ∀ q : Query UserFilterParams, q.filters = {} → ¬ Fails json.toNlohmann
      (fun j => some (User.fromJson j)) (server.users w.server).1 q := fun q hq hfails =>
    Option.some_ne_none _ ((hserves w.server q hq).symm.trans hfails)
  have hsize : (1 : ℤ) ≤ 100 := by decide
  obtain ⟨hreturned, -⟩ := (UserOperations.reads_getAllUsers intMax hsize rfl hserves').of_served
    (by decide) hfit fun k _ => hok _ rfl
  have hreach : users.length / pageLimit 100 * pageLimit 100 ≤ intMax :=
    (Nat.div_mul_le_self _ _).trans hfit.le
  unfold getAllUsers
  dsimp only
  rw [hreturned hreach]
  exact ⟨_, rfl⟩

/-- The first half of an entry finds the user it is assigned to. -/
theorem assigned_planEntry (hserves : HoldsUsers json server users)
    (hfit : users.length < intMax) {config : Config} {entry : Json} {userId : Int64}
    {w u : World σ Text} {plan : EntryPlan}
    (hplan : planEntry json server apiPath config entry userId w = .ok plan u) :
    ∃ fields, entryFields config entry = some fields ∧
      Assigned users userId fields.responsible plan.responsibleUserId := by
  obtain ⟨fields, _, _, found, w3, hfields, -, -, hfound, -, hresponsible⟩ := planEntry_eq_ok hplan
  refine ⟨fields, hfields, ?_⟩
  rw [hresponsible]
  unfold findResponsibleUserId at hfound
  by_cases hnil : fields.responsible = []
  · rw [if_pos hnil] at hfound
    cases hfound
    rw [if_neg (by decide)]
    exact .currentUser (Or.inl hnil)
  · rw [if_neg hnil] at hfound
    obtain ⟨answer, w5, hall, hreturn⟩ := Effects.bind_eq_ok.1 hfound
    obtain ⟨v, hv⟩ := getAllUsers_served hserves hfit w3
    rw [hv] at hall
    cases hall
    cases hreturn
    exact assigned_of_find users userId hnil

/-! ### The creations of an entry -/

/-- A card that is created for the entry: it has the title of one of its tasks, stands on the board
of the configuration, and is assigned to the user the entry is assigned to. -/
def CreatedFor (users : List User) (config : Config) (userId : Int64) (entry payload : Json) :
    Prop :=
  ∃ fields, entryFields config entry = some fields ∧
    (∃ id, Assigned users userId fields.responsible id ∧ AssignedTo id payload) ∧
    (∃ task ∈ (tasksOf entry).getD [], ∃ title,
      task.value Json.getString (lit "title") [] = some title ∧
      payload.member? (lit "title") = some (.string title)) ∧
    payload.member? (lit "board_id") = some (.integer config.boardId.toInt) ∧
    payload.member? (lit "column_id") = some (.integer config.columnId.toInt) ∧
    payload.member? (lit "lane_id") = some (.integer config.laneId.toInt)

/-- The place of a card. -/
def SimpleCard.place (card : SimpleCard) : Int64 × Int64 × Int64 :=
  (card.boardId, card.columnId, card.laneId)

/-- The base card of an entry stands where the configuration says, and is nobody's. -/
theorem entryBase_place (config : Config) (sprintNumber role : Str) (entry : Json) :
    (entryBase config sprintNumber role entry).place =
        (config.boardId, config.columnId, config.laneId) ∧
      (entryBase config sprintNumber role entry).responsibleId = 0 := by
  have hconfig : (({} : SimpleCard).assignConfig config).place =
        (config.boardId, config.columnId, config.laneId) ∧
      (({} : SimpleCard).assignConfig config).responsibleId = 0 := by
    unfold SimpleCard.assignConfig
    dsimp only
    split_ifs <;> exact ⟨rfl, rfl⟩
  have hbase : (createBaseCardFromConfig config sprintNumber role).place =
        (({} : SimpleCard).assignConfig config).place ∧
      (createBaseCardFromConfig config sprintNumber role).responsibleId =
        (({} : SimpleCard).assignConfig config).responsibleId := by
    unfold createBaseCardFromConfig
    dsimp only
    split_ifs <;> exact ⟨rfl, rfl⟩
  have hentry : (entryBase config sprintNumber role entry).place =
        (createBaseCardFromConfig config sprintNumber role).place ∧
      (entryBase config sprintNumber role entry).responsibleId =
        (createBaseCardFromConfig config sprintNumber role).responsibleId := by
    unfold entryBase
    dsimp only
    split <;> exact ⟨rfl, rfl⟩
  exact ⟨hentry.1.trans (hbase.1.trans hconfig.1), hentry.2.trans (hbase.2.trans hconfig.2)⟩

/-- The card of a task stands where the base card does; it is assigned to the user, if there is
one. -/
theorem parseTask_place {base card : SimpleCard} {task : Json} {userId : Int64}
    (h : parseTaskCardFromBacklog base task userId = some card) : card.place = base.place ∧
      card.responsibleId = if userId > 0 then userId else base.responsibleId := by
  simp only [parseTaskCardFromBacklog, Option.bind_eq_bind, Option.bind_eq_some_iff] at h
  obtain ⟨title, -, size, -, h⟩ := h
  have hcontent : (base.setContent title size).place = base.place ∧
      (base.setContent title size).responsibleId = base.responsibleId := by
    unfold SimpleCard.setContent
    dsimp only
    split_ifs <;> exact ⟨rfl, rfl⟩
  split at h
  · rw [← Option.some.inj h]
    dsimp only
    split_ifs
    · exact ⟨hcontent.1, rfl⟩
    · exact hcontent
  · rw [← Option.some.inj h]
    split_ifs
    · exact ⟨hcontent.1, rfl⟩
    · exact hcontent

/-- The card of a task of the entry is created for it. -/
theorem createdFor_parseTask {config : Config} {entry task : Json} {fields : EntryFields}
    {sprintNumber role : Str} {userId id : Int64} {card : SimpleCard}
    (hfields : entryFields config entry = some fields)
    (hassigned : Assigned users userId fields.responsible id)
    (htask : task ∈ (tasksOf entry).getD [])
    (h : parseTaskCardFromBacklog (entryBase config sprintNumber role entry) task id = some card) :
    CreatedFor users config userId entry card.payload := by
  obtain ⟨hplace, hresponsible⟩ := parseTask_place h
  obtain ⟨hbase, hnobody⟩ := entryBase_place config sprintNumber role entry
  rw [hbase] at hplace
  obtain ⟨hboard, hcolumn, hlane⟩ : card.boardId = config.boardId ∧
      card.columnId = config.columnId ∧ card.laneId = config.laneId := by
    simpa [SimpleCard.place] using hplace
  have hfixed : ∀ p ∈ card.fixedMembers, card.payload.member? p.1 = some p.2 := fun p hp =>
    payload_fixed card hp
  simp only [SimpleCard.fixedMembers, List.forall_mem_cons, hboard, hcolumn, hlane] at hfixed
  obtain ⟨htitle, hboardId, hcolumnId, hlaneId, -⟩ := hfixed
  refine ⟨fields, hfields, ⟨id, hassigned, ?_⟩,
    ⟨task, htask, card.title, (parseTask_fields h).1, htitle⟩, hboardId, hcolumnId, hlaneId⟩
  have hposted := payload_responsible card
  unfold AssignedTo at hposted ⊢
  rw [hposted, hresponsible, hnobody]
  by_cases hid : id > 0
  · rw [if_pos hid, if_pos hid]
  · rw [if_neg hid, if_neg hid, if_neg (by decide)]

/-! ### The creations of a run -/

/-- All that is created by the loop over the tasks are the cards of these tasks. -/
theorem emits_submitTasks_of_mem {plan : EntryPlan} {P : Json → Prop} {tasks : List Json}
    (h : ∀ task ∈ tasks, ∀ card,
      parseTaskCardFromBacklog plan.base task plan.responsibleUserId = some card →
      P card.payload) :
    Effects.Emits World.log (Exchange.CreatesOnly json apiPath P)
      (submitTasks json server apiPath plan tasks) := by
  induction tasks with
  | nil => exact .pure _
  | cons task tasks ih =>
    rw [List.forall_mem_cons] at h
    refine (emits_orThrow _).bind fun _ card _ hcard => ?_
    refine Effects.Emits.bind ?_ fun _ created _ _ => (ih h.2).bind fun _ counts _ _ => ?_
    · exact emits_createCardWithPostprocessing (h.1 card (orThrow_eq_ok hcard).1) _ _ _ _
    · dsimp only
      split_ifs
      · exact .pure _
      · exact .pure _

variable (hserves : HoldsUsers json server users) (hfit : users.length < intMax)
  {config : Config} {userId : Int64}

include hserves hfit

/-- What is created for one entry. -/
theorem emits_processBacklogEntry (entry : Json) (w : World σ Text) :
    Effects.EmitsAt World.log
      (Exchange.CreatesOnly json apiPath (CreatedFor users config userId entry))
      (processBacklogEntry json server apiPath config entry userId) w := by
  refine Effects.EmitsAt.bind (emits_planEntry config entry userId w) fun plan t hplan => ?_
  obtain ⟨fields, hfields, hassigned⟩ := assigned_planEntry hserves hfit hplan
  obtain ⟨_, _, _, _, _, -, -, -, -, hbase, -⟩ := planEntry_eq_ok hplan
  split
  · rename_i tasks htasks
    have htasksOf : tasksOf entry = some tasks := tasksOf_eq_some_iff.2 htasks
    refine emits_submitTasks_of_mem (fun task htask card hcard => ?_) t
    rw [hbase] at hcard
    exact createdFor_parseTask hfields hassigned (by rw [htasksOf]; exact htask) hcard
  · exact Effects.Emits.pure _ t

/-- What is created for the entries, one after the other. -/
theorem emitsEach_processEntries (entries : List Json) (w : World σ Text) :
    Effects.EmitsEach World.log
      (fun entry => Exchange.CreatesOnly json apiPath (CreatedFor users config userId entry))
      entries (processEntries json server apiPath config userId entries) w := by
  induction entries generalizing w with
  | nil => exact .nil _
  | cons entry entries ih =>
    exact .cons (emits_processBacklogEntry hserves hfit entry w) fun counts t _ =>
      (ih t).bind_pure _

/-- **The cards of a backlog and whom they are assigned to.**  The log of a run of `handle_backlog`
consists of a piece for each entry it comes to, in their order, and of all when it comes to its end.
Every card created in a piece has the title of a task of its entry, stands on the board of the
configuration, and is assigned to the first user with the address of the entry, or else to the
current user. -/
theorem backlog_assigned {file : Option Text} {entries : List Json}
    (hentries : backlogEntries json file = some entries) {w u : World σ Text}
    (huser : currentUserId json server apiPath w = .ok userId u) :
    ∃ pieces, (Effects.state (handleBacklog json server apiPath config file w)).log =
        u.log ++ pieces.flatten ∧ pieces.length ≤ entries.length ∧
      List.Forall₂ (fun entry es => ∀ e ∈ es, ∀ payload, e.creation json apiPath = some payload →
        CreatedFor users config userId entry payload) (entries.take pieces.length) pieces ∧
      ((∃ code v, handleBacklog json server apiPath config file w = .ok code v) →
        pieces.length = entries.length) := by
  have hrun : handleBacklog json server apiPath config file w = (do
      let counts ← processEntries json server apiPath config userId entries
      return (if counts.2 > 0 then 1 else 0) : Run σ Text ℤ) u := by
    unfold backlogEntries at hentries
    unfold handleBacklog
    rw [hentries]
    exact Effects.bind_ok huser
  rw [hrun]
  exact (emitsEach_processEntries hserves hfit entries u).bind_pure _

end Runs

/-! ### An entry for somebody -/

/-- A user as JSON. -/
def userJson (user : User) : Json :=
  .object [(lit "email", .string user.email), (lit "id", .integer user.id.toInt)]

/-- Two users with the same address. -/
def staff : List User := [{ id := 7, email := lit "a@b" }, { id := 8, email := lit "a@b" }]

theorem userJson_staff {user : User} (h : user ∈ staff) :
    (userJson user).validUtf8 = true ∧ User.fromJson (userJson user) = user := by
  rcases List.mem_cons.1 h with rfl | h
  · exact ⟨by decide +kernel, rfl⟩
  · obtain rfl := List.mem_singleton.1 h
    exact ⟨by decide +kernel, rfl⟩

/-- A server that accepts everything and has these users. -/
def staffedServer : Server Unit (Option { j : Json // j.validUtf8 = true }) where
  answer _ _ := ((200, none), ())
  users _ := (fun q => (200, some ⟨.array ((q.slice staff).map userJson),
    Json.validUtf8_array_iff.2 fun j hj => by
      obtain ⟨user, huser, rfl⟩ := List.mem_map.1 hj
      exact (userJson_staff (mem_of_mem_slice huser)).1⟩), ())

theorem holdsUsers_staffedServer : HoldsUsers .symbolic staffedServer staff := by
  intro _ q _
  exact decodeItems_written fun user huser =>
    congrArg some (userJson_staff (mem_of_mem_slice huser)).2

/-- An entry with two tasks and an address. -/
def entryForSomebody (email : Str) : Json :=
  .object [(lit "responsible", .string email),
    (lit "tasks", .array [.object [(lit "title", .string (lit "task"))],
      .object [(lit "size", .integer 2), (lit "title", .string (lit "other"))]])]

/-- An entry for somebody on the list, and one for somebody who is not. -/
def staffEntries : List Json := [entryForSomebody (lit "a@b"), entryForSomebody (lit "c@d")]

theorem backlogOf_staffEntries_valid : (backlogOf staffEntries).validUtf8 = true := by
  decide +kernel

theorem backlog_assigned_two : ∃ pieces,
    (Effects.state (handleBacklog .symbolic staffedServer [] emptyConfig
      (some (some ⟨_, backlogOf_staffEntries_valid⟩)) quietWorld)).log =
        (Effects.state (currentUserId .symbolic staffedServer [] quietWorld)).log ++
          pieces.flatten ∧ pieces.length ≤ 2 ∧
    List.Forall₂ (fun entry es => ∀ e ∈ es, ∀ payload, e.creation .symbolic [] = some payload →
      CreatedFor staff emptyConfig 0 entry payload) (staffEntries.take pieces.length) pieces ∧
    ((∃ code v, handleBacklog .symbolic staffedServer [] emptyConfig
      (some (some ⟨_, backlogOf_staffEntries_valid⟩)) quietWorld = .ok code v) →
        pieces.length = 2) := by
  have huser : currentUserId .symbolic staffedServer [] quietWorld =
    .ok 0 (Effects.state (currentUserId .symbolic staffedServer [] quietWorld)) := rfl
  have hentries : backlogEntries .symbolic (some (some ⟨_, backlogOf_staffEntries_valid⟩)) =
    some staffEntries := rfl
  exact backlog_assigned holdsUsers_staffedServer (by decide) hentries huser

end Kaiten
