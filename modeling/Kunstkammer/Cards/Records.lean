import Kunstkammer.Date
import Kunstkammer.Doubles
import Kunstkammer.Json

/-!
# The records of the API

The structures of `card.hpp` that are read from responses, and their `from_json`.

* `getOptional`, `getInt64Optional`, `getIntOptional`, `getDoubleOptional`: the readers that never
  throw;
* `Json.present?`: a member that is there and not null;
* `User`, `Board`, `Column`, `Lane`, `CardType`, `Tag`, `CardPermissions`, `ParentCard`, `Card`;
* `Card.fromJson`: `none` where the source throws.

The fields that are never set are left out.
-/

namespace Kaiten

/-- A member that is there and not null. -/
def Json.present? (j : Json) (key : Str) : Option Json :=
  match j.member? key with
  | some .null => none
  | member => member

/-- `get_optional<T>`: the default unless there is a member and `get<T>` succeeds on it. -/
def getOptional {T : Type*} (get : Json → Option T) (j : Json) (key : Str) (default : T) : T :=
  match j.present? key with
  | some v => (get v).getD default
  | none => default

/-- `get_int64_optional`: a number, or a string that begins with one. -/
def getInt64Optional (j : Json) (key : Str) (default : Int64) : Int64 :=
  match j.present? key with
  | some (.string s) => (stoll s).getD default
  | some v => v.getInt64.getD default
  | none => default

/-- `get_int_optional`. -/
def getIntOptional (j : Json) (key : Str) (default : Int32) : Int32 :=
  match j.present? key with
  | some (.string s) => (stoi s).getD default
  | some (.boolean _) => default
  | some v => v.getInt.getD default
  | none => default

/-- `get<double>()`: any number. -/
def Json.getDouble : Json → Option Double
  | .integer n => some (.nearest n)
  | .float x => some (.finite x)
  | _ => none

/-- `get_double_optional`. -/
def getDoubleOptional (j : Json) (key : Str) (default : Double) : Double :=
  match j.present? key with
  | some (.string s) => (stod s).getD default
  | some v => v.getDouble.getD default
  | none => default

/-- A member read by `read` if it is there and not null; `none` when `read` throws. -/
def nested {T : Type*} (read : Json → Option T) (j : Json) (key : Str) (default : T) : Option T :=
  match j.present? key with
  | some v => read v
  | none => some default

/-- A member that is an array, element by element; any other is skipped. -/
def nestedArray {T : Type*} (read : Json → Option T) (j : Json) (key : Str) : Option (List T) :=
  match j.member? key with
  | some (.array l) => l.mapM read
  | _ => some []

/-- `from_json` of `Card_date`. -/
def CardDate.fromJson : Json → Option CardDate
  | .null => some ⟨0⟩
  | .string s => CardDate.parse s
  | _ => none

/-- `User`. -/
structure User where
  id : Int64 := 0
  uid : Str := []
  fullName : Str := []
  email : Str := []
  username : Str := []
  avatarType : Str := []
  avatarUploadedUrl : Str := []
  avatarInitialsUrl : Str := []
  theme : Str := []
  lng : Str := []
  timezone : Str := []
  uiVersion : Int32 := 0
  activated : Bool := false
  virtualUser : Bool := false
  cardId : Option Int64 := none
  type : Option Int32 := none

def User.fromJson (j : Json) : User where
  id := getInt64Optional j (lit "id") 0
  uid := getOptional Json.getString j (lit "uid") []
  fullName := getOptional Json.getString j (lit "full_name") []
  email := getOptional Json.getString j (lit "email") []
  username := getOptional Json.getString j (lit "username") []
  avatarType := getOptional Json.getString j (lit "avatar_type") []
  avatarUploadedUrl := getOptional Json.getString j (lit "avatar_uploaded_url") []
  avatarInitialsUrl := getOptional Json.getString j (lit "avatar_initials_url") []
  theme := getOptional Json.getString j (lit "theme") []
  lng := getOptional Json.getString j (lit "lng") []
  timezone := getOptional Json.getString j (lit "timezone") []
  uiVersion := getIntOptional j (lit "ui_version") 0
  activated := getOptional Json.getBool j (lit "activated") false
  virtualUser := getOptional Json.getBool j (lit "virtual") false
  cardId := (j.present? (lit "card_id")).map fun _ => getInt64Optional j (lit "card_id") 0
  type := (j.present? (lit "type")).map fun _ => getIntOptional j (lit "type") 0

/-- `Board`. -/
structure Board where
  id : Int64 := 0
  title : Str := []
  externalId : Option Str := none

def Board.fromJson (j : Json) : Option Board := do
  let externalId ← nested (fun v => v.getString.map some) j (lit "external_id") none
  some
    { id := getInt64Optional j (lit "id") 0
      title := getOptional Json.getString j (lit "title") []
      externalId := externalId }

/-- `Column`. -/
structure Column where
  id : Int64 := 0
  title : Str := []
  uid : Str := []
  boardId : Int64 := 0
  type : Str := []
  sortOrder : Int32 := 0
  colCount : Int32 := 0
  rules : Int32 := 0
  pauseSla : Bool := false
  columnId : Option Int64 := none

def Column.fromJson (j : Json) : Column where
  id := getInt64Optional j (lit "id") 0
  title := getOptional Json.getString j (lit "title") []
  uid := getOptional Json.getString j (lit "uid") []
  boardId := getInt64Optional j (lit "board_id") 0
  type := getOptional Json.getString j (lit "type") []
  sortOrder := getIntOptional j (lit "sort_order") 0
  colCount := getIntOptional j (lit "col_count") 0
  rules := getIntOptional j (lit "rules") 0
  pauseSla := getOptional Json.getBool j (lit "pause_sla") false
  columnId := (j.present? (lit "column_id")).map fun _ => getInt64Optional j (lit "column_id") 0

/-- `Lane`. -/
structure Lane where
  id : Int64 := 0
  title : Str := []
  boardId : Int64 := 0
  condition : Int32 := 0
  sortOrder : Int32 := 0
  defaultCardTypeId : Option Int64 := none
  externalId : Option Str := none

def Lane.fromJson (j : Json) : Option Lane := do
  let externalId ← nested (fun v => v.getString.map some) j (lit "external_id") none
  some
    { id := getInt64Optional j (lit "id") 0
      title := getOptional Json.getString j (lit "title") []
      boardId := getInt64Optional j (lit "board_id") 0
      condition := getIntOptional j (lit "condition") 0
      sortOrder := getIntOptional j (lit "sort_order") 0
      defaultCardTypeId := (j.present? (lit "default_card_type_id")).map fun _ =>
        getInt64Optional j (lit "default_card_type_id") 0
      externalId := externalId }

/-- `Card_type`. -/
structure CardType where
  id : Int64 := 0
  name : Str := []
  letter : Str := []
  color : Int32 := 0
  archived : Bool := false
  companyId : Int64 := 0
  properties : Json := .null

def CardType.fromJson (j : Json) : CardType where
  id := getInt64Optional j (lit "id") 0
  name := getOptional Json.getString j (lit "name") []
  letter := getOptional Json.getString j (lit "letter") []
  color := getIntOptional j (lit "color") 0
  archived := getOptional Json.getBool j (lit "archived") false
  companyId := getInt64Optional j (lit "company_id") 0
  properties := (j.present? (lit "properties")).getD .null

/-- `Tag`. -/
structure Tag where
  id : Int64 := 0
  tagId : Int64 := 0
  cardId : Option Int64 := none
  name : Str := []
  color : Int32 := 0

def Tag.fromJson (j : Json) : Tag where
  id := getInt64Optional j (lit "id") 0
  tagId := getInt64Optional j (lit "tag_id") 0
  cardId := (j.present? (lit "card_id")).map fun _ => getInt64Optional j (lit "card_id") 0
  name := getOptional Json.getString j (lit "name") []
  color := getIntOptional j (lit "color") 0

/-- `Card_permissions`. -/
structure CardPermissions where
  comment : Bool := false
  create : Bool := false
  deletePerm : Bool := false
  move : Bool := false
  properties : Bool := false
  read : Bool := false
  readOwn : Bool := false
  update : Bool := false

def CardPermissions.fromJson (j : Json) : CardPermissions where
  comment := getOptional Json.getBool j (lit "comment") false
  create := getOptional Json.getBool j (lit "create") false
  deletePerm := getOptional Json.getBool j (lit "delete") false
  move := getOptional Json.getBool j (lit "move") false
  properties := getOptional Json.getBool j (lit "properties") false
  read := getOptional Json.getBool j (lit "read") false
  readOwn := getOptional Json.getBool j (lit "read_own") false
  update := getOptional Json.getBool j (lit "update") false

/-- `Parent_card`. -/
structure ParentCard where
  id : Int64 := 0
  cardId : Int64 := 0
  title : Str := []
  number : Str := []
  archived : Bool := false
  asap : Bool := false
  blocked : Bool := false
  blockingCard : Bool := false
  boardId : Int64 := 0
  columnId : Int64 := 0
  laneId : Int64 := 0
  state : Int32 := 0
  size : Int32 := 0
  childrenCount : Int32 := 0
  childrenDone : Int32 := 0
  created : CardDate := ⟨0⟩
  updated : CardDate := ⟨0⟩
  columnChangedAt : CardDate := ⟨0⟩
  laneChangedAt : CardDate := ⟨0⟩
  lastMovedAt : CardDate := ⟨0⟩
  lastMovedToDoneAt : CardDate := ⟨0⟩
  ownerId : Option Int64 := none
  childrenIds : Option Json := none
  childrenNumberPropertiesSum : Option Json := none

def ParentCard.fromJson (j : Json) : Option ParentCard := do
  let created ← nested CardDate.fromJson j (lit "created") ⟨0⟩
  let updated ← nested CardDate.fromJson j (lit "updated") ⟨0⟩
  let columnChangedAt ← nested CardDate.fromJson j (lit "column_changed_at") ⟨0⟩
  let laneChangedAt ← nested CardDate.fromJson j (lit "lane_changed_at") ⟨0⟩
  let lastMovedAt ← nested CardDate.fromJson j (lit "last_moved_at") ⟨0⟩
  let lastMovedToDoneAt ← nested CardDate.fromJson j (lit "last_moved_to_done_at") ⟨0⟩
  some
    { id := getInt64Optional j (lit "id") 0
      cardId := getInt64Optional j (lit "card_id") 0
      title := getOptional Json.getString j (lit "title") []
      number := getOptional Json.getString j (lit "number") []
      archived := getOptional Json.getBool j (lit "archived") false
      asap := getOptional Json.getBool j (lit "asap") false
      blocked := getOptional Json.getBool j (lit "blocked") false
      blockingCard := getOptional Json.getBool j (lit "blocking_card") false
      boardId := getInt64Optional j (lit "board_id") 0
      columnId := getInt64Optional j (lit "column_id") 0
      laneId := getInt64Optional j (lit "lane_id") 0
      state := getIntOptional j (lit "state") 0
      size := getIntOptional j (lit "size") 0
      childrenCount := getIntOptional j (lit "children_count") 0
      childrenDone := getIntOptional j (lit "children_done") 0
      created, updated, columnChangedAt, laneChangedAt, lastMovedAt, lastMovedToDoneAt
      ownerId := (j.present? (lit "owner_id")).map fun _ => getInt64Optional j (lit "owner_id") 0
      childrenIds := j.present? (lit "children_ids")
      childrenNumberPropertiesSum := j.present? (lit "children_number_properties_sum") }

/-! ### Cards -/

/-- `Card`. -/
structure Card where
  id : Int64 := 0
  number : Str := []
  title : Str := []
  uid : Str := []
  version : Int32 := 0
  archived : Bool := false
  asap : Bool := false
  blocked : Bool := false
  blockingCard : Bool := false
  descriptionFilled : Bool := false
  dueDateTimePresent : Bool := false
  expiresLater : Bool := false
  hasAccessToSpace : Bool := false
  hasBlockedChildren : Bool := false
  locked : Bool := false
  publicCard : Bool := false
  sdNewComment : Bool := false
  boardId : Int64 := 0
  columnId : Int64 := 0
  laneId : Int64 := 0
  ownerId : Int64 := 0
  typeId : Int64 := 0
  spaceId : Int64 := 0
  sprintId : Option Int64 := none
  serviceId : Option Int64 := none
  dependsOnCardId : Option Int64 := none
  importId : Option Int64 := none
  board : Board := {}
  column : Column := {}
  lane : Lane := {}
  owner : User := {}
  cardType : CardType := {}
  permissions : CardPermissions := {}
  created : CardDate := ⟨0⟩
  updated : CardDate := ⟨0⟩
  columnChangedAt : CardDate := ⟨0⟩
  laneChangedAt : CardDate := ⟨0⟩
  lastMovedAt : CardDate := ⟨0⟩
  lastMovedToDoneAt : CardDate := ⟨0⟩
  firstMovedToInProgressAt : CardDate := ⟨0⟩
  completedAt : CardDate := ⟨0⟩
  countersRecalculatedAt : CardDate := ⟨0⟩
  commentLastAddedAt : CardDate := ⟨0⟩
  members : List User := []
  parents : List ParentCard := []
  tags : List Tag := []
  parentIds : List Int64 := []
  childrenIds : List Int64 := []
  externalLinks : List Json := []
  files : List Json := []
  children : List Json := []
  type : Str := []
  description : Str := []
  state : Str := []
  source : Str := []
  email : Str := []
  sizeText : Str := []
  sizeUnit : Str := []
  shareId : Str := []
  ftsVersion : Str := []
  size : Int32 := 0
  condition : Int32 := 0
  cardRole : Int32 := 0
  commentsTotal : Int32 := 0
  childrenCount : Int32 := 0
  childrenDone : Int32 := 0
  goalsDone : Int32 := 0
  goalsTotal : Int32 := 0
  estimateWorkload : Int32 := 0
  timeSpentSum : Int32 := 0
  timeBlockedSum : Int32 := 0
  sortOrder : Double := .finite 0
  fifoOrder : Option Double := none
  properties : Json := .null
  shareSettings : Json := .null
  childrenNumberPropertiesSum : Json := .null
  parentChecklistIds : Json := .null
  externalId : Option Json := none
  externalUserEmails : Option Json := none
  calculatedPlannedEnd : Option Json := none
  calculatedPlannedStart : Option Json := none
  plannedEnd : Option Json := none
  plannedStart : Option Json := none
  completedOnTime : Option Json := none

/-- The type of a card, when it is an object. -/
def cardTypeMember (j : Json) : CardType :=
  match j.member? (lit "type") with
  | some (.object l) => CardType.fromJson (.object l)
  | _ => {}

/-- `from_json` of `Card`.  The name of the type is overwritten by the string that is read last. -/
def Card.fromJson (j : Json) : Option Card := do
  let board ← nested Board.fromJson j (lit "board") {}
  let lane ← nested Lane.fromJson j (lit "lane") {}
  let created ← nested CardDate.fromJson j (lit "created") ⟨0⟩
  let updated ← nested CardDate.fromJson j (lit "updated") ⟨0⟩
  let columnChangedAt ← nested CardDate.fromJson j (lit "column_changed_at") ⟨0⟩
  let laneChangedAt ← nested CardDate.fromJson j (lit "lane_changed_at") ⟨0⟩
  let lastMovedAt ← nested CardDate.fromJson j (lit "last_moved_at") ⟨0⟩
  let lastMovedToDoneAt ← nested CardDate.fromJson j (lit "last_moved_to_done_at") ⟨0⟩
  let firstMovedToInProgressAt ←
    nested CardDate.fromJson j (lit "first_moved_to_in_progress_at") ⟨0⟩
  let completedAt ← nested CardDate.fromJson j (lit "completed_at") ⟨0⟩
  let countersRecalculatedAt ← nested CardDate.fromJson j (lit "counters_recalculated_at") ⟨0⟩
  let commentLastAddedAt ← nested CardDate.fromJson j (lit "comment_last_added_at") ⟨0⟩
  let members ← nestedArray (fun v => some (User.fromJson v)) j (lit "members")
  let parents ← nestedArray ParentCard.fromJson j (lit "parents")
  let tags ← nestedArray (fun v => some (Tag.fromJson v)) j (lit "tags")
  let parentIds ← nestedArray Json.getInt64 j (lit "parents_ids")
  let childrenIds ← nestedArray Json.getInt64 j (lit "children_ids")
  let externalLinks ← nestedArray some j (lit "external_links")
  let files ← nestedArray some j (lit "files")
  let children ← nestedArray some j (lit "children")
  some
    { id := getInt64Optional j (lit "id") 0
      number := getOptional Json.getString j (lit "number") []
      title := getOptional Json.getString j (lit "title") []
      uid := getOptional Json.getString j (lit "uid") []
      version := getIntOptional j (lit "version") 0
      archived := getOptional Json.getBool j (lit "archived") false
      asap := getOptional Json.getBool j (lit "asap") false
      blocked := getOptional Json.getBool j (lit "blocked") false
      blockingCard := getOptional Json.getBool j (lit "blocking_card") false
      descriptionFilled := getOptional Json.getBool j (lit "description_filled") false
      dueDateTimePresent := getOptional Json.getBool j (lit "due_date_time_present") false
      expiresLater := getOptional Json.getBool j (lit "expires_later") false
      hasAccessToSpace := getOptional Json.getBool j (lit "has_access_to_space") false
      hasBlockedChildren := getOptional Json.getBool j (lit "has_blocked_children") false
      locked := getOptional Json.getBool j (lit "locked") false
      publicCard := getOptional Json.getBool j (lit "public") false
      sdNewComment := getOptional Json.getBool j (lit "sd_new_comment") false
      boardId := getInt64Optional j (lit "board_id") 0
      columnId := getInt64Optional j (lit "column_id") 0
      laneId := getInt64Optional j (lit "lane_id") 0
      ownerId := getInt64Optional j (lit "owner_id") 0
      typeId := getInt64Optional j (lit "type_id") 0
      spaceId := getInt64Optional j (lit "space_id") 0
      sprintId := (j.present? (lit "sprint_id")).map fun _ => getInt64Optional j (lit "sprint_id") 0
      serviceId :=
        (j.present? (lit "service_id")).map fun _ => getInt64Optional j (lit "service_id") 0
      dependsOnCardId := (j.present? (lit "depends_on_card_id")).map fun _ =>
        getInt64Optional j (lit "depends_on_card_id") 0
      importId := (j.present? (lit "import_id")).map fun _ => getInt64Optional j (lit "import_id") 0
      board, lane
      column := ((j.present? (lit "column")).map Column.fromJson).getD {}
      owner := ((j.present? (lit "owner")).map User.fromJson).getD {}
      cardType := cardTypeMember j
      permissions := ((j.present? (lit "card_permissions")).map CardPermissions.fromJson).getD {}
      created, updated, columnChangedAt, laneChangedAt, lastMovedAt, lastMovedToDoneAt
      firstMovedToInProgressAt, completedAt, countersRecalculatedAt, commentLastAddedAt
      members, parents, tags, parentIds, childrenIds, externalLinks, files, children
      type := getOptional Json.getString j (lit "type") []
      description := getOptional Json.getString j (lit "description") []
      state := getOptional Json.getString j (lit "state") []
      source := getOptional Json.getString j (lit "source") []
      email := getOptional Json.getString j (lit "email") []
      sizeText := getOptional Json.getString j (lit "size_text") []
      sizeUnit := getOptional Json.getString j (lit "size_unit") []
      shareId := getOptional Json.getString j (lit "share_id") []
      ftsVersion := getOptional Json.getString j (lit "fts_version") []
      size := getIntOptional j (lit "size") 0
      condition := getIntOptional j (lit "condition") 0
      cardRole := getIntOptional j (lit "cardRole") 0
      commentsTotal := getIntOptional j (lit "comments_total") 0
      childrenCount := getIntOptional j (lit "children_count") 0
      childrenDone := getIntOptional j (lit "children_done") 0
      goalsDone := getIntOptional j (lit "goals_done") 0
      goalsTotal := getIntOptional j (lit "goals_total") 0
      estimateWorkload := getIntOptional j (lit "estimate_workload") 0
      timeSpentSum := getIntOptional j (lit "time_spent_sum") 0
      timeBlockedSum := getIntOptional j (lit "time_blocked_sum") 0
      sortOrder := getDoubleOptional j (lit "sort_order") (.finite 0)
      fifoOrder := (j.present? (lit "fifo_order")).map fun _ =>
        getDoubleOptional j (lit "fifo_order") (.finite 0)
      properties := (j.present? (lit "properties")).getD .null
      shareSettings := (j.present? (lit "share_settings")).getD .null
      childrenNumberPropertiesSum :=
        (j.present? (lit "children_number_properties_sum")).getD .null
      parentChecklistIds := (j.present? (lit "parent_checklist_ids")).getD .null
      externalId := j.present? (lit "external_id")
      externalUserEmails := j.present? (lit "external_user_emails")
      calculatedPlannedEnd := j.present? (lit "calculated_planned_end")
      calculatedPlannedStart := j.present? (lit "calculated_planned_start")
      plannedEnd := j.present? (lit "planned_end")
      plannedStart := j.present? (lit "planned_start")
      completedOnTime := j.present? (lit "completed_on_time") }

/-- The fields of a card the program goes on with. -/
theorem Card.fromJson_fields {j : Json} {card : Card} (h : Card.fromJson j = some card) :
    card.id = getInt64Optional j (lit "id") 0 ∧
      card.number = getOptional Json.getString j (lit "number") [] ∧
      card.title = getOptional Json.getString j (lit "title") [] ∧
      card.properties = (j.present? (lit "properties")).getD .null := by
  unfold Card.fromJson at h
  iterate 20 obtain ⟨_, -, h⟩ := Option.bind_eq_some_iff.1 h
  obtain rfl := Option.some.inj h
  exact ⟨rfl, rfl, rfl, rfl⟩

end Kaiten
