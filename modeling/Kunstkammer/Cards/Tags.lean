import Mathlib.Data.List.Destutter
import Kunstkammer.Cards.Isolation

/-!
# The tags of a backlog

Which tags are posted for the cards of an entry.

* `Exchange.postedTag`: the tag a request adds to a card;
* `showsAt_postprocess`: of the tags of a card, those before the first that is not UTF-8 are posted;
* `Submission`: a task of an entry whose card was created, and where the run stands then;
* `PostedOnce`: the tags of the configuration and of the entry are posted, each once;
* `tags_entryBase_of_array`, `tags_entryBase_of_not_array`: the tags are made unique only when those
  of an entry are added;
* `postedOnce_iff`: the tags are posted once exactly when there are such, or when the configuration
  repeats none.
-/

namespace Kaiten

/-! ### What the follow-up requests post -/

section Posting

variable {σ Text : Type} (json : NlohmannText Text) (server : Server σ Text) (apiPath : Str)

/-- The tag that is added to the card `id`, if the request adds one. -/
def Exchange.postedTag (id : Int64) : Exchange Text → Option Str
  | .request (.post target body) _ =>
      if target = cardTarget apiPath (intToString id.toInt) ++ lit "/tags" then do
        let j ← json.parse body
        let name ← j.member? (lit "name")
        name.getString
      else none
  | _ => none

variable {json server apiPath}

theorem postedTag_of_dump {id : Int64} {tag : Str} {body : Text}
    (h : json.dump (.ofPairs [(lit "name", .string tag)]) = some body) (response : ℤ × Text) :
    (Exchange.request (.post (cardTarget apiPath (intToString id.toInt) ++ lit "/tags") body)
      response).postedTag json apiPath id = some tag := by
  rw [Exchange.postedTag, if_pos rfl, json.parse_dump _ _ h]
  simp only [Json.ofPairs_sorted (List.pairwise_singleton _ _), Option.bind_eq_bind,
    Option.bind_some]
  rfl

/-- A link is posted to another path. -/
theorem children_ne_tags (parent id : Str) :
    cardTarget apiPath parent ++ lit "/children" ≠ cardTarget apiPath id ++ lit "/tags" := by
  intro h
  have hlast := congrArg List.getLast? h
  have hchildren : (lit "/children").getLast? = some 110 := by decide
  have htags : (lit "/tags").getLast? = some 115 := by decide
  rw [List.getLast?_append, List.getLast?_append, hchildren, htags, Option.some_or,
    Option.some_or] at hlast
  exact absurd hlast (by decide)

variable (json server apiPath) in
/-- The payload of a link can be printed. -/
theorem linkIfWanted_returns (parent id : Int64) (w : World σ Text) :
    ∃ linked t, linkIfWanted json server apiPath parent id w = .ok linked t := by
  unfold linkIfWanted linkCardToParent addChildCard
  split_ifs
  · exact ⟨_, _, rfl⟩
  · have hvalid : (Json.ofPairs [(lit "card_id", .integer id.toInt)]).validUtf8 = true := by
      rw [validUtf8_ofPairs_singleton]
      rfl
    obtain ⟨body, -, hdump⟩ : ∃ body, json.dump _ = some body ∧ dump json _ w = .ok body w :=
      dump_of_valid hvalid w
    exact ⟨_, _, Effects.bind_ok ((Effects.bind_ok hdump).trans rfl)⟩
  · exact ⟨_, _, rfl⟩

variable (json server apiPath) in
/-- A tag that is UTF-8 is posted, and the run goes on. -/
theorem addTagToCard_of_valid (id : Int64) {tag : Str} (h : tag.validUtf8 = true)
    (w : World σ Text) :
    (∃ answer t, addTagToCard json server apiPath id tag w = .ok answer t) ∧
      Effects.ShowsAt World.log (Exchange.postedTag json apiPath id) [tag]
        (addTagToCard json server apiPath id tag) w := by
  have hvalid : (Json.ofPairs [(lit "name", .string tag)]).validUtf8 = true := by
    rwa [validUtf8_ofPairs_singleton]
  obtain ⟨body, hbody, hdump⟩ : ∃ body, json.dump _ = some body ∧ dump json _ w = .ok body w :=
    dump_of_valid hvalid w
  have hrun : addTagToCard json server apiPath id tag w = .ok _ _ := Effects.bind_ok hdump
  refine ⟨⟨_, _, hrun⟩, [_], by rw [hrun]; rfl, ?_⟩
  rw [List.filterMap_cons_some (postedTag_of_dump hbody _), List.filterMap_nil]

theorem addTagToCard_of_invalid (id : Int64) {tag : Str} (h : ¬ tag.validUtf8 = true)
    (w : World σ Text) : addTagToCard json server apiPath id tag w = .error .exception w := by
  refine Effects.bind_error (dump_of_invalid ?_ w)
  rw [validUtf8_ofPairs_singleton, Json.validUtf8_string]
  exact Bool.not_eq_true _ ▸ h

/-- The tags are posted one after the other, up to the first that is not UTF-8. -/
theorem showsAt_addTags (id : Int64) (tags : List Str) (w : World σ Text) :
    Effects.ShowsAt World.log (Exchange.postedTag json apiPath id) (tags.takeWhile Str.validUtf8)
      (addTagsToCreatedCard json server apiPath id tags) w := by
  induction tags generalizing w with
  | nil => exact .of_emits (.pure _) w
  | cons tag tags ih =>
    rw [List.takeWhile_cons]
    split_ifs with hvalid
    · obtain ⟨⟨answer, t, hrun⟩, hshows⟩ := addTagToCard_of_valid json server apiPath id hvalid w
      exact hshows.bind hrun (ih t)
    · exact .of_error (Effects.bind_error (addTagToCard_of_invalid id hvalid w))

/-- Of all requests after the creation, these are the tags. -/
theorem showsAt_postprocess (card : SimpleCard) (parent : Int64) (product work : Str)
    (updateTitle : Bool) (id : Int64) (w : World σ Text) :
    Effects.ShowsAt World.log (Exchange.postedTag json apiPath id)
      (card.tags.takeWhile Str.validUtf8)
      (postprocess json server apiPath card parent product work updateTitle id) w := by
  obtain ⟨linked, t, hlink⟩ := linkIfWanted_returns json server apiPath parent id w
  have htags : Effects.ShowsAt World.log (Exchange.postedTag json apiPath id)
      (card.tags.takeWhile Str.validUtf8)
      (tagIfWanted json server apiPath card.tags id) t := by
    unfold tagIfWanted
    split_ifs with hnil
    · exact showsAt_addTags id card.tags t
    · rw [not_not.1 hnil]
      exact .of_emits (.pure _) t
  rw [← List.nil_append (card.tags.takeWhile _)]
  refine Effects.ShowsAt.bind hlink (.of_emits (emits_linkIfWanted fun _ _ _ => ?_) w) ?_
  · exact if_neg (children_ne_tags _ _)
  · refine htags.bind_nil fun _ u => .of_emits ?_ u
    exact emits_titleIfWanted (fun _ _ => rfl) product work card.title updateTitle

end Posting

/-! ### The tags of the base card -/

/-- The tags of an entry, as far as they are texts. -/
def entryTags (entry : Json) : List Str :=
  match entry.member? (lit "tags") with
  | some (.array tags) => tags.filterMap Json.getString
  | _ => []

/-- The entry has an array of tags. -/
def HasTagsArray (entry : Json) : Prop := ∃ tags, entry.member? (lit "tags") = some (.array tags)

/-- `add_tags` leaves every tag once. -/
theorem addTags_tags (card : SimpleCard) (tags : List Str) :
    (card.addTags tags).tags.Nodup ∧
      ∀ tag, tag ∈ (card.addTags tags).tags ↔ tag ∈ card.tags ∨ tag ∈ tags := by
  have hsorted : ((card.tags ++ tags).mergeSort (· ≤ ·)).Pairwise (· ≤ ·) :=
    List.pairwise_mergeSort' (· ≤ ·) _
  have hdedup : (card.addTags tags).tags = ((card.tags ++ tags).mergeSort (· ≤ ·)).dedup :=
    hsorted.destutter_eq_dedup
  rw [hdedup]
  refine ⟨List.nodup_dedup _, fun tag => ?_⟩
  rw [List.mem_dedup, List.mem_mergeSort, List.mem_append]

/-- The base card has the tags of the configuration, as they are. -/
theorem tags_createBaseCard (config : Config) (sprintNumber role : Str) :
    (createBaseCardFromConfig config sprintNumber role).tags = config.tags := by
  obtain ⟨card, -, htags, -, hcard⟩ := SimpleCard.assignConfig_eq config
  have hassigned : (({} : SimpleCard).assignConfig config).tags = config.tags := by
    rw [hcard]
    split_ifs
    · exact htags
    · exact htags
  unfold createBaseCardFromConfig
  dsimp only
  split_ifs
  · exact hassigned
  · exact hassigned

theorem tags_entryBase_of_array {entry : Json} (h : HasTagsArray entry) (config : Config)
    (sprintNumber role : Str) :
    (entryBase config sprintNumber role entry).tags.Nodup ∧
      ∀ tag, tag ∈ (entryBase config sprintNumber role entry).tags ↔
        tag ∈ config.tags ∨ tag ∈ entryTags entry := by
  obtain ⟨tags, htags⟩ := h
  have hbase : entryBase config sprintNumber role entry =
      (createBaseCardFromConfig config sprintNumber role).addTags
        (tags.filterMap Json.getString) := by
    unfold entryBase
    rw [htags]
    rfl
  have hentry : entryTags entry = tags.filterMap Json.getString := by
    unfold entryTags
    rw [htags]
  rw [hbase, hentry, ← tags_createBaseCard config sprintNumber role]
  exact addTags_tags _ _

theorem tags_entryBase_of_not_array {entry : Json} (h : ¬ HasTagsArray entry) (config : Config)
    (sprintNumber role : Str) :
    (entryBase config sprintNumber role entry).tags = config.tags ∧ entryTags entry = [] := by
  have hnone (tags : List Json) : entry.member? (lit "tags") ≠ some (.array tags) :=
    fun htags => h ⟨tags, htags⟩
  constructor
  · unfold entryBase
    split
    · exact absurd ‹_› (hnone _)
    · exact tags_createBaseCard config sprintNumber role
  · unfold entryTags
    split
    · exact absurd ‹_› (hnone _)
    · rfl

/-! ### The tasks of an entry -/

section Submissions

variable {σ Text : Type} (json : NlohmannText Text) (server : Server σ Text) (apiPath : Str)

/-- A task of an entry whose card was created.  `process_backlog_entry` starts in the world `w`,
comes to the tasks in the world `planned` and to this one in `start`; `finish` is the world after
the creation. -/
structure Submission (config : Config) (entry : Json) (userId : Int64) (w : World σ Text) where
  plan : EntryPlan
  planned : World σ Text
  before : List Json
  task : Json
  after : List Json
  counts : ℕ × ℕ
  start : World σ Text
  card : SimpleCard
  status : ℤ
  created : Card
  finish : World σ Text
  plan_eq : planEntry json server apiPath config entry userId w = .ok plan planned
  tasks_eq : entry.member? (lit "tasks") = some (.array (before ++ task :: after))
  before_eq : submitTasks json server apiPath plan before planned = .ok counts start
  card_eq : parseTaskCardFromBacklog plan.base task plan.responsibleUserId = some card
  created_eq : createCard json server apiPath card start = .ok (status, created) finish
  success : IsSuccess status

namespace Submission

variable {json server apiPath} {config : Config} {entry : Json} {userId : Int64} {w : World σ Text}
  (s : Submission json server apiPath config entry userId w)

/-- What the loop does for the task. -/
def submit : Run σ Text (Option Card) :=
  createCardWithPostprocessing json server apiPath s.card s.plan.parentCardId s.plan.productCode
    s.plan.workCode (s.plan.productCode ≠ [] ∧ s.plan.workCode ≠ [])

/-- The tags that are posted for the new card. -/
def posted : List Str :=
  ((Effects.state (s.submit s.start)).log.drop s.start.log.length).filterMap
    (Exchange.postedTag json apiPath s.created.id)

/-- The tags of the configuration and of the entry are posted, each once. -/
def PostedOnce : Prop :=
  s.posted.Nodup ∧ ∀ tag, tag ∈ s.posted ↔ tag ∈ config.tags ∨ tag ∈ entryTags entry

end Submission

/-! ### What is posted for a task -/

variable {json server apiPath} {config : Config} {entry : Json} {userId : Int64} {w : World σ Text}

/-- The base card of an entry that was planned. -/
theorem planEntry_base {plan : EntryPlan} {u : World σ Text}
    (h : planEntry json server apiPath config entry userId w = .ok plan u) :
    ∃ sprintNumber role, plan.base = entryBase config sprintNumber role entry := by
  obtain ⟨fields, _, -, h⟩ := Effects.bind_eq_ok.1 h
  obtain ⟨_, _, -, h⟩ := Effects.bind_eq_ok.1 h
  obtain ⟨⟨all, info⟩, _, -, h⟩ := Effects.bind_eq_ok.1 h
  obtain ⟨found, _, -, h⟩ := Effects.bind_eq_ok.1 h
  cases h
  exact ⟨info.sprintNumber, fields.role, rfl⟩

/-- The loop over two lists, one after the other. -/
theorem state_submitTasks_append {plan : EntryPlan} {l : List Json} {u v : World σ Text}
    {counts : ℕ × ℕ} (h : submitTasks json server apiPath plan l u = .ok counts v)
    (r : List Json) : Effects.state (submitTasks json server apiPath plan (l ++ r) u) =
      Effects.state (submitTasks json server apiPath plan r v) := by
  induction l generalizing u v counts with
  | nil =>
    cases h
    rfl
  | cons task l ih =>
    obtain ⟨card, u1, hcard, h⟩ := Effects.bind_eq_ok.1 h
    obtain ⟨created, u2, hcreated, h⟩ := Effects.bind_eq_ok.1 h
    obtain ⟨counts', u3, hrest, h⟩ := Effects.bind_eq_ok.1 h
    have hv : v = u3 := by
      dsimp only at h
      split_ifs at h
      · cases h
        rfl
      · cases h
        rfl
    rw [hv, ← ih hrest, List.cons_append, submitTasks, Effects.bind_ok hcard,
      Effects.bind_ok hcreated]
    cases created with
    | none => exact Effects.state_bind_pure _ (fun c : ℕ × ℕ => (c.1, c.2 + 1)) u2
    | some card => exact Effects.state_bind_pure _ (fun c : ℕ × ℕ => (c.1 + 1, c.2)) u2

namespace Submission

variable (s : Submission json server apiPath config entry userId w)

/-- What is posted for a task is part of what `process_backlog_entry` sends. -/
theorem log_prefix : (Effects.state (s.submit s.start)).log <+:
    (Effects.state (processBacklogEntry json server apiPath config entry userId w)).log := by
  have hrun : processBacklogEntry json server apiPath config entry userId w =
      submitTasks json server apiPath s.plan (s.before ++ s.task :: s.after) s.planned :=
    (processBacklogEntry_of_plan s.plan_eq).1 _ s.tasks_eq
  have hcard : orThrow (parseTaskCardFromBacklog s.plan.base s.task s.plan.responsibleUserId)
      s.start = .ok s.card s.start := by
    rw [s.card_eq]
    rfl
  rw [hrun, state_submitTasks_append s.before_eq, submitTasks, Effects.bind_ok hcard]
  refine Effects.Emits.prefix_bind (P := Exchange.CreatesOnly json apiPath fun _ => True) _
    (fun created => ?_) s.start
  refine (emits_submitTasks (fun _ _ _ => trivial) _).bind fun _ counts _ _ => ?_
  dsimp only
  split_ifs
  · exact .pure _
  · exact .pure _

/-- The tags of the card are posted, up to the first that is not UTF-8. -/
theorem posted_eq : s.posted = s.card.tags.takeWhile Str.validUtf8 := by
  have hshows : Effects.ShowsAt World.log (Exchange.postedTag json apiPath s.created.id)
      ([] ++ s.card.tags.takeWhile Str.validUtf8) s.submit s.start := by
    refine Effects.ShowsAt.bind s.created_eq
      (.of_emits (emits_createCard fun _ _ _ => ?_) s.start) ?_
    · exact if_neg fun h => target_ne _ _ (by decide) h.symm
    · simp only [s.success, not_true_eq_false, if_false]
      refine (showsAt_postprocess s.card _ _ _ _ _ s.finish).bind_nil fun _ t => ?_
      exact .of_emits (.pure _) t
  obtain ⟨es, hes, hposted⟩ := hshows
  rw [posted, hes, List.drop_left, hposted, List.nil_append]

/-- The card of the task has the tags of the configuration and of the entry; they are unique when
the entry has an array of tags, or when those of the configuration are. -/
theorem card_tags :
    (∀ tag, tag ∈ s.card.tags ↔ tag ∈ config.tags ∨ tag ∈ entryTags entry) ∧
      (s.card.tags.Nodup ↔ HasTagsArray entry ∨ config.tags.Nodup) := by
  obtain ⟨sprintNumber, role, hbase⟩ := planEntry_base s.plan_eq
  rw [(parseTask_fields s.card_eq).2.2.1, hbase]
  by_cases harray : HasTagsArray entry
  · obtain ⟨hnodup, hmem⟩ := tags_entryBase_of_array harray config sprintNumber role
    exact ⟨hmem, iff_of_true hnodup (Or.inl harray)⟩
  · obtain ⟨htags, hentry⟩ := tags_entryBase_of_not_array harray config sprintNumber role
    rw [htags, hentry]
    exact ⟨fun tag => by simp, (or_iff_right harray).symm⟩

end Submission

end Submissions

/-- **Tags are posted once** for a card of an entry exactly when all of them are UTF-8, and the
entry has an array of tags or the configuration repeats none. -/
theorem postedOnce_iff {σ Text : Type} {json : NlohmannText Text} {server : Server σ Text}
    {apiPath : Str} {config : Config} {entry : Json} {userId : Int64} {w : World σ Text}
    (s : Submission json server apiPath config entry userId w) :
    s.PostedOnce ↔
      (∀ tag, tag ∈ config.tags ∨ tag ∈ entryTags entry → tag.validUtf8 = true) ∧
        (HasTagsArray entry ∨ config.tags.Nodup) := by
  obtain ⟨hmem, hnodup⟩ := s.card_tags
  unfold Submission.PostedOnce
  rw [s.posted_eq, ← hnodup]
  constructor
  · rintro ⟨honce, hall⟩
    have hvalid : ∀ tag ∈ s.card.tags, tag.validUtf8 = true := fun tag htag =>
      List.mem_takeWhile_imp ((hall tag).2 ((hmem tag).1 htag))
    rw [List.takeWhile_eq_self_iff.2 hvalid] at honce
    exact ⟨fun tag htag => hvalid tag ((hmem tag).2 htag), honce⟩
  · rintro ⟨hvalid, honce⟩
    rw [List.takeWhile_eq_self_iff.2 fun tag htag => hvalid tag ((hmem tag).1 htag)]
    exact ⟨honce, hmem⟩

/-- A configuration that repeats a tag. -/
def repeatingConfig : Config := { emptyConfig with tags := [lit "bug", lit "bug"] }

/-- A task with a title. -/
def plainTask : Json := .object [(lit "title", .string (lit "task"))]

/-- An entry without tags. -/
def untaggedEntry : Json := .object [(lit "tasks", .array [plainTask])]

/-- What its task has in common with others. -/
def untaggedPlan : EntryPlan where
  base := entryBase repeatingConfig [] [] untaggedEntry
  parentCardId := 0
  productCode := lit "CAD"
  workCode := lit "A"
  responsibleUserId := 0

/-- The card of the task. -/
def untaggedCard : SimpleCard := { untaggedPlan.base with title := lit "task" }

/-- A server that answers every request with the same card. -/
def creatingServer : Server Unit (Option { j : Json // j.validUtf8 = true }) where
  answer _ _ := ((200, some ⟨.object [(lit "id", .integer 1)], by decide +kernel⟩), ())
  users _ := (fun _ => (200, none), ())

/-- The tag of the configuration is posted twice for the card. -/
theorem repeated_tag_posted_twice :
    ∃ s : Submission .symbolic creatingServer [] repeatingConfig untaggedEntry 0 quietWorld,
      s.posted = [lit "bug", lit "bug"] ∧ ¬ s.PostedOnce := by
  have hvalid : untaggedCard.payload.validUtf8 = true := by decide +kernel
  obtain ⟨body, hbody⟩ : ∃ body, NlohmannText.symbolic.dump untaggedCard.payload = some body :=
    Option.isSome_iff_exists.1 ((NlohmannText.symbolic.dump_isSome _).trans hvalid)
  refine ⟨{
    plan := untaggedPlan
    planned := quietWorld
    before := []
    task := plainTask
    after := []
    counts := (0, 0)
    start := quietWorld
    card := untaggedCard
    status := 200
    created := _
    finish := _
    plan_eq := rfl
    tasks_eq := rfl
    before_eq := rfl
    card_eq := rfl
    created_eq := createCard_of_dump_some hbody quietWorld rfl
    success := Or.inl rfl }, ?_⟩
  rw [Submission.PostedOnce, Submission.posted_eq]
  have htags : untaggedCard.tags.takeWhile Str.validUtf8 = [lit "bug", lit "bug"] := by
    decide +kernel
  exact ⟨htags, fun h => absurd (htags ▸ h.1) (by decide)⟩

end Kaiten
