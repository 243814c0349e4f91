import Kunstkammer.Cards.Isolation
import Kunstkammer.Cards.Requests

/-!
# The balance of a backlog

What the numbers of `handle_backlog` and its exit code say about the requests it has sent.

* `Exchange.creationAnswer`: what a request that creates a card posts, and how it is answered;
* `Posts w v answers`: between two worlds, these cards are created, and answered like that;
* `Tallies w v success failures`: so many of them succeed and so many fail;
* `backlogTasks`: the tasks of all entries;
* `backlog_accounted`: a backlog that is processed to its end sends one creation for every task, of
  its own card, and the exit code is 0 exactly when all of them succeed and every entry has its
  array of tasks.
-/

namespace Kaiten

section Accounts

variable {σ Text : Type} (json : NlohmannText Text) (server : Server σ Text) (apiPath : Str)

/-- The status of an answer to a request. -/
def Exchange.status : Exchange Text → Option ℤ
  | .request _ response => some response.1
  | .users _ => none

/-- The status of the answer, if the request creates a card. -/
def Exchange.creationStatus (e : Exchange Text) : Option ℤ :=
  (e.creation json apiPath).bind fun _ => e.status

/-- The payload of a request that creates a card, and the status of the answer. -/
def Exchange.creationAnswer (e : Exchange Text) : Option (Json × ℤ) :=
  (e.creation json apiPath).bind fun payload => e.status.map (Prod.mk payload)

/-- From `w` to `v`, so many creations are answered with success, and so many are not. -/
def Tallies (w v : World σ Text) (success failures : ℕ) : Prop :=
  ∃ es, v.log = w.log ++ es ∧
    (es.filterMap (Exchange.creationStatus json apiPath)).countP (fun s => IsSuccess s) = success ∧
    (es.filterMap (Exchange.creationStatus json apiPath)).countP (fun s => ¬ IsSuccess s) = failures

/-- From `w` to `v`, these payloads are posted to create cards, one after the other, and the answers
have these statuses. -/
def Posts (w v : World σ Text) (answers : List (Json × ℤ)) : Prop :=
  ∃ es, v.log = w.log ++ es ∧
    es.filterMap (Exchange.creationAnswer json apiPath) = answers

variable {json server apiPath}

/-- The creations are tallied by their answers. -/
theorem Posts.tallies {w v : World σ Text} {answers : List (Json × ℤ)}
    (h : Posts json apiPath w v answers) : Tallies json apiPath w v
      (answers.countP fun answer => IsSuccess answer.2)
      (answers.countP fun answer => ¬ IsSuccess answer.2) := by
  obtain ⟨es, hes, rfl⟩ := h
  have hstatus : es.filterMap (Exchange.creationStatus json apiPath) =
      (es.filterMap (Exchange.creationAnswer json apiPath)).map Prod.snd := by
    rw [List.map_filterMap]
    refine List.filterMap_congr fun e _ => ?_
    cases e with
    | users => rfl
    | request r response =>
      rw [Exchange.creationStatus, Exchange.creationAnswer, Option.map_bind]
      rfl
  refine ⟨es, hes, ?_, ?_⟩
  · rw [hstatus, List.countP_map]
    rfl
  · rw [hstatus, List.countP_map]
    rfl

theorem Posts.refl (w : World σ Text) : Posts json apiPath w w [] :=
  ⟨[], (List.append_nil _).symm, rfl⟩

theorem Posts.trans {u v w : World σ Text} {answers answers' : List (Json × ℤ)}
    (h : Posts json apiPath u v answers) (h' : Posts json apiPath v w answers') :
    Posts json apiPath u w (answers ++ answers') := by
  obtain ⟨es, hes, rfl⟩ := h
  obtain ⟨fs, hfs, rfl⟩ := h'
  exact ⟨es ++ fs, by rw [hfs, hes, List.append_assoc], List.filterMap_append⟩

/-- A program that creates nothing. -/
theorem Posts.of_emits {α : Type} {m : Run σ Text α} {w v : World σ Text} {a : α}
    (h : m w = .ok a v)
    (hm : Effects.Emits World.log (Exchange.CreatesOnly json apiPath fun _ => False) m) :
    Posts json apiPath w v [] := by
  obtain ⟨es, hes, hnone⟩ := hm w
  rw [h, Effects.state_ok] at hes
  refine ⟨es, hes, List.filterMap_eq_nil_iff.2 fun e he => ?_⟩
  rw [Exchange.creationAnswer, Option.bind_eq_none_iff]
  exact fun payload hpayload => (hnone e he payload hpayload).elim

/-- A card is created with its payload, and the status of the answer is returned. -/
theorem posts_createCard {desired : SimpleCard} {w v : World σ Text} {status : ℤ} {card : Card}
    (h : createCard json server apiPath desired w = .ok (status, card) v) :
    Posts json apiPath w v [(desired.payload, status)] := by
  cases hdump : json.dump desired.payload with
  | none =>
    rw [createCard_of_dump_none hdump] at h
    cases h
  | some body =>
    rw [createCard_of_dump_some hdump w rfl] at h
    cases h
    refine ⟨_, rfl, ?_⟩
    rw [List.filterMap_cons_some, List.filterMap_nil]
    rw [Exchange.creationAnswer, Exchange.creation, if_pos rfl, json.parse_dump _ _ hdump]
    rfl

/-- With its follow-ups, one card is created, and it is returned if the answer is a success. -/
theorem posts_creation {cardData : SimpleCard} {parentCardId : Int64}
    {productCode workCode : Str} {updateTitle : Bool} {w v : World σ Text} {created : Option Card}
    (h : createCardWithPostprocessing json server apiPath cardData parentCardId productCode workCode
      updateTitle w = .ok created v) :
    ∃ status, Posts json apiPath w v [(cardData.payload, status)] ∧
      (created.isSome ↔ IsSuccess status) := by
  obtain ⟨⟨status, card⟩, u, hcreate, hrest⟩ := Effects.bind_eq_ok.1 h
  have hcreated := posts_createCard hcreate
  refine ⟨status, ?_⟩
  dsimp only at hrest
  split_ifs at hrest with hs
  · obtain ⟨_, t, hpost, hreturn⟩ := Effects.bind_eq_ok.1 hrest
    cases hreturn
    refine ⟨?_, iff_of_true rfl hs⟩
    rw [← List.append_nil [(cardData.payload, status)]]
    refine hcreated.trans (.of_emits hpost ?_)
    exact (emits_postprocess json server apiPath cardData parentCardId productCode workCode
      updateTitle card.id).mono fun _ => createsOnly_of_followsUp
  · cases hrest
    exact ⟨hcreated, iff_of_false Bool.false_ne_true hs⟩

/-- The loop over the tasks posts the card of each of them, and counts the answers. -/
theorem posts_submitTasks {plan : EntryPlan} {tasks : List Json} {w v : World σ Text}
    {counts : ℕ × ℕ} (h : submitTasks json server apiPath plan tasks w = .ok counts v) :
    ∃ answers, Posts json apiPath w v answers ∧
      List.Forall₂ (fun task answer => ∃ card, parseTaskCardFromBacklog plan.base task
        plan.responsibleUserId = some card ∧ answer.1 = card.payload) tasks answers ∧
      counts = (answers.countP fun answer => IsSuccess answer.2,
        answers.countP fun answer => ¬ IsSuccess answer.2) := by
  induction tasks generalizing w v counts with
  | nil =>
    cases h
    exact ⟨[], .refl _, .nil, rfl⟩
  | cons task tasks ih =>
    obtain ⟨card, w1, hcard, hrun⟩ := Effects.bind_eq_ok.1 h
    obtain ⟨created, w2, hcreated, hrun⟩ := Effects.bind_eq_ok.1 hrun
    obtain ⟨⟨success, errors⟩, w3, htasks, h⟩ := Effects.bind_eq_ok.1 hrun
    obtain ⟨hparse, rfl⟩ := orThrow_eq_ok hcard
    obtain ⟨status, hfirst, hstatus⟩ := posts_creation hcreated
    obtain ⟨answers, hrest, hall, hcounts⟩ := ih htasks
    obtain ⟨rfl, rfl⟩ := Prod.mk.inj hcounts
    dsimp only at h
    split_ifs at h with hsome
    · cases h
      refine ⟨(card.payload, status) :: answers, hfirst.trans hrest, .cons ⟨card, hparse, rfl⟩ hall,
        ?_⟩
      rw [List.countP_cons, List.countP_cons, if_pos (decide_eq_true (hstatus.1 hsome)),
        if_neg (by simpa using hstatus.1 hsome)]
      rfl
    · cases h
      have hfailed := mt hstatus.2 hsome
      refine ⟨(card.payload, status) :: answers, hfirst.trans hrest, .cons ⟨card, hparse, rfl⟩ hall,
        ?_⟩
      rw [List.countP_cons, List.countP_cons, if_neg (by simpa using hfailed),
        if_pos (decide_eq_true hfailed)]
      rfl

/-! ### Entries -/

/-- The tasks of an entry, if it has an array of them. -/
def tasksOf (entry : Json) : Option (List Json) :=
  match entry.member? (lit "tasks") with
  | some (.array tasks) => some tasks
  | _ => none

theorem tasksOf_eq_some_iff {entry : Json} {tasks : List Json} :
    tasksOf entry = some tasks ↔ entry.member? (lit "tasks") = some (.array tasks) := by
  unfold tasksOf
  split
  · rename_i l hl
    rw [hl, Option.some.injEq, Option.some.injEq, Json.array.injEq]
  · rename_i hnone
    exact iff_of_false (by simp) (hnone tasks)

/-- The tasks of a backlog, each with its entry. -/
def backlogTasks (entries : List Json) : List (Json × Json) :=
  entries.flatMap fun entry => ((tasksOf entry).getD []).map (Prod.mk entry)

/-- The payload is the card of the task: it is read off the task, on the base card of its entry with
some sprint, and for some user. -/
def PostedFor (config : Config) (entry task payload : Json) : Prop :=
  ∃ fields sprintNumber userId card, entryFields config entry = some fields ∧
    parseTaskCardFromBacklog (entryBase config sprintNumber fields.role entry) task userId =
      some card ∧ payload = card.payload

variable {config : Config} {userId : Int64}

/-- An entry posts the cards of its tasks; it counts the answers, and one error if it has no array
of tasks. -/
theorem posts_processBacklogEntry {entry : Json} {w v : World σ Text} {counts : ℕ × ℕ}
    (h : processBacklogEntry json server apiPath config entry userId w = .ok counts v) :
    ∃ answers, Posts json apiPath w v answers ∧
      List.Forall₂ (fun task answer => PostedFor config entry task answer.1)
        ((tasksOf entry).getD []) answers ∧
      counts.2 = answers.countP (fun answer => ¬ IsSuccess answer.2) +
        (if (tasksOf entry).isSome then 0 else 1) := by
  obtain ⟨plan, u, hplan, -⟩ := Effects.bind_eq_ok.1 h
  have hread : Posts json apiPath w u [] := .of_emits hplan (emits_planEntry config entry userId)
  obtain ⟨fields, _, info, _, _, hfields, -, -, -, hbase, -⟩ := planEntry_eq_ok hplan
  obtain ⟨htasks, hnone⟩ := processBacklogEntry_of_plan hplan
  cases ht : tasksOf entry with
  | some tasks =>
    rw [htasks tasks (tasksOf_eq_some_iff.1 ht)] at h
    obtain ⟨answers, hposts, hall, rfl⟩ := posts_submitTasks h
    refine ⟨answers, hread.trans hposts, hall.imp fun task answer hcard => ?_, rfl⟩
    obtain ⟨card, hcard, hpayload⟩ := hcard
    exact ⟨fields, info.sprintNumber, plan.responsibleUserId, card, hfields, hbase ▸ hcard,
      hpayload⟩
  | none =>
    rw [hnone fun tasks habs => by rw [tasksOf_eq_some_iff.2 habs] at ht; cases ht] at h
    cases h
    exact ⟨[], hread, .nil, rfl⟩

/-- The loop over the entries posts the cards of all tasks; it counts the answers, and one error for
every entry without an array of tasks. -/
theorem posts_processEntries {entries : List Json} {w v : World σ Text} {counts : ℕ × ℕ}
    (h : processEntries json server apiPath config userId entries w = .ok counts v) :
    ∃ answers, Posts json apiPath w v answers ∧
      List.Forall₂ (fun task answer => PostedFor config task.1 task.2 answer.1)
        (backlogTasks entries) answers ∧
      counts.2 = answers.countP (fun answer => ¬ IsSuccess answer.2) +
        entries.countP (fun entry => (tasksOf entry).isNone) := by
  induction entries generalizing w v counts with
  | nil =>
    cases h
    exact ⟨[], .refl _, .nil, rfl⟩
  | cons entry entries ih =>
    obtain ⟨c, u, c', hc, hrest, rfl⟩ := processEntries_cons.1 h
    obtain ⟨answers, hposts, hall, herrors⟩ := posts_processBacklogEntry hc
    obtain ⟨answers', hposts', hall', herrors'⟩ := ih hrest
    refine ⟨answers ++ answers', hposts.trans hposts', ?_, ?_⟩
    · rw [backlogTasks, List.flatMap_cons]
      exact List.rel_append (List.forall₂_map_left_iff.2 hall) hall'
    · rw [Prod.snd_add, herrors, herrors', List.countP_append, List.countP_cons]
      cases tasksOf entry <;> simp <;> omega

/-- The entries of a backlog file: those of its array `backlog`, if the file can be opened and
parsed. -/
def backlogEntries (json : NlohmannText Text) (file : Option Text) : Option (List Json) :=
  (file.bind json.parse).bind fun j => (j.member? (lit "backlog")).bind Json.elements?

/-- **The balance of a backlog.**  When `handle_backlog` comes to its end, it has sent one creation
for every task of every entry, in their order, with the card of this task.  It returns 0 exactly
when all of them were answered with success and every entry has an array of tasks, and 1 otherwise;
without entries to read it sends nothing and returns 1. -/
theorem backlog_accounted {file : Option Text} {w v : World σ Text} {code : ℤ}
    (h : handleBacklog json server apiPath config file w = .ok code v) :
    match backlogEntries json file with
    | none => code = 1 ∧ v = w
    | some entries => ∃ answers, Posts json apiPath w v answers ∧
        List.Forall₂ (fun task answer => PostedFor config task.1 task.2 answer.1)
          (backlogTasks entries) answers ∧
        code = if (∀ answer ∈ answers, IsSuccess answer.2) ∧
          ∀ entry ∈ entries, (tasksOf entry).isSome then 0 else 1 := by
  unfold handleBacklog at h
  unfold backlogEntries
  cases hentries : (file.bind json.parse).bind fun j =>
      (j.member? (lit "backlog")).bind Json.elements? with
  | none =>
    rw [hentries] at h
    cases h
    exact ⟨rfl, rfl⟩
  | some entries =>
    rw [hentries] at h
    obtain ⟨userId, u, huser, h⟩ := Effects.bind_eq_ok.1 h
    obtain ⟨⟨success, errors⟩, t, hrun, hreturn⟩ := Effects.bind_eq_ok.1 h
    cases hreturn
    obtain ⟨answers, hposts, hall, herrors⟩ := posts_processEntries hrun
    have hread : Posts json apiPath w u [] := .of_emits huser emits_currentUserId
    refine ⟨answers, hread.trans hposts, hall, ?_⟩
    have hzero : errors > 0 ↔ ¬ ((∀ answer ∈ answers, IsSuccess answer.2) ∧
        ∀ entry ∈ entries, (tasksOf entry).isSome) := by
      dsimp only at herrors
      rw [gt_iff_lt, Nat.pos_iff_ne_zero, not_iff_not, herrors, Nat.add_eq_zero_iff,
        List.countP_eq_zero, List.countP_eq_zero]
      simp [Option.isSome_iff_ne_none]
    by_cases hgood : (∀ answer ∈ answers, IsSuccess answer.2) ∧
        ∀ entry ∈ entries, (tasksOf entry).isSome
    · rw [if_pos hgood, if_neg (not_not.2 hgood ∘ hzero.1)]
    · rw [if_neg hgood, if_pos (hzero.2 hgood)]

/-- **The balance of a single card.**  With a title, `handle_create_card` sends one creation, and
returns 0 exactly when that is answered with success. -/
theorem single_accounted {title : Str} (htitle : title ≠ []) {size : Int32} {parentCardId : Int64}
    {tags : List Str} {w v : World σ Text} {code : ℤ}
    (h : handleCreateCard json server apiPath config title size parentCardId tags w = .ok code v) :
    (code = 0 ∧ Tallies json apiPath w v 1 0) ∨ code = 1 ∧ Tallies json apiPath w v 0 1 := by
  rw [handleCreateCard, if_neg htitle] at h
  obtain ⟨userId, w1, huser, h1⟩ := Effects.bind_eq_ok.1 h
  obtain ⟨⟨all, info⟩, w2, hinfo, h2⟩ := Effects.bind_eq_ok.1 h1
  obtain ⟨created, w3, hcreated, hreturn⟩ := Effects.bind_eq_ok.1 h2
  have hread : Posts json apiPath w w1 [] := .of_emits huser emits_currentUserId
  have hparent : Posts json apiPath w1 w2 [] := by
    refine .of_emits hinfo ?_
    split_ifs
    · exact emits_fetchParentCardInfo _ _
    · exact .pure _
  obtain ⟨status, hposts, hstatus⟩ := posts_creation hcreated
  have htally := ((hread.trans hparent).trans hposts).tallies
  rw [List.append_nil, List.nil_append, List.countP_singleton, List.countP_singleton] at htally
  cases hreturn
  by_cases hs : IsSuccess status
  · rw [if_pos (decide_eq_true hs), if_neg (by simpa using hs)] at htally
    exact Or.inl ⟨if_pos (hstatus.2 hs), htally⟩
  · rw [if_neg (by simpa using hs), if_pos (decide_eq_true hs)] at htally
    exact Or.inr ⟨if_neg (mt hstatus.1 hs), htally⟩

end Accounts

/-- Two entries with two tasks each, of which one has a parent. -/
def twoEntries : List Json := [twoTaskEntry (lit "7"), twoTaskEntry []]

theorem backlogOf_twoEntries_valid : (backlogOf twoEntries).validUtf8 = true := by decide +kernel

/-- The two entries on a server that accepts everything. -/
theorem backlog_accounted_two : ∃ code v,
    handleBacklog .symbolic acceptingServer [] emptyConfig
      (some (some ⟨_, backlogOf_twoEntries_valid⟩)) quietWorld = .ok code v ∧
    ∃ answers, Posts .symbolic [] quietWorld v answers ∧
      List.Forall₂ (fun task answer => PostedFor emptyConfig task.1 task.2 answer.1)
        (backlogTasks twoEntries) answers ∧
      code = if (∀ answer ∈ answers, IsSuccess answer.2) ∧
        ∀ entry ∈ twoEntries, (tasksOf entry).isSome then 0 else 1 := by
  have hconfig : emptyConfig.Valid := fun _ h => absurd h List.not_mem_nil
  have hsound : ∀ entry ∈ twoEntries, SoundEntry entry := by
    simp only [twoEntries, List.forall_mem_cons]
    exact ⟨Or.inl twoTaskEntry_seven, Or.inl (twoTaskEntry_wellFormed (Or.inl rfl)),
      fun _ h => absurd h List.not_mem_nil⟩
  obtain ⟨code, v, h⟩ : ∃ code v, handleBacklog .symbolic acceptingServer [] emptyConfig
    (some (some ⟨_, backlogOf_twoEntries_valid⟩)) quietWorld = .ok code v :=
      handleBacklog_returns hconfig rfl rfl
        (fun entry hentry => ⟨hsound entry hentry, Or.inr acceptingServer_listsUsers⟩) _ _
  exact ⟨code, v, h, backlog_accounted h⟩

/-- A card below another one, on a server that accepts everything. -/
theorem single_accounted_task : ∃ code v,
    handleCreateCard .symbolic acceptingServer [] emptyConfig (lit "task") 2 7 []
      quietWorld = .ok code v ∧
    ((code = 0 ∧ Tallies .symbolic [] quietWorld v 1 0) ∨
      code = 1 ∧ Tallies .symbolic [] quietWorld v 0 1) := by
  obtain ⟨code, v, h⟩ : ∃ code v, handleCreateCard .symbolic acceptingServer [] emptyConfig
    (lit "task") 2 7 [] quietWorld = .ok code v := ⟨_, _, rfl⟩
  exact ⟨code, v, h, single_accounted (by decide +kernel) h⟩

end Kaiten
