import Kunstkammer.Cards.Restart

/-!
# The entries of a backlog

What becomes of one entry when there are others, some of them malformed.

* `WellFormedTask`, `WellFormedEntry`: what an entry and its tasks have to look like;
* `EntrySubmitted`: one entry as it is to be processed: its tasks are submitted as by a program that
  starts now, or an error is counted;
* `BacklogIsolated`: the run returns, and every entry is processed like that;
* `SoundEntry`: the entries that do not stop the run and are counted right;
* `LooksUpFirst`: what has been cached for others is not posted with the tasks of an entry;
* `backlog_isolated_iff`: for all servers, these are the conditions, as long as nobody responsible
  is looked up in a listing without an end; for servers with steady parents, the first is enough.
-/

namespace Kaiten

/-! ### Entries -/

/-- A member that is absent, or a text with the property `P`. -/
def TextMember (j : Json) (key : Str) (P : Str → Prop) : Prop :=
  ∀ v, j.member? key = some v → ∃ s, v = .string s ∧ P s

/-- A task `process_backlog_entry` is to submit. -/
structure WellFormedTask (task : Json) : Prop where
  object : ∃ l, task = .object l
  title : TextMember task (lit "title") fun _ => True
  size : ∀ v, task.member? (lit "size") = some v → v.getInt.isSome

/-- A numeral of a 64-bit integer. -/
def IsNumber (s : Str) : Prop := ∃ n, readInteger s = some (n, []) ∧ -2 ^ 63 ≤ n ∧ n < 2 ^ 63

/-- An entry whose first members can be read; `P` tells which parents are numbers. -/
structure ReadableEntry (P : Str → Prop) (entry : Json) : Prop where
  object : ∃ l, entry = .object l
  parent : TextMember entry (lit "parent") fun s => s = [] ∨ P s
  responsible : TextMember entry (lit "responsible") fun _ => True
  role : TextMember entry (lit "role") fun _ => True

/-- An entry all of whose tasks are to be submitted. -/
def WellFormedEntry (entry : Json) : Prop :=
  ReadableEntry IsNumber entry ∧
    ∃ tasks, entry.member? (lit "tasks") = some (.array tasks) ∧ ∀ task ∈ tasks, WellFormedTask task

/-- An entry that is handled as it should be: a well-formed one, or one without an array of tasks
that can be read otherwise. -/
def SoundEntry (entry : Json) : Prop :=
  WellFormedEntry entry ∨
    ReadableEntry (fun s => (stoll s).isSome) entry ∧
      ∀ tasks, entry.member? (lit "tasks") ≠ some (.array tasks)

/-- Somebody responsible is named. -/
def NamesResponsible (entry : Json) : Prop :=
  ∃ s, entry.member? (lit "responsible") = some (.string s) ∧ s ≠ []

section Isolation

variable {σ Text : Type} (json : NlohmannText Text) (server : Server σ Text) (apiPath : Str)

/-- What happens between the worlds `w` and `v` is what `entry` asks for.  If it is well-formed, the
same is submitted and counted as by a program that starts at `w` with nothing but this entry, which
creates the cards of all of its tasks; if it is malformed, an error is counted. -/
structure EntrySubmitted (config : Config) (userId : Int64) (entry : Json) (w v : World σ Text)
    (counts : ℕ × ℕ) : Prop where
  tasks : WellFormedEntry entry → ∃ tasks plan u cards v',
    entry.member? (lit "tasks") = some (.array tasks) ∧
    planEntry json server apiPath config entry userId w.restarted = .ok plan u ∧
    tasks.mapM (parseTaskCardFromBacklog plan.base · plan.responsibleUserId) = some cards ∧
    processBacklogEntry json server apiPath config entry userId w.restarted = .ok counts v' ∧
    v.submissions = v'.submissions ∧
    v.creations json apiPath = w.creations json apiPath ++ cards.map SimpleCard.payload ∧
    counts.1 + counts.2 = tasks.length
  error : ¬ WellFormedEntry entry → 1 ≤ counts.2

/-- The loop returns, and every entry is processed as if it were the only one, from where the
entries before it have led the server to. -/
def EntriesIsolated (config : Config) (userId : Int64) (entries : List Json)
    (w : World σ Text) : Prop :=
  ∃ success errors v,
    processEntries json server apiPath config userId entries w = .ok (success, errors) v ∧
    ∀ before entry after, entries = before ++ entry :: after → ∃ c u c' u',
      processEntries json server apiPath config userId before w = .ok c u ∧
      processEntries json server apiPath config userId [entry] u = .ok c' u' ∧
      EntrySubmitted json server apiPath config userId entry u u' c' ∧
      u'.log <+: v.log ∧ c.1 + c'.1 ≤ success ∧ c.2 + c'.2 ≤ errors

/-- `handle_backlog` returns, and its loop keeps the entries apart. -/
def BacklogIsolated (config : Config) (file : Text) (entries : List Json)
    (w : World σ Text) : Prop :=
  (∃ code v, handleBacklog json server apiPath config (some file) w = .ok code v) ∧
    ∀ userId u, currentUserId json server apiPath w = .ok userId u →
      EntriesIsolated json server apiPath config userId entries u

/-- Every listing of users comes to an end. -/
def ListsUsers : Prop :=
  ∀ state, ∃ status users, (UserOperations.getAllUsers json.toNlohmann
    (fun j => some (User.fromJson j)) (server.users state).1 {} 100 intMax).outcome =
      .returned status users

end Isolation

/-! ### Reading entries and tasks -/

theorem value_getString_isSome_iff {j : Json} {key : Str} {default : Str} :
    (j.value Json.getString key default).isSome ↔
      (∃ l, j = .object l) ∧ TextMember j key fun _ => True := by
  cases j with
  | object l =>
    simp only [Json.value, TextMember, Json.member?]
    cases OrdAssoc.find? key l with
    | none => simp
    | some v => cases v <;> simp [Json.getString]
  | _ => simp [Json.value]

/-- The tasks that can be read. -/
theorem parseTask_isSome_iff {base : SimpleCard} {task : Json} {userId : Int64} :
    (parseTaskCardFromBacklog base task userId).isSome ↔ WellFormedTask task := by
  constructor
  · intro h
    obtain ⟨card, hcard⟩ := Option.isSome_iff_exists.1 h
    obtain ⟨htitle, hsize, -, -⟩ := parseTask_fields hcard
    obtain ⟨hobject, htitle⟩ :=
      value_getString_isSome_iff.1 (Option.isSome_iff_exists.2 ⟨_, htitle⟩)
    exact ⟨hobject, htitle, (Json.value_isSome_iff.1 hsize).2⟩
  · intro h
    have htitle : (task.value Json.getString (lit "title") []).isSome :=
      value_getString_isSome_iff.2 ⟨h.object, h.title⟩
    have hsize : (task.value Json.getInt (lit "size") 0).isSome :=
      Json.value_isSome_iff.2 ⟨h.object, h.size⟩
    obtain ⟨title, htitle⟩ := Option.isSome_iff_exists.1 htitle
    obtain ⟨size, hsize⟩ := Option.isSome_iff_exists.1 hsize
    unfold parseTaskCardFromBacklog
    rw [htitle, hsize]
    dsimp only [Option.bind_eq_bind, Option.bind_some]
    split
    · rfl
    · rfl

/-- The fields of an entry, and the number of its parent, can be read. -/
theorem readableEntry_iff {config : Config} {entry : Json} :
    ReadableEntry (fun s => (stoll s).isSome) entry ↔
      ∃ fields, entryFields config entry = some fields ∧
        (fields.parent = [] ∨ (stoll fields.parent).isSome) := by
  constructor
  · intro h
    obtain ⟨l, rfl⟩ := h.object
    have hmember (key : Str) {P : Str → Prop} (hmember : TextMember (.object l) key P)
        (default : Str) : ∃ s, (Json.object l).value Json.getString key default = some s ∧
          (s = default ∨ P s) := by
      simp only [TextMember, Json.member?] at hmember
      simp only [Json.value]
      cases hfind : OrdAssoc.find? key l with
      | none => exact ⟨default, rfl, Or.inl rfl⟩
      | some v =>
        obtain ⟨s, rfl, hs⟩ := hmember v hfind
        exact ⟨s, rfl, Or.inr hs⟩
    obtain ⟨parent, hparent, hstoll⟩ := hmember _ h.parent []
    obtain ⟨responsible, hresponsible, -⟩ := hmember _ h.responsible []
    obtain ⟨role, hrole, -⟩ := hmember _ h.role config.role
    refine ⟨⟨parent, responsible, role⟩, ?_, hstoll.elim Or.inl id⟩
    simp only [entryFields, hparent, hresponsible, hrole, Option.bind_eq_bind, Option.bind_some]
  · rintro ⟨fields, hfields, hstoll⟩
    simp only [entryFields, Option.bind_eq_bind, Option.bind_eq_some_iff,
      Option.some.injEq] at hfields
    obtain ⟨parent, hparent, responsible, hresponsible, role, hrole, rfl⟩ := hfields
    obtain ⟨hobject, -⟩ := value_getString_isSome_iff.1 (Option.isSome_of_eq_some hparent)
    refine ⟨hobject, fun v hv => ?_,
      (value_getString_isSome_iff.1 (Option.isSome_of_eq_some hresponsible)).2,
      (value_getString_isSome_iff.1 (Option.isSome_of_eq_some hrole)).2⟩
    obtain ⟨l, rfl⟩ := hobject
    rw [Json.value, show OrdAssoc.find? (lit "parent") l = some v from hv] at hparent
    cases v with
    | string s =>
      cases hparent
      exact ⟨_, rfl, hstoll⟩
    | _ => cases hparent

/-- Whose tasks these are is looked up when somebody is named. -/
theorem namesResponsible_iff {config : Config} {entry : Json} {fields : EntryFields}
    (h : entryFields config entry = some fields) :
    NamesResponsible entry ↔ fields.responsible ≠ [] := by
  simp only [entryFields, Option.bind_eq_bind, Option.bind_eq_some_iff, Option.some.injEq] at h
  obtain ⟨_, -, responsible, hresponsible, _, -, rfl⟩ := h
  cases entry with
  | object l =>
    simp only [Json.value] at hresponsible
    simp only [NamesResponsible, Json.member?]
    cases hfind : OrdAssoc.find? (lit "responsible") l with
    | none =>
      rw [hfind] at hresponsible
      simp [← Option.some.inj hresponsible]
    | some v =>
      rw [hfind] at hresponsible
      cases v with
      | string s =>
        cases hresponsible
        simp
      | _ => cases hresponsible
  | _ => cases hresponsible

section Runs

variable {σ Text : Type} {json : NlohmannText Text} {server : Server σ Text} {apiPath : Str}
  {payloads : List Json} {config : Config} {userId : Int64}

/-! ### Sound entries do not stop the run -/

theorem getAllUsers_of_returned {w : World σ Text} {status : ℤ} {users : List User}
    {listing : Listing UserFilterParams User}
    (hlisting : listing = UserOperations.getAllUsers json.toNlohmann
      (fun j => some (User.fromJson j)) (server.users w.server).1 {} 100 intMax)
    (h : listing.outcome = .returned status users) :
    getAllUsers json server w = .ok (status, users)
      { w with
        server := (server.users w.server).2
        log := w.log ++ [.users listing.requests] } := by
  unfold getAllUsers
  dsimp only
  rw [← hlisting, h]

theorem ensures_getAllUsers (h : ListsUsers json server) :
    Effects.Ensures (Created json apiPath payloads)
      (getAllUsers json server : Run σ Text (ℤ × List User)) fun _ =>
        Created json apiPath payloads := by
  intro w hw
  obtain ⟨status, users, hreturned⟩ := h w.server
  refine ⟨_, _, getAllUsers_of_returned rfl hreturned, ⟨hw.valid.cards, hw.valid.cardNumbers⟩, ?_⟩
  rw [World.creations, List.filterMap_append, ← World.creations, hw.creations]
  exact List.append_nil _

theorem ensures_findResponsible {email : Str} (h : email = [] ∨ ListsUsers json server) :
    Effects.Ensures (Created json apiPath payloads)
      (findResponsibleUserId json server email : Run σ Text Int64) fun _ =>
        Created json apiPath payloads := by
  unfold findResponsibleUserId
  split_ifs with hnil
  · exact .pure fun _ h => h
  · refine (ensures_getAllUsers (h.resolve_left hnil)).bind fun answer => ?_
    dsimp only
    split_ifs
    · exact .pure fun _ h => h
    · exact .pure fun _ h => h

theorem ensures_orThrow {pre : World σ Text → Prop} {T : Type} {o : Option T} (h : o.isSome) :
    Effects.Ensures pre (orThrow o : Run σ Text T) fun t w => pre w ∧ o = some t := by
  obtain ⟨t, rfl⟩ := Option.isSome_iff_exists.1 h
  exact .pure fun _ hw => ⟨hw, rfl⟩

/-- The texts of a plan are UTF-8. -/
structure EntryPlan.Valid (plan : EntryPlan) : Prop where
  base : plan.base.Valid
  productCode : Utf8.Valid plan.productCode
  workCode : Utf8.Valid plan.workCode

theorem ensures_planEntry (hconfig : config.Valid) {entry : Json} (hentry : entry.validUtf8 = true)
    (hreadable : ReadableEntry (fun s => (stoll s).isSome) entry)
    (husers : ¬ NamesResponsible entry ∨ ListsUsers json server) :
    Effects.Ensures (Created json apiPath payloads)
      (planEntry json server apiPath config entry userId) fun plan w =>
        Created json apiPath payloads w ∧ plan.Valid := by
  obtain ⟨fields, hfields, hparent⟩ : ∃ fields, entryFields config entry = some fields ∧
      (fields.parent = [] ∨ (stoll fields.parent).isSome) := readableEntry_iff.1 hreadable
  refine (ensures_orThrow (by rw [hfields]; rfl)).bind fun fields' => .of_and fun hfields' => ?_
  rw [hfields] at hfields'
  cases hfields'
  refine Effects.Ensures.bind (Q := fun _ => Created json apiPath payloads) ?_
    fun parentCardId => ?_
  · split_ifs with hnil
    · exact .pure fun _ h => h
    · exact (ensures_orThrow (hparent.resolve_left hnil)).mono fun _ _ h => h.1
  · refine (ensures_fetchParentCardInfo _ ParentInfo.valid_default).bind fun found =>
      .of_and fun hinfo => ?_
    refine (ensures_findResponsible ?_).bind fun userId' => .pure fun _ h => ⟨h, ?_⟩
    · refine husers.imp_left fun hnobody => ?_
      rwa [namesResponsible_iff hfields, not_not] at hnobody
    · refine ⟨entryBase_valid hconfig hinfo.sprintNumber _ hentry, ?_, hinfo.workCode⟩
      dsimp only
      split_ifs
      · exact resolveProductCodeFromRole_valid _
      · exact hinfo.productCode

/-- All tasks are submitted. -/
theorem ensures_submitTasks {plan : EntryPlan} (hplan : plan.Valid) {tasks : List Json}
    (htasks : ∀ task ∈ tasks, task.validUtf8 = true) {cards : List SimpleCard}
    (hcards : tasks.mapM (parseTaskCardFromBacklog plan.base · plan.responsibleUserId) =
      some cards) :
    Effects.Ensures (Created json apiPath payloads) (submitTasks json server apiPath plan tasks)
      fun counts w => Created json apiPath (payloads ++ cards.map SimpleCard.payload) w ∧
        counts.1 + counts.2 = tasks.length := by
  induction tasks generalizing payloads cards with
  | nil =>
    obtain rfl : [] = cards := Option.some.inj hcards
    exact .pure fun _ h => ⟨by rwa [List.map_nil, List.append_nil], rfl⟩
  | cons task tasks ih =>
    simp only [List.mapM_cons, Option.bind_eq_bind, Option.bind_eq_some_iff, Option.pure_def,
      Option.some.injEq] at hcards
    obtain ⟨card, hcard, cards, hcards, rfl⟩ := hcards
    have hvalid := parseTask_valid hplan.base (htasks task List.mem_cons_self) hcard
    refine (ensures_orThrow (by rw [hcard]; rfl)).bind fun card' => .of_and fun hcard' => ?_
    rw [hcard] at hcard'
    cases hcard'
    refine (ensures_createCardWithPostprocessing hvalid _ hplan.productCode hplan.workCode _).bind
      fun created => ?_
    refine (ih (fun t ht => htasks t (List.mem_cons_of_mem _ ht)) hcards).bind fun counts =>
      .of_and fun hcounts => ?_
    rw [List.append_assoc, List.singleton_append, ← List.map_cons]
    dsimp only
    split_ifs
    · exact .pure fun _ h => ⟨h, by rw [List.length_cons]; omega⟩
    · exact .pure fun _ h => ⟨h, by rw [List.length_cons]; omega⟩

theorem WellFormedEntry.readable {entry : Json} (h : WellFormedEntry entry) :
    ReadableEntry (fun s => (stoll s).isSome) entry := by
  refine ⟨h.1.object, fun v hv => ?_, h.1.responsible, h.1.role⟩
  obtain ⟨s, rfl, hs⟩ := h.1.parent v hv
  refine ⟨s, rfl, hs.imp_right ?_⟩
  rintro ⟨n, hread, hrange⟩
  rw [stoll, hread, Option.bind_some, if_pos hrange]
  rfl

theorem SoundEntry.readable {entry : Json} (h : SoundEntry entry) :
    ReadableEntry (fun s => (stoll s).isSome) entry :=
  h.elim WellFormedEntry.readable And.left

theorem exists_cards {base : SimpleCard} {userId : Int64} {tasks : List Json}
    (h : ∀ task ∈ tasks, WellFormedTask task) :
    ∃ cards, tasks.mapM (parseTaskCardFromBacklog base · userId) = some cards := by
  induction tasks with
  | nil => exact ⟨[], rfl⟩
  | cons task tasks ih =>
    obtain ⟨cards, hcards⟩ := ih fun t ht => h t (List.mem_cons_of_mem _ ht)
    have hsome : (parseTaskCardFromBacklog base task userId).isSome :=
      parseTask_isSome_iff.2 (h task List.mem_cons_self)
    obtain ⟨card, hcard⟩ := Option.isSome_iff_exists.1 hsome
    exact ⟨card :: cards, by simp [List.mapM_cons, hcard, hcards]⟩

variable (apiPath userId) in
/-- A well-formed entry creates the cards of its tasks, from every world with UTF-8 caches. -/
theorem wellFormedEntry_runs (hconfig : config.Valid) {entry : Json}
    (hentry : entry.validUtf8 = true) (hwell : WellFormedEntry entry)
    (husers : ¬ NamesResponsible entry ∨ ListsUsers json server) {w : World σ Text}
    (hw : w.Valid) {tasks : List Json}
    (htasks : entry.member? (lit "tasks") = some (.array tasks)) : ∃ plan u cards counts v,
      planEntry json server apiPath config entry userId w = .ok plan u ∧
      tasks.mapM (parseTaskCardFromBacklog plan.base · plan.responsibleUserId) = some cards ∧
      submitTasks json server apiPath plan tasks u = .ok counts v ∧
      processBacklogEntry json server apiPath config entry userId w = .ok counts v ∧ v.Valid ∧
      v.creations json apiPath = w.creations json apiPath ++ cards.map SimpleCard.payload ∧
      counts.1 + counts.2 = tasks.length := by
  obtain ⟨plan, u, hplan, hu, hvalid⟩ : ∃ plan u,
      planEntry json server apiPath config entry userId w = .ok plan u ∧
        Created json apiPath (w.creations json apiPath) u ∧ plan.Valid :=
    ensures_planEntry hconfig hentry hwell.readable husers w ⟨hw, rfl⟩
  have hall : ∀ task ∈ tasks, WellFormedTask task := by
    obtain ⟨tasks', htasks', hall⟩ := hwell.2
    rw [htasks] at htasks'
    cases htasks'
    exact hall
  obtain ⟨cards, hcards⟩ : ∃ cards, tasks.mapM
      (parseTaskCardFromBacklog plan.base · plan.responsibleUserId) = some cards :=
    exists_cards hall
  have hlist := Json.validUtf8_array_iff.1 (Json.validUtf8_of_member? hentry htasks)
  obtain ⟨counts, v, hsubmit, hv, hcounts⟩ := ensures_submitTasks hvalid hlist hcards u hu
  exact ⟨plan, u, cards, counts, v, hplan, hcards, hsubmit,
    ((processBacklogEntry_of_plan hplan).1 tasks htasks).trans hsubmit, hv.valid, hv.creations,
    hcounts⟩

/-- A sound entry does not stop the run. -/
theorem entry_returns (hconfig : config.Valid) {entry : Json} (hentry : entry.validUtf8 = true)
    (hsound : SoundEntry entry) (husers : ¬ NamesResponsible entry ∨ ListsUsers json server)
    {w : World σ Text} (hw : w.Valid) : ∃ counts v,
      processBacklogEntry json server apiPath config entry userId w = .ok counts v ∧ v.Valid := by
  rcases hsound with hwell | ⟨hreadable, habsent⟩
  · obtain ⟨tasks, htasks, -⟩ := id hwell.2
    obtain ⟨_, _, _, counts, v, -, -, -, hrun, hv, -⟩ :=
      wellFormedEntry_runs apiPath userId hconfig hentry hwell husers hw htasks
    exact ⟨counts, v, hrun, hv⟩
  · obtain ⟨plan, u, hplan, hu, -⟩ : ∃ plan u,
        planEntry json server apiPath config entry userId w = .ok plan u ∧
          Created json apiPath (w.creations json apiPath) u ∧ plan.Valid :=
      ensures_planEntry hconfig hentry hreadable husers w ⟨hw, rfl⟩
    exact ⟨(0, 1), u, (processBacklogEntry_of_plan hplan).2 habsent, hu.valid⟩

/-- Sound entries one after the other. -/
theorem entries_return (hconfig : config.Valid) {entries : List Json}
    (hentries : ∀ entry ∈ entries, entry.validUtf8 = true ∧ SoundEntry entry ∧
      (¬ NamesResponsible entry ∨ ListsUsers json server))
    {w : World σ Text} (hw : w.Valid) :
    ∃ counts v, processEntries json server apiPath config userId entries w = .ok counts v ∧
      v.Valid := by
  induction entries generalizing w with
  | nil => exact ⟨0, w, rfl, hw⟩
  | cons entry entries ih =>
    obtain ⟨hvalid, hsound, husers⟩ := hentries entry List.mem_cons_self
    obtain ⟨c, u, hc, hu⟩ := entry_returns hconfig hvalid hsound husers hw
    obtain ⟨c', v, hc', hv⟩ := ih (fun e he => hentries e (List.mem_cons_of_mem _ he)) hu
    exact ⟨c + c', v, processEntries_cons.2 ⟨c, u, c', hc, hc', rfl⟩, hv⟩

theorem ensures_currentUserId : Effects.Ensures (Created json apiPath payloads)
    (currentUserId json server apiPath) fun _ => Created json apiPath payloads := by
  refine Effects.Ensures.bind (Q := fun _ => Created json apiPath payloads) ?_ fun answer => ?_
  · refine (ensures_send fun _ => rfl).bind fun response => ?_
    rw [Option.toList_none, List.append_nil]
    split_ifs
    · cases json.parse response.2 with
      | none => exact .pure fun _ h => h
      | some j => exact .pure fun _ h => h
    · exact .pure fun _ h => h
  · dsimp only
    split_ifs
    · exact .pure fun _ h => h
    · exact .pure fun _ h => h

/-- `handle_backlog` is its loop. -/
theorem handleBacklog_of_entries {file : Text} {j : Json} (hfile : json.parse file = some j)
    {entries : List Json} (hentries : j.member? (lit "backlog") = some (.array entries))
    {w u v : World σ Text} (huser : currentUserId json server apiPath w = .ok userId u)
    {counts : ℕ × ℕ}
    (hrun : processEntries json server apiPath config userId entries u = .ok counts v) :
    handleBacklog json server apiPath config (some file) w =
      .ok (if counts.2 > 0 then 1 else 0) v := by
  unfold handleBacklog
  rw [Option.bind_some, hfile, Option.bind_some, hentries, Option.bind_some]
  exact (Effects.bind_ok huser).trans (Effects.bind_ok hrun)

/-- On sound entries, `handle_backlog` returns. -/
theorem handleBacklog_returns (hconfig : config.Valid) {file : Text} {j : Json}
    (hfile : json.parse file = some j) {entries : List Json}
    (hentries : j.member? (lit "backlog") = some (.array entries))
    (hsound : ∀ entry ∈ entries, SoundEntry entry ∧
      (¬ NamesResponsible entry ∨ ListsUsers json server)) (state : σ) (readings : ℕ → Reading) :
    ∃ code v, handleBacklog json server apiPath config (some file) (.initial state readings) =
      .ok code v := by
  have hlist := Json.validUtf8_array_iff.1
    (Json.validUtf8_of_member? (json.parse_valid file j hfile) hentries)
  obtain ⟨userId, u, huser, hu⟩ : ∃ userId u,
      currentUserId json server apiPath (.initial state readings) = .ok userId u ∧
        Created json apiPath (World.creations json apiPath (.initial state readings)) u :=
    ensures_currentUserId _ ⟨World.valid_initial state readings, rfl⟩
  obtain ⟨counts, v, hrun, -⟩ : ∃ counts v,
      processEntries json server apiPath config userId entries u = .ok counts v ∧ v.Valid :=
    entries_return hconfig (fun e he => ⟨hlist e he, hsound e he⟩) hu.valid
  exact ⟨_, v, handleBacklog_of_entries hfile hentries huser hrun⟩

end Runs

/-! ### Two servers -/

/-- A server that accepts everything and has no users. -/
def acceptingServer : Server Unit (Option { j : Json // j.validUtf8 = true }) where
  answer _ _ := ((200, none), ())
  users _ := (fun _ => (200, none), ())

theorem acceptingServer_listsUsers : ListsUsers .symbolic acceptingServer :=
  fun _ => ⟨200, [], rfl⟩

/-- An entry of a run that keeps its entries apart. -/
theorem EntriesIsolated.entry {σ Text : Type} {json : NlohmannText Text} {server : Server σ Text}
    {apiPath : Str} {config : Config} {userId : Int64} {entries : List Json} {w : World σ Text}
    (h : EntriesIsolated json server apiPath config userId entries w) {before after : List Json}
    {entry : Json} (hsplit : entries = before ++ entry :: after) : ∃ c u counts v,
      processEntries json server apiPath config userId before w = .ok c u ∧
      processBacklogEntry json server apiPath config entry userId u = .ok counts v ∧
      EntrySubmitted json server apiPath config userId entry u v counts := by
  obtain ⟨_, _, _, -, hall⟩ := h
  obtain ⟨c, u, counts, v, hbefore, hrun, hsubmitted, -⟩ := hall before entry after hsplit
  exact ⟨c, u, counts, v, hbefore, processEntries_singleton.1 hrun, hsubmitted⟩

/-- The loop of a run of `handle_backlog` keeps its entries apart, if the run does. -/
theorem BacklogIsolated.entries {σ Text : Type} {json : NlohmannText Text} {server : Server σ Text}
    {apiPath : Str} {config : Config} {file : Text} {entries : List Json} {w : World σ Text}
    (hvalid : w.Valid) (h : BacklogIsolated json server apiPath config file entries w) :
    ∃ userId u, currentUserId json server apiPath w = .ok userId u ∧ u.Valid ∧
      EntriesIsolated json server apiPath config userId entries u := by
  obtain ⟨userId, u, huser, hu⟩ : ∃ userId u,
      currentUserId json server apiPath w = .ok userId u ∧
        Created json apiPath (w.creations json apiPath) u :=
    ensures_currentUserId w ⟨hvalid, rfl⟩
  exact ⟨userId, u, huser, hu.valid, h.2 userId u huser⟩

/-- The file of the empty configuration. -/
def configFile : Json :=
  .object [(lit "BaseURL", .string []), (lit "BoardID", .integer 0), (lit "ColumnID", .integer 0),
    (lit "LaneID", .integer 0), (lit "LogLevel", .string []), (lit "Port", .string []),
    (lit "Role", .string []), (lit "SpaceID", .integer 0), (lit "Tags", .array []),
    (lit "TaskSize", .integer 0), (lit "TaskTypeId", .integer 0), (lit "Token", .string [])]

/-- A backlog. -/
def backlogOf (entries : List Json) : Json := .object [(lit "backlog", .array entries)]

/-- An entry with two tasks. -/
def twoTaskEntry (parent : Str) : Json :=
  .object [(lit "parent", .string parent),
    (lit "tasks", .array [.object [(lit "title", .string (lit "task"))],
      .object [(lit "size", .integer 2), (lit "title", .string (lit "other"))]])]

theorem twoTaskEntry_wellFormed {parent : Str} (h : parent = [] ∨ IsNumber parent) :
    WellFormedEntry (twoTaskEntry parent) := by
  refine ⟨⟨⟨_, rfl⟩, ?_, fun v h => (by cases h), fun v h => (by cases h)⟩, _, rfl, ?_⟩
  · rintro v ⟨⟩
    exact ⟨parent, rfl, h⟩
  · intro task htask
    rcases List.mem_cons.1 htask with rfl | htask
    · refine ⟨⟨_, rfl⟩, ?_, fun v h => (by cases h)⟩
      rintro v ⟨⟩
      exact ⟨_, rfl, trivial⟩
    · obtain rfl := List.mem_singleton.1 htask
      refine ⟨⟨_, rfl⟩, ?_, ?_⟩
      · rintro v ⟨⟩
        exact ⟨_, rfl, trivial⟩
      · rintro v ⟨⟩
        rfl

theorem twoTaskEntry_seven : WellFormedEntry (twoTaskEntry (lit "7")) :=
  twoTaskEntry_wellFormed (Or.inr ⟨7, by decide +kernel, by decide, by decide⟩)

end Kaiten
