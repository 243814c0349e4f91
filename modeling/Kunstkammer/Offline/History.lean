import Kunstkammer.Offline.Replay

/-!
# The queue and its history

Nothing is in the queue that was not put there, and everything is in the order in which it was put
there: over calls of all public methods, restarts, and crashes of the process.

* `Life`, `live`: what happens to a manager on its path;
* `Within json history w`: memory and file hold parts of the history, in its order;
* `Within.call`, `Within.live`: this is kept by what happens;
* `queue_in_order`: so it holds after every run.
-/

namespace Kaiten.Offline

variable {Text : Type}

/-- What happens to a manager: a call, a restart, or a crash, which leaves the file as it is or,
in the middle of a save, empty.  After the last two there is a new manager on the path. -/
inductive Life
  | call (m : Method)
  | restart (opens : Bool)
  | crash (torn : Bool)

/-- One of these. -/
def live (json : Nlohmann Text) (kind : MutexKind) (w : World Text) :
    Life → Option (World Text × Reply)
  | .call m => call json kind w m
  | .restart opens => (restart json kind opens w).map fun r => (r.2, .flag r.1)
  | .crash torn =>
      (reopen json kind (if torn then some json.empty else w.file)).map fun r => (r.2, .flag r.1)

/-- The machine of a path and the managers on it. -/
def life (json : Nlohmann Text) (kind : MutexKind) : Machine (World Text) Life Reply :=
  ⟨live json kind⟩

/-- The operation that a method queues. -/
def Method.queued : Method → Option Operation
  | .queueOperation op _ => some op
  | _ => none

/-- The operation that is queued. -/
def Life.queued : Life → Option Operation
  | .call m => m.queued
  | _ => none

/-- The operations in memory and those in the file are parts of the history, in its order; they may
be completed, and the file has their times in milliseconds. -/
structure Within (json : Nlohmann Text) (history : List Operation) (w : World Text) : Prop where
  memory : (w.manager.operations.map Operation.content).Sublist history
  file : ((opened json w.file).manager.operations.map Operation.content).Sublist history

section Rules

variable {json : Nlohmann Text} {kind : MutexKind} {history history' : List Operation}
  {w : World Text}

theorem Within.mono (h : Within json history w) (hsub : history.Sublist history') :
    Within json history' w :=
  ⟨h.memory.trans hsub, h.file.trans hsub⟩

variable (json) in
/-- A load leaves the operations alone, or has those of a new manager. -/
theorem loadOperations_operations (w : World Text) :
    (loadOperations json w).2.manager.operations = w.manager.operations ∨
      (loadOperations json w).2.manager.operations =
        (opened json w.file).manager.operations := by
  cases hfile : w.file with
  | none =>
    rw [loadOperations_of_absent json hfile]
    exact Or.inl rfl
  | some text =>
    cases hparse : json.parse text with
    | none =>
      rw [loadOperations_of_unparsed hfile hparse]
      exact Or.inl rfl
    | some j =>
      have hread := (loadOperations_of_parse (w := construct (some text)) rfl hparse).2.1
      rw [(loadOperations_of_parse hfile hparse).2.1]
      exact Or.inr hread.symm

theorem Within.load (h : Within json history w) :
    Within json history (loadOperations json w).2 := by
  refine ⟨?_, ?_⟩
  · rcases loadOperations_operations json w with hsame | hread
    · rw [hsame]
      exact h.memory
    · rw [hread]
      exact h.file
  · rw [loadOperations_snd]
    exact h.file

/-- Other operations in memory are saved. -/
theorem Within.save (h : Within json history w) (manager : Manager)
    (hsub : (manager.operations.map Operation.content).Sublist history) (opens : Bool) :
    Within json history (saveOperations json opens { w with manager }).2 := by
  refine ⟨?_, ?_⟩
  · rw [saveOperations_manager]
    exact hsub
  · unfold saveOperations
    split_ifs
    · split
      · rename_i text hdump
        have hstored : Stored json manager.operations manager.lastSync (some text) :=
          ⟨text, rfl, hdump⟩
        rw [opened_of_stored hstored, map_content_truncated]
        exact hsub
      · rw [opened_empty]
        exact List.nil_sublist _
    · exact h.file

theorem Within.lockGuard {α : Type} {body : World Text → Option (α × World Text)}
    (hbody : ∀ w r, Within json history w → body w = some r → Within json history' r.2)
    (h : Within json history w) {r : α × World Text} (hr : lockGuard kind body w = some r) :
    Within json history' r.2 := by
  unfold Offline.lockGuard at hr
  split_ifs at hr
  obtain ⟨r', hr', rfl⟩ := Option.map_eq_some_iff.1 hr
  have hbefore : Within json history { w with depth := w.depth + 1 } := ⟨h.memory, h.file⟩
  have hafter := hbody _ _ hbefore hr'
  exact ⟨hafter.memory, hafter.file⟩

theorem Within.markOperationCompleted (h : Within json history w) {id : Str} {opens : Bool}
    {r : Bool × World Text} (hr : markOperationCompleted json kind id opens w = some r) :
    Within json history r.2 := by
  refine h.lockGuard (fun w r hw hr => ?_) hr
  split at hr
  · rename_i operations hcomplete
    cases hr
    refine hw.save _ ?_ opens
    rw [map_content_completeFirst hcomplete]
    exact hw.memory
  · cases hr
    exact hw

theorem Within.processLoop {process : Operation → Bool} {opens : ℕ → Bool}
    {pending : List Operation} {processed : ℕ} (h : Within json history w) {r : ℕ × World Text}
    (hr : processLoop json kind process opens pending processed w = some r) :
    Within json history r.2 := by
  induction pending generalizing processed w with
  | nil =>
    cases hr
    exact h
  | cons op pending ih =>
    unfold Offline.processLoop at hr
    split_ifs at hr
    · obtain ⟨r', hr', hr⟩ := Option.bind_eq_some_iff.1 hr
      exact ih (h.markOperationCompleted hr') hr
    · exact ih h hr

theorem Within.processPendingOperations {process : Operation → Bool} {now : Int64}
    {opens : ℕ → Bool} (h : Within json history w) {r : ℕ × World Text}
    (hr : processPendingOperations json kind process now opens w = some r) :
    Within json history r.2 := by
  refine h.lockGuard (fun w r hw hr => ?_) hr
  dsimp only at hr
  split_ifs at hr
  · cases hr
    exact hw
  · obtain ⟨pending, hpending, hr⟩ := Option.bind_eq_some_iff.1 hr
    obtain ⟨r', hr', rfl⟩ := Option.map_eq_some_iff.1 hr
    have hread : Within json history pending.2 :=
      hw.lockGuard (fun w r hw hr => by cases hr; exact hw) hpending
    have hloop := hread.processLoop hr'
    split_ifs
    · exact hloop.save { r'.2.manager with lastSync := now } hloop.memory _
    · exact hloop

/-- A call adds the operation it queues to the history, if it is one that does. -/
theorem Within.call (h : Within json history w) {m : Method} {r : World Text × Reply}
    (hr : call json kind w m = some r) :
    Within json (history ++ m.queued.toList.map Operation.content) r.1 := by
  have hsub : history.Sublist (history ++ m.queued.toList.map Operation.content) :=
    List.sublist_append_left _ _
  cases m with
  | initializeManager dirOk =>
    obtain ⟨r', hr', rfl⟩ := Option.map_eq_some_iff.1 hr
    refine (h.lockGuard (fun w r hw hr => ?_) hr').mono hsub
    split_ifs at hr
    · cases hr
      exact ⟨hw.load.memory, hw.load.file⟩
    · cases hr
      exact hw
  | isInitialized =>
    cases hr
    exact h.mono hsub
  | isOfflineMode =>
    cases hr
    exact h.mono hsub
  | setOfflineMode enabled =>
    obtain ⟨r', hr', rfl⟩ := Option.map_eq_some_iff.1 hr
    refine (h.lockGuard (fun w r hw hr => ?_) hr').mono hsub
    cases hr
    exact ⟨hw.memory, hw.file⟩
  | queueOperation op opens =>
    obtain ⟨r', hr', rfl⟩ := Option.map_eq_some_iff.1 hr
    refine h.lockGuard (fun w r hw hr => ?_) hr'
    split_ifs at hr
    · cases hr
      refine (hw.mono hsub).save _ ?_ opens
      rw [List.map_append]
      exact hw.memory.append_right _
    · cases hr
      exact hw.mono hsub
  | getPendingOperations =>
    obtain ⟨r', hr', rfl⟩ := Option.map_eq_some_iff.1 hr
    refine (h.lockGuard (fun w r hw hr => ?_) hr').mono hsub
    cases hr
    exact hw
  | markOperationCompleted id opens =>
    obtain ⟨r', hr', rfl⟩ := Option.map_eq_some_iff.1 hr
    exact (h.markOperationCompleted hr').mono hsub
  | removeOperation id opens =>
    obtain ⟨r', hr', rfl⟩ := Option.map_eq_some_iff.1 hr
    refine (h.lockGuard (fun w r hw hr => ?_) hr').mono hsub
    split_ifs at hr
    · cases hr
      exact hw.save _ ((List.filter_sublist.map _).trans hw.memory) opens
    · cases hr
      exact hw
  | clearCompletedOperations opens =>
    obtain ⟨r', hr', rfl⟩ := Option.map_eq_some_iff.1 hr
    refine (h.lockGuard (fun w r hw hr => ?_) hr').mono hsub
    split_ifs at hr
    · cases hr
      exact hw.save _ ((List.filter_sublist.map _).trans hw.memory) opens
    · cases hr
      exact hw
  | processPendingOperations process now opens =>
    obtain ⟨r', hr', rfl⟩ := Option.map_eq_some_iff.1 hr
    exact (h.processPendingOperations hr').mono hsub
  | getStats =>
    obtain ⟨r', hr', rfl⟩ := Option.map_eq_some_iff.1 hr
    refine (h.lockGuard (fun w r hw hr => ?_) hr').mono hsub
    cases hr
    exact hw
  | saveState opens =>
    cases hr
    exact (h.save _ h.memory opens).mono hsub
  | loadState =>
    cases hr
    exact h.load.mono hsub

/-- A new manager has the operations of the file. -/
theorem within_reopen {file : Option Text}
    (h : ((opened json file).manager.operations.map Operation.content).Sublist history)
    {r : Bool × World Text} (hr : reopen json kind file = some r) : Within json history r.2 := by
  have hfree : Lockable kind (construct file) := .inl rfl
  have hreopen : reopen json kind file = some (true, opened json file) :=
    (initializeManager_eq hfree true).trans (if_pos rfl)
  rw [hreopen] at hr
  cases hr
  refine ⟨h, ?_⟩
  rw [opened_file]
  exact h

theorem Within.destroy (h : Within json history w) (opens : Bool) :
    ((opened json (destroy json opens w)).manager.operations.map Operation.content).Sublist
      history := by
  unfold Offline.destroy
  split_ifs
  · exact (h.save _ h.memory opens).file
  · exact h.file

theorem Within.live (h : Within json history w) {e : Life} {r : World Text × Reply}
    (hr : live json kind w e = some r) :
    Within json (history ++ e.queued.toList.map Operation.content) r.1 := by
  cases e with
  | call m => exact h.call hr
  | restart opens =>
    rw [Offline.live] at hr
    obtain ⟨r', hr', rfl⟩ := Option.map_eq_some_iff.1 hr
    exact (within_reopen (h.destroy opens) hr').mono (List.sublist_append_left _ _)
  | crash torn =>
    rw [Offline.live] at hr
    obtain ⟨r', hr', rfl⟩ := Option.map_eq_some_iff.1 hr
    refine (within_reopen ?_ hr').mono (List.sublist_append_left _ _)
    split_ifs
    · rw [opened_empty]
      exact List.nil_sublist _
    · exact h.file

theorem Within.run {xs : List Life} {t : World Text} (h : Within json history w)
    (hrun : (life json kind).run w xs = some t) :
    Within json (history ++ (xs.filterMap Life.queued).map Operation.content) t := by
  induction xs generalizing w history with
  | nil =>
    cases hrun
    exact h.mono (List.sublist_append_left _ _)
  | cons e xs ih =>
    rw [Machine.run_cons, Option.bind_eq_some_iff] at hrun
    obtain ⟨u, hu, hrun⟩ := hrun
    obtain ⟨reply, hstep⟩ := Machine.next_eq_some.1 hu
    have hrest := ih (h.live hstep) hrun
    have hqueued : (e :: xs).filterMap Life.queued =
        e.queued.toList ++ xs.filterMap Life.queued := by
      cases hop : e.queued with
      | none => rw [List.filterMap_cons_none hop]; rfl
      | some op => rw [List.filterMap_cons_some hop]; rfl
    rw [hqueued, List.map_append, ← List.append_assoc]
    exact hrest

end Rules

/-- **Nothing is in the queue that was not put there**: after every run on a path, with failing
saves, restarts and crashes, the operations of the manager, up to their completion, are some of
those that the file held at first and of those queued since, in this order and each at most as
often; and so it is with those in the file. -/
theorem queue_in_order {json : Nlohmann Text} {kind : MutexKind} {file : Option Text}
    {xs : List Life} {w : World Text} (h : (life json kind).run (construct file) xs = some w) :
    Within json (((opened json file).manager.operations ++ xs.filterMap Life.queued).map
      Operation.content) w := by
  have hstart : Within json ((opened json file).manager.operations.map Operation.content)
      (construct file) := ⟨List.nil_sublist _, List.Sublist.refl _⟩
  rw [List.map_append]
  exact hstart.run h

/-- An operation is queued, and the process is killed while it saves a second one. -/
theorem queue_in_order_crash : ∃ w, (life .symbolic .plain).run (construct none)
      [.call (.initializeManager true), .call (.queueOperation sampleOperation true), .crash false,
        .call (.queueOperation sampleOperation true), .crash true] = some w ∧
    Within .symbolic ([sampleOperation, sampleOperation].map Operation.content) w := by
  obtain ⟨w, hrun⟩ : ∃ w, (life .symbolic .plain).run (construct none)
    [.call (.initializeManager true), .call (.queueOperation sampleOperation true), .crash false,
      .call (.queueOperation sampleOperation true), .crash true] = some w := ⟨_, rfl⟩
  exact ⟨w, hrun, queue_in_order hrun⟩

end Kaiten.Offline
