import Kunstkammer.Offline.Mirror

/-!
# What survives a restart

The operations for which `queue_operation` returned true, over runs with failed saves and
restarts.  A save truncates the file before it can fail, so it takes with it what earlier saves
had stored.

* `Operation.content`: an operation without its completed flag and below-millisecond times;
* `Tracked`: a manager, and for each of its operations whether it was accepted;
  `owed`: what the accepted operations must still be found with;
* `tracker`: the machine whose events are the methods in question and restarts;
* `Tracks`: the invariant, kept by every step that loses nothing (`Tracks.next`);
* `survives_iff`: the runs in which nothing accepted is lost.
-/

namespace Kaiten.Offline

variable {Text : Type} {json : Nlohmann Text} {w : World Text}

/-! ### Operations up to completion -/

/-- What stays of an operation when it is completed or written to the file. -/
def Operation.content (op : Operation) : Operation :=
  { op.truncated with completed := false }

theorem Operation.content_truncated (op : Operation) : op.truncated.content = op.content := by
  unfold Operation.content
  rw [Operation.truncated_truncated]

theorem Operation.content_completed (op : Operation) (b : Bool) :
    { op with completed := b }.content = op.content := by
  cases op; rfl

theorem map_content_truncated (operations : List Operation) :
    (operations.map Operation.truncated).map Operation.content =
      operations.map Operation.content := by
  rw [List.map_map]
  exact List.map_congr_left fun op _ => op.content_truncated

theorem map_content_completeFirst {id : Str} {operations operations' : List Operation}
    (h : completeFirst id operations = some operations') :
    operations'.map Operation.content = operations.map Operation.content := by
  obtain ⟨front, op, rest, rfl, -, -, rfl⟩ := completeFirst_eq_some h
  rw [List.map_append, List.map_append, List.map_cons, List.map_cons, Operation.content_completed]

/-! ### The file across a restart -/

theorem opened_of_stored {operations : List Operation} {lastSync : Int64} {file : Option Text}
    (h : Stored json operations lastSync file) :
    (opened json file).manager.operations = operations.map Operation.truncated := by
  rw [h.opened]

theorem opened_file (file : Option Text) : (opened json file).file = file := by
  unfold opened
  rw [loadOperations_snd]
  rfl

theorem opened_empty : (opened json (some json.empty)).manager.operations = [] := by
  unfold opened loadOperations construct
  dsimp only
  rw [json.parse_empty]

/-- A file that is opened and cannot be written is left empty. -/
theorem saveState_of_invalid (h : w.manager.operations.all Operation.validUtf8 = false) :
    (saveState json true w).2.file = some json.empty := by
  have hnone := json.dump_isSome (encodeState w.manager.operations w.manager.lastSync)
  rw [encodeState_validUtf8, h, Option.isSome_eq_false_iff, Option.isNone_iff_eq_none] at hnone
  unfold saveState saveOperations
  rw [if_pos rfl, hnone]

theorem restart_eq (opens : Bool) (w : World Text) :
    restart json .plain opens w = some (true, opened json (destroy json opens w)) :=
  reopen_eq _

/-! ### Accepted operations -/

/-- A manager, and each of its operations with whether `queue_operation` returned true for it. -/
structure Tracked (Text : Type) where
  world : World Text
  ledger : List (Operation × Bool)

/-- The contents of the accepted operations. -/
def owed (ledger : List (Operation × Bool)) : List Operation :=
  (ledger.filter Prod.snd).map fun x => x.1.content

/-- Operations with the marks at the same places of `ledger`. -/
def carry (operations : List Operation) (ledger : List (Operation × Bool)) :
    List (Operation × Bool) :=
  operations.zip (ledger.map Prod.snd)

/-- Accept the operations with the contents `contents`, each at the first place. -/
def recover : List Operation → List Operation → List (Operation × Bool)
  | _, [] => []
  | [], op :: operations => (op, false) :: recover [] operations
  | c :: contents, op :: operations =>
      if op.content = c then (op, true) :: recover contents operations
      else (op, false) :: recover (c :: contents) operations

/-- The marks after a restart that has read `operations`: the same places when the contents are
the same, or else what can be recognised. -/
def carryOver (operations : List Operation) (ledger : List (Operation × Bool)) :
    List (Operation × Bool) :=
  if operations.map Operation.content = ledger.map (fun x => x.1.content) then
    carry operations ledger
  else recover (owed ledger) operations

/-- A call of one of the methods, or a restart. -/
inductive Event
  | queueOperation (op : Operation) (opens : Bool)
  | markOperationCompleted (id : Str) (opens : Bool)
  | removeOperation (id : Str) (opens : Bool)
  | clearCompletedOperations (opens : Bool)
  | saveState (opens : Bool)
  | restart (opens : Bool)

/-- An event, with what it does to the ledger. -/
def track (json : Nlohmann Text) (t : Tracked Text) : Event → Option (Tracked Text × Bool)
  | .queueOperation op opens => (queueOperation json .plain op opens t.world).map fun r =>
      (⟨r.2, t.ledger ++ [(op, r.1)]⟩, r.1)
  | .markOperationCompleted id opens =>
      (markOperationCompleted json .plain id opens t.world).map fun r =>
        (⟨r.2, carry r.2.manager.operations t.ledger⟩, r.1)
  | .removeOperation id opens => (removeOperation json .plain id opens t.world).map fun r =>
      (⟨r.2, t.ledger.filter fun x => !(x.1.id = id)⟩, r.1)
  | .clearCompletedOperations opens =>
      (clearCompletedOperations json .plain opens t.world).map fun r =>
        (⟨r.2, t.ledger.filter fun x => !x.1.completed⟩, r.1)
  | .saveState opens => some (⟨(saveState json opens t.world).2, t.ledger⟩,
      (saveState json opens t.world).1)
  | .restart opens => (restart json .plain opens t.world).map fun r =>
      (⟨r.2, carryOver r.2.manager.operations t.ledger⟩, r.1)

/-- The machine whose events are calls and restarts. -/
def tracker (json : Nlohmann Text) : Machine (Tracked Text) Event Bool := ⟨track json⟩

/-- A manager that was just initialized on a path with the file `file`. -/
def Tracked.start (json : Nlohmann Text) (file : Option Text) : Tracked Text where
  world := opened json file
  ledger := (opened json file).manager.operations.map fun op => (op, false)

/-- After a restart, every accepted operation is there, with its multiplicity. -/
def Survives (t : Tracked Text) (e : Event) (t' : Tracked Text) : Prop :=
  match e with
  | .restart _ => (owed t.ledger).Sublist (t'.world.manager.operations.map Operation.content)
  | _ => True

/-- At a restart, nothing has been accepted, or the last save of the manager succeeds, or it cannot
open the file and no earlier save has emptied the file. -/
def Restorable (json : Nlohmann Text) (t : Tracked Text) : Event → Prop
  | .restart opens => owed t.ledger = [] ∨
      if opens then t.world.manager.operations.all Operation.validUtf8 = true
      else t.world.file ≠ some json.empty
  | _ => True

theorem carry_fst {operations : List Operation} {ledger : List (Operation × Bool)}
    (h : operations.length = ledger.length) : (carry operations ledger).map Prod.fst = operations :=
  List.map_fst_zip (by rw [List.length_map, h])

/-- What is owed depends on the contents only. -/
theorem owed_carry {operations : List Operation} {ledger : List (Operation × Bool)}
    (h : operations.map Operation.content = ledger.map fun x => x.1.content) :
    owed (carry operations ledger) = owed ledger := by
  induction ledger generalizing operations with
  | nil => rw [List.map_eq_nil_iff.1 h]; rfl
  | cons x ledger ih =>
    cases operations with
    | nil => cases h
    | cons op operations =>
      obtain ⟨hop, hrest⟩ := List.cons.inj h
      have hcarry : carry (op :: operations) (x :: ledger) = (op, x.2) :: carry operations ledger :=
        rfl
      unfold owed at ih ⊢
      rw [hcarry, List.filter_cons, List.filter_cons]
      split_ifs
      · rw [List.map_cons, List.map_cons, ih hrest, hop]
      · exact ih hrest

theorem recover_fst (contents operations : List Operation) :
    (recover contents operations).map Prod.fst = operations := by
  induction operations generalizing contents with
  | nil => cases contents <;> rfl
  | cons op operations ih =>
    cases contents with
    | nil => exact congrArg (op :: ·) (ih [])
    | cons c contents =>
      unfold recover
      split_ifs
      · exact congrArg (op :: ·) (ih contents)
      · exact congrArg (op :: ·) (ih (c :: contents))

/-- Everything that can be found is recognised. -/
theorem owed_recover {contents operations : List Operation}
    (h : contents.Sublist (operations.map Operation.content)) :
    owed (recover contents operations) = contents := by
  induction operations generalizing contents with
  | nil => rw [List.sublist_nil.1 h]; rfl
  | cons op operations ih =>
    cases contents with
    | nil => exact ih (List.nil_sublist _)
    | cons c contents =>
      rw [List.map_cons, List.cons_sublist_cons'] at h
      unfold recover
      split_ifs with hc
      · subst hc
        have hrest : contents.Sublist (operations.map Operation.content) :=
          h.elim (fun h => (List.sublist_cons_self _ _).trans h) And.right
        exact congrArg (op.content :: ·) (ih hrest)
      · exact ih (h.resolve_right fun h => hc h.1.symm)

theorem carryOver_fst (operations : List Operation) (ledger : List (Operation × Bool)) :
    (carryOver operations ledger).map Prod.fst = operations := by
  unfold carryOver
  split_ifs with h
  · exact carry_fst (by simpa using congrArg List.length h)
  · exact recover_fst _ _

theorem owed_carryOver {operations : List Operation} {ledger : List (Operation × Bool)}
    (h : (owed ledger).Sublist (operations.map Operation.content)) :
    owed (carryOver operations ledger) = owed ledger := by
  unfold carryOver
  split_ifs with hcontents
  · exact owed_carry hcontents
  · exact owed_recover h

theorem owed_sublist {ledger : List (Operation × Bool)} {operations : List Operation}
    (h : ledger.map Prod.fst = operations) :
    (owed ledger).Sublist (operations.map Operation.content) := by
  rw [← h, List.map_map]
  exact List.filter_sublist.map _

theorem owed_filter_sublist (p : Operation × Bool → Bool) (ledger : List (Operation × Bool)) :
    (owed (ledger.filter p)).Sublist (owed ledger) :=
  (List.filter_sublist.filter _).map _

theorem owed_append_rejected (ledger : List (Operation × Bool)) (op : Operation) :
    owed (ledger ++ [(op, false)]) = owed ledger := by
  unfold owed
  rw [List.filter_append]
  exact congrArg _ (List.append_nil _)

/-! ### The invariant -/

/-- The file has `contents`, unless it was emptied. -/
def Holds (json : Nlohmann Text) (contents : List Operation) (file : Option Text) : Prop :=
  contents = [] ∨ file = some json.empty ∨ ∃ operations lastSync,
    Stored json operations lastSync file ∧ contents.Sublist (operations.map Operation.content)

theorem Holds.sublist {contents contents' : List Operation} {file : Option Text}
    (h : Holds json contents file) (hsub : contents'.Sublist contents) :
    Holds json contents' file := by
  rcases h with rfl | hempty | ⟨operations, lastSync, hstored, hcontents⟩
  · exact Or.inl (List.sublist_nil.1 hsub)
  · exact Or.inr (Or.inl hempty)
  · exact Or.inr (Or.inr ⟨operations, lastSync, hstored, hsub.trans hcontents⟩)

/-- A manager whose mutex is free, and what it owes is in the file or the file is empty. -/
structure Tracks (json : Nlohmann Text) (t : Tracked Text) : Prop where
  free : t.world.depth = 0
  initialized : t.world.manager.initialized = true
  operations : t.ledger.map Prod.fst = t.world.manager.operations
  file : Holds json (owed t.ledger) t.world.file

/-- A save keeps what the file holds, unless it empties it. -/
theorem holds_saveOperations {opens : Bool} {contents : List Operation}
    (hsub : contents.Sublist (w.manager.operations.map Operation.content))
    (hkeep : (saveOperations json opens w).1 = true ∨ Holds json contents w.file) :
    Holds json contents (saveOperations json opens w).2.file := by
  unfold saveOperations at hkeep ⊢
  split_ifs at hkeep ⊢
  · cases hdump : json.dump (encodeState w.manager.operations w.manager.lastSync) with
    | some text => exact Or.inr (Or.inr ⟨_, _, ⟨text, rfl, hdump⟩, hsub⟩)
    | none => exact Or.inr (Or.inl rfl)
  · exact hkeep.resolve_left id

/-- What every method that changes the operations does: replace them, and save. -/
theorem Tracks.save {t : Tracked Text} (h : Tracks json t) {opens : Bool}
    {operations : List Operation} {ledger : List (Operation × Bool)}
    (hops : ledger.map Prod.fst = operations)
    (howed : (saveOperations json opens (t.world.setOperations operations)).1 = true ∨
      (owed ledger).Sublist (owed t.ledger)) :
    Tracks json ⟨(saveOperations json opens (t.world.setOperations operations)).2, ledger⟩ where
  free := (saveOperations_depth opens _).trans h.free
  initialized := by
    rw [saveOperations_manager]
    exact h.initialized
  operations := by
    rw [saveOperations_manager]
    exact hops
  file := holds_saveOperations (owed_sublist hops) (howed.imp_right h.file.sublist)

theorem Tracks.keep {t : Tracked Text} (h : Tracks json t) {ledger : List (Operation × Bool)}
    (hops : ledger.map Prod.fst = t.world.manager.operations)
    (howed : (owed ledger).Sublist (owed t.ledger)) : Tracks json ⟨t.world, ledger⟩ :=
  ⟨h.free, h.initialized, hops, h.file.sublist howed⟩

/-- Dropping the operations that do not satisfy `p`, with a save unless there are none. -/
theorem Tracks.discard {t : Tracked Text} (h : Tracks json t) (opens : Bool)
    {p : Operation → Bool} {w' : World Text} (hw' : w' = (saveOperations json opens
        (t.world.setOperations (t.world.manager.operations.filter p))).2 ∨
      w' = t.world ∧ ∀ op ∈ t.world.manager.operations, p op = true) :
    Tracks json ⟨w', t.ledger.filter fun x => p x.1⟩ := by
  have hledger : (t.ledger.filter fun x => p x.1).map Prod.fst =
      t.world.manager.operations.filter p := by
    rw [← h.operations, List.filter_map]
    rfl
  rcases hw' with rfl | ⟨rfl, hall⟩
  · exact h.save hledger (Or.inr (owed_filter_sublist _ _))
  · exact h.keep (hledger.trans (List.filter_eq_self.2 hall)) (owed_filter_sublist _ _)

theorem Tracks.contents {t : Tracked Text} (h : Tracks json t) :
    t.ledger.map (fun x => x.1.content) = t.world.manager.operations.map Operation.content := by
  rw [← h.operations, List.map_map]
  rfl

/-- Replacing the operations by others with the same contents, and saving them. -/
theorem Tracks.complete {t : Tracked Text} (h : Tracks json t) (opens : Bool)
    {operations : List Operation} (hsame : operations.map Operation.content =
      t.world.manager.operations.map Operation.content) :
    Tracks json ⟨(saveOperations json opens (t.world.setOperations operations)).2,
      carry operations t.ledger⟩ := by
  have hledger := hsame.trans h.contents.symm
  have hlength : operations.length = t.ledger.length := by
    simpa using congrArg List.length hledger
  refine h.save (carry_fst hlength) (Or.inr ?_)
  rw [owed_carry hledger]

/-- Every step that loses nothing keeps the invariant. -/
theorem Tracks.next {t t' : Tracked Text} {e : Event} (h : Tracks json t)
    (hnext : (tracker json).next t e = some t') (hsurvives : Survives t e t') :
    Tracks json t' := by
  obtain ⟨reply, hstep⟩ := Machine.next_eq_some.1 hnext
  cases e with
  | queueOperation op opens =>
    obtain ⟨r, hr, heq⟩ := Option.map_eq_some_iff.1 hstep
    rw [queueOperation_eq (.inl h.free), if_pos h.initialized] at hr
    cases hr
    cases heq
    refine h.save (by rw [List.map_append, h.operations]; rfl) ?_
    cases hsaved : (saveOperations json opens
      (t.world.setOperations (t.world.manager.operations ++ [op]))).1 with
    | true => exact Or.inl rfl
    | false => exact Or.inr (by rw [owed_append_rejected])
  | markOperationCompleted id opens =>
    obtain ⟨r, hr, heq⟩ := Option.map_eq_some_iff.1 hstep
    rw [markOperationCompleted_eq (.inl h.free)] at hr
    split at hr
    · rename_i operations hops
      cases hr
      cases heq
      rw [saveOperations_manager]
      exact h.complete opens (map_content_completeFirst hops)
    · cases hr
      cases heq
      refine h.keep (carry_fst ?_) ?_
      · rw [← h.operations, List.length_map]
      · rw [owed_carry h.contents.symm]
  | removeOperation id opens =>
    obtain ⟨r, hr, heq⟩ := Option.map_eq_some_iff.1 hstep
    rw [removeOperation_eq (.inl h.free)] at hr
    split_ifs at hr with hany
    · cases hr
      cases heq
      exact h.discard opens (Or.inl rfl)
    · cases hr
      cases heq
      exact h.discard opens (Or.inr ⟨rfl, keeps_of_not_any hany⟩)
  | clearCompletedOperations opens =>
    obtain ⟨r, hr, heq⟩ := Option.map_eq_some_iff.1 hstep
    rw [clearCompletedOperations_eq (.inl h.free)] at hr
    split_ifs at hr with hany
    · cases hr
      cases heq
      exact h.discard opens (Or.inl rfl)
    · cases hr
      cases heq
      exact h.discard opens (Or.inr ⟨rfl, keeps_of_not_any hany⟩)
  | saveState opens =>
    cases hstep
    exact h.save h.operations (Or.inr (List.Sublist.refl _))
  | restart opens =>
    simp only [tracker, track, restart_eq, Option.map_some] at hstep
    cases hstep
    -- the new manager does not touch the file that the destructor has left
    have hfile : Holds json (owed t.ledger) (destroy json opens t.world) := by
      unfold destroy
      rw [if_pos h.initialized]
      exact holds_saveOperations (owed_sublist h.operations) (Or.inr h.file)
    refine ⟨loadOperations_depth _, rfl, carryOver_fst _ _, ?_⟩
    rw [owed_carryOver hsurvives, opened_file]
    exact hfile

/-- A restart loses everything that was accepted, or nothing. -/
theorem Tracks.survives_iff {t t' : Tracked Text} {e : Event} (h : Tracks json t)
    (hnext : (tracker json).next t e = some t') : Survives t e t' ↔ Restorable json t e := by
  cases e with
  | restart opens =>
    obtain ⟨reply, hstep⟩ := Machine.next_eq_some.1 hnext
    simp only [tracker, track, restart_eq, Option.map_some] at hstep
    cases hstep
    have hdestroy : destroy json opens t.world = (saveState json opens t.world).2.file := by
      unfold destroy
      rw [if_pos h.initialized]
    have hempty : destroy json opens t.world = some json.empty →
        ((owed t.ledger).Sublist ((opened json (destroy json opens t.world)).manager.operations.map
          Operation.content) ↔ owed t.ledger = []) := by
      intro heq
      rw [heq, opened_empty]
      exact List.sublist_nil
    unfold Survives Restorable
    cases opens with
    | true =>
      cases hvalid : t.world.manager.operations.all Operation.validUtf8 with
      | true =>
        refine iff_of_true ?_ (Or.inr rfl)
        rw [hdestroy, opened_of_stored (stored_saveState json hvalid).2, map_content_truncated]
        exact owed_sublist h.operations
      | false =>
        refine (hempty (hdestroy.trans (saveState_of_invalid hvalid))).trans ?_
        exact (or_iff_left Bool.false_ne_true).symm
    | false =>
      have hfile : destroy json false t.world = t.world.file := hdestroy
      -- without a save, what counts is the file as it is
      by_cases heq : t.world.file = some json.empty
      · exact (hempty (hfile.trans heq)).trans (or_iff_left (not_not_intro heq)).symm
      · refine iff_of_true ?_ (Or.inr heq)
        rw [hfile]
        rcases h.file with hnil | hempty | ⟨operations, lastSync, hstored, hsub⟩
        · rw [hnil]
          exact List.nil_sublist _
        · exact absurd hempty heq
        · rw [opened_of_stored hstored, map_content_truncated]
          exact hsub
  | queueOperation op opens => exact iff_of_true trivial trivial
  | markOperationCompleted id opens => exact iff_of_true trivial trivial
  | removeOperation id opens => exact iff_of_true trivial trivial
  | clearCompletedOperations opens => exact iff_of_true trivial trivial
  | saveState opens => exact iff_of_true trivial trivial

theorem owed_start (file : Option Text) : owed (Tracked.start json file).ledger = [] := by
  unfold owed Tracked.start
  rw [List.filter_map]
  simp [Function.comp_def]

theorem tracks_start (file : Option Text) : Tracks json (Tracked.start json file) where
  free := loadOperations_depth _
  initialized := rfl
  operations := by
    unfold Tracked.start
    rw [List.map_map]
    exact List.map_id _
  file := Or.inl (owed_start file)

/-- **What survives.**  Along a run of an initialized manager, every restart brings back all
accepted operations exactly when every restart meets the condition on the last save. -/
theorem along_survives_iff (json : Nlohmann Text) (file : Option Text) (es : List Event) :
    (tracker json).Along Survives (Tracked.start json file) es ↔
      (tracker json).Along (fun t e _ => Restorable json t e) (Tracked.start json file) es :=
  Machine.along_congr (fun _ _ _ h hnext hsurvives => h.next hnext hsurvives)
    (fun _ _ _ h hnext => h.survives_iff hnext) (tracks_start file) es

/-- An operation whose payload is the byte `0xff`, which is no UTF-8. -/
def illFormedOperation : Operation := { sampleOperation with id := lit "op_2", data := [0xff] }

/-- A good operation is queued, then a bad one. -/
def lossRun : List Event :=
  [.queueOperation sampleOperation true, .queueOperation illFormedOperation true]

/-- The failed save of the second operation takes the first one with it. -/
theorem accepted_operation_lost :
    ∃ t t', (tracker .symbolic).run (Tracked.start .symbolic none) lossRun = some t ∧
      (tracker .symbolic).next t (.restart true) = some t' ∧
      owed t.ledger = [sampleOperation.content] ∧ t'.world.manager.operations = [] ∧
      ¬ Survives t (.restart true) t' := by
  refine ⟨_, _, rfl, rfl, rfl, rfl, ?_⟩
  intro h
  exact absurd (List.sublist_nil.1 h) (List.cons_ne_nil _ _)

end Kaiten.Offline
