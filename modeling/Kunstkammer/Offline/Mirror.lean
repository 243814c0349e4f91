import Kunstkammer.Offline.Locks

/-!
# The file mirrors the queue

As long as every save succeeds, the file holds the operations in memory, and a manager that reads
it has the same operations, with times cut to milliseconds.

* `Stored`: the file holds these operations and this time of the last synchronisation;
* `Stored.load`, `Stored.reopen`: what is read back from such a file;
* `Mirrors`: the invariant, kept by every call (`covers_mirrors`);
* `reopened_mirrors`: what a new manager on the same path has.
-/

namespace Kaiten.Offline

variable {Text : Type} {json : Nlohmann Text} {w : World Text}

/-! ### Reading back what was saved -/

/-- The file holds `operations` and `lastSync`. -/
def Stored (json : Nlohmann Text) (operations : List Operation) (lastSync : Int64)
    (file : Option Text) : Prop :=
  ∃ text, file = some text ∧ json.dump (encodeState operations lastSync) = some text

theorem encodeOperation_truncated (op : Operation) :
    encodeOperation op.truncated = encodeOperation op := by
  cases op
  unfold encodeOperation Operation.truncated
  dsimp only
  rw [toMillis_truncateMillis]

/-- The file does not tell an operation from its truncation. -/
theorem encodeState_truncated (operations : List Operation) (lastSync : Int64) :
    encodeState (operations.map Operation.truncated) (truncateMillis lastSync) =
      encodeState operations lastSync := by
  unfold encodeState
  rw [List.map_map, toMillis_truncateMillis]
  simp only [Function.comp_def, encodeOperation_truncated]

/-- A new manager on a path with the file `file`, after `initialize`. -/
def opened (json : Nlohmann Text) (file : Option Text) : World Text :=
  let w := (loadOperations json (construct file)).2
  { w with manager := { w.manager with initialized := true } }

theorem reopen_eq (file : Option Text) :
    reopen json .plain file = some (true, opened json file) :=
  (initializeManager_eq (.inl rfl) true).trans (if_pos rfl)

section Stored

variable {operations : List Operation} {lastSync : Int64}

theorem Stored.truncated {file : Option Text} (h : Stored json operations lastSync file) :
    Stored json (operations.map Operation.truncated) (truncateMillis lastSync) file := by
  unfold Stored
  rw [encodeState_truncated]
  exact h

/-- The state of a manager that has read a file with `operations` and `lastSync`. -/
def World.withStored (w : World Text) (operations : List Operation) (lastSync : Int64) :
    World Text :=
  { w with manager := { w.manager with
      operations := operations.map Operation.truncated, lastSync := truncateMillis lastSync } }

/-- Loading undoes saving, up to the truncation of times. -/
theorem Stored.load (h : Stored json operations lastSync w.file) :
    loadOperations json w = (true, w.withStored operations lastSync) := by
  obtain ⟨text, hfile, hdump⟩ := h
  have hparse := json.parse_dump _ _ hdump
  have hstored : storedOperations (encodeState operations lastSync) =
      operations.map encodeOperation := by
    rw [encodeState_eq]; rfl
  have hsync : (encodeState operations lastSync).member? (lit "last_sync") =
      some (.integer (toMillis lastSync).toInt) := by
    rw [encodeState_eq]; rfl
  unfold loadOperations
  rw [hfile]
  dsimp only
  rw [hparse]
  dsimp only
  rw [hstored, decodeOperations_encodeOperation, if_pos rfl, hsync]
  dsimp only
  rw [Json.getInt64_integer]
  rfl

/-- The state of a new manager on the path of such a file. -/
theorem Stored.opened {file : Option Text} (h : Stored json operations lastSync file) :
    opened json file = { manager := {
      operations := operations.map Operation.truncated, initialized := true,
      lastSync := truncateMillis lastSync }, file := file } := by
  have hload : loadOperations json (construct file) = _ := Stored.load h
  unfold Offline.opened
  rw [hload]
  rfl

/-- A new manager on the path of such a file. -/
theorem Stored.reopen {file : Option Text} (h : Stored json operations lastSync file) :
    reopen json .plain file = some (true, { manager := {
      operations := operations.map Operation.truncated, initialized := true,
      lastSync := truncateMillis lastSync }, file := file }) := by
  rw [reopen_eq, h.opened]

end Stored

/-! ### The invariant -/

/-- If every save so far succeeded, the file has the operations in memory, or there is no file
and there are no operations. -/
def Mirrors (json : Nlohmann Text) (w : World Text) : Prop :=
  w.allSaved = true → (w.file = none ∧ w.manager.operations = []) ∨
    Stored json w.manager.operations w.manager.lastSync w.file

theorem mirrors_saveOperations (opens : Bool) (w : World Text) :
    Mirrors json (saveOperations json opens w).2 := by
  unfold saveOperations
  split_ifs
  · split
    · rename_i text htext
      intro _
      exact Or.inr ⟨text, rfl, htext⟩
    · intro hsaved
      cases hsaved
  · intro hsaved
    cases hsaved

theorem loadOperations_allSaved (w : World Text) :
    (loadOperations json w).2.allSaved = w.allSaved := by
  rw [loadOperations_snd]

theorem Mirrors.load (h : Mirrors json w) : Mirrors json (loadOperations json w).2 := by
  intro hsaved
  rw [loadOperations_allSaved] at hsaved
  rcases h hsaved with ⟨hfile, hnil⟩ | hstored
  · rw [loadOperations_of_absent json hfile]
    exact Or.inl ⟨hfile, hnil⟩
  · rw [hstored.load]
    exact Or.inr hstored.truncated

theorem covers_mirrors : Covers json fun w w' => Mirrors json w → Mirrors json w' where
  refl _ := id
  trans h h' := h' ∘ h
  flags _ _ _ hw := hw
  save _ _ opens _ := mirrors_saveOperations opens _
  load _ hw := hw.load
  locked h := h

theorem mirrors_of_reaches (h : (machine json .plain).Reaches (construct none) w) :
    Mirrors json w := by
  refine h.invariant (fun _ => Or.inl ⟨rfl, rfl⟩) fun s m t hs hnext => ?_
  obtain ⟨reply, hcall⟩ := Machine.next_eq_some.1 hnext
  exact covers_mirrors.call hcall hs

/-! ### A new manager on the same path -/

/-- The three counts of `get_stats`. -/
def Stats.counts (s : Stats) : ℕ × ℕ × ℕ :=
  (s.pendingOperations, s.completedOperations, s.totalOperations)

/-- `w'` has what `w` has, with times cut to milliseconds; saving it and reading it back changes
nothing, apart from the initial time of the last synchronisation when there was no file before. -/
structure MirrorOf (json : Nlohmann Text) (w w' : World Text) : Prop where
  operations : w'.manager.operations = w.manager.operations.map Operation.truncated
  lastSync : w.file ≠ none → w'.manager.lastSync = truncateMillis w.manager.lastSync
  pending : (getPendingOperations .plain w').map Prod.fst =
    (getPendingOperations .plain w).map fun r => r.1.map Operation.truncated
  counts : (getStats .plain w').map (fun r => r.1.counts) =
    (getStats .plain w).map fun r => r.1.counts
  again : ∃ w'', (saveState json true w').1 = true ∧
    reopen json .plain (saveState json true w').2.file = some (true, w'') ∧
    w''.manager.operations = w'.manager.operations ∧
    w''.manager.lastSync = truncateMillis w'.manager.lastSync ∧
    (w.file ≠ none → (saveState json true w').2.file = w.file ∧ w''.manager = w'.manager)

theorem pendingOf_truncated (operations : List Operation) :
    pendingOf (operations.map Operation.truncated) =
      (pendingOf operations).map Operation.truncated := by
  unfold pendingOf
  rw [List.filter_map]
  simp only [Function.comp_def, Operation.truncated_completed]

/-- Truncation changes neither the pending operations nor the counts, up to itself. -/
theorem mirrorOf_of_operations {w w' : World Text} (hw : w.depth = 0) (hw' : w'.depth = 0)
    (hops : w'.manager.operations = w.manager.operations.map Operation.truncated)
    (hsync : w.file ≠ none → w'.manager.lastSync = truncateMillis w.manager.lastSync)
    (hagain : ∃ w'', (saveState json true w').1 = true ∧
      reopen json .plain (saveState json true w').2.file = some (true, w'') ∧
      w''.manager.operations = w'.manager.operations ∧
      w''.manager.lastSync = truncateMillis w'.manager.lastSync ∧
      (w.file ≠ none → (saveState json true w').2.file = w.file ∧ w''.manager = w'.manager)) :
    MirrorOf json w w' where
  operations := hops
  lastSync := hsync
  pending := by
    unfold getPendingOperations
    rw [lockGuard_free hw, lockGuard_free hw']
    show some (pendingOf w'.manager.operations) = some ((pendingOf w.manager.operations).map _)
    rw [hops, pendingOf_truncated]
  counts := by
    unfold getStats
    rw [lockGuard_free hw, lockGuard_free hw']
    show some (w'.manager.operations.countP _, w'.manager.operations.countP _, _) =
      some (w.manager.operations.countP _, w.manager.operations.countP _, _)
    rw [hops, List.countP_map, List.countP_map, List.length_map]
    simp only [Function.comp_def, Operation.truncated_completed]
  again := hagain

variable (json) in
/-- A file that can be written is written with what is in memory. -/
theorem stored_saveState (hvalid : w.manager.operations.all Operation.validUtf8 = true) :
    (saveState json true w).1 = true ∧
      Stored json w.manager.operations w.manager.lastSync (saveState json true w).2.file := by
  have hsome := json.dump_isSome (encodeState w.manager.operations w.manager.lastSync)
  rw [encodeState_validUtf8, hvalid] at hsome
  obtain ⟨text, htext⟩ := Option.isSome_iff_exists.1 hsome
  unfold saveState saveOperations
  rw [if_pos rfl, htext]
  exact ⟨rfl, text, rfl, htext⟩

theorem Stored.validUtf8 {operations : List Operation} {lastSync : Int64} {file : Option Text}
    (h : Stored json operations lastSync file) : operations.all Operation.validUtf8 = true := by
  obtain ⟨text, -, hdump⟩ := h
  rw [← encodeState_validUtf8 operations lastSync, ← json.dump_isSome, hdump, Option.isSome_some]

/-- A text is what is printed for some operations, or it is not. -/
theorem Stored.unique {operations operations' : List Operation} {lastSync lastSync' : Int64}
    {file file' : Option Text} (h : Stored json operations lastSync file)
    (h' : Stored json operations' lastSync' file')
    (heq : encodeState operations lastSync = encodeState operations' lastSync') : file = file' := by
  obtain ⟨text, rfl, hdump⟩ := h
  obtain ⟨text', rfl, hdump'⟩ := h'
  rw [heq, hdump'] at hdump
  exact hdump.symm

theorem map_truncated_truncated (operations : List Operation) :
    (operations.map Operation.truncated).map Operation.truncated =
      operations.map Operation.truncated := by
  rw [List.map_map]
  simp only [Function.comp_def, Operation.truncated_truncated]

/-- **The file mirrors the queue.**  In every state reached without a failed save, a new manager
on the same path has the same operations, with times cut to milliseconds. -/
theorem reopened_mirrors (h : (machine json .plain).Reaches (construct none) w)
    (hsaved : w.allSaved = true) :
    ∃ w', reopen json .plain w.file = some (true, w') ∧ MirrorOf json w w' := by
  have hw := depth_of_reaches h
  rcases mirrors_of_reaches h hsaved with ⟨hfile, hnil⟩ | hstored
  · -- nothing was ever saved
    obtain ⟨hok, hagain⟩ := stored_saveState json
      (w := { manager := { initialized := true }, file := none }) rfl
    rw [hfile]
    refine ⟨{ manager := { initialized := true }, file := none }, rfl,
      mirrorOf_of_operations hw rfl (by rw [hnil]; rfl) (absurd hfile) ⟨_, hok, hagain.reopen, rfl,
        rfl, absurd hfile⟩⟩
  · obtain ⟨hok, hagain⟩ := stored_saveState json
      (w := {
        manager := {
          operations := w.manager.operations.map Operation.truncated
          initialized := true
          lastSync := truncateMillis w.manager.lastSync }
        file := w.file }) hstored.truncated.validUtf8
    refine ⟨_, hstored.reopen, mirrorOf_of_operations hw rfl rfl (fun _ => rfl)
      ⟨_, hok, hagain.reopen, map_truncated_truncated _, rfl, fun _ => ⟨?_, ?_⟩⟩⟩
    · exact hagain.unique hstored (encodeState_truncated _ _)
    · dsimp only
      rw [map_truncated_truncated, truncateMillis_truncateMillis]

/-- An operation from before 1970, with metadata. -/
def sampleOperation : Operation where
  id := lit "op_1"
  type := .CREATE
  resourceType := lit "card"
  resourceId := []
  data := []
  timestamp := -1500001
  metadata := OrdMap.empty.insert (lit "parent_id") (lit "7")
  completed := false

/-- A manager that has queued one operation. -/
def queueRun : List Method := [.initializeManager true, .queueOperation sampleOperation true]

theorem reopened_mirrors_queue :
    ∃ w, (machine .symbolic .plain).run (construct none) queueRun = some w ∧
      ∃ w', reopen .symbolic .plain w.file = some (true, w') ∧ MirrorOf .symbolic w w' :=
  ⟨_, rfl, reopened_mirrors ⟨queueRun, rfl⟩ rfl⟩

end Kaiten.Offline
