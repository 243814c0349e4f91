import Kunstkammer.Foundation.Transition
import Kunstkammer.Offline.Operations

/-!
# The offline manager

`Offline_manager` of `offline_manager.cpp`, with its operations file and its mutex.

* `World`: the members of a manager, the file `operations.json` under its path, and how often
  `_manager_mutex` is held;
* `lockGuard`: locking a plain mutex that is already held is an error, so a method is a function
  to `Option`;
* `saveOperations`: opening the file truncates it before anything can be printed;
  `loadOperations`: what was changed before an exception stays changed;
* `call`: one definition for each public method, and `machine`, whose runs are sequences of calls;
* `restart`: the destructor, and a new manager on the same path.

What the file system and the clock decide is an argument: whether the file can be opened for
writing, whether the directory can be created, what time it is.
-/

namespace Kaiten.Offline

/-- The members of `Offline_manager`; its path only names the file. -/
structure Manager where
  operations : List Operation := []
  initialized : Bool := false
  offlineMode : Bool := false
  lastSync : Int64 := Int64.minValue

/-- A manager with its file and its mutex.  `allSaved` only observes the run: every save so far
returned true. -/
structure World (Text : Type) where
  manager : Manager
  file : Option Text
  depth : ℕ := 0
  allSaved : Bool := true

/-- `std::mutex`, or the mutex that its owner may lock again. -/
inductive MutexKind
  | plain
  | recursive
  deriving DecidableEq

/-- `Stats`. -/
structure Stats where
  pendingOperations : ℕ
  completedOperations : ℕ
  totalOperations : ℕ
  lastSync : Int64
  deriving DecidableEq

section Model

variable {Text : Type}

/-- A new manager on a path with the file `file`. -/
def construct (file : Option Text) : World Text := { manager := {}, file := file }

/-- Replace the operations in memory. -/
def World.setOperations (w : World Text) (operations : List Operation) : World Text :=
  { w with manager := { w.manager with operations := operations } }

/-- `std::lock_guard` around `body`. -/
def lockGuard {α : Type} (kind : MutexKind) (body : World Text → Option (α × World Text))
    (w : World Text) : Option (α × World Text) :=
  if w.depth ≠ 0 ∧ kind = .plain then none
  else (body { w with depth := w.depth + 1 }).map fun r =>
    (r.1, { r.2 with depth := r.2.depth - 1 })

variable (json : Nlohmann Text)

/-- `save_operations`; `opens` tells whether the file can be opened. -/
def saveOperations (opens : Bool) (w : World Text) : Bool × World Text :=
  if opens then
    match json.dump (encodeState w.manager.operations w.manager.lastSync) with
    | some text => (true, { w with file := some text })
    -- the file is open already when `dump` throws
    | none => (false, { w with file := some json.empty, allSaved := false })
  else (false, { w with allSaved := false })

/-- The array of operations of the file, if there is one. -/
def storedOperations (j : Json) : List Json :=
  ((j.member? (lit "operations")).bind Json.elements?).getD []

/-- `load_operations`. -/
def loadOperations (w : World Text) : Bool × World Text :=
  match w.file with
  | none => (true, w)
  | some text =>
      match json.parse text with
      | none => (false, w)
      | some j =>
          -- from here on the operations in memory are gone, whatever throws
          let loaded := decodeOperations (storedOperations j)
          let w := w.setOperations loaded.1
          if loaded.2 then
            match j.member? (lit "last_sync") with
            | none => (true, w)
            | some v =>
                match v.getInt64 with
                | none => (false, w)
                | some ms =>
                    (true, { w with manager := { w.manager with lastSync := ofMillis ms } })
          else (false, w)

/-- `save_state`. -/
def saveState (opens : Bool) (w : World Text) : Bool × World Text := saveOperations json opens w

/-- `load_state`. -/
def loadState (w : World Text) : Bool × World Text := loadOperations json w

variable (kind : MutexKind)

/-- `initialize`: what `load_operations` returns is ignored. -/
def initializeManager (dirOk : Bool) : World Text → Option (Bool × World Text) :=
  lockGuard kind fun w =>
    if dirOk then
      let w := (loadOperations json w).2
      some (true, { w with manager := { w.manager with initialized := true } })
    else some (false, w)

/-- `set_offline_mode`. -/
def setOfflineMode (enabled : Bool) : World Text → Option (Unit × World Text) :=
  lockGuard kind fun w => some ((), { w with manager := { w.manager with offlineMode := enabled } })

/-- `queue_operation`. -/
def queueOperation (op : Operation) (opens : Bool) : World Text → Option (Bool × World Text) :=
  lockGuard kind fun w =>
    if w.manager.initialized then
      some (saveOperations json opens (w.setOperations (w.manager.operations ++ [op])))
    else some (false, w)

/-- The operations that are not completed. -/
def pendingOf (operations : List Operation) : List Operation :=
  operations.filter fun op => !op.completed

/-- `get_pending_operations`. -/
def getPendingOperations : World Text → Option (List Operation × World Text) :=
  lockGuard kind fun w => some (pendingOf w.manager.operations, w)

/-- Complete the first pending operation with this id; `none` if there is none. -/
def completeFirst (id : Str) : List Operation → Option (List Operation)
  | [] => none
  | op :: operations =>
      if op.id = id ∧ op.completed = false then some ({ op with completed := true } :: operations)
      else (completeFirst id operations).map (op :: ·)

theorem completeFirst_eq_some {id : Str} {operations operations' : List Operation}
    (h : completeFirst id operations = some operations') :
    ∃ front op rest, operations = front ++ op :: rest ∧ op.id = id ∧ op.completed = false ∧
      operations' = front ++ { op with completed := true } :: rest := by
  induction operations generalizing operations' with
  | nil => cases h
  | cons op operations ih =>
    unfold completeFirst at h
    split_ifs at h with hop
    · exact ⟨[], op, operations, rfl, hop.1, hop.2, (Option.some.inj h).symm⟩
    · obtain ⟨operations', hrest, rfl⟩ := Option.map_eq_some_iff.1 h
      obtain ⟨front, op', rest, rfl, hid, hpending, rfl⟩ := ih hrest
      exact ⟨op :: front, op', rest, rfl, hid, hpending, rfl⟩

/-- `mark_operation_completed`. -/
def markOperationCompleted (id : Str) (opens : Bool) : World Text → Option (Bool × World Text) :=
  lockGuard kind fun w =>
    match completeFirst id w.manager.operations with
    | some operations => some (saveOperations json opens (w.setOperations operations))
    | none => some (false, w)

/-- `remove_operation`. -/
def removeOperation (id : Str) (opens : Bool) : World Text → Option (Bool × World Text) :=
  lockGuard kind fun w =>
    if w.manager.operations.any fun op => op.id = id then
      some (saveOperations json opens
        (w.setOperations (w.manager.operations.filter fun op => !(op.id = id))))
    else some (false, w)

/-- `clear_completed_operations`. -/
def clearCompletedOperations (opens : Bool) : World Text → Option (Bool × World Text) :=
  lockGuard kind fun w =>
    if w.manager.operations.any fun op => op.completed then
      some (saveOperations json opens (w.setOperations (pendingOf w.manager.operations)))
    else some (true, w)

/-- `process_operation`: every known type of operation succeeds. -/
def processOperation (op : Operation) : Bool :=
  op.type ∈ [OperationType.CREATE, .UPDATE, .DELETE, .GET]

/-- The loop of `process_pending_operations`; `opens i` is for its `i`-th save. -/
def processLoop (process : Operation → Bool) (opens : ℕ → Bool) :
    List Operation → ℕ → World Text → Option (ℕ × World Text)
  | [], processed, w => some (processed, w)
  | op :: pending, processed, w =>
      if process op then
        (markOperationCompleted json kind op.id (opens processed) w).bind fun r =>
          processLoop process opens pending (processed + 1) r.2
      else processLoop process opens pending processed w

/-- `process_pending_operations`, with `process_operation` as an argument. -/
def processPendingOperations (process : Operation → Bool) (now : Int64) (opens : ℕ → Bool) :
    World Text → Option (ℕ × World Text) :=
  lockGuard kind fun w =>
    if !w.manager.initialized || w.manager.offlineMode then some (0, w)
    else
      (getPendingOperations kind w).bind fun pending =>
        (processLoop json kind process opens pending.1 0 pending.2).map fun r =>
          if 0 < r.1 then
            (r.1, (saveState json (opens r.1)
              { r.2 with manager := { r.2.manager with lastSync := now } }).2)
          else r

/-- `get_stats`. -/
def getStats : World Text → Option (Stats × World Text) :=
  lockGuard kind fun w => some ({
    pendingOperations := w.manager.operations.countP fun op => !op.completed
    completedOperations := w.manager.operations.countP fun op => op.completed
    totalOperations := w.manager.operations.length
    lastSync := w.manager.lastSync }, w)

/-- A new manager on the path of another one, initialized. -/
def reopen (file : Option Text) : Option (Bool × World Text) :=
  initializeManager json kind true (construct file)

/-- The destructor of an initialized manager saves its state. -/
def destroy (opens : Bool) (w : World Text) : Option Text :=
  if w.manager.initialized then (saveState json opens w).2.file else w.file

/-- The destructor, and then a new manager on the same path, initialized. -/
def restart (opens : Bool) (w : World Text) : Option (Bool × World Text) :=
  reopen json kind (destroy json opens w)

end Model

/-! ### The public methods -/

/-- A call of a public method. -/
inductive Method
  | initializeManager (dirOk : Bool)
  | isInitialized
  | setOfflineMode (enabled : Bool)
  | isOfflineMode
  | queueOperation (op : Operation) (opens : Bool)
  | getPendingOperations
  | markOperationCompleted (id : Str) (opens : Bool)
  | removeOperation (id : Str) (opens : Bool)
  | clearCompletedOperations (opens : Bool)
  | processPendingOperations (process : Operation → Bool) (now : Int64) (opens : ℕ → Bool)
  | getStats
  | saveState (opens : Bool)
  | loadState

/-- What a method returns. -/
inductive Reply
  | nothing
  | flag (b : Bool)
  | operations (l : List Operation)
  | count (n : ℕ)
  | stats (s : Stats)

section Methods

variable {Text : Type}

/-- Call a method; `none` when it locks the mutex it holds. -/
def call (json : Nlohmann Text) (kind : MutexKind) (w : World Text) :
    Method → Option (World Text × Reply)
  | .initializeManager dirOk => (initializeManager json kind dirOk w).map fun r => (r.2, .flag r.1)
  | .isInitialized => some (w, .flag w.manager.initialized)
  | .setOfflineMode enabled => (setOfflineMode kind enabled w).map fun r => (r.2, .nothing)
  | .isOfflineMode => some (w, .flag w.manager.offlineMode)
  | .queueOperation op opens => (queueOperation json kind op opens w).map fun r => (r.2, .flag r.1)
  | .getPendingOperations => (getPendingOperations kind w).map fun r => (r.2, .operations r.1)
  | .markOperationCompleted id opens =>
      (markOperationCompleted json kind id opens w).map fun r => (r.2, .flag r.1)
  | .removeOperation id opens =>
      (removeOperation json kind id opens w).map fun r => (r.2, .flag r.1)
  | .clearCompletedOperations opens =>
      (clearCompletedOperations json kind opens w).map fun r => (r.2, .flag r.1)
  | .processPendingOperations process now opens =>
      (processPendingOperations json kind process now opens w).map fun r => (r.2, .count r.1)
  | .getStats => (getStats kind w).map fun r => (r.2, .stats r.1)
  | .saveState opens => some ((saveState json opens w).2, .flag (saveState json opens w).1)
  | .loadState => some ((loadState json w).2, .flag (loadState json w).1)

/-- The machine whose events are calls. -/
def machine (json : Nlohmann Text) (kind : MutexKind) : Machine (World Text) Method Reply :=
  ⟨call json kind⟩

end Methods

end Kaiten.Offline
