import Kunstkammer.Pool.Lending

/-!
# Invalidated handles, and handles returned by hand

A client can invalidate a handle, and it can return one before the destructor does.

* `State.withHandles`, `step_withHandles`: the pool never looks at the live handles;
* `HandleEvent`, `handleMachine`: the events of the pool, and `invalidate`;
* `Leaks s leaked`: the state would be sound if the handles `leaked`, destroyed when they were
  invalid, still lived;
* `always_active_held_iff`: the runs in which every entry in use belongs to a live handle;
* `returnThenDestroy`, `destroyOnce`: a handle returned by hand and destroyed later, and the same
  run with the handle destroyed at once;
* `return_idempotent_iff`: when the two leave the same books.
-/

namespace Kaiten.ConnectionPool

variable {c : Config} {s t : State}

/-! ### The pool and the live handles -/

/-- The state with other live handles. -/
def State.withHandles (s : State) (handles : List PooledConnection) : State := { s with handles }

@[simp] theorem withHandles_pool (s : State) (handles : List PooledConnection) :
    (s.withHandles handles).pool = s.pool := rfl

@[simp] theorem withHandles_handles (s : State) (handles : List PooledConnection) :
    (s.withHandles handles).handles = handles := rfl

@[simp] theorem withHandles_withHandles (s : State) (handles handles' : List PooledConnection) :
    (s.withHandles handles).withHandles handles' = s.withHandles handles' := rfl

/-- The handle that an answer comes with. -/
def lentHandles : Answer → List PooledConnection
  | .lent h => [h]
  | _ => []

/-- The section does not look at the live handles, and adds the one it lends. -/
def IgnoresHandles (f : State → State × Answer) : Prop :=
  ∀ s handles, f (s.withHandles handles) =
    ((f s).1.withHandles (handles ++ lentHandles (f s).2), (f s).2)

theorem ignoresHandles_create (endpoint : Endpoint) (connects : Bool) :
    IgnoresHandles fun s => createNewConnection s endpoint connects := by
  intro s handles
  cases connects with
  | false => exact Prod.ext (congrArg s.withHandles (List.append_nil handles).symm) rfl
  | true => rfl

theorem IgnoresHandles.findOrElse (c : Config) (endpoint : Endpoint)
    {other : State → State × Answer} (h : IgnoresHandles other) :
    IgnoresHandles fun s => findOrElse c s endpoint other := by
  intro s handles
  dsimp only
  unfold ConnectionPool.findOrElse
  have hpool : findIdleConnection c (s.withHandles handles).clock (s.withHandles handles).pool
      endpoint = findIdleConnection c s.clock s.pool endpoint := rfl
  rw [hpool]
  cases findIdleConnection c s.clock s.pool endpoint with
  | mk found pool =>
    cases found with
    | none => exact h { s with pool } handles
    | some p => rfl

theorem ignoresHandles_await (c : Config) (endpoint : Endpoint) (connects : Bool) :
    IgnoresHandles fun s => awaitConnection c s endpoint connects := by
  intro s handles
  dsimp only
  unfold awaitConnection
  have hpool : (s.withHandles handles).pool = s.pool := rfl
  have hclock : (s.withHandles handles).clock = s.clock := rfl
  dsimp only
  rw [hpool, hclock]
  split_ifs
  · exact (ignoresHandles_create endpoint connects).findOrElse c endpoint
      { s with pool := cleaned c s } handles
  · refine Prod.ext ?_ rfl
    exact congrArg (State.withHandles
      { s with pool := cleaned c s, blocked := s.blocked ++ [endpoint] })
      (List.append_nil handles).symm

theorem ignoresHandles_get (c : Config) (endpoint : Endpoint) (connects : Bool) :
    IgnoresHandles fun s => getConnection c s endpoint connects := by
  refine IgnoresHandles.findOrElse c endpoint fun s handles => ?_
  by_cases hfull : c.maxConnections ≤ s.pool.all.length
  · have hfull' : c.maxConnections ≤ (s.withHandles handles).pool.all.length := hfull
    rw [if_pos hfull', if_pos hfull]
    exact ignoresHandles_await c endpoint connects s handles
  · have hfull' : ¬ c.maxConnections ≤ (s.withHandles handles).pool.all.length := hfull
    rw [if_neg hfull', if_neg hfull]
    exact ignoresHandles_create endpoint connects s handles

/-- The event destroys no handle. -/
def Event.Spares : Event → Prop
  | .destroy _ _ => False
  | _ => True

/-- **Apart from a destruction, no section looks at the live handles.** -/
theorem step_withHandles {e : Event} (he : e.Spares) (s : State)
    (handles : List PooledConnection) : step c (s.withHandles handles) e =
      (step c s e).map fun r => (r.1.withHandles (handles ++ lentHandles r.2), r.2) := by
  have hsame : handles ++ lentHandles .done = handles := List.append_nil handles
  cases e with
  | getConnection endpoint connects =>
    exact congrArg some (ignoresHandles_get c endpoint connects s handles)
  | wake i =>
    show (s.blocked[i]?.map fun w => (wakeUp (s.withHandles handles) i w, Answer.done)) = _
    rw [step, Option.map_map]
    refine congrArg (Option.map · s.blocked[i]?) (funext fun w => ?_)
    exact Prod.ext (congrArg (wakeUp s i w).withHandles hsame.symm) rfl
  | resume i connects =>
    show (s.woken[i]?.map fun w => awaitConnection c
      (State.withHandles { s with woken := s.woken.eraseIdx i } handles) w connects) = _
    rw [step, Option.map_map]
    exact congrArg (Option.map · s.woken[i]?)
      (funext fun w => ignoresHandles_await c w connects _ handles)
  | destroy i pick => exact he.elim
  | closeAllConnections =>
    exact congrArg some (Prod.ext (congrArg (closeAllConnections s).withHandles hsame.symm) rfl)
  | tick d =>
    exact congrArg some
      (Prod.ext (congrArg (State.withHandles { s with clock := s.clock + d }) hsame.symm) rfl)

theorem handles_of_step {e : Event} (he : e.Spares) {a : Answer}
    (h : step c s e = some (t, a)) : t.handles = s.handles ++ lentHandles a := by
  have hstep := step_withHandles (c := c) he s s.handles
  have hself : s.withHandles s.handles = s := rfl
  rw [hself, h] at hstep
  exact congrArg (fun r => r.1.handles) (Option.some.inj hstep)

theorem notifyOne_withHandles (pick : ℕ) (s : State) (handles : List PooledConnection) :
    notifyOne pick (s.withHandles handles) = (notifyOne pick s).withHandles handles := by
  have hblocked : (s.withHandles handles).blocked = s.blocked := rfl
  unfold notifyOne
  rw [hblocked]
  cases s.blocked[pick % s.blocked.length]? <;> rfl

theorem returnConnection_withHandles (s : State) (handles : List PooledConnection)
    (h : PooledConnection) (pick : ℕ) : returnConnection (s.withHandles handles) h pick =
      (returnConnection s h pick).withHandles handles := by
  unfold returnConnection
  split_ifs
  · have hpool : (s.withHandles handles).pool = s.pool := rfl
    rw [hpool]
    cases s.pool.all.find? fun p => (s.pool.info p).stream.id = h.stream.id with
    | none => rfl
    | some p => exact notifyOne_withHandles pick (giveBack s p) handles
  · rfl

@[simp] theorem returnConnection_all (s : State) (h : PooledConnection) (pick : ℕ) :
    (returnConnection s h pick).pool.all = s.pool.all := by
  unfold returnConnection
  split_ifs
  · cases s.pool.all.find? fun p => (s.pool.info p).stream.id = h.stream.id with
    | none => rfl
    | some p =>
      dsimp only
      rw [notifyOne_pool]
      rfl
  · rfl

/-- What the destruction of a handle does. -/
theorem next_destroy_iff {i pick : ℕ} : (machine c).next s (.destroy i pick) = some t ↔
    ∃ h, s.handles[i]? = some h ∧
      (returnConnection s h pick).withHandles (s.handles.eraseIdx i) = t := by
  have hdrop (h : PooledConnection) : returnConnection (dropHandle s i) h pick =
      (returnConnection s h pick).withHandles (s.handles.eraseIdx i) :=
    returnConnection_withHandles s _ h pick
  simp only [Machine.next, machine, step, Option.map_map, Option.map_eq_some_iff]
  refine exists_congr fun h => and_congr_right fun _ => ?_
  rw [← hdrop]
  rfl

/-! ### Invalidated handles -/

/-- What the clients can do, with `Pooled_connection::invalidate` on the `i`-th live handle. -/
inductive HandleEvent
  | pool (e : Event)
  | invalidate (i : ℕ)

/-- The `i`-th live handle is invalidated. -/
def invalidate (s : State) (i : ℕ) (h : PooledConnection) : State :=
  s.withHandles (s.handles.set i { h with valid := false })

/-- The pool and its clients, some of which invalidate their handles. -/
def handleMachine (c : Config) : Machine State HandleEvent Answer where
  step s
    | .pool e => step c s e
    | .invalidate i => s.handles[i]?.map fun h => (invalidate s i h, .done)

/-- Every entry that counts as active belongs to a live handle. -/
def ActiveHeld (s : State) : Prop :=
  ∀ p ∈ s.pool.all, (s.pool.info p).inUse = true →
    ∃ h ∈ s.handles, h.stream.id = (s.pool.info p).stream.id

/-- An invalidated handle is destroyed whose entry is still in the pool. -/
def Abandons (s : State) : HandleEvent → Prop
  | .pool (.destroy i _) => ∃ h, s.handles[i]? = some h ∧ h.valid = false ∧
      ∃ p ∈ s.pool.all, (s.pool.info p).stream.id = h.stream.id
  | _ => False

/-- The handle as it was before it was invalidated. -/
def revalidate (h : PooledConnection) : PooledConnection := { h with valid := true }

theorem revalidate_of_valid {h : PooledConnection} (hh : h.valid = true) : revalidate h = h := by
  obtain ⟨stream, endpoint, valid⟩ := h
  dsimp only at hh
  rw [hh]
  rfl

theorem heldStreams_revalidate (handles : List PooledConnection) :
    heldStreams (handles.map revalidate) = heldStreams handles := by
  unfold heldStreams
  rw [List.map_map]
  rfl

/-- The handles of `s` as if none had been invalidated, and the handles `leaked`. -/
def ghostHandles (s : State) (leaked : List PooledConnection) : List PooledConnection :=
  s.handles.map revalidate ++ leaked

/-- The state is sound once the handles `leaked`, destroyed when they were invalid, are added. -/
def Leaks (s : State) (leaked : List PooledConnection) : Prop :=
  Sound (s.withHandles (ghostHandles s leaked))

/-- Soundness does not depend on the order of the handles. -/
theorem Sound.perm (hs : Sound s) {handles : List PooledConnection}
    (h : handles.Perm s.handles) : Sound (s.withHandles handles) :=
  { hs with
    handle_lt := fun g hg => hs.handle_lt g (h.mem_iff.1 hg)
    handle_valid := fun g hg => hs.handle_valid g (h.mem_iff.1 hg)
    held_nodup := (h.map _).nodup_iff.2 hs.held_nodup
    held := fun p hp => (hs.held p hp).trans (h.map _).mem_iff.symm }

theorem mem_heldStreams_ghost {leaked : List PooledConnection} {p : ℕ} :
    p ∈ heldStreams (ghostHandles s leaked) ↔
      p ∈ heldStreams s.handles ∨ p ∈ heldStreams leaked := by
  unfold ghostHandles
  rw [heldStreams, List.map_append, List.mem_append]
  exact or_congr_left (by rw [← heldStreams, heldStreams_revalidate])

/-- The entries in use that belong to no live handle are those of the leaked ones. -/
theorem Leaks.activeHeld_iff {leaked : List PooledConnection} (h : Leaks s leaked) :
    ActiveHeld s ↔ ∀ p ∈ heldStreams leaked, p ∉ s.pool.all := by
  have hheld (p : ℕ) (hp : p ∈ s.pool.all) : (s.pool.info p).inUse = true ↔
      p ∈ heldStreams s.handles ∨ p ∈ heldStreams leaked :=
    (h.held p hp).trans mem_heldStreams_ghost
  have hlive (p : ℕ) (hp : p ∈ s.pool.all) :
      (∃ g ∈ s.handles, g.stream.id = (s.pool.info p).stream.id) ↔ p ∈ heldStreams s.handles := by
    rw [show (s.pool.info p).stream.id = p from h.stream_id p hp]
    exact List.mem_map.symm
  constructor
  · intro hactive p hleaked hp
    have hboth := (hlive p hp).1 (hactive p hp ((hheld p hp).2 (Or.inr hleaked)))
    -- no two handles share a stream
    have hnodup := h.held_nodup
    rw [withHandles_handles, ghostHandles, heldStreams, List.map_append] at hnodup
    have hdisjoint := (List.nodup_append.1 hnodup).2.2
    refine hdisjoint p ?_ p hleaked rfl
    rw [← heldStreams, heldStreams_revalidate]
    exact hboth
  · intro hleaked p hp huse
    refine (hlive p hp).2 (((hheld p hp).1 huse).resolve_right fun habs => hleaked p habs hp)

/-- A caller adds at most a new entry to the pool. -/
theorem Served.all_subset (hs : Sound s) {resumed : Bool} {endpoint : Endpoint} {connects : Bool}
    {r : State × Answer} (h : Served c resumed s endpoint connects r) :
    ∀ p ∈ r.1.pool.all, p ∈ s.pool.all ∨ p = s.pool.next := by
  have hcleaned (p : ℕ) (hp : p ∈ (cleaned c s).all) : p ∈ s.pool.all ∨ p = s.pool.next :=
    Or.inl ((hs.cleaned_all_sublist c).subset hp)
  cases h with
  | lends => exact hcleaned
  | waits => exact hcleaned
  | creates =>
    cases connects with
    | false => exact hcleaned
    | true =>
      rw [createNewConnection_true]
      intro p hp
      rcases List.mem_append.1 hp with hp | hp
      · exact hcleaned p hp
      · exact Or.inr (List.mem_singleton.1 hp)

theorem all_subset_of_step (hs : Sound s) {e : Event} {a : Answer}
    (h : step c s e = some (t, a)) : ∀ p ∈ t.pool.all, p ∈ s.pool.all ∨ p = s.pool.next := by
  generalize hr : (t, a) = r at h
  obtain rfl : r.1 = t := by rw [← hr]
  cases hs.moves h with
  | call hserved => exact hserved.all_subset hs
  | resume _ hserved => exact hserved.all_subset (hs.unwait _)
  | wake => exact fun p hp => Or.inl hp
  | destroy =>
    intro p hp
    rw [notifyOne_pool] at hp
    exact Or.inl hp
  | destroyClosed => exact fun p hp => Or.inl hp
  | close => exact fun p hp => absurd hp List.not_mem_nil
  | tick => exact fun p hp => Or.inl hp

/-! #### What a step does to the leaked handles -/

variable {leaked : List PooledConnection}

/-- The leaked handles do not hold entries that are new to the pool. -/
theorem Leaks.leaked_lt (h : Leaks s leaked) {p : ℕ} (hp : p ∈ heldStreams leaked) :
    p < s.pool.next := by
  obtain ⟨g, hg, rfl⟩ := List.mem_map.1 hp
  exact h.handle_lt g (List.mem_append_right _ hg)

theorem Leaks.step (h : Leaks s leaked) {e : Event} (he : e.Spares) {a : Answer}
    (hstep : step c s e = some (t, a)) : Leaks t leaked := by
  have hghost := step_withHandles (c := c) he s (ghostHandles s leaked)
  rw [hstep, Option.map_some] at hghost
  have hsound : Sound (t.withHandles (ghostHandles s leaked ++ lentHandles a)) :=
    Sound.next (e := e) h (Machine.next_eq_some.2 ⟨a, hghost⟩)
  have hlent : (lentHandles a).map revalidate = lentHandles a := by
    refine (List.map_congr_left fun g hg => revalidate_of_valid ?_).trans (List.map_id _)
    exact hsound.handle_valid g (List.mem_append_right _ hg)
  refine hsound.perm ?_
  unfold ghostHandles
  rw [handles_of_step he hstep, List.map_append, hlent]
  show (s.handles.map revalidate ++ lentHandles a ++ leaked).Perm
    (s.handles.map revalidate ++ leaked ++ lentHandles a)
  rw [List.append_assoc, List.append_assoc]
  exact List.perm_append_comm.append_left _

/-- A valid handle is destroyed: its entry goes back. -/
theorem Leaks.destroy (h : Leaks s leaked) {i : ℕ} {g : PooledConnection}
    (hi : s.handles[i]? = some g) (hvalid : g.valid = true) (pick : ℕ) :
    Leaks ((returnConnection s g pick).withHandles (s.handles.eraseIdx i)) leaked := by
  obtain ⟨hlt, -⟩ := List.getElem?_eq_some_iff.1 hi
  have hlength : i < (s.handles.map revalidate).length := by rwa [List.length_map]
  have hghost : (s.withHandles (ghostHandles s leaked)).handles[i]? = some g := by
    rw [withHandles_handles, ghostHandles, List.getElem?_append_left hlength, List.getElem?_map,
      hi, Option.map_some, revalidate_of_valid hvalid]
  have hnext : (machine {}).next (s.withHandles (ghostHandles s leaked)) (.destroy i pick) = some
      ((returnConnection (s.withHandles (ghostHandles s leaked)) g pick).withHandles
        ((ghostHandles s leaked).eraseIdx i)) :=
    next_destroy_iff.2 ⟨g, hghost, rfl⟩
  have hsound := Sound.next h hnext
  rw [returnConnection_withHandles, withHandles_withHandles, ghostHandles,
    List.eraseIdx_append_of_lt_length hlength, List.eraseIdx_map] at hsound
  exact hsound

/-- An invalidated handle is destroyed: its entry stays as it is. -/
theorem Leaks.abandon (h : Leaks s leaked) {i : ℕ} {g : PooledConnection}
    (hi : s.handles[i]? = some g) :
    Leaks (s.withHandles (s.handles.eraseIdx i)) (revalidate g :: leaked) := by
  obtain ⟨hlt, rfl⟩ := List.getElem?_eq_some_iff.1 hi
  refine Sound.perm h ?_
  show ((s.handles.eraseIdx i).map revalidate ++ revalidate s.handles[i] :: leaked).Perm
    (s.handles.map revalidate ++ leaked)
  refine List.perm_middle.trans ?_
  rw [← List.cons_append, ← List.map_cons]
  exact ((List.getElem_cons_eraseIdx_perm hlt).map revalidate).append_right leaked

/-- A handle is invalidated: nobody but the client notices. -/
theorem Leaks.invalidate (h : Leaks s leaked) {i : ℕ} {g : PooledConnection}
    (hi : s.handles[i]? = some g) : Leaks (invalidate s i g) leaked := by
  obtain ⟨hlt, rfl⟩ := List.getElem?_eq_some_iff.1 hi
  have hsame : (s.handles.set i { s.handles[i] with valid := false }).map revalidate =
      s.handles.map revalidate := by
    have hget : revalidate { s.handles[i] with valid := false } = revalidate s.handles[i] := rfl
    rw [List.map_set, hget, ← List.getElem_map revalidate (h := by rwa [List.length_map]),
      List.set_getElem_self]
  show Sound (s.withHandles ((s.handles.set i { s.handles[i] with valid := false }).map revalidate
    ++ leaked))
  rw [hsame]
  exact h

/-- The state belongs to a run of the handle machine. -/
def Sane (s : State) : Prop := ∃ leaked, Leaks s leaked

theorem sane_initial : Sane initial := ⟨[], sound_initial⟩

/-- An event that spares the handles makes no leaked entry count again. -/
theorem activeHeld_of_spares (h : Leaks s leaked) {e : Event} (he : e.Spares) {a : Answer}
    (hstep : step c s e = some (t, a)) (hactive : ActiveHeld s) : ActiveHeld t := by
  have hghost := step_withHandles (c := c) he s (ghostHandles s leaked)
  rw [hstep, Option.map_some] at hghost
  refine (h.step he hstep).activeHeld_iff.2 fun p hp hall => ?_
  rcases all_subset_of_step h hghost p hall with hold | hnew
  · exact h.activeHeld_iff.1 hactive p hp hold
  · exact absurd hnew (h.leaked_lt hp).ne

/-- A valid handle is destroyed, and nothing is leaked. -/
theorem Leaks.activeHeld_destroy (h : Leaks s leaked) {i : ℕ} {g : PooledConnection}
    (hi : s.handles[i]? = some g) (hvalid : g.valid = true) (pick : ℕ) (hactive : ActiveHeld s) :
    ActiveHeld ((returnConnection s g pick).withHandles (s.handles.eraseIdx i)) := by
  refine (h.destroy hi hvalid pick).activeHeld_iff.2 fun p hp => ?_
  rw [withHandles_pool, returnConnection_all]
  exact h.activeHeld_iff.1 hactive p hp

/-- An invalidated handle is destroyed, which leaks its entry if that is still in the pool. -/
theorem Leaks.activeHeld_abandon_iff (h : Leaks s leaked) {i : ℕ} {g : PooledConnection}
    (hi : s.handles[i]? = some g) (hactive : ActiveHeld s) :
    ActiveHeld (s.withHandles (s.handles.eraseIdx i)) ↔
      ¬ ∃ p ∈ s.pool.all, (s.pool.info p).stream.id = g.stream.id := by
  have hstream (p : ℕ) (hp : p ∈ s.pool.all) : (s.pool.info p).stream.id = p := h.stream_id p hp
  refine (h.abandon hi).activeHeld_iff.trans ?_
  constructor
  · rintro hleaked ⟨p, hp, hid⟩
    rw [hstream p hp] at hid
    exact hleaked p (by rw [hid]; exact List.mem_cons_self) hp
  · intro hnot p hp hall
    rcases List.mem_cons.1 hp with rfl | hp
    · exact hnot ⟨_, hall, hstream _ hall⟩
    · exact h.activeHeld_iff.1 hactive p hp hall

/-- **One step**: entries in use keep their live handles unless the step abandons one. -/
theorem activeHeld_next {e : HandleEvent} (hs : Sane s)
    (hnext : (handleMachine c).next s e = some t) :
    Sane t ∧ (ActiveHeld s → (ActiveHeld t ↔ ¬ Abandons s e)) := by
  obtain ⟨leaked, h⟩ := hs
  obtain ⟨a, hstep⟩ := Machine.next_eq_some.1 hnext
  cases e with
  | invalidate i =>
    obtain ⟨g, hi, hg⟩ := Option.map_eq_some_iff.1 hstep
    obtain ⟨rfl, -⟩ := Prod.mk.inj hg
    have ht := h.invalidate hi
    exact ⟨⟨leaked, ht⟩, fun hactive =>
      iff_of_true (ht.activeHeld_iff.2 (h.activeHeld_iff.1 hactive)) id⟩
  | pool e =>
    by_cases he : e.Spares
    · refine ⟨⟨leaked, h.step he hstep⟩, fun hactive =>
        iff_of_true (activeHeld_of_spares h he hstep hactive) ?_⟩
      cases e with
      | destroy => exact he.elim
      | _ => exact id
    · cases e with
      | destroy i pick =>
        have hdestroy : (machine c).next s (.destroy i pick) = some t :=
          Machine.next_eq_some.2 ⟨a, hstep⟩
        obtain ⟨g, hi, rfl⟩ := next_destroy_iff.1 hdestroy
        have habandons : Abandons s (.pool (.destroy i pick)) ↔
            g.valid = false ∧ ∃ p ∈ s.pool.all, (s.pool.info p).stream.id = g.stream.id := by
          simp [Abandons, hi]
        rw [habandons]
        cases hvalid : g.valid with
        | true =>
          exact ⟨⟨leaked, h.destroy hi hvalid pick⟩, fun hactive =>
            iff_of_true (h.activeHeld_destroy hi hvalid pick hactive) (by simp)⟩
        | false =>
          have hreturn : returnConnection s g pick = s := by
            unfold returnConnection
            rw [hvalid, if_neg Bool.false_ne_true]
          rw [hreturn]
          refine ⟨⟨_, h.abandon hi⟩, fun hactive => ?_⟩
          rw [h.activeHeld_abandon_iff hi hactive]
          simp
      | _ => exact absurd trivial he

/-- **Entries in use belong to live handles** exactly as long as no invalidated handle is destroyed
whose entry is still in the pool. -/
theorem always_active_held_iff (c : Config) (es : List HandleEvent) :
    (handleMachine c).Always ActiveHeld initial es ↔
      (handleMachine c).Along (fun s e _ => ¬ Abandons s e) initial es := by
  refine Machine.always_iff_along (I := Sane) (fun s e t hs h => (activeHeld_next hs h).1)
    (fun s e t hs hactive h => (activeHeld_next hs h).2 hactive) sane_initial ?_ es
  intro p hp
  cases hp

/-- The only connection of a pool of one is lent, invalidated and destroyed. -/
def abandoningRun : List HandleEvent :=
  [.pool (.getConnection sampleEndpoints.1 true), .invalidate 0, .pool (.destroy 0 0)]

/-- The entry stays in use without a handle, and whoever comes later waits. -/
theorem abandoned_entry_fills_pool :
    ¬ (handleMachine { maxConnections := 1 }).Always ActiveHeld initial abandoningRun ∧
    ∃ s, (handleMachine { maxConnections := 1 }).run initial abandoningRun = some s ∧
      s.handles = [] ∧ ∀ (d : ℕ) (endpoint : Endpoint) (connects : Bool),
        (getConnection { maxConnections := 1 } { s with clock := s.clock + d } endpoint
          connects).2 = .waits := by
  refine ⟨fun h => ?_, _, rfl, rfl, fun d endpoint connects => rfl⟩
  have hlast := ((h.2 _ rfl).2 _ rfl).2 _ rfl
  obtain ⟨h, hh, -⟩ := hlast 0 List.mem_cons_self rfl
  cases hh

/-! ### Handles returned by hand -/

/-- Where the `i`-th live handle stands after the event. -/
def trackHandle (i : ℕ) : Event → ℕ
  | .destroy j _ => if j < i then i - 1 else i
  | _ => i

/-- No event destroys the handle that stands at `i` before them. -/
def SparesHandle (i : ℕ) : List Event → Prop
  | [] => True
  | e :: es => (∀ pick, e ≠ .destroy i pick) ∧ SparesHandle (trackHandle i e) es

/-- The event where the handle at `i` is not there. -/
def withoutHandle (i : ℕ) : Event → Event
  | .destroy j pick => .destroy (if j < i then j else j - 1) pick
  | e => e

/-- The events where the handle that stands at `i` before them is not there. -/
def allWithoutHandle (i : ℕ) : List Event → List Event
  | [] => []
  | e :: es => withoutHandle i e :: allWithoutHandle (trackHandle i e) es

/-- The handle at `i` is given to the public `return_connection`, and destroyed after `es`. -/
def returnThenDestroy (c : Config) (s : State) (i pick : ℕ) (es : List Event) (pick' : ℕ) :
    Option State :=
  s.handles[i]?.bind fun h => ((machine c).run (returnConnection s h pick) es).bind fun a =>
    (machine c).next a (.destroy (es.foldl trackHandle i) pick')

/-- The handle at `i` is destroyed at once, and that is its only return. -/
def destroyOnce (c : Config) (s : State) (i pick : ℕ) (es : List Event) : Option State :=
  (machine c).run s (.destroy i pick :: allWithoutHandle i es)

/-- The pools agree on what is idle and what is in use, nothing is in the idle queue twice, and
nothing in it is in use. -/
structure SameBooks (a b : State) : Prop where
  idle : a.pool.idle = b.pool.idle
  all : a.pool.all = b.pool.all
  inUse : ∀ p ∈ b.pool.all, (a.pool.info p).inUse = (b.pool.info p).inUse
  nodup : a.pool.idle.Nodup
  unused : IdleUnused a.pool

/-- `a` is `b` with the handle `h` at `i` among the live ones. -/
def Beside (i : ℕ) (h : PooledConnection) (a b : State) : Prop :=
  ∃ front back, i = front.length ∧ b.handles = front ++ back ∧
    a = b.withHandles (front ++ h :: back)

/-- **One step** with the handle and without it. -/
theorem Beside.next {i : ℕ} {h : PooledConnection} {a b : State} (hab : Beside i h a b) {e : Event}
    (he : ∀ pick, e ≠ .destroy i pick) {a' : State} (hnext : (machine c).next a e = some a') :
    ∃ b', (machine c).next b (withoutHandle i e) = some b' ∧ Beside (trackHandle i e) h a' b' := by
  obtain ⟨front, back, rfl, hb, rfl⟩ := hab
  by_cases hspares : e.Spares
  · have hsame : withoutHandle front.length e = e ∧ trackHandle front.length e = front.length := by
      cases e with
      | destroy => exact hspares.elim
      | _ => exact ⟨rfl, rfl⟩
    obtain ⟨x, hstep⟩ := Machine.next_eq_some.1 hnext
    have hghost := (step_withHandles (c := c) hspares b (front ++ h :: back)).symm.trans hstep
    obtain ⟨r, hr, hra⟩ := Option.map_eq_some_iff.1 hghost
    obtain ⟨rfl, -⟩ := Prod.mk.inj hra
    rw [hsame.1, hsame.2]
    refine ⟨r.1, Machine.next_eq_some.2 ⟨r.2, hr⟩, front, back ++ lentHandles r.2, rfl, ?_, ?_⟩
    · rw [handles_of_step hspares hr, hb, List.append_assoc]
    · rw [List.append_assoc, List.cons_append]
  · cases e with
    | destroy j pick =>
      have hj : j ≠ front.length := fun hj => he pick (by rw [hj])
      obtain ⟨g, hg, rfl⟩ := next_destroy_iff.1 hnext
      rw [withHandles_handles] at hg
      rw [returnConnection_withHandles, withHandles_withHandles, withHandles_handles,
        withoutHandle, trackHandle]
      by_cases hlt : j < front.length
      · rw [if_pos hlt, if_pos hlt]
        rw [List.getElem?_append_left hlt] at hg
        refine ⟨_, next_destroy_iff.2 ⟨g, ?_, rfl⟩, front.eraseIdx j, back, ?_, ?_, ?_⟩
        · rw [hb, List.getElem?_append_left hlt, hg]
        · rw [List.length_eraseIdx_of_lt hlt]
        · rw [withHandles_handles, hb, List.eraseIdx_append_of_lt_length hlt]
        · rw [withHandles_withHandles, List.eraseIdx_append_of_lt_length hlt]
      · -- the handle is in front of the one that is destroyed
        obtain ⟨k, rfl⟩ := Nat.exists_eq_add_of_le (show front.length + 1 ≤ j by omega)
        have hk : front.length + 1 + k - front.length = k + 1 := by omega
        have hk' : front.length + 1 + k - 1 = front.length + k := by omega
        rw [if_neg hlt, if_neg hlt, hk']
        rw [List.getElem?_append_right (by omega), hk, List.getElem?_cons_succ] at hg
        refine ⟨_, next_destroy_iff.2 ⟨g, ?_, rfl⟩, front, back.eraseIdx k, rfl, ?_, ?_⟩
        · rw [hb, List.getElem?_append_right (by omega), Nat.add_sub_cancel_left, hg]
        · rw [withHandles_handles, hb, List.eraseIdx_append_of_length_le (by omega),
            Nat.add_sub_cancel_left]
        · rw [withHandles_withHandles, List.eraseIdx_append_of_length_le (by omega), hk,
            List.eraseIdx_cons_succ]
    | _ => exact absurd trivial hspares

/-- **A run** with the handle and without it. -/
theorem Beside.run {i : ℕ} {h : PooledConnection} {a b : State} (hab : Beside i h a b)
    {es : List Event} (hes : SparesHandle i es) {a' : State}
    (hrun : (machine c).run a es = some a') : ∃ b',
      (machine c).run b (allWithoutHandle i es) = some b' ∧
        Beside (es.foldl trackHandle i) h a' b' := by
  induction es generalizing i a b with
  | nil =>
    cases hrun
    exact ⟨b, rfl, hab⟩
  | cons e es ih =>
    rw [Machine.run_cons, Option.bind_eq_some_iff] at hrun
    obtain ⟨a1, ha1, hrun⟩ := hrun
    obtain ⟨b1, hb1, hab1⟩ := hab.next hes.1 ha1
    obtain ⟨b', hb', hab'⟩ := ih hab1 hes.2 hrun
    exact ⟨b', by rw [allWithoutHandle, Machine.run_cons_of_next hb1, hb'], hab'⟩

theorem Sane.next (hs : Sane s) {e : HandleEvent} (h : (handleMachine c).next s e = some t) :
    Sane t :=
  (activeHeld_next hs h).1

theorem sane_of_reaches (h : (handleMachine c).Reaches initial s) : Sane s :=
  h.invariant sane_initial fun _ _ _ hs => hs.next

theorem Sane.run (hs : Sane s) {es : List Event} (h : (machine c).run s es = some t) : Sane t := by
  refine Machine.Reaches.invariant (M := machine c) ⟨es, h⟩ hs fun s e t hs hnext => ?_
  obtain ⟨a, hstep⟩ := Machine.next_eq_some.1 hnext
  exact hs.next (e := .pool e) (Machine.next_eq_some.2 ⟨a, hstep⟩)

/-- The books of a state of a run are in order. -/
theorem Sane.idle (hs : Sane s) : s.pool.idle.Nodup ∧ IdleUnused s.pool := by
  obtain ⟨leaked, h⟩ := hs
  exact ⟨h.idle_nodup, h.idle_unused⟩

theorem sameBooks_congr {a a' b : State} (h : a.pool = a'.pool) :
    SameBooks a b ↔ SameBooks a' b := by
  constructor
  · rintro ⟨hidle, hall, huse, hnodup, hunused⟩
    rw [h] at hidle hall huse hnodup hunused
    exact ⟨hidle, hall, huse, hnodup, hunused⟩
  · rintro ⟨hidle, hall, huse, hnodup, hunused⟩
    rw [← h] at hidle hall huse hnodup hunused
    exact ⟨hidle, hall, huse, hnodup, hunused⟩

/-- A second return leaves the books alone exactly when it does not find the entry. -/
theorem sameBooks_returnConnection_iff (hs : Sane s) (h : PooledConnection) (pick : ℕ) :
    SameBooks (returnConnection s h pick) s ↔
      (h.valid = true → ∀ p ∈ s.pool.all, (s.pool.info p).stream.id ≠ h.stream.id) := by
  have hself : SameBooks s s := ⟨rfl, rfl, fun _ _ => rfl, hs.idle.1, hs.idle.2⟩
  unfold returnConnection
  split_ifs with hvalid
  · cases hfind : s.pool.all.find? fun p => (s.pool.info p).stream.id = h.stream.id with
    | none =>
      refine iff_of_true hself fun _ p hp hid => ?_
      exact List.find?_eq_none.1 hfind p hp (decide_eq_true hid)
    | some p =>
      refine iff_of_false (fun hsame => ?_) fun hnone => ?_
      · -- the entry has come to the end of the idle queue
        have hidle := congrArg List.length hsame.idle
        rw [notifyOne_pool] at hidle
        have hlength : (s.pool.idle ++ [p]).length = s.pool.idle.length := hidle
        rw [List.length_append, List.length_singleton] at hlength
        omega
      · have hid := List.find?_some hfind
        rw [decide_eq_true_eq] at hid
        exact hnone hvalid p (List.mem_of_find?_eq_some hfind) hid
  · exact iff_of_true hself fun habs => absurd habs hvalid

/-- **Returning a handle by hand and then destroying it is returning it once** exactly when the
handle is invalid, or its entry has left the pool before the destruction. -/
theorem return_idempotent_iff (hs : (handleMachine c).Reaches initial s) {i : ℕ}
    {h : PooledConnection} (hi : s.handles[i]? = some h) (pick : ℕ) {es : List Event}
    (hes : SparesHandle i es) (pick' : ℕ) {a : State}
    (ha : returnThenDestroy c s i pick es pick' = some a) :
    ∃ b, destroyOnce c s i pick es = some b ∧ (SameBooks a b ↔
      (h.valid = true → ∀ p ∈ b.pool.all, (b.pool.info p).stream.id ≠ h.stream.id)) := by
  rw [returnThenDestroy, hi, Option.bind_some, Option.bind_eq_some_iff] at ha
  obtain ⟨a1, hrun, hdestroy⟩ := ha
  have hnext : (machine c).next s (.destroy i pick) =
      some ((returnConnection s h pick).withHandles (s.handles.eraseIdx i)) :=
    next_destroy_iff.2 ⟨h, hi, rfl⟩
  have hbeside : Beside i h (returnConnection s h pick)
      ((returnConnection s h pick).withHandles (s.handles.eraseIdx i)) := by
    obtain ⟨hlt, rfl⟩ := List.getElem?_eq_some_iff.1 hi
    refine ⟨s.handles.take i, s.handles.drop (i + 1), ?_, List.eraseIdx_eq_take_drop_succ _ _, ?_⟩
    · rw [List.length_take_of_le hlt.le]
    · rw [← List.drop_eq_getElem_cons hlt, List.take_append_drop]
      show _ = (returnConnection s s.handles[i] pick).withHandles s.handles
      rw [← returnConnection_withHandles]
      rfl
  obtain ⟨b, hb, front, back, hfront, -, rfl⟩ := hbeside.run hes hrun
  refine ⟨b, (Machine.run_cons_of_next hnext _).trans hb, ?_⟩
  have hsane : Sane b := by
    refine Sane.run ?_ hb
    obtain ⟨x, hstep⟩ := Machine.next_eq_some.1 hnext
    exact (sane_of_reaches hs).next (e := .pool (.destroy i pick))
      (Machine.next_eq_some.2 ⟨x, hstep⟩)
  rw [← sameBooks_returnConnection_iff hsane h pick']
  obtain ⟨g, hg, rfl⟩ := next_destroy_iff.1 hdestroy
  rw [withHandles_handles, hfront, List.getElem?_append_right le_rfl, Nat.sub_self] at hg
  cases hg
  have hpool : ((returnConnection (b.withHandles (front ++ h :: back)) h pick').withHandles
      ((b.withHandles (front ++ h :: back)).handles.eraseIdx front.length)).pool =
      (returnConnection b h pick').pool := by
    rw [returnConnection_withHandles]
    rfl
  exact sameBooks_congr hpool

/-- A connection is lent. -/
def lendingRun : List HandleEvent := [.pool (.getConnection sampleEndpoints.1 true)]

/-- The pool is closed between the two returns. -/
theorem return_idempotent_iff_closed :
    ∃ s a b, (handleMachine {}).run initial lendingRun = some s ∧
      returnThenDestroy {} s 0 0 [.closeAllConnections] 0 = some a ∧
      destroyOnce {} s 0 0 [.closeAllConnections] = some b ∧ SameBooks a b := by
  have hspares : SparesHandle 0 [.closeAllConnections] := by
    refine ⟨fun pick h => ?_, trivial⟩
    cases h
  obtain ⟨b, hb, hiff⟩ := return_idempotent_iff (c := {}) ⟨lendingRun, rfl⟩ (i := 0) rfl 0
    hspares 0 rfl
  refine ⟨_, _, b, rfl, rfl, hb, hiff.2 fun _ p hp => ?_⟩
  cases hb
  cases hp

/-- The stream is lent to the next client before the old handle is destroyed, and is put back into
the idle queue then. -/
theorem lent_stream_returned :
    ∃ s a b, (handleMachine {}).run initial lendingRun = some s ∧
      returnThenDestroy {} s 0 0 [.getConnection sampleEndpoints.1 false] 0 = some a ∧
      destroyOnce {} s 0 0 [.getConnection sampleEndpoints.1 false] = some b ∧
      ¬ SameBooks a b ∧ a.pool.idle = [0] ∧ b.pool.idle = [] ∧ heldStreams a.handles = [0] := by
  refine ⟨_, _, _, rfl, rfl, rfl, fun h => ?_, rfl, rfl, rfl⟩
  exact absurd h.idle (by decide)

end Kaiten.ConnectionPool
