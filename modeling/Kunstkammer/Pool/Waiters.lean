import Kunstkammer.Pool.Capacity

/-!
# Blocked callers

A blocked caller is woken only by a returned connection.  So there has to be a connection in use
for as long as a caller is blocked.

* `Wakeable`: while some caller is blocked, an entry of the pool is held by a live valid handle;
* `Strands`: the steps that break it: a caller starts to wait, or waits again, at a pool that is
  full of connections nobody uses; one of several waits ends with the return of the last
  connection in use; the pool is closed;
* `always_wakeable_iff`.
-/

namespace Kaiten.ConnectionPool

variable {c : Config} {s : State}

/-- A blocked caller can still be woken by the return of some connection. -/
def Wakeable (s : State) : Prop :=
  s.blocked ≠ [] →
    ∃ p ∈ s.pool.all, ∃ h ∈ s.handles, h.valid = true ∧ h.stream.id = (s.pool.info p).stream.id

/-- Some entry is in use. -/
def InUse (pool : Pool) : Prop := ∃ p ∈ pool.all, (pool.info p).inUse = true

/-- The step leaves a caller blocked at a pool without a connection in use. -/
def Strands (c : Config) (s : State) : Event → Prop
  | .getConnection endpoint _ =>
      NoMatch (cleaned c s) endpoint ∧ c.maxConnections ≤ (cleaned c s).all.length ∧
        ¬ InUse s.pool
  | .resume i _ => s.woken[i]?.isSome ∧ (cleaned c s).idle = [] ∧
      c.maxConnections ≤ (cleaned c s).all.length ∧ ¬ InUse s.pool
  | .destroy i _ => 2 ≤ s.blocked.length ∧ ∃ h, s.handles[i]? = some h ∧
      (∃ p ∈ s.pool.all, (s.pool.info p).stream.id = h.stream.id) ∧
      ∀ p ∈ s.pool.all, (s.pool.info p).inUse = true → (s.pool.info p).stream.id = h.stream.id
  | .closeAllConnections => s.blocked ≠ []
  | _ => False

theorem Sound.wakeable_iff (hs : Sound s) : Wakeable s ↔ (s.blocked ≠ [] → InUse s.pool) := by
  refine imp_congr_right fun _ => exists_congr fun p => and_congr_right fun hp => ?_
  rw [hs.stream_id p hp, hs.held p hp]
  constructor
  · rintro ⟨h, hh, -, rfl⟩
    exact mem_heldStreams hh
  · intro hp
    obtain ⟨h, hh, heq⟩ := List.mem_map.1 hp
    exact ⟨h, hh, hs.handle_valid h hh, heq⟩

/-- The clean-up keeps the entries in use. -/
theorem Sound.inUse_cleaned (hs : Sound s) : InUse (cleaned c s) ↔ InUse s.pool := by
  constructor
  · rintro ⟨p, hp, huse⟩
    exact ⟨p, (hs.cleaned_all_sublist c).subset hp, huse⟩
  · rintro ⟨p, hp, huse⟩
    refine ⟨p, ?_, huse⟩
    rw [cleanup_all hs.idle_unused]
    exact List.mem_filter.2 ⟨hp, by rw [huse, Bool.true_or]⟩

/-- A caller that is served leaves a connection in use, or blocks, or changes nothing about the
ones in use. -/
theorem Served.wakeable_iff (hs : Sound s) (hw : s.blocked ≠ [] → InUse s.pool) {resumed : Bool}
    {endpoint : Endpoint} {connects : Bool} {r : State × Answer}
    (h : Served c resumed s endpoint connects r) :
    (r.1.blocked ≠ [] → InUse r.1.pool) ↔
      ¬ (NoMatch (cleaned c s) endpoint ∧ (resumed = true → (cleaned c s).idle = []) ∧
        c.maxConnections ≤ (cleaned c s).all.length ∧ ¬ InUse s.pool) := by
  have hsearch := hs.searched c (List.nil_sublist _)
  cases h with
  | lends pre p idle hidle hpre hp =>
    have hmem : p ∈ (cleaned c s).idle := by
      rw [hidle]; exact List.mem_append_cons_self
    exact iff_of_true (fun _ => ⟨p, hs.cleaned_idle_mem c hmem, by rw [lend_info_self]⟩)
      fun hstrand => hstrand.1 p hmem hp
  | creates hnone hroom =>
    have hleft : ¬ (NoMatch (cleaned c s) endpoint ∧ (resumed = true → (cleaned c s).idle = []) ∧
        c.maxConnections ≤ (cleaned c s).all.length ∧ ¬ InUse s.pool) := by
      rintro ⟨-, hempty, hfull, -⟩
      obtain ⟨hres, hne⟩ := hroom.resolve_left hfull.not_gt
      exact hne (hempty hres)
    refine iff_of_true (fun hblocked => ?_) hleft
    cases connects with
    | false => exact hs.inUse_cleaned.2 (hw hblocked)
    | true =>
      rw [createNewConnection_true]
      exact ⟨_, List.mem_append_right _ (List.mem_singleton_self _), by rw [lend_info_self]⟩
  | waits hnone hfull hempty =>
    have hblocked : s.blocked ++ [endpoint] ≠ [] := List.append_ne_nil_of_right_ne_nil _ (by simp)
    rw [not_and, not_and, not_and, not_not, forall_prop_of_true hblocked,
      forall_prop_of_true hnone, forall_prop_of_true hempty, forall_prop_of_true hfull]
    exact hs.inUse_cleaned

/-- A notification leaves a caller blocked when there were two. -/
theorem notifyOne_blocked_ne_nil_iff (pick : ℕ) (s : State) :
    (notifyOne pick s).blocked ≠ [] ↔ 2 ≤ s.blocked.length := by
  unfold notifyOne
  split
  · rename_i w hw
    have hlt := (List.getElem?_eq_some_iff.1 hw).1
    rw [← List.length_pos_iff]
    show 0 < (s.blocked.eraseIdx _).length ↔ _
    rw [List.length_eraseIdx_of_lt hlt]
    omega
  · rename_i hnone
    have hlen : s.blocked.length = 0 := by
      by_contra hne
      exact absurd (List.getElem?_eq_none_iff.1 hnone)
        (Nat.mod_lt pick (Nat.pos_of_ne_zero hne)).not_ge
    rw [hlen, List.length_eq_zero_iff.1 hlen]
    simp

/-- After a return, the entries in use are the others that were. -/
theorem inUse_giveBack_iff (s : State) (p : ℕ) :
    InUse (giveBack s p).pool ↔ ∃ q ∈ s.pool.all, q ≠ p ∧ (s.pool.info q).inUse = true := by
  refine exists_congr fun q => and_congr_right fun _ => ?_
  rcases eq_or_ne q p with rfl | hne
  · rw [giveBack_info_self]
    exact iff_of_false Bool.false_ne_true fun h => h.1 rfl
  · rw [giveBack_info_of_ne _ _ hne, and_iff_right hne]

theorem wakeable_next_iff (hs : Sound s) (hw : s.blocked ≠ [] → InUse s.pool) {e : Event}
    {t : State} (h : (machine c).next s e = some t) :
    (t.blocked ≠ [] → InUse t.pool) ↔ ¬ Strands c s e := by
  obtain ⟨r, hr, rfl⟩ := hs.moves_next h
  cases hr with
  | call hserved =>
    rw [hserved.wakeable_iff hs hw]
    apply not_congr
    constructor
    · rintro ⟨hno, -, hstrand⟩
      exact ⟨hno, hstrand⟩
    · rintro ⟨hno, hstrand⟩
      exact ⟨hno, fun hf => absurd hf Bool.false_ne_true, hstrand⟩
  | wake hi =>
    refine iff_of_true (fun _ => hw fun hnil => ?_) id
    rw [hnil] at hi
    cases hi
  | resume hwoken hserved =>
    rw [hserved.wakeable_iff (hs.unwait _) hw]
    apply not_congr
    constructor
    · rintro ⟨-, hempty, hstrand⟩
      exact ⟨Option.isSome_iff_exists.2 ⟨_, hwoken⟩, hempty rfl, hstrand⟩
    · rintro ⟨-, hempty, hstrand⟩
      refine ⟨?_, fun _ => hempty, hstrand⟩
      intro p hp
      rw [show (cleaned c (unwait s _)).idle = [] from hempty] at hp
      cases hp
  | @destroy i pick g hi hp =>
    rw [notifyOne_blocked_ne_nil_iff, notifyOne_pool, inUse_giveBack_iff]
    show (2 ≤ s.blocked.length → ∃ q ∈ s.pool.all, q ≠ g.stream.id ∧ _) ↔ _
    constructor
    · rintro hother ⟨htwo, g', hi', -, hlast⟩
      cases hi.symm.trans hi'
      obtain ⟨q, hq, hne, huse⟩ := hother htwo
      exact hne ((hs.stream_id q hq).symm.trans (hlast q hq huse))
    · intro hnot htwo
      -- otherwise the returned connection is the last one in use
      by_contra hnone
      refine hnot ⟨htwo, g, hi, ⟨_, hp, hs.stream_id _ hp⟩, fun q hq huse => ?_⟩
      rw [hs.stream_id q hq]
      by_contra hne
      exact hnone ⟨q, hq, hne, huse⟩
  | @destroyClosed i pick g hi hp =>
    refine iff_of_true hw ?_
    rintro ⟨-, g', hi', ⟨p, hmem, heq⟩, -⟩
    cases hi.symm.trans hi'
    rw [hs.stream_id p hmem] at heq
    exact hp (heq ▸ hmem)
  | close =>
    constructor
    · intro h hne
      obtain ⟨p, hp, -⟩ := h hne
      cases hp
    · intro h hne
      exact absurd hne h
  | tick => exact iff_of_true hw id

/-- **When every blocked caller can still be woken.** -/
theorem always_wakeable_iff (c : Config) (es : List Event) :
    (machine c).Always Wakeable initial es ↔
      (machine c).Along (fun s e _ => ¬ Strands c s e) initial es :=
  Machine.always_iff_along (I := Sound) (fun _ _ _ hs => hs.next)
    (fun _ _ _ hs hw h =>
      (hs.next h).wakeable_iff.trans (wakeable_next_iff hs (hs.wakeable_iff.1 hw) h))
    sound_initial (fun h => absurd rfl h) es

/-- A pool for one connection: the search for the second endpoint pops the idle connection to
the first one, and the caller waits for a return that cannot come. -/
theorem caller_stranded :
    ∃ s, (machine ⟨1, 300⟩).run initial [.getConnection sampleEndpoints.1 true, .destroy 0 0,
        .getConnection sampleEndpoints.2 true] = some s ∧
      s.blocked = [sampleEndpoints.2] ∧ s.handles = [] ∧ ¬ Wakeable s := by
  refine ⟨_, rfl, rfl, rfl, fun hw => ?_⟩
  obtain ⟨-, -, h, hh, -⟩ := hw (List.cons_ne_nil _ _)
  exact List.not_mem_nil hh

end Kaiten.ConnectionPool
