import Mathlib.Tactic

/-!
# Programs that write a log

A program over a state may fail; one part of its state is a log that only grows.

* `EStateM.Result.state`: the state a program ends in, whether it fails or not;
* `EmitsAt log P m s`, `Emits log P m`: from the state `s`, or from every state, the program `m`
  only appends entries with the property `P` to the log;
* the rules of `Emits` for the constructs of programs: `pure`, `throw`, `bind`, `mono`;
* `EmitsEach log P xs m s`: a loop over `xs` appends a piece for every element it reaches;
* `ShowsAt log f out m s`: what is read off the entries that `m` appends, in their order;
* `FollowsAt log R m s`: every entry that `m` appends stands in `R` to the log before it;
* `Traces device log step m`: what `m` appends to the log is how it has moved a device;
* `Keeps part m`: the program leaves a part of the state alone;
* `Ensures pre m post`: from the states with `pre`, the program returns with `post`;
* `Same m m'`: the programs fail in the same way or return, and leave the same state, whatever they
  return.
-/

namespace Effects

variable {ε σ E α β : Type}

/-- The state after a program. -/
def state : EStateM.Result ε σ α → σ
  | .ok _ s => s
  | .error _ s => s

@[simp] theorem state_ok (a : α) (s : σ) : state (.ok a s : EStateM.Result ε σ α) = s := rfl

@[simp] theorem state_error (e : ε) (s : σ) : state (.error e s : EStateM.Result ε σ α) = s := rfl

/-- One program after another, when the first succeeds. -/
theorem bind_ok {m : EStateM ε σ α} {f : α → EStateM ε σ β} {s t : σ} {a : α}
    (h : m s = .ok a t) : (m >>= f) s = f a t := by
  show EStateM.bind m f s = f a t
  rw [EStateM.bind, h]

/-- One program after another, when the first fails. -/
theorem bind_error {m : EStateM ε σ α} {f : α → EStateM ε σ β} {s t : σ} {e : ε}
    (h : m s = .error e t) : (m >>= f) s = .error e t := by
  show EStateM.bind m f s = .error e t
  rw [EStateM.bind, h]

/-- A sequence succeeds when both of its parts do. -/
theorem bind_eq_ok {m : EStateM ε σ α} {f : α → EStateM ε σ β} {s u : σ} {b : β} :
    (m >>= f) s = .ok b u ↔ ∃ a t, m s = .ok a t ∧ f a t = .ok b u := by
  constructor
  · intro h
    cases hm : m s with
    | ok a t =>
      rw [bind_ok hm] at h
      exact ⟨a, t, rfl, h⟩
    | error e t =>
      rw [bind_error hm] at h
      cases h
  · rintro ⟨a, t, hm, hf⟩
    rw [bind_ok hm, hf]

/-- A value computed at the end does not change the state. -/
theorem state_bind_pure (m : EStateM ε σ α) (f : α → β) (s : σ) :
    state ((m >>= fun a => pure (f a)) s) = state (m s) := by
  cases h : m s with
  | ok a t => rw [bind_ok h]; rfl
  | error e t => rw [bind_error h]; rfl

/-! ### What is appended to the log -/

/-- From the state `s`, `m` only appends entries with the property `P`. -/
def EmitsAt (log : σ → List E) (P : E → Prop) (m : EStateM ε σ α) (s : σ) : Prop :=
  ∃ es, log (state (m s)) = log s ++ es ∧ ∀ e ∈ es, P e

/-- The second program may rely on what the first one returns, and where. -/
theorem EmitsAt.bind {log : σ → List E} {P : E → Prop} {m : EStateM ε σ α}
    {f : α → EStateM ε σ β} {s : σ} (hm : EmitsAt log P m s)
    (hf : ∀ a t, m s = .ok a t → EmitsAt log P (f a) t) : EmitsAt log P (m >>= f) s := by
  obtain ⟨es, hes, hP⟩ := hm
  cases h : m s with
  | ok a t =>
    obtain ⟨fs, hfs, hP'⟩ := hf a t h
    rw [h, state_ok] at hes
    refine ⟨es ++ fs, by rw [bind_ok h, hfs, hes, List.append_assoc], fun e he => ?_⟩
    rcases List.mem_append.1 he with he | he
    · exact hP e he
    · exact hP' e he
  | error e t =>
    rw [h, state_error] at hes
    exact ⟨es, by rw [bind_error h, state_error, hes], hP⟩

/-- `m` only appends entries with the property `P`, from every state. -/
def Emits (log : σ → List E) (P : E → Prop) (m : EStateM ε σ α) : Prop :=
  ∀ s, ∃ es, log (state (m s)) = log s ++ es ∧ ∀ e ∈ es, P e

namespace Emits

variable {log : σ → List E} {P Q : E → Prop}

theorem pure (a : α) : Emits log P (pure a : EStateM ε σ α) :=
  fun s => ⟨[], (List.append_nil _).symm, by simp⟩

theorem throw (e : ε) : Emits log P (throw e : EStateM ε σ α) :=
  fun s => ⟨[], (List.append_nil _).symm, by simp⟩

/-- A program that leaves the log alone. -/
theorem of_log_eq {m : EStateM ε σ α} (h : ∀ s, log (state (m s)) = log s) : Emits log P m :=
  fun s => ⟨[], by rw [h, List.append_nil], by simp⟩

theorem mono {m : EStateM ε σ α} (h : Emits log P m) (hPQ : ∀ e, P e → Q e) : Emits log Q m :=
  fun s => (h s).imp fun _ hes => ⟨hes.1, fun e he => hPQ e (hes.2 e he)⟩

/-- The second program may rely on what the first one returns. -/
theorem bind {m : EStateM ε σ α} {f : α → EStateM ε σ β} (hm : Emits log P m)
    (hf : ∀ s a t, m s = .ok a t → Emits log P (f a)) : Emits log P (m >>= f) :=
  fun s => EmitsAt.bind (hm s) fun a t h => hf s a t h t

theorem length_le {m : EStateM ε σ α} (h : Emits log P m) (s : σ) :
    (log s).length ≤ (log (state (m s))).length := by
  obtain ⟨es, hes, -⟩ := h s
  rw [hes, List.length_append]
  exact Nat.le_add_right _ _

/-- What the first program has written stays. -/
theorem prefix_bind (m : EStateM ε σ α) {f : α → EStateM ε σ β} (hf : ∀ a, Emits log P (f a))
    (s : σ) : log (state (m s)) <+: log (state ((m >>= f) s)) := by
  cases h : m s with
  | ok a t =>
    obtain ⟨es, hes, -⟩ := hf a t
    rw [bind_ok h, hes, state_ok]
    exact List.prefix_append _ _
  | error e t => rw [bind_error h, state_error, state_error]

theorem length_lt_bind {m : EStateM ε σ α} {f : α → EStateM ε σ β} {s : σ}
    (hm : (log s).length < (log (state (m s))).length) (hf : ∀ a, Emits log P (f a)) :
    (log s).length < (log (state ((m >>= f) s))).length := by
  cases h : m s with
  | ok a t =>
    rw [h, state_ok] at hm
    rw [bind_ok h]
    exact hm.trans_le ((hf a).length_le t)
  | error e t =>
    rw [h, state_error] at hm
    rwa [bind_error h]

end Emits

/-! ### What a loop appends -/

/-- From the state `s`, `m` works off `xs` from the front: for every element `x` it reaches, it
appends a piece with the property `P x`, and when it returns it has reached them all. -/
def EmitsEach {X : Type} (log : σ → List E) (P : X → E → Prop) (xs : List X) (m : EStateM ε σ α)
    (s : σ) : Prop :=
  ∃ pieces, log (state (m s)) = log s ++ pieces.flatten ∧ pieces.length ≤ xs.length ∧
    List.Forall₂ (fun x es => ∀ e ∈ es, P x e) (xs.take pieces.length) pieces ∧
    ((∃ a t, m s = .ok a t) → pieces.length = xs.length)

namespace EmitsEach

variable {X : Type} {log : σ → List E} {P : X → E → Prop} {x : X} {xs : List X} {s : σ}

theorem nil (a : α) : EmitsEach log P [] (pure a : EStateM ε σ α) s :=
  ⟨[], (List.append_nil _).symm, le_rfl, .nil, fun _ => rfl⟩

theorem cons {m : EStateM ε σ α} {f : α → EStateM ε σ β} (hm : EmitsAt log (P x) m s)
    (hf : ∀ a t, m s = .ok a t → EmitsEach log P xs (f a) t) :
    EmitsEach log P (x :: xs) (m >>= f) s := by
  obtain ⟨es, hes, hP⟩ := hm
  cases h : m s with
  | ok a t =>
    obtain ⟨pieces, hlog, hle, hpieces, hall⟩ := hf a t h
    rw [h, state_ok] at hes
    refine ⟨es :: pieces, ?_, Nat.succ_le_succ hle, .cons hP hpieces, fun hok => ?_⟩
    · rw [bind_ok h, hlog, hes, List.flatten_cons, List.append_assoc]
    · rw [bind_ok h] at hok
      rw [List.length_cons, List.length_cons, hall hok]
  | error e t =>
    rw [h, state_error] at hes
    refine ⟨[es], ?_, Nat.succ_le_succ (Nat.zero_le _), .cons hP .nil, ?_⟩
    · rw [bind_error h, state_error, hes, List.flatten_singleton]
    · rintro ⟨a, u, hok⟩
      rw [bind_error h] at hok
      cases hok

/-- A value computed at the end. -/
theorem bind_pure {m : EStateM ε σ α} (h : EmitsEach log P xs m s) (g : α → β) :
    EmitsEach log P xs (m >>= fun a => pure (g a)) s := by
  obtain ⟨pieces, hlog, hle, hpieces, hall⟩ := h
  refine ⟨pieces, by rw [state_bind_pure, hlog], hle, hpieces, fun hok => hall ?_⟩
  obtain ⟨b, u, hok⟩ := hok
  obtain ⟨a, t, ha, -⟩ := bind_eq_ok.1 hok
  exact ⟨a, t, ha⟩

end EmitsEach

/-! ### What is read off the log -/

/-- From the state `s`, `m` appends entries off which `f` reads `out`. -/
def ShowsAt {γ : Type} (log : σ → List E) (f : E → Option γ) (out : List γ)
    (m : EStateM ε σ α) (s : σ) : Prop :=
  ∃ es, log (state (m s)) = log s ++ es ∧ es.filterMap f = out

namespace ShowsAt

variable {γ : Type} {log : σ → List E} {f : E → Option γ} {out out' : List γ}

/-- Nothing is read off the entries a program appends. -/
theorem of_emits {m : EStateM ε σ α} (h : Emits log (fun e => f e = none) m) (s : σ) :
    ShowsAt log f [] m s := by
  obtain ⟨es, hes, hnone⟩ := h s
  exact ⟨es, hes, List.filterMap_eq_nil_iff.2 hnone⟩

/-- A program that fails at its start. -/
theorem of_error {m : EStateM ε σ α} {s : σ} {e : ε} (h : m s = .error e s) :
    ShowsAt log f [] m s :=
  ⟨[], by rw [h, state_error, List.append_nil], rfl⟩

/-- What is shown after the first program is shown later. -/
theorem bind {m : EStateM ε σ α} {g : α → EStateM ε σ β} {s t : σ} {a : α}
    (h : m s = .ok a t) (hm : ShowsAt log f out m s) (hg : ShowsAt log f out' (g a) t) :
    ShowsAt log f (out ++ out') (m >>= g) s := by
  obtain ⟨es, hes, rfl⟩ := hm
  obtain ⟨fs, hfs, rfl⟩ := hg
  rw [h, state_ok] at hes
  exact ⟨es ++ fs, by rw [bind_ok h, hfs, hes, List.append_assoc], List.filterMap_append⟩

/-- The second program shows nothing, whether it is reached or not. -/
theorem bind_nil {m : EStateM ε σ α} {g : α → EStateM ε σ β} {s : σ}
    (hm : ShowsAt log f out m s) (hg : ∀ a t, ShowsAt log f [] (g a) t) :
    ShowsAt log f out (m >>= g) s := by
  cases h : m s with
  | ok a t =>
    rw [← List.append_nil out]
    exact hm.bind h (hg a t)
  | error e t =>
    obtain ⟨es, hes, hout⟩ := hm
    rw [h, state_error] at hes
    exact ⟨es, by rw [bind_error h, state_error, hes], hout⟩

end ShowsAt

/-! ### What is appended after what -/

/-- Each of the entries stands in the relation `R` to what is before it: the history, and the
entries that precede it. -/
def Follows (R : List E → E → Prop) (history es : List E) : Prop :=
  ∀ before e after, es = before ++ e :: after → R (history ++ before) e

theorem Follows.append {R : List E → E → Prop} {history es fs : List E} (h : Follows R history es)
    (h' : Follows R (history ++ es) fs) : Follows R history (es ++ fs) := by
  intro before e after hsplit
  rcases List.append_eq_append_iff.1 hsplit with ⟨rest, rfl, hfs⟩ | ⟨rest, hes, hrest⟩
  · -- the entry is one of the second part
    rw [← List.append_assoc]
    exact h' rest e after hfs
  · cases rest with
    | nil =>
      rw [List.append_nil] at hes
      subst hes
      have hfirst := h' [] e after hrest.symm
      rwa [List.append_nil] at hfirst
    | cons e' rest =>
      obtain ⟨rfl, -⟩ := List.cons.inj hrest
      exact h before e rest hes

/-- From the state `s`, `m` only appends entries that stand in `R` to the log before them. -/
def FollowsAt (log : σ → List E) (R : List E → E → Prop) (m : EStateM ε σ α) (s : σ) : Prop :=
  ∃ es, log (state (m s)) = log s ++ es ∧ Follows R (log s) es

namespace FollowsAt

variable {log : σ → List E} {R : List E → E → Prop} {s : σ}

theorem pure (a : α) : FollowsAt log R (pure a : EStateM ε σ α) s :=
  ⟨[], (List.append_nil _).symm, fun before e after h => by
    cases before <;> cases h⟩

/-- Entries that are related to every history that goes on from here. -/
theorem of_emits {P : E → Prop} {m : EStateM ε σ α} (h : Emits log P m)
    (hP : ∀ history e, log s <+: history → P e → R history e) : FollowsAt log R m s := by
  obtain ⟨es, hes, hall⟩ := h s
  refine ⟨es, hes, fun before e after hsplit => ?_⟩
  refine hP _ e (List.prefix_append _ _) (hall e ?_)
  rw [hsplit]
  exact List.mem_append_right _ List.mem_cons_self

/-- The second program goes on from where the first one ends. -/
theorem bind {m : EStateM ε σ α} {f : α → EStateM ε σ β} (hm : FollowsAt log R m s)
    (hf : ∀ a t, m s = .ok a t → FollowsAt log R (f a) t) : FollowsAt log R (m >>= f) s := by
  obtain ⟨es, hes, hfollows⟩ := hm
  cases h : m s with
  | ok a t =>
    obtain ⟨fs, hfs, hfollows'⟩ := hf a t h
    rw [h, state_ok] at hes
    rw [hes] at hfollows'
    exact ⟨es ++ fs, by rw [bind_ok h, hfs, hes, List.append_assoc], hfollows.append hfollows'⟩
  | error e t =>
    rw [h, state_error] at hes
    exact ⟨es, by rw [bind_error h, state_error, hes], hfollows⟩

end FollowsAt

/-! ### What the log tells of a device -/

/-- The entries tell how a device got from the first state to the second one: each of them stands in
`step` between the states before and after it. -/
inductive Trace {D : Type} (step : D → E → D → Prop) : D → List E → D → Prop
  | nil (d : D) : Trace step d [] d
  | cons {d d' d'' : D} {e : E} {es : List E} (h : step d e d') (hes : Trace step d' es d'') :
      Trace step d (e :: es) d''

theorem Trace.append {D : Type} {step : D → E → D → Prop} {d d' d'' : D} {es fs : List E}
    (h : Trace step d es d') (h' : Trace step d' fs d'') : Trace step d (es ++ fs) d'' := by
  induction h with
  | nil => exact h'
  | cons hstep _ ih => exact .cons hstep (ih h')

/-- `m` moves the device only in steps that it appends to the log. -/
def Traces {D : Type} (device : σ → D) (log : σ → List E) (step : D → E → D → Prop)
    (m : EStateM ε σ α) : Prop :=
  ∀ s, ∃ es, log (state (m s)) = log s ++ es ∧ Trace step (device s) es (device (state (m s)))

namespace Traces

variable {D : Type} {device : σ → D} {log : σ → List E} {step : D → E → D → Prop}

theorem pure (a : α) : Traces device log step (pure a : EStateM ε σ α) :=
  fun _ => ⟨[], (List.append_nil _).symm, .nil _⟩

theorem throw (e : ε) : Traces device log step (throw e : EStateM ε σ α) :=
  fun _ => ⟨[], (List.append_nil _).symm, .nil _⟩

/-- A program that leaves the device and the log alone. -/
theorem of_eq {m : EStateM ε σ α} (hdevice : ∀ s, device (state (m s)) = device s)
    (hlog : ∀ s, log (state (m s)) = log s) : Traces device log step m := by
  intro s
  refine ⟨[], by rw [hlog, List.append_nil], ?_⟩
  rw [hdevice]
  exact .nil _

/-- A program that makes one step. -/
theorem of_step {m : EStateM ε σ α} {e : σ → E} (hlog : ∀ s, log (state (m s)) = log s ++ [e s])
    (h : ∀ s, step (device s) (e s) (device (state (m s)))) : Traces device log step m :=
  fun s => ⟨[e s], hlog s, .cons (h s) (.nil _)⟩

/-- One program after another. -/
theorem bind {m : EStateM ε σ α} {f : α → EStateM ε σ β} (hm : Traces device log step m)
    (hf : ∀ a, Traces device log step (f a)) : Traces device log step (m >>= f) := by
  intro s
  obtain ⟨es, hes, htrace⟩ := hm s
  cases h : m s with
  | ok a t =>
    obtain ⟨fs, hfs, htrace'⟩ := hf a t
    rw [h, state_ok] at hes htrace
    refine ⟨es ++ fs, by rw [bind_ok h, hfs, hes, List.append_assoc], ?_⟩
    rw [bind_ok h]
    exact htrace.append htrace'
  | error e t =>
    rw [h, state_error] at hes htrace
    refine ⟨es, by rw [bind_error h, state_error, hes], ?_⟩
    rwa [bind_error h, state_error]

end Traces

/-! ### What is left alone -/

/-- `m` leaves the part `part` of the state as it is, whether it fails or not. -/
def Keeps {γ : Type} (part : σ → γ) (m : EStateM ε σ α) : Prop := ∀ s, part (state (m s)) = part s

namespace Keeps

variable {γ : Type} {part : σ → γ}

theorem pure (a : α) : Keeps part (pure a : EStateM ε σ α) := fun _ => rfl

theorem throw (e : ε) : Keeps part (throw e : EStateM ε σ α) := fun _ => rfl

theorem bind {m : EStateM ε σ α} {f : α → EStateM ε σ β} (hm : Keeps part m)
    (hf : ∀ a, Keeps part (f a)) : Keeps part (m >>= f) := by
  intro s
  have hfirst := hm s
  cases h : m s with
  | ok a t =>
    rw [h, state_ok] at hfirst
    rw [bind_ok h, hf a t, hfirst]
  | error e t =>
    rw [h, state_error] at hfirst
    rw [bind_error h, state_error, hfirst]

end Keeps

/-! ### Programs that do not fail -/

/-- From every state with `pre`, `m` returns, and its result and the state after it have `post`. -/
def Ensures (pre : σ → Prop) (m : EStateM ε σ α) (post : α → σ → Prop) : Prop :=
  ∀ s, pre s → ∃ a t, m s = .ok a t ∧ post a t

namespace Ensures

variable {pre : σ → Prop}

theorem pure {post : α → σ → Prop} {a : α} (h : ∀ s, pre s → post a s) :
    Ensures pre (pure a : EStateM ε σ α) post :=
  fun s hs => ⟨a, s, rfl, h s hs⟩

theorem mono {post post' : α → σ → Prop} {m : EStateM ε σ α} (h : Ensures pre m post)
    (hpost : ∀ a t, post a t → post' a t) : Ensures pre m post' := by
  intro s hs
  obtain ⟨a, t, hm, hat⟩ := h s hs
  exact ⟨a, t, hm, hpost a t hat⟩

/-- A fact about values that holds beforehand. -/
theorem of_and {p : Prop} {post : α → σ → Prop} {m : EStateM ε σ α}
    (h : p → Ensures pre m post) : Ensures (fun s => pre s ∧ p) m post :=
  fun s hs => h hs.2 s hs.1

/-- The second program starts from what the first one ensures. -/
theorem bind {Q : α → σ → Prop} {post : β → σ → Prop} {m : EStateM ε σ α}
    {f : α → EStateM ε σ β} (hm : Ensures pre m Q) (hf : ∀ a, Ensures (Q a) (f a) post) :
    Ensures pre (m >>= f) post := by
  intro s hs
  obtain ⟨a, t, h, hmid⟩ := hm s hs
  obtain ⟨b, u, hb, hpost⟩ := hf a t hmid
  exact ⟨b, u, (bind_ok h).trans hb, hpost⟩

end Ensures

/-! ### Programs with the same effect -/

/-- The result of a program without what it returns. -/
def erase : EStateM.Result ε σ α → EStateM.Result ε σ Unit
  | .ok _ s => .ok () s
  | .error e s => .error e s

@[simp] theorem erase_ok (a : α) (s : σ) : erase (.ok a s : EStateM.Result ε σ α) = .ok () s := rfl

@[simp] theorem erase_error (e : ε) (s : σ) :
    erase (.error e s : EStateM.Result ε σ α) = .error e s := rfl

theorem state_erase (r : EStateM.Result ε σ α) : state (erase r) = state r := by
  cases r <;> rfl

/-- Results that are the same but for what they return are returned in the same cases. -/
theorem returns_iff_of_erase {r : EStateM.Result ε σ α} {r' : EStateM.Result ε σ β}
    (h : erase r = erase r') : (∃ a t, r = .ok a t) ↔ ∃ b t, r' = .ok b t := by
  cases r with
  | ok a t =>
    cases r' with
    | ok b u => exact iff_of_true ⟨a, t, rfl⟩ ⟨b, u, rfl⟩
    | error e u => cases h
  | error e t =>
    cases r' with
    | ok b u => cases h
    | error e' u =>
      refine iff_of_false ?_ ?_
      · rintro ⟨_, _, ⟨⟩⟩
      · rintro ⟨_, _, ⟨⟩⟩

/-- Two programs that may return different results, and else do the same. -/
def Same (m : EStateM ε σ α) (m' : EStateM ε σ β) : Prop := ∀ s, erase (m s) = erase (m' s)

namespace Same

variable {γ δ : Type}

theorem refl (m : EStateM ε σ α) : Same m m := fun _ => rfl

theorem symm {m : EStateM ε σ α} {m' : EStateM ε σ β} (h : Same m m') : Same m' m :=
  fun s => (h s).symm

theorem trans {m : EStateM ε σ α} {m' : EStateM ε σ β} {m'' : EStateM ε σ γ} (h : Same m m')
    (h' : Same m' m'') : Same m m'' := fun s => (h s).trans (h' s)

theorem pure (a : α) (b : β) : Same (pure a : EStateM ε σ α) (pure b : EStateM ε σ β) :=
  fun _ => rfl

/-- One program after another, if the second does not care for the result of the first. -/
theorem bind {m : EStateM ε σ α} {m' : EStateM ε σ β} {f : α → EStateM ε σ γ}
    {f' : β → EStateM ε σ δ} (hm : Same m m') (hf : ∀ a b, Same (f a) (f' b)) :
    Same (m >>= f) (m' >>= f') := by
  intro s
  have hfirst := hm s
  cases h : m s with
  | ok a t =>
    cases h' : m' s with
    | ok b u =>
      rw [h, h'] at hfirst
      cases hfirst
      rw [bind_ok h, bind_ok h', hf a b t]
    | error e u =>
      rw [h, h'] at hfirst
      cases hfirst
  | error e t =>
    cases h' : m' s with
    | ok b u =>
      rw [h, h'] at hfirst
      cases hfirst
    | error e' u =>
      rw [h, h'] at hfirst
      cases hfirst
      rw [bind_error h, bind_error h', erase_error, erase_error]

/-- Two continuations of one program. -/
theorem bind_left (m : EStateM ε σ α) {f : α → EStateM ε σ β} {f' : α → EStateM ε σ γ}
    (hf : ∀ a, Same (f a) (f' a)) : Same (m >>= f) (m >>= f') := by
  intro s
  cases h : m s with
  | ok a t => rw [bind_ok h, bind_ok h, hf a t]
  | error e t => rw [bind_error h, bind_error h, erase_error, erase_error]

/-- A result that is computed at the end has no effect. -/
theorem bind_pure (m : EStateM ε σ α) (g : α → β) : Same (m >>= fun a => Pure.pure (g a)) m := by
  intro s
  cases h : m s with
  | ok a t => rw [bind_ok h]; rfl
  | error e t => rw [bind_error h]; rfl

end Same

end Effects
