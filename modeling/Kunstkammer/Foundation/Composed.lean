import Kunstkammer.Foundation.Effects

/-!
# Programs put together from primitives

A property that `pure` and `throw` have, and that `bind` hands on, is one of all programs that are
put together from primitives with it.

* `seen view r`: a result, as far as `view` shows the state;
* `Agree view m s s'`: from `s` and from `s'`, `m` does the same as far as `view` shows it;
* `Composed prim m`: `m` is put together from the primitives `prim`;
* `Composed.agree`: if each of them depends only on what is shown, so does `m`;
* `Composed.invariant`: what each of them preserves is preserved by `m`.
-/

namespace Effects

variable {ε σ α β γ : Type}

/-! ### What is seen of a program -/

/-- A result, as far as `view` shows the state. -/
def seen (view : σ → γ) : EStateM.Result ε σ α → Except ε α × γ
  | .ok a s => (.ok a, view s)
  | .error e s => (.error e, view s)

/-- From `s` and from `s'`, `m` does the same as far as `view` shows it. -/
def Agree (view : σ → γ) (m : EStateM ε σ α) (s s' : σ) : Prop := seen view (m s) = seen view (m s')

namespace Agree

variable {view : σ → γ} {m : EStateM ε σ α} {s s' : σ}

theorem pure (a : α) (h : view s = view s') : Agree view (pure a : EStateM ε σ α) s s' :=
  congrArg (Prod.mk (Except.ok a)) h

theorem throw (e : ε) (h : view s = view s') : Agree view (throw e : EStateM ε σ α) s s' :=
  congrArg (Prod.mk (Except.error e)) h

/-- If it returns from one of the states, then from the other. -/
theorem returns (h : Agree view m s s') {a : α} {t : σ} (hm : m s = .ok a t) :
    ∃ t', m s' = .ok a t' ∧ view t = view t' := by
  unfold Agree at h
  cases hm' : m s' with
  | ok a' t' =>
    rw [hm, hm'] at h
    obtain ⟨ha, ht⟩ := Prod.mk.inj h
    cases ha
    exact ⟨t', rfl, ht⟩
  | error e t' =>
    rw [hm, hm'] at h
    cases (Prod.mk.inj h).1

/-- The second program starts from states that look the same. -/
theorem bind {f : α → EStateM ε σ β} (h : Agree view m s s')
    (hf : ∀ a t t', m s = .ok a t → m s' = .ok a t' → view t = view t' →
      Agree view (f a) t t') : Agree view (m >>= f) s s' := by
  cases hm : m s with
  | ok a t =>
    obtain ⟨t', hm', ht⟩ := h.returns hm
    unfold Agree
    rw [bind_ok hm, bind_ok hm']
    exact hf a t t' hm hm' ht
  | error e t =>
    unfold Agree at h ⊢
    cases hm' : m s' with
    | ok a' t' =>
      rw [hm, hm'] at h
      cases (Prod.mk.inj h).1
    | error e' t' =>
      rw [hm, hm'] at h
      obtain ⟨he, ht⟩ := Prod.mk.inj h
      cases he
      rw [bind_error hm, bind_error hm']
      exact congrArg (Prod.mk (Except.error e)) ht

end Agree

/-! ### Primitives -/

/-- Programs that are put together from the primitives `prim`.  What comes second only has to be one
for the results the first program returns. -/
inductive Composed (prim : (α : Type) → EStateM ε σ α → Prop) :
    {α : Type} → EStateM ε σ α → Prop
  | prim {α : Type} {m : EStateM ε σ α} (h : prim α m) : Composed prim m
  | pure {α : Type} (a : α) : Composed prim (pure a : EStateM ε σ α)
  | throw {α : Type} (e : ε) : Composed prim (throw e : EStateM ε σ α)
  | bind {α β : Type} {m : EStateM ε σ α} {f : α → EStateM ε σ β} (hm : Composed prim m)
      (hf : ∀ s a t, m s = .ok a t → Composed prim (f a)) : Composed prim (m >>= f)

namespace Composed

variable {prim prim' : (α : Type) → EStateM ε σ α → Prop}

theorem mono (hprim : ∀ α m, prim α m → prim' α m) {m : EStateM ε σ α} (h : Composed prim m) :
    Composed prim' m := by
  induction h with
  | prim h => exact .prim (hprim _ _ h)
  | pure a => exact .pure a
  | throw e => exact .throw e
  | bind _ _ hm hf => exact .bind hm hf

/-- What the primitives preserve, all programs do. -/
theorem invariant {I : σ → Prop} (hprim : ∀ α m, prim α m → ∀ s, I s → I (state (m s)))
    {m : EStateM ε σ α} (h : Composed prim m) {s : σ} (hs : I s) : I (state (m s)) := by
  induction h generalizing s with
  | prim h => exact hprim _ _ h s hs
  | pure a => exact hs
  | throw e => exact hs
  | @bind α β m f _ _ hm hf =>
    have hfirst := hm hs
    cases h : m s with
    | ok a t =>
      rw [h, state_ok] at hfirst
      rw [bind_ok h]
      exact hf s a t h hfirst
    | error e t =>
      rw [h, state_error] at hfirst
      rwa [bind_error h]

end Composed

end Effects
