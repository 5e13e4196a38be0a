/-
# Computations that end abruptly

A computation with a state that ends with a value or with an error, and leaves
the state it has come to either way (`EStateM`): what it did before an error
is not undone. Two statements about a part of the state, its `view`, are kept
by composition: a computation that leaves the part as it is (`Keeps`), and two
that run alike from states with the same part (`Alike`). A third is about the
state before and after, with what is used up on the way (`Leads`).
-/
import Mathlib.Data.Nat.Init
import Mathlib.Logic.Basic

namespace Abrupt

variable {ε σ τ α β : Type} {view : σ → τ} {x : EStateM ε σ α} {f : α → EStateM ε σ β} {s t : σ} {a : α} {e : ε}

/-- The state at the end. -/
def final : EStateM.Result ε σ α → σ
  | .ok _ s => s
  | .error _ s => s

theorem bind_ok (h : x s = .ok a t) : (x >>= f) s = f a t := by
  show EStateM.bind x f s = f a t
  rw [EStateM.bind, h]

theorem bind_error (h : x s = .error e t) : (x >>= f) s = .error e t := by
  show EStateM.bind x f s = .error e t
  rw [EStateM.bind, h]

/-- A part of the state stays as it is, also where the computation fails. -/
def Keeps (view : σ → τ) (x : EStateM ε σ α) : Prop := ∀ s, view (final (x s)) = view s

theorem Keeps.pure (a : α) : Keeps view (Pure.pure a : EStateM ε σ α) := fun _ => rfl

theorem Keeps.throw (e : ε) : Keeps view (MonadExcept.throw e : EStateM ε σ α) := fun _ => rfl

theorem Keeps.bind (hx : Keeps view x) (hf : ∀ a, Keeps view (f a)) : Keeps view (x >>= f) := by
  intro s
  have hs := hx s
  cases hr : x s with
  | ok a t =>
    rw [hr] at hs
    rw [bind_ok hr, hf a t]
    exact hs
  | error e t =>
    rw [hr] at hs
    rw [bind_error hr]
    exact hs

/-! ### The state before and after -/

section leads

variable {R : ℕ → σ → σ → Prop} {k m : ℕ}

/-- A relation of states that allows for so many of something. -/
structure Graded (R : ℕ → σ → σ → Prop) : Prop where
  refl : ∀ s, R 0 s s
  trans : ∀ {k m s t u}, R k s t → R m t u → R (k + m) s u
  mono : ∀ {k m s t}, k ≤ m → R k s t → R m s t

def Leads (R : ℕ → σ → σ → Prop) (k : ℕ) (x : EStateM ε σ α) : Prop := ∀ s, R k s (final (x s))

theorem Leads.of_eq (hR : Graded R) (h : ∀ s, final (x s) = s) : Leads R k x := fun s => by
  rw [h s]
  exact hR.mono (Nat.zero_le k) (hR.refl s)

/-- Only what the first computation ends with matters. -/
theorem Leads.bind_of (hR : Graded R) (hx : Leads R k x) (hf : ∀ s a t, x s = .ok a t → R m t (final (f a t))) :
    Leads R (k + m) (x >>= f) := by
  intro s
  have hs := hx s
  cases hr : x s with
  | ok a t =>
    rw [hr] at hs
    rw [bind_ok hr]
    exact hR.trans hs (hf s a t hr)
  | error e t =>
    rw [hr] at hs
    rw [bind_error hr]
    exact hR.mono (Nat.le_add_right k m) hs

theorem Leads.bind (hR : Graded R) (hx : Leads R k x) (hf : ∀ a, Leads R m (f a)) : Leads R (k + m) (x >>= f) :=
  hx.bind_of hR fun _ a t _ => hf a t

theorem Leads.mono (hR : Graded R) (h : k ≤ m) (hx : Leads R k x) : Leads R m x := fun s => hR.mono h (hx s)

end leads

/-! ### Two computations that run alike -/

/-- Both end the same way, with values that `R` relates, and leave the same part. -/
inductive Ends (view : σ → τ) (R : α → β → Prop) : EStateM.Result ε σ α → EStateM.Result ε σ β → Prop
  | ok {a : α} {b : β} {s t : σ} : R a b → view s = view t → Ends view R (.ok a s) (.ok b t)
  | error {e : ε} {s t : σ} : view s = view t → Ends view R (.error e s) (.error e t)

/-- What is not in the part of the state, or not in the relation of values, makes no
difference. -/
def Alike (view : σ → τ) (R : α → β → Prop) (x : EStateM ε σ α) (y : EStateM ε σ β) : Prop :=
  ∀ s t, view s = view t → Ends view R (x s) (y t)

variable {γ δ : Type} {R : α → γ → Prop} {Q : β → δ → Prop} {y : EStateM ε σ γ} {g : γ → EStateM ε σ δ}

theorem Alike.pure {c : γ} (h : R a c) : Alike view R (Pure.pure a : EStateM ε σ α) (Pure.pure c) :=
  fun _ _ hview => .ok h hview

theorem Alike.throw (e : ε) : Alike view R (MonadExcept.throw e : EStateM ε σ α) (MonadExcept.throw e) :=
  fun _ _ hview => .error hview

theorem Alike.bind (hx : Alike view R x y) (hf : ∀ a c, R a c → Alike view Q (f a) (g c)) :
    Alike view Q (x >>= f) (y >>= g) := by
  intro s t hview
  have hends := hx s t hview
  cases hs : x s with
  | ok a s' =>
    cases ht : y t with
    | ok c t' =>
      rw [hs, ht] at hends
      cases hends with
      | ok hR hview' =>
        rw [bind_ok hs, bind_ok ht]
        exact hf a c hR s' t' hview'
    | error e t' =>
      rw [hs, ht] at hends
      cases hends
  | error e s' =>
    cases ht : y t with
    | ok c t' =>
      rw [hs, ht] at hends
      cases hends
    | error e' t' =>
      rw [hs, ht] at hends
      cases hends with
      | error hview' =>
        rw [bind_error hs, bind_error ht]
        exact .error hview'

/-- With the same value. -/
theorem Alike.bindEq {y : EStateM ε σ α} {g : α → EStateM ε σ δ} (hx : Alike view Eq x y)
    (hf : ∀ a, Alike view Q (f a) (g a)) : Alike view Q (x >>= f) (y >>= g) :=
  hx.bind fun a _ h => h ▸ hf a

end Abrupt
