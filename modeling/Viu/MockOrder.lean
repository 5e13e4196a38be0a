/-
# The order of the calls

What `Guarded` asks of the state is a matter of the order in which the plugin,
the execution thread and the cancelling thread have made their calls
(`Ordered`): a call of the plugin comes before its transfer's callback, and
before the sweep that finds the transfer attached; the sweep does not come in
the middle of a `complete`; what is attached behind the sweep is completed
before `clear`, and nothing is attached behind that.

The calls so far tell who holds a transfer (`Traced`), so runs in that order are
safe (`calls_safe`). There is no order in which a `complete` after cancel has
returned does nothing.
-/
import Viu.MockCalls

namespace Viu
namespace MockMap

open Table

variable {κ : Type} {s u : State κ} {a b c : Act κ} {past acts : List (Act κ)} {t x : Xfer}

/-- `a` came, and later `b`. -/
def Before (a b : Act κ) (past : List (Act κ)) : Prop := [a, b].Sublist past

/-- The order that the code relies on, of a call and the calls before it. -/
def Ordered (past : List (Act κ)) : Act κ → Prop
  | .fill t | .read t | .complete t =>
    .handOver t ∉ past ∧ (Before (.attach t) .cancel past → Before (.onTransferCompletedImpl t) .cancel past)
  | .cancel => ∀ t, .complete t ∈ past → .onTransferCompletedImpl t ∈ past
  | .attach _ => .clear ∉ past
  | .clear => ∀ t, Before .cancel (.attach t) past → .onTransferCompletedImpl t ∈ past
  | .fillTransfer _ _ | .onTransferRequest _ | .onTransferCompletedImpl _ | .handOver _
  | .waitForCanceledTransfers | .destroy => True

theorem before_concat : Before a b (past ++ [c]) ↔ Before a b past ∨ a ∈ past ∧ b = c := by
  unfold Before
  rw [List.sublist_append_iff]
  constructor
  · rintro ⟨l₁, l₂, heq, h₁, h₂⟩
    rcases List.sublist_singleton.mp h₂ with rfl | rfl
    · rw [List.append_nil] at heq
      exact .inl (heq ▸ h₁)
    · have hsplit : [a] ++ [b] = l₁ ++ [c] := heq
      obtain ⟨rfl, hb⟩ := List.append_inj' hsplit rfl
      exact .inr ⟨List.singleton_sublist.mp h₁, List.head_eq_of_cons_eq hb⟩
  · rintro (h | ⟨ha, rfl⟩)
    · exact ⟨[a, b], [], rfl, h, List.nil_sublist _⟩
    · exact ⟨[a], [b], rfl, List.singleton_sublist.mpr ha, List.Sublist.refl _⟩

theorem Before.of_concat (h : Before a b (past ++ [c])) (hne : b ≠ c) : Before a b past :=
  (before_concat.mp h).resolve_right fun hc => hne hc.2

theorem Before.left (h : Before a b past) : a ∈ past := h.subset List.mem_cons_self

theorem Before.right (h : Before a b past) : b ∈ past := h.subset (List.mem_cons_of_mem _ List.mem_cons_self)

/-! ### What the calls tell of the state -/

structure Traced (past : List (Act κ)) (s : State κ) : Prop where
  attached : ∀ t, .attach t ∈ past ↔ t ∈ s.exec.given ++ s.held
  completes : ∀ t, .complete t ∈ past ↔ t ∈ keys s.completes
  sections : ∀ t, .onTransferCompletedImpl t ∈ past ↔ t ∈ keys s.completes ∧ t ∉ s.completing
  called : ∀ t, .handOver t ∈ past ↔ t ∈ keys s.called
  cancelled : .cancel ∈ past ↔ s.canceller ≠ .running
  cleared : .clear ∈ past ↔ s.canceller = .done
  swept : ∀ t, t ∈ s.swept ↔ Before (.attach t) .cancel past ∧ ¬ Before (.onTransferCompletedImpl t) .cancel past
  /-- Behind the sweep the map has what was attached behind it. -/
  late : s.canceller ≠ .running → ∀ t ∈ keys s.pendingTransfers, Before .cancel (.attach t) past
  unswept : ∀ t, Before .cancel (.attach t) past → t ∉ s.swept

theorem traced_init : Traced [] (State.init κ) where
  attached _ := iff_of_false List.not_mem_nil List.not_mem_nil
  completes _ := iff_of_false List.not_mem_nil List.not_mem_nil
  sections _ := iff_of_false List.not_mem_nil fun h => List.not_mem_nil h.1
  called _ := iff_of_false List.not_mem_nil List.not_mem_nil
  cancelled := iff_of_false List.not_mem_nil (not_not.mpr rfl)
  cleared := iff_of_false List.not_mem_nil (nomatch ·)
  swept _ := iff_of_false List.not_mem_nil fun h => List.not_mem_nil h.1.left
  late h := absurd rfl h
  unswept _ h := absurd h.left List.not_mem_nil

/-- The calls that neither give, complete, hand over nor sweep a transfer. -/
def Act.isQuiet : Act κ → Bool
  | .attach _ | .complete _ | .onTransferCompletedImpl _ | .handOver _ | .cancel | .clear => false
  | .fillTransfer _ _ | .onTransferRequest _ | .fill _ | .read _ | .waitForCanceledTransfers | .destroy => true

theorem mem_concat_of_quiet (ha : a.isQuiet = true) (hb : b.isQuiet = false) : b ∈ past ++ [a] ↔ b ∈ past := by
  rw [List.mem_append, List.mem_singleton, or_iff_left]
  rintro rfl
  exact nomatch ha.symm.trans hb

theorem before_concat_of_quiet (ha : a.isQuiet = true) (hc : c.isQuiet = false) :
    Before b c (past ++ [a]) ↔ Before b c past := by
  rw [before_concat, or_iff_left]
  rintro ⟨-, rfl⟩
  exact nomatch ha.symm.trans hc

/-- A quiet call tells nothing. -/
theorem Traced.quiet (h : Traced past s) (ha : a.isQuiet = true)
    (hg : ∀ t, t ∈ u.exec.given ++ u.held ↔ t ∈ s.exec.given ++ s.held) (hc : u.completes = s.completes)
    (hi : u.completing = s.completing) (hd : u.called = s.called) (hw : u.swept = s.swept)
    (hp : u.pendingTransfers = s.pendingTransfers) (hr : u.canceller = .running ↔ s.canceller = .running)
    (hz : u.canceller = .done ↔ s.canceller = .done) : Traced (past ++ [a]) u where
  attached t := by rw [mem_concat_of_quiet ha rfl, hg, h.attached]
  completes t := by rw [mem_concat_of_quiet ha rfl, hc, h.completes]
  sections t := by rw [mem_concat_of_quiet ha rfl, hc, hi, h.sections]
  called t := by rw [mem_concat_of_quiet ha rfl, hd, h.called]
  cancelled := by
    rw [mem_concat_of_quiet ha rfl, h.cancelled]
    exact (not_congr hr).symm
  cleared := by rw [mem_concat_of_quiet ha rfl, h.cleared, hz]
  swept t := by rw [before_concat_of_quiet ha rfl, before_concat_of_quiet ha rfl, hw, h.swept]
  late hrun t ht := by
    rw [hp] at ht
    rw [before_concat_of_quiet ha rfl]
    exact h.late (hr.not.mp hrun) t ht
  unswept t hb := by
    rw [before_concat_of_quiet ha rfl] at hb
    rw [hw]
    exact h.unswept t hb

theorem traced_attach {e : Xfer × κ} (h : Traced past s) (ho : Owned s) (he : s.exec = .filled e) :
    Traced (past ++ [.attach e.1])
      { s with pendingTransfers := s.pendingTransfers ++ [e], exec := .attached e.1 } := by
  have hunswept : e.1 ∉ s.swept := by
    have hb := ho.balance e.1
    have hw := ho.owner e.1
    have hone := List.nodup_iff_count_le_one.mp ho.nodup e.1
    rw [he, Exec.own, List.count_singleton_self] at hw
    exact List.count_eq_zero.mp (by omega)
  refine ⟨fun t => ?_, fun t => ?_, fun t => ?_, fun t => ?_, ?_, ?_, fun t => ?_, fun hrun t ht => ?_, fun t hb => ?_⟩
  · have hatt := h.attached t
    rw [he] at hatt
    simp only [List.mem_append, List.mem_singleton, Act.attach.injEq, Exec.given, hatt, List.not_mem_nil, false_or]
    exact or_comm
  · simpa using h.completes t
  · simpa using h.sections t
  · simpa using h.called t
  · simpa using h.cancelled
  · simpa using h.cleared
  · simpa [before_concat] using h.swept t
  · rw [before_concat]
    rw [keys_append] at ht
    rcases List.mem_append.mp ht with ht | ht
    · exact .inl (h.late hrun t ht)
    · obtain rfl : t = e.1 := List.mem_singleton.mp ht
      exact .inr ⟨h.cancelled.mpr hrun, rfl⟩
  · rcases before_concat.mp hb with hb | ⟨-, hb⟩
    · exact h.unswept t hb
    · cases hb
      exact hunswept

theorem traced_complete (h : Traced past s) (hc : t ∉ keys s.completes) :
    Traced (past ++ [.complete t]) (s.complete t) := by
  have hkeys : keys (s.complete t).completes = keys s.completes ++ [t] := keys_append _
  refine ⟨fun x => ?_, fun x => ?_, fun x => ?_, fun x => ?_, ?_, ?_, fun x => ?_, fun hrun x hx => ?_, fun x hb => ?_⟩
  · simpa [State.complete, State.use] using h.attached x
  · rw [hkeys, List.mem_append, List.mem_append, List.mem_singleton, List.mem_singleton, h.completes,
      Act.complete.injEq]
  · rw [hkeys]
    simp only [List.mem_append, List.mem_singleton, h.sections, reduceCtorEq, or_false, State.complete, State.use]
    by_cases hx : x = t
    · subst hx
      simp [hc]
    · simp [hx]
  · simpa [State.complete, State.use] using h.called x
  · simpa [State.complete, State.use] using h.cancelled
  · simpa [State.complete, State.use] using h.cleared
  · simpa [before_concat, State.complete, State.use] using h.swept x
  · exact before_concat.mpr (.inl (h.late hrun x hx))
  · exact h.unswept x (hb.of_concat (by simp))

theorem Owned.nodup_completing (ho : Owned s) : s.completing.Nodup := by
  rw [List.nodup_iff_count_le_one]
  intro x
  have hmap := ho.completing x
  have hlive := ho.owner x
  have hone := ho.count_live_le_one (x := x)
  omega

theorem traced_takeOut {cb : κ} (h : Traced past s) (ho : Owned s) (hc : t ∈ s.completing) :
    Traced (past ++ [.onTransferCompletedImpl t]) { s.use t with
      pendingTransfers := remove s.pendingTransfers t
      completing := s.completing.erase t
      calling := s.calling ++ [(t, cb)] } := by
  have herase : ∀ x, x ∈ s.completing.erase t ↔ x ∈ s.completing ∧ x ≠ t := fun x => by
    rw [ho.nodup_completing.mem_erase_iff]
    exact and_comm
  refine ⟨fun x => ?_, fun x => ?_, fun x => ?_, fun x => ?_, ?_, ?_, fun x => ?_, fun hrun x hx => ?_, fun x hb => ?_⟩
  · simpa [State.use] using h.attached x
  · simpa [State.use] using h.completes x
  · simp only [List.mem_append, List.mem_singleton, h.sections, Act.onTransferCompletedImpl.injEq, herase, State.use]
    by_cases hx : x = t
    · subst hx
      simp [ho.completed x hc]
    · simp [hx]
  · simpa [State.use] using h.called x
  · simpa [State.use] using h.cancelled
  · simpa [State.use] using h.cleared
  · simpa [before_concat, State.use] using h.swept x
  · obtain ⟨e, he, rfl⟩ := List.mem_map.mp hx
    exact before_concat.mpr (.inl (h.late hrun e.1 (mem_keys_of_mem (mem_remove.mp he).1)))
  · exact h.unswept x (hb.of_concat (by simp))

theorem traced_handOver {cb : κ} (h : Traced past s) : Traced (past ++ [.handOver t]) { s with
    live := s.live.erase t
    calling := remove s.calling t
    called := s.called ++ [(t, cb)] } := by
  refine ⟨fun x => ?_, fun x => ?_, fun x => ?_, fun x => ?_, ?_, ?_, fun x => ?_, fun hrun x hx => ?_, fun x hb => ?_⟩
  · simpa using h.attached x
  · simpa using h.completes x
  · simpa using h.sections x
  · rw [keys_append]
    simp [h.called x, keys]
  · simpa using h.cancelled
  · simpa using h.cleared
  · simpa [before_concat] using h.swept x
  · exact before_concat.mpr (.inl (h.late hrun x hx))
  · exact h.unswept x (hb.of_concat (by simp))

/-- The sweep finds what is attached and has not come to its section. -/
theorem Traced.pending_iff (h : Traced past s) (ho : Owned s) (hnone : s.swept = []) :
    t ∈ keys s.pendingTransfers ↔ .attach t ∈ past ∧ .onTransferCompletedImpl t ∉ past := by
  rw [h.attached, h.sections]
  constructor
  · exact fun ht => ⟨ho.given t ht, fun hsec => hsec.2 (ho.underWay t ht hsec.1)⟩
  · rintro ⟨hg, hsec⟩
    by_cases hc : t ∈ keys s.completes
    · exact ho.pending_of_completing (by_contra fun hn => hsec ⟨hc, hn⟩)
    · exact ho.waits t hg (by rw [hnone]; exact List.not_mem_nil) hc

theorem traced_cancel (h : Traced past s) (ho : Owned s) (hrun : s.canceller = .running) :
    Traced (past ++ [.cancel]) s.cancel := by
  have hfirst : .cancel ∉ past := fun hm => h.cancelled.mp hm hrun
  have hnone : s.swept = [] := List.eq_nil_iff_forall_not_mem.mpr fun x hx => hfirst ((h.swept x).mp hx).1.right
  refine ⟨fun x => ?_, fun x => ?_, fun x => ?_, fun x => ?_, ?_, ?_, fun x => ?_, fun _ x hx => ?_, fun x hb => ?_⟩
  · simpa [State.cancel] using h.attached x
  · simpa [State.cancel] using h.completes x
  · simpa [State.cancel] using h.sections x
  · simpa [State.cancel] using h.called x
  · simp [State.cancel]
  · have hclear := h.cleared
    rw [hrun] at hclear
    simpa [State.cancel] using hclear
  · have hbefore : ∀ b : Act κ, ¬ Before b .cancel past := fun b hb => hfirst hb.right
    simp only [before_concat, hbefore, false_or, and_true]
    rw [State.cancel, hnone, List.nil_append]
    exact h.pending_iff ho hnone
  · cases hx
  · rcases before_concat.mp hb with hb | ⟨-, hb⟩
    · exact absurd hb.left hfirst
    · cases hb

theorem traced_clear (h : Traced past s) (hc : s.canceller = .clearing) :
    Traced (past ++ [.clear]) { s with pendingTransfers := [], canceller := .done } := by
  refine ⟨fun x => ?_, fun x => ?_, fun x => ?_, fun x => ?_, ?_, ?_, fun x => ?_, fun _ x hx => ?_, fun x hb => ?_⟩
  · simpa using h.attached x
  · simpa using h.completes x
  · simpa using h.sections x
  · simpa using h.called x
  · have hcancel := h.cancelled
    rw [hc] at hcancel
    simpa using hcancel
  · simp
  · simpa [before_concat] using h.swept x
  · cases hx
  · exact h.unswept x (hb.of_concat (by simp))

theorem Traced.step (h : Traced past s) (ho : Owned s) (hok : Guarded s a) (hst : Step s a u) :
    Traced (past ++ [a]) u := by
  cases hst with
  | fillTransfer he =>
    refine h.quiet rfl (fun x => ?_) rfl rfl rfl rfl rfl Iff.rfl Iff.rfl
    rw [he]
    exact Iff.rfl
  | attach he => exact traced_attach h ho he
  | attachTwice he hp => exact absurd hp (ho.not_pending_of_filled he)
  | onTransferRequest he =>
    refine h.quiet rfl (fun x => ?_) rfl rfl rfl rfl rfl Iff.rfl Iff.rfl
    simp [he, Exec.given, or_comm]
  | use ha =>
    rcases ha with rfl | rfl
    all_goals exact h.quiet rfl (fun _ => Iff.rfl) rfl rfl rfl rfl rfl Iff.rfl Iff.rfl
  | complete hh hd hc => exact traced_complete h hc
  | takeOut hc => exact traced_takeOut h ho hc
  | missing hc hp => exact absurd (ho.pending_of_completing hc) hp
  | handOver => exact traced_handOver h
  | cancel hc => exact traced_cancel h ho hc
  | waitForCanceledTransfers hc =>
    refine h.quiet rfl (fun _ => Iff.rfl) rfl rfl rfl rfl rfl ?_ ?_
    · rw [hc]
      split <;> simp
    · rw [hc]
      split <;> simp
  | clear hc => exact traced_clear h hc
  | destroy => exact h.quiet rfl (fun _ => Iff.rfl) rfl rfl rfl rfl rfl Iff.rfl Iff.rfl

/-- The order of the calls is what a guard would ask of the state. -/
theorem Traced.ordered_iff (h : Traced past s) (ho : Owned s) (hst : Step s a u) : Ordered past a ↔ Guarded s a := by
  have hcall : ∀ t, (.handOver t ∉ past ∧
      (Before (.attach t) .cancel past → Before (.onTransferCompletedImpl t) .cancel past)) ↔
        t ∉ s.swept ∧ t ∉ keys s.called := fun t => by
    rw [h.called, h.swept, not_and_not_right]
    exact and_comm
  cases hst with
  | use ha =>
    rcases ha with rfl | rfl
    all_goals exact hcall _
  | complete => exact hcall _
  | cancel hc =>
    simp only [Ordered, Guarded, h.completes, h.sections, List.eq_nil_iff_forall_not_mem]
    exact forall_congr' fun t => ⟨fun hall hm => (hall (ho.completed t hm)).2 hm, fun hn hm => ⟨hm, hn⟩⟩
  | attach he => exact not_congr h.cleared
  | attachTwice he => exact not_congr h.cleared
  | clear hc =>
    have hrun : s.canceller ≠ .running := by
      rw [hc]
      simp
    simp only [Ordered, Guarded, List.eq_nil_iff_forall_not_mem]
    constructor
    · intro hall e he
      have hkey := mem_keys_of_mem he
      have hsec := (h.sections e.1).mp (hall e.1 (h.late hrun e.1 hkey))
      exact hsec.2 (ho.underWay e.1 hkey hsec.1)
    · intro hnil t hb
      have hnot : t ∉ keys s.pendingTransfers := fun ht => by
        obtain ⟨e, he, -⟩ := List.mem_map.mp ht
        exact hnil e he
      by_contra hsec
      rw [h.sections, not_and, not_not] at hsec
      by_cases hc : t ∈ keys s.completes
      · exact hnot (ho.pending_of_completing (hsec hc))
      · exact hnot (ho.waits t ((h.attached t).mp hb.right) (h.unswept t hb) hc)
  | _ => exact Iff.rfl

/-! ### Runs -/

/-- The runs that the calls in that order make. -/
theorem traced_of_obeys (h : Runs.follow step (State.init κ) acts = some s) (ho : Runs.Obeys Ordered [] acts) :
    Traced acts s ∧ Reaches Guarded s := by
  refine Runs.Obeys.invariant (I := fun past s => Traced past s ∧ Reaches Guarded s) ?_ acts h ho
    ⟨traced_init, .init⟩
  rintro past a s u ⟨htraced, hreach⟩ hord hst
  have hown := owned_of_reaches hreach
  obtain ⟨-, hcases⟩ := step_cases hst
  have hguard := (htraced.ordered_iff hown hcases).mp hord
  exact ⟨htraced.step hown hguard hcases, hreach.step hguard hst⟩

/-- A call out of order can be the one that goes wrong. -/
theorem not_safe_of_not_ordered (h : Runs.follow step (State.init κ) acts = some s) (ho : Runs.Obeys Ordered [] acts)
    (hst : step s a = some u) (ha : ¬ Ordered acts a) :
    ∃ v, Runs.Reach (fun s a u => step s a = some u) Guarded u v ∧ ¬ Safe v := by
  obtain ⟨htraced, hreach⟩ := traced_of_obeys h ho
  refine not_safe_of_not_guarded hreach hst fun hguard => ha ?_
  exact (htraced.ordered_iff (owned_of_reaches hreach) (step_cases hst).2).mpr hguard

/-- **The plugin's calls**: in runs whose calls come in that order no call of the plugin
is on a released transfer. In every run, a `complete` after cancel has returned
can go wrong: none is harmless. -/
theorem calls_safe :
    (∀ (acts : List (Act κ)) (s : State κ), Runs.follow step (State.init κ) acts = some s →
      Runs.Obeys Ordered [] acts → Safe s) ∧
    ∀ (s u : State κ) (t : Xfer), Reaches Runs.Any s → s.canceller = .done → step s (.complete t) = some u →
      ∃ v, Runs.Reach (fun s a u => step s a = some u) Runs.Any u v ∧ ¬ Safe v := by
  refine ⟨fun acts s h ho => (owned_of_reaches (traced_of_obeys h ho).2).safe, fun s u t _ hdone hst => ?_⟩
  obtain ⟨v, hv, hsafe⟩ := not_safe_of_late_complete hst hdone
  exact ⟨v, hv.any, hsafe⟩

section decide

variable [DecidableEq κ]

instance : Decidable (Before a b past) := inferInstanceAs (Decidable ([a, b].Sublist past))

/-- The transfer that is attached or completed. -/
def Act.target? : Act κ → Option Xfer
  | .attach t | .complete t => some t
  | _ => none

instance : ∀ (past : List (Act κ)) (a : Act κ), Decidable (Ordered past a)
  | _, .fill _ | _, .read _ | _, .complete _ => inferInstanceAs (Decidable (_ ∧ _))
  | past, .cancel =>
    decidable_of_iff (∀ b ∈ past, ∀ t ∈ b.target?, .complete t ∈ past → .onTransferCompletedImpl t ∈ past)
      ⟨fun h t ht => h _ ht t rfl ht, fun h _ _ t _ => h t⟩
  | _, .attach _ => inferInstanceAs (Decidable (_ ∉ _))
  | past, .clear =>
    decidable_of_iff (∀ b ∈ past, ∀ t ∈ b.target?, Before .cancel (.attach t) past → .onTransferCompletedImpl t ∈ past)
      ⟨fun h t ht => h _ ht.right t rfl ht, fun h _ _ t _ => h t⟩
  | _, .fillTransfer _ _ | _, .onTransferRequest _ | _, .onTransferCompletedImpl _ | _, .handOver _
  | _, .waitForCanceledTransfers | _, .destroy => isTrue trivial

end decide

/-- One completed, one swept, one attached after the sweep. -/
def threeTransfers : List (Act Unit) :=
  [.fillTransfer 0 (), .attach 0, .onTransferRequest 0, .fill 0, .complete 0, .onTransferCompletedImpl 0, .handOver 0,
    .fillTransfer 1 (), .attach 1, .onTransferRequest 1, .read 1, .cancel, .fillTransfer 2 (), .attach 2,
    .waitForCanceledTransfers, .onTransferRequest 2, .complete 2, .onTransferCompletedImpl 2,
    .waitForCanceledTransfers, .handOver 2, .clear, .destroy]

/-- The plugin still has the transfer that `cancel` has released. -/
def completeSwept : List (Act Unit) :=
  [.fillTransfer 0 (), .attach 0, .onTransferRequest 0, .cancel, .waitForCanceledTransfers, .clear, .complete 0]

theorem calls_safe_threeTransfers :
    (∃ s, Runs.follow step (State.init Unit) threeTransfers = some s ∧ s.destroyed = true ∧ s.live = [] ∧
      s.uses.length = 6 ∧ Safe s) ∧
    ∃ s u, Runs.follow step (State.init Unit) completeSwept.dropLast = some s ∧ step s (.complete 0) = some u ∧
      ∃ v, Runs.Reach (fun s a u => step s a = some u) Runs.Any u v ∧ ¬ Safe v :=
  ⟨⟨_, rfl, rfl, rfl, rfl, calls_safe.1 threeTransfers _ rfl (by decide +kernel)⟩,
    ⟨_, _, rfl, rfl, calls_safe.2 _ _ 0 (Runs.reach_follow completeSwept.dropLast rfl (by decide)) rfl rfl⟩⟩

theorem not_safe_completeSwept : ¬ ∀ s : State Unit, Reaches Runs.Any s → Safe s := by
  intro h
  have hrun : Reaches Runs.Any (κ := Unit) _ := Runs.reach_follow completeSwept rfl (by decide)
  exact nomatch (h _ hrun).live (0, false) (List.mem_singleton_self _)

end MockMap
end Viu
