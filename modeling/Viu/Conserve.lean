/-
# Commands are conserved

Every command read from the socket is in one place, and a reply made of it
takes it away: for any kind `P` of commands, those between the socket and
`replies_queue_` and the replies made number no more than the commands read
(`conserved`). The reply thread keeps every reply made, in order, but those
it discards (`Pipeline`). So a command is answered at most once
(`countP_answers_le`).
-/
import Viu.Held
import Viu.Lib.Fifo

namespace Viu

open Bytes Finset

variable {E : Order} {d : Device} {s t : State} {a : Act} {ok : State → Act → Prop}

/-- How many of the commands between the socket and `replies_queue_` are `P`.
An IN transfer in the pending map holds none: its command is in
`in_commands_`. -/
def State.inFlight (P : Job → Bool) (s : State) : ℕ :=
  s.reader.toList.countP P + s.commandsQueue.countP P + s.exec.job?.toList.countP P +
    (∑ e ∈ range maxCountIn, (s.inCommands e).countP P) +
    (∑ e ∈ range maxCountIn, (s.feeder e).job?.toList.countP P) +
    s.pending.countP fun p => p.job.isEpOut && P p.job

def State.made (P : Job → Bool) (s : State) : ℕ := s.produced.countP fun r => P r.job

theorem countP_cons_eq {β : Type*} (P : β → Bool) (x : β) (l : List β) :
    (x :: l).countP P = l.countP P + [x].countP P := by
  rw [← List.countP_append, ← List.singleton_append]
  exact List.perm_append_comm.countP_eq P

theorem made_pushReply (P : Job → Bool) (s : State) (r : Reply) :
    (s.pushReply r).made P = s.made P + [r.job].countP P := by
  show (s.produced ++ [r]).countP _ = _
  rw [List.countP_append]
  simp [State.made, List.countP_singleton]

theorem countP_pendingOf_le (P : Job → Bool) (j : Job) (p : Option (Callback × LibusbTransfer)) :
    ((pendingOf j p).countP fun q => q.job.isEpOut && P q.job) ≤ [j].countP P := by
  cases p with
  | none => exact Nat.zero_le _
  | some x =>
    have : pendingOf j (some x) = [⟨j, x.1, x.2⟩] := rfl
    rw [this, List.countP_singleton, List.countP_singleton]
    cases j.isEpOut <;> simp

/-- An IN transfer holds no command. -/
theorem countP_pendingOf_in (P : Job → Bool) {j : Job} (hj : j.isEpIn = true)
    (p : Option (Callback × LibusbTransfer)) :
    ((pendingOf j p).countP fun q => q.job.isEpOut && P q.job) = 0 := by
  have hout : j.isEpOut = false := Bool.eq_false_iff.mpr fun h => not_at_of_isEpOut h _ (isEpIn_at hj)
  cases p with
  | none => rfl
  | some x =>
    have : pendingOf j (some x) = [⟨j, x.1, x.2⟩] := rfl
    rw [this, List.countP_singleton, hout]
    simp

theorem countP_eraseIdx {β : Type*} (P : β → Bool) {l : List β} {k : ℕ} {x : β} (h : l[k]? = some x) :
    (l.eraseIdx k).countP P + [x].countP P = l.countP P := by
  obtain ⟨hk, rfl⟩ := List.getElem?_eq_some_iff.mp h
  have hp : l.Perm (l[k] :: l.eraseIdx k) := (List.getElem_cons_eraseIdx_perm hk).symm
  rw [hp.countP_eq P, ← countP_cons_eq]

/-- Those in flight and the replies made are no more than the commands read. -/
def Conserved (P : Job → Bool) (s : State) : Prop := s.inFlight P + s.made P ≤ s.received.countP P

theorem Conserved.step {P : Job → Bool} (h : Conserved P s) (hh : Held E d s) (hst : Step E s a t) :
    Conserved P t := by
  unfold Conserved at h ⊢
  cases hst with
  | send c => exact h
  | @read j wire hr hw =>
    simp only [State.inFlight, State.made, hr, List.countP_append, Option.toList] at h ⊢
    simp only [List.countP_nil] at h
    omega
  | @pushCommand j hr =>
    simp only [State.inFlight, State.made, hr, List.countP_append, Option.toList] at h ⊢
    simp only [List.countP_nil]
    omega
  | @pullCommand j queue he hq =>
    have hc := countP_cons_eq P j queue
    simp only [State.inFlight, State.made, he, hq, Exec.job?, Option.toList] at h ⊢
    simp only [List.countP_nil] at h
    omega
  | @control io j req dev rep he hs hep hc hrep =>
    rw [made_pushReply]
    simp only [State.inFlight, State.made, State.pushReply, he, Exec.job?, Option.toList] at h ⊢
    simp only [List.countP_nil]
    omega
  | @submitIn j p he hj hp =>
    have hc := countP_pendingOf_in P hj p
    simp only [State.inFlight, State.made, he, Exec.job?, List.countP_append] at h ⊢
    omega
  | @pushIn j he =>
    have hsum := Fifo.sum_update s.inCommands (fun js => js.countP P) (s.inCommands j.cmd.ep.toNat ++ [j])
      (Job.isEpIn_eq (hh.submitted j he)).2.2.2
    simp only [State.inFlight, State.made, he, Exec.job?, Option.toList, List.countP_append] at h hsum ⊢
    simp only [List.countP_nil]
    omega
  | @submitOut j p he hj hp =>
    have hc := countP_pendingOf_le P j p
    simp only [State.inFlight, State.made, he, Exec.job?, Option.toList, List.countP_append] at h ⊢
    simp only [List.countP_nil]
    omega
  | @insertUnlinked j he hu =>
    simp only [State.inFlight, State.made, he, Exec.job?] at h ⊢
    exact h
  | @replyUnlink j status rep he hrep =>
    rw [made_pushReply]
    simp only [State.inFlight, State.made, State.pushReply, he, Exec.job?, Option.toList] at h ⊢
    simp only [List.countP_nil]
    omega
  | @release k p transfer hk hc hcb =>
    have hp := countP_eraseIdx (fun p : Pending => p.job.isEpOut && P p.job) hk
    simp only [State.inFlight, State.made] at h ⊢
    omega
  | @completeIn k p transfer ep data hk hc hcb =>
    have hp := countP_eraseIdx (fun p : Pending => p.job.isEpOut && P p.job) hk
    simp only [State.inFlight, State.made, State.pushData] at h ⊢
    omega
  | @completeOut k p transfer req rep hk hc hcb hrep =>
    have hp := countP_eraseIdx (fun p : Pending => p.job.isEpOut && P p.job) hk
    have hout := (hh.pending p (List.mem_of_getElem? hk)).isEpOut hcb
    rw [List.countP_singleton, hout, Bool.true_and] at hp
    rw [made_pushReply, List.countP_singleton]
    simp only [State.inFlight, State.made, State.pushReply] at h ⊢
    omega
  | @pullInCommand ep j queue hf hq hep =>
    have h1 := Fifo.sum_update s.inCommands (fun js => js.countP P) queue hep
    have h2 := Fifo.sum_update s.feeder (fun f => f.job?.toList.countP P) (.command j) hep
    have hc := countP_cons_eq P j queue
    simp only [State.inFlight, State.made, hf, hq, Feeder.job?, Option.toList, List.countP_nil] at h h1 h2 ⊢
    omega
  | @pullInData ep j b queue hf hq =>
    have hep := (hh.feeder_at hf rfl).lt
    have h2 := Fifo.sum_update s.feeder (fun f => f.job?.toList.countP P) (.data j b) hep
    simp only [State.inFlight, State.made, hf, Feeder.job?] at h h2 ⊢
    omega
  | @sendData ep j b rep hf hrep =>
    have hep := (hh.feeder_at hf rfl).lt
    have h2 := Fifo.sum_update s.feeder (fun f => f.job?.toList.countP P) .idle hep
    rw [made_pushReply]
    simp only [State.inFlight, State.made, State.pushReply, hf, Feeder.job?, Option.toList,
      List.countP_nil] at h h2 ⊢
    omega
  | pullReply hr hq => exact h
  | checkDrop hr hu => exact h
  | checkPass hr hu => exact h
  | write hr => exact h

theorem conserved (h : Run E ok d s) (P : Job → Bool) : Conserved P s := by
  refine h.invariant_of (I := Conserved P) (fun s hs => held_run hs) ?_ ?_
  · simp [Conserved, State.inFlight, State.made, State.init, Exec.job?, Feeder.job?]
  · intro s a t hh hs _ hst
    exact hs.step hh (step_cases hst)

/-! ### The reply thread -/

/-- The replies made that are not discarded, the written ones first. -/
def State.kept (s : State) : List Reply := s.log ++ s.replier.reply?.toList ++ s.repliesQueue

structure Pipeline (s : State) : Prop where
  sublist : s.kept.Sublist s.produced
  perm : (s.dropped ++ s.kept).Perm s.produced

theorem kept_pushReply (s : State) (r : Reply) : (s.pushReply r).kept = s.kept ++ [r] := by
  simp [State.kept, State.pushReply]

theorem Pipeline.pushReply (h : Pipeline s) (r : Reply) : Pipeline (s.pushReply r) := by
  have hp : (s.pushReply r).produced = s.produced ++ [r] := rfl
  have hd : (s.pushReply r).dropped = s.dropped := rfl
  refine ⟨?_, ?_⟩
  · rw [kept_pushReply, hp]
    exact h.sublist.append (List.Sublist.refl _)
  · rw [kept_pushReply, hp, hd, ← List.append_assoc]
    exact h.perm.append_right [r]

/-- A state with the same replies. -/
theorem Pipeline.congr (h : Pipeline s) (hk : t.kept = s.kept) (hp : t.produced = s.produced)
    (hd : t.dropped = s.dropped) : Pipeline t :=
  ⟨by rw [hk, hp]; exact h.sublist, by rw [hk, hp, hd]; exact h.perm⟩

theorem Pipeline.step (h : Pipeline s) (hst : Step E s a t) : Pipeline t := by
  cases hst with
  | control | replyUnlink | completeOut | sendData =>
    refine Pipeline.pushReply ?_ _
    exact h.congr rfl rfl rfl
  | pullReply hr hq => exact h.congr (by simp [State.kept, hr, hq, Replier.reply?]) rfl rfl
  | @checkDrop r hr hu =>
    have hk : s.kept = s.log ++ [r] ++ s.repliesQueue := by simp [State.kept, hr, Replier.reply?]
    refine ⟨?_, ?_⟩
    · refine List.Sublist.trans ?_ h.sublist
      rw [hk]
      simp [State.kept, Replier.reply?]
    · refine List.Perm.trans ?_ h.perm
      rw [hk]
      simp only [State.kept, Replier.reply?, Option.toList, List.append_nil, List.append_assoc]
      refine List.Perm.append_left _ ?_
      rw [← List.append_assoc, ← List.append_assoc]
      exact List.Perm.append_right _ List.perm_append_comm
  | checkPass hr | write hr => exact h.congr (by simp [State.kept, hr, Replier.reply?]) rfl rfl
  | send | read | pushCommand | pullCommand | submitIn | pushIn | submitOut | insertUnlinked | release |
    completeIn | pullInCommand | pullInData => exact h.congr rfl rfl rfl

theorem pipeline_run (h : Run E ok d s) : Pipeline s :=
  h.invariant ⟨List.Sublist.refl _, List.Perm.refl _⟩ fun _ _ _ hs _ hst => hs.step (step_cases hst)

/-- Of the commands read, no kind has more answers than members, discarded
answers included. -/
theorem countP_answers_le (h : Run E ok d s) (P : Job → Bool) :
    (s.dropped.countP fun r => P r.job) + (s.kept.countP fun r => P r.job) ≤ s.received.countP P := by
  have hc := conserved h P
  have hp := (pipeline_run h).perm.countP_eq fun r => P r.job
  rw [List.countP_append] at hp
  unfold Conserved State.made at hc
  omega

theorem mem_received_of_produced (h : Run E ok d s) {r : Reply} (hr : r ∈ s.produced) : r.job ∈ s.received := by
  have hc := conserved h fun j => decide (j = r.job)
  have h1 : 0 < s.produced.countP fun q => decide (q.job = r.job) := List.countP_pos_iff.mpr ⟨r, hr, by simp⟩
  unfold Conserved State.made at hc
  obtain ⟨j, hj, he⟩ := List.countP_pos_iff.mp (lt_of_lt_of_le h1 (le_trans (Nat.le_add_left _ _) hc))
  rwa [← of_decide_eq_true he]

theorem mem_received_of_exec (h : Run E ok d s) {j : Job} (hj : s.exec.job? = some j) : j ∈ s.received := by
  have hc := conserved h fun i => decide (i = j)
  have h1 : s.exec.job?.toList.countP (fun i => decide (i = j)) = 1 := by
    rw [hj]
    simp
  unfold Conserved State.inFlight at hc
  obtain ⟨i, hi, he⟩ := List.countP_pos_iff.mp (show 0 < s.received.countP fun i => decide (i = j) by omega)
  rwa [← of_decide_eq_true he]

theorem mem_produced_of_kept (h : Run E ok d s) {r : Reply} (hr : r ∈ s.kept) : r ∈ s.produced :=
  (pipeline_run h).sublist.mem hr

theorem mem_kept_of_log {r : Reply} (hr : r ∈ s.log) : r ∈ s.kept := by
  simp [State.kept, hr]

end Viu
