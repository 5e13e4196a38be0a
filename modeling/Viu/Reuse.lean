/-
# Sequence numbers used again

The host's counter wraps, so a number comes back once its command has been
answered. Here the numbers need not differ. An entry of `unlinked_seqnums_`
left by an unlink that came too late discards the next reply with its number,
whatever that answers; as long as a command is sent only when its number is
clean (`CleanNumbers`), a discarded reply belongs to a command that the host
unlinked after sending it (`no_reply_suppressed`).
-/
import Viu.Unlink

namespace Viu

open Bytes

variable {E : Order} {d : Device} {s t : State} {a : Act} {ok : State → Act → Prop}

/-- The commands that have not reached `execute_command`'s branches. -/
def State.unexecuted (s : State) : List Job :=
  s.exec.pulled?.toList ++ (s.commandsQueue ++ s.reader.toList ++ s.wire)

/-- `u` is an unlink of the command `j`, going by the number. -/
def Job.Names (u j : Job) : Prop := u.cmd.isUnlink = true ∧ u.cmd.unlinkSeqnum = j.cmd.seqnum

instance (u j : Job) : Decidable (u.Names j) := by unfold Job.Names; infer_instance

/-- A command is sent while `unlinked_seqnums_` has no entry for its number and
no unlink of that number is still to be executed, itself included. -/
def CleanNumbers (s : State) (a : Act) : Prop :=
  ∀ c ∈ a.sent?, c.seqnum ∉ s.unlinkedSeqnums ∧
    (∀ u ∈ s.unexecuted, u.cmd.isUnlink = true → u.cmd.unlinkSeqnum ≠ c.seqnum) ∧
    (c.isUnlink = true → c.unlinkSeqnum ≠ c.seqnum)

instance (s : State) (a : Act) : Decidable (CleanNumbers s a) := by unfold CleanNumbers; infer_instance

/-- A step adds the command it sends and moves or takes away the others. -/
theorem unexecuted_step (hst : Step E s a t) : ∀ u ∈ t.unexecuted, u ∈ s.unexecuted ∨
    ∃ c, a.sent? = some c ∧ u = ⟨s.sent.length, c⟩ := by
  intro u hu
  cases hst with
  | send c =>
    simp only [State.unexecuted, ← List.append_assoc] at hu ⊢
    rcases List.mem_append.mp hu with hu | hu
    · exact .inl hu
    · exact .inr ⟨c, rfl, List.mem_singleton.mp hu⟩
  | @read j wire hr hw =>
    refine .inl ?_
    simpa [State.unexecuted, hr, hw, or_assoc] using hu
  | @pushCommand j hr =>
    refine .inl ?_
    simpa [State.unexecuted, hr, or_assoc] using hu
  | @pullCommand j queue he hq =>
    refine .inl ?_
    simpa [State.unexecuted, Exec.pulled?, he, hq, or_assoc] using hu
  | control | submitIn | pushIn | submitOut | insertUnlinked | replyUnlink =>
    exact .inl (List.mem_append_right _ hu)
  | release | completeIn | completeOut | pullInCommand | pullInData | sendData | pullReply | checkDrop |
    checkPass | write => exact .inl hu

theorem mem_sent_of_step (hst : Step E s a t) {j : Job} (hj : j ∈ s.sent) : j ∈ t.sent := by
  rw [sent_step hst]
  exact List.mem_append_left _ hj

theorem unexecuted_subset_sent (h : Run E ok d s) : ∀ u ∈ s.unexecuted, u ∈ s.sent := by
  refine h.invariant (I := fun s => ∀ u ∈ s.unexecuted, u ∈ s.sent) (fun u hu => (nomatch hu))
    fun s a t hs _ hst u hu => ?_
  have hst := step_cases hst
  rcases unexecuted_step hst u hu with hu | ⟨c, hc, rfl⟩
  · exact mem_sent_of_step hst (hs u hu)
  · rw [sent_step hst, hc]
    simp

/-- The set grows by the number of the unlink executed. -/
theorem unlinkedSeqnums_step (hst : Step E s a t) : ∀ n ∈ t.unlinkedSeqnums, n ∈ s.unlinkedSeqnums ∨
    ∃ u, s.exec = .pulled u ∧ u.cmd.isUnlink = true ∧ u.cmd.unlinkSeqnum = n := by
  intro n hn
  cases hst with
  | @insertUnlinked j he hu =>
    rcases Finset.mem_insert.mp hn with rfl | hn
    · exact .inr ⟨j, he, hu, rfl⟩
    · exact .inl hn
  | checkDrop hr hu => exact .inl (Finset.mem_of_mem_erase hn)
  | send | read | pushCommand | pullCommand | control | submitIn | pushIn | submitOut | replyUnlink | release |
    completeIn | completeOut | pullInCommand | pullInData | sendData | pullReply | checkPass | write => exact .inl hn

/-- The reply thread discards a reply it holds, whose number is in the set. -/
theorem dropped_step (hst : Step E s a t) : t.dropped = s.dropped ∨
    ∃ r, s.replier = .pulled r ∧ fromBig E r.rep.seqnum ∈ s.unlinkedSeqnums ∧ t.dropped = s.dropped ++ [r] := by
  cases hst with
  | @checkDrop r hr hu => exact .inr ⟨r, hr, hu, rfl⟩
  | _ => exact .inl rfl

/-- Unlinks and entries are younger than the commands sent under their number,
and so is an unlink behind every discarded reply. -/
structure Younger (s : State) : Prop where
  waiting : ∀ u ∈ s.unexecuted, ∀ j ∈ s.sent, u.Names j → j.id < u.id
  entry : ∀ n ∈ s.unlinkedSeqnums, ∀ j ∈ s.sent, j.cmd.seqnum = n → ∃ u ∈ s.sent, u.Names j ∧ j.id < u.id
  dropped : ∀ r ∈ s.dropped, ∃ u ∈ s.sent, u.Names r.job ∧ r.job.id < u.id

theorem younger_run (h : Run E CleanNumbers d s) : Younger s := by
  refine h.invariant_of (I := Younger) (J := fun s => Run E CleanNumbers d s) (fun _ hs => hs)
    ⟨fun u hu => (nomatch hu), fun n hn => absurd hn (Finset.notMem_empty n), fun r hr => (nomatch hr)⟩
    fun s a t hrun hs ha hst => ?_
  have hst := step_cases hst
  have hlift : ∀ {j : Job}, (∃ u ∈ s.sent, u.Names j ∧ j.id < u.id) → ∃ u ∈ t.sent, u.Names j ∧ j.id < u.id :=
    fun ⟨u, hu, h⟩ => ⟨u, mem_sent_of_step hst hu, h⟩
  refine ⟨fun u hu j hj hn => ?_, fun n hn j hj hjn => ?_, fun r hr => ?_⟩
  · rcases unexecuted_step hst u hu with hu | ⟨c, hc, rfl⟩
    · rcases sent_cases hst hj with hj | ⟨c, hc, rfl⟩
      · exact hs.waiting u hu j hj hn
      · exact absurd hn.2 ((ha c hc).2.1 u hu hn.1)
    · rcases sent_cases hst hj with hj | ⟨c', hc', rfl⟩
      · exact id_lt hrun hj
      · -- it names no command but another
        obtain rfl := Option.some.inj (hc.symm.trans hc')
        exact absurd hn.2 ((ha c hc).2.2 hn.1)
  · rcases unlinkedSeqnums_step hst n hn with hmem | ⟨u, he, hun, rfl⟩
    · rcases sent_cases hst hj with hj | ⟨c, hc, rfl⟩
      · exact hlift (hs.entry n hmem j hj hjn)
      · exact absurd (hjn ▸ hmem) (ha c hc).1
    · have hu : u ∈ s.unexecuted := by simp [State.unexecuted, Exec.pulled?, he]
      rcases sent_cases hst hj with hj | ⟨c, hc, rfl⟩
      · exact hlift ⟨u, unexecuted_subset_sent hrun u hu, ⟨hun, hjn.symm⟩, hs.waiting u hu j hj ⟨hun, hjn.symm⟩⟩
      · exact absurd hjn.symm ((ha c hc).2.1 u hu hun)
  · rcases dropped_step hst with hd | ⟨q, hq, hqn, hd⟩
    · exact hlift (hs.dropped r (hd ▸ hr))
    · rw [hd] at hr
      rcases List.mem_append.mp hr with hr | hr
      · exact hlift (hs.dropped r hr)
      · obtain rfl := List.mem_singleton.mp hr
        have hk : r ∈ s.kept := by simp [State.kept, hq, Replier.reply?]
        have hjs := mem_sent_of_received (mem_received_of_produced hrun (mem_produced_of_kept hrun hk))
        exact hlift (hs.entry _ hqn r.job hjs (from_of_kept hrun hk).seqnum.symm)

/-- The reply of a command that no unlink sent after it names is not discarded but
written, or on its way; and what is discarded, submit or unlink, is discarded for
an unlink sent after it. -/
structure NothingSuppressed (s : State) : Prop where
  kept : ∀ r ∈ s.produced, (∀ u ∈ s.sent, u.Names r.job → u.id < r.job.id) →
    r ∉ s.dropped ∧ (r ∈ s.log ∨ r ∈ s.replier.reply? ∨ r ∈ s.repliesQueue)
  dropped : ∀ r ∈ s.dropped, ∃ u ∈ s.sent, u.Names r.job ∧ r.job.id < u.id

/-- **No reply is wrongly suppressed**, in every run that uses numbers again
only when they are clean. -/
theorem no_reply_suppressed (h : Run E CleanNumbers d s) : NothingSuppressed s := by
  have hdropped := (younger_run h).dropped
  refine ⟨fun r hr hnone => ?_, hdropped⟩
  have hnd : r ∉ s.dropped := by
    intro hd
    obtain ⟨u, hu, hn, hlt⟩ := hdropped r hd
    exact absurd (hnone u hu hn) (Nat.lt_asymm hlt)
  refine ⟨hnd, ?_⟩
  rcases List.mem_append.mp ((pipeline_run h).perm.mem_iff.mpr hr) with hd | hk
  · exact absurd hd hnd
  · simpa [State.kept, or_assoc] using hk

/-- Two submits under one number, the second sent when the first is answered. -/
def reuseClean : List Act :=
  fetch (.submit 1 USBIP_DIR_IN 0 2) ++ [.control Io.silent] ++ deliver ++
  fetch (.submit 1 USBIP_DIR_IN 0 2) ++ [.control Io.silent] ++ deliver

theorem no_reply_suppressed_reuseClean :
    (State.after .little (.mock []) reuseClean).log.length = 2 ∧
      NothingSuppressed (State.after .little (.mock []) reuseClean) :=
  ⟨by decide +kernel, no_reply_suppressed (run_after (by decide +kernel) (by decide +kernel))⟩

/-- A number is used again only when the command that had it has been answered. -/
def Disciplined (s : State) (a : Act) : Prop :=
  ∀ c ∈ a.sent?, ∀ j ∈ s.sent, j.cmd.seqnum = c.seqnum → ∃ r ∈ s.log, r.job = j

instance (s : State) (a : Act) : Decidable (Disciplined s a) := by unfold Disciplined; infer_instance

/-- A control submit is answered and then unlinked, and the unlink is answered;
then the number is used again. -/
def reuseStale : List Act :=
  unlinkLate ++ fetch (.submit 1 USBIP_DIR_IN 0 2) ++ [.control Io.silent, .pullReply, .check]

/-- The entry of the late unlink discards the new submit's reply. -/
theorem reply_suppressed : (¬ ∀ s, Run .little Disciplined (.mock []) s → NothingSuppressed s) ∧
    ∀ r ∈ (State.after .little (.mock []) reuseStale).dropped, r.job.cmd.isSubmit = true := by
  refine ⟨fun h => ?_, by decide +kernel⟩
  set s := State.after .little (.mock []) reuseStale with hs
  have hrun : Run .little Disciplined (.mock []) s := run_after (by decide +kernel) (by decide +kernel)
  obtain ⟨r, hr⟩ : ∃ r, r ∈ s.dropped := List.exists_mem_of_length_pos (by decide +kernel)
  have hmem : ∀ r ∈ s.dropped, r ∈ s.produced := by decide +kernel
  have hold : ∀ r ∈ s.dropped, ∀ u ∈ s.sent, u.Names r.job → u.id < r.job.id := by decide +kernel
  exact ((h s hrun).kept r (hmem r hr) (hold r hr)).1 hr

end Viu
