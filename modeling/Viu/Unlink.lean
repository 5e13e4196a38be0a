/-
# Unlinking

`unlink_command` puts a number into `unlinked_seqnums_` in the execution
thread; the reply thread discards the next reply with a number in the set and
takes the number out. Nothing records which submits have been answered.

What every run keeps (`unlinked_or_processed`): once an unlink has been
executed, its number is in the set, or a reply with that number has been
discarded or let through. With the numbers all different no second reply
follows, so nothing is written for a submit after its RET_UNLINK
(`answers_once`). The status of a RET_UNLINK, and the replies discarded under
a number used again, are right only as far as the set has no entry for a
submit that was answered (`unlink_agreement`, `no_reply_suppressed`).
-/
import Viu.Frames

namespace Viu

open Bytes

variable {E : Order} {d : Device} {s t : State} {a : Act} {ok : State → Act → Prop}

/-- The unlink has been through the set. -/
def State.Executed (s : State) (u : Job) : Prop :=
  u.cmd.isUnlink = true ∧ ((∃ status, s.exec = .unlinking u status) ∨ ∃ r ∈ s.produced, r.job = u)

/-- The replies that passed the check: written, or about to be. -/
def State.passed (s : State) : List Reply :=
  s.log ++ match s.replier with
    | .checked r => [r]
    | _ => []

theorem mem_passed_of_log {r : Reply} (hr : r ∈ s.log) : r ∈ s.passed := List.mem_append_left _ hr

/-- A reply passes in the check, and only if its number is not in the set. -/
theorem passed_step (hst : Step E s a t) {r : Reply} (hr : r ∈ t.passed) :
    r ∈ s.passed ∨ a = .check ∧ s.replier = .pulled r ∧ fromBig E r.rep.seqnum ∉ s.unlinkedSeqnums := by
  cases hst with
  | @checkPass q hq hn =>
    rcases List.mem_append.mp hr with hr | hr
    · exact .inl (mem_passed_of_log hr)
    · rw [List.mem_singleton.mp hr]
      exact .inr ⟨rfl, hq, hn⟩
  | pullReply hq | checkDrop hq | write hq => exact .inl (by simpa [State.passed, hq] using hr)
  | _ => exact .inl hr

/-- A reply pushed for a submit executes no unlink. -/
theorem executed_of_pushReply {r : Reply} {u : Job} (hr : r.job.cmd.isSubmit = true)
    (h : (s.pushReply r).Executed u) : s.Executed u := by
  rcases h with ⟨hu, h | ⟨q, hq, rfl⟩⟩
  · exact ⟨hu, .inl h⟩
  · refine ⟨hu, .inr ?_⟩
    rcases List.mem_append.mp hq with hq | hq
    · exact ⟨q, hq, rfl⟩
    · obtain rfl := List.mem_singleton.mp hq
      rw [isSubmit_eq_false_of_isUnlink hu] at hr
      cases hr

/-- A step executes the unlink it inserts for and no other. -/
theorem executed_step (hh : Held E d s) (hst : Step E s a t) {u : Job} (h : t.Executed u) :
    s.Executed u ∨ a = .insertUnlinked ∧ s.exec = .pulled u := by
  have hidle : ∀ {e : Exec}, e = .idle → (∃ status, e = .unlinking u status) →
      ∃ status, s.exec = .unlinking u status := by
    rintro _ rfl ⟨_, h⟩
    cases h
  cases hst with
  | pullCommand | submitIn | pushIn | submitOut =>
    rcases h with ⟨hu, ⟨_, h⟩ | h⟩
    · cases h
    · exact .inl ⟨hu, .inr h⟩
  | @control io j req dev rep he hs hep hc hrep =>
    rcases executed_of_pushReply hs h with ⟨hu, h | h⟩
    · exact .inl ⟨hu, .inl (hidle rfl h)⟩
    · exact .inl ⟨hu, .inr h⟩
  | @insertUnlinked j he hu =>
    rcases h with ⟨hu, ⟨_, h⟩ | h⟩
    · cases h
      exact .inr ⟨rfl, he⟩
    · exact .inl ⟨hu, .inr h⟩
  | @replyUnlink j status rep he hrep =>
    rcases h with ⟨hu, h | ⟨q, hq, rfl⟩⟩
    · exact .inl ⟨hu, .inl (hidle rfl h)⟩
    · rcases List.mem_append.mp hq with hq | hq
      · exact .inl ⟨hu, .inr ⟨q, hq, rfl⟩⟩
      · rw [List.mem_singleton.mp hq]
        exact .inl ⟨hh.unlinking j status he, .inl ⟨status, he⟩⟩
  | @completeOut k p transfer req rep hk hc hcb hrep =>
    have hs := (Job.isEpOut_eq ((hh.pending p (List.mem_of_getElem? hk)).isEpOut hcb)).1
    exact .inl (executed_of_pushReply hs h)
  | @sendData ep j b rep hf hrep =>
    have hs := (Job.isEpIn_eq (hh.feeder_at hf rfl).1).1
    exact .inl (executed_of_pushReply hs h)
  | send | read | pushCommand | release | completeIn | pullInCommand | pullInData | pullReply | checkDrop |
    checkPass | write => exact .inl h

theorem executed_before (hh : Held E d s) (hst : Step E s a t) {u : Job} (h : t.Executed u)
    (ha : a ≠ .insertUnlinked) : s.Executed u :=
  (executed_step hh hst h).resolve_right fun hins => ha hins.1

theorem produced_mono (hst : Step E s a t) : ∀ r ∈ s.produced, r ∈ t.produced := by
  intro r hr
  cases hst with
  | control | replyUnlink | completeOut | sendData => exact List.mem_append_left _ hr
  | _ => exact hr

/-- An executed unlink stays executed. -/
theorem executed_mono (hst : Step E s a t) {u : Job} (h : s.Executed u) : t.Executed u := by
  rcases h with ⟨hu, ⟨status, he'⟩ | ⟨r, hr, rfl⟩⟩
  · cases hst with
    | pullCommand he | control he | submitIn he | pushIn he | submitOut he | insertUnlinked he =>
      rw [he] at he'
      cases he'
    | @replyUnlink j status rep he hrep =>
      rw [he] at he'
      cases he'
      exact ⟨hu, .inr ⟨⟨u, none, rep⟩, List.mem_append_right _ List.mem_cons_self, rfl⟩⟩
    | _ => exact ⟨hu, .inl ⟨status, he'⟩⟩
  · exact ⟨hu, .inr ⟨r, produced_mono hst r hr, rfl⟩⟩

/-! ### The set and the replies processed -/

/-- Every executed unlink's number is in the set, or a reply with it has been
discarded or let through. -/
def UnlinkedOrProcessed (s : State) : Prop :=
  ∀ u, s.Executed u → u.cmd.unlinkSeqnum ∈ s.unlinkedSeqnums ∨
    ∃ r ∈ s.dropped ++ s.passed, r.job.cmd.seqnum = u.cmd.unlinkSeqnum

theorem processed_mono (hst : Step E s a t) : ∀ r ∈ s.dropped ++ s.passed, r ∈ t.dropped ++ t.passed := by
  intro r hr
  cases hst with
  | checkDrop hq | checkPass hq =>
    -- the reply that is checked had not passed
    have hpas : s.passed = s.log := by simp [State.passed, hq]
    rw [hpas] at hr
    rcases List.mem_append.mp hr with hr | hr
    · simp [hr]
    · simp [State.passed, hr]
  | write hq | pullReply hq => simpa [State.passed, hq] using hr
  | _ => exact hr

theorem UnlinkedOrProcessed.step (h : UnlinkedOrProcessed s) (hh : Held E d s) (hp : Pipeline s)
    (hst : Step E s a t) : UnlinkedOrProcessed t := by
  intro u hu
  have hbefore := executed_before hh hst hu
  have hprocessed : (∃ r ∈ s.dropped ++ s.passed, r.job.cmd.seqnum = u.cmd.unlinkSeqnum) →
      ∃ r ∈ t.dropped ++ t.passed, r.job.cmd.seqnum = u.cmd.unlinkSeqnum := by
    rintro ⟨r, hr, hn⟩
    exact ⟨r, processed_mono hst r hr, hn⟩
  have hex := executed_step hh hst hu
  cases hst with
  | @insertUnlinked j he hu =>
    rcases hex with hex | ⟨-, he'⟩
    · rcases h u hex with hmem | hproc
      · exact .inl (Finset.mem_insert_of_mem hmem)
      · exact .inr (hprocessed hproc)
    · rw [he] at he'
      cases he'
      exact .inl (Finset.mem_insert_self _ _)
  | @checkDrop r hr hr' =>
    by_cases heq : u.cmd.unlinkSeqnum = fromBig E r.rep.seqnum
    · have hkept : r ∈ s.kept := by simp [State.kept, hr, Replier.reply?]
      have hn : fromBig E r.rep.seqnum = r.job.cmd.seqnum := (hh.produced r (hp.sublist.mem hkept)).seqnum
      exact .inr ⟨r, by simp, by rw [heq, hn]⟩
    · rcases h u (hbefore (by simp)) with hmem | hproc
      · exact .inl (Finset.mem_erase.mpr ⟨heq, hmem⟩)
      · exact .inr (hprocessed hproc)
  | _ =>
    rcases h u (hbefore (by simp)) with hmem | hproc
    · exact .inl hmem
    · exact .inr (hprocessed hproc)

theorem unlinked_or_processed (h : Run E ok d s) : UnlinkedOrProcessed s := by
  refine h.invariant_of (I := UnlinkedOrProcessed) (J := fun s => Held E d s ∧ Pipeline s)
    (fun s hs => ⟨held_run hs, pipeline_run hs⟩) ?_ fun s a t hh hs _ hst => hs.step hh.1 hh.2 (step_cases hst)
  rintro u ⟨-, ⟨_, h⟩ | ⟨r, hr, -⟩⟩
  · cases h
  · cases hr

/-- What is in the set was put there by an unlink, and so was what discarded a
reply. -/
structure FromUnlinks (s : State) : Prop where
  entry : ∀ n ∈ s.unlinkedSeqnums, ∃ u, s.Executed u ∧ u.cmd.unlinkSeqnum = n
  dropped : ∀ r ∈ s.dropped, ∃ u, s.Executed u ∧ u.cmd.unlinkSeqnum = r.job.cmd.seqnum

theorem FromUnlinks.step (h : FromUnlinks s) (hh : Held E d s) (hp : Pipeline s) (hst : Step E s a t) :
    FromUnlinks t := by
  have hlift : ∀ {n : U32}, (∃ u, s.Executed u ∧ u.cmd.unlinkSeqnum = n) →
      ∃ u, t.Executed u ∧ u.cmd.unlinkSeqnum = n := fun ⟨u, hu, hn⟩ => ⟨u, executed_mono hst hu, hn⟩
  cases hst with
  | @insertUnlinked j he hu =>
    refine ⟨fun n hn => ?_, fun r hr => hlift (h.dropped r hr)⟩
    rcases Finset.mem_insert.mp hn with rfl | hn
    · exact ⟨j, ⟨hu, .inl ⟨_, rfl⟩⟩, rfl⟩
    · exact hlift (h.entry n hn)
  | @checkDrop r hr hu =>
    refine ⟨fun n hn => hlift (h.entry n (Finset.mem_of_mem_erase hn)), fun q hq => ?_⟩
    rcases List.mem_append.mp hq with hq | hq
    · exact hlift (h.dropped q hq)
    · have hk : r ∈ s.kept := by simp [State.kept, hr, Replier.reply?]
      rw [List.mem_singleton.mp hq, ← (hh.produced r (hp.sublist.mem hk)).seqnum]
      exact hlift (h.entry _ hu)
  | send | read | pushCommand | pullCommand | control | submitIn | pushIn | submitOut | replyUnlink | release |
    completeIn | completeOut | pullInCommand | pullInData | sendData | pullReply | checkPass | write =>
    exact ⟨fun n hn => hlift (h.entry n hn), fun r hr => hlift (h.dropped r hr)⟩

theorem fromUnlinks (h : Run E ok d s) : FromUnlinks s := by
  refine h.invariant_of (I := FromUnlinks) (J := fun s => Held E d s ∧ Pipeline s)
    (fun s hs => ⟨held_run hs, pipeline_run hs⟩) ?_ fun s a t hh hs _ hst => hs.step hh.1 hh.2 (step_cases hst)
  exact ⟨fun n hn => absurd hn (Finset.notMem_empty n), fun r hr => (nomatch hr)⟩

theorem mem_received_of_executed (h : Run E ok d s) {u : Job} (hu : s.Executed u) : u ∈ s.received := by
  rcases hu with ⟨-, ⟨status, he⟩ | ⟨r, hr, rfl⟩⟩
  · exact mem_received_of_exec h (by rw [he]; rfl)
  · exact mem_received_of_produced h hr

/-- Where no unlink is sent, nothing is discarded. -/
theorem dropped_eq_nil (h : Run E ok d s) (hn : ∀ j ∈ s.sent, j.cmd.isUnlink = false) : s.dropped = [] := by
  refine List.eq_nil_iff_forall_not_mem.mpr fun r hr => ?_
  obtain ⟨u, hu, -⟩ := (fromUnlinks h).dropped r hr
  have hf := hn u (mem_sent_of_received (mem_received_of_executed h hu))
  rw [hu.1] at hf
  cases hf

/-! ### Nothing after a RET_UNLINK -/

theorem executed_of_produced {r : Reply} (hr : r ∈ s.produced) (hu : r.job.cmd.isUnlink = true) :
    s.Executed r.job := ⟨hu, .inr ⟨r, hr, rfl⟩⟩

/-- With the numbers all different, a reply that passes the check now is not
the reply of a submit that an executed unlink names. -/
theorem ne_of_checkPass (h : Run E ok d s) (hok : ∀ s a, ok s a → FreshNumbers s a) {r : Reply}
    (hr : s.replier = .pulled r) (hn : fromBig E r.rep.seqnum ∉ s.unlinkedSeqnums) {u : Job}
    (hu : s.Executed u) : u.cmd.unlinkSeqnum ≠ r.job.cmd.seqnum := by
  intro heq
  have hk : s.kept = s.log ++ r :: s.repliesQueue := by simp [State.kept, hr, Replier.reply?]
  have hrn := (from_of_kept h (r := r) (by simp [hk])).seqnum
  rcases unlinked_or_processed h u hu with hmem | ⟨q, hq, hqn⟩
  · exact hn (by rw [hrn, ← heq]; exact hmem)
  · have hle := answers_le_one hok h r.job.cmd.seqnum
    have hpas : s.passed = s.log := by simp [State.passed, hr]
    rw [hpas] at hq
    have hpos : 0 < (s.dropped ++ s.log).countP fun r' => decide (r'.job.cmd.seqnum = r.job.cmd.seqnum) :=
      List.countP_pos_iff.mpr ⟨q, hq, decide_eq_true (hqn.trans heq)⟩
    rw [List.countP_append] at hpos
    rw [hk, List.countP_append, List.countP_cons] at hle
    simp only [decide_true, ↓reduceIte] at hle
    omega

/-- The order of the frames: none answers a submit named by an unlink answered
before it. -/
structure Ordered (s : State) : Prop where
  checked : ∀ r, s.replier = .checked r → ∀ q ∈ s.log, q.job.cmd.isUnlink = true →
    q.job.cmd.unlinkSeqnum ≠ r.job.cmd.seqnum
  log : s.log.Pairwise fun q r => q.job.cmd.isUnlink = true → q.job.cmd.unlinkSeqnum ≠ r.job.cmd.seqnum

theorem ordered_run (h : Run E ok d s) (hok : ∀ s a, ok s a → FreshNumbers s a) : Ordered s := by
  refine h.invariant_of (I := Ordered) (J := fun s => Run E ok d s) (fun _ hs => hs)
    ⟨fun r hr => (nomatch hr), List.Pairwise.nil⟩ fun s a t hrun hs _ hst => ?_
  cases step_cases hst with
  | pullReply | checkDrop => exact { hs with checked := fun r hr => (nomatch hr) }
  | @checkPass r hr hn =>
    refine { hs with checked := fun r' hr' q hq hu => ?_ }
    cases hr'
    have hmem := mem_produced_of_kept hrun (mem_kept_of_log hq)
    exact ne_of_checkPass hrun hok hr hn (executed_of_produced hmem hu)
  | @write r hr =>
    refine ⟨fun r hr => (nomatch hr), List.pairwise_append.mpr ⟨hs.log, List.pairwise_singleton _ _, ?_⟩⟩
    intro q hq r' hr' hu
    rw [List.mem_singleton.mp hr']
    exact hs.checked r hr q hq hu
  | send | read | pushCommand | pullCommand | control | submitIn | pushIn | submitOut | insertUnlinked |
    replyUnlink | release | completeIn | completeOut | pullInCommand | pullInData | sendData =>
    exact { hs with }

/-- A frame split off the socket's stream, and the reply it is. -/
theorem frames_split {before after : List Command} {f : Command} (h : s.frames = before ++ f :: after) :
    ∃ l r l', s.log = l ++ r :: l' ∧ r.rep = f ∧ l.map (·.rep) = before ∧ l'.map (·.rep) = after := by
  obtain ⟨l, l', hlog, hl, hl'⟩ := List.map_eq_append_iff.mp h
  obtain ⟨r, l'', rfl, hr, hl''⟩ := List.map_eq_cons_iff.mp hl'
  exact ⟨l, r, l'', hlog, hr, hl, hl''⟩

/-- The RET_UNLINK numbered as `u` answers `u`. -/
theorem job_eq_of_isRetUnlink (h : Run E ok d s) (hok : ∀ s a, ok s a → FreshNumbers s a) {u : Job}
    (hu : u ∈ s.received) {r : Reply} (hr : r ∈ s.log) (hf : isRetUnlink E u.cmd.seqnum r.rep = true) :
    r.job = u := by
  have hk := mem_kept_of_log hr
  have hn := (((from_of_kept h hk).isRetUnlink_iff _).mp hf).2
  exact eq_of_seqnum hok h
    (mem_sent_of_received (mem_received_of_produced h (mem_produced_of_kept h hk))) (mem_sent_of_received hu) hn

/-- At most one RET_SUBMIT and one RET_UNLINK per number, every frame under the
number of a command read, and after the RET_UNLINK of a submit no RET_SUBMIT
for it. -/
def AnsweredOnce (E : Order) (s : State) : Prop :=
  (∀ n, s.frames.countP (isRetSubmit E n) ≤ 1 ∧ s.frames.countP (isRetUnlink E n) ≤ 1) ∧
  (∀ f ∈ s.frames, ∃ c ∈ s.received, fromBig E f.seqnum = c.cmd.seqnum) ∧
  (∀ u ∈ s.received, u.cmd.isUnlink = true → ∀ before f after, s.frames = before ++ f :: after →
    isRetUnlink E u.cmd.seqnum f = true → ∀ g ∈ after, isRetSubmit E u.cmd.unlinkSeqnum g = false)

/-- **At most one answer**, and none after the unlink's, in every run with the
numbers all different. -/
theorem answers_once (h : Run E FreshNumbers d s) : AnsweredOnce E s := by
  have hok : ∀ s a, FreshNumbers s a → FreshNumbers s a := fun _ _ h => h
  refine ⟨fun n => ?_, fun f hf => ?_, fun u hu hun before f after hs hf g hg => ?_⟩
  · have hle := answers_le_one hok h n
    have h1 := countP_isRetSubmit_le h n
    have h2 := countP_isRetUnlink_le h n
    exact ⟨by omega, by omega⟩
  · obtain ⟨r, hr, rfl⟩ := List.mem_map.mp hf
    have hk := mem_kept_of_log hr
    exact ⟨r.job, mem_received_of_produced h (mem_produced_of_kept h hk), (from_of_kept h hk).seqnum⟩
  · obtain ⟨l, r, l', hlog, rfl, -, rfl⟩ := frames_split hs
    obtain ⟨q, hq, rfl⟩ := List.mem_map.mp hg
    have hpair := (ordered_run h hok).log
    rw [hlog] at hpair
    have hqr := (List.pairwise_cons.mp (List.pairwise_append.mp hpair).2.1).1 q hq
    have hrl : r ∈ s.log := by simp [hlog]
    have hql : q ∈ s.log := by simp [hlog, hq]
    rw [job_eq_of_isRetUnlink h hok hu hrl hf] at hqr
    rw [Bool.eq_false_iff]
    intro hsub
    exact hqr hun (((from_of_kept h (mem_kept_of_log hql)).isRetSubmit_iff _).mp hsub).2.symm

/-- An IN submit is unlinked while the device has its transfer; the reply made
of it later is discarded. -/
def unlinkInTime : List Act :=
  fetch (.submit 1 USBIP_DIR_IN 1 2) ++ [.submitIn, .pushIn] ++
  fetch (.unlink 2 1) ++ [.insertUnlinked, .replyUnlink] ++ deliver ++
  [.complete 0 ⟨0x81, .bulk, .completed, 2, 2, [7, 8], []⟩] ++ feed 1 ++ [.pullReply, .check]

theorem answers_once_unlinkInTime :
    (State.after .little (.mock [.bulk 0x81]) unlinkInTime).dropped.length = 1 ∧
      AnsweredOnce .little (State.after .little (.mock [.bulk 0x81]) unlinkInTime) :=
  ⟨by decide +kernel, answers_once (run_after (by decide +kernel) (by decide +kernel))⟩

/-! ### The status of a RET_UNLINK -/

/-- A command pulled but not yet in one of `execute_command`'s branches. -/
def Exec.pulled? : Exec → Option Job
  | .pulled j => some j
  | _ => none

def Act.isInsertUnlinked : Act → Bool
  | .insertUnlinked => true
  | _ => false

/-- The unlink is executed while the reply of the submit it names has not yet
passed the check. -/
def Timely (s : State) (a : Act) : Prop :=
  a.isInsertUnlinked = true → ∀ u ∈ s.exec.pulled?, ∀ r ∈ s.passed, r.job.cmd.isSubmit = true →
    r.job.cmd.seqnum ≠ u.cmd.unlinkSeqnum

instance (s : State) (a : Act) : Decidable (Timely s a) := by unfold Timely; infer_instance

/-- No submit that an executed unlink names passes the check. -/
def NotPassed (s : State) : Prop :=
  ∀ u, s.Executed u → ∀ r ∈ s.passed, r.job.cmd.isSubmit = true → r.job.cmd.seqnum ≠ u.cmd.unlinkSeqnum

theorem notPassed_run (h : Run E (fun s a => FreshNumbers s a ∧ Timely s a) d s) : NotPassed s := by
  refine h.invariant_of (I := NotPassed) (J := fun s => Run E (fun s a => FreshNumbers s a ∧ Timely s a) d s)
    (fun _ hs => hs) (fun u hu r hr => (nomatch hr)) fun s a t hrun hs ha hst => ?_
  have hst := step_cases hst
  intro u hu q hq hsub
  rcases executed_step (held_run hrun) hst hu with hex | ⟨rfl, he⟩
  · rcases passed_step hst hq with hq | ⟨-, hr, hn⟩
    · exact hs u hex q hq hsub
    · exact (ne_of_checkPass hrun (fun _ _ h => h.1) hr hn hex).symm
  · rcases passed_step hst hq with hq | ⟨ha', -⟩
    · exact ha.2 rfl u (by rw [he]; rfl) q hq hsub
    · cases ha'

/-- A RET_UNLINK says -ECONNRESET only for a submit that is never given back,
and 0 for one that has been. -/
def UnlinkAgreement (E : Order) (s : State) : Prop :=
  ∀ u ∈ s.received, u.cmd.isUnlink = true → ∀ before f after, s.frames = before ++ f :: after →
    isRetUnlink E u.cmd.seqnum f = true →
    (unlinkStatus E f = unlinkedStatus → ∀ g ∈ s.frames, isRetSubmit E u.cmd.unlinkSeqnum g = false) ∧
    ((∃ g ∈ before, isRetSubmit E u.cmd.unlinkSeqnum g = true) → unlinkStatus E f = 0)

/-- **Unlink agreement**, in every run whose unlinks are executed in time. -/
theorem unlink_agreement (h : Run E (fun s a => FreshNumbers s a ∧ Timely s a) d s) :
    UnlinkAgreement E s := by
  intro u hu hun before f after hs hf
  obtain ⟨l, r, l', hlog, rfl, rfl, -⟩ := frames_split hs
  have hrl : r ∈ s.log := by simp [hlog]
  have hju := job_eq_of_isRetUnlink h (fun _ _ h => h.1) hu hrl hf
  have hex : s.Executed u := ⟨hun, .inr ⟨r, mem_produced_of_kept h (mem_kept_of_log hrl), hju⟩⟩
  have hnone : ∀ g ∈ s.frames, isRetSubmit E u.cmd.unlinkSeqnum g = false := by
    intro g hg
    obtain ⟨q, hq, rfl⟩ := List.mem_map.mp hg
    rw [Bool.eq_false_iff]
    intro hsub
    obtain ⟨hqs, hqn⟩ := ((from_of_kept h (mem_kept_of_log hq)).isRetSubmit_iff _).mp hsub
    exact notPassed_run h u hex q (mem_passed_of_log hq) hqs hqn
  refine ⟨fun _ => hnone, fun ⟨g, hg, hsub⟩ => ?_⟩
  rw [hnone g (by rw [hs]; exact List.mem_append_left _ hg)] at hsub
  cases hsub

theorem unlink_agreement_unlinkInTime :
    (State.after .little (.mock [.bulk 0x81]) unlinkInTime).frames.map (unlinkStatus .little) = [unlinkedStatus] ∧
      UnlinkAgreement .little (State.after .little (.mock [.bulk 0x81]) unlinkInTime) :=
  ⟨by decide +kernel, unlink_agreement (run_after (by decide +kernel) (by decide +kernel))⟩

/-- A control submit is answered, then unlinked. -/
def unlinkLate : List Act :=
  fetch (.submit 1 USBIP_DIR_IN 0 2) ++ [.control Io.silent] ++ deliver ++
  fetch (.unlink 2 1) ++ [.insertUnlinked, .replyUnlink] ++ deliver

/-- The insert succeeds for a submit that was given back. -/
theorem unlink_disagreement : ¬ ∀ s, Run .little FreshNumbers (.mock []) s → UnlinkAgreement .little s := by
  intro h
  set s := State.after .little (.mock []) unlinkLate with hs
  have hrun : Run .little FreshNumbers (.mock []) s := run_after (by decide +kernel) (by decide +kernel)
  have hu : (⟨1, .unlink 2 1⟩ : Job) ∈ s.received := by decide +kernel
  have hsplit : s.frames = [s.frames[0]!] ++ s.frames[1]! :: [] := by decide +kernel
  have hnone := (h s hrun _ hu rfl _ _ _ hsplit (by decide +kernel)).1 (by decide +kernel) s.frames[0]!
    (by decide +kernel)
  exact absurd hnone (by decide +kernel)

end Viu
