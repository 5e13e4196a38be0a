/-
# The frames on the socket

What the host can tell from the frames it reads: each echoes the number and
address of the command it answers, under the RET_ code of the command's kind
(`Reply.From.base`). With the numbers all different (`FreshNumbers`) a number
names one command (`eq_of_seqnum`), and at most one reply is ever made for
it (`answers_le_one`).
-/
import Viu.Conserve

namespace Viu

open Bytes

variable {E : Order} {d : Device} {s t : State} {a : Act} {ok : State → Act → Prop}

/-- The frames written to the socket. -/
def State.frames (s : State) : List Command := s.log.map (·.rep)

/-- The frame is a RET_SUBMIT numbered `n`. -/
def isRetSubmit (E : Order) (n : U32) (frame : Command) : Bool :=
  frame.request = toBig E USBIP_RET_SUBMIT ∧ fromBig E frame.seqnum = n

/-- The frame is a RET_UNLINK numbered `n`. -/
def isRetUnlink (E : Order) (n : U32) (frame : Command) : Bool :=
  frame.request = toBig E USBIP_RET_UNLINK ∧ fromBig E frame.seqnum = n

/-- The status of a RET_UNLINK. -/
def unlinkStatus (E : Order) (frame : Command) : I32 := fromBig E frame.header.retUnlink.status

/-! ### A frame and its command -/

theorem Reply.From.isSubmit_or_isUnlink {finished : List Done} {r : Reply} (h : r.From E d finished) :
    r.job.cmd.isSubmit = true ∨ r.job.cmd.isUnlink = true := by
  cases h with
  | control tree hs hep hc hrep => exact .inl hs
  | unlink hu hrep => exact .inr hu
  | out made mem hj hcb hreq hrep => exact .inl (Job.isEpOut_eq hj).1
  | inn hj hb hrep => exact .inl (Job.isEpIn_eq hj).1

theorem Reply.From.base {finished : List Done} {r : Reply} (h : r.From E d finished) :
    r.rep.header.base = r.job.cmd.replyHeader E := by
  cases h with
  | @control j io dev dev' req rep tree hs hep hc hrep =>
    rw [queueReplyToHost_base hrep, (Proxy.executeControlCommand_keeps hc).1]
  | unlink hu hrep =>
    rw [queueReplyToHost_base hrep]
    rfl
  | @out x cb req rep made mem hj hcb hreq hrep =>
    subst hcb
    rw [queueReplyToHost_base hrep, ← Proxy.outRequest_of_some (Job.isEpOut_eq hj).2.2.1 hreq,
      (Proxy.outRequest_keeps E _ _).1]
  | inn hj hb hrep =>
    rw [queueReplyToHost_base hrep]
    rfl

theorem Reply.From.seqnum {finished : List Done} {r : Reply} (h : r.From E d finished) :
    fromBig E r.rep.seqnum = r.job.cmd.seqnum := by
  rw [Command.seqnum, h.base]
  exact fromBig_toBig (by decide) E _

theorem toBig_inj {E : Order} {x y : U32} (h : toBig E x = toBig E y) : x = y := by
  rw [← fromBig_toBig (by decide) E x, h, fromBig_toBig (by decide)]

theorem Reply.From.isRetSubmit_iff {finished : List Done} {r : Reply} (h : r.From E d finished) (n : U32) :
    isRetSubmit E n r.rep = true ↔ r.job.cmd.isSubmit = true ∧ r.job.cmd.seqnum = n := by
  have hreq : r.rep.request = toBig E (if r.job.cmd.isSubmit then USBIP_RET_SUBMIT else USBIP_RET_UNLINK) := by
    rw [Command.request, h.base]
    rfl
  rw [isRetSubmit, decide_eq_true_eq, h.seqnum, hreq]
  refine and_congr_left fun _ => ?_
  by_cases hs : r.job.cmd.isSubmit = true
  · simp [hs]
  · rw [if_neg hs]
    refine ⟨fun he => ?_, fun he => absurd he hs⟩
    exact absurd (toBig_inj he) (by decide)

theorem Reply.From.isRetUnlink_iff {finished : List Done} {r : Reply} (h : r.From E d finished) (n : U32) :
    isRetUnlink E n r.rep = true ↔ r.job.cmd.isUnlink = true ∧ r.job.cmd.seqnum = n := by
  have hreq : r.rep.request = toBig E (if r.job.cmd.isSubmit then USBIP_RET_SUBMIT else USBIP_RET_UNLINK) := by
    rw [Command.request, h.base]
    rfl
  rw [isRetUnlink, decide_eq_true_eq, h.seqnum, hreq]
  refine and_congr_left fun _ => ?_
  rcases h.isSubmit_or_isUnlink with hs | hu
  · rw [if_pos hs]
    refine ⟨fun he => absurd (toBig_inj he) (by decide), fun hu => ?_⟩
    rw [isSubmit_eq_false_of_isUnlink hu] at hs
    cases hs
  · simp [isSubmit_eq_false_of_isUnlink hu, hu]

theorem from_of_kept (h : Run E ok d s) {r : Reply} (hr : r ∈ s.kept) : r.From E d s.finished :=
  (held_run h).produced r (mem_produced_of_kept h hr)

/-- The frames numbered `n` answer commands numbered `n`. -/
theorem countP_isRetSubmit_le (h : Run E ok d s) (n : U32) :
    s.frames.countP (isRetSubmit E n) ≤ s.kept.countP fun r => decide (r.job.cmd.seqnum = n) := by
  rw [State.frames, List.countP_map, State.kept, List.append_assoc, List.countP_append]
  refine le_trans (List.countP_mono_left fun r hr hf => ?_) (Nat.le_add_right _ _)
  exact decide_eq_true (((from_of_kept h (mem_kept_of_log hr)).isRetSubmit_iff n).mp hf).2

theorem countP_isRetUnlink_le (h : Run E ok d s) (n : U32) :
    s.frames.countP (isRetUnlink E n) ≤ s.kept.countP fun r => decide (r.job.cmd.seqnum = n) := by
  rw [State.frames, List.countP_map, State.kept, List.append_assoc, List.countP_append]
  refine le_trans (List.countP_mono_left fun r hr hf => ?_) (Nat.le_add_right _ _)
  exact decide_eq_true (((from_of_kept h (mem_kept_of_log hr)).isRetUnlink_iff n).mp hf).2

/-! ### The commands sent -/

def Act.sent? : Act → Option Command
  | .send c => some c
  | _ => none

/-- A step sends one command or none. -/
theorem sent_step (hst : Step E s a t) :
    t.sent = s.sent ++ (a.sent?.map fun c => (⟨s.sent.length, c⟩ : Job)).toList := by
  cases hst with
  | send c => exact (List.append_assoc _ _ _).symm
  | read hr hw => simp [State.sent, hw, Act.sent?]
  | _ => exact (List.append_nil _).symm

theorem sent_cases (hst : Step E s a t) {j : Job} (hj : j ∈ t.sent) :
    j ∈ s.sent ∨ ∃ c, a.sent? = some c ∧ j = ⟨s.sent.length, c⟩ := by
  rw [sent_step hst] at hj
  rcases List.mem_append.mp hj with hj | hj
  · exact .inl hj
  · obtain ⟨c, hc, rfl⟩ := Option.map_eq_some_iff.mp (Option.mem_toList.mp hj)
    exact .inr ⟨c, hc, rfl⟩

theorem id_of_sent (h : Run E ok d s) : s.sent.map (·.id) = List.range s.sent.length := by
  refine h.invariant (I := fun s => s.sent.map (·.id) = List.range s.sent.length) rfl fun s a t hs _ hst => ?_
  rw [sent_step (step_cases hst)]
  cases a.sent? with
  | none => simpa using hs
  | some c => simp [hs, List.range_succ]

theorem sent_nodup (h : Run E ok d s) : s.sent.Nodup := by
  have := List.nodup_range (n := s.sent.length)
  rw [← id_of_sent h] at this
  exact this.of_map _

theorem id_lt (h : Run E ok d s) {j : Job} (hj : j ∈ s.sent) : j.id < s.sent.length := by
  rw [← List.mem_range, ← id_of_sent h]
  exact List.mem_map_of_mem hj

theorem mem_sent_of_received {j : Job} (hj : j ∈ s.received) : j ∈ s.sent := List.mem_append_left _ hj

/-- The host sends under a number it has not used yet. -/
def FreshNumbers (s : State) (a : Act) : Prop :=
  ∀ c ∈ a.sent?, ∀ j ∈ s.sent, j.cmd.seqnum ≠ c.seqnum

instance (s : State) (a : Act) : Decidable (FreshNumbers s a) := by unfold FreshNumbers; infer_instance

section fresh

variable (hok : ∀ s a, ok s a → FreshNumbers s a)
include hok

theorem seqnum_nodup (h : Run E ok d s) : (s.sent.map fun j => j.cmd.seqnum).Nodup := by
  refine h.invariant (I := fun s => (s.sent.map fun j => j.cmd.seqnum).Nodup) List.nodup_nil
    fun s a t hs ha hst => ?_
  rw [sent_step (step_cases hst)]
  have hfresh := hok s a ha
  unfold FreshNumbers at hfresh
  cases hc : a.sent? with
  | none => simpa using hs
  | some c =>
    rw [hc] at hfresh
    have hne := hfresh c rfl
    simp only [Option.map_some, Option.toList_some, List.map_append, List.map_cons, List.map_nil]
    refine List.nodup_append.mpr ⟨hs, List.nodup_singleton _, fun n hn m hm => ?_⟩
    obtain ⟨j, hj, rfl⟩ := List.mem_map.mp hn
    rw [List.mem_singleton.mp hm]
    exact hne j hj

theorem eq_of_seqnum (h : Run E ok d s) {i j : Job} (hi : i ∈ s.sent) (hj : j ∈ s.sent)
    (hn : i.cmd.seqnum = j.cmd.seqnum) : i = j :=
  List.inj_on_of_nodup_map (seqnum_nodup hok h) hi hj hn

theorem countP_seqnum_le_one (h : Run E ok d s) (n : U32) :
    s.received.countP (fun j => decide (j.cmd.seqnum = n)) ≤ 1 := by
  have hnd := seqnum_nodup hok h
  rw [State.sent, List.map_append] at hnd
  have hc := List.nodup_iff_count_le_one.mp (List.nodup_append.mp hnd).1 n
  rw [List.count, List.countP_map] at hc
  refine le_trans (le_of_eq (List.countP_congr fun j _ => ?_)) hc
  simp

/-- At most one reply is made for a number, written or discarded. -/
theorem answers_le_one (h : Run E ok d s) (n : U32) :
    (s.dropped.countP fun r => decide (r.job.cmd.seqnum = n)) +
      (s.kept.countP fun r => decide (r.job.cmd.seqnum = n)) ≤ 1 :=
  le_trans (countP_answers_le h fun j => decide (j.cmd.seqnum = n)) (countP_seqnum_le_one hok h n)

end fresh

end Viu
