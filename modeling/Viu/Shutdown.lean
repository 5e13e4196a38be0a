/-
# The end of a device

`proxy::~proxy` and then `basic::~basic`, while the threads of the device still
run: the event thread is joined, the queues are closed one by one, then the
socket, and each thread is told to stop and joined. A thread may pull from a
closed queue what is left in it, and leaves its loop where it would push to one
or wait at one. A read of the closed socket fails; what is not the end of the
stream the reader tries again, which changes nothing and is no move.

`~proxy` takes the handlers with it: a submit that is executed later calls a pure
virtual function, which ends the process.

In every schedule the destructors come to their end, all threads joined, or the
process does (`shutdown_ends`). It can be ended exactly if a command other than an
unlink has not been executed by then (`shutdown_aborts_iff`). The host is sent
nothing that it could not have been sent without (`shutdown_log`).
-/
import Mathlib.Algebra.BigOperators.Fin
import Viu.Held

namespace Viu
namespace Shutdown

open Bytes Runs

/-! ### The destructors -/

/-- The threads of `threads_`. -/
inductive Worker
  | reader
  | replier
  | feeder (ep : ℕ)
  | exec
  deriving DecidableEq, Repr

/-- In the order of `start`. -/
def threads : List Worker := [.reader, .replier] ++ (List.range maxCountIn).map .feeder ++ [.exec]

inductive Queue
  | commands
  | replies
  | inCommands (ep : ℕ)
  | inData (ep : ℕ)
  deriving DecidableEq, Repr

/-- In the order in which they are closed. -/
def queues : List Queue :=
  [.commands, .replies] ++ (List.range maxCountIn).map .inCommands ++ (List.range maxCountIn).map .inData

/-- How far the destructors have come. -/
inductive Phase
  | live
  /-- `~proxy` is over, and the first `n` queues are closed. -/
  | closing (n : ℕ)
  /-- The socket is closed as well, and the first `n` threads are joined. -/
  | joining (n : ℕ)
  /-- The next thread has been told to stop. -/
  | waiting (n : ℕ)
  deriving DecidableEq, Repr

def Phase.closed : Phase → Queue → Bool
  | .live, _ => false
  | .closing n, q => q ∈ queues.take n
  | .joining _, q | .waiting _, q => q ∈ queues

def Phase.socketClosed : Phase → Bool
  | .live | .closing _ => false
  | .joining _ | .waiting _ => true

def Phase.stopRequested : Phase → Worker → Bool
  | .live, _ | .closing _, _ => false
  | .joining n, w => w ∈ threads.take n
  | .waiting n, w => w ∈ threads.take (n + 1)

/-- A thread that has left its loop keeps what it held. -/
structure Teardown where
  basic : State
  phase : Phase
  ended : Worker → Bool
  /-- The process is gone. -/
  aborted : Bool

def Teardown.init (d : Device) : Teardown := ⟨.init d, .live, fun _ => false, false⟩

inductive Move
  /-- The host or a thread goes on as before. -/
  | act (a : Act)
  /-- A write to the closed socket; the reply is gone. -/
  | failWrite
  /-- A thread leaves its loop. -/
  | stop (w : Worker)
  /-- An exception leaves the execution thread, or it calls a pure virtual function. -/
  | abort
  | destroyProxy
  | closeQueue
  | closeSocket
  | requestStop
  | join

/-- The thread that a move is one of; the host and the event thread are not in
`threads_`. -/
def worker : Act → Option Worker
  | .send _ | .complete _ _ => none
  | .read | .pushCommand => some .reader
  | .pullCommand | .control _ | .submitIn | .pushIn | .submitOut | .insertUnlinked | .replyUnlink => some .exec
  | .pullInCommand ep | .pullInData ep | .sendData ep => some (.feeder ep)
  | .pullReply | .check | .write => some .replier

namespace Teardown

variable (E : Order) (s : Teardown)

def runs (a : Act) : Bool := (worker a).all fun w => !s.ended w

/-- What it needs is not closed, and the handlers are there. -/
def allows : Act → Bool
  | .send _ | .read | .write => !s.phase.socketClosed
  | .pushCommand => !s.phase.closed .commands
  | .control _ | .submitIn | .submitOut | .complete _ _ => s.phase = .live
  | .pushIn =>
    match s.basic.exec with
    | .submitted j => !s.phase.closed (.inCommands j.cmd.ep.toNat)
    | _ => false
  | .replyUnlink | .sendData _ => !s.phase.closed .replies
  | .pullCommand | .insertUnlinked | .pullInCommand _ | .pullInData _ | .pullReply | .check => true

/-- Its loop ends here: it is told to stop, the queue is closed that it would push
to, or the one that it waits at is closed and empty. -/
def leaves : Worker → Bool
  | .reader => if s.basic.reader = none then s.phase.socketClosed else s.phase.closed .commands
  | .replier =>
    s.basic.replier = .idle &&
      (s.phase.stopRequested .replier || s.basic.repliesQueue = [] && s.phase.closed .replies)
  | .feeder ep =>
    match s.basic.feeder ep with
    | .idle => s.phase.stopRequested (.feeder ep) || s.basic.inCommands ep = [] && s.phase.closed (.inCommands ep)
    | .command j => s.basic.inData j.cmd.ep.toNat = [] && s.phase.closed (.inData j.cmd.ep.toNat)
    | .data _ _ => s.phase.closed .replies
  | .exec =>
    match s.basic.exec with
    | .idle => s.phase.stopRequested .exec || s.basic.commandsQueue = [] && s.phase.closed .commands
    | .pulled _ => false
    | .submitted j => s.phase.closed (.inCommands j.cmd.ep.toNat)
    | .unlinking _ _ => s.phase.closed .replies

/-- There is no handler for the command, or it is none that `execute_command` knows. -/
def throws : Bool :=
  match s.basic.exec with
  | .pulled j => if j.cmd.isSubmit then s.phase ≠ .live else !j.cmd.isUnlink
  | _ => false

def step : Move → Option Teardown
  | .act a =>
    if !s.aborted && s.runs a && s.allows a then (Viu.step E s.basic a).map fun b => { s with basic := b } else none
  | .failWrite =>
    match s.basic.replier with
    | .checked _ =>
      if !s.aborted && !s.ended .replier && s.phase.socketClosed then
        some { s with basic := { s.basic with replier := .idle } }
      else none
    | _ => none
  | .stop w =>
    if !s.aborted && w ∈ threads && !s.ended w && s.leaves w then
      some { s with ended := Function.update s.ended w true }
    else none
  | .abort => if !s.aborted && !s.ended .exec && s.throws then some { s with aborted := true } else none
  | .destroyProxy => if !s.aborted && s.phase = .live then some { s with phase := .closing 0 } else none
  | .closeQueue =>
    match s.phase with
    | .closing n => if !s.aborted && n < queues.length then some { s with phase := .closing (n + 1) } else none
    | _ => none
  | .closeSocket =>
    match s.phase with
    | .closing n => if !s.aborted && queues.length ≤ n then some { s with phase := .joining 0 } else none
    | _ => none
  | .requestStop =>
    match s.phase with
    | .joining n => if !s.aborted && n < threads.length then some { s with phase := .waiting n } else none
    | _ => none
  | .join =>
    match s.phase with
    | .waiting n => if !s.aborted && threads[n]?.all s.ended then some { s with phase := .joining (n + 1) } else none
    | _ => none

end Teardown

/-- The runs of a device and its destructors, in which the host and the threads meet
`ok`. -/
abbrev Run (E : Order) (ok : State → Act → Prop) (d : Device) : Teardown → Prop :=
  Reach (fun s m t => Teardown.step E s m = some t) (fun s m => ∀ a, m = .act a → ok s.basic a) (.init d)

variable {E : Order} {d : Device} {s t : Teardown} {m : Move} {ok : State → Act → Prop}

theorem Run.free (h : Run E ok d s) : Run E Any d s := h.mono fun _ _ _ _ _ => trivial

/-- What a move needs, and where it leads. -/
inductive Steps (E : Order) (s : Teardown) : Move → Teardown → Prop
  | act {a : Act} {b : State} (hruns : s.runs a = true) (hallows : s.allows a = true)
      (hb : Viu.step E s.basic a = some b) : Steps E s (.act a) { s with basic := b }
  | failWrite {r : Reply} (hr : s.basic.replier = .checked r) (hended : s.ended .replier = false)
      (hclosed : s.phase.socketClosed = true) :
      Steps E s .failWrite { s with basic := { s.basic with replier := .idle } }
  | stop {w : Worker} (hw : w ∈ threads) (hended : s.ended w = false) (hleaves : s.leaves w = true) :
      Steps E s (.stop w) { s with ended := Function.update s.ended w true }
  | abort (hended : s.ended .exec = false) (hthrows : s.throws = true) : Steps E s .abort { s with aborted := true }
  | destroyProxy (hp : s.phase = .live) : Steps E s .destroyProxy { s with phase := .closing 0 }
  | closeQueue {n : ℕ} (hp : s.phase = .closing n) (hn : n < queues.length) :
      Steps E s .closeQueue { s with phase := .closing (n + 1) }
  | closeSocket {n : ℕ} (hp : s.phase = .closing n) (hn : queues.length ≤ n) :
      Steps E s .closeSocket { s with phase := .joining 0 }
  | requestStop {n : ℕ} (hp : s.phase = .joining n) (hn : n < threads.length) :
      Steps E s .requestStop { s with phase := .waiting n }
  | join {n : ℕ} (hp : s.phase = .waiting n) (hended : threads[n]?.all s.ended = true) :
      Steps E s .join { s with phase := .joining (n + 1) }

theorem step_cases (h : s.step E m = some t) : s.aborted = false ∧ Steps E s m t := by
  cases m with
  | act a =>
    simp only [Teardown.step] at h
    split at h
    · rename_i hguard
      obtain ⟨b, hb, rfl⟩ := Option.map_eq_some_iff.mp h
      simp only [Bool.and_eq_true, Bool.not_eq_true'] at hguard
      exact ⟨hguard.1.1, .act hguard.1.2 hguard.2 hb⟩
    · cases h
  | failWrite =>
    simp only [Teardown.step] at h
    split at h
    · rename_i r hr
      split at h
      · rename_i hguard
        cases h
        simp only [Bool.and_eq_true, Bool.not_eq_true'] at hguard
        exact ⟨hguard.1.1, .failWrite hr hguard.1.2 hguard.2⟩
      · cases h
    · cases h
  | stop w =>
    simp only [Teardown.step] at h
    split at h
    · rename_i hguard
      cases h
      simp only [Bool.and_eq_true, Bool.not_eq_true', decide_eq_true_eq] at hguard
      exact ⟨hguard.1.1.1, .stop hguard.1.1.2 hguard.1.2 hguard.2⟩
    · cases h
  | abort =>
    simp only [Teardown.step] at h
    split at h
    · rename_i hguard
      cases h
      simp only [Bool.and_eq_true, Bool.not_eq_true'] at hguard
      exact ⟨hguard.1.1, .abort hguard.1.2 hguard.2⟩
    · cases h
  | destroyProxy =>
    simp only [Teardown.step] at h
    split at h
    · rename_i hguard
      cases h
      simp only [Bool.and_eq_true, Bool.not_eq_true', decide_eq_true_eq] at hguard
      exact ⟨hguard.1, .destroyProxy hguard.2⟩
    · cases h
  | closeQueue =>
    simp only [Teardown.step] at h
    split at h
    · rename_i n hp
      split at h
      · rename_i hguard
        cases h
        simp only [Bool.and_eq_true, Bool.not_eq_true', decide_eq_true_eq] at hguard
        exact ⟨hguard.1, .closeQueue hp hguard.2⟩
      · cases h
    · cases h
  | closeSocket =>
    simp only [Teardown.step] at h
    split at h
    · rename_i n hp
      split at h
      · rename_i hguard
        cases h
        simp only [Bool.and_eq_true, Bool.not_eq_true', decide_eq_true_eq] at hguard
        exact ⟨hguard.1, .closeSocket hp hguard.2⟩
      · cases h
    · cases h
  | requestStop =>
    simp only [Teardown.step] at h
    split at h
    · rename_i n hp
      split at h
      · rename_i hguard
        cases h
        simp only [Bool.and_eq_true, Bool.not_eq_true', decide_eq_true_eq] at hguard
        exact ⟨hguard.1, .requestStop hp hguard.2⟩
      · cases h
    · cases h
  | join =>
    simp only [Teardown.step] at h
    split at h
    · rename_i n hp
      split at h
      · rename_i hguard
        cases h
        simp only [Bool.and_eq_true, Bool.not_eq_true'] at hguard
        exact ⟨hguard.1, .join hp hguard.2⟩
      · cases h
    · cases h

theorem Steps.step (ha : s.aborted = false) (h : Steps E s m t) : s.step E m = some t := by
  cases h with
  | act hruns hallows hb => simp [Teardown.step, ha, hruns, hallows, hb]
  | failWrite hr hended hclosed => simp [Teardown.step, ha, hr, hended, hclosed]
  | stop hw hended hleaves => simp [Teardown.step, ha, hw, hended, hleaves]
  | abort hended hthrows => simp [Teardown.step, ha, hended, hthrows]
  | destroyProxy hp => simp [Teardown.step, ha, hp]
  | closeQueue hp hn => simp [Teardown.step, ha, hp, hn]
  | closeSocket hp hn => simp [Teardown.step, ha, hp, hn]
  | requestStop hp hn => simp [Teardown.step, ha, hp, hn]
  | join hp hended => simp [Teardown.step, ha, hp, hended]

/-! ### The host's side -/

theorem held_teardown (h : Run E ok d s) : Held E d s.basic := by
  refine h.invariant (I := fun s => Held E d s.basic) held_init fun s m t hs _ hst => ?_
  obtain ⟨-, hst⟩ := step_cases hst
  cases hst with
  | act _ _ hb => exact hs.step (Viu.step_cases hb)
  | failWrite => exact { hs with }
  | stop | abort | destroyProxy | closeQueue | closeSocket | requestStop | join => exact hs

/-- Only the host, the reader and a write come to the socket. -/
theorem kept_of_step {b b' : State} {a : Act} (h : Step E b a b') (hsend : ∀ c, a ≠ .send c) (hread : a ≠ .read)
    (hwrite : a ≠ .write) : b'.log = b.log ∧ b'.sent = b.sent := by
  cases h with
  | send c => exact absurd rfl (hsend c)
  | read => exact absurd rfl hread
  | write => exact absurd rfl hwrite
  | _ => exact ⟨rfl, rfl⟩

/-- **The host is sent nothing new**: what has been written when the device is gone,
a run that goes on could have written. -/
theorem shutdown_log (h : Run E ok d s) :
    ∃ b, Viu.Run E ok d b ∧ b.log = s.basic.log ∧ b.sent = s.basic.sent ∧
      (s.phase.socketClosed = false → b = s.basic) := by
  refine h.invariant (I := fun s => ∃ b, Viu.Run E ok d b ∧ b.log = s.basic.log ∧ b.sent = s.basic.sent ∧
    (s.phase.socketClosed = false → b = s.basic)) ⟨_, .init, rfl, rfl, fun _ => rfl⟩ fun s m t hs hok hst => ?_
  obtain ⟨b, hb, hlog, hsent, hsame⟩ := hs
  obtain ⟨-, hst⟩ := step_cases hst
  cases hst with
  | @act a b' _ hallows hb' =>
    cases hclosed : s.phase.socketClosed with
    | false =>
      obtain rfl := hsame hclosed
      exact ⟨b', hb.step (hok a rfl) hb', rfl, rfl, fun _ => rfl⟩
    | true =>
      have hkept : b'.log = s.basic.log ∧ b'.sent = s.basic.sent := by
        refine kept_of_step (Viu.step_cases hb') (fun c hc => ?_) (fun hc => ?_) fun hc => ?_ <;>
        · rw [hc, Teardown.allows, hclosed] at hallows
          cases hallows
      exact ⟨b, hb, hlog.trans hkept.1.symm, hsent.trans hkept.2.symm, fun hopen => (nomatch hopen)⟩
  | failWrite _ _ hclosed => exact ⟨b, hb, hlog, hsent, fun hopen => by rw [hclosed] at hopen; cases hopen⟩
  | stop | abort => exact ⟨b, hb, hlog, hsent, hsame⟩
  | destroyProxy hp | closeQueue hp => exact ⟨b, hb, hlog, hsent, fun _ => hsame (by rw [hp]; rfl)⟩
  | closeSocket | requestStop | join => exact ⟨b, hb, hlog, hsent, fun hopen => nomatch hopen⟩

/-! ### What is left to do -/

def execWork : Exec → ℕ
  | .idle => 0
  | .pulled _ => 12
  | .submitted _ => 7
  | .unlinking _ _ => 4

def feederWork : Feeder → ℕ
  | .idle => 0
  | .command _ => 5
  | .data _ _ => 4

def replierWork : Replier → ℕ
  | .idle => 0
  | .pulled _ => 2
  | .checked _ => 1

def feedingWork (inCommands : ℕ → List Job) (feeder : ℕ → Feeder) (ep : ℕ) : ℕ :=
  6 * (inCommands ep).length + feederWork (feeder ep)

/-- A command weighs more than what it is made into: a transfer, an entry of
`in_commands_`, a reply. -/
def basicWork (s : State) : ℕ :=
  15 * s.wire.length + 14 * s.reader.toList.length + 13 * s.commandsQueue.length + execWork s.exec +
    ∑ ep ∈ Finset.range maxCountIn, feedingWork s.inCommands s.feeder ep + 4 * s.pending.length +
    3 * s.repliesQueue.length + replierWork s.replier

def phaseWork : Phase → ℕ
  | .live => queues.length + 2 * threads.length + 2
  | .closing n => queues.length - n + 2 * threads.length + 1
  | .joining n => 2 * (threads.length - n)
  | .waiting n => 2 * (threads.length - (n + 1)) + 1

def Teardown.work (s : Teardown) : ℕ :=
  basicWork s.basic + phaseWork s.phase + threads.countP (fun w => !s.ended w) + if s.aborted then 0 else 1

/-- All moves but the host's. -/
def Move.isWork : Move → Bool
  | .act (.send _) => false
  | _ => true

theorem sum_add {f g : ℕ → ℕ} {n ep k : ℕ} (hep : ep < n) (hsame : ∀ e, e ≠ ep → f e = g e) (h : f ep = g ep + k) :
    ∑ e ∈ Finset.range n, f e = ∑ e ∈ Finset.range n, g e + k := by
  have hmem := Finset.mem_range.mpr hep
  have hrest : ∑ e ∈ (Finset.range n).erase ep, f e = ∑ e ∈ (Finset.range n).erase ep, g e :=
    Finset.sum_congr rfl fun e he => hsame e (Finset.ne_of_mem_erase he)
  rw [← Finset.add_sum_erase _ f hmem, ← Finset.add_sum_erase _ g hmem, hrest, h]
  omega

theorem length_eraseIdx {ps : List Pending} {k : ℕ} {p : Pending} (hk : ps[k]? = some p) :
    (ps.eraseIdx k).length + 1 = ps.length := by
  have hlt := (List.getElem?_eq_some_iff.mp hk).1
  rw [List.length_eraseIdx_of_lt hlt]
  omega

/-- Every move of a thread is work done. -/
theorem basicWork_lt {b b' : State} {a : Act} (hh : Held E d b) (ha : ∀ c, a ≠ .send c) (h : Step E b a b') :
    basicWork b' < basicWork b := by
  cases h with
  | send c => exact absurd rfl (ha c)
  | read hr hw => simp [basicWork, hr, hw]; omega
  | pushCommand hr => simp [basicWork, hr]; omega
  | pullCommand he hq => simp [basicWork, he, hq, execWork]; omega
  | control he hs hep hc hrep => simp [basicWork, State.pushReply, he, execWork]; omega
  | @submitIn j p he hj hp =>
    have hone : (pendingOf j p).length ≤ 1 := by cases p <;> simp [pendingOf]
    simp [basicWork, he, execWork]
    omega
  | @pushIn j he =>
    have hlt := (Job.isEpIn_eq (hh.submitted j he)).2.2.2
    have hsum := sum_add (g := feedingWork b.inCommands b.feeder) (k := 6)
      (f := feedingWork (Function.update b.inCommands j.cmd.ep.toNat (b.inCommands j.cmd.ep.toNat ++ [j])) b.feeder) hlt
      (fun e he => by simp [feedingWork, Function.update_of_ne he]) (by simp [feedingWork]; omega)
    simp [basicWork, he, execWork, hsum]
    omega
  | @submitOut j p he hj hp =>
    have hone : (pendingOf j p).length ≤ 1 := by cases p <;> simp [pendingOf]
    simp [basicWork, he, execWork]
    omega
  | insertUnlinked he hu => simp [basicWork, he, execWork]
  | replyUnlink he hrep => simp [basicWork, State.pushReply, he, execWork]; omega
  | release hk hc hcb =>
    have hlen := length_eraseIdx hk
    simp only [basicWork]
    omega
  | completeIn hk hc hcb =>
    have hlen := length_eraseIdx hk
    simp only [basicWork, State.pushData]
    omega
  | completeOut hk hc hcb hrep =>
    have hlen := length_eraseIdx hk
    simp only [basicWork, State.pushReply, List.length_append, List.length_singleton]
    omega
  | @pullInCommand ep j queue hf hq hep =>
    have hsum := sum_add (f := feedingWork b.inCommands b.feeder) (k := 1)
      (g := feedingWork (Function.update b.inCommands ep queue) (Function.update b.feeder ep (.command j))) hep
      (fun e he => by simp [feedingWork, Function.update_of_ne he])
      (by simp [feedingWork, hf, hq, feederWork]; omega)
    simp only [basicWork, hsum]
    omega
  | @pullInData ep j block queue hf hq =>
    have hep := (hh.feeder_at hf rfl).lt
    have hsum := sum_add (f := feedingWork b.inCommands b.feeder) (k := 1)
      (g := feedingWork b.inCommands (Function.update b.feeder ep (.data j block))) hep
      (fun e he => by simp [feedingWork, Function.update_of_ne he])
      (by simp [feedingWork, hf, feederWork])
    simp only [basicWork, hsum]
    omega
  | @sendData ep j block rep hf hrep =>
    have hep := (hh.feeder_at hf rfl).lt
    have hsum := sum_add (f := feedingWork b.inCommands b.feeder) (k := 4)
      (g := feedingWork b.inCommands (Function.update b.feeder ep .idle)) hep
      (fun e he => by simp [feedingWork, Function.update_of_ne he])
      (by simp [feedingWork, hf, feederWork])
    simp only [basicWork, State.pushReply, hsum, List.length_append, List.length_singleton]
    omega
  | pullReply hr hq => simp [basicWork, hr, hq, replierWork]; omega
  | checkDrop hr hu => simp [basicWork, hr, replierWork]
  | checkPass hr hu => simp [basicWork, hr, replierWork]
  | write hr => simp [basicWork, hr, replierWork]

theorem countP_update {l : List Worker} {f : Worker → Bool} {w : Worker} (hw : w ∈ l) (hf : f w = false) :
    l.countP (fun v => !Function.update f w true v) < l.countP fun v => !f v := by
  have hmono : ∀ l : List Worker, l.countP (fun v => !Function.update f w true v) ≤ l.countP fun v => !f v := by
    refine fun l => List.countP_mono_left fun v _ hv => ?_
    by_cases h : v = w
    · rw [h, Function.update_self] at hv
      cases hv
    · rwa [Function.update_of_ne h] at hv
  obtain ⟨l₁, l₂, rfl⟩ := List.append_of_mem hw
  have h1 := hmono l₁
  have h2 := hmono l₂
  simp only [List.countP_append, List.countP_cons, Function.update_self, hf]
  simp only [Bool.not_true, Bool.not_false, if_true, Bool.false_eq_true, if_false]
  omega

theorem work_lt (hh : Held E d s.basic) (ha : s.aborted = false) (h : Steps E s m t) (hm : m.isWork = true) :
    t.work < s.work := by
  cases h with
  | @act a b hruns hallows hb =>
    have hlt := basicWork_lt hh (fun c hc => by rw [hc] at hm; cases hm) (Viu.step_cases hb)
    simp only [Teardown.work]
    omega
  | failWrite hr hended hclosed =>
    simp only [Teardown.work, basicWork, hr, replierWork]
    omega
  | stop hw hended hleaves =>
    have hlt := countP_update hw hended
    simp only [Teardown.work]
    omega
  | abort hended hthrows => simp [Teardown.work, ha]
  | destroyProxy hp => simp [Teardown.work, phaseWork, hp]
  | closeQueue hp hn => simp only [Teardown.work, phaseWork, hp]; omega
  | closeSocket hp hn => simp only [Teardown.work, phaseWork, hp]; omega
  | requestStop hp hn => simp only [Teardown.work, phaseWork, hp]; omega
  | join hp hended => simp only [Teardown.work, phaseWork, hp]; omega

/-! ### The end -/

/-- The destructors are over. -/
def Teardown.done (s : Teardown) : Prop := ∃ n, s.phase = .joining n ∧ threads.length ≤ n

def pulled : Exec → List Job
  | .pulled j => [j]
  | .idle | .submitted _ | .unlinking _ _ => []

/-- The commands that have not been executed. -/
def unexecuted (b : State) : List Job := pulled b.exec ++ b.commandsQueue ++ b.reader.toList ++ b.wire

theorem mem_unexecuted {b : State} {j : Job} :
    j ∈ unexecuted b ↔ b.exec = .pulled j ∨ j ∈ b.commandsQueue ∨ b.reader = some j ∨ j ∈ b.wire := by
  have hexec : j ∈ pulled b.exec ↔ b.exec = .pulled j := by
    cases b.exec <;> simp [pulled, eq_comm]
  rw [unexecuted, List.mem_append, List.mem_append, List.mem_append, hexec, Option.mem_toList, or_assoc, or_assoc]

/-- Only the host adds to them. -/
theorem mem_unexecuted_of_step {b b' : State} {a : Act} {j : Job} (h : Step E b a b') (ha : ∀ c, a ≠ .send c)
    (hj : j ∈ unexecuted b') : j ∈ unexecuted b := by
  rw [mem_unexecuted] at hj ⊢
  cases h with
  | send c => exact absurd rfl (ha c)
  | read hr hw =>
    rw [hw, List.mem_cons]
    rcases hj with hj | hj | hj | hj
    · exact .inl hj
    · exact .inr (.inl hj)
    · exact .inr (.inr (.inr (.inl (Option.some.inj hj).symm)))
    · exact .inr (.inr (.inr (.inr hj)))
  | pushCommand hr =>
    rw [hr]
    rcases hj with hj | hj | hj | hj
    · exact .inl hj
    · rcases List.mem_append.mp hj with hj | hj
      · exact .inr (.inl hj)
      · exact .inr (.inr (.inl (congrArg some (List.mem_singleton.mp hj).symm)))
    · cases hj
    · exact .inr (.inr (.inr hj))
  | pullCommand he hq =>
    rw [hq, List.mem_cons]
    rcases hj with hj | hj | hj
    · exact .inr (.inl (.inl (Exec.pulled.inj hj).symm))
    · exact .inr (.inl (.inr hj))
    · exact .inr (.inr hj)
  | control | submitIn | pushIn | submitOut | insertUnlinked | replyUnlink =>
    rcases hj with hj | hj
    · cases hj
    · exact .inr hj
  | _ => exact hj

/-- The moves that bring the next command to its execution. -/
def Move.fetches : Move → Bool
  | .act .read | .act .pushCommand | .act .pullCommand | .act .pushIn | .act .insertUnlinked | .act .replyUnlink => true
  | _ => false

theorem mem_unexecuted_of_fetches {b b' : State} {a : Act} {j : Job} (h : Step E b a b')
    (ha : (Move.act a).fetches = true) (hu : j.cmd.isUnlink = false) (hj : j ∈ unexecuted b) : j ∈ unexecuted b' := by
  rw [mem_unexecuted] at hj ⊢
  cases h with
  | read hr hw =>
    rw [hr, hw, List.mem_cons] at hj
    rcases hj with hj | hj | hj | hj | hj
    · exact .inl hj
    · exact .inr (.inl hj)
    · cases hj
    · exact .inr (.inr (.inl (congrArg some hj.symm)))
    · exact .inr (.inr (.inr hj))
  | pushCommand hr =>
    rw [hr] at hj
    rcases hj with hj | hj | hj | hj
    · exact .inl hj
    · exact .inr (.inl (List.mem_append_left _ hj))
    · exact .inr (.inl (List.mem_append_right _ (List.mem_singleton.mpr (Option.some.inj hj).symm)))
    · exact .inr (.inr (.inr hj))
  | pullCommand he hq =>
    rw [he, hq, List.mem_cons] at hj
    rcases hj with hj | (hj | hj) | hj
    · cases hj
    · exact .inl (congrArg Exec.pulled hj.symm)
    · exact .inr (.inl hj)
    · exact .inr (.inr hj)
  | pushIn he | replyUnlink he =>
    rw [he] at hj
    rcases hj with hj | hj
    · cases hj
    · exact .inr hj
  | insertUnlinked he hunlink =>
    rw [he] at hj
    rcases hj with hj | hj
    · obtain rfl := Exec.pulled.inj hj
      rw [hunlink] at hu
      cases hu
    · exact .inr hj
  | _ => cases ha

/-- Nothing makes a thread leave before the first queue is closed. -/
theorem not_ended (h : Run E ok d s) (hp : s.phase = .live ∨ s.phase = .closing 0) (w : Worker) :
    s.ended w = false := by
  refine h.invariant (I := fun s => s.phase = .live ∨ s.phase = .closing 0 → s.ended w = false) (fun _ => rfl)
    (fun s m t hs _ hst hp => ?_) hp
  obtain ⟨-, hst⟩ := step_cases hst
  cases hst with
  | act | failWrite | abort => exact hs hp
  | @stop w' hw hended hleaves =>
    have hopen : (∀ q, s.phase.closed q = false) ∧ s.phase.socketClosed = false ∧
        ∀ v, s.phase.stopRequested v = false := by
      rcases hp with hp | hp <;>
      · change s.phase = _ at hp
        rw [hp]
        exact ⟨fun _ => rfl, rfl, fun _ => rfl⟩
    obtain ⟨hqueue, hsocket, hstop⟩ := hopen
    cases w' with
    | reader => simp [Teardown.leaves, hqueue, hsocket] at hleaves
    | replier => simp [Teardown.leaves, hqueue, hstop] at hleaves
    | feeder ep => cases hf : s.basic.feeder ep <;> simp [Teardown.leaves, hf, hqueue, hstop] at hleaves
    | exec => cases he : s.basic.exec <;> simp [Teardown.leaves, he, hqueue, hstop] at hleaves
  | destroyProxy hlive => exact hs (.inl hlive)
  | closeQueue | closeSocket | requestStop | join => rcases hp with hp | hp <;> cases hp

/-- As long as nothing is closed the next command comes to its execution. -/
theorem exists_fetch (hs : Run E ok d s) (hp : s.phase = .closing 0) {j : Job} (hj : j ∈ unexecuted s.basic)
    (hnot : ∀ j, s.basic.exec = .pulled j → j.cmd.isUnlink = true) : ∃ m t, m.fetches = true ∧ Steps E s m t := by
  have hh := held_teardown hs
  have hact : ∀ {a : Act}, (Move.act a).fetches = true → s.allows a = true → (∃ b, Viu.step E s.basic a = some b) →
      ∃ m t, m.fetches = true ∧ Steps E s m t := by
    rintro a ha hallows ⟨b, hb⟩
    have hruns : s.runs a = true := by
      unfold Teardown.runs
      cases worker a with
      | none => rfl
      | some w => simp [not_ended hs (.inr hp) w]
    exact ⟨.act a, _, ha, .act hruns hallows hb⟩
  have hopen : ∀ q, s.phase.closed q = false := fun q => by rw [hp]; rfl
  cases he : s.basic.exec with
  | idle =>
    cases hq : s.basic.commandsQueue with
    | cons i queue => exact hact (a := .pullCommand) rfl rfl (by simp [Viu.step, he, hq])
    | nil =>
      cases hr : s.basic.reader with
      | some i => exact hact (a := .pushCommand) rfl (by simp [Teardown.allows, hopen]) (by simp [Viu.step, hr])
      | none =>
        cases hw : s.basic.wire with
        | cons i wire =>
          exact hact (a := .read) rfl (by simp [Teardown.allows, hp, Phase.socketClosed]) (by simp [Viu.step, hr, hw])
        | nil => simp [mem_unexecuted, he, hq, hr, hw] at hj
  | pulled i => exact hact (a := .insertUnlinked) rfl rfl (by simp [Viu.step, he, hnot i he])
  | submitted i => exact hact (a := .pushIn) rfl (by simp [Teardown.allows, he, hopen]) (by simp [Viu.step, he])
  | unlinking i status =>
    have hreply : queueReplyToHost E (unlinkReply i.cmd status) = .ok _ :=
      queueReplyToHost_unlink E (hh.unlinking i status he)
    exact hact (a := .replyUnlink) rfl (by simp [Teardown.allows, hopen]) (by simp [Viu.step, he, hreply])

theorem Move.isWork_of_fetches (h : m.fetches = true) : m.isWork = true := by
  cases m with
  | act a => cases a <;> first | rfl | cases h
  | _ => rfl

/-- Before the first queue is closed, the command is still to be executed. -/
structure Awaits (E : Order) (d : Device) (j : Job) (s : Teardown) : Prop where
  run : Run E Any d s
  phase : s.phase = .closing 0
  running : s.aborted = false
  mem : j ∈ unexecuted s.basic

theorem Awaits.step {j : Job} (h : Awaits E d j s) (hu : j.cmd.isUnlink = false) (hm : m.fetches = true)
    (hst : s.step E m = some t) : Awaits E d j t := by
  have hrun : Run E Any d t := h.run.step (fun _ _ => trivial) hst
  obtain ⟨-, hst⟩ := step_cases hst
  cases hst with
  | act _ _ hb => exact ⟨hrun, h.phase, h.running, mem_unexecuted_of_fetches (Viu.step_cases hb) hm hu h.mem⟩
  | _ => cases hm

theorem Awaits.exists_abort {j : Job} (h : Awaits E d j s) (hu : j.cmd.isUnlink = false) :
    ∃ t, Reach (fun s m t => Teardown.step E s m = some t) (fun _ m => m.isWork = true) s t ∧ t.aborted = true := by
  obtain ⟨t, ht, hrest⟩ := exists_rest (A := fun m : Move => m.fetches = true) (J := Awaits E d j) Teardown.work
    (fun s m t hs hm hst => hs.step hu hm hst)
    (fun s m t hs hm hst => work_lt (held_teardown hs.run) hs.running (step_cases hst).2 (Move.isWork_of_fetches hm)) h
  have hend : Awaits E d j t := ht.invariant h fun s m t hs hm hst => hs.step hu hm hst
  have hpulled : ∃ i, t.basic.exec = .pulled i ∧ i.cmd.isUnlink = false := by
    by_contra hnone
    obtain ⟨m, u, hm, hst⟩ := exists_fetch hend.run hend.phase hend.mem fun i hi =>
      Bool.not_eq_false _ ▸ fun hu => hnone ⟨i, hi, hu⟩
    exact hrest m u hm (hst.step hend.running)
  obtain ⟨i, hi, hiu⟩ := hpulled
  have habort : Steps E t .abort { t with aborted := true } :=
    .abort (not_ended hend.run (.inr hend.phase) .exec) (by simp [Teardown.throws, hi, hiu, hend.phase])
  exact ⟨_, (ht.mono fun _ _ => Move.isWork_of_fetches).step rfl (habort.step hend.running), rfl⟩

/-- **What is not executed ends the process**: when `~proxy` is over, there is a schedule
in which it does not survive exactly if a command other than an unlink is left. -/
theorem shutdown_aborts_iff (hs : Run E ok d s) (hp : s.phase = .closing 0) (ha : s.aborted = false) :
    (∃ t, Reach (fun s m t => Teardown.step E s m = some t) (fun _ m => m.isWork = true) s t ∧ t.aborted = true) ↔
      ∃ j ∈ unexecuted s.basic, j.cmd.isUnlink = false := by
  constructor
  · rintro ⟨t, ht, haborted⟩
    by_contra hnone
    have hunlink : ∀ j ∈ unexecuted s.basic, j.cmd.isUnlink = true := fun j hj =>
      Bool.not_eq_false _ ▸ fun hu => hnone ⟨j, hj, hu⟩
    have hI : t.phase ≠ .live ∧ t.aborted = false ∧ ∀ j ∈ unexecuted t.basic, j.cmd.isUnlink = true := by
      refine ht.invariant (I := fun t => t.phase ≠ .live ∧ t.aborted = false ∧
        ∀ j ∈ unexecuted t.basic, j.cmd.isUnlink = true) ⟨by rw [hp]; nofun, ha, hunlink⟩ ?_
      rintro s m t ⟨hlive, hab, hunlink⟩ hm hst
      obtain ⟨-, hst⟩ := step_cases hst
      cases hst with
      | @act a b hruns hallows hb =>
        refine ⟨hlive, hab, fun j hj => hunlink j (mem_unexecuted_of_step (Viu.step_cases hb) (fun c hc => ?_) hj)⟩
        rw [hc] at hm
        cases hm
      | failWrite | stop => exact ⟨hlive, hab, hunlink⟩
      | abort hended hthrows =>
        exfalso
        cases he : s.basic.exec with
        | pulled j =>
          have hu := hunlink j (mem_unexecuted.mpr (.inl he))
          simp [Teardown.throws, he, hu, isSubmit_eq_false_of_isUnlink hu] at hthrows
        | _ => simp [Teardown.throws, he] at hthrows
      | destroyProxy hp => exact absurd hp hlive
      | closeQueue | closeSocket | requestStop | join => exact ⟨nofun, hab, hunlink⟩
    rw [hI.2.1] at haborted
    cases haborted
  · rintro ⟨j, hj, hu⟩
    exact Awaits.exists_abort ⟨(Run.free hs), hp, ha, hj⟩ hu

/-! ### A submit is left -/

def lateSubmit : Command := .submit 1 USBIP_DIR_IN 1 2

/-- The host sends it, and then the device is unplugged. -/
def unplugged : Teardown where
  basic := { State.init (.mock [.bulk 0x81]) with wire := [⟨0, lateSubmit⟩] }
  phase := .closing 0
  ended _ := false
  aborted := false

theorem run_unplugged : Run .little Any (.mock [.bulk 0x81]) unplugged :=
  .step (a := .destroyProxy) (.step (a := .act (.send lateSubmit)) .init (fun _ _ => trivial) rfl)
    (fun _ _ => trivial) rfl

theorem shutdown_log_unplugged : ∃ b, Viu.Run .little Any (.mock [.bulk 0x81]) b ∧ b.log = [] ∧
    b.sent = [⟨0, lateSubmit⟩] := by
  obtain ⟨b, hb, hlog, hsent, -⟩ := shutdown_log run_unplugged
  exact ⟨b, hb, hlog, hsent⟩

theorem shutdown_aborts_unplugged : ∃ t, Reach (fun s m t => Teardown.step .little s m = some t)
    (fun _ m => m.isWork = true) unplugged t ∧ t.aborted = true :=
  (shutdown_aborts_iff run_unplugged rfl rfl).mpr ⟨⟨0, lateSubmit⟩, List.mem_singleton_self _, rfl⟩

end Shutdown
end Viu
