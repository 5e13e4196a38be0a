/-
# The command loop of the daemon

`service::run` and `service::handle_accept`. A connection is what the client
sends before the end of the stream, and what it is sent. The two reads of a
request stand outside the `try`: at the end of the stream they throw, and the
exception leaves `handle_accept` and `io.run`. What is thrown inside is logged,
and no response is written.

`execute_from_argv` is a parameter here, a command that responds, fails or is
lost (`Daemon.Outcome`). The service is waiting after a run, and has answered
all requests, exactly when every connection brought a request that could be
read and a command that responded (`command_loop_iff`).
-/
import Viu.Argv
import Viu.FailedCommands
import Viu.Lib.Run

namespace Viu
namespace Service

open Bytes Argv Daemon Runs

/-! ### One connection -/

/-- `boost::asio::read`: `n` bytes and what is behind them; at the end of the stream it
throws. -/
def asioRead (n : ℕ) (stream : List Byte) : Option (List Byte × List Byte) :=
  if n ≤ stream.length then some (stream.take n, stream.drop n) else none

/-- The strings that `argv` points to, unless a pointer dangles. -/
def argvStrings (args : DeserializedArgs) : Option (List (List Byte)) :=
  (args.argvStorage.take args.argc.toInt.toNat).mapM fun p => (p.bind args.stringStorage.get?).map cString

/-- How the handling of a connection ends. -/
inductive Exit
  | returned
  /-- A `system_error` has left it. -/
  | systemError
  /-- The daemon is gone, or what it does is not defined. -/
  | lost
  deriving DecidableEq, Repr

/-- `execute_from_argv`. -/
abbrev Execute (σ : Type) := List (List Byte) → σ → Outcome × σ

variable {σ : Type} (E : Order) (overflow : BitVec 64) (serialize : Response → List Byte) (execute : Execute σ)

/-- A text behind its length. -/
def frame (text : List Byte) : List Byte := store E (BitVec.ofNat 32 text.length) ++ text

/-- The `try` of `handle_accept`: how it ends, what it has written, and the service after
it. -/
def handlePayload (payload : List Byte) (s : σ) : Exit × List Byte × σ :=
  match deserializeArgv E overflow payload with
  | .error e => (if e.thrown then .returned else .lost, [], s)
  | .ok args =>
    match argvStrings args with
    | none => (.lost, [], s)
    | some argv =>
      match execute argv s with
      | (.responded r, s) => (.returned, frame E (serialize r), s)
      | (.failed, s) => (.returned, [], s)
      | (.lost, s) => (.lost, [], s)

/-- The part of `handle_accept` that deals with a connection. -/
def handleConnection (sent : List Byte) (s : σ) : Exit × List Byte × σ :=
  match asioRead 4 sent with
  | none => (.systemError, [], s)
  | some (size, sent) =>
    match asioRead (load E 32 size).toNat sent with
    | none => (.systemError, [], s)
    | some (payload, _) => handlePayload E overflow serialize execute payload s

/-! ### The loop -/

structure Connection where
  sent : List Byte
  received : List Byte
  deriving DecidableEq, Repr

/-- The service in `io.run`. -/
structure Server (σ : Type) where
  service : σ
  /-- No exception has left `io.run`. -/
  running : Bool
  /-- `acceptor.is_open()`. -/
  isOpen : Bool
  /-- An `async_accept` is pending. -/
  accepting : Bool
  /-- The `async_wait` for a signal is pending. -/
  awaitingSignal : Bool
  handled : List Connection

def Server.init (s : σ) : Server σ := ⟨s, true, true, true, true, []⟩

inductive Event
  /-- The accept completes with a connection. -/
  | accepted (sent : List Byte)
  /-- It completes with an error. -/
  | acceptFailed
  /-- SIGTERM or SIGINT. -/
  | signalled
  deriving DecidableEq, Repr

/-- A connection has been dealt with. -/
def Server.record (s : Server σ) (service : σ) (c : Connection) : Server σ :=
  { s with service := service, handled := s.handled ++ [c] }

/-- The end of `handle_accept`. -/
def Server.doAccept (s : Server σ) : Server σ := { s with accepting := s.isOpen }

def step (s : Server σ) : Event → Option (Server σ)
  | .accepted sent =>
    if s.running && s.accepting then
      match handleConnection E overflow serialize execute sent s.service with
      | (.returned, received, service) => some (s.record service ⟨sent, received⟩).doAccept
      | (_, received, service) =>
        some { s.record service ⟨sent, received⟩ with running := false, accepting := false }
    else none
  | .acceptFailed => if s.running && s.accepting then some s.doAccept else none
  | .signalled =>
    if s.running && s.awaitingSignal then some { s with isOpen := false, awaitingSignal := false } else none

/-- The commands of the daemon, where Boost makes this command of the arguments. -/
def executeFromArgv {π : Type} (w : World π) (parse : List (List Byte) → Daemon.Command) : Execute (Daemon.State π) :=
  fun argv => Daemon.execute w (parse argv)

/-! ### What the loop owes its clients -/

/-- It waits for the next connection, as long as the acceptor is open. -/
def Server.Waits (s : Server σ) : Prop := s.running = true ∧ (s.isOpen = true → s.accepting = true)

/-- A request is complete when all of its payload has been sent. -/
def CompleteRequest (sent : List Byte) : Prop :=
  ∃ payload rest, payload.length < 2 ^ 32 ∧ sent = frame E payload ++ rest

def CompleteResponse (received : List Byte) : Prop := ∃ text, text.length < 2 ^ 32 ∧ received = frame E text

def Connection.Answered (c : Connection) : Prop := CompleteRequest E c.sent → CompleteResponse E c.received

/-- The connection brings a request that is a list of arguments, and the command for
these responds. -/
def Responds (s : σ) (sent : List Byte) : Prop :=
  ∃ payload rest args r s', payload.length < 2 ^ 32 ∧ sent = frame E payload ++ rest ∧
    serialisation E args <+: payload ∧ execute (args.map cString) s = (.responded r, s') ∧
    (serialize r).length < 2 ^ 32

def Fine (s : Server σ) : Event → Prop
  | .accepted sent => Responds E serialize execute s.service sent
  | .acceptFailed | .signalled => True

variable {E overflow serialize execute}

/-! ### A request -/

theorem asioRead_append (a b : List Byte) : asioRead a.length (a ++ b) = some (a, b) := by
  rw [asioRead, if_pos (by rw [List.length_append]; omega), List.take_left, List.drop_left]

theorem asioRead_cases (n : ℕ) (stream : List Byte) :
    asioRead n stream = none ∧ stream.length < n ∨
      ∃ a b, stream = a ++ b ∧ a.length = n ∧ asioRead n stream = some (a, b) := by
  by_cases h : n ≤ stream.length
  · obtain ⟨a, b, rfl, rfl⟩ := Cut.exists_append h
    exact .inr ⟨a, b, rfl, rfl, asioRead_append a b⟩
  · exact .inl ⟨if_neg h, Nat.lt_of_not_le h⟩

theorem mapM_eq_some {α β : Type} {f : α → Option β} : ∀ {as : List α} {bs : List β},
    as.map f = bs.map some → as.mapM f = some bs
  | [], [], _ => rfl
  | a :: as, b :: bs, h => by
    obtain ⟨hb, hbs⟩ := List.cons.inj h
    rw [List.mapM_cons, hb, mapM_eq_some hbs]
    rfl

/-- The entries of `argv` are the strings as C reads them. -/
theorem argvStrings_holds {r : DeserializedArgs} {args : List (List Byte)} (h : r.Holds args) :
    argvStrings r = some (args.map cString) := by
  have hcount : r.argc.toInt.toNat = args.length := by rw [h.argc, Int.toNat_natCast]
  have hmap : (r.argvStorage.take args.length).map (fun p => (p.bind r.stringStorage.get?).map cString) =
      (args.map cString).map some := by
    apply List.ext_getElem?
    intro i
    rw [List.getElem?_map, List.getElem?_map, List.getElem?_map, List.getElem?_take]
    cases hi : args[i]? with
    | none =>
      have hlen := List.getElem?_eq_none_iff.mp hi
      rw [if_neg (by omega)]
      rfl
    | some s =>
      have hlt := (List.getElem?_eq_some_iff.mp hi).1
      obtain ⟨p, hp, hs⟩ := h.entries i s hi
      rw [if_pos hlt, hp]
      simp [hs]
  unfold argvStrings
  rw [hcount]
  exact mapM_eq_some hmap

/-- A request that has not been sent whole. -/
theorem handleConnection_incomplete {sent : List Byte} (h : ¬CompleteRequest E sent) (s : σ) :
    handleConnection E overflow serialize execute sent s = (.systemError, [], s) := by
  unfold handleConnection
  rcases asioRead_cases 4 sent with ⟨hnone, -⟩ | ⟨size, sent, rfl, hsize, hread⟩
  · rw [hnone]
  · rw [hread]
    dsimp only
    rcases asioRead_cases (load E 32 size).toNat sent with ⟨hnone, -⟩ | ⟨payload, rest, rfl, hpayload, -⟩
    · rw [hnone]
    · refine absurd ⟨payload, rest, ?_, ?_⟩ h
      · exact hpayload ▸ (load E 32 size).isLt
      · rw [frame, hpayload, BitVec.ofNat_toNat, BitVec.setWidth_eq, store_load (by decide) E size hsize,
          List.append_assoc]

/-- One that has been. -/
theorem handleConnection_frame {payload : List Byte} (hlen : payload.length < 2 ^ 32) (rest : List Byte) (s : σ) :
    handleConnection E overflow serialize execute (frame E payload ++ rest) s =
      handlePayload E overflow serialize execute payload s := by
  have hsize := asioRead_append (store E (BitVec.ofNat 32 payload.length)) (payload ++ rest)
  rw [length_store] at hsize
  have hload : (load E 32 (store E (BitVec.ofNat 32 payload.length))).toNat = payload.length := by
    rw [load_store (by decide), BitVec.toNat_ofNat, Nat.mod_eq_of_lt hlen]
  unfold handleConnection
  rw [frame, List.append_assoc, hsize]
  dsimp only
  rw [hload, asioRead_append]

theorem frame_inj {text text' : List Byte} (h : text.length < 2 ^ 32) (h' : text'.length < 2 ^ 32)
    {rest rest' : List Byte} (heq : frame E text ++ rest = frame E text' ++ rest') : text = text' := by
  rw [frame, frame, List.append_assoc, List.append_assoc] at heq
  obtain ⟨hsize, hcut⟩ := List.append_inj heq (by rw [length_store, length_store])
  have hnat : text.length = text'.length := by
    have hload := congrArg (fun w => (load E 32 w).toNat) hsize
    rwa [load_store (by decide), load_store (by decide), BitVec.toNat_ofNat, BitVec.toNat_ofNat, Nat.mod_eq_of_lt h,
      Nat.mod_eq_of_lt h'] at hload
  exact (List.append_inj hcut hnat).1

/-- Nothing is no response. -/
theorem not_completeResponse_nil : ¬CompleteResponse E [] := by
  rintro ⟨text, -, hnil⟩
  have hlen := congrArg List.length hnil
  rw [frame, List.length_append, length_store, List.length_nil] at hlen
  omega

/-- Only a text that a length of 32 bits can tell is a response. -/
theorem completeResponse_frame_iff {text : List Byte} : CompleteResponse E (frame E text) ↔ text.length < 2 ^ 32 := by
  refine ⟨?_, fun h => ⟨text, h, rfl⟩⟩
  rintro ⟨text', hlen, heq⟩
  have hsame := List.append_inj heq (by rw [length_store, length_store])
  rwa [hsame.2]

variable (E overflow serialize execute) in
/-- A payload is answered exactly when it begins with a serialisation and the command responds. -/
theorem handlePayload_iff {payload : List Byte} (hlen : payload.length < 2 ^ 32) (s : σ) :
    ((handlePayload E overflow serialize execute payload s).1 = .returned ∧
      CompleteResponse E (handlePayload E overflow serialize execute payload s).2.1) ↔
    ∃ args r s', serialisation E args <+: payload ∧ execute (args.map cString) s = (.responded r, s') ∧
      (serialize r).length < 2 ^ 32 := by
  rw [handlePayload]
  rcases deserializeArgv_cases E overflow hlen with ⟨e, he, hthrown⟩ | ⟨args, hargs⟩
  · rw [he]
    simp only [hthrown, if_true, not_completeResponse_nil, and_false, false_iff]
    rintro ⟨args, r, s', hargs, -⟩
    obtain ⟨r, hr, -⟩ := deserializeArgv_serialisation overflow hlen hargs
    rw [hr] at he
    cases he
  · obtain ⟨r, hr, hholds⟩ := deserializeArgv_serialisation overflow hlen hargs
    have hone : (∃ args r s', serialisation E args <+: payload ∧ execute (args.map cString) s = (.responded r, s') ∧
        (serialize r).length < 2 ^ 32) ↔
        ∃ r s', execute (args.map cString) s = (.responded r, s') ∧ (serialize r).length < 2 ^ 32 := by
      refine ⟨?_, fun ⟨r, s', h⟩ => ⟨args, r, s', hargs, h⟩⟩
      rintro ⟨args', r, s', hargs', h⟩
      obtain rfl := serialisation_unique hlen hargs hargs'
      exact ⟨r, s', h⟩
    rw [hone, hr]
    simp only [argvStrings_holds hholds]
    obtain ⟨outcome, s'⟩ := execute (args.map cString) s
    cases outcome with
    | responded r => simp [completeResponse_frame_iff]
    | failed => simp [not_completeResponse_nil]
    | lost => simp

/-- There is one payload. -/
theorem responds_frame_iff {payload rest : List Byte} (hlen : payload.length < 2 ^ 32) {s : σ} :
    Responds E serialize execute s (frame E payload ++ rest) ↔
      ∃ args r s', serialisation E args <+: payload ∧ execute (args.map cString) s = (.responded r, s') ∧
        (serialize r).length < 2 ^ 32 := by
  refine ⟨?_, fun ⟨args, r, s', h⟩ => ⟨payload, rest, args, r, s', hlen, rfl, h⟩⟩
  rintro ⟨payload', rest', args, r, s', hlen', heq, h⟩
  obtain rfl := frame_inj hlen hlen' heq
  exact ⟨args, r, s', h⟩

variable (E overflow serialize execute) in
/-- A connection is dealt with as it should be exactly when it is answered by its
command. -/
theorem handleConnection_iff (sent : List Byte) (s : σ) :
    ((handleConnection E overflow serialize execute sent s).1 = .returned ∧
      (CompleteRequest E sent → CompleteResponse E (handleConnection E overflow serialize execute sent s).2.1)) ↔
    Responds E serialize execute s sent := by
  by_cases hreq : CompleteRequest E sent
  · obtain ⟨payload, rest, hlen, rfl⟩ := id hreq
    rw [handleConnection_frame hlen, imp_iff_right hreq, handlePayload_iff E overflow serialize execute hlen,
      responds_frame_iff hlen]
  · rw [handleConnection_incomplete hreq]
    refine ⟨fun h => ?_, ?_⟩
    · cases h.1
    · rintro ⟨payload, rest, -, -, -, hlen, heq, -⟩
      exact absurd ⟨payload, rest, hlen, heq⟩ hreq

/-! ### Runs -/

/-- What the loop owes up to here. -/
structure Server.Honours (E : Order) (s : Server σ) : Prop where
  waits : s.Waits
  answered : ∀ c ∈ s.handled, c.Answered E

/-- The loop has ended, or owes a response. -/
def Server.Broken (E : Order) (s : Server σ) : Prop := s.running = false ∨ ∃ c ∈ s.handled, ¬c.Answered E

theorem Server.Broken.not_honours {s : Server σ} (h : s.Broken E) : ¬s.Honours E := by
  rintro ⟨⟨hrunning, -⟩, hanswered⟩
  rcases h with hended | ⟨c, hc, hno⟩
  · rw [hrunning] at hended
    cases hended
  · exact hno (hanswered c hc)

theorem honours_init (s : σ) : (Server.init s).Honours E :=
  ⟨⟨rfl, fun _ => rfl⟩, fun _ hc => nomatch hc⟩

/-- What an accepted connection does to the loop. -/
theorem step_accepted {s t : Server σ} {sent : List Byte}
    (h : step E overflow serialize execute s (.accepted sent) = some t) :
    s.running = true ∧
      t.handled = s.handled ++ [⟨sent, (handleConnection E overflow serialize execute sent s.service).2.1⟩] ∧
      (if (handleConnection E overflow serialize execute sent s.service).1 = .returned then
        t.running = true ∧ t.accepting = t.isOpen else t.running = false) := by
  simp only [step] at h
  split at h
  · rename_i hguard
    have hrunning : s.running = true := (Bool.and_eq_true_iff.mp hguard).1
    refine ⟨hrunning, ?_⟩
    generalize handleConnection E overflow serialize execute sent s.service = result at h ⊢
    obtain ⟨exit, received, service⟩ := result
    cases exit
    · obtain rfl := Option.some.inj h
      exact ⟨rfl, hrunning, rfl⟩
    · obtain rfl := Option.some.inj h
      exact ⟨rfl, rfl⟩
    · obtain rfl := Option.some.inj h
      exact ⟨rfl, rfl⟩
  · cases h

/-- The other events do not touch what has been handled. -/
theorem step_other {s t : Server σ} {e : Event} (he : ∀ sent, e ≠ .accepted sent)
    (h : step E overflow serialize execute s e = some t) :
    t.handled = s.handled ∧ s.running = true ∧ t.running = true ∧ (s.Waits → t.Waits) := by
  cases e with
  | accepted sent => exact absurd rfl (he sent)
  | acceptFailed =>
    simp only [step] at h
    split at h
    · rename_i hguard
      obtain rfl := Option.some.inj h
      have hrunning : s.running = true := (Bool.and_eq_true_iff.mp hguard).1
      exact ⟨rfl, hrunning, hrunning, fun _ => ⟨hrunning, id⟩⟩
    · cases h
  | signalled =>
    simp only [step] at h
    split at h
    · rename_i hguard
      obtain rfl := Option.some.inj h
      have hrunning : s.running = true := (Bool.and_eq_true_iff.mp hguard).1
      exact ⟨rfl, hrunning, hrunning, fun _ => ⟨hrunning, fun hopen => nomatch hopen⟩⟩
    · cases h

theorem fine_of_other {s : Server σ} {e : Event} (he : ∀ sent, e ≠ .accepted sent) : Fine E serialize execute s e := by
  cases e with
  | accepted sent => exact absurd rfl (he sent)
  | acceptFailed => trivial
  | signalled => trivial

/-- One event: what is owed is kept exactly when it is fine. -/
theorem step_honours {s t : Server σ} {e : Event} (hs : s.Honours E)
    (h : step E overflow serialize execute s e = some t) :
    (Fine E serialize execute s e → t.Honours E) ∧ (¬Fine E serialize execute s e → t.Broken E) := by
  by_cases he : ∃ sent, e = .accepted sent
  · obtain ⟨sent, rfl⟩ := he
    obtain ⟨-, hhandled, hend⟩ := step_accepted h
    have hiff := handleConnection_iff E overflow serialize execute sent s.service
    rw [Fine, ← hiff]
    generalize handleConnection E overflow serialize execute sent s.service = result at hhandled hend ⊢
    refine ⟨fun ⟨hexit, hanswer⟩ => ?_, fun hno => ?_⟩
    · rw [if_pos hexit] at hend
      refine ⟨⟨hend.1, fun hopen => hend.2.trans hopen⟩, ?_⟩
      rw [hhandled]
      intro c hc
      rcases List.mem_append.mp hc with hold | hnew
      · exact hs.answered c hold
      · rw [List.mem_singleton.mp hnew]
        exact hanswer
    · by_cases hexit : result.1 = .returned
      · exact .inr ⟨⟨sent, result.2.1⟩, by rw [hhandled]; simp, fun hanswer => hno ⟨hexit, hanswer⟩⟩
      · rw [if_neg hexit] at hend
        exact .inl hend
  · have hother : ∀ sent, e ≠ .accepted sent := fun sent hsent => he ⟨sent, hsent⟩
    obtain ⟨hhandled, -, -, hwaits⟩ := step_other hother h
    exact ⟨fun _ => ⟨hwaits hs.waits, hhandled ▸ hs.answered⟩, fun hno => absurd (fine_of_other hother) hno⟩

/-- What is broken stays broken. -/
theorem Server.Broken.step {s t : Server σ} {e : Event} (hs : s.Broken E)
    (h : Service.step E overflow serialize execute s e = some t) : t.Broken E := by
  have hkept : s.running = true ∧ ∀ c ∈ s.handled, c ∈ t.handled := by
    by_cases he : ∃ sent, e = .accepted sent
    · obtain ⟨sent, rfl⟩ := he
      obtain ⟨hrunning, hhandled, -⟩ := step_accepted h
      exact ⟨hrunning, fun c hc => by rw [hhandled]; exact List.mem_append_left _ hc⟩
    · obtain ⟨hhandled, hrunning, -⟩ := step_other (fun sent hsent => he ⟨sent, hsent⟩) h
      exact ⟨hrunning, fun c hc => hhandled ▸ hc⟩
  rcases hs with hended | ⟨c, hc, hno⟩
  · rw [hkept.1] at hended
    cases hended
  · exact .inr ⟨c, hkept.2 c hc, hno⟩

theorem honours_or_broken {s t : Server σ}
    (h : Reach (fun s e t => step E overflow serialize execute s e = some t) Any s t) (hs : s.Honours E) :
    t.Honours E ∨ t.Broken E := by
  refine h.invariant (I := fun s => s.Honours E ∨ s.Broken E) (.inl hs) fun s e t hs _ hst => ?_
  rcases hs with hs | hs
  · by_cases hfine : Fine E serialize execute s e
    · exact .inl ((step_honours hs hst).1 hfine)
    · exact .inr ((step_honours hs hst).2 hfine)
  · exact .inr (hs.step hst)

theorem broken_run {s t : Server σ} (h : Reach (fun s e t => step E overflow serialize execute s e = some t) Any s t)
    (hs : s.Broken E) : t.Broken E := h.invariant hs fun _ _ _ hs _ hst => hs.step hst

end Service

open Bytes Service Runs

/-- **The command loop**: after a run the daemon waits for the next connection and has
answered every complete request exactly when every connection brought a request that could
be read and a command that responded. -/
theorem command_loop_iff {σ : Type} (E : Order) (overflow : BitVec 64) (serialize : Daemon.Response → List Byte)
    (execute : Execute σ) (service : σ) (events : List Event) {t : Server σ}
    (h : follow (Service.step E overflow serialize execute) (.init service) events = some t) :
    t.Honours E ↔
      Meets (Service.step E overflow serialize execute) (Fine E serialize execute) (.init service) events := by
  refine ⟨fun ht => ?_, fun hmeets => ?_⟩
  · by_contra hnot
    obtain ⟨u, e, v, hu, hno, hstep, hv⟩ := exists_broken events h hnot
    refine (broken_run hv ?_).not_honours ht
    rcases honours_or_broken hu (honours_init service) with hhonours | hbroken
    · exact (step_honours hhonours hstep).2 hno
    · exact hbroken.step hstep
  · exact (Runs.reach_follow events h hmeets).invariant (honours_init service) fun s e t hs hfine hst =>
      (step_honours hs hst).1 hfine

/-- Of a text in ASCII. -/
def Service.argument (text : String) : List Byte := text.toList.map fun c => BitVec.ofNat 8 c.toNat

/-- `viu plug --help`. -/
def Service.helpArgs : List (List Byte) := [argument "viu", argument "plug", argument "--help"]

def Service.helpRequest : List Byte := frame .little (serialisation .little helpArgs)

/-- Only of these arguments Boost makes a request for help, of others it knows none. -/
def Service.plugHelp : Execute (Daemon.State Unit) :=
  executeFromArgv .unopenable fun argv =>
    .plug (if argv = helpArgs then .parsed ⟨true, none, none, none, none⟩ else .unknownOption)

/-- A client asks for help, and the daemon is told to stop. -/
theorem command_loop_help :
    ∃ t, follow (Service.step .little 0 (fun _ => [1, 2, 3]) plugHelp) (.init (.init Unit))
        [.accepted helpRequest, .signalled, .acceptFailed] = some t ∧
      t.Honours .little ∧ t.handled = [⟨helpRequest, [3, 0, 0, 0, 1, 2, 3]⟩] := by
  refine ⟨_, rfl, (command_loop_iff .little 0 (fun _ => [1, 2, 3]) plugHelp (.init Unit)
    [.accepted helpRequest, .signalled, .acceptFailed] rfl).mpr ?_, rfl⟩
  refine ⟨⟨_, [], helpArgs, _, _, by decide, (List.append_nil _).symm, List.prefix_refl _, rfl, by decide⟩, ?_⟩
  exact fun _ _ => ⟨trivial, fun _ _ => ⟨trivial, fun _ _ => trivial⟩⟩

/-- `viu proxydev -d 1234:5678 -m /catalog.so`. -/
def Service.proxydevArgs : List (List Byte) :=
  [argument "viu", argument "proxydev", argument "-d", argument "1234:5678", argument "-m", argument "/catalog.so"]

def Service.proxydevRequest : List Byte := frame .little (serialisation .little proxydevArgs)

/-- A daemon that cannot open the device of this proxydev; of other arguments Boost knows none. -/
def Service.unopenableStep : Server (Daemon.State Unit) → Event → Option (Server (Daemon.State Unit)) :=
  Service.step .little 0 (fun _ => []) (executeFromArgv .unopenable fun argv =>
    if argv = proxydevArgs then Daemon.proxydevOpened else .plug .unknownOption)

/-- A client that sends nothing ends the loop; a command that throws leaves its client
without a response. -/
theorem command_loop_ended :
    (∃ t, follow unopenableStep (.init (.init Unit)) [.accepted []] = some t ∧ t.running = false) ∧
    (∃ t, follow unopenableStep (.init (.init Unit)) [.accepted proxydevRequest] = some t ∧ t.running = true ∧
      CompleteRequest .little proxydevRequest ∧ t.handled = [⟨proxydevRequest, []⟩]) ∧
    ¬∀ events t, follow unopenableStep (.init (.init Unit)) events = some t → t.Honours .little := by
  refine ⟨⟨_, rfl, rfl⟩, ⟨_, rfl, rfl, ⟨_, [], ?_, (List.append_nil _).symm⟩, rfl⟩, fun h => ?_⟩
  · decide
  · obtain ⟨hrunning, -⟩ := (h [.accepted []] _ rfl).waits
    cases hrunning

end Viu
