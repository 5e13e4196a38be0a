/-
# The client

`client::send_command`: the arguments are sent to the daemon, its response is read
and printed. An exception is printed as well, and only then the exit code is not
0: a response that says that the command has failed is a response.

Through the client the daemon is its commands, called one after another:
whatever else comes in between, each client prints what its command responds to,
in the state that the commands before it have left (`clients_run`), and the daemon
ends just where one of them is lost.
-/
import Viu.Service

namespace Viu
namespace Client

open Bytes Argv Daemon Service Runs

variable {σ : Type} (E : Order) (overflow : BitVec 64) (serialize : Response → List Byte)
  (deserialize : List Byte → Except String Response) (eof : String) (execute : Execute σ)

/-! ### The client -/

/-- What it writes. -/
def request (argv : List (List Byte)) : List Byte := frame E (serializeArgv E argv)

/-- The response, or the `what()` of an exception; `eof` is the one of `boost::asio::read`. -/
def readResponse (received : List Byte) : Except String Response :=
  match asioRead 4 received with
  | none => .error eof
  | some (msgSize, received) =>
    match asioRead (load E 32 msgSize).toNat received with
    | none => .error eof
    | some (data, _) => deserialize data

structure Printed where
  text : String
  exitCode : I32
  deriving DecidableEq, Repr

def printResponse : Except String Response → Printed
  | .ok resp => ⟨"Response:\n" ++ resp.message ++ "\n", 0⟩
  | .error what => ⟨"Daemon command failed: " ++ what ++ "\n", 1⟩

/-- `send_command`, by what the daemon has sent back, or what was thrown before. -/
def sendCommand (received : Except String (List Byte)) : Printed :=
  printResponse (received.bind (readResponse E deserialize eof))

/-! ### The commands alone -/

/-- One after another. -/
def executeAll : List (List (List Byte)) → σ → List Outcome × σ
  | [], s => ([], s)
  | argv :: argvs, s =>
    let (outcome, s) := execute argv s
    let (outcomes, s) := executeAll argvs s
    (outcome :: outcomes, s)

/-- A client reads the end of the stream where no response is written. -/
def printOutcome : Outcome → Printed
  | .responded r => printResponse (.ok r)
  | .failed | .lost => printResponse (.error eof)

/-- What can come to the daemon, if all connections are those of clients. -/
inductive Arrival
  | client (argv : List (List Byte))
  | acceptFailed
  | signalled
  deriving DecidableEq, Repr

def Arrival.event : Arrival → Event
  | .client argv => .accepted (request E argv)
  | .acceptFailed => .acceptFailed
  | .signalled => .signalled

def Arrival.argv : Arrival → Option (List (List Byte))
  | .client argv => some argv
  | .acceptFailed | .signalled => none

/-- The arguments are C strings, and the request is not longer than its size can tell. -/
def Sendable (argv : List (List Byte)) : Prop := (∀ arg ∈ argv, 0 ∉ arg) ∧ (serialisation E argv).length < 2 ^ 32

/-- What Boost writes it can read, and the size is told right. -/
def Readable (r : Response) : Prop := deserialize (serialize r) = .ok r ∧ (serialize r).length < 2 ^ 32

variable {E overflow serialize deserialize eof execute}

/-! ### One client -/

theorem readResponse_frame {text : List Byte} (hlen : text.length < 2 ^ 32) :
    readResponse E deserialize eof (frame E text) = deserialize text := by
  have hsize := asioRead_append (store E (BitVec.ofNat 32 text.length)) text
  rw [length_store] at hsize
  have hload : (load E 32 (store E (BitVec.ofNat 32 text.length))).toNat = text.length := by
    rw [load_store (by decide), BitVec.toNat_ofNat, Nat.mod_eq_of_lt hlen]
  have htext := asioRead_append text []
  rw [List.append_nil] at htext
  unfold readResponse
  rw [frame, hsize]
  dsimp only
  rw [hload, htext]

/-- What `handle_accept` writes, and how it ends. -/
def answer (E : Order) (serialize : Response → List Byte) : Outcome → List Byte
  | .responded r => frame E (serialize r)
  | .failed | .lost => []

def exit : Outcome → Exit
  | .responded _ | .failed => .returned
  | .lost => .lost

theorem sendCommand_answer : ∀ {outcome : Outcome}, (∀ r, outcome = .responded r → Readable serialize deserialize r) →
    sendCommand E deserialize eof (.ok (answer E serialize outcome)) = printOutcome eof outcome
  | .responded r, h => by
    obtain ⟨hround, hlen⟩ := h r rfl
    have hread : readResponse E deserialize eof (frame E (serialize r)) = .ok r :=
      (readResponse_frame hlen).trans hround
    exact congrArg printResponse hread
  | .failed, _ => rfl
  | .lost, _ => rfl

/-- The daemon executes what the client was called with. -/
theorem handleConnection_request {argv : List (List Byte)} (h : Sendable E argv) (s : σ) :
    handleConnection E overflow serialize execute (request E argv) s =
      (exit (execute argv s).1, answer E serialize (execute argv s).1, (execute argv s).2) := by
  obtain ⟨hnul, hlen⟩ := h
  obtain ⟨args, hargs, hholds⟩ := deserializeArgv_serialisation overflow hlen (List.prefix_refl _)
  have hstrings : argv.map cString = argv :=
    (List.map_congr_left fun arg harg => cString_eq (hnul arg harg)).trans (List.map_id' argv)
  have hframe : request E argv = frame E (serialisation E argv) ++ [] := by
    rw [List.append_nil, request, serializeArgv_eq hnul hlen]
  rw [hframe, handleConnection_frame hlen, handlePayload, hargs]
  dsimp only
  rw [argvStrings_holds hholds, hstrings]
  dsimp only
  obtain ⟨outcome, s'⟩ := execute argv s
  cases outcome <;> rfl

/-- Only a daemon that runs does something. -/
theorem running_of_step {s t : Server σ} {e : Event} (h : Service.step E overflow serialize execute s e = some t) :
    s.running = true := by
  by_contra hended
  have hfalse : s.running = false := Bool.eq_false_iff.mpr hended
  cases e <;> simp [Service.step, hfalse] at h

theorem step_client {s t : Server σ} {argv : List (List Byte)} (hargv : Sendable E argv)
    (h : Service.step E overflow serialize execute s ((Arrival.client argv).event E) = some t) :
    t.service = (execute argv s.service).2 ∧
      t.handled = s.handled ++ [⟨request E argv, answer E serialize (execute argv s.service).1⟩] ∧
      (t.running = true ↔ (execute argv s.service).1 ≠ .lost) := by
  have hrunning := running_of_step h
  rw [Arrival.event, Service.step, handleConnection_request hargv] at h
  generalize execute argv s.service = result at h ⊢
  obtain ⟨outcome, service⟩ := result
  split at h
  · cases outcome with
    | responded r =>
      obtain rfl := Option.some.inj h
      exact ⟨rfl, rfl, iff_of_true hrunning (by simp)⟩
    | failed =>
      obtain rfl := Option.some.inj h
      exact ⟨rfl, rfl, iff_of_true hrunning (by simp)⟩
    | lost =>
      obtain rfl := Option.some.inj h
      exact ⟨rfl, rfl, iff_of_false Bool.false_ne_true (fun h => h rfl)⟩
  · cases h

theorem step_rest {s t : Server σ} {a : Arrival} (ha : a.argv = none)
    (h : Service.step E overflow serialize execute s (a.event E) = some t) :
    t.service = s.service ∧ t.handled = s.handled ∧ t.running = true := by
  have hrunning := running_of_step h
  cases a with
  | client argv => cases ha
  | acceptFailed =>
    rw [Arrival.event, Service.step] at h
    split at h
    · obtain rfl := Option.some.inj h
      exact ⟨rfl, rfl, hrunning⟩
    · cases h
  | signalled =>
    rw [Arrival.event, Service.step] at h
    split at h
    · obtain rfl := Option.some.inj h
      exact ⟨rfl, rfl, hrunning⟩
    · cases h

/-! ### Every run -/

/-- What a run adds to the daemon, by the commands alone. -/
structure Serves (E : Order) (deserialize : List Byte → Except String Response) (eof : String)
    (outcomes : List Outcome) (service : σ) (s t : Server σ) : Prop where
  service : t.service = service
  printed : ∃ handled, t.handled = s.handled ++ handled ∧
    handled.map (fun c => sendCommand E deserialize eof (.ok c.received)) = outcomes.map (printOutcome eof)
  running : t.running = true ↔ .lost ∉ outcomes

/-- What comes first is served first. -/
theorem Serves.cons {outcome : Outcome} {outcomes : List Outcome} {service : σ} {s u t : Server σ} {c : Connection}
    (hlost : outcome ≠ .lost) (hc : sendCommand E deserialize eof (.ok c.received) = printOutcome eof outcome)
    (hu : u.handled = s.handled ++ [c]) (h : Serves E deserialize eof outcomes service u t) :
    Serves E deserialize eof (outcome :: outcomes) service s t := by
  obtain ⟨handled, hhandled, hprinted⟩ := h.printed
  refine ⟨h.service, ⟨c :: handled, ?_, ?_⟩, ?_⟩
  · rw [hhandled, hu, List.append_assoc]
    rfl
  · rw [List.map_cons, List.map_cons, hc, hprinted]
  · rw [h.running, List.mem_cons, not_or]
    exact (and_iff_right hlost.symm).symm

theorem nil_of_ended {s t : Server σ} {events : List Event} (hended : s.running = false)
    (h : follow (Service.step E overflow serialize execute) s events = some t) : events = [] ∧ t = s := by
  cases events with
  | nil => exact ⟨rfl, (Option.some.inj h).symm⟩
  | cons e events =>
    obtain ⟨u, hu, -⟩ := Option.bind_eq_some_iff.mp h
    have hrunning := running_of_step hu
    rw [hended] at hrunning
    cases hrunning

theorem serves_run : ∀ (arrivals : List Arrival) {s t : Server σ}, s.running = true →
    (∀ argv ∈ arrivals.filterMap Arrival.argv, Sendable E argv) →
    (∀ r, .responded r ∈ (executeAll execute (arrivals.filterMap Arrival.argv) s.service).1 →
      Readable serialize deserialize r) →
    follow (Service.step E overflow serialize execute) s (arrivals.map (Arrival.event E)) = some t →
    Serves E deserialize eof (executeAll execute (arrivals.filterMap Arrival.argv) s.service).1
      (executeAll execute (arrivals.filterMap Arrival.argv) s.service).2 s t
  | [], s, t, hrunning, _, _, h => by
    obtain rfl := Option.some.inj h
    exact ⟨rfl, ⟨[], (List.append_nil _).symm, rfl⟩, iff_of_true hrunning List.not_mem_nil⟩
  | a :: arrivals, s, t, hrunning, hargv, hread, h => by
    obtain ⟨u, hu, ht⟩ := Option.bind_eq_some_iff.mp h
    cases ha : a.argv with
    | none =>
      obtain ⟨hservice, hhandled, hstill⟩ := step_rest ha hu
      rw [List.filterMap_cons_none ha] at hargv hread ⊢
      rw [← hservice] at hread ⊢
      obtain ⟨hend, hprinted, hends⟩ := serves_run arrivals hstill hargv hread ht
      exact ⟨hend, hhandled ▸ hprinted, hends⟩
    | some argv =>
      obtain rfl : a = .client argv := by
        cases a <;> cases ha
        rfl
      obtain ⟨hservice, hhandled, hends⟩ := step_client (hargv argv List.mem_cons_self) hu
      rw [List.filterMap_cons_some ha] at hargv hread ⊢
      have hfirst : ∀ r, (execute argv s.service).1 = .responded r → Readable serialize deserialize r := fun r hr =>
        hread r (hr ▸ List.mem_cons_self)
      have hprinted : sendCommand E deserialize eof (.ok (answer E serialize (execute argv s.service).1)) =
          printOutcome eof (execute argv s.service).1 := sendCommand_answer hfirst
      by_cases hlost : (execute argv s.service).1 = .lost
      · -- nothing can come after it
        have hended : u.running = false := Bool.eq_false_iff.mpr fun hrunning => hends.mp hrunning hlost
        obtain ⟨hnil, rfl⟩ := nil_of_ended hended ht
        obtain rfl := List.map_eq_nil_iff.mp hnil
        refine ⟨hservice, ⟨_, hhandled, congrArg (fun p => [p]) hprinted⟩, iff_of_false (fun h => hends.mp h hlost) ?_⟩
        exact fun hnot => hnot (hlost ▸ List.mem_cons_self)
      · have hrest : Serves E deserialize eof (executeAll execute (arrivals.filterMap Arrival.argv) u.service).1
            (executeAll execute (arrivals.filterMap Arrival.argv) u.service).2 u t := by
          refine serves_run arrivals (hends.mpr hlost) (fun argv h => hargv argv (List.mem_cons_of_mem _ h)) ?_ ht
          exact fun r hr => hread r (List.mem_cons_of_mem _ (hservice ▸ hr))
        rw [hservice] at hrest
        exact hrest.cons hlost hprinted hhandled

/-- **The clients of the daemon** see its commands called one after another: each
prints the response to its own, and is told by its exit code if there was one.
The daemon is left as the commands leave it, and runs unless one was lost. -/
theorem clients_run {service : σ} {arrivals : List Arrival} {t : Server σ}
    (hargv : ∀ argv ∈ arrivals.filterMap Arrival.argv, Sendable E argv)
    (hread : ∀ r, .responded r ∈ (executeAll execute (arrivals.filterMap Arrival.argv) service).1 →
      Readable serialize deserialize r)
    (h : follow (Service.step E overflow serialize execute) (.init service) (arrivals.map (Arrival.event E)) = some t) :
    t.service = (executeAll execute (arrivals.filterMap Arrival.argv) service).2 ∧
      t.handled.map (fun c => sendCommand E deserialize eof (.ok c.received)) =
        (executeAll execute (arrivals.filterMap Arrival.argv) service).1.map (printOutcome eof) ∧
      (t.running = true ↔ .lost ∉ (executeAll execute (arrivals.filterMap Arrival.argv) service).1) := by
  obtain ⟨hservice, ⟨handled, hhandled, hprinted⟩, hrunning⟩ := serves_run arrivals rfl hargv hread h
  obtain rfl : t.handled = handled := hhandled
  exact ⟨hservice, hprinted, hrunning⟩

/-! ### A run -/

/-- An archive for what succeeds with a text in ASCII. -/
def archive (r : Response) : List Byte := r.message.toList.map fun c => BitVec.ofNat 8 c.toNat

def unarchive (data : List Byte) : Except String Response :=
  .ok (.success (String.ofList (data.map fun b => Char.ofNat b.toNat)))

/-- Two clients ask for help, and the daemon is told to stop between them. -/
def askTwice : List Arrival := [.client helpArgs, .signalled, .client helpArgs]

theorem clients_help : ∃ t, follow (Service.step .little 0 archive plugHelp) (.init (.init Unit))
      (askTwice.map (Arrival.event .little)) = some t ∧
    t.handled.map (fun c => sendCommand .little unarchive "read: End of file" (.ok c.received)) =
      [⟨"Response:\n\n", 0⟩, ⟨"Response:\n\n", 0⟩] := by
  have hargv : ∀ argv ∈ askTwice.filterMap Arrival.argv, Sendable .little argv := by
    have hboth : askTwice.filterMap Arrival.argv = [helpArgs, helpArgs] := rfl
    have hhelp : Sendable .little helpArgs := ⟨by decide, by decide⟩
    simpa [hboth] using hhelp
  have hread : ∀ r, .responded r ∈ (executeAll plugHelp (askTwice.filterMap Arrival.argv) (.init Unit)).1 →
      Readable archive unarchive r := by
    intro r hr
    have hboth : (executeAll plugHelp (askTwice.filterMap Arrival.argv) (.init Unit)).1 =
        [.responded ⟨"", none⟩, .responded ⟨"", none⟩] := rfl
    obtain rfl : r = ⟨"", none⟩ := by simpa [hboth] using hr
    exact ⟨rfl, by decide⟩
  obtain ⟨t, ht⟩ : ∃ t, follow (Service.step .little 0 archive plugHelp) (.init (.init Unit))
      (askTwice.map (Arrival.event .little)) = some t := ⟨_, rfl⟩
  exact ⟨t, ht, (clients_run hargv hread ht).2.1⟩

end Client
end Viu
