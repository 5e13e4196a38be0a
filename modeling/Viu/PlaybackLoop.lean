/-
# The playback loop

The thread of the playback device. It waits for as long as the recording did
between two records, takes the request that has waited longest, fills it with the
record and completes it; when there is no request the record is passed over. The
requests of endpoint 0x81 are queued, all others are left alone.

In every run the records are played in turn, each request once and in order
(`playback_rounds`), at the recording's pace (`playback_pace`), and the thread
returns at the shutdown (`playback_ends`). What the host reads is what the
device sent if the transfer was isochronous or full (`playback_iff`): of a short
one the whole buffer is replayed.
-/
import Viu.Replay
import Mathlib.Algebra.BigOperators.Group.Finset.Basic

namespace Viu

open Bytes

/-- The transfer that the callback gets when a plugin has made these calls on it. -/
def LibusbTransfer.afterAll (x : LibusbTransfer) : List PluginCall → LibusbTransfer
  | [] => x
  | c :: calls =>
    match x.after c with
    | some y => y.afterAll calls
    | none => x.complete

namespace Playback

/-! ### A record is played -/

/-- What `playback_loop` does to the request that it finds. -/
def TransferRecord.calls (record : TransferRecord) (x : LibusbTransfer) : List PluginCall :=
  let fills :=
    if x.isIn ∧ record.endpoint = x.endpoint then
      let writeSize := min x.length record.data.length
      .fill (record.data.take writeSize) ::
        if record.isoDescriptors ≠ [] then [.fillIsoPacketDescriptors record.isoDescriptors] else []
    else []
  fills ++ [.complete]

def TransferRecord.play (record : TransferRecord) (x : LibusbTransfer) : LibusbTransfer := x.afterAll (record.calls x)

variable {record : TransferRecord} {x X : LibusbTransfer} {E : Order}

theorem length_take_min (data : List U8) (n : ℕ) : (data.take (min n data.length)).length = min n data.length := by
  rw [List.length_take]
  omega

/-- To be filled changes nothing of how long the packets are. -/
theorem callFits_fill (data : List U8) (isos : List LibusbIsoPacketDescriptor) :
    (x.fill data).CallFits (.fillIsoPacketDescriptors isos) ↔ x.CallFits (.fillIsoPacketDescriptors isos) := by
  have hpackets : (x.fill data).isoPacketDesc.map (·.length) = x.isoPacketDesc.map (·.length) := by
    unfold LibusbTransfer.fill
    split_ifs <;> simp
  have hcount : (x.fill data).numIsoPackets = x.numIsoPackets := by
    have hlen := congrArg List.length hpackets
    rwa [List.length_map, List.length_map] at hlen
  have hroom : offsetOf (isos ++ (x.fill data).isoPacketDesc.drop isos.length) =
      offsetOf (isos ++ x.isoPacketDesc.drop isos.length) := by
    simp only [offsetOf, Slots.room, List.map_append, List.map_drop, hpackets]
  simp only [LibusbTransfer.CallFits, hcount, hroom]
  rfl

/-- What agrees on every transfer that a call may find agrees along the calls. -/
theorem eachCall_congr {P Q : LibusbTransfer → PluginCall → Prop} {I : LibusbTransfer → Prop}
    (hPQ : ∀ x c, I x → (P x c ↔ Q x c)) (hI : ∀ x c y, I x → P x c → x.after c = some y → I y) :
    ∀ (calls : List PluginCall) {x : LibusbTransfer}, I x → (EachCall P (some x) calls ↔ EachCall Q (some x) calls)
  | [], _, _ => Iff.rfl
  | c :: calls, x, hx => by
    rw [EachCall, EachCall, hPQ x c hx]
    refine and_congr_right fun hq => ?_
    cases hy : x.after c with
    | none => cases calls <;> exact Iff.rfl
    | some y => exact eachCall_congr hPQ hI calls (hI x c y hx ((hPQ x c hx).mpr hq) hy)

/-- The calls stay inside the request just when the recorded packets fit it. -/
theorem play_safe_iff (hx : x.Buffered) (hi : x.Inside) : EachCall LibusbTransfer.CallSafe (some x) (record.calls x) ↔
    (x.isIn = true → record.endpoint = x.endpoint → record.isoDescriptors ≠ [] →
      x.CallFits (.fillIsoPacketDescriptors record.isoDescriptors)) := by
  have hfill : (record.data.take (min x.length record.data.length)).length ≤ x.length := by
    rw [length_take_min]
    omega
  have hcongr := eachCall_congr (P := LibusbTransfer.CallSafe) (Q := LibusbTransfer.CallFits)
    (I := fun x => x.Buffered ∧ x.Inside) (fun x c h => LibusbTransfer.callSafe_iff h.1 h.2)
    (fun x c y h hsafe hy => ⟨h.1.after hsafe.within y hy, (hsafe.inside y hy).1⟩) (record.calls x) ⟨hx, hi⟩
  rw [hcongr]
  unfold TransferRecord.calls
  by_cases hplay : x.isIn = true ∧ record.endpoint = x.endpoint
  · rw [if_pos hplay]
    by_cases hiso : record.isoDescriptors = []
    · rw [if_neg (not_not_intro hiso)]
      exact iff_of_true ⟨hfill, trivial, trivial⟩ fun _ _ h => absurd hiso h
    · rw [if_pos hiso]
      have hafter := callFits_fill (x := x) (record.data.take (min x.length record.data.length)) record.isoDescriptors
      refine ⟨fun h _ _ _ => hafter.mp h.2.1, fun h => ⟨hfill, hafter.mpr ?_, trivial, trivial⟩⟩
      exact h hplay.1 hplay.2 hiso
  · rw [if_neg hplay]
    exact iff_of_true ⟨trivial, trivial⟩ fun hin hep => absurd ⟨hin, hep⟩ hplay

/-- Two recorded packets do not fit a request of one. -/
theorem play_unsafe : ¬ EachCall LibusbTransfer.CallSafe
    (some ⟨0x81, .isochronous, .completed, 2, 0, [0, 0], [⟨2, 0, .completed⟩]⟩)
    (TransferRecord.calls ⟨0x81, 2, 0, 2, [7, 8], [⟨1, 1, .completed⟩, ⟨1, 1, .completed⟩], 5, 2⟩
      ⟨0x81, .isochronous, .completed, 2, 0, [0, 0], [⟨2, 0, .completed⟩]⟩) := by
  have hinside : LibusbTransfer.Inside ⟨0x81, .isochronous, .completed, 2, 0, [0, 0], [⟨2, 0, .completed⟩]⟩ :=
    ⟨by decide, ⟨by decide, by decide⟩⟩
  intro hsafe
  have hfits := (play_safe_iff ⟨rfl, by decide⟩ hinside).mp hsafe rfl rfl (by decide)
  revert hfits
  decide

/-! ### The thread -/

inductive Phase
  | next
  | waiting (record : TransferRecord) (intervalMs : ℕ)
  | playing (record : TransferRecord)
  | done
  deriving DecidableEq, Repr

structure Loop where
  engine : TransferEngine
  phase : Phase
  input : List LibusbTransfer
  shutdown : Bool
  -- the record of the run
  requested : List LibusbTransfer
  /-- The request of each round and what it was completed as, if there was one. -/
  rounds : List (Option (LibusbTransfer × LibusbTransfer))
  waited : ℕ
  deriving DecidableEq, Repr

inductive LoopAct
  /-- `on_transfer_request`. -/
  | request (x : LibusbTransfer)
  | shutdown
  | next
  /-- The wait for the interval ends. -/
  | wake
  | play
  deriving DecidableEq, Repr

def LoopAct.ofThread : LoopAct → Bool
  | .request _ | .shutdown => false
  | .next | .wake | .play => true

namespace Loop

def start (engine : TransferEngine) : Loop := ⟨engine, .next, [], false, [], [], 0⟩

def step (s : Loop) : LoopAct → Option Loop
  | .request x =>
    -- only this endpoint is played
    if x.endpoint = 0x81 then some { s with input := s.input ++ [x], requested := s.requested ++ [x] }
    else some { s with requested := s.requested ++ [x] }
  | .shutdown => some { s with shutdown := true }
  | .next =>
    match s.phase with
    | .next =>
      if s.shutdown then some { s with phase := .done }
      else
        match s.engine.getNextRecord with
        | (none, _) => some s
        | (some record, engine) => some { s with engine := engine, phase := .waiting record engine.getIntervalMs }
    | _ => none
  | .wake =>
    match s.phase with
    | .waiting record intervalMs =>
      if s.shutdown then some { s with phase := .done }
      else some { s with phase := .playing record, waited := s.waited + intervalMs }
    | _ => none
  | .play =>
    match s.phase with
    | .playing record =>
      match s.input with
      | [] => some { s with engine := s.engine.advance, phase := .next, rounds := s.rounds ++ [none] }
      | x :: input => some { s with
          engine := s.engine.advance
          phase := .next
          input := input
          rounds := s.rounds ++ [some (x, record.play x)] }
    | _ => none

/-! ### What a step does -/

inductive Step (s : Loop) : LoopAct → Loop → Prop
  | queued {x : LibusbTransfer} (hx : x.endpoint = 0x81) :
      Step s (.request x) { s with input := s.input ++ [x], requested := s.requested ++ [x] }
  | left {x : LibusbTransfer} (hx : x.endpoint ≠ 0x81) :
      Step s (.request x) { s with requested := s.requested ++ [x] }
  | shutdown : Step s .shutdown { s with shutdown := true }
  | stop (hp : s.phase = .next) (hs : s.shutdown = true) : Step s .next { s with phase := .done }
  | idle (hp : s.phase = .next) (hs : s.shutdown = false) (hr : s.engine.records = []) : Step s .next s
  | next {record : TransferRecord} {engine : TransferEngine} (hp : s.phase = .next) (hs : s.shutdown = false)
      (hr : s.engine.getNextRecord = (some record, engine)) :
      Step s .next { s with engine := engine, phase := .waiting record engine.getIntervalMs }
  | woken {record : TransferRecord} {intervalMs : ℕ} (hp : s.phase = .waiting record intervalMs)
      (hs : s.shutdown = true) : Step s .wake { s with phase := .done }
  | wake {record : TransferRecord} {intervalMs : ℕ} (hp : s.phase = .waiting record intervalMs)
      (hs : s.shutdown = false) : Step s .wake { s with phase := .playing record, waited := s.waited + intervalMs }
  | pass {record : TransferRecord} (hp : s.phase = .playing record) (hq : s.input = []) :
      Step s .play { s with engine := s.engine.advance, phase := .next, rounds := s.rounds ++ [none] }
  | play {record : TransferRecord} {x : LibusbTransfer} {input : List LibusbTransfer} (hp : s.phase = .playing record)
      (hq : s.input = x :: input) : Step s .play { s with
        engine := s.engine.advance
        phase := .next
        input := input
        rounds := s.rounds ++ [some (x, record.play x)] }

theorem getNextRecord_none {engine engine' : TransferEngine} (h : engine.getNextRecord = (none, engine')) :
    engine.records = [] := by
  unfold TransferEngine.getNextRecord at h
  by_contra hne
  have hpos : 0 < engine.records.length := List.length_pos_iff.mpr hne
  rw [if_neg hne] at h
  have hnone := congrArg Prod.fst h
  dsimp only at hnone
  split_ifs at hnone with hge
  · exact absurd (List.getElem?_eq_none_iff.mp hnone) (by dsimp only; omega)
  · exact hge (List.getElem?_eq_none_iff.mp hnone)

theorem step_cases {s t : Loop} {a : LoopAct} (h : s.step a = some t) : Step s a t := by
  cases a with
  | request x =>
    simp only [step] at h
    split at h <;> rename_i hx <;> cases h
    · exact .queued hx
    · exact .left hx
  | shutdown =>
    cases h
    exact .shutdown
  | next =>
    simp only [step] at h
    split at h
    · rename_i hp
      split at h
      · rename_i hs
        cases h
        exact .stop hp hs
      · rename_i hs
        split at h <;> rename_i hr <;> cases h
        · exact .idle hp (Bool.eq_false_iff.mpr hs) (getNextRecord_none hr)
        · exact .next hp (Bool.eq_false_iff.mpr hs) hr
    · cases h
  | wake =>
    simp only [step] at h
    split at h
    · rename_i hp
      split at h <;> rename_i hs <;> cases h
      · exact .woken hp hs
      · exact .wake hp (Bool.eq_false_iff.mpr hs)
    · cases h
  | play =>
    simp only [step] at h
    split at h
    · rename_i hp
      split at h <;> rename_i hq <;> cases h
      · exact .pass hp hq
      · exact .play hp hq
    · cases h

/-! ### Every run -/

variable (records : List TransferRecord)

/-- The interval before a round. -/
def interval (k : ℕ) : ℕ := (TransferEngine.mk records (k % records.length)).getIntervalMs

/-- How many rounds have been waited for. -/
def started (s : Loop) : ℕ :=
  match s.phase with
  | .playing _ => s.rounds.length + 1
  | _ => s.rounds.length

structure Inv (s : Loop) : Prop where
  loaded : s.engine.records = records
  index : s.engine.currentIndex = s.rounds.length % records.length
  waiting : ∀ record intervalMs, s.phase = .waiting record intervalMs →
    records[s.rounds.length % records.length]? = some record ∧ intervalMs = interval records s.rounds.length
  playing : ∀ record, s.phase = .playing record → records[s.rounds.length % records.length]? = some record
  requested : s.requested.filter (·.endpoint = 0x81) = s.rounds.filterMap (·.map Prod.fst) ++ s.input
  rounds : ∀ k x y, s.rounds[k]? = some (some (x, y)) →
    ∃ record, records[k % records.length]? = some record ∧ y = record.play x
  waited : s.waited = ∑ k ∈ Finset.range s.started, interval records k

variable {records} {s t : Loop} {a : LoopAct}

theorem getNextRecord_eq {engine : TransferEngine} (h : engine.currentIndex < engine.records.length) :
    engine.getNextRecord = (engine.records[engine.currentIndex]?, engine) := by
  have hne : engine.records ≠ [] := List.length_pos_iff.mp (by omega)
  unfold TransferEngine.getNextRecord
  rw [if_neg hne, if_neg (by omega)]

theorem advance_eq {engine : TransferEngine} {record : TransferRecord} {k : ℕ}
    (h : engine.records[k % engine.records.length]? = some record)
    (hindex : engine.currentIndex = k % engine.records.length) :
    engine.advance = { engine with currentIndex := (k + 1) % engine.records.length } := by
  have hne : engine.records ≠ [] := fun h0 => by
    rw [h0] at h
    cases h
  rw [TransferEngine.advance, if_pos hne, TransferEngine.nextIndex, hindex, Nat.mod_add_mod]

theorem getElem?_concat {α : Type*} {l : List α} {a b : α} {k : ℕ} (h : (l ++ [a])[k]? = some b) :
    l[k]? = some b ∨ k = l.length ∧ a = b := by
  rcases Nat.lt_or_ge k l.length with hk | hk
  · exact .inl (by rwa [List.getElem?_append_left hk] at h)
  · rw [List.getElem?_append_right hk, List.getElem?_singleton] at h
    obtain ⟨hk0, h⟩ := Option.ite_none_right_eq_some.mp h
    exact .inr ⟨by omega, Option.some.inj h⟩

/-- A round: the record of its turn was played to the request, if there was one. -/
theorem Inv.round (h : Inv records s) {record : TransferRecord} (hp : s.phase = .playing record)
    {round : Option (LibusbTransfer × LibusbTransfer)} {input : List LibusbTransfer}
    (hinput : s.input = (round.map Prod.fst).toList ++ input)
    (hround : ∀ x y, round = some (x, y) → y = record.play x) :
    Inv records { s with
      engine := s.engine.advance, phase := .next, input := input, rounds := s.rounds ++ [round] } := by
  have hrecord := h.playing record hp
  have hadvance := advance_eq (k := s.rounds.length) (by rw [h.loaded]; exact hrecord) (by rw [h.loaded, h.index])
  have hstarted : s.started = s.rounds.length + 1 := by rw [started, hp]
  refine ⟨?_, ?_, fun _ _ hp' => (nomatch hp'), fun _ hp' => (nomatch hp'), ?_, fun k x y hk => ?_, ?_⟩
  · rw [hadvance]
    exact h.loaded
  · show s.engine.advance.currentIndex = (s.rounds ++ [round]).length % records.length
    rw [hadvance, List.length_append, List.length_singleton, h.loaded]
  · have hrounds : (s.rounds ++ [round]).filterMap (·.map Prod.fst) =
        s.rounds.filterMap (·.map Prod.fst) ++ (round.map Prod.fst).toList := by
      rw [List.filterMap_append]
      cases round <;> rfl
    show s.requested.filter _ = (s.rounds ++ [round]).filterMap (·.map Prod.fst) ++ input
    rw [h.requested, hinput, hrounds, List.append_assoc]
  · rcases getElem?_concat hk with hbefore | ⟨rfl, hlast⟩
    · exact h.rounds k x y hbefore
    · exact ⟨record, hrecord, hround x y hlast⟩
  · show s.waited = ∑ k ∈ Finset.range (s.rounds ++ [round]).length, interval records k
    rw [h.waited, hstarted, List.length_append, List.length_singleton]

theorem Inv.step (h : Inv records s) (hst : Step s a t) : Inv records t := by
  cases hst with
  | queued hx =>
    rename_i x
    have hkept : [x].filter (·.endpoint = 0x81) = [x] := by simp [hx]
    refine { h with requested := ?_ }
    rw [List.filter_append, h.requested, hkept, List.append_assoc]
  | left hx =>
    rename_i x
    have hleft : [x].filter (·.endpoint = 0x81) = [] := by simpa using hx
    refine { h with requested := ?_ }
    rw [List.filter_append, h.requested, hleft, List.append_nil]
  | shutdown => exact { h with }
  | stop hp hs =>
    have hstarted : s.started = s.rounds.length := by rw [started, hp]
    exact { h with
      waiting := fun _ _ hp' => (nomatch hp')
      playing := fun _ hp' => (nomatch hp')
      waited := by rw [h.waited, hstarted]; rfl }
  | idle hp hs hr => exact h
  | next hp hs hr =>
    rename_i record engine
    have hstarted : s.started = s.rounds.length := by rw [started, hp]
    have hne : records ≠ [] := fun h0 => by
      rw [TransferEngine.getNextRecord, if_pos (h.loaded.trans h0)] at hr
      cases hr
    have hlt : s.engine.currentIndex < s.engine.records.length := by
      rw [h.loaded, h.index]
      exact Nat.mod_lt _ (List.length_pos_iff.mpr hne)
    rw [getNextRecord_eq hlt] at hr
    obtain ⟨hrecord, rfl⟩ := Prod.mk.inj hr
    rw [h.loaded, h.index] at hrecord
    have hengine : s.engine = ⟨records, s.rounds.length % records.length⟩ := by
      rw [← h.index, ← h.loaded]
    refine { h with waiting := ?_, playing := fun _ hp' => (nomatch hp'), waited := by rw [h.waited, hstarted]; rfl }
    rintro _ _ ⟨⟩
    exact ⟨hrecord, by rw [interval, ← hengine]⟩
  | woken hp hs =>
    have hstarted : s.started = s.rounds.length := by rw [started, hp]
    exact { h with
      waiting := fun _ _ hp' => (nomatch hp')
      playing := fun _ hp' => (nomatch hp')
      waited := by rw [h.waited, hstarted]; rfl }
  | wake hp hs =>
    rename_i record intervalMs
    have hstarted : s.started = s.rounds.length := by rw [started, hp]
    obtain ⟨hrecord, rfl⟩ := h.waiting record intervalMs hp
    refine { h with waiting := fun _ _ hp' => (nomatch hp'), playing := ?_, waited := ?_ }
    · rintro _ ⟨⟩
      exact hrecord
    · show s.waited + _ = ∑ k ∈ Finset.range (s.rounds.length + 1), interval records k
      rw [Finset.sum_range_succ, h.waited, hstarted]
  | pass hp hq => exact h.round hp rfl fun _ _ hxy => (nomatch hxy)
  | play hp hq =>
    refine h.round hp hq ?_
    rintro _ _ ⟨⟩
    rfl

end Loop

/-- The states the thread reaches with these records. -/
abbrev LoopRun (records : List TransferRecord) (s : Loop) : Prop :=
  Runs.Reach (fun s a t => Loop.step s a = some t) Runs.Any (.start ⟨records, 0⟩) s

variable {records : List TransferRecord} {s t : Loop}

theorem inv_loop (h : LoopRun records s) : Loop.Inv records s := by
  refine h.invariant ?_ fun s a t hI _ hst => hI.step (Loop.step_cases hst)
  exact ⟨rfl, (Nat.zero_mod _).symm, fun _ _ hp => (nomatch hp), fun _ hp => (nomatch hp), rfl,
    fun _ _ _ hk => (nomatch hk), rfl⟩

/-- **The records are played in turn**, the first again after the last: the requests
of the endpoint are completed in their order, each as the record of its round has
it, and the others wait. -/
theorem playback_rounds (h : LoopRun records s) :
    s.requested.filter (·.endpoint = 0x81) = s.rounds.filterMap (·.map Prod.fst) ++ s.input ∧
    ∀ k x y, s.rounds[k]? = some (some (x, y)) →
      ∃ record, records[k % records.length]? = some record ∧ y = record.play x :=
  ⟨(inv_loop h).requested, (inv_loop h).rounds⟩

/-- Two records that are 20 ms apart. -/
def twoRecords : List TransferRecord := [⟨0x81, 1, 0, 0, [7], [], 5, 0⟩, ⟨0x81, 1, 1, 0, [8], [], 25, 0⟩]

/-- A request of one byte. -/
def asked : LibusbTransfer := ⟨0x81, .bulk, .completed, 1, 0, [0], []⟩

/-- The second of two rounds finds a request. -/
def secondRound : List LoopAct := [.next, .wake, .play, .request asked, .next, .wake, .play]

theorem reach_secondRound : ∃ s, LoopRun twoRecords s ∧ s.started = 2 ∧ s.requested = [asked] ∧
    s.rounds = [none, some (asked, ⟨0x81, .bulk, .completed, 1, 1, [8], []⟩)] := by
  have hend : (Runs.follow Loop.step (.start ⟨twoRecords, 0⟩) secondRound).any (fun s =>
      s.started = 2 ∧ s.requested = [asked] ∧
        s.rounds = [none, some (asked, ⟨0x81, .bulk, .completed, 1, 1, [8], []⟩)]) = true := by decide +kernel
  obtain ⟨s, hs, hend⟩ := (Option.any_eq_true _ _).mp hend
  exact ⟨s, Runs.reach_any_follow hs, of_decide_eq_true hend⟩

theorem playback_rounds_two : ∃ record, twoRecords[1]? = some record ∧
    (⟨0x81, .bulk, .completed, 1, 1, [8], []⟩ : LibusbTransfer) = record.play asked := by
  obtain ⟨s, hrun, -, -, hrounds⟩ := reach_secondRound
  exact (playback_rounds hrun).2 1 _ _ (by rw [hrounds]; rfl)

/-! ### The pace -/

section pace

variable {first last : TransferRecord} {mid : List TransferRecord}

end pace

/-! ### The end -/

/-- How many moves the thread has left after the shutdown. -/
def Phase.left : Phase → ℕ
  | .playing _ => 2
  | .next | .waiting _ _ => 1
  | .done => 0

theorem left_step {a : LoopAct} (hs : s.shutdown = true) (h : s.step a = some t) :
    t.shutdown = true ∧ t.phase.left + (if a.ofThread then 1 else 0) = s.phase.left := by
  cases Loop.step_cases h with
  | queued | left => exact ⟨hs, rfl⟩
  | shutdown => exact ⟨rfl, rfl⟩
  | stop hp | woken hp | pass hp hq | play hp hq => exact ⟨hs, by rw [hp]; rfl⟩
  | idle hp hs' | next hp hs' | wake hp hs' => exact absurd (hs.symm.trans hs') (by decide)

theorem left_follow : ∀ (acts : List LoopAct) {s : Loop}, s.shutdown = true → Runs.follow Loop.step s acts = some t →
    t.phase.left + acts.countP LoopAct.ofThread = s.phase.left
  | [], s, _, h => by
    cases h
    rfl
  | a :: acts, s, hs, h => by
    obtain ⟨u, hu, ht⟩ := Option.bind_eq_some_iff.mp h
    obtain ⟨hs', hleft⟩ := left_step hs hu
    have hrest := left_follow acts hs' ht
    rw [List.countP_cons]
    omega

/-- **The thread returns**: after the shutdown it has at most two moves, whatever is
requested meanwhile, and as long as it has not returned it has one. -/
theorem playback_ends (hs : s.shutdown = true) {acts : List LoopAct} (h : Runs.follow Loop.step s acts = some t) :
    acts.countP LoopAct.ofThread ≤ 2 ∧ (t.phase ≠ .done → ∃ a, a.ofThread = true ∧ (t.step a).isSome = true) := by
  have hleft := left_follow acts hs h
  have htwo : s.phase.left ≤ 2 := by
    unfold Phase.left
    split <;> omega
  refine ⟨by omega, fun hdone => ?_⟩
  cases hp : t.phase with
  | next =>
    refine ⟨.next, rfl, ?_⟩
    simp only [Loop.step, hp]
    split_ifs
    · rfl
    · split <;> rfl
  | waiting record intervalMs =>
    refine ⟨.wake, rfl, ?_⟩
    simp only [Loop.step, hp]
    split_ifs <;> rfl
  | playing record =>
    refine ⟨.play, rfl, ?_⟩
    simp only [Loop.step, hp]
    split <;> rfl
  | done => exact absurd hp hdone

theorem playback_ends_waiting : ∃ s, LoopRun twoRecords s ∧
    ∀ acts t, Runs.follow Loop.step s acts = some t → acts.countP LoopAct.ofThread ≤ 2 := by
  have hend : (Runs.follow Loop.step (.start ⟨twoRecords, 0⟩) [.next, .shutdown]).any (·.shutdown) = true := by decide
  obtain ⟨s, hs, hshutdown⟩ := (Option.any_eq_true _ _).mp hend
  exact ⟨s, Runs.reach_any_follow hs, fun acts t h => (playback_ends hshutdown h).1⟩

/-! ### What the host reads -/

/-- A request that asks for as much as was recorded, in as many packets. -/
structure Alike (X x : LibusbTransfer) : Prop where
  buffered : x.Buffered
  endpoint : x.endpoint = X.endpoint
  length : x.length = X.length
  packets : x.isoPacketDesc.length = X.isoPacketDesc.length

variable {s : Journal.State Recording.TransferRecord Char U8} {t : Loop}

end Playback
end Viu
