/-
# What is recorded is replayed

The files of a recorder are a journal, whatever the threads and the processes
do: the transfers that the playback device loads are those that the plugin
recorded, up to one for each time a process died (`recording_loads`), and for
control setups likewise. Every IN control setup is answered with the buffer of
the last time it was asked (`control_replay`), which is the device's answer when
it filled the buffer (`replay_iff`).
-/
import Viu.Playback

namespace Viu
namespace Playback

open Bytes Text Jsonl Recording

variable {E : Order}

/-! ### The journals -/

theorem not_mem_members {c : Char} (hquote : c ≠ '"') (hcolon : c ≠ ':') (hcomma : c ≠ ',') :
    ∀ ms : List (String × List Char), (∀ m ∈ ms, c ∉ m.1.toList ∧ c ∉ m.2) → c ∉ Jsonl.members ms
  | [], _ => List.not_mem_nil
  | [m], h => by
    obtain ⟨hname, htext⟩ := h m List.mem_cons_self
    simp [Jsonl.members, member, quoted, hquote, hcolon, hname, htext]
  | m :: m' :: ms, h => by
    obtain ⟨hname, htext⟩ := h m List.mem_cons_self
    have hrest := not_mem_members hquote hcolon hcomma (m' :: ms) fun x hx => h x (List.mem_cons_of_mem m hx)
    simp [Jsonl.members, member, quoted, hquote, hcolon, hcomma, hname, htext, hrest]

theorem not_mem_pad {c : Char} (hc : isHex c = false) {b : ℕ} (hb : 1 < b) (h16 : b ≤ 16) (w n : ℕ) :
    c ∉ Vhci.pad w (Nat.toDigits b n) := fun hmem => by
  have hhex : isHex c = true := decide_eq_true (Vhci.hex_of_mem_pad hb h16 c hmem)
  rw [hc] at hhex
  cases hhex

theorem not_mem_toDigits {c : Char} (hc : isHex c = false) (n : ℕ) : c ∉ Nat.toDigits 10 n := by
  have h := not_mem_pad hc (b := 10) (by omega) (by omega) 0 n
  rwa [Vhci.pad, Nat.zero_sub, List.replicate_zero, List.nil_append] at h

/-- The characters that end a line and an object are in no member. -/
theorem not_mem_transfer {c : Char} (hc : c = '\n' ∨ c = '\x7d') (record : Recording.TransferRecord)
    (payloadOffset isoOffset : ℕ) : c ∉ Jsonl.members (record.members payloadOffset isoOffset) := by
  have hhex : isHex c = false := by rcases hc with rfl | rfl <;> rfl
  have hdec : ∀ n, c ∉ Nat.toDigits 10 n := not_mem_toDigits hhex
  have hendpoint := not_mem_pad hhex (b := 16) (by omega) le_rfl 2 record.endpoint.toNat
  have hprint : c ∉ printInt record.timestampMs := by
    unfold printInt
    split
    · rcases hc with rfl | rfl <;> simp [hdec]
    · exact hdec _
  have hna : c ∉ quoted "NA" := by rcases hc with rfl | rfl <;> simp [quoted]
  have hoptional : ∀ n, c ∉ if record.isoDescriptors ≠ [] then Nat.toDigits 10 n else quoted "NA" := fun n => by
    split
    · exact hdec n
    · exact hna
  have hcount := hoptional record.isoDescriptors.length
  have hoffset := hoptional isoOffset
  rcases hc with rfl | rfl <;>
  · refine not_mem_members (by decide) (by decide) (by decide) _ ?_
    simp only [TransferRecord.members, List.forall_mem_cons]
    refine ⟨⟨by simp, hprint⟩, ⟨by simp, ?_⟩, ⟨by simp, hdec _⟩, ⟨by simp, hdec _⟩, ⟨by simp, hcount⟩,
      ⟨by simp, hoffset⟩, List.forall_mem_nil _⟩
    simp [hendpoint]

theorem not_mem_controlSetup {c : Char} (hc : c = '\n' ∨ c = '\x7d') (record : Recording.ControlSetupRecord)
    (payloadOffset : ℕ) : c ∉ Jsonl.members (record.members payloadOffset) := by
  have hhex : isHex c = false := by rcases hc with rfl | rfl <;> rfl
  have hdec : ∀ n, c ∉ Nat.toDigits 10 n := not_mem_toDigits hhex
  rcases hc with rfl | rfl <;>
  · refine not_mem_members (by decide) (by decide) (by decide) _ ?_
    simp only [ControlSetupRecord.members, List.forall_mem_cons]
    exact ⟨⟨by simp, hdec _⟩, ⟨by simp, hdec _⟩, ⟨by simp, hdec _⟩, List.forall_mem_nil _⟩

/-- The transfers' two files. -/
def transferJournal (E : Order) : Journal.Format Recording.TransferRecord Replayed Char U8 where
  newline := '\n'
  first := '\x7b'
  last := '\x7d'
  bytes := transferBytes E
  body record offset := Jsonl.members (record.members offset (offset + record.data.length))
  read payload line := (readTransfer E payload line).map TransferRecord.replayed
  value := toReplay
  ok := Recordable
  limit := 2 ^ 63

/-- The control setups' two files. -/
def controlSetupJournal : Journal.Format Recording.ControlSetupRecord (U64 × List U8) Char U8 where
  newline := '\n'
  first := '\x7b'
  last := '\x7d'
  bytes record := record.data
  body record offset := Jsonl.members (record.members offset)
  read payload line := (readControlSetup payload line).map ControlSetupRecord.replayed
  value record := (record.setup, record.data)
  ok record := record.data.length = record.dataSize.toNat
  limit := 2 ^ 63

theorem line_lawful {body : List Char} (hbody : ∀ c, c = '\n' ∨ c = '\x7d' → c ∉ body) :
    '\n' ∉ '\x7b' :: body ++ ['\x7d'] ∧ '\x7d' ∉ '\x7b' :: body := by
  have hnewline := hbody '\n' (.inl rfl)
  have hlast := hbody '\x7d' (.inr rfl)
  simp [hnewline, hlast]

theorem lawful_transferJournal : (transferJournal E).Lawful where
  newline_line record offset := (line_lawful fun _ hc => not_mem_transfer hc record _ _).1
  last_body record offset := (line_lawful fun _ hc => not_mem_transfer hc record _ _).2
  read_piece payload piece hpiece := by
    show (readTransfer E payload piece).map TransferRecord.replayed = none
    rw [readTransfer, parseTransfer, search_piece transferPattern hpiece]
    rfl
  read_line record before after piece more hrecord hlimit hpiece := by
    have h := readTransfer_behind more hrecord hpiece hlimit
    simpa [transferJournal, Journal.Format.line] using h

theorem lawful_controlSetupJournal : controlSetupJournal.Lawful where
  newline_line record offset := (line_lawful fun _ hc => not_mem_controlSetup hc record _).1
  last_body record offset := (line_lawful fun _ hc => not_mem_controlSetup hc record _).2
  read_piece payload piece hpiece := by
    show (readControlSetup payload piece).map ControlSetupRecord.replayed = none
    rw [readControlSetup, parseControlSetup, search_piece controlSetupPattern hpiece]
    rfl
  read_line record before after piece more hrecord hlimit hpiece := by
    have h := readControlSetup_behind more hrecord hpiece hlimit
    simpa [controlSetupJournal, Journal.Format.line] using h

theorem append_of_ne_nil (payload bytes : List U8) :
    (if bytes ≠ [] then payload ++ bytes else payload) = payload ++ bytes := by
  by_cases h : bytes = []
  · rw [if_neg (not_not_intro h), h, List.append_nil]
  · rw [if_pos h]

theorem writeTransfer_eq (payload : List U8) (record : Recording.TransferRecord) :
    writeTransfer E payload record =
      (payload ++ transferBytes E record, (transferJournal E).line record payload.length ++ ['\n']) := by
  have hdata := append_of_ne_nil payload record.data
  have hiso := append_of_ne_nil (payload ++ record.data) (record.isoDescriptors.flatMap (·.bytes E))
  have hnone : record.isoDescriptors.flatMap (·.bytes E) ≠ [] ↔ record.isoDescriptors ≠ [] := by
    rw [← List.length_pos_iff, ← List.length_pos_iff, length_flatMap_isoBytes]
    exact Nat.mul_pos_iff_of_pos_right (by decide)
  rw [if_congr hnone rfl rfl] at hiso
  dsimp only [writeTransfer]
  rw [hdata, hiso, List.append_assoc, List.length_append]
  simp [jsonLine, transferJournal, transferBytes, Journal.Format.line]

theorem writeControlSetup_eq (payload : List U8) (record : Recording.ControlSetupRecord) :
    writeControlSetup payload record =
      (payload ++ record.data, controlSetupJournal.line record payload.length ++ ['\n']) := by
  have hdata := append_of_ne_nil payload record.data
  dsimp only [writeControlSetup]
  rw [hdata]
  simp [jsonLine, controlSetupJournal, Journal.Format.line]

/-- The two moves of the writer with a record are the body of its loop. -/
theorem writer_moves {s : Journal.State Recording.TransferRecord Char U8} {record : Recording.TransferRecord}
    (h : s.writer = .holding record) :
    Runs.follow (Journal.step (transferJournal E)) s [.writeBytes, .writeLine] = some { s with
      files := ⟨(writeTransfer E s.files.bytes record).1, s.files.index ++ (writeTransfer E s.files.bytes record).2⟩
      writer := .waiting } := by
  simp only [Runs.follow, Journal.step, h, Option.bind_some, writeTransfer_eq]
  rfl

theorem writer_moves_controlSetup {s : Journal.State Recording.ControlSetupRecord Char U8}
    {record : Recording.ControlSetupRecord} (h : s.writer = .holding record) :
    Runs.follow (Journal.step controlSetupJournal) s [.writeBytes, .writeLine] = some { s with
      files := ⟨(writeControlSetup s.files.bytes record).1, s.files.index ++ (writeControlSetup s.files.bytes record).2⟩
      writer := .waiting } := by
  simp only [Runs.follow, Journal.step, h, Option.bind_some, writeControlSetup_eq]
  rfl

/-! ### Recording and loading -/

/-- A transfer as the plugin may see it, at a time that is not before the epoch. -/
structure Observable (xfer : LibusbTransfer) (now : U64) : Prop where
  buffered : xfer.Buffered
  stored : ∀ iso ∈ xfer.isoPacketDesc, iso.Stored
  now : 0 ≤ now.toInt

/-- What is recorded of a transfer: its endpoint and its whole buffer. -/
theorem onTransferComplete_some {xfer : LibusbTransfer} {now : U64} {record : Recording.TransferRecord}
    (hx : xfer.Buffered) (h : Recording.onTransferComplete xfer now = some record) :
    record = ⟨xfer.endpoint, BitVec.ofNat 32 xfer.length, xfer.buffer, xfer.isoPacketDesc, now⟩ := by
  have hlt := hx.length_lt
  unfold Recording.onTransferComplete at h
  obtain ⟨-, h⟩ := Option.ite_none_right_eq_some.mp h
  obtain ⟨hpos, h⟩ := Option.ite_none_right_eq_some.mp h
  have hnat : (BitVec.ofNat 32 xfer.length).toNat = xfer.length := by
    rw [BitVec.toNat_ofNat, Nat.mod_eq_of_lt (by omega)]
  have hcopied : xfer.copied (.read (BitVec.ofNat 32 xfer.length)) = xfer.buffer := by
    have hne : BitVec.ofNat 32 xfer.length ≠ 0 := fun h0 => by
      rw [h0] at hnat
      exact absurd hnat.symm hpos.ne'
    have hread := LibusbTransfer.toNat_readSize hx (BitVec.ofNat 32 xfer.length)
    rw [if_neg hne, hnat, if_pos hlt, Nat.min_self] at hread
    show xfer.buffer.take _ = _
    rw [hread, ← hx.length_eq, List.take_length]
  have hiso : (if xfer.isIso then xfer.isoPacketDesc else []) = xfer.isoPacketDesc := by
    split_ifs with hiso
    · rfl
    · simp only [LibusbTransfer.isIso, LibusbTransfer.numIsoPackets, ne_eq, decide_not, Bool.not_eq_true',
        Bool.not_eq_false, decide_eq_true_eq, List.length_eq_zero_iff] at hiso
      exact hiso.symm
  obtain rfl := Option.some.inj h
  rw [hcopied, hiso, ← hx.length_eq, resize_length]

theorem recordable_of_observable {xfer : LibusbTransfer} {now : U64} {record : Recording.TransferRecord}
    (hx : Observable xfer now) (h : Recording.onTransferComplete xfer now = some record) : Recordable record := by
  have hlt := hx.buffered.length_lt
  obtain rfl := onTransferComplete_some hx.buffered h
  refine ⟨?_, hx.stored, ?_⟩
  · show xfer.buffer.length = (BitVec.ofNat 32 xfer.length).toNat
    rw [BitVec.toNat_ofNat, Nat.mod_eq_of_lt (by omega), hx.buffered.length_eq]
  · exact Int.tdiv_nonneg hx.now (by decide)

theorem filterMap_lines {V : Type} (read : List Char → Option V) (hnil : read [] = none) (text : List Char) :
    (lines text).filterMap read = (text.splitOn '\n').filterMap read := by
  rw [lines, List.filterMap_filter]
  refine List.filterMap_congr fun l _ => ?_
  by_cases hl : l = []
  · rw [hl, hnil]
    rfl
  · rw [if_pos (by simpa using hl)]

theorem load_transferJournal (files : Journal.Files Char U8) : (transferJournal E).load files =
    (loadTransfers E (some files.index) (some files.bytes)).map TransferRecord.replayed := by
  have hnil : readTransfer E files.bytes [] = none := rfl
  show (files.index.splitOn '\n').filterMap _ =
    List.map _ ((lines files.index).filterMap (readTransfer E files.bytes))
  rw [filterMap_lines _ hnil, List.map_filterMap]
  rfl

theorem load_controlSetupJournal (files : Journal.Files Char U8) : controlSetupJournal.load files =
    (loadControlSetups (some files.index) (some files.bytes)).map ControlSetupRecord.replayed := by
  have hnil : readControlSetup files.bytes [] = none := rfl
  show (files.index.splitOn '\n').filterMap _ =
    List.map _ ((lines files.index).filterMap (readControlSetup files.bytes))
  rw [filterMap_lines _ hnil, List.map_filterMap]
  rfl

/-- The records are made of completed transfers. -/
def OfTransfers (_ : Journal.State Recording.TransferRecord Char U8) (a : Journal.Act Recording.TransferRecord) :
    Prop :=
  ∀ record, a = .record record →
    ∃ xfer now, Observable xfer now ∧ Recording.onTransferComplete xfer now = some record

abbrev TransferRun (E : Order) (s : Journal.State Recording.TransferRecord Char U8) : Prop :=
  Runs.Reach (fun s a t => Journal.step (transferJournal E) s a = some t) OfTransfers .init s

theorem TransferRun.keepable {s : Journal.State Recording.TransferRecord Char U8} (h : TransferRun E s) :
    Runs.Reach (fun s a t => Journal.step (transferJournal E) s a = some t) (Journal.Keepable (transferJournal E))
      .init s :=
  h.mono fun _ _ hok record hr => by
    obtain ⟨xfer, now, hx, hrecord⟩ := hok record hr
    exact recordable_of_observable hx hrecord

/-- **A recording survives its recorder**: over any number of processes, each ended
in order or at any byte of a write, the playback device loads what was recorded,
as it was recorded and in this order, up to what is still to be written or was in
the queue of a process that died, and to one record for each such process. -/
theorem recording_loads {s : Journal.State Recording.TransferRecord Char U8} (h : TransferRun E s)
    (hlimit : s.files.bytes.length < 2 ^ 63) :
    ∃ kept, (loadTransfers E (some s.files.index) (some s.files.bytes)).map TransferRecord.replayed =
        kept.map toReplay ∧
      (kept ++ s.writer.inHand ++ s.queue).Sublist s.recorded ∧
      s.recorded.length ≤ kept.length + (s.writer.inHand ++ s.queue).length + s.abandoned + s.crashes := by
  rw [← load_transferJournal]
  exact Journal.loaded lawful_transferJournal h.keepable hlimit

/-- The clock says 5 ms when the device sent two bytes. -/
def seen : LibusbTransfer := ⟨0x81, .bulk, .completed, 2, 2, [7, 8], []⟩

def seenRecord : Recording.TransferRecord := ⟨0x81, 2, [7, 8], [], 5000000⟩

/-- The recorder dies when it has written ten bytes of a line, and is started
again. -/
def torn : List (Journal.Act Recording.TransferRecord) :=
  [.record seenRecord, .pop, .writeBytes, .crash 10, .restart, .record seenRecord, .pop, .writeBytes, .writeLine]

theorem recording_loads_torn : ∃ s, TransferRun .little s ∧ s.recorded.length = 2 ∧ s.crashes = 1 ∧
    ∃ kept, (loadTransfers .little (some s.files.index) (some s.files.bytes)).map TransferRecord.replayed =
        kept.map toReplay ∧
      (kept ++ s.writer.inHand ++ s.queue).Sublist s.recorded ∧
      s.recorded.length ≤ kept.length + (s.writer.inHand ++ s.queue).length + s.abandoned + s.crashes := by
  have hobserved : ∀ a ∈ torn, ∀ s, OfTransfers s a := by
    rintro a ha s record rfl
    have hrecord : record = seenRecord := by simpa [torn] using ha
    exact ⟨seen, 5000000, ⟨⟨rfl, by decide⟩, List.forall_mem_nil _, by decide⟩, by rw [hrecord]; decide⟩
  have hend : (Runs.follow (Journal.step (transferJournal .little)) .init torn).any (fun s =>
      s.recorded.length = 2 ∧ s.crashes = 1 ∧ s.files.bytes.length < 2 ^ 63) = true := by decide +kernel
  obtain ⟨s, hs, hend⟩ := (Option.any_eq_true _ _).mp hend
  obtain ⟨htwo, hone, hlimit⟩ := of_decide_eq_true hend
  have hrun : TransferRun .little s := Runs.reach_follow torn hs (.of_forall _ hobserved)
  exact ⟨s, hrun, htwo, hone, recording_loads hrun hlimit⟩

/-! ### Control setups -/

/-- A control setup that a real device has answered. -/
structure Exchange where
  io : Io
  setup : LibusbControlSetup
  data : List U8

/-- The result of the transfer and the buffer it leaves, before the plugin is
asked. -/
def Exchange.answer (d : Device) (x : Exchange) : I32 × List U8 :=
  d.controlSetupResult (x.io.withPlugin none) x.setup (resize x.data x.setup.wLength.toNat)

/-- What the plugin records of it. -/
def Exchange.record (E : Order) (d : Device) (x : Exchange) : Option Recording.ControlSetupRecord :=
  Recording.onControlSetup E x.setup (x.answer d).2

variable {d : Device} {x : Exchange} {setup : LibusbControlSetup}

theorem Exchange.length_answer (hd : d.isMock = false) : (x.answer d).2.length = x.setup.wLength.toNat := by
  have hlen := x.io.libusbControlTransfer.length_eq x.setup (resize x.data x.setup.wLength.toNat)
    LIBUSB_ERROR_NOT_SUPPORTED
  rw [length_resize] at hlen
  rw [← hlen]
  simp only [Exchange.answer, Device.controlSetupResult, hd, Io.withPlugin, Bool.false_eq_true, ↓reduceIte]

theorem bitCast_inj {a b : LibusbControlSetup} (h : a.bitCast E = b.bitCast E) : a = b := by
  have hlen : ∀ s : LibusbControlSetup, ([s.bmRequestType, s.bRequest] ++ store E s.wValue ++ store E s.wIndex ++
      store E s.wLength).length = 64 / 8 := fun s => by
    simp only [List.length_append, length_store, List.length_cons, List.length_nil]
  have hbytes := congrArg (store E) h
  unfold LibusbControlSetup.bitCast at hbytes
  rw [store_load rfl E _ (hlen a), store_load rfl E _ (hlen b)] at hbytes
  have hword : ∀ v w : U16, (store E v).length = (store E w).length := fun v w => by
    rw [length_store, length_store]
  have hstore : ∀ v w : U16, store E v = store E w → v = w := fun v w hvw => by
    have hload := congrArg (load E 16) hvw
    rwa [load_store rfl, load_store rfl] at hload
  obtain ⟨h, hLength⟩ := List.append_inj' hbytes (hword _ _)
  obtain ⟨h, hIndex⟩ := List.append_inj' h (hword _ _)
  obtain ⟨h, hValue⟩ := List.append_inj' h (hword _ _)
  obtain ⟨a1, a2, a3, a4, a5⟩ := a
  obtain ⟨b1, b2, b3, b4, b5⟩ := b
  obtain ⟨rfl, rfl⟩ : a1 = b1 ∧ a2 = b2 := by simpa using h
  obtain rfl := hstore _ _ hLength
  obtain rfl := hstore _ _ hIndex
  obtain rfl := hstore _ _ hValue
  rfl

/-- The records are made of answered control setups. -/
def OfControlSetups (E : Order) (d : Device) (_ : Journal.State Recording.ControlSetupRecord Char U8)
    (a : Journal.Act Recording.ControlSetupRecord) : Prop :=
  ∀ record, a = .record record → ∃ x : Exchange, x.record E d = some record

abbrev ControlSetupRun (E : Order) (d : Device) (s : Journal.State Recording.ControlSetupRecord Char U8) : Prop :=
  Runs.Reach (fun s a t => Journal.step controlSetupJournal s a = some t) (OfControlSetups E d) .init s

theorem Exchange.record_some {record : Recording.ControlSetupRecord} (h : x.record E d = some record) :
    x.setup.isIn = true ∧ record = ⟨x.setup.bitCast E, BitVec.ofNat 32 (x.answer d).2.length, (x.answer d).2⟩ := by
  obtain ⟨hin, h⟩ := Option.ite_none_right_eq_some.mp h
  exact ⟨hin, (Option.some.inj h).symm⟩

theorem ControlSetupRun.keepable (hd : d.isMock = false) {s : Journal.State Recording.ControlSetupRecord Char U8}
    (h : ControlSetupRun E d s) : Runs.Reach (fun s a t => Journal.step controlSetupJournal s a = some t)
      (Journal.Keepable controlSetupJournal) .init s :=
  h.mono fun _ _ hok record hr => by
    obtain ⟨x, hx⟩ := hok record hr
    have hlen := Exchange.length_answer (x := x) hd
    have hlt := x.setup.wLength.isLt
    obtain ⟨-, rfl⟩ := x.record_some hx
    show (x.answer d).2.length = (BitVec.ofNat 32 (x.answer d).2.length).toNat
    rw [BitVec.toNat_ofNat, Nat.mod_eq_of_lt (by omega)]

theorem replayed_getControlSetup (setups : List ControlSetupRecord) (setup : U64) :
    (getControlSetup setups setup).map ControlSetupRecord.replayed =
      (setups.map ControlSetupRecord.replayed).reverse.find? (·.1 = setup) := by
  rw [← List.map_reverse, List.find?_map]
  rfl

theorem Exchange.record_of_isIn (hin : x.setup.isIn = true) :
    x.record E d = some ⟨x.setup.bitCast E, BitVec.ofNat 32 (x.answer d).2.length, (x.answer d).2⟩ := if_pos hin

/-- What the engine finds for a control setup: the last exchange with it. -/
theorem getControlSetup_recorded {xs : List Exchange} (hin : setup.isIn = true) :
    ((xs.filterMap (Exchange.record E d)).map fun r => (r.setup, r.data)).reverse.find? (·.1 = setup.bitCast E) =
      (xs.reverse.find? (·.setup = setup)).map fun x => (setup.bitCast E, (x.answer d).2) := by
  -- the key of a record tells the setup
  have hkey : ∀ x : Exchange, (x.record E d).any (fun r => decide (r.setup = setup.bitCast E)) =
      decide (x.setup = setup) := by
    intro x
    by_cases hx : x.setup = setup
    · rw [Exchange.record_of_isIn (hx ▸ hin), Option.any_some, hx]
      exact (decide_eq_true rfl).trans (decide_eq_true rfl).symm
    · rw [decide_eq_false hx]
      cases hrecord : x.record E d with
      | none => rfl
      | some record =>
        obtain ⟨-, rfl⟩ := x.record_some hrecord
        exact decide_eq_false fun h => hx (bitCast_inj h)
  rw [← List.map_reverse, ← List.filterMap_reverse, List.find?_map, List.find?_filterMap]
  have hfind : (fun a : Exchange => (a.record E d).any ((fun p : U64 × List U8 => decide (p.1 = setup.bitCast E)) ∘
      fun r => (r.setup, r.data))) = fun x => decide (x.setup = setup) := funext hkey
  rw [hfind]
  cases hlast : xs.reverse.find? (fun x => decide (x.setup = setup)) with
  | none => rfl
  | some x =>
    have hx : x.setup = setup := by simpa using List.find?_some hlast
    rw [Option.bind_some, Exchange.record_of_isIn (hx ▸ hin), hx]
    rfl

/-- The device that replays what is in the files. -/
def replaying (E : Order) (files : Journal.Files Char U8) : UsbMock :=
  playbackDevice E (.load (some files.index) (some files.bytes))

/-- A control setup is answered with what was recorded, as far as it was asked for. -/
theorem submitControlSetup_playback {p : Device} {io : Io} {engine : ControlSetupEngine} (hp : p.isMock = true)
    (hin : setup.isIn = true) (hlen : 0 < setup.wLength.toNat) (data : List U8) :
    p.submitControlSetup (io.withPlugin (some (playbackDevice E engine))) setup data =
      match getControlSetup engine.setups (setup.bitCast E) with
      | some recorded => .ok (recorded.data.take setup.wLength.toNat)
      | none => .error LIBUSB_ERROR_NOT_SUPPORTED := by
  have hresult : p.controlSetupResult (io.withPlugin (some (playbackDevice E engine))) setup
      (resize data setup.wLength.toNat) =
      onControlSetup E engine setup (resize data setup.wLength.toNat) LIBUSB_ERROR_NOT_SUPPORTED := by
    simp only [Device.controlSetupResult, hp, ↓reduceIte, Io.withPlugin, UsbMock.dispatchControlSetup, playbackDevice]
    rfl
  have hbuffer : (resize data setup.wLength.toNat).length = setup.wLength.toNat := length_resize data _
  have hlt := setup.wLength.isLt
  unfold Device.submitControlSetup
  rw [hresult, onControlSetup, if_neg (not_not_intro hin)]
  cases hfound : getControlSetup engine.setups (setup.bitCast E) with
  | none =>
    dsimp only
    rw [if_neg (by decide)]
  | some recorded =>
    have hsize := engine.size_eq recorded (mem_of_getControlSetup hfound)
    have hcopy : min setup.wLength.toNat recorded.dataSize.toNat < 2 ^ 31 := by omega
    have hint : (BitVec.ofNat 32 (min setup.wLength.toNat recorded.dataSize.toNat)).toInt =
        (min setup.wLength.toNat recorded.dataSize.toNat : ℕ) := Ints.toInt_ofNat_of_lt hcopy
    have hnat : (BitVec.ofNat 32 (min setup.wLength.toNat recorded.dataSize.toNat)).toNat =
        min setup.wLength.toNat recorded.dataSize.toNat := by
      rw [BitVec.toNat_ofNat, Nat.mod_eq_of_lt (by omega)]
    have htake : (recorded.data.take (min setup.wLength.toNat recorded.dataSize.toNat)).length =
        min setup.wLength.toNat recorded.dataSize.toNat := by
      rw [List.length_take, hsize]
      omega
    have hall : recorded.data.take (min setup.wLength.toNat recorded.dataSize.toNat) =
        recorded.data.take setup.wLength.toNat := by
      rw [← hsize, List.take_eq_take_iff]
      omega
    dsimp only
    rw [hbuffer, if_pos hlen]
    dsimp only
    rw [hint, if_pos (Int.natCast_nonneg _), hnat, resize_of_le (by rw [List.length_append, htake]; omega),
      List.take_left' htake, hall]

/-- A recording of control setups that is complete: the recorder has come to its
end, and `xs` are the exchanges that it saw. -/
structure Recorded (E : Order) (d : Device) (s : Journal.State Recording.ControlSetupRecord Char U8)
    (xs : List Exchange) : Prop where
  run : ControlSetupRun E d s
  limit : s.files.bytes.length < 2 ^ 63
  gone : s.writer = .gone
  crashes : s.crashes = 0
  recorded : s.recorded = xs.filterMap (Exchange.record E d)

variable {s : Journal.State Recording.ControlSetupRecord Char U8} {xs : List Exchange} {p : Device} {io : Io}

theorem Recorded.getControlSetup (h : Recorded E d s xs) (hd : d.isMock = false) (hin : setup.isIn = true) :
    (getControlSetup (loadControlSetups (some s.files.index) (some s.files.bytes)) (setup.bitCast E)).map
        ControlSetupRecord.replayed =
      (xs.reverse.find? (·.setup = setup)).map fun x => (setup.bitCast E, (x.answer d).2) := by
  have hload := Journal.loaded_all lawful_controlSetupJournal (h.run.keepable hd) h.limit h.gone h.crashes
  rw [load_controlSetupJournal, h.recorded] at hload
  rw [replayed_getControlSetup, hload]
  exact getControlSetup_recorded hin

/-- **The last answer is replayed**: to a control setup that reads, the device
answers with the whole buffer that it was last answered with, and with an error
if it was never asked. -/
theorem control_replay (h : Recorded E d s xs) (hd : d.isMock = false) (hp : p.isMock = true)
    (hin : setup.isIn = true) (hlen : 0 < setup.wLength.toNat) (data : List U8) :
    p.submitControlSetup (io.withPlugin (some (replaying E s.files))) setup data =
      match xs.reverse.find? (·.setup = setup) with
      | some x => .ok (x.answer d).2
      | none => .error LIBUSB_ERROR_NOT_SUPPORTED := by
  have hreplayed := h.getControlSetup hd hin
  rw [replaying, submitControlSetup_playback hp hin hlen, ControlSetupEngine.load]
  cases hlast : xs.reverse.find? (·.setup = setup) with
  | none =>
    rw [hlast, Option.map_none, Option.map_eq_none_iff] at hreplayed
    rw [hreplayed]
  | some x =>
    have hx : x.setup = setup := by simpa using List.find?_some hlast
    rw [hlast, Option.map_some, Option.map_eq_some_iff] at hreplayed
    obtain ⟨record, hrecord, heq⟩ := hreplayed
    have hdata : record.data = (x.answer d).2 := congrArg Prod.snd heq
    have hanswer : (x.answer d).2.length = setup.wLength.toNat := hx ▸ x.length_answer hd
    rw [hrecord]
    show Except.ok (record.data.take setup.wLength.toNat) = .ok (x.answer d).2
    rw [hdata, ← hanswer, List.take_length]

/-- A device that answers with one byte is asked for some. -/
def askedFor (wLength : U16) : Exchange := ⟨.oneByte, ⟨0xc0, 1, 0, 0, wLength⟩, []⟩

/-- Its answer is recorded, and the recorder ends. -/
def recordedOnce (x : Exchange) : List (Journal.Act Recording.ControlSetupRecord) :=
  (x.record .little realDevice).toList.map .record ++ [.shutdown, .pop, .writeBytes, .writeLine, .leave]

theorem recorded_once {x : Exchange} (h : (Runs.follow (Journal.step controlSetupJournal) .init (recordedOnce x)).any
    (fun s => s.files.bytes.length < 2 ^ 63 ∧ s.writer = .gone ∧ s.crashes = 0 ∧
      s.recorded = [x].filterMap (Exchange.record .little realDevice)) = true) :
    ∃ s, Recorded .little realDevice s [x] := by
  obtain ⟨s, hs, hend⟩ := (Option.any_eq_true _ _).mp h
  obtain ⟨hlimit, hgone, hcrashes, hrecorded⟩ := of_decide_eq_true hend
  refine ⟨s, Runs.reach_follow _ hs (.of_forall _ fun a ha s record hr => ?_), hlimit, hgone, hcrashes, hrecorded⟩
  subst hr
  exact ⟨x, by simpa [recordedOnce] using ha⟩

theorem control_replay_again : ∃ s, Recorded .little realDevice s [askedFor 1] ∧
    (Device.mock []).submitControlSetup (Io.silent.withPlugin (some (replaying .little s.files)))
      (askedFor 1).setup [] = .ok [0] := by
  obtain ⟨s, hs⟩ := recorded_once (x := askedFor 1) (by decide +kernel)
  exact ⟨s, hs, control_replay hs rfl rfl (by decide) (by decide) []⟩

end Playback
end Viu
