/-
# A mock's IN transfers

What the plugin of a mock device does to a transfer (`control::fill`,
`control::complete`) and what the host reads of it. `fill` copies the
plugin's data and records its size, but it marks every packet of an iso
transfer as full: the host is then sent the packets' whole length, whatever
was filled. The packets share the buffer evenly, so a length that their
number does not divide is cut as well (`read_back_iff`).
-/
import Viu.IsoPartition
import Viu.Outcome

namespace Viu

open Bytes

variable {E : Order} {d : Device} {s t : State} {a : Act} {x : Done} {data : List U8}

/-- `control::fill`. That the data fits is only asserted; past the buffer it would
be undefined. -/
def LibusbTransfer.fill (xfer : LibusbTransfer) (data : List U8) : LibusbTransfer :=
  { xfer with
    buffer := data ++ xfer.buffer.drop data.length
    actualLength := data.length
    isoPacketDesc :=
      if xfer.isIso then xfer.isoPacketDesc.map fun ipd => { ipd with actualLength := ipd.length }
      else xfer.isoPacketDesc }

/-- `control::complete`, up to the callback. -/
def LibusbTransfer.complete (xfer : LibusbTransfer) : LibusbTransfer := { xfer with status := .completed }

/-- A filled transfer is one that may complete. -/
theorem completes_fill {xfer : LibusbTransfer} (hlen : xfer.buffer.length = xfer.length)
    (hpackets : ∀ iso ∈ xfer.isoPacketDesc, iso.actualLength ≤ iso.length) (hd : data.length ≤ xfer.length) :
    Completes xfer (xfer.fill data).complete := by
  refine ⟨rfl, rfl, rfl, ?_, hd, ?_, ?_⟩
  · simp only [LibusbTransfer.complete, LibusbTransfer.fill, List.length_append, List.length_drop]
    omega
  · simp only [LibusbTransfer.complete, LibusbTransfer.fill]
    split <;> simp
  · simp only [LibusbTransfer.complete, LibusbTransfer.fill]
    split
    · intro iso hiso
      obtain ⟨ipd, -, rfl⟩ := List.mem_map.mp hiso
      exact le_rfl
    · exact hpackets

/-- The plugin filled the command's transfer with `data` and completed it. -/
def Done.FilledWith (d : Device) (x : Done) (data : List U8) : Prop :=
  ∃ p : Pending, p.Made d ∧ p.job = x.job ∧ data.length ≤ p.transfer.length ∧
    x.transfer = (p.transfer.fill data).complete

/-- The packets `fill_iso` makes. -/
def packetCount (cmd : Command) : ℕ := if cmd.isIso then cmd.isoPacketCount.toNat else 1

/-- What they hold together. -/
def packetRoom (cmd : Command) : ℕ :=
  packetCount cmd * (cmd.transferBufferSize.toNat / packetCount cmd)

/-- The transfer of an IN submit as the plugin receives it. -/
theorem Pending.Made.inn {p : Pending} (h : p.Made d) (hin : p.job.isEpIn = true) :
    p.transfer.buffer.length = p.job.cmd.transferBufferSize.toNat ∧
      p.transfer.length = p.job.cmd.transferBufferSize.toNat ∧
      p.transfer.isoPacketDesc = if p.job.isIsoEp d then List.replicate (packetCount p.job.cmd)
        ⟨p.job.cmd.transferBufferSize.toNat / packetCount p.job.cmd, 0, .completed⟩ else [] := by
  obtain ⟨info, type, hinfo, -, htype, hfill⟩ := Proxy.submitTransfer_eq h.submitted
  obtain ⟨hbuf, -, -, hiso⟩ := Proxy.prepareTransfer_eq hinfo
  obtain ⟨hlen, -⟩ := prepareBuffer_in (Job.isEpIn_eq hin).2.2.1 hbuf
  unfold Job.isIsoEp
  rw [htype]
  rcases hfill with ⟨rfl, hf⟩ | ⟨hty, hf⟩
  · obtain ⟨-, h1, h2, h3⟩ := fillIso_eq hf
    have hcount : (info.iso.getD ⟨1, []⟩).packetCount.toNat = packetCount p.job.cmd := by
      unfold packetCount
      cases hi : info.iso with
      | none =>
        rw [hi] at hiso
        split at hiso
        · cases hiso
        · rename_i hn
          rw [if_neg hn]
          rfl
      | some iso =>
        rw [hi] at hiso
        split at hiso
        · rename_i hc
          have hcount : iso.packetCount = p.job.cmd.isoPacketCount := Option.some.inj hiso
          rw [if_pos hc, Option.getD_some, hcount]
        · cases hiso
    rw [hcount, hlen] at h3
    exact ⟨by rw [h2, hlen], by rw [h1, hlen], by simpa using h3⟩
  · rw [hf]
    refine ⟨hlen, hlen, ?_⟩
    rcases hty with rfl | rfl <;> rfl

/-! ### What is read of what was filled -/

/-- Off the iso endpoints the data of a filled transfer is what was filled. -/
theorem inBytes_fill {xfer : LibusbTransfer} (hiso : xfer.isoPacketDesc = []) :
    inBytes E (xfer.fill data).complete = data := by
  have hno : (xfer.fill data).complete.isIso = false := by
    simp [LibusbTransfer.isIso, LibusbTransfer.numIsoPackets, LibusbTransfer.complete, LibusbTransfer.fill, hiso]
  unfold inBytes
  rw [hno]
  simp [LibusbTransfer.complete, LibusbTransfer.fill]

/-- On an iso endpoint it is as long as the packets, filled or not. -/
theorem inBytes_fill_iso {xfer : LibusbTransfer} {n length : ℕ} (hn : n ≠ 0)
    (hpackets : xfer.isoPacketDesc = List.replicate n ⟨length, 0, .completed⟩)
    (hb : xfer.buffer.length = xfer.length) (hfit : n * length ≤ xfer.length) (hd : data.length ≤ xfer.length) :
    inBytes E (xfer.fill data).complete = (data ++ xfer.buffer.drop data.length).take (n * length) := by
  have hiso : xfer.isIso = true := by
    simp [LibusbTransfer.isIso, LibusbTransfer.numIsoPackets, hpackets, hn]
  have hdesc : (xfer.fill data).complete.isoPacketDesc = List.replicate n ⟨length, length, .completed⟩ := by
    simp [LibusbTransfer.complete, LibusbTransfer.fill, hiso, hpackets]
  have hiso' : (xfer.fill data).complete.isIso = true := by
    simp [LibusbTransfer.isIso, LibusbTransfer.numIsoPackets, hdesc, hn]
  have hbuf : (xfer.fill data).complete.buffer = data ++ xfer.buffer.drop data.length := rfl
  have hlen : (data ++ xfer.buffer.drop data.length).length = xfer.length := by
    rw [List.length_append, List.length_drop]
    omega
  have hall : (List.replicate n (⟨length, length, .completed⟩ : LibusbIsoPacketDescriptor)).filter (·.completed) =
      List.replicate n ⟨length, length, .completed⟩ := by
    simp [LibusbIsoPacketDescriptor.completed]
  have hfull : ∀ iso ∈ List.replicate n (⟨length, length, .completed⟩ : LibusbIsoPacketDescriptor),
      iso.actualLength = iso.length := by
    intro iso hi
    rw [List.eq_of_mem_replicate hi]
  have hroom : Slots.room (fun iso : LibusbIsoPacketDescriptor => iso.length)
      (List.replicate n ⟨length, length, .completed⟩) = n * length := by
    simp [Slots.room]
  have hsize : dataSizeOf (List.replicate n ⟨length, length, .completed⟩) = n * length := by
    simp [dataSizeOf, Slots.size]
  rw [inBytes_iso hiso' (by rw [hbuf, hlen]; rfl), hdesc, hall, Slots.gather_full hfull, hroom, hsize, hbuf,
    List.drop_zero]
  have hcut : ((data ++ xfer.buffer.drop data.length).take (n * length)).length = n * length := by
    rw [List.length_take, hlen]
    omega
  calc Slots.pad 0 (n * length) ((data ++ xfer.buffer.drop data.length).take (n * length))
      = Slots.pad 0 ((data ++ xfer.buffer.drop data.length).take (n * length)).length
          ((data ++ xfer.buffer.drop data.length).take (n * length)) := by rw [hcut]
    _ = (data ++ xfer.buffer.drop data.length).take (n * length) := Slots.pad_length 0 _

/-- The host is sent what was filled if the endpoint is not iso, or if it filled
the packets exactly. -/
theorem Done.FilledWith.inBytes_iff (h : x.FilledWith d data) (hin : x.job.isEpIn = true) :
    inBytes E x.transfer = data ↔ (x.job.isIsoEp d = true → data.length = packetRoom x.job.cmd) := by
  obtain ⟨p, hp, hj, hd, hx⟩ := h
  rw [← hj] at hin ⊢
  obtain ⟨hbuf, hlen, hpackets⟩ := hp.inn hin
  rw [hx]
  by_cases hiso : p.job.isIsoEp d = true
  · rw [if_pos hiso] at hpackets
    have hcount : packetCount p.job.cmd ≠ 0 := by
      unfold packetCount
      split
      · rename_i hc
        have hne : p.job.cmd.isoPacketCount ≠ 0 := by
          have := of_decide_eq_true hc
          exact this.1
        exact fun h0 => hne (BitVec.eq_of_toNat_eq h0)
      · exact Nat.one_ne_zero
    have hroom : packetRoom p.job.cmd ≤ p.transfer.length := by
      rw [hlen]
      exact Nat.mul_div_le _ _
    have hread : inBytes E (p.transfer.fill data).complete = _ :=
      inBytes_fill_iso hcount hpackets (hbuf.trans hlen.symm) hroom hd
    rw [hread]
    refine ⟨fun heq _ => ?_, fun hall => ?_⟩
    · rw [← heq, List.length_take, List.length_append, List.length_drop]
      change min (packetRoom p.job.cmd) _ = packetRoom p.job.cmd
      omega
    · exact List.take_left' (hall hiso)
  · rw [if_neg hiso] at hpackets
    rw [inBytes_fill hpackets]
    exact iff_of_true rfl fun h => absurd h hiso

/-! ### What the host reads -/

/-- The plugin completes the transfers of an endpoint in the order submitted. -/
def Plugin (s : State) (a : Act) : Prop :=
  InSequence s a ∧ ∀ kx ∈ a.completed?, kx.2.status = .completed

instance (s : State) (a : Act) : Decidable (Plugin s a) := by unfold Plugin; infer_instance

theorem plugin_completed (h : Run E Plugin d s) : ∀ x ∈ s.finished, x.transfer.status = .completed :=
  finished_run h fun _ ha _ _ => ha.2 _ rfl

/-- The submit has one reply: status 0, the length of `data`, and `data` itself,
before the packets' descriptors. -/
def ReadBack (E : Order) (s : State) (x : Done) (data : List U8) : Prop :=
  ∃ r : Reply, s.produced.filter (fun r => decide (r.job = x.job)) = [r] ∧
    isRetSubmit E x.job.cmd.seqnum r.rep = true ∧ r.rep.status E = 0 ∧
    (r.rep.actualLength E).toNat = data.length ∧
    r.rep.payload = data ++ if x.job.cmd.isIso then isoBytes E x.transfer else []

/-- Once the threads rest, that is when the data of the reply is what was filled. -/
theorem readBack_iff (h : Run E Plugin d s) (ht : Pairs E s t) (hset : Settled E t) (hx : x ∈ s.finished)
    (hin : x.job.isEpIn = true) : ReadBack E t x data ↔ inBytes E x.transfer = data := by
  have hrun := ht.run (h.mono fun _ _ ha => ha.1)
  have hcompleted : ∀ y ∈ t.finished, y.transfer.status = .completed := by
    rw [ht.finished]
    exact plugin_completed h
  rw [← ht.finished] at hx
  obtain ⟨b, hpair, rfl⟩ := paired_of_finished hrun hset hx (isEpIn_at hin) fun y hy _ =>
    reported_of_completed (hcompleted y hy)
  obtain ⟨r, hprod, hblock, hjob, -⟩ := mem_pairs.mp hpair
  obtain ⟨hrin, -, -⟩ := from_block hrun hprod hblock
  have hpay := (payload_of_block hrun hprod hblock).2
  have hactual := actualLength_of_block hrun hprod hblock
  have hone := filter_eq_singleton hprod (decide_eq_true hjob) (countP_produced_le_one hrun b.done.job)
  have hfilled := (finished_made hrun _ hx).filled hin
  have hsize := hfilled.length_inBytes_le E
  have hlt := hfilled.size
  refine ⟨fun ⟨r', hone', _, _, _, hpay'⟩ => ?_, fun hread => ⟨r, hone, ?_, ?_, ?_, ?_⟩⟩
  · rw [hone] at hone'
    cases hone'
    rw [hjob, hpay'] at hpay
    exact (List.append_cancel_right hpay).symm
  · exact (((held_run hrun).produced r hprod).isRetSubmit_iff _).mpr ⟨(Job.isEpIn_eq hrin).1, by rw [hjob]⟩
  · exact status_eq_zero hrun hprod (.inl hrin)
  · rw [hactual, hread, BitVec.toNat_ofNat]
    rw [hread] at hsize
    exact Nat.mod_eq_of_lt (by omega)
  · rw [hpay, hjob, hread]

/-- **What a mock fills is what the host reads**, in every run in which the plugin
completes each endpoint's transfers in order: once the threads rest, just when
the endpoint is not iso or the packets were filled exactly. -/
theorem read_back_iff (h : Run E Plugin d s) : (∃ t, Pairs E s t ∧ Settled E t) ∧
    ∀ t, Pairs E s t → Settled E t → ∀ x ∈ s.finished, x.job.isEpIn = true → ∀ data, x.FilledWith d data →
      (ReadBack E t x data ↔ (x.job.isIsoEp d = true → data.length = packetRoom x.job.cmd)) := by
  refine ⟨settles h, fun t ht hset x hx hin data hfill => ?_⟩
  rw [readBack_iff h ht hset hx hin]
  exact hfill.inBytes_iff hin

/-- A submit of four bytes in two packets, filled with one byte. -/
def filledShort : List Act :=
  fetch (.isoIn 4 2) ++ [.submitIn, .pushIn,
    .complete 0 ⟨0x81, .isochronous, .completed, 4, 1, [7, 0, 0, 0], [⟨2, 2, .completed⟩, ⟨2, 2, .completed⟩]⟩] ++
  feed 1 ++ deliver

/-- Its transfer as the plugin received it. -/
def receivedIso : Pending :=
  ⟨⟨0, .isoIn 4 2⟩, .inIso,
    ⟨0x81, .isochronous, .completed, 4, 0, [0, 0, 0, 0], [⟨2, 0, .completed⟩, ⟨2, 0, .completed⟩]⟩⟩

theorem receivedIso_made : receivedIso.Made isoDevice := ⟨by decide +kernel, .inl (by decide)⟩

/-- The host reads all four bytes of the packets. -/
theorem read_back_long :
    (State.after .little isoDevice filledShort).log.map (fun r => (r.rep.actualLength .little, r.rep.payload.take 4)) =
      [(4, [7, 0, 0, 0])] ∧
    ¬ ∀ s t, Run .little Plugin isoDevice s → Pairs .little s t → Settled .little t →
      ∀ x ∈ s.finished, x.job.isEpIn = true → ∀ data, x.FilledWith isoDevice data → ReadBack .little t x data := by
  refine ⟨by decide +kernel, fun h => ?_⟩
  set s := State.after .little isoDevice filledShort with hs
  have hrun : Run .little Plugin isoDevice s := run_after (by decide +kernel) (by decide +kernel)
  obtain ⟨t, ht, hset⟩ := settles hrun
  set x : Done := ⟨receivedIso.job, (receivedIso.transfer.fill [7]).complete⟩ with hdone
  have hx : x ∈ s.finished := by decide +kernel
  have hfill : x.FilledWith isoDevice [7] := ⟨receivedIso, receivedIso_made, rfl, by decide, rfl⟩
  have hread := (readBack_iff hrun ht hset hx (by decide)).mp (h s t hrun ht hset x hx (by decide) [7] hfill)
  revert hread
  decide

/-- A bulk IN submit of two bytes, filled with one. -/
def filledBulk : List Act :=
  fetch (.submit 1 USBIP_DIR_IN 1 2) ++ [.submitIn, .pushIn, .complete 0 ⟨0x81, .bulk, .completed, 2, 1, [7, 0], []⟩]

theorem read_back_bulk : ∃ t x, Pairs .little (State.after .little (.mock [.bulk 0x81]) filledBulk) t ∧
    ReadBack .little t x [7] := by
  set s := State.after .little (.mock [.bulk 0x81]) filledBulk with hs
  have hrun : Run .little Plugin (.mock [.bulk 0x81]) s := run_after (by decide +kernel) (by decide +kernel)
  set p : Pending := ⟨⟨0, .submit 1 USBIP_DIR_IN 1 2⟩, .inn, ⟨0x81, .bulk, .completed, 2, 0, [0, 0], []⟩⟩ with hp
  set x : Done := ⟨p.job, (p.transfer.fill [7]).complete⟩ with hdone
  have hmade : p.Made (.mock [.bulk 0x81]) := ⟨by decide +kernel, .inl (by decide)⟩
  have hx : x ∈ s.finished := by decide +kernel
  obtain ⟨⟨t, ht, hset⟩, hiff⟩ := read_back_iff hrun
  exact ⟨t, x, ht, (hiff t ht hset x hx (by decide) [7] ⟨p, hmade, rfl, by decide, rfl⟩).mpr
    fun hiso => absurd hiso (by decide)⟩

end Viu
