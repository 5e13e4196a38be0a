/-
# Control submits are answered

Every way through the control handlers ends in one reply but one: a string
descriptor is looked up with `at`, behind a test on the index that lets index
0 through. The first string of a language that has none throws out of the
execution thread, which catches nothing but a closed queue
(`control_answered_iff`).
-/
import Viu.Control
import Viu.Frames
import Viu.Saved

namespace Viu

open Bytes Text

variable {E : Order} {io : Io} {d : Device} {s : State} {j : Job} {cmd : Command}

/-- The request is for string 0 of a language without strings. -/
def AsksEmptyLanguage (E : Order) (d : Device) (cmd : Command) : Prop :=
  cmd.isIn = true ∧ cmd.inRequest E = .getDescriptor ∧
    typeFromValue (cmd.controlSetup E).wValue = LIBUSB_DT_STRING ∧
    indexFromValue (cmd.controlSetup E).wValue = 0 ∧
    d.descriptorTree.stringDescriptors.lookup (cmd.controlSetup E).wIndex = some []

instance (E : Order) (d : Device) (cmd : Command) : Decidable (AsksEmptyLanguage E d cmd) := by
  unfold AsksEmptyLanguage
  infer_instance

theorem packStringDescriptor_ok_iff (languageId : U16) (index : U8) :
    (∃ data, d.packStringDescriptor languageId index = .ok data) ↔
      ¬ (index = 0 ∧ d.descriptorTree.stringDescriptors.lookup languageId = some []) := by
  unfold Device.packStringDescriptor
  cases hl : d.descriptorTree.stringDescriptors.lookup languageId with
  | none => simp
  | some strings =>
    dsimp only
    by_cases hlen : strings.length < index.toNat
    · have hne : index ≠ 0 := fun h0 => by
        rw [h0] at hlen
        exact Nat.not_lt_zero _ hlen
      rw [if_pos hlen]
      exact iff_of_true ⟨[], rfl⟩ fun h => hne h.1
    · rw [if_neg hlen]
      cases hget : strings[if index = 0 then 0 else index.toNat - 1]? with
      | some string =>
        refine iff_of_true ⟨string, rfl⟩ ?_
        rintro ⟨rfl, hnil⟩
        rw [Option.some.inj hnil] at hget
        cases hget
      | none =>
        -- behind the test only index 0 can miss, and only in an empty list
        refine iff_of_false (fun ⟨data, h⟩ => nomatch h) (not_not.mpr ?_)
        rw [List.getElem?_eq_none_iff] at hget
        by_cases h0 : index = 0
        · rw [if_pos h0] at hget
          exact ⟨h0, congrArg some (List.eq_nil_of_length_eq_zero (Nat.le_zero.mp hget))⟩
        · rw [if_neg h0] at hget
          have hpos : index.toNat ≠ 0 := fun hz => h0 (BitVec.eq_of_toNat_eq hz)
          omega

theorem descriptor_ok_iff : (∃ req, Proxy.descriptor E io d cmd = .ok req) ↔
    ¬ (typeFromValue (cmd.controlSetup E).wValue = LIBUSB_DT_STRING ∧
      indexFromValue (cmd.controlSetup E).wValue = 0 ∧
      d.descriptorTree.stringDescriptors.lookup (cmd.controlSetup E).wIndex = some []) := by
  by_cases hs : typeFromValue (cmd.controlSetup E).wValue = LIBUSB_DT_STRING
  · have hne1 : LIBUSB_DT_STRING ≠ LIBUSB_DT_DEVICE := by decide
    have hne2 : LIBUSB_DT_STRING ≠ LIBUSB_DT_CONFIG := by decide
    unfold Proxy.descriptor
    simp only [hs, hne1, hne2, ↓reduceIte, true_and]
    rw [← packStringDescriptor_ok_iff]
    cases d.packStringDescriptor (cmd.controlSetup E).wIndex (indexFromValue (cmd.controlSetup E).wValue) with
    | ok data => exact iff_of_true ⟨_, rfl⟩ ⟨data, rfl⟩
    | error e => exact iff_of_false (fun ⟨_, h⟩ => nomatch h) fun ⟨_, h⟩ => nomatch h
  · refine iff_of_true ?_ fun h => hs h.1
    unfold Proxy.descriptor
    simp only [hs, ↓reduceIte]
    split_ifs
    · exact ⟨_, rfl⟩
    · exact ⟨_, rfl⟩
    · exact ⟨_, rfl⟩
    · exact ⟨_, rfl⟩
    · split <;> exact ⟨_, rfl⟩

/-- The handlers return for every other request. -/
theorem executeControlCommand_ok_iff (hdir : cmd.isIn = true ∨ cmd.isOut = true) :
    (∃ p, Proxy.executeControlCommand E io d cmd = .ok p) ↔ ¬ AsksEmptyLanguage E d cmd := by
  unfold AsksEmptyLanguage
  rcases hdir with hin | hout
  · have hmap : (∃ p, Proxy.executeControlCommand E io d cmd = .ok p) ↔
        ∃ req, Proxy.executeInControlCommand E io d cmd = .ok req := by
      rw [Proxy.executeControlCommand_in hin]
      cases Proxy.executeInControlCommand E io d cmd with
      | ok req => exact iff_of_true ⟨_, rfl⟩ ⟨req, rfl⟩
      | error e => exact iff_of_false (fun ⟨_, h⟩ => nomatch h) fun ⟨_, h⟩ => nomatch h
    rw [hmap, Proxy.executeInControlCommand_eq]
    by_cases hd : cmd.inRequest E = .getDescriptor
    · rw [hd]
      simp only [hin, true_and]
      exact descriptor_ok_iff
    · refine iff_of_true ?_ fun h => hd h.2.1
      cases hr : cmd.inRequest E with
      | getDescriptor => exact absurd hr hd
      | _ => exact ⟨_, rfl⟩
  · rw [Proxy.executeControlCommand_out hout]
    exact iff_of_true ⟨_, rfl⟩ fun h => Command.not_isIn_of_isOut hout h.1

/-- `execute_command` returns, having queued one reply, to the submit. -/
def Answered (E : Order) (io : Io) (s : State) (j : Job) : Prop :=
  ∃ t r, step E s (.control io) = some t ∧ t.exec = .idle ∧ t.repliesQueue = s.repliesQueue ++ [r] ∧
    t.produced = s.produced ++ [r] ∧ r.job = j ∧ isRetSubmit E j.cmd.seqnum r.rep = true

theorem answered_iff_ok (he : s.exec = .pulled j) (hs : j.cmd.isSubmit = true) (hep : j.cmd.ep = 0) :
    Answered E io s j ↔ ∃ p, Proxy.executeControlCommand E io s.dev j.cmd = .ok p := by
  refine ⟨fun ⟨t, r, hst, _⟩ => ?_, fun ⟨⟨req, dev⟩, hc⟩ => ?_⟩
  · cases step_cases hst with
    | @control io i req dev rep he' hs' hep' hc hrep =>
      rw [he] at he'
      cases he'
      exact ⟨_, hc⟩
  · have hcmd := (Proxy.executeControlCommand_keeps hc).1
    obtain ⟨rep, hrep⟩ : ∃ rep, queueReplyToHost E req = .ok rep :=
      ⟨_, queueReplyToHost_submit E (by rw [hcmd]; exact hs)⟩
    have hfrom : Reply.From E s.dev [] ⟨j, none, rep⟩ := .control rfl hs hep hc hrep
    have hstep : step E s (.control io) =
        some (State.pushReply { s with exec := .idle, dev := dev } ⟨j, none, rep⟩) := by
      simp only [step, he, hs, hep, hc, hrep, and_self, ↓reduceIte]
    exact ⟨_, _, hstep, rfl, rfl, rfl, rfl, (hfrom.isRetSubmit_iff _).mpr ⟨hs, rfl⟩⟩

/-- **Control submits are answered**, each once, unless they ask for string 0 of a
language without strings. -/
theorem control_answered_iff (he : s.exec = .pulled j) (hs : j.cmd.isSubmit = true) (hep : j.cmd.ep = 0)
    (hdir : j.cmd.isIn = true ∨ j.cmd.isOut = true) :
    Answered E io s j ↔ ¬ AsksEmptyLanguage E s.dev j.cmd := by
  rw [answered_iff_ok he hs hep]
  exact executeControlCommand_ok_iff hdir

/-- A mock device with a language that has no strings. -/
def emptyLanguage : Device :=
  { Device.mock [] with descriptorTree := { (Device.mock []).descriptorTree with stringDescriptors := [(0x409, [])] } }

/-- GET_DESCRIPTOR of string 0 in language 0x409. -/
def getStringZero : Command := .control USBIP_DIR_IN #v[0x80, 6, 0, 3, 9, 4, 255, 0] 255

/-- The thread does not survive it. -/
theorem control_unanswered : ¬ ∀ (s : State) (j : Job) (text : List Char),
    Run .little Runs.Any emptyLanguage s → s.dev.isMock = true → Tree.load text = .ok s.dev.descriptorTree →
    s.exec = .pulled j → j.cmd.isSubmit = true → j.cmd.ep = 0 → j.cmd.isIn = true ∨ j.cmd.isOut = true →
    Answered .little Io.silent s j := by
  intro h
  set s := State.after .little emptyLanguage (fetch getStringZero) with hs
  have hrun : Run .little Runs.Any emptyLanguage s := run_after (by decide +kernel) (by decide +kernel)
  have hdev : s.dev = emptyLanguage := by decide +kernel
  have hexec : s.exec = .pulled ⟨0, getStringZero⟩ := by decide +kernel
  have hsized : emptyLanguage.descriptorTree.Sized := by decide
  have hload := load_save hsized
  have hans := h s ⟨0, getStringZero⟩ _ hrun (by rw [hdev]; rfl) (by rw [hload, hdev]) hexec rfl rfl (.inl rfl)
  rw [answered_iff_ok hexec rfl rfl, executeControlCommand_ok_iff (.inl rfl), hdev] at hans
  exact hans (by decide)

/-- String 0 of a language the device does not have. -/
theorem control_answered_noLanguage :
    Answered .little Io.silent (State.after .little (.mock []) (fetch getStringZero)) ⟨0, getStringZero⟩ :=
  (control_answered_iff (by decide +kernel) rfl rfl (.inl rfl)).mpr (by decide +kernel)

end Viu
