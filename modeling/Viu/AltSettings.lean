/-
# Alternate settings over a history of requests

The host selects a configuration and, interface by interface, an alternate
setting. What is selected is the latest: a SET_INTERFACE replaces the setting
of its interface, a SET_CONFIGURATION brings all back to 0.

`set_interface` records its settings with `std::map::insert`, and
`set_configuration` assigns nothing, so `current_altsetting` is the setting
that was selected first (`lookup_after`). It follows the selection all along a
history exactly when nothing in the history changes a setting once selected
(`current_altsetting_iff`).
-/
import Viu.Lib.Writes
import Viu.Held

namespace Viu

open Writes

/-- A SET_CONFIGURATION or SET_INTERFACE, with what libusb and the plugin
answer during it. -/
inductive Request
  | setConfiguration (io : Io) (index : U8)
  | setInterface (io : Io) (interface altSetting : U8)

/-- What the request selects. -/
def Request.event : Request → Event U8 U8
  | .setConfiguration _ _ => .clear
  | .setInterface _ interface altSetting => .put interface altSetting

namespace Device

variable {d : Device} {r : Request} {requests done : List Request} {i : U8}

/-- The `int` the request returns. -/
def result (d : Device) : Request → I32
  | .setConfiguration io index => d.setConfiguration io index
  | .setInterface io interface altSetting => (d.setInterface io interface altSetting).1

/-- The device after the request; `set_configuration` assigns no member. -/
def serve (d : Device) : Request → Device
  | .setConfiguration _ _ => d
  | .setInterface io interface altSetting => (d.setInterface io interface altSetting).2

def after (d : Device) (requests : List Request) : Device := requests.foldl serve d

/-- What a request selects if it succeeds. -/
def outcome (d : Device) (r : Request) : List (Event U8 U8) :=
  if d.result r = LIBUSB_SUCCESS then [r.event] else []

/-- What the successful requests select, in their order. -/
def selected : Device → List Request → List (Event U8 U8)
  | _, [] => []
  | d, r :: requests => d.outcome r ++ (d.serve r).selected requests

/-- The alternate setting selected for an interface: that of the last successful
SET_INTERFACE for it since the last successful SET_CONFIGURATION, else 0. -/
def selectedAltsetting (d : Device) (requests : List Request) (interface : U8) : U8 :=
  latest 0 (d.selected requests) interface

/-- In every state along the history `current_altsetting` is what is selected,
and the requests that failed changed nothing. -/
def FollowsSelection (d : Device) (requests : List Request) : Prop :=
  (∀ done, done <+: requests → ∀ i, (d.after done).currentAltsetting i = d.selectedAltsetting done i) ∧
    ∀ done r, done ++ [r] <+: requests → (d.after done).result r ≠ LIBUSB_SUCCESS →
      d.after (done ++ [r]) = d.after done

@[simp] theorem after_nil : d.after [] = d := rfl

@[simp] theorem after_append_one : d.after (requests ++ [r]) = (d.after requests).serve r := by
  simp [after, List.foldl_append]

theorem selected_append_one :
    d.selected (requests ++ [r]) = d.selected requests ++ (d.after requests).outcome r := by
  induction requests generalizing d with
  | nil => simp [selected]
  | cons r' requests ih =>
    show d.outcome r' ++ (d.serve r').selected (requests ++ [r]) = _
    rw [ih, ← List.append_assoc]
    rfl

/-- A request that failed leaves the device as it was. -/
theorem serve_of_failed (h : d.result r ≠ LIBUSB_SUCCESS) : d.serve r = d := by
  cases r with
  | setConfiguration io index => rfl
  | setInterface io interface altSetting =>
    have hres : d.onSetInterface io interface altSetting ≠ LIBUSB_SUCCESS := by
      intro hs
      apply h
      show (d.setInterface io interface altSetting).1 = LIBUSB_SUCCESS
      simp [setInterface, hs]
    simp [serve, setInterface, hres]

/-- A request that succeeded records what it selects, if nothing is recorded. -/
theorem lookup_serve : (d.serve r).altSettings.lookup i =
    (d.altSettings.lookup i).or (firstPut (d.outcome r) i) := by
  by_cases h : d.result r = LIBUSB_SUCCESS
  · cases r with
    | setConfiguration io index => simp [serve, outcome, h, Request.event, firstPut]
    | setInterface io interface altSetting =>
      have hres : d.onSetInterface io interface altSetting = LIBUSB_SUCCESS := by
        by_contra hne
        simp only [result, setInterface, hne, ↓reduceIte] at h
      have hset : (d.serve (.setInterface io interface altSetting)).altSettings =
          Writes.insert d.altSettings interface altSetting := by
        simp only [serve, setInterface, hres, ↓reduceIte]
        rfl
      rw [hset, lookup_insert, outcome, if_pos h]
      rfl
  · rw [serve_of_failed h, outcome, if_neg h]
    simp [firstPut]

/-- The setting recorded for an interface is the first that was selected. -/
theorem lookup_after (hd : d.altSettings = []) :
    (d.after requests).altSettings.lookup i = firstPut (d.selected requests) i := by
  induction requests using List.reverseRecOn with
  | nil => simp [hd, selected, firstPut]
  | append_singleton requests r ih =>
    rw [after_append_one, selected_append_one, firstPut_append, lookup_serve, ih]

theorem currentAltsetting_after (hd : d.altSettings = []) :
    (d.after requests).currentAltsetting i = first 0 (d.selected requests) i := by
  rw [currentAltsetting, lookup_after hd]
  rfl

/-- The selections along a history are the prefixes of its selections. -/
theorem selected_mono (h : done <+: requests) : d.selected done <+: d.selected requests := by
  obtain ⟨rest, rfl⟩ := h
  induction rest using List.reverseRecOn with
  | nil => simp
  | append_singleton rest r ih =>
    rw [← List.append_assoc, selected_append_one]
    exact ih.trans (List.prefix_append _ _)

theorem exists_selected_eq {es : List (Event U8 U8)} (h : es <+: d.selected requests) :
    ∃ done, done <+: requests ∧ d.selected done = es := by
  induction requests using List.reverseRecOn with
  | nil => exact ⟨[], List.prefix_rfl, (List.prefix_nil.mp h).symm⟩
  | append_singleton requests r ih =>
    rw [selected_append_one] at h
    -- one request selects at most one thing
    have hone : es = d.selected requests ++ (d.after requests).outcome r ∨ es <+: d.selected requests := by
      unfold outcome at h ⊢
      split_ifs at h ⊢
      · exact List.prefix_concat_iff.mp h
      · rw [List.append_nil] at h
        exact .inr h
    rcases hone with heq | hpre
    · exact ⟨requests ++ [r], List.prefix_rfl, by rw [selected_append_one, heq]⟩
    · obtain ⟨done, hdone, heq⟩ := ih hpre
      exact ⟨done, hdone.trans (List.prefix_append _ _), heq⟩

/-- **Alternate settings**: from a new device, `current_altsetting` follows the
selection all along a history exactly when no request in it that succeeds
changes a setting that an earlier one selected. -/
theorem current_altsetting_iff (hd : d.altSettings = []) :
    d.FollowsSelection requests ↔ (d.selected requests).Pairwise (Agrees 0) := by
  have hfailed : ∀ done r, done ++ [r] <+: requests → (d.after done).result r ≠ LIBUSB_SUCCESS →
      d.after (done ++ [r]) = d.after done := by
    intro done r _ hfail
    rw [after_append_one, serve_of_failed hfail]
  rw [← first_eq_latest_iff]
  constructor
  · rintro ⟨hfollow, -⟩ es hes i
    obtain ⟨done, hdone, rfl⟩ := exists_selected_eq hes
    rw [← currentAltsetting_after hd]
    exact hfollow done hdone i
  · intro hagree
    refine ⟨fun done hdone i => ?_, hfailed⟩
    rw [currentAltsetting_after hd]
    exact hagree _ (selected_mono hdone) i

end Device

/-- A plugin that accepts every configuration and setting. -/
def Io.accepting : Io :=
  { Io.silent with
    onSetConfiguration := some fun _ => LIBUSB_SUCCESS
    onSetInterface := some fun _ _ => LIBUSB_SUCCESS }

/-- The second SET_INTERFACE of an interface is lost. -/
theorem current_altsetting_stays : ¬ ∀ (d : Device) (requests : List Request), d.altSettings = [] →
    d.FollowsSelection requests := by
  intro h
  have hfollow := h (.mock []) [.setInterface .accepting 1 1, .setInterface .accepting 1 2] rfl
  exact absurd (hfollow.1 _ List.prefix_rfl 1) (by decide)

theorem current_altsetting_two_interfaces : (Device.mock []).FollowsSelection
    [.setConfiguration .accepting 1, .setInterface .accepting 0 1, .setInterface .accepting 1 2,
      .setInterface .silent 0 2] :=
  (Device.current_altsetting_iff rfl).mpr (by decide)

end Viu
