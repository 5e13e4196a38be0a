/-
# Self-delimiting frames

A `Reader` takes one value off the front of a stream or fails; `Reader.all`
takes values until it fails. If every frame `enc x` is read back whatever
follows it, the concatenation of frames is read back frame by frame
(`Reader.all_flatMap`): no frame needs to know its neighbours.
-/
import Mathlib.Data.List.Basic

namespace Framing

/-- One value off a stream. A success takes at least one element. -/
structure Reader (α β ε : Type*) where
  read : List β → Except ε (α × List β)
  shorter : ∀ {bs a rest}, read bs = .ok (a, rest) → rest.length < bs.length

namespace Reader

variable {α β ε γ : Type*} (R : Reader α β ε)

/-- The values read before the first failure, the failure, and what is left. -/
def all (bs : List β) : List α × ε × List β :=
  match _h : R.read bs with
  | .ok (a, rest) => (a :: (all rest).1, (all rest).2)
  | .error e => ([], e, bs)
termination_by bs.length
decreasing_by all_goals exact R.shorter ‹_›

theorem all_ok {bs rest : List β} {a : α} (h : R.read bs = .ok (a, rest)) :
    R.all bs = (a :: (R.all rest).1, (R.all rest).2) := by
  rw [all]
  split
  · rename_i a' rest' h'
    obtain ⟨rfl, rfl⟩ := Prod.mk.inj (Except.ok.inj (h.symm.trans h'))
    rfl
  · rename_i e h'
    rw [h] at h'
    cases h'

theorem all_error {bs : List β} {e : ε} (h : R.read bs = .error e) : R.all bs = ([], e, bs) := by
  rw [all]
  split
  · rename_i h'
    rw [h] at h'
    cases h'
  · rename_i e' h'
    rw [Except.error.inj (h.symm.trans h')]

/-- Frames that are each read back, whatever follows, are read back in a row. -/
theorem all_flatMap (enc : γ → List β) (val : γ → α) : ∀ (xs : List γ) (tail : List β),
    (∀ x ∈ xs, ∀ rest, R.read (enc x ++ rest) = .ok (val x, rest)) →
    R.all (xs.flatMap enc ++ tail) = (xs.map val ++ (R.all tail).1, (R.all tail).2)
  | [], tail, _ => by simp
  | x :: xs, tail, h => by
    have hx := h x List.mem_cons_self (xs.flatMap enc ++ tail)
    have ih := all_flatMap enc val xs tail fun y hy => h y (List.mem_cons_of_mem _ hy)
    rw [List.flatMap_cons, List.append_assoc, all_ok R hx, ih]
    rfl

/-- A stream of whole frames is read to its end, where `read` fails. -/
theorem all_frames (enc : γ → List β) (val : γ → α) (xs : List γ) {e : ε}
    (hend : R.read [] = .error e)
    (h : ∀ x ∈ xs, ∀ rest, R.read (enc x ++ rest) = .ok (val x, rest)) :
    R.all (xs.flatMap enc) = (xs.map val, e, []) := by
  have := R.all_flatMap enc val xs [] h
  rwa [List.append_nil, R.all_error hend, List.append_nil] at this

end Reader

end Framing
