/-
# Text as words

`words` is what `operator>>` of a stream into a string yields, one after the
other: the longest pieces without white space. `join` writes each word with a
space behind it; that is read back (`words_join`). A number is written as its
decimal digits (`Nat.toDigits 10`), and `magnitude` reads digits.
-/
import Mathlib.Data.List.Basic

namespace Text

abbrev Word := List Char

/-- `std::isspace` in the "C" locale. -/
def isSpace (c : Char) : Bool := c.toNat = 32 ∨ 9 ≤ c.toNat ∧ c.toNat ≤ 13

def words (text : List Char) : List Word := (text.splitOnP isSpace).filter (· ≠ [])

def join (ws : List Word) : List Char := ws.flatMap fun w => w ++ [' ']

/-- A word that can be told from its neighbours. -/
structure IsWord (w : Word) : Prop where
  ne_nil : w ≠ []
  no_space : ∀ c ∈ w, isSpace c = false

theorem words_cons {w : Word} (h : IsWord w) (text : List Char) : words (w ++ ' ' :: text) = w :: words text := by
  rw [words, List.splitOnP_append_cons_of_forall_mem h.no_space ' ' rfl, List.filter_cons_of_pos]
  · rfl
  · simpa using h.ne_nil

theorem words_join {ws : List Word} (h : ∀ w ∈ ws, IsWord w) : words (join ws) = ws := by
  induction ws with
  | nil => rfl
  | cons w ws ih =>
    have hcons : join (w :: ws) = w ++ ' ' :: join ws := by simp [join]
    rw [hcons, words_cons (h w List.mem_cons_self), ih fun v hv => h v (List.mem_cons_of_mem _ hv)]

/-! ### Decimal numbers -/

/-- The number of a word of digits. -/
def magnitude (w : Word) : Option ℕ :=
  if w ≠ [] ∧ w.all Char.isDigit then some (Nat.ofDigitChars 10 w 0) else none

theorem isDigit_toDigits {n : ℕ} : ∀ c ∈ Nat.toDigits 10 n, c.isDigit = true := fun _ hc =>
  Nat.isDigit_of_mem_toDigits (by decide) (Nat.le_refl 10) hc

theorem magnitude_toDigits (n : ℕ) : magnitude (Nat.toDigits 10 n) = some n := by
  have hall : (Nat.toDigits 10 n).all Char.isDigit = true := List.all_eq_true.mpr isDigit_toDigits
  rw [magnitude, if_pos ⟨Nat.toDigits_ne_nil, hall⟩, Nat.ofDigitChars_ten_toDigits]

theorem not_isSpace_of_isDigit {c : Char} (h : c.isDigit = true) : isSpace c = false := by
  have hd : 48 ≤ c.toNat ∧ c.toNat ≤ 57 := Char.isDigit_iff_toNat.mp h
  rw [isSpace, decide_eq_false_iff_not]
  omega

theorem isWord_toDigits (n : ℕ) : IsWord (Nat.toDigits 10 n) where
  ne_nil := Nat.toDigits_ne_nil
  no_space := fun c hc => not_isSpace_of_isDigit (isDigit_toDigits c hc)

end Text
