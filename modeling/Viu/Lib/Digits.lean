/-
# Numbers written in a base

`value b val ds` is the number that the digits `ds`, most significant first,
spell in base `b`, `val` being what each digit is worth. `Nat.toDigits b n` is
read back in base `b` (`value_toDigits`). Read in another base it is another
number, unless it has one digit (`value_toDigits_eq_iff`).
-/
import Mathlib.Data.List.Induction
import Mathlib.Tactic.Ring

namespace Digits

variable {α : Type*} {val : α → ℕ} {b c : ℕ} {ds : List α} {d : α}

def value (b : ℕ) (val : α → ℕ) (ds : List α) : ℕ := ds.foldl (fun n d => n * b + val d) 0

@[simp] theorem value_nil : value b val [] = 0 := rfl

theorem value_concat (b : ℕ) (val : α → ℕ) (ds : List α) (d : α) :
    value b val (ds ++ [d]) = value b val ds * b + val d := by
  simp [value]

theorem value_append (b : ℕ) (val : α → ℕ) (ds es : List α) :
    value b val (ds ++ es) = value b val ds * b ^ es.length + value b val es := by
  induction es using List.reverseRecOn with
  | nil => simp
  | append_singleton es e ih =>
    rw [← List.append_assoc, value_concat, ih, value_concat, List.length_append, List.length_singleton, Nat.pow_succ]
    ring

theorem value_lt (h : ∀ d ∈ ds, val d < b) : value b val ds < b ^ ds.length := by
  induction ds using List.reverseRecOn with
  | nil => simp
  | append_singleton ds d ih =>
    have hd : val d < b := h d (by simp)
    have hds : value b val ds < b ^ ds.length := ih fun x hx => h x (by simp [hx])
    rw [value_concat, List.length_append, List.length_singleton, Nat.pow_succ]
    calc value b val ds * b + val d < value b val ds * b + b := by omega
      _ = (value b val ds + 1) * b := by ring
      _ ≤ b ^ ds.length * b := Nat.mul_le_mul_right b hds

/-- Zeros in front are worth nothing. -/
theorem value_zeros (hd : val d = 0) (n : ℕ) (ds : List α) :
    value b val (List.replicate n d ++ ds) = value b val ds := by
  have hzero : value b val (List.replicate n d) = 0 := by
    induction n with
    | zero => rfl
    | succ n ih => rw [List.replicate_succ', value_concat, ih, hd, Nat.zero_mul]
  rw [value_append, hzero, Nat.zero_mul, Nat.zero_add]

theorem value_eq_zero_iff (hb : 0 < b) : value b val ds = 0 ↔ ∀ d ∈ ds, val d = 0 := by
  induction ds using List.reverseRecOn with
  | nil => simp
  | append_singleton ds d ih =>
    rw [value_concat, Nat.add_eq_zero_iff, Nat.mul_eq_zero, or_iff_left hb.ne', ih]
    simp [or_imp, forall_and]

/-! ### Two bases -/

/-- Whether a number is zero does not depend on the base. -/
theorem value_pos_iff (hb : 0 < b) (hc : 0 < c) : 0 < value b val ds ↔ 0 < value c val ds := by
  rw [Nat.pos_iff_ne_zero, Nat.pos_iff_ne_zero, Ne, Ne, value_eq_zero_iff hb, value_eq_zero_iff hc]

theorem value_mono (h : b ≤ c) (ds : List α) : value b val ds ≤ value c val ds := by
  induction ds using List.reverseRecOn with
  | nil => exact le_rfl
  | append_singleton ds d ih =>
    rw [value_concat, value_concat]
    exact Nat.add_le_add_right (Nat.mul_le_mul ih h) _

/-- In a larger base a number is larger, if it has more than its last digit. -/
theorem value_concat_lt (h : b < c) (hpos : 0 < value b val ds) :
    value b val (ds ++ [d]) < value c val (ds ++ [d]) := by
  rw [value_concat, value_concat]
  apply Nat.add_lt_add_right
  calc value b val ds * b < value b val ds * c := Nat.mul_lt_mul_of_pos_left h hpos
    _ ≤ value c val ds * c := Nat.mul_le_mul_right c (value_mono h.le ds)

/-! ### The digits of a number -/

section toDigits

variable {val : Char → ℕ}

/-- What is true of the digits of a base is true of those of a number. -/
theorem forall_mem_toDigits {P : Char → Prop} (hb : 1 < b) (h : ∀ d < b, P d.digitChar) (n : ℕ) :
    ∀ c ∈ Nat.toDigits b n, P c := by
  induction n using Nat.strong_induction_on with
  | _ n ih =>
    intro c hc
    by_cases hn : n < b
    · rw [Nat.toDigits_of_lt_base hn] at hc
      rw [List.mem_singleton.mp hc]
      exact h n hn
    · have hlt : n / b < n := Nat.div_lt_self (by omega) hb
      rw [Nat.toDigits_of_base_le hb (by omega)] at hc
      rcases List.mem_append.mp hc with hc | hc
      · exact ih _ hlt c hc
      · rw [List.mem_singleton.mp hc]
        exact h _ (Nat.mod_lt n (by omega))

theorem value_toDigits (hb : 1 < b) (hval : ∀ d < b, val d.digitChar = d) (n : ℕ) :
    value b val (Nat.toDigits b n) = n := by
  induction n using Nat.strong_induction_on with
  | _ n ih =>
    by_cases hn : n < b
    · rw [Nat.toDigits_of_lt_base hn]
      simp [value, hval n hn]
    · have hlt : n / b < n := Nat.div_lt_self (by omega) hb
      rw [Nat.toDigits_of_base_le hb (by omega), value_concat, ih _ hlt, hval _ (Nat.mod_lt n (by omega))]
      exact Nat.div_add_mod' n b

/-- Read in another base the digits are the same number just if there is one. -/
theorem value_toDigits_eq_iff (hb : 1 < b) (hc : 1 < c) (hne : b ≠ c) (hval : ∀ d < b, val d.digitChar = d) (n : ℕ) :
    value c val (Nat.toDigits b n) = n ↔ n < b := by
  refine ⟨fun h => ?_, fun h => ?_⟩
  · by_contra hn
    have hback := value_toDigits hb hval n
    have hhead := value_toDigits hb hval (n / b)
    have hdiv : 0 < n / b := Nat.div_pos (by omega) (by omega)
    rw [Nat.toDigits_of_base_le hb (by omega)] at h hback
    -- the two values agree on the last digit and differ before it
    rcases Nat.lt_or_gt_of_ne hne with hlt | hgt
    · have hmore : value b val (_ ++ [(n % b).digitChar]) < value c val (_ ++ [(n % b).digitChar]) :=
        value_concat_lt hlt (hhead.symm ▸ hdiv)
      omega
    · have hpos : 0 < value c val (Nat.toDigits b (n / b)) :=
        (value_pos_iff (by omega) (by omega)).mp (hhead.symm ▸ hdiv)
      have hless : value c val (_ ++ [(n % b).digitChar]) < value b val (_ ++ [(n % b).digitChar]) :=
        value_concat_lt hgt hpos
      omega
  · rw [Nat.toDigits_of_lt_base h]
    simp [value, hval n h]

end toDigits

end Digits
