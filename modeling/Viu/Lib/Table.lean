/-
# Tables with keys

A table is a list of keys with values, as `std::map` holds them: `keys`,
`remove` by key, `lookup`. How often a key occurs is what ownership proofs
count: `count_keys_append` and `count_keys_remove_add` say what the operations
do to it.

`insertBy` is `std::map::insert` of a table in key order: it keeps the order,
and the value of a key that is there.
-/
import Mathlib.Data.List.Nodup
import Mathlib.Logic.Function.Basic

namespace Table

variable {κ β : Type*} [DecidableEq κ] {m : List (κ × β)} {k x : κ} {b : β} {e : κ × β}

def keys (m : List (κ × β)) : List κ := m.map Prod.fst

/-- Without the key. -/
def remove (m : List (κ × β)) (k : κ) : List (κ × β) := m.filter fun e => e.1 ≠ k

theorem mem_remove : e ∈ remove m k ↔ e ∈ m ∧ e.1 ≠ k := by
  simp [remove]

omit [DecidableEq κ] in
theorem mem_keys_of_mem (h : e ∈ m) : e.1 ∈ keys m := List.mem_map_of_mem h

omit [DecidableEq κ] in
theorem keys_append (m' : List (κ × β)) : keys (m ++ m') = keys m ++ keys m' := List.map_append

theorem count_keys_append : (keys (m ++ [e])).count x = (keys m).count x + [e.1].count x := by
  have hcons : keys (m ++ [e]) = keys m ++ [e.1] := keys_append _
  rw [hcons, List.count_append]

theorem count_keys_remove : (keys (remove m k)).count x = if k = x then 0 else (keys m).count x := by
  induction m with
  | nil => simp [remove, keys]
  | cons e m ih =>
    have hcons : keys (e :: m) = e.1 :: keys m := rfl
    by_cases he : e.1 = k
    · have hrem : remove (e :: m) k = remove m k := by simp [remove, he]
      rw [hrem, ih, hcons, he]
      by_cases hx : k = x
      · rw [if_pos hx, if_pos hx]
      · rw [if_neg hx, if_neg hx, List.count_cons_of_ne hx]
    · have hrem : keys (remove (e :: m) k) = e.1 :: keys (remove m k) := by simp [remove, keys, he]
      rw [hrem, hcons, List.count_cons, List.count_cons, ih]
      by_cases hx : k = x
      · have hne : (e.1 == x) = false := beq_eq_false_iff_ne.mpr fun h => he (h.trans hx.symm)
        rw [if_pos hx, if_pos hx, hne]
        rfl
      · rw [if_neg hx, if_neg hx]

/-- A key that occurs once is gone, the others stay. -/
theorem count_keys_remove_add (h : (keys m).count k = 1) :
    (keys (remove m k)).count x + [k].count x = (keys m).count x := by
  rw [count_keys_remove]
  by_cases hx : k = x
  · subst hx
    rw [if_pos rfl, h, List.count_singleton_self]
  · rw [if_neg hx, List.count_cons_of_ne hx, List.count_nil]
    rfl

omit [DecidableEq κ] in
theorem nodup_append_one {l : List κ} (h : l.Nodup) (hk : k ∉ l) : (l ++ [k]).Nodup := by
  rw [← List.concat_eq_append]
  exact h.concat hk

theorem count_erase_add {l : List κ} (h : k ∈ l) : (l.erase k).count x + [k].count x = l.count x := by
  calc (l.erase k).count x + [k].count x = (l.erase k ++ [k]).count x := List.count_append.symm
    _ = l.count x := (List.perm_append_singleton k _).trans (List.perm_cons_erase h).symm |>.count_eq x

/-- What `l'` lists is gone, the others stay. -/
theorem count_filter_not_mem_add {l l' : List κ} (h : x ∈ l' → l'.count x = l.count x) :
    (l.filter (· ∉ l')).count x + l'.count x = l.count x := by
  by_cases hx : x ∈ l'
  · have hout : x ∉ l.filter (· ∉ l') := by simp [hx]
    rw [List.count_eq_zero.mpr hout, h hx, Nat.zero_add]
  · rw [List.count_filter (by simp [hx]), List.count_eq_zero.mpr hx, Nat.add_zero]

theorem lookup_some (h : m.lookup k = some b) : (k, b) ∈ m := by
  obtain ⟨l₁, l₂, rfl, -⟩ := List.lookup_eq_some_iff.mp h
  simp

theorem lookup_of_mem_keys (h : k ∈ keys m) : ∃ b, m.lookup k = some b := by
  apply Option.ne_none_iff_exists'.mp
  intro hnone
  obtain ⟨e, he, rfl⟩ := List.mem_map.mp h
  have hne := List.lookup_eq_none_iff.mp hnone e he
  simp at hne

/-! ### Tables in key order -/

section ordered

variable {f : κ → ℕ}

/-- In the order of `f`. -/
def Sorted (f : κ → ℕ) (m : List (κ × β)) : Prop := m.Pairwise fun e e' => f e.1 < f e'.1

def insertBy (f : κ → ℕ) : List (κ × β) → κ → β → List (κ × β)
  | [], k, b => [(k, b)]
  | e :: m, k, b =>
    if f k < f e.1 then (k, b) :: e :: m
    else if f e.1 < f k then e :: insertBy f m k b
    else e :: m

omit [DecidableEq κ] in
theorem mem_insertBy (h : e ∈ insertBy f m k b) : e = (k, b) ∨ e ∈ m := by
  induction m with
  | nil => exact .inl (List.mem_singleton.mp h)
  | cons e' m ih =>
    unfold insertBy at h
    split_ifs at h
    · exact List.mem_cons.mp h
    · rcases List.mem_cons.mp h with rfl | h
      · exact .inr List.mem_cons_self
      · exact (ih h).imp_right (List.mem_cons_of_mem _)
    · exact .inr h

omit [DecidableEq κ] in
theorem sorted_insertBy (hm : Sorted f m) : Sorted f (insertBy f m k b) := by
  induction m with
  | nil => exact List.pairwise_singleton _ _
  | cons e m ih =>
    obtain ⟨hhead, htail⟩ := List.pairwise_cons.mp hm
    unfold insertBy
    split_ifs with hlt hgt
    · refine List.pairwise_cons.mpr ⟨fun e' he' => ?_, hm⟩
      rcases List.mem_cons.mp he' with rfl | he'
      · exact hlt
      · exact Nat.lt_trans hlt (hhead e' he')
    · refine List.pairwise_cons.mpr ⟨fun e' he' => ?_, ih htail⟩
      rcases mem_insertBy he' with rfl | he'
      · exact hgt
      · exact hhead e' he'
    · exact hm

/-- The table after an insertion. -/
theorem lookup_insertBy (hf : Function.Injective f) (hm : Sorted f m) :
    (insertBy f m k b).lookup x = (m.lookup x).or (if k = x then some b else none) := by
  induction m with
  | nil =>
    by_cases hx : k = x
    · simp [insertBy, hx]
    · have hne : (x == k) = false := beq_eq_false_iff_ne.mpr (Ne.symm hx)
      simp [insertBy, List.lookup_cons, hne, hx]
  | cons e m ih =>
    obtain ⟨hhead, htail⟩ := List.pairwise_cons.mp hm
    unfold insertBy
    by_cases hlt : f k < f e.1
    · -- the key is nowhere in the table
      rw [if_pos hlt]
      have hnone : (e :: m).lookup k = none := by
        apply List.lookup_eq_none_iff.mpr
        intro e' he'
        have hlt' : f k < f e'.1 := by
          rcases List.mem_cons.mp he' with rfl | he'
          · exact hlt
          · exact Nat.lt_trans hlt (hhead e' he')
        have hne : k ≠ e'.1 := fun h => by rw [h] at hlt'; exact Nat.lt_irrefl _ hlt'
        simpa using hne
      by_cases hx : k = x
      · subst hx
        simp [hnone]
      · have hne : (x == k) = false := beq_eq_false_iff_ne.mpr (Ne.symm hx)
        rw [if_neg hx, List.lookup_cons, hne, Option.or_none]
    · rw [if_neg hlt]
      by_cases hgt : f e.1 < f k
      · rw [if_pos hgt, List.lookup_cons, List.lookup_cons, ih htail]
        cases x == e.1 <;> simp
      · have hk : e.1 = k := hf (Nat.le_antisymm (Nat.not_lt.mp hlt) (Nat.not_lt.mp hgt))
        rw [if_neg hgt]
        by_cases hx : k = x
        · have heq : (x == e.1) = true := beq_iff_eq.mpr (hx.symm.trans hk.symm)
          rw [List.lookup_cons, heq]
          rfl
        · rw [if_neg hx, Option.or_none]

end ordered

end Table
