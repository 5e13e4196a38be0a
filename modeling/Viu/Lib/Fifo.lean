/-
# Queues between threads

Facts about FIFO queues that threads fill and drain one element at a time.

* A family of places indexed by `0 .. n-1`, one of which changes: a total
  over the family changes by that place (`sum_update`).
* A bag from which any element may be taken: what a filter keeps of the rest.
* A rendezvous: two producers push to two queues, one consumer pulls the head
  of the first, then the head of the second, and hands on the pair. Whatever
  the interleaving, the `k`-th pair is the `k`-th element of each
  (`Rendezvous.pairs_eq_zip`). `Rendezvous` is the invariant; `pushLeft`,
  `pushRight`, `pullLeft`, `pullRight` and `emit` are its preservation by each
  move.
-/
import Mathlib.Algebra.BigOperators.Fin
import Mathlib.Data.List.Sublists

namespace Fifo

open Finset

theorem sum_update {β : Type*} (f : ℕ → β) (w : β → ℕ) {k n : ℕ} (v : β) (hk : k < n) :
    ∑ e ∈ range n, w (Function.update f k v e) + w (f k) = ∑ e ∈ range n, w (f e) + w v := by
  have hmem : k ∈ range n := mem_range.mpr hk
  have hne : ∀ e ∈ (range n).erase k, w (Function.update f k v e) = w (f e) := fun e he => by
    rw [Function.update_of_ne (ne_of_mem_erase he)]
  rw [← add_sum_erase _ _ hmem, ← add_sum_erase _ _ hmem, sum_congr rfl hne, Function.update_self]
  omega

/-! ### Taking an element out of the middle -/

section erase

variable {β : Type*} {P : β → Bool} {l : List β} {k : ℕ} {x : β}

theorem split_at (h : l[k]? = some x) : l = l.take k ++ x :: l.drop (k + 1) := by
  obtain ⟨hk, rfl⟩ := List.getElem?_eq_some_iff.mp h
  rw [← List.drop_eq_getElem_cons hk, List.take_append_drop]

theorem filter_split (h : l[k]? = some x) :
    l.filter P = (l.take k).filter P ++ ([x].filter P ++ (l.drop (k + 1)).filter P) := by
  conv_lhs => rw [split_at h]
  rw [List.filter_append, ← List.singleton_append, List.filter_append]

theorem filter_eraseIdx (l : List β) (k : ℕ) :
    (l.eraseIdx k).filter P = (l.take k).filter P ++ (l.drop (k + 1)).filter P := by
  rw [List.eraseIdx_eq_take_drop_succ, List.filter_append]

/-- An element that the filter leaves out. -/
theorem filter_eraseIdx_of_not (h : l[k]? = some x) (hx : P x = false) : (l.eraseIdx k).filter P = l.filter P := by
  rw [filter_eraseIdx, filter_split h, List.filter_cons_of_neg (by simp [hx]), List.filter_nil, List.nil_append]

/-- The first element that the filter keeps. -/
theorem filter_eraseIdx_of_first (h : l[k]? = some x) (hx : P x = true) (hb : ∀ y ∈ l.take k, P y = false) :
    l.filter P = x :: (l.eraseIdx k).filter P := by
  have hnil : (l.take k).filter P = [] := by
    rw [List.filter_eq_nil_iff]
    exact fun y hy => by simp [hb y hy]
  rw [filter_eraseIdx, filter_split h, hnil, List.filter_cons_of_pos hx]
  rfl

end erase

/-! ### Two queues, one consumer -/

/-- `left` and `right` are all that was ever pushed to the two queues, `pairs`
all that was handed on; `x` and `y` are what the consumer holds, `queueL` and
`queueR` what still waits. -/
structure Rendezvous {α β : Type*} (left : List α) (right : List β) (pairs : List (α × β))
    (x : Option α) (y : Option β) (queueL : List α) (queueR : List β) : Prop where
  left_eq : left = pairs.map Prod.fst ++ x.toList ++ queueL
  right_eq : right = pairs.map Prod.snd ++ y.toList ++ queueR

namespace Rendezvous

variable {α β : Type*} {left : List α} {right : List β} {pairs : List (α × β)} {x : Option α} {y : Option β}
  {queueL : List α} {queueR : List β} {a : α} {b : β}

theorem nil : Rendezvous ([] : List α) ([] : List β) [] none none [] [] := ⟨rfl, rfl⟩

theorem pushLeft (h : Rendezvous left right pairs x y queueL queueR) (a : α) :
    Rendezvous (left ++ [a]) right pairs x y (queueL ++ [a]) queueR :=
  ⟨by rw [h.left_eq, List.append_assoc], h.right_eq⟩

theorem pushRight (h : Rendezvous left right pairs x y queueL queueR) (b : β) :
    Rendezvous left (right ++ [b]) pairs x y queueL (queueR ++ [b]) :=
  ⟨h.left_eq, by rw [h.right_eq, List.append_assoc]⟩

theorem pullLeft (h : Rendezvous left right pairs none y (a :: queueL) queueR) :
    Rendezvous left right pairs (some a) y queueL queueR :=
  ⟨by rw [h.left_eq]; simp, h.right_eq⟩

theorem pullRight (h : Rendezvous left right pairs x none queueL (b :: queueR)) :
    Rendezvous left right pairs x (some b) queueL queueR :=
  ⟨h.left_eq, by rw [h.right_eq]; simp⟩

theorem emit (h : Rendezvous left right pairs (some a) (some b) queueL queueR) :
    Rendezvous left right (pairs ++ [(a, b)]) none none queueL queueR :=
  ⟨by rw [h.left_eq]; simp, by rw [h.right_eq]; simp⟩

theorem getElem?_of_mem (h : Rendezvous left right pairs x y queueL queueR) {p : α × β} (hp : p ∈ pairs) :
    ∃ i : ℕ, left[i]? = some p.1 ∧ right[i]? = some p.2 := by
  obtain ⟨i, hi⟩ := List.mem_iff_getElem?.mp hp
  have hlt : i < pairs.length := (List.getElem?_eq_some_iff.mp hi).1
  refine ⟨i, ?_, ?_⟩
  · rw [h.left_eq, List.append_assoc, List.getElem?_append_left (by simpa using hlt), List.getElem?_map, hi]
    rfl
  · rw [h.right_eq, List.append_assoc, List.getElem?_append_left (by simpa using hlt), List.getElem?_map, hi]
    rfl

theorem map_fst_isPrefix (h : Rendezvous left right pairs x y queueL queueR) : pairs.map Prod.fst <+: left :=
  ⟨x.toList ++ queueL, by rw [h.left_eq, List.append_assoc]⟩

theorem map_snd_isPrefix (h : Rendezvous left right pairs x y queueL queueR) : pairs.map Prod.snd <+: right :=
  ⟨y.toList ++ queueR, by rw [h.right_eq, List.append_assoc]⟩

/-- The pairs are the two streams side by side, as far as they got. -/
theorem pairs_eq_zip (h : Rendezvous left right pairs x y queueL queueR) :
    pairs = (left.zip right).take pairs.length := by
  have hl := List.prefix_iff_eq_take.mp h.map_fst_isPrefix
  have hr := List.prefix_iff_eq_take.mp h.map_snd_isPrefix
  rw [List.length_map] at hl hr
  rw [List.zip_eq_zipWith, List.take_zipWith, ← hl, ← hr, ← List.zip_eq_zipWith]
  exact List.zip_of_prod rfl rfl

/-- A consumer that waits has handed on all there is. -/
theorem pairs_eq_of_waiting (h : Rendezvous left right pairs x none queueL queueR)
    (hw : x = none ∧ queueL = [] ∨ queueR = []) : pairs = left.zip right := by
  refine h.pairs_eq_zip.trans (List.take_of_length_le ?_)
  rw [List.length_zip]
  rcases hw with ⟨rfl, rfl⟩ | rfl
  · refine min_le_of_left_le ?_
    rw [h.left_eq]
    simp
  · refine min_le_of_right_le ?_
    rw [h.right_eq]
    simp

end Rendezvous

end Fifo
