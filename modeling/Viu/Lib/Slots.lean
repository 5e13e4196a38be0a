/-
# Slots of a buffer

A buffer is cut into slots, one after the other. A slot has a length and uses
a part of it, from its start. `gather` puts the used parts side by side;
`Packed` says the same of each part by itself: where it stands in the data
and where in the buffer.

Gathering only some of the slots, as if the others were not there, reads the
right bytes of every buffer exactly when the others use nothing and, unless
they have no length, nothing is used behind them (`gather_filter_iff`).
-/
import Mathlib.Algebra.BigOperators.Group.List.Basic
import Mathlib.Algebra.Order.BigOperators.Group.List
import Mathlib.Data.List.Basic
import Mathlib.Tactic.Ring

namespace Slots

variable {ι β : Type*} (len used : ι → ℕ)

/-- The lengths together, and what is used of them. -/
def room (slots : List ι) : ℕ := (slots.map len).sum
def size (slots : List ι) : ℕ := (slots.map used).sum

/-- The used parts of the slots from `offset` on. -/
def gather (buffer : List β) : ℕ → List ι → List β
  | _, [] => []
  | offset, i :: rest => (buffer.drop offset).take (used i) ++ gather buffer (offset + len i) rest

/-- Each slot uses no more than it has, and the buffer holds them all. -/
structure Fits (n : ℕ) (slots : List ι) : Prop where
  used_le : ∀ i ∈ slots, used i ≤ len i
  room_le : room len slots ≤ n

/-- Each part stands behind those before it. -/
structure Packed (buffer : List β) (slots : List ι) (data : List β) : Prop where
  length : data.length = size used slots
  part : ∀ k (hk : k < slots.length), (data.drop (size used (slots.take k))).take (used slots[k]) =
    (buffer.drop (room len (slots.take k))).take (used slots[k])

variable {len used}

@[simp] theorem room_nil : room len ([] : List ι) = 0 := rfl
@[simp] theorem size_nil : size used ([] : List ι) = 0 := rfl

@[simp] theorem room_cons (i : ι) (rest : List ι) : room len (i :: rest) = len i + room len rest := by
  simp [room]

@[simp] theorem size_cons (i : ι) (rest : List ι) : size used (i :: rest) = used i + size used rest := by
  simp [size]

theorem size_append (xs ys : List ι) : size used (xs ++ ys) = size used xs + size used ys := by
  simp [size]

theorem size_filter (keep : ι → Bool) (slots : List ι) :
    size used slots = size used (slots.filter keep) + size used (slots.filter fun i => !keep i) := by
  induction slots with
  | nil => rfl
  | cons i rest ih =>
    by_cases hi : keep i = true
    · simp only [List.filter_cons, hi, ↓reduceIte, Bool.not_true, Bool.false_eq_true, size_cons, ih]
      ring
    · rw [Bool.not_eq_true] at hi
      simp only [List.filter_cons, hi, Bool.false_eq_true, ↓reduceIte, Bool.not_false, size_cons, ih]
      ring

theorem Fits.cons {n : ℕ} {i : ι} {rest : List ι} (h : Fits len used n (i :: rest)) :
    used i ≤ len i ∧ len i + room len rest ≤ n := by
  have hroom := h.room_le
  rw [room_cons] at hroom
  exact ⟨h.used_le i List.mem_cons_self, hroom⟩

theorem Fits.tail {n : ℕ} {i : ι} {rest : List ι} (h : Fits len used n (i :: rest)) :
    Fits len used (n - len i) rest where
  used_le := fun j hj => h.used_le j (List.mem_cons_of_mem _ hj)
  room_le := by
    have := h.cons.2
    omega

theorem Fits.filter {n : ℕ} {slots : List ι} (h : Fits len used n slots) (keep : ι → Bool) :
    Fits len used n (slots.filter keep) where
  used_le := fun i hi => h.used_le i (List.mem_of_mem_filter hi)
  room_le := by
    refine le_trans ?_ h.room_le
    exact (List.filter_sublist.map len).sum_le_sum fun _ _ => Nat.zero_le _

theorem Fits.take {n : ℕ} {slots : List ι} (h : Fits len used n slots) (k : ℕ) :
    Fits len used n (slots.take k) where
  used_le := fun i hi => h.used_le i (List.mem_of_mem_take hi)
  room_le := by
    refine le_trans ?_ h.room_le
    exact ((List.take_sublist k slots).map len).sum_le_sum fun _ _ => Nat.zero_le _

/-- The slots up to the `k`-th, the `k`-th, and the rest. -/
theorem split_at {slots : List ι} {k : ℕ} (hk : k < slots.length) :
    slots = slots.take k ++ slots[k] :: slots.drop (k + 1) := by
  rw [← List.drop_eq_getElem_cons hk, List.take_append_drop]

theorem room_append (xs ys : List ι) : room len (xs ++ ys) = room len xs + room len ys := by
  simp [room]

/-- Each part lies in the buffer. -/
theorem Fits.part_le {n : ℕ} {slots : List ι} (h : Fits len used n slots) {k : ℕ} (hk : k < slots.length) :
    room len (slots.take k) + used slots[k] ≤ n := by
  have hroom : room len slots = room len (slots.take k) + (len slots[k] + room len (slots.drop (k + 1))) := by
    rw [← room_cons, ← room_append, ← split_at hk]
  have h1 := h.used_le _ (List.getElem_mem hk)
  have h2 := h.room_le
  omega

/-! ### What is gathered -/

/-- With the slots inside the buffer nothing is cut short. -/
theorem length_gather {buffer : List β} {slots : List ι} {offset : ℕ}
    (h : Fits len used (buffer.length - offset) slots) (ho : offset ≤ buffer.length) :
    (gather len used buffer offset slots).length = size used slots := by
  induction slots generalizing offset with
  | nil => rfl
  | cons i rest ih =>
    obtain ⟨hu, hr⟩ := h.cons
    have htail : Fits len used (buffer.length - (offset + len i)) rest := by
      rw [← Nat.sub_sub]
      exact h.tail
    rw [gather, List.length_append, ih htail (by omega), List.length_take, List.length_drop, size_cons]
    omega

theorem gather_append (buffer : List β) (xs ys : List ι) (offset : ℕ) :
    gather len used buffer offset (xs ++ ys) =
      gather len used buffer offset xs ++ gather len used buffer (offset + room len xs) ys := by
  induction xs generalizing offset with
  | nil => rfl
  | cons i rest ih =>
    rw [List.cons_append, gather, ih, gather, room_cons, List.append_assoc, Nat.add_assoc]

theorem gather_eq_nil {buffer : List β} {slots : List ι} (h : ∀ i ∈ slots, used i = 0) (offset : ℕ) :
    gather len used buffer offset slots = [] := by
  induction slots generalizing offset with
  | nil => rfl
  | cons i rest ih =>
    rw [gather, h i List.mem_cons_self, List.take_zero, List.nil_append,
      ih fun j hj => h j (List.mem_cons_of_mem _ hj)]

theorem gather_drop (buffer : List β) (m : ℕ) (slots : List ι) (offset : ℕ) :
    gather len used (buffer.drop m) offset slots = gather len used buffer (m + offset) slots := by
  induction slots generalizing offset with
  | nil => rfl
  | cons i rest ih => rw [gather, gather, ih, List.drop_drop, Nat.add_assoc]

theorem packed_gather {buffer : List β} {slots : List ι} (h : Fits len used buffer.length slots) :
    Packed len used buffer slots (gather len used buffer 0 slots) where
  length := length_gather (by rwa [Nat.sub_zero]) (Nat.zero_le _)
  part := by
    intro k hk
    set pre := slots.take k with hpre
    have hsplit : slots = pre ++ slots[k] :: slots.drop (k + 1) := split_at hk
    have hfit : Fits len used buffer.length pre := h.take k
    have hpart : room len pre + used slots[k] ≤ buffer.length := h.part_le hk
    have hlen : (gather len used buffer 0 pre).length = size used pre :=
      length_gather (by rwa [Nat.sub_zero]) (Nat.zero_le _)
    have htake : ((buffer.drop (room len pre)).take (used slots[k])).length = used slots[k] := by
      rw [List.length_take, List.length_drop]
      omega
    have hgather : gather len used buffer 0 slots = gather len used buffer 0 pre ++
        ((buffer.drop (room len pre)).take (used slots[k]) ++
          gather len used buffer (room len pre + len slots[k]) (slots.drop (k + 1))) := by
      conv_lhs => rw [hsplit]
      rw [gather_append, Nat.zero_add, gather]
    rw [hgather, ← hlen, List.drop_left, List.take_left' htake]

theorem Packed.tail {buffer data : List β} {i : ι} {rest : List ι} (h : Packed len used buffer (i :: rest) data) :
    Packed len used (buffer.drop (len i)) rest (data.drop (used i)) where
  length := by
    have := h.length
    rw [size_cons] at this
    rw [List.length_drop]
    omega
  part := by
    intro k hk
    have := h.part (k + 1) (Nat.succ_lt_succ hk)
    simp only [List.take_succ_cons, size_cons, room_cons, List.getElem_cons_succ] at this
    rw [List.drop_drop, List.drop_drop]
    exact this

/-- Only the gathered parts are packed. -/
theorem Packed.eq_gather {buffer data : List β} {slots : List ι} (h : Packed len used buffer slots data) :
    data = gather len used buffer 0 slots := by
  induction slots generalizing buffer data with
  | nil => exact List.eq_nil_of_length_eq_zero h.length
  | cons i rest ih =>
    have hfirst := h.part 0 (Nat.zero_lt_succ _)
    simp only [List.take_zero, size_nil, room_nil, List.drop_zero, List.getElem_cons_zero] at hfirst
    have hrest := ih h.tail
    rw [gather_drop, Nat.add_zero] at hrest
    rw [gather, Nat.zero_add, List.drop_zero, ← hfirst, ← hrest, List.take_append_drop]

/-- Slots used to the end leave nothing out. -/
theorem gather_full {buffer : List β} {slots : List ι} (h : ∀ i ∈ slots, used i = len i) (offset : ℕ) :
    gather len used buffer offset slots = (buffer.drop offset).take (room len slots) := by
  induction slots generalizing offset with
  | nil => simp [gather]
  | cons i rest ih =>
    rw [gather, ih fun j hj => h j (List.mem_cons_of_mem _ hj), h i List.mem_cons_self, room_cons,
      ← List.drop_drop, ← List.take_add]

/-! ### Some of the slots only -/

/-- The slots that are left out use nothing; behind one that has a length
nothing is used at all. -/
def InPlace (len used : ι → ℕ) (keep : ι → Bool) (slots : List ι) : Prop :=
  (∀ i ∈ slots, keep i = false → used i = 0) ∧
    slots.Pairwise fun i j => keep i = false → 0 < len i → used j = 0

variable {keep : ι → Bool}

theorem gather_filter {buffer : List β} {slots : List ι} (h : InPlace len used keep slots) (offset : ℕ) :
    gather len used buffer offset (slots.filter keep) = gather len used buffer offset slots := by
  induction slots generalizing offset with
  | nil => rfl
  | cons i rest ih =>
    obtain ⟨hused, hpair⟩ := h
    obtain ⟨hi, hrest⟩ := List.pairwise_cons.mp hpair
    have hin : InPlace len used keep rest := ⟨fun j hj => hused j (List.mem_cons_of_mem _ hj), hrest⟩
    cases hk : keep i with
    | true => rw [List.filter_cons_of_pos hk, gather, gather, ih hin]
    | false =>
      rw [List.filter_cons_of_neg (by rw [hk]; exact Bool.false_ne_true), gather, hused i List.mem_cons_self hk,
        List.take_zero, List.nil_append]
      rcases Nat.eq_zero_or_pos (len i) with h0 | hpos
      · rw [h0, ih hin, Nat.add_zero]
      · have hnone : ∀ j ∈ rest, used j = 0 := fun j hj => hi j hj hk hpos
        rw [gather_eq_nil hnone, gather_eq_nil fun j hj => hnone j (List.mem_of_mem_filter hj)]

/-- `data` on `n` places, with `z` on those it leaves. -/
def pad (z : β) (n : ℕ) (data : List β) : List β := data.take n ++ List.replicate (n - data.length) z

theorem pad_length (z : β) (data : List β) : pad z data.length data = data := by
  simp [pad]

theorem gather_replicate (u : β) {n : ℕ} {slots : List ι} {offset : ℕ} (h : Fits len used (n - offset) slots)
    (ho : offset ≤ n) : gather len used (List.replicate n u) offset slots = List.replicate (size used slots) u := by
  induction slots generalizing offset with
  | nil => rfl
  | cons i rest ih =>
    obtain ⟨hu, hr⟩ := h.cons
    have htail : Fits len used (n - (offset + len i)) rest := by
      rw [← Nat.sub_sub]
      exact h.tail
    rw [gather, ih htail (by omega), List.drop_replicate, List.take_replicate, size_cons, List.replicate_add,
      Nat.min_eq_left (by omega)]

theorem size_filter_eq {slots : List ι} (h : ∀ i ∈ slots, keep i = false → used i = 0) :
    size used (slots.filter keep) = size used slots := by
  have hnone : size used (slots.filter fun i => !keep i) = 0 := by
    refine List.sum_eq_zero fun m hm => ?_
    obtain ⟨i, hi, rfl⟩ := List.mem_map.mp hm
    obtain ⟨hi, hki⟩ := List.mem_filter.mp hi
    exact h i hi (by simpa using hki)
  rw [size_filter keep slots, hnone, Nat.add_zero]

/-- What is left out uses nothing, if the padding is never seen. -/
theorem used_eq_zero {z u : β} (hzu : z ≠ u) {n : ℕ} {slots : List ι} (hfit : Fits len used n slots)
    (h : pad z (size used slots) (gather len used (List.replicate n u) 0 (slots.filter keep)) =
      gather len used (List.replicate n u) 0 slots) : ∀ i ∈ slots, keep i = false → used i = 0 := by
  rw [gather_replicate u (by rw [Nat.sub_zero]; exact hfit.filter keep) (Nat.zero_le _),
    gather_replicate u (by rwa [Nat.sub_zero]) (Nat.zero_le _)] at h
  have hnone : size used (slots.filter fun i => !keep i) = 0 := by
    by_contra hpos
    have hsum : size used slots = _ := size_filter keep slots
    have hz : z ∈ List.replicate (size used slots) u := by
      rw [← h, pad, List.length_replicate]
      exact List.mem_append_right _ (List.mem_replicate.mpr ⟨by omega, rfl⟩)
    exact hzu (List.eq_of_mem_replicate hz)
  intro i hi hk
  have hmem : used i ∈ (slots.filter fun i => !keep i).map used :=
    List.mem_map_of_mem (List.mem_filter.mpr ⟨hi, by rw [hk]; rfl⟩)
  have := List.single_le_sum (fun _ _ => Nat.zero_le _) _ hmem
  rw [size] at hnone
  omega

/-- A part in use starts where it is read. -/
theorem getElem?_of_take_drop {buffer : List β} {m n k : ℕ} (hk : 0 < k)
    (h : (buffer.drop m).take k = (buffer.drop n).take k) : buffer[m]? = buffer[n]? := by
  have hhead := congrArg (·[0]?) h
  simpa [List.getElem?_take_of_lt hk] using hhead

/-- Nothing is used behind a slot that is left out, if no byte is read from the
wrong place. -/
theorem pairwise_of_gather {z u : β} (hzu : z ≠ u) {n : ℕ} {slots : List ι} (hfit : Fits len used n slots)
    (hused : ∀ i ∈ slots, keep i = false → used i = 0)
    (h : ∀ buffer : List β, buffer.length = n →
      gather len used buffer 0 (slots.filter keep) = gather len used buffer 0 slots) :
    slots.Pairwise fun i j => keep i = false → 0 < len i → used j = 0 := by
  rw [List.pairwise_iff_getElem]
  intro a b ha hb hab hk hlen
  by_contra hpos
  set pre := slots.take b with hpre
  have hsplit : slots = pre ++ slots[b] :: slots.drop (b + 1) := split_at hb
  have hkeep : keep slots[b] = true := by
    by_contra hn
    exact hpos (hused _ (List.getElem_mem hb) (Bool.not_eq_true _ ▸ hn))
  have hmem : slots[a] ∈ pre := List.mem_take_iff_getElem.mpr ⟨a, by omega, rfl⟩
  have hpreUsed : size used (pre.filter keep) = size used pre :=
    size_filter_eq fun i hi => hused i (List.mem_of_mem_take hi)
  have hshift : room len (pre.filter keep) < room len pre := by
    have hsum : size len pre = _ := size_filter keep pre
    have hle : len slots[a] ≤ size len (pre.filter fun i => !keep i) :=
      List.single_le_sum (fun _ _ => Nat.zero_le _) _
        (List.mem_map_of_mem (List.mem_filter.mpr ⟨hmem, by rw [hk]; rfl⟩))
    change size len (pre.filter keep) < size len pre
    omega
  have hin : room len pre + used slots[b] ≤ n := hfit.part_le hb
  -- the buffer with its only `u` where the part behind begins
  set buffer := List.replicate (room len pre) z ++ u :: List.replicate (n - room len pre - 1) z with hbuffer
  have hblen : buffer.length = n := by
    rw [hbuffer, List.length_append, List.length_cons, List.length_replicate, List.length_replicate]
    omega
  have hall := h buffer hblen
  have hpreFit : Fits len used (buffer.length - 0) pre := by
    rw [hblen, Nat.sub_zero]
    exact hfit.take b
  have hl := length_gather (hpreFit.filter keep) (Nat.zero_le _)
  have hr := length_gather hpreFit (Nat.zero_le _)
  have hsame : (gather len used buffer 0 (pre.filter keep)).length = (gather len used buffer 0 pre).length := by
    rw [hl, hr, hpreUsed]
  have hall := h buffer hblen
  rw [hsplit, List.filter_append, List.filter_cons_of_pos hkeep, gather_append, gather_append, gather, gather] at hall
  obtain ⟨-, hrest⟩ := List.append_inj hall hsame
  simp only [Nat.zero_add] at hrest
  have hpart : ∀ m, m + used slots[b] ≤ n → ((buffer.drop m).take (used slots[b])).length = used slots[b] := by
    intro m hm
    rw [List.length_take, List.length_drop]
    omega
  obtain ⟨hread, -⟩ := List.append_inj hrest (by rw [hpart _ (by omega), hpart _ hin])
  have hbyte := getElem?_of_take_drop (by omega) hread
  rw [hbuffer, List.getElem?_append_left (by rw [List.length_replicate]; exact hshift),
    List.getElem?_append_right (by rw [List.length_replicate]), List.length_replicate, Nat.sub_self,
    List.getElem?_replicate_of_lt hshift, List.getElem?_cons_zero] at hbyte
  exact hzu (Option.some.inj hbyte)

/-- Leaving slots out does not show in any buffer just when it can do no harm. -/
theorem gather_filter_iff {z u : β} (hzu : z ≠ u) {n : ℕ} {slots : List ι} (hfit : Fits len used n slots) :
    (∀ buffer : List β, buffer.length = n →
      pad z (size used slots) (gather len used buffer 0 (slots.filter keep)) = gather len used buffer 0 slots) ↔
      InPlace len used keep slots := by
  have hpad : ∀ buffer : List β, buffer.length = n →
      pad z (size used slots) (gather len used buffer 0 slots) = gather len used buffer 0 slots := by
    intro buffer hb
    rw [← length_gather (by rwa [hb, Nat.sub_zero]) (Nat.zero_le _)]
    exact pad_length z _
  refine ⟨fun h => ?_, fun h buffer hb => by rw [gather_filter h, hpad buffer hb]⟩
  have hused := used_eq_zero hzu hfit (h _ List.length_replicate)
  refine ⟨hused, pairwise_of_gather hzu hfit hused fun buffer hb => ?_⟩
  have hlen := length_gather (by rw [hb, Nat.sub_zero]; exact hfit.filter keep)
    (Nat.zero_le _)
  rw [← h buffer hb, ← size_filter_eq hused, ← hlen, pad_length]

end Slots
