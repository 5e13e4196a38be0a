/-
# Elements that move

A growing array and references to its elements. When the array grows past its
capacity its elements move, and the references from before denote nothing any
more; as long as there is room they are the same (`ref_push`).
-/
import Mathlib.Data.List.Basic

structure Storage (α : Type*) where
  elems : List α
  capacity : ℕ
  /-- How often the elements have moved. -/
  moves : ℕ
  length_le : elems.length ≤ capacity

namespace Storage

variable {α : Type*} (s : Storage α)

/-- A reference to an element where it was after so many moves. -/
structure Ref where
  moves : ℕ
  index : ℕ
  deriving DecidableEq, Repr

def empty (α : Type*) : Storage α := ⟨[], 0, 0, Nat.le_refl 0⟩

def reserve (n : ℕ) : Storage α :=
  if h : n ≤ s.capacity then s
  else ⟨s.elems, n, s.moves + 1, Nat.le_trans s.length_le (Nat.le_of_not_le h)⟩

/-- Without room the capacity doubles. -/
def push (a : α) : Storage α :=
  if h : s.elems.length < s.capacity then ⟨s.elems ++ [a], s.capacity, s.moves, by rwa [List.length_append]⟩
  else ⟨s.elems ++ [a], s.elems.length + max s.elems.length 1, s.moves + 1, by
    rw [List.length_append]
    exact Nat.add_le_add_left (Nat.le_max_right _ 1) _⟩

def ref (i : ℕ) : Ref := ⟨s.moves, i⟩

/-- What a reference denotes. -/
def get? (r : Ref) : Option α := if r.moves = s.moves then s.elems[r.index]? else none

@[simp] theorem elems_empty : (empty α).elems = [] := rfl

@[simp] theorem elems_reserve (n : ℕ) : (s.reserve n).elems = s.elems := by
  unfold reserve
  split <;> rfl

theorem le_capacity_reserve (n : ℕ) : n ≤ (s.reserve n).capacity := by
  unfold reserve
  split
  · assumption
  · exact Nat.le_refl n

@[simp] theorem elems_push (a : α) : (s.push a).elems = s.elems ++ [a] := by
  unfold push
  split <;> rfl

variable {s}

theorem moves_push (h : s.elems.length < s.capacity) (a : α) : (s.push a).moves = s.moves := by
  rw [push, dif_pos h]

theorem capacity_push (h : s.elems.length < s.capacity) (a : α) : (s.push a).capacity = s.capacity := by
  rw [push, dif_pos h]

@[simp] theorem get?_ref (i : ℕ) : s.get? (s.ref i) = s.elems[i]? := if_pos rfl

/-- With room, references outlive a push. -/
theorem ref_push (h : s.elems.length < s.capacity) (a : α) (i : ℕ) : (s.push a).ref i = s.ref i := by
  rw [ref, ref, moves_push h]

end Storage
