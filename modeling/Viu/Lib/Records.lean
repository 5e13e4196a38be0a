/-
# Records that begin with their length

The first element of a record tells how long the record is. A stream of records
is walked by these lengths (`walk`), and the walk gives back just the records
(`walk_flatten`, `walk_eq_some_iff`).
-/
import Mathlib.Data.List.Basic

namespace Records

variable {τ : Type*} {size : τ → ℕ} {least : ℕ} {d s : List τ} {ds ds' : List (List τ)}

/-- A record of `least` elements at least. -/
def IsRecord (size : τ → ℕ) (least : ℕ) (d : List τ) : Prop :=
  ∃ x ∈ d.head?, size x = d.length ∧ least ≤ d.length

/-- The records of a stream, if it ends with the last of them; `n` is how many
there are at most. -/
def walkUpTo (size : τ → ℕ) (least : ℕ) : ℕ → List τ → Option (List (List τ))
  | _, [] => some []
  | 0, _ :: _ => none
  | n + 1, x :: s =>
    if least ≤ size x ∧ size x ≤ (x :: s).length then
      (walkUpTo size least n ((x :: s).drop (size x))).map fun ds => (x :: s).take (size x) :: ds
    else none

def walk (size : τ → ℕ) (least : ℕ) (s : List τ) : Option (List (List τ)) := walkUpTo size least s.length s

theorem walkUpTo_flatten (hleast : 0 < least) : ∀ (ds : List (List τ)) (n : ℕ), ds.flatten.length ≤ n →
    (∀ d ∈ ds, IsRecord size least d) → walkUpTo size least n ds.flatten = some ds
  | [], n, _, _ => by cases n <;> rfl
  | d :: ds, n, hn, h => by
    obtain ⟨x, hx, hsize, hlen⟩ := h d List.mem_cons_self
    obtain ⟨d, rfl⟩ : ∃ d', d = x :: d' := by
      cases d with
      | nil => cases hx
      | cons y d => exact ⟨d, by rw [Option.some.inj hx]⟩
    rw [List.flatten_cons, List.length_append] at hn
    cases n with
    | zero => simp at hn
    | succ n =>
      have hds := walkUpTo_flatten hleast ds n (by rw [List.length_cons] at hn; omega)
        fun d' hd' => h d' (List.mem_cons_of_mem _ hd')
      have hfits : size x ≤ (x :: (d ++ ds.flatten)).length := by
        rw [hsize, ← List.cons_append, List.length_append]
        exact Nat.le_add_right _ _
      rw [List.flatten_cons, List.cons_append, walkUpTo, if_pos ⟨by omega, hfits⟩, ← List.cons_append, hsize,
        List.drop_left, List.take_left, hds]
      rfl

theorem walk_flatten (hleast : 0 < least) (h : ∀ d ∈ ds, IsRecord size least d) :
    walk size least ds.flatten = some ds := walkUpTo_flatten hleast ds _ (Nat.le_refl _) h

theorem of_walkUpTo (hleast : 0 < least) : ∀ (n : ℕ) {s : List τ} {ds : List (List τ)},
    walkUpTo size least n s = some ds → ds.flatten = s ∧ ∀ d ∈ ds, IsRecord size least d
  | n, [], ds, h => by
    have hds : ds = [] := by
      cases n <;> exact (Option.some.inj h).symm
    subst hds
    exact ⟨rfl, fun d hd => nomatch hd⟩
  | n + 1, x :: s, ds, h => by
    rw [walkUpTo] at h
    obtain ⟨⟨hlow, hhigh⟩, h⟩ := Option.ite_none_right_eq_some.mp h
    obtain ⟨ds, hds, rfl⟩ := Option.map_eq_some_iff.mp h
    obtain ⟨hflat, hall⟩ := of_walkUpTo hleast n hds
    refine ⟨by rw [List.flatten_cons, hflat, List.take_append_drop], fun d hd => ?_⟩
    rcases List.mem_cons.mp hd with rfl | hd
    · have hlen : ((x :: s).take (size x)).length = size x := List.length_take_of_le hhigh
      refine ⟨x, ?_, hlen.symm, by omega⟩
      obtain ⟨k, hk⟩ := Nat.exists_eq_succ_of_ne_zero (by omega : size x ≠ 0)
      rw [hk]
      rfl
    · exact hall d hd

/-- A walk that ends with the stream has found its records. -/
theorem walk_eq_some_iff (hleast : 0 < least) :
    walk size least s = some ds ↔ s = ds.flatten ∧ ∀ d ∈ ds, IsRecord size least d := by
  refine ⟨fun h => ?_, fun ⟨hs, h⟩ => hs ▸ walk_flatten hleast h⟩
  obtain ⟨hflat, hall⟩ := of_walkUpTo hleast _ h
  exact ⟨hflat.symm, hall⟩

end Records
