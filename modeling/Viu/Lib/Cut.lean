/-
# Cutting a list

Where a condition ends a list can be cut in only one way (`append_inj`). So a
list that is made of groups, each with a head and no other, is cut into its
groups (`groups_inj`); and a list of lists whose elements tell the number of
their list is determined by its elements in a row (`flatten_inj`).
-/
import Mathlib.Data.List.TakeWhile

namespace Cut

variable {α β : Type*} {c : α → Bool} {w w' rest rest' : List α}

theorem dropWhile_stop (hrest : ∀ x ∈ rest.head?, c x = false) : rest.dropWhile c = rest := by
  cases rest with
  | nil => rfl
  | cons x rest =>
    have hx : c x = false := hrest x rfl
    exact List.dropWhile_cons_of_neg (by simp [hx])

theorem takeWhile_stop (hrest : ∀ x ∈ rest.head?, c x = false) : rest.takeWhile c = [] := by
  have hsplit := List.takeWhile_append_dropWhile (p := c) (l := rest)
  rw [dropWhile_stop hrest] at hsplit
  exact List.append_left_eq_self.mp hsplit

theorem dropWhile_append (hw : ∀ x ∈ w, c x = true) (hrest : ∀ x ∈ rest.head?, c x = false) :
    (w ++ rest).dropWhile c = rest := by
  rw [List.dropWhile_append_of_pos hw, dropWhile_stop hrest]

theorem takeWhile_append (hw : ∀ x ∈ w, c x = true) (hrest : ∀ x ∈ rest.head?, c x = false) :
    (w ++ rest).takeWhile c = w := by
  rw [List.takeWhile_append_of_pos hw, takeWhile_stop hrest, List.append_nil]

theorem exists_append {n : ℕ} (h : n ≤ w.length) : ∃ u v, w = u ++ v ∧ u.length = n :=
  ⟨w.take n, w.drop n, (List.take_append_drop n w).symm, List.length_take_of_le h⟩

/-- The first element that does not meet the condition. -/
theorem exists_stop (h : ¬ ∀ x ∈ w, c x = true) :
    ∃ w₁ x w₂, w = w₁ ++ x :: w₂ ∧ (∀ y ∈ w₁, c y = true) ∧ c x = false := by
  have hne : w.dropWhile c ≠ [] := fun hnil => h (List.dropWhile_eq_nil_iff.mp hnil)
  obtain ⟨x, w₂, hx⟩ := List.exists_cons_of_ne_nil hne
  refine ⟨w.takeWhile c, x, w₂, ?_, fun y hy => List.mem_takeWhile_imp hy, ?_⟩
  · rw [← hx, List.takeWhile_append_dropWhile]
  · have hhead := List.head_dropWhile_not c hne
    simpa [hx] using hhead

theorem append_inj (h : w ++ rest = w' ++ rest') (hw : ∀ x ∈ w, c x = true) (hw' : ∀ x ∈ w', c x = true)
    (hrest : ∀ x ∈ rest.head?, c x = false) (hrest' : ∀ x ∈ rest'.head?, c x = false) : w = w' ∧ rest = rest' := by
  have htake := takeWhile_append hw hrest
  have hdrop := dropWhile_append hw hrest
  rw [h] at htake hdrop
  exact ⟨htake.symm.trans (takeWhile_append hw' hrest'), hdrop.symm.trans (dropWhile_append hw' hrest')⟩

/-! ### Groups -/

section groups

variable {head : β → α} {tail : β → List α}

/-- The head of a group, and its tail. -/
def group (head : β → α) (tail : β → List α) (b : β) : List α := head b :: tail b

/-- `c` is what is no head. -/
structure IsGroup (c : α → Bool) (head : β → α) (tail : β → List α) (b : β) : Prop where
  head : c (head b) = false
  tail : ∀ x ∈ tail b, c x = true

theorem head_groups {bs : List β} (h : ∀ b ∈ bs, IsGroup c head tail b) :
    ∀ x ∈ (bs.flatMap (group head tail)).head?, c x = false := by
  cases bs with
  | nil => exact fun x hx => nomatch hx
  | cons b bs =>
    intro x hx
    rw [← Option.some.inj hx]
    exact (h b List.mem_cons_self).head

/-- Groups behind what is no head: both are determined. -/
theorem groups_inj : ∀ {bs bs' : List β} {w w' : List α},
    w ++ bs.flatMap (group head tail) = w' ++ bs'.flatMap (group head tail) →
    (∀ x ∈ w, c x = true) → (∀ x ∈ w', c x = true) →
    (∀ b ∈ bs, IsGroup c head tail b) → (∀ b ∈ bs', IsGroup c head tail b) →
      w = w' ∧ bs.map (fun b => (head b, tail b)) = bs'.map fun b => (head b, tail b)
  | bs, bs', w, w', h, hw, hw', hbs, hbs' => by
    obtain ⟨hpre, hgroups⟩ := append_inj h hw hw' (head_groups hbs) (head_groups hbs')
    refine ⟨hpre, ?_⟩
    match bs, bs' with
    | [], [] => rfl
    | [], b' :: bs' => cases hgroups
    | b :: bs, [] => cases hgroups
    | b :: bs, b' :: bs' =>
      obtain ⟨hhead, htail⟩ := List.cons.inj hgroups
      obtain ⟨hone, hrest⟩ := groups_inj htail (hbs b List.mem_cons_self).tail (hbs' b' List.mem_cons_self).tail
        (fun x hx => hbs x (List.mem_cons_of_mem b hx)) (fun x hx => hbs' x (List.mem_cons_of_mem b' hx))
      rw [List.map_cons, List.map_cons, hhead, hone, hrest]

end groups

/-- Lists with the same images under `f` have the same under `g`, if that holds of their
elements. -/
theorem map_eq_of_map_eq {γ δ : Type*} {f : β → γ} {g : β → δ} : ∀ {xs ys : List β}, xs.map f = ys.map f →
    (∀ x ∈ xs, ∀ y ∈ ys, f x = f y → g x = g y) → xs.map g = ys.map g
  | [], [], _, _ => rfl
  | [], y :: ys, h, _ => by cases h
  | x :: xs, [], h, _ => by cases h
  | x :: xs, y :: ys, h, hg => by
    obtain ⟨hone, hrest⟩ := List.cons.inj h
    rw [List.map_cons, List.map_cons, hg x List.mem_cons_self y List.mem_cons_self hone,
      map_eq_of_map_eq hrest fun x' hx y' hy => hg x' (List.mem_cons_of_mem x hx) y' (List.mem_cons_of_mem y hy)]

/-! ### Numbered lists -/

section numbered

variable {num : α → ℕ}

/-- The lists are not empty, and their elements have the number of their list, from
`k` on. -/
def Numbered (num : α → ℕ) : ℕ → List (List α) → Prop
  | _, [] => True
  | k, xs :: xss => xs ≠ [] ∧ (∀ x ∈ xs, num x = k) ∧ Numbered num (k + 1) xss

theorem Numbered.head {k : ℕ} {xss : List (List α)} (h : Numbered num k xss) :
    ∀ x ∈ xss.flatten.head?, num x = k := by
  cases xss with
  | nil => exact fun x hx => nomatch hx
  | cons xs xss =>
    obtain ⟨hne, hxs, -⟩ := h
    obtain ⟨y, ys, rfl⟩ := List.exists_cons_of_ne_nil hne
    intro x hx
    rw [← Option.some.inj hx]
    exact hxs y List.mem_cons_self

theorem Numbered.map {γ : Type*} {num' : γ → ℕ} {f : α → γ} (hf : ∀ x, num' (f x) = num x) :
    ∀ {k : ℕ} {xss : List (List α)}, Numbered num k xss → Numbered num' k (xss.map (List.map f))
  | _, [], _ => trivial
  | k, xs :: xss, h => by
    refine ⟨by simpa using h.1, fun y hy => ?_, h.2.2.map hf⟩
    obtain ⟨x, hx, rfl⟩ := List.mem_map.mp hy
    rw [hf]
    exact h.2.1 x hx

theorem flatten_inj : ∀ {k : ℕ} {xss yss : List (List α)}, Numbered num k xss → Numbered num k yss →
    xss.flatten = yss.flatten → xss = yss
  | _, [], [], _, _, _ => rfl
  | _, [], ys :: yss, _, hy, h => by
    rw [List.flatten_nil, List.flatten_cons, eq_comm, List.append_eq_nil_iff] at h
    exact absurd h.1 hy.1
  | _, xs :: xss, [], hx, _, h => by
    rw [List.flatten_nil, List.flatten_cons, List.append_eq_nil_iff] at h
    exact absurd h.1 hx.1
  | k, xs :: xss, ys :: yss, hx, hy, h => by
    rw [List.flatten_cons, List.flatten_cons] at h
    obtain ⟨hone, hrest⟩ := append_inj (c := fun x => num x = k) h
      (fun x hmem => decide_eq_true (hx.2.1 x hmem)) (fun x hmem => decide_eq_true (hy.2.1 x hmem))
      (fun x hmem => decide_eq_false (by have := hx.2.2.head x hmem; omega))
      (fun x hmem => decide_eq_false (by have := hy.2.2.head x hmem; omega))
    rw [hone, flatten_inj hx.2.2 hy.2.2 hrest]

end numbered

end Cut
