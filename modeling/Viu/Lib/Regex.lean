/-
# Regular expressions with groups

The regular expressions that repeat only single characters, as a backtracking
engine matches them: `r.ways s` are the ways to match `r` at the front of `s`,
in the order in which the engine comes to them, a repetition as long as it can
be first. A way has the texts of the groups and what is left of `s`. `search`
takes the first way at the first place that has one.

What comes first is found piece by piece (`First.seq`, `First.plus`), whatever
the engine would try after it. No way uses a character that the expression does
not (`ways_uses`), and every way uses those it cannot do without
(`ways_needs`); so a text without one of these has no match (`search_none`),
and a piece that cannot hold a whole match, in front of one that begins anew,
is passed over (`search_skip`).
-/
import Viu.Lib.Cut

inductive Regex (τ : Type*)
  | lit (w : List τ)
  | star (c : τ → Bool)
  | plus (c : τ → Bool)
  | seq (r q : Regex τ)
  | alt (r q : Regex τ)
  | group (r : Regex τ)

namespace Regex

variable {τ : Type*} {c : τ → Bool} {s w rest rest' : List τ}

/-! ### Repetition -/

/-- What is left behind a repetition, the shortest rest first. -/
def starRests (c : τ → Bool) : List τ → List (List τ)
  | [] => [[]]
  | x :: s => if c x then starRests c s ++ [x :: s] else [x :: s]

/-- What is left behind a repetition of at least one. -/
def plusRests (c : τ → Bool) : List τ → List (List τ)
  | [] => []
  | x :: s => if c x then starRests c s else []

theorem head?_starRests (hw : ∀ x ∈ w, c x = true) (hrest : ∀ x ∈ rest.head?, c x = false) :
    (starRests c (w ++ rest)).head? = some rest := by
  induction w with
  | nil =>
    cases rest with
    | nil => rfl
    | cons y rest =>
      have hy : c y = false := hrest y rfl
      simp [starRests, hy]
  | cons x w ih =>
    have hx : c x = true := hw x List.mem_cons_self
    rw [List.cons_append, starRests, if_pos hx, List.head?_append, ih fun y hy => hw y (List.mem_cons_of_mem x hy)]
    rfl

theorem mem_starRests : ∀ {s rest : List τ}, rest ∈ starRests c s → ∃ w, s = w ++ rest ∧ ∀ x ∈ w, c x = true
  | [], rest, h => ⟨[], (List.mem_singleton.mp h).symm, fun _ hx => nomatch hx⟩
  | y :: s, rest, h => by
    by_cases hy : c y = true
    · rw [starRests, if_pos hy, List.mem_append, List.mem_singleton] at h
      rcases h with h | rfl
      · obtain ⟨w, rfl, hw⟩ := mem_starRests h
        exact ⟨y :: w, rfl, List.forall_mem_cons.mpr ⟨hy, hw⟩⟩
      · exact ⟨[], rfl, fun _ hx => nomatch hx⟩
    · rw [starRests, if_neg hy, List.mem_singleton] at h
      exact ⟨[], h.symm, fun _ hx => nomatch hx⟩

/-! ### Matching -/

variable [DecidableEq τ]

def ways : Regex τ → List τ → List (List (List τ) × List τ)
  | lit w, s => if w <+: s then [([], s.drop w.length)] else []
  | star c, s => (starRests c s).map ([], ·)
  | plus c, s => (plusRests c s).map ([], ·)
  | seq r q, s => (ways r s).flatMap fun m => (ways q m.2).map fun n => (m.1 ++ n.1, n.2)
  | alt r q, s => ways r s ++ ways q s
  | group r, s => (ways r s).map fun m => (s.take (s.length - m.2.length) :: m.1, m.2)

/-- The groups of the first match at the first place. -/
def search (r : Regex τ) : List τ → Option (List (List τ))
  | [] => (r.ways []).head?.map Prod.fst
  | x :: s =>
    match r.ways (x :: s) with
    | m :: _ => some m.1
    | [] => search r s

/-- The way that comes first. -/
def First (r : Regex τ) (s : List τ) (texts : List (List τ)) (rest : List τ) : Prop :=
  (r.ways s).head? = some (texts, rest)

/-- A character that a match may use. -/
def Uses : Regex τ → τ → Prop
  | lit w, x => x ∈ w
  | star c, x => c x = true
  | plus c, x => c x = true
  | seq r q, x => Uses r x ∨ Uses q x
  | alt r q, x => Uses r x ∨ Uses q x
  | group r, x => Uses r x

/-- A character that no match does without. -/
def Needs : Regex τ → τ → Prop
  | lit w, x => x ∈ w
  | star _, _ => False
  | plus _, _ => False
  | seq r q, x => Needs r x ∨ Needs q x
  | alt r q, x => Needs r x ∧ Needs q x
  | group r, x => Needs r x

variable {r q : Regex τ} {texts texts' : List (List τ)} {x o : τ}

theorem ways_lit (w s : List τ) : (lit w).ways s = if w <+: s then [([], s.drop w.length)] else [] := rfl

theorem ways_star (c : τ → Bool) (s : List τ) : (star c).ways s = (starRests c s).map ([], ·) := rfl

theorem ways_plus (c : τ → Bool) (s : List τ) : (plus c).ways s = (plusRests c s).map ([], ·) := rfl

theorem ways_seq (r q : Regex τ) (s : List τ) : (seq r q).ways s =
    (r.ways s).flatMap fun m => (q.ways m.2).map fun n => (m.1 ++ n.1, n.2) := rfl

theorem ways_alt (r q : Regex τ) (s : List τ) : (alt r q).ways s = r.ways s ++ q.ways s := rfl

theorem ways_group (r : Regex τ) (s : List τ) :
    (group r).ways s = (r.ways s).map fun m => (s.take (s.length - m.2.length) :: m.1, m.2) := rfl

/-! ### The way that comes first -/

theorem First.lit (w rest : List τ) : First (lit w) (w ++ rest) [] rest := by
  show ((Regex.lit w).ways (w ++ rest)).head? = _
  rw [ways_lit, if_pos (List.prefix_append w rest), List.drop_left]
  rfl

theorem First.star (hw : ∀ x ∈ w, c x = true) (hrest : ∀ x ∈ rest.head?, c x = false) :
    First (star c) (w ++ rest) [] rest := by
  show ((Regex.star c).ways (w ++ rest)).head? = _
  rw [ways_star, List.head?_map, head?_starRests hw hrest]
  rfl

theorem First.plus (hne : w ≠ []) (hw : ∀ x ∈ w, c x = true) (hrest : ∀ x ∈ rest.head?, c x = false) :
    First (plus c) (w ++ rest) [] rest := by
  cases w with
  | nil => exact absurd rfl hne
  | cons x w =>
    have hx : c x = true := hw x List.mem_cons_self
    show ((Regex.plus c).ways (x :: w ++ rest)).head? = _
    rw [ways_plus, List.cons_append, plusRests, if_pos hx, List.head?_map,
      head?_starRests (fun y hy => hw y (List.mem_cons_of_mem x hy)) hrest]
    rfl

theorem First.seq (hr : First r s texts rest) (hq : First q rest texts' rest') :
    First (seq r q) s (texts ++ texts') rest' := by
  obtain ⟨ms, hms⟩ := List.head?_eq_some_iff.mp hr
  obtain ⟨ns, hns⟩ := List.head?_eq_some_iff.mp hq
  show ((Regex.seq r q).ways s).head? = _
  simp only [ways_seq, hms, List.flatMap_cons, hns, List.map_cons, List.cons_append, List.head?_cons]

theorem First.altLeft (hr : First r s texts rest) : First (alt r q) s texts rest := by
  have hhead : (r.ways s).head? = some (texts, rest) := hr
  show ((Regex.alt r q).ways s).head? = _
  rw [ways_alt, List.head?_append, hhead]
  rfl

theorem First.altRight (hr : r.ways s = []) (hq : First q s texts rest) : First (alt r q) s texts rest := by
  show ((Regex.alt r q).ways s).head? = _
  rw [ways_alt, hr, List.nil_append]
  exact hq

theorem First.group (hr : First r (w ++ rest) texts rest) : First (group r) (w ++ rest) (w :: texts) rest := by
  have hhead : (r.ways (w ++ rest)).head? = some (texts, rest) := hr
  have htake : (w ++ rest).take ((w ++ rest).length - rest.length) = w := by
    rw [List.length_append, Nat.add_sub_cancel, List.take_left]
  show ((Regex.group r).ways (w ++ rest)).head? = _
  rw [ways_group, List.head?_map, hhead, Option.map_some, htake]

theorem ways_plus_nil (h : ∀ x ∈ s.head?, c x = false) : (plus c).ways s = [] := by
  cases s with
  | nil => rfl
  | cons x s =>
    have hx : c x = false := h x rfl
    simp [ways_plus, plusRests, hx]

theorem search_first (h : First r s texts rest) : search r s = some texts := by
  obtain ⟨ms, hms⟩ := List.head?_eq_some_iff.mp h
  cases s with
  | nil => rw [search, hms, List.head?_cons, Option.map_some]
  | cons x s => rw [search, hms]

/-! ### What a match is made of -/

/-- A way takes a piece from the front, of characters that the expression uses. -/
theorem ways_uses : ∀ (r : Regex τ) {s : List τ} {m : List (List τ) × List τ}, m ∈ r.ways s →
    ∃ w, s = w ++ m.2 ∧ (∀ x ∈ w, r.Uses x) ∧ ∀ x, r.Needs x → x ∈ w
  | .lit w, s, m, h => by
    rw [ways_lit] at h
    split at h
    · rename_i hpre
      obtain ⟨t, rfl⟩ := hpre
      obtain rfl := List.mem_singleton.mp h
      exact ⟨w, by rw [List.drop_left], fun _ hx => hx, fun _ hx => hx⟩
    · cases h
  | .star c, s, m, h => by
    obtain ⟨rest, hrest, rfl⟩ := List.mem_map.mp h
    obtain ⟨w, hs, hw⟩ := mem_starRests hrest
    exact ⟨w, hs, hw, fun _ hx => hx.elim⟩
  | .plus c, s, m, h => by
    obtain ⟨rest, hrest, rfl⟩ := List.mem_map.mp h
    cases s with
    | nil => cases hrest
    | cons y s =>
      rw [plusRests] at hrest
      split at hrest
      · rename_i hy
        obtain ⟨w, rfl, hw⟩ := mem_starRests hrest
        exact ⟨y :: w, rfl, List.forall_mem_cons.mpr ⟨hy, hw⟩, fun _ hx => hx.elim⟩
      · cases hrest
  | .seq r q, s, m, h => by
    obtain ⟨m₁, hm₁, h⟩ := List.mem_flatMap.mp h
    obtain ⟨m₂, hm₂, rfl⟩ := List.mem_map.mp h
    obtain ⟨w₁, hs, hu₁, hn₁⟩ := ways_uses r hm₁
    obtain ⟨w₂, hs₂, hu₂, hn₂⟩ := ways_uses q hm₂
    refine ⟨w₁ ++ w₂, ?_, fun x hx => ?_, fun x hx => ?_⟩
    · rw [hs, hs₂, List.append_assoc]
    · exact (List.mem_append.mp hx).imp (hu₁ x) (hu₂ x)
    · exact List.mem_append.mpr (hx.imp (hn₁ x) (hn₂ x))
  | .alt r q, s, m, h => by
    rcases List.mem_append.mp h with h | h
    · obtain ⟨w, hs, hu, hn⟩ := ways_uses r h
      exact ⟨w, hs, fun x hx => .inl (hu x hx), fun x hx => hn x hx.1⟩
    · obtain ⟨w, hs, hu, hn⟩ := ways_uses q h
      exact ⟨w, hs, fun x hx => .inr (hu x hx), fun x hx => hn x hx.2⟩
  | .group r, s, m, h => by
    obtain ⟨n, hn, rfl⟩ := List.mem_map.mp h
    have hways := ways_uses r hn
    exact hways

theorem search_cons_nil (h : r.ways (x :: s) = []) : search r (x :: s) = search r s := by
  rw [search, h]

/-- A text without a character that every match needs. -/
theorem search_none (hx : r.Needs x) : ∀ {s : List τ}, x ∉ s → search r s = none := by
  have hways : ∀ s : List τ, x ∉ s → r.ways s = [] := fun s hs => by
    rw [List.eq_nil_iff_forall_not_mem]
    intro m hm
    obtain ⟨w, rfl, -, hneeds⟩ := ways_uses r hm
    exact hs (List.mem_append_left _ (hneeds x hx))
  intro s hs
  induction s with
  | nil => rw [search, hways [] hs, List.head?_nil, Option.map_none]
  | cons y s ih => rw [search_cons_nil (hways _ hs), ih (fun h => hs (List.mem_cons_of_mem y h))]

/-- Where a match begins with `o`, has no other and needs an `x`: a piece
without an `x`, in front of an `o`, holds no match and begins none. -/
theorem search_skip (ho : ¬ q.Uses o) (hx : q.Needs x) (hrest : rest.head? = some o) :
    ∀ {w : List τ}, x ∉ w → search (.seq (.lit [o]) q) (w ++ rest) = search (.seq (.lit [o]) q) rest
  | [], _ => rfl
  | y :: w, hw => by
    have hskip := search_skip ho hx hrest fun h => hw (List.mem_cons_of_mem y h)
    have hnone : (Regex.seq (.lit [o]) q).ways (y :: (w ++ rest)) = [] := by
      rw [List.eq_nil_iff_forall_not_mem]
      intro m hm
      obtain ⟨m₁, hm₁, hm₂⟩ := List.mem_flatMap.mp hm
      obtain ⟨m₂, hm₂, -⟩ := List.mem_map.mp hm₂
      rw [ways_lit] at hm₁
      split at hm₁
      · obtain rfl := List.mem_singleton.mp hm₁
        obtain ⟨v, hv, huses, hneeds⟩ := ways_uses q hm₂
        have hv' : w ++ rest = v ++ m₂.2 := hv
        rcases List.append_eq_append_iff.mp hv' with ⟨u, rfl, hrest'⟩ | ⟨u, rfl, -⟩
        · -- the match goes on into what follows, and takes the `o` there
          cases u with
          | nil => exact hw (List.mem_cons_of_mem y (by simpa using hneeds x hx))
          | cons z u =>
            rw [hrest', List.cons_append, List.head?_cons, Option.some.injEq] at hrest
            subst hrest
            exact ho (huses z (by simp))
        · exact hw (List.mem_cons_of_mem y (List.mem_append_left _ (hneeds x hx)))
      · cases hm₁
    rw [List.cons_append, search_cons_nil hnone, hskip]

end Regex
