/-
# Parsers that do not go back

A parser takes tokens from the front of its input and leaves the rest, or
fails. A sequence of parsers fails when one of them does, and what was taken is
not tried another way. `run` takes the tokens that meet a condition, all of
them; `star` and `plus` repeat a parser until it fails.

What is printed piece by piece is parsed piece by piece, as far as the pieces
are such as the parser takes (`star_flatMap`); a piece that it cannot get over
leaves input behind (`star_stuck`).
-/
import Viu.Lib.Cut

namespace Peg

variable {τ α β : Type*}

abbrev Parser (τ : Type*) (α : Type*) := List τ → Option (α × List τ)

namespace Parser

def pure (a : α) : Parser τ α := fun s => some (a, s)

def bind (p : Parser τ α) (f : α → Parser τ β) : Parser τ β := fun s =>
  match p s with
  | none => none
  | some (a, rest) => f a rest

variable {p : Parser τ α} {f : α → Parser τ β} {s rest : List τ} {a : α}

theorem bind_some (h : p s = some (a, rest)) : bind p f s = f a rest := by
  rw [bind, h]

theorem bind_none (h : p s = none) : bind p f s = none := by
  rw [bind, h]

end Parser

/-! ### Runs of tokens -/

section run

variable {c : τ → Bool} {w rest : List τ}

/-- The tokens in front that meet the condition, one at least. -/
def run (c : τ → Bool) : Parser τ (List τ) := fun s =>
  if s.takeWhile c = [] then none else some (s.takeWhile c, s.dropWhile c)

theorem run_append (hne : w ≠ []) (hw : ∀ x ∈ w, c x = true) (hrest : ∀ x ∈ rest.head?, c x = false) :
    run c (w ++ rest) = some (w, rest) := by
  rw [run, Cut.takeWhile_append hw hrest, Cut.dropWhile_append hw hrest, if_neg hne]

theorem run_none (hrest : ∀ x ∈ rest.head?, c x = false) : run c rest = none := by
  rw [run, if_pos (Cut.takeWhile_stop hrest)]

end run

/-! ### Repetition -/

section star

variable {p : Parser τ α} {print : β → List τ} {scan : β → α} {ok : β → Prop}

/-- As often as it succeeds, and `n` times at most. -/
def star (p : Parser τ α) : ℕ → List τ → List α × List τ
  | 0, s => ([], s)
  | n + 1, s =>
    match p s with
    | none => ([], s)
    | some (a, rest) => (a :: (star p n rest).1, (star p n rest).2)

/-- Once or more. A parser that takes something every time succeeds no more
often than there are tokens. -/
def plus (p : Parser τ α) : Parser τ (List α) := fun s =>
  if (star p s.length s).1 = [] then none else some (star p s.length s)

theorem star_none {s : List τ} (h : p s = none) (n : ℕ) : star p n s = ([], s) := by
  cases n with
  | zero => rfl
  | succ n => rw [star, h]

theorem star_some {s rest : List τ} {a : α} (h : p s = some (a, rest)) (n : ℕ) :
    star p (n + 1) s = (a :: (star p n rest).1, (star p n rest).2) := by
  rw [star, h]

/-- `R` is what the pieces have behind them. -/
theorem star_flatMap (R : List τ → Prop) (hnil : R []) (hR : ∀ b rest, R (print b ++ rest)) (hend : p [] = none)
    (hscan : ∀ b rest, ok b → R rest → p (print b ++ rest) = some (scan b, rest)) :
    ∀ (bs : List β) (n : ℕ), bs.length ≤ n → (∀ b ∈ bs, ok b) → star p n (bs.flatMap print) = (bs.map scan, [])
  | [], n, _, _ => star_none hend n
  | b :: bs, 0, hn, _ => absurd hn (Nat.not_succ_le_zero _)
  | b :: bs, n + 1, hn, hok => by
    have hbehind : R (bs.flatMap print) := by
      cases bs with
      | nil => exact hnil
      | cons b' bs => exact hR b' _
    have hrest := star_flatMap R hnil hR hend hscan bs n (Nat.le_of_succ_le_succ hn)
      fun b' hb' => hok b' (List.mem_cons_of_mem b hb')
    rw [List.flatMap_cons, star_some (hscan b _ (hok b List.mem_cons_self) hbehind), hrest]
    rfl

/-- One piece is enough that the parser does not get over. -/
theorem star_stuck (R stuck : List τ → Prop) (hnil : R []) (hR : ∀ b rest, R (print b ++ rest))
    (hscan : ∀ b rest, ok b → R rest → p (print b ++ rest) = some (scan b, rest))
    (hstuck : ∀ b rest n, ¬ ok b → R rest → stuck (star p n (print b ++ rest)).2)
    (hfull : ∀ b rest, stuck (print b ++ rest)) :
    ∀ (bs : List β) (n : ℕ), (∃ b ∈ bs, ¬ ok b) → stuck (star p n (bs.flatMap print)).2
  | [], _, h => by
    obtain ⟨b, hb, -⟩ := h
    cases hb
  | b :: bs, n, h => by
    have hbehind : R (bs.flatMap print) := by
      cases bs with
      | nil => exact hnil
      | cons b' bs => exact hR b' _
    rw [List.flatMap_cons]
    by_cases hok : ok b
    · have hbs : ∃ b ∈ bs, ¬ ok b := by
        obtain ⟨b', hb', hbad⟩ := h
        rcases List.mem_cons.mp hb' with rfl | hb'
        · exact absurd hok hbad
        · exact ⟨b', hb', hbad⟩
      cases n with
      | zero => exact hfull b _
      | succ n =>
        rw [star_some (hscan b _ hok hbehind)]
        exact star_stuck R stuck hnil hR hscan hstuck hfull bs n hbs
    · exact hstuck b _ n hok hbehind

end star

end Peg
