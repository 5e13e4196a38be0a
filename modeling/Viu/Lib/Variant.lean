/-
# A value of one of several types

The types are named by the elements of `τ`, and `F T` is the type that `T` names. A
`Variant F ts` is a value of one of the types `ts`, together with its place among
them. Where no type is listed twice the place says nothing that the type does not
(`held_injective`), and `distinct` makes such a list of any.

Key definitions: `Variant`, `Variant.of`, `Variant.visit`, `Variant.visitMut`,
`Variant.distinct`.
Key theorems: `Variant.held_of`, `Variant.held_injective`, `Variant.mem_distinct`,
`Variant.nodup_distinct`.
-/
import Mathlib.Data.List.Nodup

structure Variant {τ : Type*} (F : τ → Type*) (ts : List τ) where
  index : Fin ts.length
  value : F (ts.get index)

namespace Variant

variable {τ ρ : Type*} {F : τ → Type*} {ts : List τ} {T : τ}

/-- The value, with its type. -/
def held (v : Variant F ts) : (T : τ) × F T := ⟨ts.get v.index, v.value⟩

/-- What a visitor makes of the value. -/
def visit (f : (T : τ) → F T → ρ) (v : Variant F ts) : ρ := f (ts.get v.index) v.value

/-- A visitor that may put another value of the same type in its place. -/
def visitMut (f : (T : τ) → F T → ρ × F T) (v : Variant F ts) : ρ × Variant F ts :=
  ((f (ts.get v.index) v.value).1, ⟨v.index, (f (ts.get v.index) v.value).2⟩)

/-- A value of one of the types. -/
def of [DecidableEq τ] (h : T ∈ ts) (x : F T) : Variant F ts where
  index := ⟨ts.idxOf T, List.idxOf_lt_length_iff.mpr h⟩
  value := cast (congrArg F (List.idxOf_get _).symm) x

theorem held_of [DecidableEq τ] (h : T ∈ ts) (x : F T) : (of h x : Variant F ts).held = ⟨T, x⟩ :=
  Sigma.ext (List.idxOf_get _) (cast_heq _ x)

/-- Among different types, the type tells the place. -/
theorem held_injective (hts : ts.Nodup) : Function.Injective (held : Variant F ts → (T : τ) × F T) := by
  rintro ⟨i, x⟩ ⟨j, y⟩ h
  obtain ⟨hT, hx⟩ := Sigma.mk.inj h
  obtain rfl : i = j := hts.get_inj_iff.mp hT
  exact congrArg (Variant.mk i) (eq_of_heq hx)

/-! ### Lists without repetitions -/

/-- The types of `pending` after those in `seen`, each once, in the order in which they
first come. -/
def distinct [DecidableEq τ] (seen : List τ) : List τ → List τ
  | [] => seen
  | head :: pending => if head ∈ seen then distinct seen pending else distinct (seen ++ [head]) pending

variable [DecidableEq τ]

theorem mem_distinct : ∀ pending seen : List τ, T ∈ distinct seen pending ↔ T ∈ seen ∨ T ∈ pending
  | [], seen => by simp [distinct]
  | head :: pending, seen => by
    unfold distinct
    split
    · next hmem =>
      rw [mem_distinct pending seen, List.mem_cons]
      constructor
      · rintro (h | h)
        · exact .inl h
        · exact .inr (.inr h)
      · rintro (h | rfl | h)
        · exact .inl h
        · exact .inl hmem
        · exact .inr h
    · rw [mem_distinct pending, List.mem_append, List.mem_singleton, List.mem_cons, or_assoc]

theorem nodup_distinct : ∀ pending seen : List τ, seen.Nodup → (distinct seen pending).Nodup
  | [], _, h => h
  | head :: pending, seen, h => by
    unfold distinct
    split
    · exact nodup_distinct pending seen h
    · next hmem =>
      apply nodup_distinct pending
      apply List.nodup_append.mpr
      refine ⟨h, List.nodup_singleton head, ?_⟩
      intro a ha b hb
      rw [List.mem_singleton.mp hb]
      rintro rfl
      exact hmem ha

end Variant
