/-
# Histories of writes

A history of writes to cells that can also be cleared all at once. `latest`
is what a cell holds when a write replaces the value before it and a clear
brings back the default; `first` is what it holds when a value once written
stays. The two agree all along a history exactly when no write and no clear in
it changes a cell that was written before (`first_eq_latest_iff`).

`insert` is the table operation that makes a cell keep its first value.
-/
import Mathlib.Data.List.Induction
import Mathlib.Data.List.Infix

namespace Writes

/-- A clear of all cells, or a write of `b` to the cell `k`. -/
inductive Event (κ β : Type*)
  | clear
  | put (k : κ) (b : β)
  deriving DecidableEq, Repr

variable {κ β : Type*} [DecidableEq κ] {d b c : β} {k k' : κ} {es : List (Event κ β)} {e : Event κ β}

/-- One event, on the value of the cell `k`. -/
def Event.write (d : β) (k : κ) (b : β) : Event κ β → β
  | .clear => d
  | .put k' b' => if k' = k then b' else b

/-- The value of the cell `k` when writes replace. -/
def latest (d : β) (es : List (Event κ β)) (k : κ) : β := es.foldl (Event.write d k) d

/-- The first write to the cell `k`. -/
def firstPut : List (Event κ β) → κ → Option β
  | [], _ => none
  | .clear :: es, k => firstPut es k
  | .put k' b :: es, k => if k' = k then some b else firstPut es k

/-- The value of the cell `k` when writes do not replace. -/
def first (d : β) (es : List (Event κ β)) (k : κ) : β := (firstPut es k).getD d

/-- What a later event may do to a cell that an earlier one wrote: nothing. -/
def Agrees (d : β) : Event κ β → Event κ β → Prop
  | .put k b, .put k' b' => k = k' → b = b'
  | .put _ b, .clear => b = d
  | .clear, _ => True

instance [DecidableEq β] (d : β) : DecidableRel (Agrees (κ := κ) d)
  | .put k b, .put k' b' => inferInstanceAs (Decidable (k = k' → b = b'))
  | .put _ b, .clear => inferInstanceAs (Decidable (b = d))
  | .clear, _ => isTrue trivial

@[simp] theorem latest_append_one : latest d (es ++ [e]) k = e.write d k (latest d es k) := by
  simp [latest, List.foldl_append]

@[simp] theorem firstPut_append (es' : List (Event κ β)) :
    firstPut (es ++ es') k = (firstPut es k).or (firstPut es' k) := by
  induction es with
  | nil => simp [firstPut]
  | cons e es ih =>
    cases e with
    | clear => exact ih
    | put k' b =>
      by_cases hk : k' = k
      · simp [firstPut, hk]
      · simpa [firstPut, hk] using ih

theorem mem_of_firstPut (h : firstPut es k = some b) : .put k b ∈ es := by
  induction es with
  | nil => cases h
  | cons e es ih =>
    cases e with
    | clear => exact List.mem_cons_of_mem _ (ih h)
    | put k' b' =>
      by_cases hk : k' = k
      · simp only [firstPut, hk, ↓reduceIte, Option.some.injEq] at h
        simp [hk, h]
      · simp only [firstPut, hk, ↓reduceIte] at h
        exact List.mem_cons_of_mem _ (ih h)

/-- In a history that changes nothing, any write to a cell is its first. -/
theorem firstPut_of_mem (hes : es.Pairwise (Agrees d)) (h : .put k b ∈ es) : firstPut es k = some b := by
  induction es with
  | nil => cases h
  | cons e es ih =>
    obtain ⟨hhead, htail⟩ := List.pairwise_cons.mp hes
    rcases List.mem_cons.mp h with rfl | hmem
    · simp [firstPut]
    · have hrest := ih htail hmem
      cases e with
      | clear => exact hrest
      | put k' b' =>
        by_cases hk : k' = k
        · have hb : b' = b := hhead _ hmem hk
          simp [firstPut, hk, hb]
        · simpa [firstPut, hk] using hrest

/-- One more event keeps the two readings together just when it agrees with
all before it. -/
theorem first_eq_latest_append_one (hes : es.Pairwise (Agrees d)) (h : ∀ k, first d es k = latest d es k) :
    (∀ k, first d (es ++ [e]) k = latest d (es ++ [e]) k) ↔ ∀ e' ∈ es, Agrees d e' e := by
  constructor
  · intro hone e' hmem
    cases e' with
    | clear => exact trivial
    | put k b =>
      have hput := firstPut_of_mem hes hmem
      cases e with
      | clear =>
        show b = d
        have hk := hone k
        simpa [first, hput, Event.write] using hk
      | put k' c =>
        rintro rfl
        have hk := hone k
        simpa [first, hput, Event.write] using hk
  · intro hag k
    cases hput : firstPut es k with
    | none =>
      have hd : d = latest d es k := by simpa [first, hput] using h k
      cases e with
      | clear => simp [first, hput, firstPut, Event.write]
      | put k' c =>
        by_cases hk : k' = k
        · simp [first, hput, firstPut, Event.write, hk]
        · simp [first, hput, firstPut, Event.write, hk, ← hd]
    | some b =>
      have hb : b = latest d es k := by simpa [first, hput] using h k
      have hmem := hag _ (mem_of_firstPut hput)
      cases e with
      | clear => simpa [first, hput, Event.write, Agrees] using hmem
      | put k' c =>
        by_cases hk : k' = k
        · subst hk
          have hbc : b = c := hmem rfl
          simp [first, hput, Event.write, hbc]
        · simp [first, hput, Event.write, hk, ← hb]

/-- **First is latest** all along a history exactly when nothing in it changes a
cell that was written. -/
theorem first_eq_latest_iff :
    (∀ done, done <+: es → ∀ k, first d done k = latest d done k) ↔ es.Pairwise (Agrees d) := by
  induction es using List.reverseRecOn with
  | nil =>
    refine iff_of_true ?_ List.Pairwise.nil
    intro done hdone k
    rw [List.prefix_nil.mp hdone]
    rfl
  | append_singleton es e ih =>
    have hsplit : (∀ done, done <+: es ++ [e] → ∀ k, first d done k = latest d done k) ↔
        (∀ done, done <+: es → ∀ k, first d done k = latest d done k) ∧
          ∀ k, first d (es ++ [e]) k = latest d (es ++ [e]) k := by
      constructor
      · intro h
        exact ⟨fun done hdone => h done (hdone.trans (List.prefix_append _ _)), h _ List.prefix_rfl⟩
      · rintro ⟨hpre, hall⟩ done hdone
        rcases List.prefix_concat_iff.mp hdone with heq | hpre'
        · rw [heq]
          exact hall
        · exact hpre done hpre'
    rw [hsplit, ih, List.pairwise_append]
    constructor
    · rintro ⟨hes, hone⟩
      have hag := (first_eq_latest_append_one hes ((ih.mpr hes) es List.prefix_rfl)).mp hone
      exact ⟨hes, List.pairwise_singleton _ _, fun a ha b hb => by rw [List.mem_singleton.mp hb]; exact hag a ha⟩
    · rintro ⟨hes, -, hag⟩
      refine ⟨hes, ?_⟩
      apply (first_eq_latest_append_one hes ((ih.mpr hes) es List.prefix_rfl)).mpr
      exact fun a ha => hag a ha e (List.mem_singleton_self e)

/-! ### The table -/

/-- `std::map::insert`: a key that is there keeps its value. -/
def insert (m : List (κ × β)) (k : κ) (b : β) : List (κ × β) :=
  if (m.lookup k).isSome then m else m ++ [(k, b)]

/-- The table after a write. -/
theorem lookup_insert (m : List (κ × β)) :
    (insert m k b).lookup k' = (m.lookup k').or (if k = k' then some b else none) := by
  unfold insert
  by_cases hk : k = k'
  · subst hk
    rw [if_pos rfl]
    cases hm : m.lookup k with
    | some c => simp [hm]
    | none => simp [List.lookup_append, hm]
  · rw [if_neg hk, Option.or_none]
    split_ifs
    · rfl
    · have hne : (k' == k) = false := beq_eq_false_iff_ne.mpr (Ne.symm hk)
      simp [List.lookup_append, List.lookup_cons, hne]

end Writes
