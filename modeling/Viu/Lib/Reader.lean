/-
# Readers of a token stream

A reader takes tokens from the front of a stream and leaves the rest, or
fails. `Reads r ws a`: of a stream that begins with `ws`, `r` takes just `ws`
and returns `a`; cut short anywhere inside `ws`, it fails. What is so read is
self-delimiting, and so is what readers make of it one after the other
(`Reads.bind`), a fixed number of times (`Reads.many`), or as often as a
number in front says (`Reads.counted`).
-/
import Mathlib.Control.Monad.Basic
import Mathlib.Data.List.Basic

namespace Tokens

variable {τ ε α β γ : Type*}

def Reader (τ : Type*) (ε : Type*) (α : Type*) := List τ → Except ε (α × List τ)

namespace Reader

def pure (a : α) : Reader τ ε α := fun ws => .ok (a, ws)

def bind (r : Reader τ ε α) (f : α → Reader τ ε β) : Reader τ ε β := fun ws =>
  match r ws with
  | .error e => .error e
  | .ok (a, rest) => f a rest

instance : Monad (Reader τ ε) where
  pure := pure
  bind := bind

/-- The next token, decoded. -/
def next (atEnd : ε) (decode : τ → Except ε α) : Reader τ ε α
  | [] => .error atEnd
  | w :: rest => (decode w).map (·, rest)

/-- `n` times. -/
def many (r : Reader τ ε α) : ℕ → Reader τ ε (List α)
  | 0 => pure []
  | n + 1 => bind r fun a => bind (many r n) fun as => pure (a :: as)

/-- As often as `size` says. -/
def counted (size : Reader τ ε ℕ) (r : Reader τ ε α) : Reader τ ε (List α) := bind size (many r)

theorem bind_assoc (r : Reader τ ε α) (f : α → Reader τ ε β) (g : β → Reader τ ε γ) :
    bind (bind r f) g = bind r fun a => bind (f a) g := by
  funext ws
  unfold bind
  cases r ws with
  | error e => rfl
  | ok p => rfl

theorem many_add (r : Reader τ ε α) (m n : ℕ) :
    many r (m + n) = bind (many r m) fun as => bind (many r n) fun bs => pure (as ++ bs) := by
  induction m with
  | zero =>
    rw [Nat.zero_add]
    funext ws
    show many r n ws = bind (many r n) (fun bs => pure bs) ws
    unfold bind
    cases many r n ws with
    | error e => rfl
    | ok p => rfl
  | succ m ih =>
    rw [Nat.succ_add]
    show (bind r fun a => bind (many r (m + n)) fun as => pure (a :: as)) =
      bind (bind r fun a => bind (many r m) fun as => pure (a :: as)) _
    simp only [ih, bind_assoc]
    rfl

end Reader

/-- `r` reads `ws` as `a`, and nothing shorter. -/
structure Reads (r : Reader τ ε α) (ws : List τ) (a : α) : Prop where
  whole : ∀ rest, r (ws ++ rest) = .ok (a, rest)
  cut : ∀ k < ws.length, ∃ e, r (ws.take k) = .error e

variable {r : Reader τ ε α} {ws vs : List τ} {a : α} {b : β}

theorem Reads.pure (a : α) : Reads (Reader.pure a : Reader τ ε α) [] a where
  whole := fun _ => rfl
  cut := fun _ hk => absurd hk (Nat.not_lt_zero _)

theorem Reads.next {atEnd : ε} {decode : τ → Except ε α} {w : τ} (h : decode w = .ok a) :
    Reads (Reader.next atEnd decode) [w] a where
  whole := by
    intro rest
    rw [List.singleton_append, Reader.next, h]
    rfl
  cut := by
    intro k hk
    obtain rfl : k = 0 := by
      rw [List.length_singleton] at hk
      omega
    exact ⟨atEnd, rfl⟩

theorem Reads.bind {f : α → Reader τ ε β} (h : Reads r ws a) (h' : Reads (f a) vs b) :
    Reads (Reader.bind r f) (ws ++ vs) b where
  whole := by
    intro rest
    rw [List.append_assoc, Reader.bind, h.whole]
    exact h'.whole rest
  cut := by
    intro k hk
    rw [List.length_append] at hk
    by_cases hw : k < ws.length
    · obtain ⟨e, he⟩ := h.cut k hw
      refine ⟨e, ?_⟩
      rw [List.take_append_of_le_length (Nat.le_of_lt hw), Reader.bind, he]
    · obtain ⟨e, he⟩ := h'.cut (k - ws.length) (by omega)
      refine ⟨e, ?_⟩
      rw [List.take_append, List.take_of_length_le (by omega), Reader.bind, h.whole]
      exact he

/-- One token, then the rest. -/
theorem Reads.cons {f : α → Reader τ ε β} {w : τ} (h : Reads r [w] a) (h' : Reads (f a) vs b) :
    Reads (Reader.bind r f) (w :: vs) b := h.bind h'

/-- The last part. -/
theorem Reads.last {f : α → β} (h : Reads r ws a) :
    Reads (Reader.bind r fun a => Reader.pure (f a)) ws (f a) := by
  have hb : Reads (Reader.bind r fun a => Reader.pure (f a)) (ws ++ []) (f a) := h.bind (Reads.pure (f a))
  rwa [List.append_nil] at hb

theorem Reads.many {out : α → List τ} {as : List α} (h : ∀ a ∈ as, Reads r (out a) a) :
    Reads (Reader.many r as.length) (as.flatMap out) as := by
  induction as with
  | nil => exact Reads.pure []
  | cons a as ih =>
    have hrest := ih fun b hb => h b (List.mem_cons_of_mem _ hb)
    rw [List.flatMap_cons]
    exact (h a List.mem_cons_self).bind hrest.last

theorem Reads.counted {size : Reader τ ε ℕ} {out : α → List τ} {as : List α} {w : τ}
    (hsize : Reads size [w] as.length) (h : ∀ a ∈ as, Reads r (out a) a) :
    Reads (Reader.counted size r) (w :: as.flatMap out) as :=
  hsize.cons (Reads.many h)

end Tokens
