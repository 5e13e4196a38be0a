/-
# Writers of a token stream, and the readers behind them

A writer puts items on a stream, each as a token, and returns or throws; what
it wrote before a throw stays. A writer and a reader that were made apart
agree when the reader takes from a whole writing just what was written, or
fails on it, and fails on a writing that a throw cut short (`Follows`).
Agreement is kept by what both sides are built with, so a reader that follows
its writer part by part reads each part from the tokens of that part
(`Follows.own`). A loop needs agreement only of what it comes to (`Until`).
-/
import Viu.Lib.Reader

namespace Tokens

variable {σ τ ε ε' α β γ : Type*}

/-- What is written, and how it ends. -/
structure Writer (σ : Type*) (ε : Type*) (α : Type*) where
  items : List σ
  result : Except ε α

namespace Writer

def pure (a : α) : Writer σ ε α := ⟨[], .ok a⟩

def bind (w : Writer σ ε α) (f : α → Writer σ ε β) : Writer σ ε β :=
  match w.result with
  | .error e => ⟨w.items, .error e⟩
  | .ok a => ⟨w.items ++ (f a).items, (f a).result⟩

instance : Monad (Writer σ ε) where
  pure := pure
  bind := bind

def tell (items : List σ) : Writer σ ε Unit := ⟨items, .ok ()⟩

/-- A computation that writes nothing. -/
def lift (x : Except ε α) : Writer σ ε α := ⟨[], x⟩

def forEach (w : α → Writer σ ε Unit) : List α → Writer σ ε Unit
  | [] => pure ()
  | a :: as => bind (w a) fun _ => forEach w as

theorem bind_assoc (w : Writer σ ε α) (f : α → Writer σ ε β) (g : β → Writer σ ε γ) :
    bind (bind w f) g = bind w fun a => bind (f a) g := by
  unfold bind
  cases hw : w.result with
  | error e => rfl
  | ok a =>
    dsimp only
    cases (f a).result with
    | error e => rfl
    | ok b => simp only [List.append_assoc]

theorem bind_pure (w : Writer σ ε Unit) : bind w (fun _ => pure ()) = w := by
  obtain ⟨items, result⟩ := w
  unfold bind
  cases result with
  | error e => rfl
  | ok u => simp [pure]

end Writer

/-! ### Whole writings -/

/-- `w` writes `ws` and returns `a`. -/
structure Writes (token : σ → τ) (w : Writer σ ε α) (ws : List τ) (a : α) : Prop where
  tokens : w.items.map token = ws
  returns : w.result = .ok a

variable {token : σ → τ} {w : Writer σ ε α} {ws vs : List τ} {a : α} {b : β} {as : List α}

theorem Writes.pure (a : α) : Writes token (Writer.pure a : Writer σ ε α) [] a := ⟨rfl, rfl⟩

theorem Writes.tell (s : σ) : Writes token (Writer.tell [s] : Writer σ ε Unit) [token s] () := ⟨rfl, rfl⟩

theorem Writes.bind {f : α → Writer σ ε β} (h : Writes token w ws a) (h' : Writes token (f a) vs b) :
    Writes token (Writer.bind w f) (ws ++ vs) b := by
  have hb : Writer.bind w f = ⟨w.items ++ (f a).items, (f a).result⟩ := by rw [Writer.bind, h.returns]
  constructor
  · rw [hb, List.map_append, h.tokens, h'.tokens]
  · rw [hb, h'.returns]

/-- One token, then the rest. -/
theorem Writes.cons {f : α → Writer σ ε β} {t : τ} (h : Writes token w [t] a) (h' : Writes token (f a) vs b) :
    Writes token (Writer.bind w f) (t :: vs) b := h.bind h'

theorem Writes.lift {x : Except ε α} {f : α → Writer σ ε β} (hx : x = .ok a) (h : Writes token (f a) ws b) :
    Writes token (Writer.bind (Writer.lift x) f) ws b := by
  have hl : Writes token (Writer.lift x : Writer σ ε α) [] a := ⟨rfl, hx⟩
  simpa using hl.bind h

/-- The last part. -/
theorem Writes.last {w : Writer σ ε Unit} (h : Writes token w ws ()) :
    Writes token (Writer.bind w fun _ => Writer.pure ()) ws () := by
  rwa [Writer.bind_pure]

theorem Writes.forEach {w : α → Writer σ ε Unit} {out : α → List τ} (h : ∀ a ∈ as, Writes token (w a) (out a) ()) :
    Writes token (Writer.forEach w as) (as.flatMap out) () := by
  induction as with
  | nil => exact Writes.pure ()
  | cons a as ih =>
    rw [List.flatMap_cons]
    apply (h a List.mem_cons_self).bind
    exact ih fun b hb => h b (List.mem_cons_of_mem _ hb)

/-! ### Agreement -/

/-- `r` takes what `w` wrote and reads something that satisfies `P`, or fails;
where `w` throws, it fails. -/
structure Follows (token : σ → τ) (w : Writer σ ε Unit) (r : Reader τ ε' β) (P : β → Prop) : Prop where
  whole : w.result = .ok () →
    (∃ b, P b ∧ ∀ rest, r (w.items.map token ++ rest) = .ok (b, rest)) ∨
      ∀ rest, ∃ e, r (w.items.map token ++ rest) = .error e
  thrown : ∀ e, w.result = .error e → ∃ e', r (w.items.map token) = .error e'

/-- A reader that reads something. -/
def Hungry (r : Reader τ ε' β) : Prop := ∃ e, r [] = .error e

theorem Hungry.bind {r : Reader τ ε' β} (h : Hungry r) (f : β → Reader τ ε' γ) : Hungry (Reader.bind r f) := by
  obtain ⟨e, he⟩ := h
  refine ⟨e, ?_⟩
  rw [Reader.bind, he]

theorem Hungry.next (atEnd : ε') (decode : τ → Except ε' β) : Hungry (Reader.next atEnd decode) := ⟨atEnd, rfl⟩

variable {v v' v'' : Writer σ ε Unit} {r : Reader τ ε' β} {P : β → Prop} {Q : γ → Prop}

theorem Follows.pure (hb : P b) :
    Follows token (Writer.pure () : Writer σ ε Unit) (Reader.pure b : Reader τ ε' β) P where
  whole := fun _ => .inl ⟨b, hb, fun _ => rfl⟩
  thrown := by
    intro e he
    cases he

/-- One token, whatever it reads as. -/
theorem Follows.next (atEnd : ε') {decode : τ → Except ε' β} {s : σ} (h : ∀ b, decode (token s) = .ok b → P b) :
    Follows token (Writer.tell [s] : Writer σ ε Unit) (Reader.next atEnd decode) P where
  whole := by
    intro _
    have hnext : ∀ rest, Reader.next atEnd decode ([token s] ++ rest) = (decode (token s)).map (·, rest) :=
      fun _ => rfl
    have htell : (Writer.tell [s] : Writer σ ε Unit).items.map token = [token s] := rfl
    cases hd : decode (token s) with
    | ok b => exact .inl ⟨b, h b hd, fun rest => by rw [htell, hnext, hd]; rfl⟩
    | error e => exact .inr fun rest => ⟨e, by rw [htell, hnext, hd]; rfl⟩
  thrown := by
    intro e he
    cases he

theorem Follows.mono {P' : β → Prop} (h : Follows token v r P) (hP : ∀ b, P b → P' b) : Follows token v r P' where
  whole := by
    intro hv
    rcases h.whole hv with ⟨b, hb, hr⟩ | hr
    · exact .inl ⟨b, hP b hb, hr⟩
    · exact .inr hr
  thrown := h.thrown

theorem Follows.bind {f : β → Reader τ ε' γ} (h : Follows token v r P) (h' : ∀ b, P b → Follows token v' (f b) Q) :
    Follows token (Writer.bind v fun _ => v') (Reader.bind r f) Q := by
  unfold Writer.bind
  cases hv : v.result with
  | error e =>
    refine ⟨fun hok => (nomatch hok), fun e' _ => ?_⟩
    obtain ⟨e₁, he₁⟩ := h.thrown e hv
    refine ⟨e₁, ?_⟩
    rw [Reader.bind, he₁]
  | ok u =>
    have hmap : (v.items ++ v'.items).map token = v.items.map token ++ v'.items.map token := List.map_append
    rcases h.whole hv with ⟨b, hb, hr⟩ | hr
    · -- the reader stands where the second writer began
      have hread : ∀ rest, Reader.bind r f (v.items.map token ++ rest) = f b rest := fun rest => by rw [Reader.bind, hr]
      refine ⟨fun hok => ?_, fun e he => ?_⟩
      · rcases (h' b hb).whole hok with ⟨c, hc, hr'⟩ | hr'
        · refine .inl ⟨c, hc, fun rest => ?_⟩
          rw [hmap, List.append_assoc, hread, hr']
        · refine .inr fun rest => ?_
          rw [hmap, List.append_assoc, hread]
          exact hr' rest
      · rw [hmap, hread]
        exact (h' b hb).thrown e he
    · have hfail : ∀ rest, ∃ e, Reader.bind r f (v.items.map token ++ rest) = .error e := fun rest => by
        obtain ⟨e, he⟩ := hr rest
        exact ⟨e, by rw [Reader.bind, he]⟩
      refine ⟨fun _ => .inr fun rest => ?_, fun e _ => ?_⟩
      · rw [hmap, List.append_assoc]
        exact hfail _
      · rw [hmap]
        exact hfail _

/-- A computation that may throw, before the reader has what it needs. -/
theorem Follows.lift {x : Except ε α} {f : α → Writer σ ε Unit} (hr : Hungry r)
    (h : ∀ a, x = .ok a → Follows token (f a) r P) : Follows token (Writer.bind (Writer.lift x) f) r P := by
  cases x with
  | ok a => exact h a rfl
  | error e => exact ⟨fun hok => (nomatch hok), fun _ _ => hr⟩

/-- The last part. -/
theorem Follows.last {f : β → γ} (h : Follows token v r P) (hQ : ∀ b, P b → Q (f b)) :
    Follows token v (Reader.bind r fun b => Reader.pure (f b)) Q := by
  rw [← Writer.bind_pure v]
  exact h.bind fun b hb => Follows.pure (hQ b hb)

/-- `b` is what `r` reads of what `w` wrote and nothing else. -/
def Own (token : σ → τ) (w : Writer σ ε Unit) (r : Reader τ ε' β) (b : β) : Prop :=
  w.result = .ok () ∧ r (w.items.map token) = .ok (b, [])

/-- A reader that follows a writer reads the writer's own tokens. -/
theorem Follows.own (h : Follows token v r P) : Follows token v r fun b => P b ∧ Own token v r b where
  whole := by
    intro hv
    rcases h.whole hv with ⟨b, hb, hr⟩ | hr
    · have halone := hr []
      rw [List.append_nil] at halone
      exact .inl ⟨b, ⟨hb, hv, halone⟩, hr⟩
    · exact .inr hr
  thrown := h.thrown

/-- Behind a computation that did not throw. -/
theorem Own.of_lift {x : Except ε α} {f : α → Writer σ ε Unit} {b : β}
    (h : Own token (Writer.bind (Writer.lift x) f) r b) : ∃ a, x = .ok a ∧ Own token (f a) r b := by
  cases x with
  | ok a => exact ⟨a, rfl, h⟩
  | error e => cases h.1

/-! ### Loops -/

/-- `Q` of each element that a loop over the list comes to. -/
def Until (w : α → Writer σ ε Unit) (Q : α → Prop) : List α → Prop
  | [] => True
  | a :: as => Q a ∧ ((w a).result = .ok () → Until w Q as)

variable {u : α → Writer σ ε Unit} {p q : α → Prop}

theorem Until.of_forall (h : ∀ a ∈ as, p a) : Until u p as := by
  induction as with
  | nil => trivial
  | cons a as ih => exact ⟨h a List.mem_cons_self, fun _ => ih fun b hb => h b (List.mem_cons_of_mem _ hb)⟩

theorem Until.mono (h : Until u p as) (hpq : ∀ a ∈ as, p a → q a) : Until u q as := by
  induction as with
  | nil => trivial
  | cons a as ih =>
    exact ⟨hpq a List.mem_cons_self h.1, fun ha => ih (h.2 ha) fun b hb => hpq b (List.mem_cons_of_mem _ hb)⟩

theorem Follows.forEach (h : Until u (fun a => Follows token (u a) r fun _ => True) as) :
    Follows token (Writer.forEach u as) (Reader.many r as.length) fun _ => True := by
  induction as with
  | nil => exact Follows.pure trivial
  | cons a as ih =>
    obtain ⟨ha, has⟩ := h
    have hdone : Follows token (u a) r fun _ => (u a).result = .ok () := ha.own.mono fun b hb => hb.2.1
    exact hdone.bind fun b hb => (ih (has hb)).last fun _ _ => trivial

/-- Each element is read as something that it is related to. -/
theorem Follows.forEach_rel {R : α → β → Prop} (h : ∀ a ∈ as, Follows token (u a) r (R a)) :
    Follows token (Writer.forEach u as) (Reader.many r as.length) (List.Forall₂ R as) := by
  induction as with
  | nil => exact Follows.pure .nil
  | cons a as ih =>
    have hrest := ih fun c hc => h c (List.mem_cons_of_mem _ hc)
    exact (h a List.mem_cons_self).bind fun b hb => hrest.last fun bs hbs => .cons hb hbs

/-- Two loops that are read as one. -/
theorem Follows.many_add {m n : ℕ} (h : Follows token v (Reader.many r m) fun _ => True)
    (h' : Follows token v' (Reader.many r n) fun _ => True) :
    Follows token (Writer.bind v fun _ => v') (Reader.many r (m + n)) fun _ => True := by
  rw [Reader.many_add]
  exact h.bind fun _ _ => h'.last fun _ _ => trivial

theorem Follows.counted {size : Reader τ ε' ℕ} {n : ℕ} {S : List β → Prop} (hsize : Follows token v size (· = n))
    (h : Follows token v' (Reader.many r n) S) :
    Follows token (Writer.bind v fun _ => v') (Reader.counted size r) S := by
  apply hsize.bind
  intro m hm
  rw [hm]
  exact h

/-- A counted loop, and what comes after. -/
theorem Follows.counted_bind {size : Reader τ ε' ℕ} {n : ℕ} {f : List β → Reader τ ε' γ}
    (hsize : Follows token v size (· = n)) (h : Follows token v' (Reader.many r n) fun _ => True)
    (hrest : ∀ bs, Follows token v'' (f bs) Q) :
    Follows token (Writer.bind v fun _ => Writer.bind v' fun _ => v'')
      (Reader.bind (Reader.counted size r) f) Q := by
  rw [← Writer.bind_assoc]
  exact (hsize.counted h).bind fun bs _ => hrest bs

end Tokens
