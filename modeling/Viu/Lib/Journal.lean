/-
# A journal in two files

Records are kept in two files to which one only appends: a record has its bytes
in the one, and in the other a line that tells where they are. The line is
written after the bytes, and any of the writes may be cut short, after which a
new writer goes on with the files as they are. The reader looks for a record in
every line. A line begins with a character it has nowhere else, and ends so as
well (`Format.Lawful`), so a piece of a line says nothing and hides nothing; only
a line without its newline hides the line behind it.

`Holds` is what is read of the files, whatever is appended to them: it is kept
by every write, whole (`Holds.line`) or in part (`Holds.cutLine`). The writer
(`Journal.step`) takes its records from a queue, and may die at any moment. In
every run what is read is what was recorded, in its order, up to what the writer
has still to write and to one record for each time it died (`loaded`).
-/
import Viu.Lib.Run
import Mathlib.Data.List.Basic

namespace Journal

/-- How records are kept and read. -/
structure Format (R V τ β : Type*) where
  newline : τ
  first : τ
  last : τ
  bytes : R → List β
  /-- The line of a record whose bytes are at an offset, between its ends. -/
  body : R → ℕ → List τ
  /-- What a line and the bytes are read as. -/
  read : List β → List τ → Option V
  value : R → V
  /-- The records that can be kept, and where the bytes have to end. -/
  ok : R → Prop
  limit : ℕ

namespace Format

variable {R V τ β : Type*} (F : Format R V τ β)

def line (r : R) (offset : ℕ) : List τ := F.first :: F.body r offset ++ [F.last]

structure Lawful : Prop where
  newline_line : ∀ r offset, F.newline ∉ F.line r offset
  last_body : ∀ r offset, F.last ∉ F.first :: F.body r offset
  /-- A piece without an end is no record. -/
  read_piece : ∀ bytes piece, F.last ∉ piece → F.read bytes piece = none
  /-- Behind a piece, and whatever comes after it, a line is read. -/
  read_line : ∀ r before after piece more, F.ok r → (before ++ F.bytes r ++ after).length < F.limit →
    F.last ∉ piece → F.read (before ++ F.bytes r ++ after) (piece ++ F.line r before.length ++ more) = some (F.value r)

end Format

structure Files (τ β : Type*) where
  bytes : List β
  index : List τ

variable {R V τ β : Type*} {F : Format R V τ β}

/-! ### What the files hold -/

/-- The records that are read, now and whatever is appended; and whether the
last line is a record without its newline (`unended`). -/
def Holds (F : Format R V τ β) (files : Files τ β) (kept : List R) (unended : Bool) : Prop :=
  ∃ (lines : List (List τ)) (piece : List τ), files.index = lines.flatMap (· ++ [F.newline]) ++ piece ∧
    (∀ l ∈ lines, F.newline ∉ l) ∧ F.newline ∉ piece ∧ (unended = false → F.last ∉ piece) ∧
    ∀ after more, (files.bytes ++ after).length < F.limit → (unended = true ∨ F.last ∉ more) →
      lines.filterMap (F.read (files.bytes ++ after)) ++ (F.read (files.bytes ++ after) (piece ++ more)).toList =
        kept.map F.value

variable {files : Files τ β} {kept : List R} {unended : Bool} {r : R}

theorem Holds.empty (hF : F.Lawful) : Holds F ⟨[], []⟩ [] false := by
  refine ⟨[], [], rfl, List.forall_mem_nil _, List.not_mem_nil, fun _ => List.not_mem_nil, ?_⟩
  intro after more _ hmore
  have hlast : F.last ∉ more := hmore.resolve_left Bool.false_ne_true
  rw [List.nil_append more, hF.read_piece _ _ hlast]
  rfl

/-- Bytes are appended. -/
theorem Holds.bytes (h : Holds F files kept unended) (bs : List β) :
    Holds F { files with bytes := files.bytes ++ bs } kept unended := by
  obtain ⟨lines, piece, hindex, hlines, hpiece, hlast, hread⟩ := h
  refine ⟨lines, piece, hindex, hlines, hpiece, hlast, fun after more hlimit hmore => ?_⟩
  simp only [List.append_assoc] at hlimit ⊢
  exact hread (bs ++ after) more hlimit hmore

/-- A piece of a line is appended. -/
theorem Holds.cutLine (h : Holds F files kept unended) {w : List τ} (hw : F.newline ∉ w) (hlast : F.last ∉ w) :
    Holds F { files with index := files.index ++ w } kept unended := by
  obtain ⟨lines, piece, hindex, hlines, hpiece, hopen, hread⟩ := h
  refine ⟨lines, piece ++ w, ?_, hlines, ?_, fun ho => ?_, fun after more hlimit hmore => ?_⟩
  · rw [hindex, List.append_assoc]
  · exact List.not_mem_append hpiece hw
  · exact List.not_mem_append (hopen ho) hlast
  · rw [List.append_assoc]
    exact hread after (w ++ more) hlimit (hmore.imp_right (List.not_mem_append hlast))

/-- A line is appended, but not its newline. It is hidden if another one is open. -/
theorem Holds.openLine (hF : F.Lawful) (h : Holds F files kept unended) {before : List β} (hr : F.ok r)
    (hbytes : files.bytes = before ++ F.bytes r) :
    Holds F { files with index := files.index ++ F.line r before.length }
      (if unended then kept else kept ++ [r]) true := by
  obtain ⟨lines, piece, hindex, hlines, hpiece, hopen, hread⟩ := h
  refine ⟨lines, piece ++ F.line r before.length, ?_, hlines, ?_, Bool.noConfusion, fun after more hlimit _ => ?_⟩
  · rw [hindex, List.append_assoc]
  · exact List.not_mem_append hpiece (hF.newline_line r _)
  cases unended with
  | true =>
    rw [List.append_assoc, if_pos rfl]
    exact hread after _ hlimit (.inl rfl)
  | false =>
    have hlast : F.last ∉ piece := hopen rfl
    -- the lines are all the records there were
    have hrest := hread after [] hlimit (.inr List.not_mem_nil)
    rw [List.append_nil, hF.read_piece _ _ hlast, Option.toList_none, List.append_nil] at hrest
    have hline : F.read (files.bytes ++ after) (piece ++ F.line r before.length ++ more) = some (F.value r) := by
      rw [hbytes] at hlimit ⊢
      exact hF.read_line r before after piece more hr hlimit hlast
    rw [hrest, hline, if_neg Bool.false_ne_true, List.map_append]
    rfl

theorem Holds.newline (hF : F.Lawful) (h : Holds F files kept true) :
    Holds F { files with index := files.index ++ [F.newline] } kept false := by
  obtain ⟨lines, piece, hindex, hlines, hpiece, -, hread⟩ := h
  refine ⟨lines ++ [piece], [], ?_, ?_, List.not_mem_nil, fun _ => List.not_mem_nil, fun after more hlimit hmore => ?_⟩
  · simp [hindex]
  · intro l hl
    rcases List.mem_append.mp hl with hl | hl
    · exact hlines l hl
    · rwa [List.mem_singleton.mp hl]
  · have hpieces := hread after [] hlimit (.inl rfl)
    rw [List.append_nil] at hpieces
    rw [List.nil_append, hF.read_piece _ _ (hmore.resolve_left Bool.false_ne_true), Option.toList_none, List.append_nil,
      List.filterMap_append, List.filterMap_eq_flatMap_toList _ [piece], List.flatMap_singleton,
      ← hpieces]

/-- A line is appended, with its newline. -/
theorem Holds.line (hF : F.Lawful) (h : Holds F files kept unended) {before : List β} (hr : F.ok r)
    (hbytes : files.bytes = before ++ F.bytes r) :
    Holds F { files with index := files.index ++ (F.line r before.length ++ [F.newline]) }
      (if unended then kept else kept ++ [r]) false := by
  have hline := (h.openLine hF hr hbytes).newline hF
  rwa [List.append_assoc] at hline

/-! ### What is read -/

section load

variable [BEq τ] [LawfulBEq τ]

def Format.load (F : Format R V τ β) (files : Files τ β) : List V :=
  (files.index.splitOn F.newline).filterMap (F.read files.bytes)

theorem splitOn_lines {newline : τ} {piece : List τ} : ∀ {lines : List (List τ)}, (∀ l ∈ lines, newline ∉ l) →
    newline ∉ piece → (lines.flatMap (· ++ [newline]) ++ piece).splitOn newline = lines ++ [piece]
  | [], _, hp => List.splitOn_eq_singleton hp
  | l :: lines, hl, hp => by
    have hsplit := splitOn_lines (fun l' hl' => hl l' (List.mem_cons_of_mem l hl')) hp
    rw [List.flatMap_cons, List.append_assoc, List.append_assoc, List.singleton_append,
      List.splitOn_append_cons_self_of_not_mem (hl l List.mem_cons_self), hsplit, List.cons_append]

theorem Holds.load_eq (h : Holds F files kept unended) (hlimit : files.bytes.length < F.limit) :
    F.load files = kept.map F.value := by
  obtain ⟨lines, piece, hindex, hlines, hpiece, -, hread⟩ := h
  have hnow := hread [] [] (by rwa [List.append_nil]) (.inr List.not_mem_nil)
  rw [List.append_nil, List.append_nil] at hnow
  rw [Format.load, hindex, splitOn_lines hlines hpiece, List.filterMap_append,
    List.filterMap_eq_flatMap_toList _ [piece], List.flatMap_singleton, hnow]

end load

/-! ### The writer -/

/-- Where the writing thread is. -/
inductive Writer (R τ : Type*)
  | waiting
  /-- It has taken the record out of the queue. -/
  | holding (r : R)
  /-- The record's bytes are written; the line is next. -/
  | flushed (r : R) (line : List τ)
  /-- It has returned, or died with its process. -/
  | gone
  deriving DecidableEq

/-- The record that the writer has, not written to its end. -/
def Writer.inHand : Writer R τ → List R
  | .waiting | .gone => []
  | .holding r | .flushed r _ => [r]

structure State (R τ β : Type*) where
  files : Files τ β
  queue : List R
  writer : Writer R τ
  shutdown : Bool
  -- the record of the run
  recorded : List R
  /-- The records that were in the queue when the process died. -/
  abandoned : ℕ
  crashes : ℕ

def State.init : State R τ β := ⟨⟨[], []⟩, [], .waiting, false, [], 0, 0⟩

inductive Act (R : Type*)
  | record (r : R)
  | shutdown
  | pop
  | writeBytes
  | writeLine
  | leave
  /-- The process dies with this much of the write that is next done. -/
  | crash (n : ℕ)
  /-- A new process, with the files that are there. -/
  | restart

/-- The files when no more than `n` of the next write is done. -/
def State.cut (F : Format R V τ β) (s : State R τ β) (n : ℕ) : Files τ β :=
  match s.writer with
  | .waiting | .gone => s.files
  | .holding r => { s.files with bytes := s.files.bytes ++ (F.bytes r).take n }
  | .flushed _ line => { s.files with index := s.files.index ++ (line ++ [F.newline]).take n }

/-- A move that is not enabled gives `none`. -/
def step (F : Format R V τ β) (s : State R τ β) : Act R → Option (State R τ β)
  | .record r =>
    if s.shutdown then none else some { s with queue := s.queue ++ [r], recorded := s.recorded ++ [r] }
  | .shutdown => some { s with shutdown := true }
  | .pop =>
    match s.writer, s.queue with
    | .waiting, r :: queue => some { s with queue := queue, writer := .holding r }
    | _, _ => none
  | .writeBytes =>
    match s.writer with
    | .holding r => some { s with
        files := { s.files with bytes := s.files.bytes ++ F.bytes r }
        writer := .flushed r (F.line r s.files.bytes.length) }
    | _ => none
  | .writeLine =>
    match s.writer with
    | .flushed _ line => some { s with
        files := { s.files with index := s.files.index ++ (line ++ [F.newline]) }
        writer := .waiting }
    | _ => none
  | .leave =>
    match s.writer, s.queue with
    | .waiting, [] => if s.shutdown then some { s with writer := .gone } else none
    | _, _ => none
  | .crash n =>
    match s.writer with
    | .gone => none
    | _ => some { s with
        files := s.cut F n
        queue := []
        writer := .gone
        shutdown := true
        abandoned := s.abandoned + s.queue.length
        crashes := s.crashes + 1 }
  | .restart =>
    match s.writer with
    | .gone => some { s with writer := .waiting, shutdown := false }
    | _ => none

/-! ### What a step does -/

inductive Step (F : Format R V τ β) (s : State R τ β) : Act R → State R τ β → Prop
  | record {r : R} (hs : s.shutdown = false) :
    Step F s (.record r) { s with queue := s.queue ++ [r], recorded := s.recorded ++ [r] }
  | shutdown : Step F s .shutdown { s with shutdown := true }
  | pop {r : R} {queue : List R} (hw : s.writer = .waiting) (hq : s.queue = r :: queue) :
      Step F s .pop { s with queue := queue, writer := .holding r }
  | writeBytes {r : R} (hw : s.writer = .holding r) : Step F s .writeBytes { s with
      files := { s.files with bytes := s.files.bytes ++ F.bytes r }
      writer := .flushed r (F.line r s.files.bytes.length) }
  | writeLine {r : R} {line : List τ} (hw : s.writer = .flushed r line) : Step F s .writeLine { s with
      files := { s.files with index := s.files.index ++ (line ++ [F.newline]) }
      writer := .waiting }
  | leave (hw : s.writer = .waiting) (hq : s.queue = []) (hs : s.shutdown = true) :
      Step F s .leave { s with writer := .gone }
  | crash {n : ℕ} : Step F s (.crash n) { s with
      files := s.cut F n
      queue := []
      writer := .gone
      shutdown := true
      abandoned := s.abandoned + s.queue.length
      crashes := s.crashes + 1 }
  | restart (hw : s.writer = .gone) : Step F s .restart { s with writer := .waiting, shutdown := false }

variable {s t : State R τ β} {a : Act R}

theorem step_cases (h : step F s a = some t) : Step F s a t := by
  cases a with
  | record r =>
    obtain ⟨hs, ⟨⟩⟩ := Option.ite_none_left_eq_some.mp h
    exact .record (Bool.eq_false_iff.mpr hs)
  | shutdown =>
    cases h
    exact .shutdown
  | pop =>
    simp only [step] at h
    split at h
    · rename_i r queue hw hq
      cases h
      exact .pop hw hq
    · cases h
  | writeBytes =>
    simp only [step] at h
    split at h
    · rename_i r hw
      cases h
      exact .writeBytes hw
    · cases h
  | writeLine =>
    simp only [step] at h
    split at h
    · rename_i r line hw
      cases h
      exact .writeLine hw
    · cases h
  | leave =>
    simp only [step] at h
    split at h
    · rename_i hw hq
      obtain ⟨hs, ⟨⟩⟩ := Option.ite_none_right_eq_some.mp h
      exact .leave hw hq hs
    · cases h
  | crash n =>
    simp only [step] at h
    split at h
    · cases h
    · cases h
      exact .crash
  | restart =>
    simp only [step] at h
    split at h
    · rename_i hw
      cases h
      exact .restart hw
    · cases h

/-! ### Every run -/

/-- Only records that can be kept. -/
def Keepable (F : Format R V τ β) (_ : State R τ β) (a : Act R) : Prop := ∀ r, a = .record r → F.ok r

/-- What the files hold, and what became of the rest. -/
structure Inv (F : Format R V τ β) (s : State R τ β) (kept : List R) (unended : Bool) : Prop where
  holds : Holds F s.files kept unended
  ok : ∀ r ∈ s.writer.inHand ++ s.queue, F.ok r
  flushed : ∀ r line, s.writer = .flushed r line →
    ∃ before, s.files.bytes = before ++ F.bytes r ∧ line = F.line r before.length
  sublist : (kept ++ s.writer.inHand ++ s.queue).Sublist s.recorded
  count : s.recorded.length + unended.toNat ≤
    kept.length + (s.writer.inHand ++ s.queue).length + s.abandoned + s.crashes

/-- A line of which no more than `n` characters are written. -/
theorem Holds.cutAt (hF : F.Lawful) (h : Holds F files kept unended) {before : List β} (hr : F.ok r)
    (hbytes : files.bytes = before ++ F.bytes r) (n : ℕ) :
    ∃ kept' unended', Holds F { files with
        index := files.index ++ (F.line r before.length ++ [F.newline]).take n } kept' unended' ∧
      kept'.Sublist (kept ++ [r]) ∧ kept.length + 1 + unended'.toNat ≤ kept'.length + unended.toNat + 1 := by
  have hsub : (if unended then kept else kept ++ [r]).Sublist (kept ++ [r]) := by
    split
    · exact List.sublist_append_left kept [r]
    · exact List.Sublist.refl _
  have hlen : (if unended then kept else kept ++ [r]).length + unended.toNat = kept.length + 1 := by
    cases unended <;> simp
  have hbody : (F.first :: F.body r before.length).length + 1 = (F.line r before.length).length := by
    rw [Format.line, List.length_append, List.length_singleton]
  rcases Nat.lt_trichotomy n (F.line r before.length).length with hn | hn | hn
  · -- a piece of the line
    refine ⟨kept, unended, ?_, List.sublist_append_left kept [r], by omega⟩
    rw [List.take_append_of_le_length (by omega), Format.line, List.take_append_of_le_length (by omega)]
    refine h.cutLine (fun hmem => ?_) fun hmem => ?_
    · exact hF.newline_line r before.length (List.mem_append_left _ (List.mem_of_mem_take hmem))
    · exact hF.last_body r before.length (List.mem_of_mem_take hmem)
  · -- all but the newline
    refine ⟨_, true, ?_, hsub, ?_⟩
    · rw [List.take_append_of_le_length (by omega), hn, List.take_length]
      exact h.openLine hF hr hbytes
    · rw [Bool.toNat_true]
      omega
  · -- the line
    refine ⟨_, false, ?_, hsub, ?_⟩
    · rw [List.take_of_length_le (by rw [List.length_append, List.length_singleton]; omega)]
      exact h.line hF hr hbytes
    · rw [Bool.toNat_false]
      omega

/-- What a process that dies leaves of the write that was next. -/
theorem Inv.cut (hF : F.Lawful) (h : Inv F s kept unended) (n : ℕ) :
    ∃ kept' unended', Holds F (s.cut F n) kept' unended' ∧ kept'.Sublist (kept ++ s.writer.inHand) ∧
      kept.length + s.writer.inHand.length + unended'.toNat ≤ kept'.length + unended.toNat + 1 := by
  have hsub : kept.Sublist (kept ++ s.writer.inHand) := List.sublist_append_left kept _
  unfold State.cut
  split
  · rename_i hw
    exact ⟨kept, unended, h.holds, hsub, by simp [hw, Writer.inHand, Nat.add_assoc]⟩
  · rename_i hw
    exact ⟨kept, unended, h.holds, hsub, by simp [hw, Writer.inHand, Nat.add_assoc]⟩
  · rename_i r hw
    refine ⟨kept, unended, h.holds.bytes _, hsub, ?_⟩
    rw [hw, Writer.inHand, List.length_singleton]
    omega
  · rename_i r line hw
    obtain ⟨before, hbytes, rfl⟩ := h.flushed r line hw
    have hr : F.ok r := h.ok r (by simp [hw, Writer.inHand])
    rw [hw, Writer.inHand, List.length_singleton]
    exact h.holds.cutAt hF hr hbytes n

theorem Inv.step (hF : F.Lawful) (h : Inv F s kept unended) (ha : Keepable F s a) (hst : Step F s a t) :
    ∃ kept' unended', Inv F t kept' unended' := by
  have hsublist := h.sublist
  have hcount := h.count
  cases hst with
  | record hs =>
    rename_i r
    refine ⟨kept, unended, ⟨h.holds, fun x hx => ?_, h.flushed, ?_, ?_⟩⟩
    · rw [← List.append_assoc, List.mem_append, List.mem_singleton] at hx
      rcases hx with hx | rfl
      · exact h.ok x hx
      · exact ha x rfl
    · rw [← List.append_assoc]
      exact hsublist.append_right [r]
    · simp only [List.length_append, List.length_singleton] at hcount ⊢
      omega
  | shutdown => exact ⟨kept, unended, ⟨h.holds, h.ok, h.flushed, hsublist, hcount⟩⟩
  | pop hw hq =>
    rename_i r queue
    rw [hw, hq] at hsublist hcount
    refine ⟨kept, unended, ⟨h.holds, ?_, ?_, ?_, ?_⟩⟩
    · simpa [hw, hq, Writer.inHand] using h.ok
    · rintro _ _ ⟨⟩
    · simpa [Writer.inHand] using hsublist
    · simpa [Writer.inHand] using hcount
  | writeBytes hw =>
    rename_i r
    rw [hw] at hsublist hcount
    refine ⟨kept, unended, ⟨h.holds.bytes _, ?_, ?_, hsublist, hcount⟩⟩
    · simpa [hw, Writer.inHand] using h.ok
    · rintro _ _ ⟨⟩
      exact ⟨s.files.bytes, rfl, rfl⟩
  | writeLine hw =>
    rename_i r line
    obtain ⟨before, hbytes, rfl⟩ := h.flushed r line hw
    have hr : F.ok r := h.ok r (by simp [hw, Writer.inHand])
    rw [hw] at hsublist hcount
    refine ⟨_, false, ⟨h.holds.line hF hr hbytes, fun x hx => ?_, ?_, ?_, ?_⟩⟩
    · exact h.ok x (by rw [hw]; exact List.mem_cons_of_mem r hx)
    · rintro _ _ ⟨⟩
    · refine List.Sublist.trans ?_ hsublist
      simp only [Writer.inHand, List.append_nil]
      refine List.Sublist.append_right ?_ _
      split
      · exact List.sublist_append_left kept [r]
      · exact List.Sublist.refl _
    · cases unended <;> simp [Writer.inHand] at hcount ⊢ <;> omega
  | leave hw hq hs =>
    rw [hw] at hsublist hcount
    exact ⟨kept, unended,
      ⟨h.holds, by simpa [hw, Writer.inHand] using h.ok, fun _ _ hg => (nomatch hg), hsublist, hcount⟩⟩
  | crash =>
    rename_i n
    obtain ⟨kept', unended', hholds, hsub, hlen⟩ := h.cut hF n
    refine ⟨kept', unended', ⟨hholds, fun _ hx => (nomatch hx), fun _ _ hg => (nomatch hg), ?_, ?_⟩⟩
    · have hleft : (kept ++ s.writer.inHand).Sublist s.recorded :=
        (List.sublist_append_left _ s.queue).trans hsublist
      simpa [Writer.inHand] using hsub.trans hleft
    · rw [List.length_append] at hcount
      show s.recorded.length + unended'.toNat ≤ kept'.length + 0 + (s.abandoned + s.queue.length) + (s.crashes + 1)
      omega
  | restart hw =>
    rw [hw] at hsublist hcount
    exact ⟨kept, unended,
      ⟨h.holds, by simpa [hw, Writer.inHand] using h.ok, fun _ _ hg => (nomatch hg), hsublist, hcount⟩⟩

theorem inv (hF : F.Lawful) (h : Runs.Reach (fun s a t => Journal.step F s a = some t) (Keepable F) State.init s) :
    ∃ kept unended, Inv F s kept unended := by
  refine h.invariant (I := fun s => ∃ kept unended, Inv F s kept unended) ?_ fun s a t hI ha hst => ?_
  · exact ⟨[], false,
      ⟨.empty hF, fun _ hx => (nomatch hx), fun _ _ hg => (nomatch hg), List.Sublist.refl _, Nat.le_refl _⟩⟩
  · obtain ⟨kept, unended, hI⟩ := hI
    exact hI.step hF ha (step_cases hst)

/-- **What is read is what was recorded**, in its order, but for what the writer
has still to write, what a process had in its queue when it died, and one
record for each time. -/
theorem loaded [BEq τ] [LawfulBEq τ] (hF : F.Lawful)
    (h : Runs.Reach (fun s a t => Journal.step F s a = some t) (Keepable F) State.init s)
    (hlimit : s.files.bytes.length < F.limit) :
    ∃ kept, F.load s.files = kept.map F.value ∧ (kept ++ s.writer.inHand ++ s.queue).Sublist s.recorded ∧
      s.recorded.length ≤ kept.length + (s.writer.inHand ++ s.queue).length + s.abandoned + s.crashes := by
  obtain ⟨kept, unended, hI⟩ := inv hF h
  exact ⟨kept, hI.holds.load_eq hlimit, hI.sublist, by have := hI.count; omega⟩

/-- A writer that is gone has left nothing in the queue; only a process that died
has abandoned records. -/
structure Tidy (s : State R τ β) : Prop where
  gone : s.writer = .gone → s.queue = [] ∧ s.shutdown = true
  abandoned : s.crashes = 0 → s.abandoned = 0

theorem Tidy.step (h : Tidy s) (hst : Step F s a t) : Tidy t := by
  cases hst with
  | record hs => exact ⟨fun hw => absurd ((h.gone hw).2.symm.trans hs) (by decide), h.abandoned⟩
  | shutdown => exact ⟨fun hw => ⟨(h.gone hw).1, rfl⟩, h.abandoned⟩
  | leave hw hq hs => exact ⟨fun _ => ⟨hq, hs⟩, h.abandoned⟩
  | crash => exact ⟨fun _ => ⟨rfl, rfl⟩, fun hc => absurd hc (Nat.succ_ne_zero _)⟩
  | pop | writeBytes | writeLine | restart => exact ⟨fun hw => (nomatch hw), h.abandoned⟩

theorem tidy {ok : State R τ β → Act R → Prop}
    (h : Runs.Reach (fun s a t => Journal.step F s a = some t) ok State.init s) : Tidy s := by
  refine h.invariant ⟨fun hw => (nomatch hw), fun _ => rfl⟩ fun s a t hI _ hst => ?_
  exact hI.step (step_cases hst)

/-- **Once the writer has returned**, and no process died, what is read is all that
was recorded. -/
theorem loaded_all [BEq τ] [LawfulBEq τ] (hF : F.Lawful)
    (h : Runs.Reach (fun s a t => Journal.step F s a = some t) (Keepable F) State.init s)
    (hlimit : s.files.bytes.length < F.limit) (hgone : s.writer = .gone) (hcrashes : s.crashes = 0) :
    F.load s.files = s.recorded.map F.value := by
  obtain ⟨kept, hload, hsub, hlen⟩ := loaded hF h hlimit
  have hqueue : s.queue = [] := ((tidy h).gone hgone).1
  have habandoned : s.abandoned = 0 := (tidy h).abandoned hcrashes
  rw [hgone, hqueue, Writer.inHand, List.append_nil, List.append_nil] at hsub
  rw [hgone, hqueue, Writer.inHand, List.append_nil, List.length_nil, habandoned, hcrashes] at hlen
  rw [hload, hsub.eq_of_length_le hlen]

end Journal
