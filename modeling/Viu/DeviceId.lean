/-
# Device ids as text

`args::device_id` is written in decimal and read in hexadecimal. The reader
works on a stream of its own that it makes from all of the text; that stream
fails, the one it was given does not. The character between the numbers may be
any, and what follows the second number is not looked at.

What is written is read back for the numbers of one digit and where an
overflow leaves the largest number; no text is refused (`device_id_text_iff`).
-/
import Viu.Json
import Viu.Lib.Cut
import Viu.Lib.Digits

namespace Viu

open Bytes Text

/-! ### Formatted input -/

/-- What is left of a stream, and its flags. -/
structure InStream where
  rest : List Char
  eof : Bool
  fail : Bool
  deriving DecidableEq, Repr

namespace InStream

def of (text : List Char) : InStream := ⟨text, false, false⟩

/-- The sentry of a formatted read: a stream that is not good fails, and white space is
skipped. -/
def sentry (s : InStream) : InStream :=
  if s.eof ∨ s.fail then { s with fail := true }
  else if s.rest.dropWhile isSpace = [] then ⟨[], true, true⟩
  else of (s.rest.dropWhile isSpace)

/-- `0x` in front of the digits. -/
def hexPrefix : Word → Word
  | '0' :: x :: ds => if x = 'x' ∨ x = 'X' then ds else '0' :: x :: ds
  | ds => ds

def isHex (c : Char) : Bool := digitValue c < 16

/-- `operator>>` to an unsigned number behind `std::hex`. A number that does not fit is
the largest one, and fails. -/
def extractHex (s : InStream) (v : U32) : InStream × U32 :=
  let s := s.sentry
  if s.fail then (s, v)
  else
    let (negative, cs) := signed s.rest
    let digits := (hexPrefix cs).takeWhile isHex
    let rest := (hexPrefix cs).dropWhile isHex
    if digits = [] then (⟨rest, rest = [], true⟩, 0)
    else if ofDigits 16 digits < 2 ^ 32 then
      (⟨rest, rest = [], false⟩,
        if negative then -BitVec.ofNat 32 (ofDigits 16 digits) else BitVec.ofNat 32 (ofDigits 16 digits))
    else (⟨rest, rest = [], true⟩, BitVec.allOnes 32)

/-- `operator>>` to a character. -/
def extractChar (s : InStream) (c : Char) : InStream × Char :=
  let s := s.sentry
  match s.fail, s.rest with
  | false, c' :: rest => ({ s with rest := rest }, c')
  | _, _ => (s, c)

end InStream

/-! ### Ids -/

structure DeviceId where
  vid : U32
  pid : U32
  deriving DecidableEq, Repr

namespace DeviceId

open InStream

/-- `operator<<`. -/
def write (id : DeviceId) : List Char := out id.vid ++ ':' :: out id.pid

/-- `operator>>`. -/
def read (input : InStream) (id : DeviceId) : InStream × DeviceId :=
  let fromHex := of input.rest
  let (fromHex, vid) := fromHex.extractHex id.vid
  let (fromHex, _column) := fromHex.extractChar '\x00'
  let (_fromHex, pid) := fromHex.extractHex id.pid
  ({ input with rest := [] }, ⟨vid, pid⟩)

end DeviceId

/-- A hexadecimal number. -/
def IsHexNumber (w : Word) : Prop := w ≠ [] ∧ ∀ c ∈ w, InStream.isHex c = true

/-- Two hexadecimal numbers, separated by a colon, and nothing else. -/
def IsDeviceId (text : List Char) : Prop := ∃ vid pid, text = vid ++ ':' :: pid ∧ IsHexNumber vid ∧ IsHexNumber pid

/-- What is written for an id is read back, into `target`. -/
def DeviceId.ReadsBack (id target : DeviceId) : Prop := (read (.of id.write) target).2 = id

/-- A text that is no id is refused. -/
def DeviceId.Refuses (text : List Char) (target : DeviceId) : Prop :=
  ¬IsDeviceId text → (read (.of text) target).1.fail = true

/-! ### A decimal number is read in hexadecimal -/

namespace InStream

/-- What the decimal digits of `n` are in hexadecimal. -/
def hexOfDecimal (n : ℕ) : ℕ := ofDigits 16 (Nat.toDigits 10 n)

theorem hexOfDecimal_eq_iff (n : ℕ) : hexOfDecimal n = n ↔ n < 10 :=
  Digits.value_toDigits_eq_iff (by decide) (by decide) (by decide) (fun _ hd => digitValue_digitChar (by omega)) n

theorem le_hexOfDecimal (n : ℕ) : n ≤ hexOfDecimal n := by
  calc n = Digits.value 10 digitValue (Nat.toDigits 10 n) :=
        (Digits.value_toDigits (by decide) (fun _ hd => digitValue_digitChar (by omega)) n).symm
    _ ≤ hexOfDecimal n := Digits.value_mono (by decide) _

theorem isHex_of_isDigit {c : Char} (h : c.isDigit = true) : isHex c = true := by
  obtain ⟨hlo, hhi⟩ := Char.isDigit_iff_toNat.mp h
  have hval : digitValue c = c.toNat - '0'.toNat := if_pos ⟨hlo, hhi⟩
  have h0 : '0'.toNat = 48 := rfl
  have h9 : '9'.toNat = 57 := rfl
  rw [isHex, hval, decide_eq_true_eq]
  omega

theorem hexPrefix_append {w tail : Word} (hw : w ≠ []) (hd : ∀ c ∈ w, c.isDigit = true)
    (htail : ∀ c ∈ tail.head?, c = ':') : hexPrefix (w ++ tail) = w ++ tail := by
  unfold hexPrefix
  split
  · rename_i x ds heq
    rw [if_neg, heq]
    rintro hx
    match w, tail with
    | [], _ => exact hw rfl
    | [_], [] => cases heq
    | [_], t :: _ =>
      obtain ⟨-, rfl, -⟩ : _ = '0' ∧ t = x ∧ _ = ds := by simpa using heq
      have hcolon := htail t rfl
      subst hcolon
      revert hx
      decide
    | _ :: c :: _, _ =>
      obtain ⟨-, rfl, -⟩ : _ = '0' ∧ c = x ∧ _ = ds := by simpa using heq
      have hdigit := hd c (by simp)
      rcases hx with rfl | rfl <;> exact absurd hdigit (by decide)
  · rfl

/-- A number and what ends it. -/
theorem extractHex_out (n v : U32) (tail : Word) (htail : ∀ c ∈ tail.head?, c = ':') :
    extractHex (of (out n ++ tail)) v =
      if hexOfDecimal n.toNat < 2 ^ 32 then (⟨tail, tail = [], false⟩, BitVec.ofNat 32 (hexOfDecimal n.toNat))
      else (⟨tail, tail = [], true⟩, BitVec.allOnes 32) := by
  have hdigit : ∀ c ∈ out n, c.isDigit = true := isDigit_toDigits
  have hhex : ∀ c ∈ out n, isHex c = true := fun c hc => isHex_of_isDigit (hdigit c hc)
  have hne : out n ≠ [] := Nat.toDigits_ne_nil
  -- the digits end where the tail begins
  have hstop : ∀ c ∈ tail.head?, isHex c = false := fun c hc => by
    rw [htail c hc]
    rfl
  have htake : (out n ++ tail).takeWhile isHex = out n := Cut.takeWhile_append hhex hstop
  have hdrop : (out n ++ tail).dropWhile isHex = tail := Cut.dropWhile_append hhex hstop
  -- and they begin with a digit: no white space, no sign
  obtain ⟨d, ds, hds⟩ := List.exists_cons_of_ne_nil hne
  have hd : d.isDigit = true := hdigit d (by rw [hds]; exact List.mem_cons_self)
  have hspace : (out n ++ tail).dropWhile isSpace = out n ++ tail := by
    rw [hds, List.cons_append, List.dropWhile_cons_of_neg]
    rw [not_isSpace_of_isDigit hd]
    exact Bool.false_ne_true
  have hsentry : (of (out n ++ tail)).sentry = of (out n ++ tail) := by
    simp [sentry, of, hspace, hne]
  have hsigned : signed (out n ++ tail) = (false, out n ++ tail) := by
    rw [hds, List.cons_append, signed_of_isDigit hd]
  have hprefix : hexPrefix (out n ++ tail) = out n ++ tail := hexPrefix_append hne hdigit htail
  unfold extractHex
  rw [hsentry]
  simp only [of, hsigned, hprefix, htake, hdrop]
  rw [if_neg Bool.false_ne_true, if_neg hne, if_neg Bool.false_ne_true]
  rfl

/-- A number that is read as itself: of one digit, or the largest. -/
theorem saturated_eq_iff (n : U32) :
    (if hexOfDecimal n.toNat < 2 ^ 32 then BitVec.ofNat 32 (hexOfDecimal n.toNat) else BitVec.allOnes 32) = n ↔
      n.toNat < 10 ∨ n = BitVec.allOnes 32 := by
  have hle := le_hexOfDecimal n.toNat
  have hmax : n = BitVec.allOnes 32 ↔ n.toNat = 2 ^ 32 - 1 := by
    rw [← BitVec.toNat_inj, BitVec.toNat_allOnes]
  by_cases hfits : hexOfDecimal n.toNat < 2 ^ 32
  · rw [if_pos hfits, ← BitVec.toNat_inj, BitVec.toNat_ofNat, Nat.mod_eq_of_lt hfits, hexOfDecimal_eq_iff, hmax]
    refine ⟨Or.inl, fun h => h.resolve_right fun hn => ?_⟩
    have hself : hexOfDecimal n.toNat = n.toNat := by omega
    have hone := (hexOfDecimal_eq_iff n.toNat).mp hself
    omega
  · rw [if_neg hfits, eq_comm]
    refine ⟨Or.inr, fun h => h.resolve_left fun hn => hfits ?_⟩
    rw [(hexOfDecimal_eq_iff n.toNat).mpr hn]
    exact n.isLt

end InStream

/-! ### What is read back -/

namespace DeviceId

open InStream

theorem read_write (id target : DeviceId) :
    (read (.of id.write) target).2 =
      if hexOfDecimal id.vid.toNat < 2 ^ 32 then
        ⟨BitVec.ofNat 32 (hexOfDecimal id.vid.toNat),
          if hexOfDecimal id.pid.toNat < 2 ^ 32 then BitVec.ofNat 32 (hexOfDecimal id.pid.toNat)
          else BitVec.allOnes 32⟩
      else ⟨BitVec.allOnes 32, target.pid⟩ := by
  have hvid := extractHex_out id.vid target.vid (':' :: out id.pid) fun c hc => (Option.some.inj hc).symm
  have hpid := extractHex_out id.pid target.pid [] fun c hc => nomatch hc
  rw [List.append_nil] at hpid
  unfold read write
  by_cases hfits : hexOfDecimal id.vid.toNat < 2 ^ 32
  · rw [if_pos hfits] at hvid ⊢
    have hcolumn : (⟨':' :: out id.pid, false, false⟩ : InStream).extractChar '\x00' = (of (out id.pid), ':') := rfl
    simp only [of] at hvid hpid hcolumn ⊢
    simp only [hvid, hcolumn, hpid, reduceCtorEq, decide_false]
    split <;> rfl
  · rw [if_neg hfits] at hvid ⊢
    simp only [of] at hvid ⊢
    simp only [hvid]
    rfl

theorem readsBack_iff (id target : DeviceId) :
    id.ReadsBack target ↔
      id.vid.toNat < 10 ∧ (id.pid.toNat < 10 ∨ id.pid = BitVec.allOnes 32) ∨
        id.vid = BitVec.allOnes 32 ∧ id.pid = target.pid := by
  obtain ⟨vid, pid⟩ := id
  have hvid := saturated_eq_iff vid
  have hpid := saturated_eq_iff pid
  unfold ReadsBack
  rw [read_write]
  by_cases hfits : hexOfDecimal vid.toNat < 2 ^ 32
  · have hmax : vid ≠ BitVec.allOnes 32 := by
      rintro rfl
      exact absurd hfits (by decide)
    rw [if_pos hfits] at hvid ⊢
    rw [mk.injEq, hvid, hpid]
    simp only [hmax, or_false, false_and]
  · have hten : ¬vid.toNat < 10 := fun hten => hfits (by rw [(hexOfDecimal_eq_iff _).mpr hten]; exact vid.isLt)
    rw [if_neg hfits, mk.injEq, eq_comm, eq_comm (a := target.pid)]
    simp only [hten, false_and, false_or]

/-- The stream that is read does not fail. -/
theorem refuses_iff (text : List Char) (target : DeviceId) : Refuses text target ↔ IsDeviceId text := by
  have hgood : ¬(read (.of text) target).1.fail = true := Bool.false_ne_true
  rw [Refuses, imp_iff_or_not, or_iff_right hgood, Classical.not_not]

end DeviceId

/-- **The text of a device id** is read back for ids of one digit, and where an overflow
leaves the largest number; a text is refused on no occasion. -/
theorem device_id_text_iff (id target : DeviceId) (text : List Char) :
    (id.ReadsBack target ↔
      id.vid.toNat < 10 ∧ (id.pid.toNat < 10 ∨ id.pid = BitVec.allOnes 32) ∨
        id.vid = BitVec.allOnes 32 ∧ id.pid = target.pid) ∧
    (DeviceId.Refuses text target ↔ IsDeviceId text) :=
  ⟨DeviceId.readsBack_iff id target, DeviceId.refuses_iff text target⟩

/-- 16:32 is written as "16:32" and read as 22:50; "zz" is read as 0:0. -/
theorem device_id_text_sixteen :
    (⟨16, 32⟩ : DeviceId).write = "16:32".toList ∧
    (DeviceId.read (.of "16:32".toList) ⟨0, 0⟩).2 = ⟨22, 50⟩ ∧
    DeviceId.read (.of "zz".toList) ⟨0, 0⟩ = (.of [], ⟨0, 0⟩) ∧
    (¬∀ id target : DeviceId, id.ReadsBack target) ∧ ¬∀ text target, DeviceId.Refuses text target := by
  refine ⟨by decide, by decide, by decide, fun h => ?_, fun h => ?_⟩
  · have hback : (DeviceId.read (.of (⟨16, 32⟩ : DeviceId).write) ⟨0, 0⟩).2 = ⟨16, 32⟩ := h ⟨16, 32⟩ ⟨0, 0⟩
    exact absurd hback (by decide)
  · have hno : ¬IsDeviceId "zz".toList := by
      rintro ⟨vid, pid, htext, -, -⟩
      have hcolon : ':' ∈ "zz".toList := by rw [htext]; simp
      exact absurd hcolon (by decide)
    exact absurd (h "zz".toList ⟨0, 0⟩ hno) Bool.false_ne_true

end Viu
