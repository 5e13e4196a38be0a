/-
# JSON lines

The recording proxy writes a flat JSON object to a line; the playback device
finds it there with a regular expression that allows white space between the
tokens. The pattern takes what is written, whatever comes behind it
(`first_object`). The object's braces are the only ones: nothing is found in a
piece without a closing brace (`search_piece`), nor in such a piece in front of
an object (`search_behind`).
-/
import Viu.Lib.Regex
import Viu.Lib.Digits
import Viu.VhciStatus

namespace Viu
namespace Jsonl

open Text Regex

def quoted (name : String) : List Char := '"' :: name.toList ++ ['"']

/-! ### What is written -/

def member (m : String × List Char) : List Char := quoted m.1 ++ ':' :: m.2

def members : List (String × List Char) → List Char
  | [] => []
  | [m] => member m
  | m :: ms => member m ++ ',' :: members ms

/-! ### What is looked for -/

/-- `\s*`. -/
def space : Regex Char := .star isSpace

/-- `[0-9]+`. -/
def decimal : Regex Char := .plus Char.isDigit

def isHex (c : Char) : Bool := digitValue c < 16

/-- `[0-9a-fA-F]+`. -/
def hexadecimal : Regex Char := .plus isHex

/-- A member, with white space around its tokens. -/
def field (name : String) (value : Regex Char) : Regex Char :=
  .seq space (.seq (.lit (quoted name)) (.seq space (.seq (.lit [':']) (.seq space (.seq value space)))))

def fields : List (String × Regex Char) → Regex Char
  | [] => .lit ['\x7d']
  | [f] => .seq (field f.1 f.2) (.lit ['\x7d'])
  | f :: fs => .seq (field f.1 f.2) (.seq (.lit [',']) (fields fs))

def object (fs : List (String × Regex Char)) : Regex Char := .seq (.lit ['\x7b']) (fields fs)

/-! ### What is written is found -/

/-- A member with its pattern and what the pattern's groups have of it. -/
structure Member where
  name : String
  pattern : Regex Char
  text : List Char
  groups : List (List Char)

/-- The pattern takes the value up to what ends a member. -/
structure Member.Reads (m : Member) : Prop where
  head : ∀ c ∈ m.text.head?, isSpace c = false
  ne_nil : m.text ≠ []
  first : ∀ rest : List Char, (∀ c ∈ rest.head?, c = ',' ∨ c = '\x7d') → First m.pattern (m.text ++ rest) m.groups rest

variable {m : Member} {rest : List Char}

theorem first_space (h : ∀ c ∈ rest.head?, isSpace c = false) : First space rest [] rest :=
  First.star (w := []) (fun _ hc => nomatch hc) h

theorem first_field (hm : m.Reads) (hrest : ∀ c ∈ rest.head?, c = ',' ∨ c = '\x7d') :
    First (field m.name m.pattern) (member (m.name, m.text) ++ rest) m.groups rest := by
  have hstop : ∀ c ∈ rest.head?, isSpace c = false := fun c hc => by
    rcases hrest c hc with rfl | rfl <;> rfl
  have hvalue : ∀ c ∈ (m.text ++ rest).head?, isSpace c = false := fun c hc => by
    rw [List.head?_append_of_ne_nil _ hm.ne_nil] at hc
    exact hm.head c hc
  have hmember : member (m.name, m.text) ++ rest = quoted m.name ++ ([':'] ++ (m.text ++ rest)) := by
    simp [member]
  have h := ((hm.first rest hrest).seq (first_space hstop))
  rw [List.append_nil] at h
  have h := First.seq (First.lit [':'] (m.text ++ rest)) ((first_space hvalue).seq h)
  have h := First.seq (First.lit (quoted m.name) _) ((first_space (by rintro c ⟨⟩; rfl)).seq h)
  rw [hmember]
  exact (first_space (by rintro c ⟨⟩; rfl)).seq h

theorem first_fields (more : List Char) : ∀ ms : List Member, ms ≠ [] → (∀ m ∈ ms, m.Reads) →
    First (fields (ms.map fun m => (m.name, m.pattern))) (members (ms.map fun m => (m.name, m.text)) ++ '\x7d' :: more)
      (ms.flatMap Member.groups) more
  | [], hne, _ => absurd rfl hne
  | [m], _, hms => by
    have hm : First _ _ m.groups ('\x7d' :: more) :=
      first_field (hms m List.mem_cons_self) (by rintro c ⟨⟩; exact .inr rfl)
    have h := hm.seq (First.lit ['\x7d'] more)
    simpa [fields, members] using h
  | m :: m' :: ms, _, hms => by
    have hrest := first_fields more (m' :: ms) (List.cons_ne_nil _ _) fun x hx => hms x (List.mem_cons_of_mem m hx)
    have hm : First _ _ m.groups (',' :: (members ((m' :: ms).map fun m => (m.name, m.text)) ++ '\x7d' :: more)) :=
      first_field (hms m List.mem_cons_self) (by rintro c ⟨⟩; exact .inl rfl)
    have h := hm.seq (First.seq (First.lit [','] _) hrest)
    simpa [fields, members] using h

/-! ### And only that -/

/-- A pattern of a member that takes no opening brace. -/
def Braceless (f : String × Regex Char) : Prop := '\x7b' ∉ f.1.toList ∧ ¬f.2.Uses '\x7b'

theorem needs_fields : ∀ fs : List (String × Regex Char), (fields fs).Needs '\x7d'
  | [] => List.mem_singleton.mpr rfl
  | [_] => .inr (List.mem_singleton.mpr rfl)
  | _ :: f :: fs => .inr (.inr (needs_fields (f :: fs)))

theorem not_uses_field {f : String × Regex Char} (hf : Braceless f) : ¬(field f.1 f.2).Uses '\x7b' := by
  have hname : '\x7b' ∉ quoted f.1 := by
    simp [quoted, hf.1]
  have hspace : isSpace '\x7b' = false := rfl
  simp [field, space, Uses, hname, hspace, hf.2]

theorem not_uses_fields : ∀ fs : List (String × Regex Char), (∀ f ∈ fs, Braceless f) → ¬(fields fs).Uses '\x7b'
  | [], _ => by simp [fields, Uses]
  | [f], hfs => by
    have hf := not_uses_field (hfs f List.mem_cons_self)
    simp [fields, Uses, hf]
  | f :: f' :: fs, hfs => by
    have hf := not_uses_field (hfs f List.mem_cons_self)
    have hrest := not_uses_fields (f' :: fs) fun x hx => hfs x (List.mem_cons_of_mem f hx)
    simp [fields, Uses, hf, hrest]

theorem search_piece (fs : List (String × Regex Char)) {piece : List Char} (h : '\x7d' ∉ piece) :
    search (object fs) piece = none := by
  have hneeds : (object fs).Needs '\x7d' := Or.inr (needs_fields fs)
  exact search_none hneeds h

/-- An object is found behind a piece of one, whatever follows it. -/
theorem search_behind {ms : List Member} {piece : List Char} (more : List Char) (hne : ms ≠ [])
    (hms : ∀ m ∈ ms, m.Reads) (hbraces : ∀ m ∈ ms, Braceless (m.name, m.pattern)) (h : '\x7d' ∉ piece) :
    search (object (ms.map fun m => (m.name, m.pattern)))
      (piece ++ '\x7b' :: (members (ms.map fun m => (m.name, m.text)) ++ '\x7d' :: more)) =
        some (ms.flatMap Member.groups) := by
  have hfs : ∀ f ∈ ms.map fun m => (m.name, m.pattern), Braceless f := by
    rintro _ hf
    obtain ⟨m, hm, rfl⟩ := List.mem_map.mp hf
    exact hbraces m hm
  have hfirst : First (object (ms.map fun m => (m.name, m.pattern))) _ (ms.flatMap Member.groups) more :=
    First.seq (First.lit ['\x7b'] _) (first_fields more ms hne hms)
  calc search (object (ms.map fun m => (m.name, m.pattern))) (piece ++ '\x7b' :: _)
      = search (object (ms.map fun m => (m.name, m.pattern))) ('\x7b' :: _) :=
        search_skip (not_uses_fields _ hfs) (needs_fields _) rfl h
    _ = some (ms.flatMap Member.groups) := search_first hfirst

/-! ### Numbers -/

theorem reads_decimal (name : String) (n : ℕ) :
    (Member.mk name (.group decimal) (Nat.toDigits 10 n) [Nat.toDigits 10 n]).Reads where
  head := fun c hc => not_isSpace_of_isDigit (isDigit_toDigits c (List.mem_of_mem_head? hc))
  ne_nil := Nat.toDigits_ne_nil
  first := fun rest hrest => by
    refine First.group (First.plus Nat.toDigits_ne_nil isDigit_toDigits fun c hc => ?_)
    rcases hrest c hc with rfl | rfl <;> rfl

end Jsonl
end Viu
