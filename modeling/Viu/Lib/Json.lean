/-
# JSON values and the keywords of JSON Schema

A value as a parser returns it: an integer that fits is an `int64`, a larger
one a `uint64`, any other number a `double` (here the rational it stands for);
an object is the list of its members. `Json.all` asks something of every value
inside a value; `Json.depth` counts how deep they stand. A schema is a predicate of values, and each keyword used here
is a function into schemas; a keyword about one kind of value says nothing of
the others, as in JSON Schema.
-/
import Mathlib.Data.List.Basic
import Mathlib.Data.Rat.Defs

inductive Json
  | null
  | bool (b : Bool)
  | int64 (n : ℤ)
  | uint64 (n : ℕ)
  | double (q : ℚ)
  | string (s : String)
  | array (elems : List Json)
  | object (members : List (String × Json))
  deriving Repr

namespace Json

abbrev Members := List (String × Json)

/-- The member of that name, `null` if there is none. -/
def get : Json → String → Json
  | object ms, key => (ms.lookup key).getD null
  | _, _ => null

def has : Json → String → Bool
  | object ms, key => (ms.lookup key).isSome
  | _, _ => false

def elems : Json → List Json
  | array vs => vs
  | _ => []

mutual

/-- `p` of the value and of every value inside it. -/
def all (p : Json → Bool) : Json → Bool
  | array elems => p (array elems) && allElems p elems
  | object members => p (object members) && allMembers p members
  | v => p v

def allElems (p : Json → Bool) : List Json → Bool
  | [] => true
  | v :: vs => all p v && allElems p vs

def allMembers (p : Json → Bool) : List (String × Json) → Bool
  | [] => true
  | (_, v) :: ms => all p v && allMembers p ms

end

mutual

/-- How deep arrays and objects are nested. -/
def depth : Json → ℕ
  | array elems => depthElems elems + 1
  | object members => depthMembers members + 1
  | _ => 0

def depthElems : List Json → ℕ
  | [] => 0
  | v :: vs => max (depth v) (depthElems vs)

def depthMembers : List (String × Json) → ℕ
  | [] => 0
  | (_, v) :: ms => max (depth v) (depthMembers ms)

end

variable {p q : Json → Bool} {v : Json} {vs : List Json} {ms : Members} {k : String}

theorem allElems_iff : allElems p vs = true ↔ ∀ v ∈ vs, v.all p = true := by
  induction vs with
  | nil => simp [allElems]
  | cons v vs ih => simp [allElems, ih]

theorem allMembers_iff : allMembers p ms = true ↔ ∀ m ∈ ms, m.2.all p = true := by
  induction ms with
  | nil => simp [allMembers]
  | cons m ms ih => simp [allMembers, ih]

theorem all_self (h : v.all p = true) : p v = true := by
  cases v with
  | array vs => exact (Bool.and_eq_true_iff.mp (by rwa [all] at h)).1
  | object ms => exact (Bool.and_eq_true_iff.mp (by rwa [all] at h)).1
  | _ => exact h

theorem all_elem (h : (array vs).all p = true) (hv : v ∈ vs) : v.all p = true := by
  rw [all, Bool.and_eq_true, allElems_iff] at h
  exact h.2 v hv

theorem mem_of_lookup {β : Type*} {l : List (String × β)} {b : β} (h : l.lookup k = some b) : (k, b) ∈ l := by
  obtain ⟨l₁, l₂, rfl, -⟩ := List.lookup_eq_some_iff.mp h
  simp

theorem all_lookup (h : (object ms).all p = true) (hv : ms.lookup k = some v) : v.all p = true := by
  rw [all, Bool.and_eq_true, allMembers_iff] at h
  exact h.2 (k, v) (mem_of_lookup hv)

/-! ### Schemas -/

abbrev Schema := Json → Bool

namespace Schema

/-- The value of a number. -/
def number : Json → Option ℚ
  | int64 n => some n
  | uint64 n => some n
  | double q => some q
  | _ => none

/-- A number with no fractional part, whichever way it is written. -/
def integer : Schema := fun v => (number v).any fun q => q.den = 1

def isObject : Schema
  | object _ => true
  | _ => false

def isArray : Schema
  | array _ => true
  | _ => false

def isString : Schema
  | string _ => true
  | _ => false

def minimum (m : ℚ) : Schema := fun v => (number v).all fun q => m ≤ q
def maximum (m : ℚ) : Schema := fun v => (number v).all fun q => q ≤ m
def const (m : ℚ) : Schema := fun v => number v = some m

def pattern (matches' : String → Bool) : Schema
  | string s => matches' s
  | _ => true

def items (s : Schema) : Schema
  | array vs => vs.all s
  | _ => true

def required (keys : List String) : Schema
  | object ms => keys.all fun k => (ms.lookup k).isSome
  | _ => true

def properties (ps : List (String × Schema)) : Schema
  | object ms => ms.all fun m => (ps.lookup m.1).all fun s => s m.2
  | _ => true

/-- `"additionalProperties": false` beside `properties`. -/
def noOther (ps : List (String × Schema)) : Schema
  | object ms => ms.all fun m => (ps.lookup m.1).isSome
  | _ => true

def allOf (ss : List Schema) : Schema := fun v => ss.all (· v)
def oneOf (ss : List Schema) : Schema := fun v => ss.countP (· v) = 1
def not (s : Schema) : Schema := fun v => !s v
def ifThenElse (c t e : Schema) : Schema := fun v => if c v then t v else e v

/-- An object with these properties and no others. -/
def closed (ps : List (String × Schema)) (keys : List String) : Schema :=
  allOf [isObject, properties ps, noOther ps, required keys]

/-- An array of these. -/
def arrayOf (s : Schema) : Schema := allOf [isArray, items s]

variable {s : Schema} {ps : List (String × Schema)} {keys : List String}

theorem arrayOf_iff : arrayOf s v = true ↔ ∃ vs, v = array vs ∧ ∀ x ∈ vs, s x = true := by
  cases v <;> simp [arrayOf, allOf, isArray, items]

theorem isObject_iff : isObject v = true ↔ ∃ ms, v = object ms := by
  cases v <;> simp [isObject]

theorem properties_lookup (h : properties ps (object ms) = true) (hs : ps.lookup k = some s)
    (hv : ms.lookup k = some v) : s v = true := by
  have hm := List.all_eq_true.mp h (k, v) (mem_of_lookup hv)
  rwa [hs] at hm

theorem required_lookup (h : required keys (object ms) = true) (hk : k ∈ keys) : ∃ x, ms.lookup k = some x :=
  Option.isSome_iff_exists.mp (List.all_eq_true.mp h k hk)

theorem noOther_lookup (h : noOther ps (object ms) = true) (hs : ps.lookup k = none) : ms.lookup k = none := by
  by_contra hne
  obtain ⟨x, hx⟩ := Option.ne_none_iff_exists'.mp hne
  have hm := List.all_eq_true.mp h (k, x) (mem_of_lookup hx)
  rw [hs] at hm
  cases hm

/-- What a closed object is. -/
theorem closed_iff : closed ps keys v = true ↔
    ∃ ms, v = object ms ∧ properties ps (object ms) = true ∧ noOther ps (object ms) = true ∧
      required keys (object ms) = true := by
  unfold closed allOf
  simp only [List.all_cons, List.all_nil, Bool.and_true, Bool.and_eq_true, isObject_iff]
  constructor
  · rintro ⟨⟨ms, rfl⟩, h⟩
    exact ⟨ms, rfl, h⟩
  · rintro ⟨ms, rfl, h⟩
    exact ⟨⟨ms, rfl⟩, h⟩

end Schema
end Json
