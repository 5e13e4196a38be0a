/-
# The keyed vectors of a descriptor

`viu::vector::plugin` holds one vector for each of its keys, of the element type
declared for the key. It keeps them in one `std::vector` of variants; `fill` and
`read` walk it, and at each entry compare the element type first and the key
second. Here `τ` is the types of a program, and `El T` the values of the type `T`.

Seen from outside the plugin is a map from keys and types to vectors, of which it
keeps what is declared (`Holds`). A `fill` puts into that map (`Holds.fill`), a `read`
looks up in it (`Holds.read`), and `for_each` goes through the declared part in order
(`Holds.forEach`), leaving what its visitor makes of each vector
(`Holds.forEachMut_snd`); `plugin_is_typed_map` puts these together for any sequence
of calls.

Key definitions: `Declaration`, `VectorPlugin`, `VectorPlugin.fill`, `VectorPlugin.read`,
`VectorPlugin.forEach`, `TypedMap.put`, `lastFilled`, `VectorPlugin.Holds`.
-/
import Mathlib.Data.List.Induction
import Viu.Lib.Variant

namespace Viu

variable {τ : Type*} {El : τ → Type*} {T U : τ} {S : Type*}

inductive FlowControl
  | break_
  | continue_
  | loop
  deriving DecidableEq, Repr

/-- Its key is given out as a copy, its vector as a reference. -/
structure MemberEntry (El : τ → Type*) (T : τ) where
  key : String
  vec : List (El T)

/-- An entry with its type. -/
abbrev TypedEntry (El : τ → Type*) := (T : τ) × MemberEntry El T

/-- `check_keys::keys_are_unique`. -/
def keysAreUnique : List String → Bool
  | [] => true
  | [_] => true
  | key :: keys => keys.all (fun other => key != other) && keysAreUnique keys

/-- The keys and types that a plugin is declared with. Of no keys at all it is the
plugin of two `empty_list`s, whose `for_each` does nothing and whose `fill` and `read`
do not compile. -/
structure Declaration (τ : Type*) where
  members : List (String × τ)
  unique : keysAreUnique (members.map Prod.fst) = true

/-- `filter_types::unique_types`: the alternatives of the variant. -/
def Declaration.memberTypes [DecidableEq τ] (D : Declaration τ) : List τ :=
  Variant.distinct [] (D.members.map Prod.snd)

/-! ### The visitors and the loops -/

section Loops

variable [DecidableEq τ] {ts : List τ}

def fillVisitor (key : String) (input : List (El U)) (T : τ) (entry : MemberEntry El T) :
    FlowControl × MemberEntry El T :=
  if h : U = T then
    if entry.key = key then (.break_, { entry with vec := h ▸ input }) else (.loop, entry)
  else (.loop, entry)

def fillElems (key : String) (input : List (El U)) :
    List (Variant (MemberEntry El) ts) → List (Variant (MemberEntry El) ts)
  | [] => []
  | elem :: elems =>
    let (flow, elem) := elem.visitMut (fillVisitor key input)
    if flow = .break_ then elem :: elems else elem :: fillElems key input elems

def readVisitor (key : String) (output : List (El U)) (T : τ) (entry : MemberEntry El T) :
    FlowControl × List (El U) :=
  if h : U = T then
    if entry.key = key then (.break_, h ▸ entry.vec) else (.loop, output)
  else (.loop, output)

def readElems (key : String) : List (Variant (MemberEntry El) ts) → List (El U) → List (El U)
  | [], output => output
  | elem :: elems, output =>
    let (flow, output) := elem.visit (readVisitor key output)
    if flow = .break_ then output else readElems key elems output

/-- A visitor returns the vector it leaves in the entry. -/
def forEachElems (visitor : (T : τ) → MemberEntry El T → S → S × List (El T)) :
    List (Variant (MemberEntry El) ts) → S → S × List (Variant (MemberEntry El) ts)
  | [], s => (s, [])
  | elem :: elems, s =>
    let (s, elem) := elem.visitMut fun T entry =>
      let (s, vec) := visitor T entry s
      (s, { entry with vec := vec })
    let (s, elems) := forEachElems visitor elems s
    (s, elem :: elems)

end Loops

/-! ### What the loops do to the entries -/

section Entries

variable {ts : List τ}

/-- The key of an entry, and its type. -/
def memberOf (elem : Variant (MemberEntry El) ts) : String × τ := elem.visit fun T entry => (entry.key, T)

theorem map_memberOf_forEachElems (visitor : (T : τ) → MemberEntry El T → S → S × List (El T)) :
    ∀ (elems : List (Variant (MemberEntry El) ts)) (s : S),
      (forEachElems visitor elems s).2.map memberOf = elems.map memberOf
  | [], _ => rfl
  | elem :: elems, _ => congrArg (memberOf elem :: ·) (map_memberOf_forEachElems visitor elems _)

/-- What a visitor of every entry comes to. -/
theorem forEachElems_fst (visitor : (T : τ) → MemberEntry El T → S → S × List (El T)) :
    ∀ (elems : List (Variant (MemberEntry El) ts)) (s : S),
      (forEachElems visitor elems s).1 = (elems.map Variant.held).foldl (fun s e => (visitor e.1 e.2 s).1) s
  | [], _ => rfl
  | _ :: elems, _ => forEachElems_fst visitor elems _

variable [DecidableEq τ]

theorem fillVisitor_key (key : String) (input : List (El U)) (T : τ) (entry : MemberEntry El T) :
    (fillVisitor key input T entry).2.key = entry.key := by
  unfold fillVisitor
  split
  · split <;> rfl
  · rfl

theorem map_memberOf_fillElems (key : String) (input : List (El U)) :
    ∀ elems : List (Variant (MemberEntry El) ts),
      (fillElems key input elems).map memberOf = elems.map memberOf
  | [] => rfl
  | elem :: elems => by
    have hkey : memberOf (elem.visitMut (fillVisitor key input)).2 = memberOf elem :=
      Prod.ext (fillVisitor_key ..) rfl
    unfold fillElems
    dsimp only
    split
    · rw [List.map_cons, List.map_cons, hkey]
    · rw [List.map_cons, List.map_cons, hkey, map_memberOf_fillElems key input elems]

end Entries

/-- The plugin: `vector_`, whose entries have the declared keys and types. -/
structure VectorPlugin [DecidableEq τ] (D : Declaration τ) (El : τ → Type*) where
  elems : List (Variant (MemberEntry El) D.memberTypes)
  layout : elems.map memberOf = D.members

namespace Declaration

variable {D : Declaration τ}

theorem nodup_of_keysAreUnique : ∀ {keys : List String}, keysAreUnique keys = true → keys.Nodup
  | [], _ => List.nodup_nil
  | [key], _ => List.nodup_singleton key
  | key :: next :: keys, h => by
    obtain ⟨hall, hrest⟩ := Bool.and_eq_true_iff.mp h
    refine List.nodup_cons.mpr ⟨?_, nodup_of_keysAreUnique hrest⟩
    intro hmem
    exact bne_iff_ne.mp (List.all_eq_true.mp hall key hmem) rfl

theorem nodup_keys : (D.members.map Prod.fst).Nodup := nodup_of_keysAreUnique D.unique

variable [DecidableEq τ]

theorem mem_memberTypes {m : String × τ} (h : m ∈ D.members) : m.2 ∈ D.memberTypes :=
  (Variant.mem_distinct _ _).mpr (.inr (List.mem_map_of_mem h))

/-- `std::variant` has each alternative once. -/
theorem nodup_memberTypes : D.memberTypes.Nodup := Variant.nodup_distinct _ _ List.nodup_nil

end Declaration

namespace VectorPlugin

variable [DecidableEq τ] {D : Declaration τ}

/-- `vector_{member_entry<V>{K}...}`: every vector is empty. -/
protected def default (D : Declaration τ) (El : τ → Type*) : VectorPlugin D El where
  elems := D.members.attach.map fun m => Variant.of (Declaration.mem_memberTypes m.2) ⟨m.1.1, []⟩
  layout := by
    have hmember : ∀ m : {m // m ∈ D.members}, memberOf
        (Variant.of (Declaration.mem_memberTypes m.2) ⟨m.1.1, []⟩) = m.1 := fun m =>
      congrArg (fun e : TypedEntry El => (e.2.key, e.1)) (Variant.held_of _ _)
    rw [List.map_map]
    calc _ = D.members.attach.map Subtype.val := List.map_congr_left fun m _ => hmember m
      _ = D.members := List.attach_map_subtype_val _

def fill (p : VectorPlugin D El) (key : String) (input : List (El U)) : VectorPlugin D El where
  elems := fillElems key input p.elems
  layout := (map_memberOf_fillElems key input p.elems).trans p.layout

def read (p : VectorPlugin D El) (key : String) (output : List (El U)) : List (El U) :=
  readElems key p.elems output

/-- `for_each` of a plugin that may be changed. -/
def forEachMut (p : VectorPlugin D El) (visitor : (T : τ) → MemberEntry El T → S → S × List (El T)) (s : S) :
    S × VectorPlugin D El where
  fst := (forEachElems visitor p.elems s).1
  snd := ⟨(forEachElems visitor p.elems s).2, (map_memberOf_forEachElems visitor p.elems s).trans p.layout⟩

/-- `for_each` of a `const` plugin. -/
def forEach (p : VectorPlugin D El) (visitor : (T : τ) → MemberEntry El T → S → S) (s : S) : S :=
  p.elems.foldl (fun s elem => elem.visit visitor s) s

def entries (p : VectorPlugin D El) : List (TypedEntry El) := p.elems.map Variant.held

/-- A plugin is told by its entries. -/
theorem entries_injective : Function.Injective (entries : VectorPlugin D El → _) := by
  rintro ⟨elems, _⟩ ⟨elems', _⟩ h
  obtain rfl : elems = elems' :=
    (Variant.held_injective Declaration.nodup_memberTypes).list_map h
  rfl

end VectorPlugin

/-! ### The map it stands for -/

/-- A vector for each key and each type. -/
abbrev TypedMap (El : τ → Type*) := String → (T : τ) → List (El T)

section Map

variable [DecidableEq τ]

namespace TypedMap

def put (m : TypedMap El) (key : String) (input : List (El U)) : TypedMap El := fun k T =>
  if h : U = T then if k = key then h ▸ input else m k T else m k T

/-- What a member holds. -/
def entry (m : TypedMap El) (member : String × τ) : TypedEntry El := ⟨member.2, ⟨member.1, m member.1 member.2⟩⟩

theorem put_of_ne {m : TypedMap El} {key k : String} {input : List (El U)} (h : (k, T) ≠ (key, U)) :
    m.put key input k T = m k T := by
  unfold put
  split
  · next hT =>
    subst hT
    rw [if_neg (fun hk => h (by rw [hk]))]
  · rfl

/-- The map when a visitor has come to these members, one after the other. -/
def visited (m : TypedMap El) (visitor : (T : τ) → MemberEntry El T → S → S × List (El T)) :
    List (String × τ) → S → TypedMap El
  | [], _ => m
  | member :: members, s =>
    let (s, vec) := visitor member.2 ⟨member.1, m member.1 member.2⟩ s
    (m.visited visitor members s).put member.1 vec

theorem fillVisitor_entry (m : TypedMap El) (key : String) (input : List (El U)) (member : String × τ) :
    (⟨member.2, (fillVisitor key input member.2 (m.entry member).2).2⟩ : TypedEntry El) =
      (m.put key input).entry member := by
  unfold fillVisitor entry put
  by_cases hT : U = member.2
  · simp only [dif_pos hT]
    by_cases hk : member.1 = key
    · simp only [if_pos hk]
    · simp only [if_neg hk]
  · simp only [dif_neg hT]

theorem entry_put_self (m : TypedMap El) (member : String × τ) (input : List (El member.2)) :
    (m.put member.1 input).entry member = ⟨member.2, ⟨member.1, input⟩⟩ := by
  simp [entry, put]

theorem entry_put_of_ne {m : TypedMap El} {key : String} {input : List (El U)} {member : String × τ}
    (h : member ≠ (key, U)) : (m.put key input).entry member = m.entry member := by
  unfold entry
  rw [put_of_ne h]

theorem readVisitor_entry (m : TypedMap El) (key : String) (output : List (El U)) (member : String × τ) :
    readVisitor key output member.2 (m.entry member).2 =
      if member = (key, U) then (.break_, m key U) else (.loop, output) := by
  obtain ⟨k, T⟩ := member
  unfold readVisitor entry
  by_cases hT : U = T
  · subst hT
    by_cases hk : k = key
    · subst hk
      simp
    · simp [hk]
  · rw [dif_neg hT, if_neg (fun h => hT (Prod.mk.inj h).2.symm)]

end TypedMap

theorem key_of_break {key : String} {input : List (El U)} {entry : MemberEntry El T}
    (h : (fillVisitor key input T entry).1 = .break_) : entry.key = key := by
  unfold fillVisitor at h
  split at h
  · split at h
    · next hk => exact hk
    · cases h
  · cases h

/-! ### The loops on it -/

variable {ts : List τ} {m : TypedMap El}

/-- A fill puts into the map: the loop stops at an entry only if that has the key, and
then no later one has. -/
theorem held_fillElems (key : String) (input : List (El U)) :
    ∀ (members : List (String × τ)) (elems : List (Variant (MemberEntry El) ts)),
      (members.map Prod.fst).Nodup → elems.map Variant.held = members.map m.entry →
      (fillElems key input elems).map Variant.held = members.map (m.put key input).entry
  | [], elems, _, h => by
    rw [List.map_eq_nil_iff.mp h]
    rfl
  | member :: members, [], _, h => by cases h
  | member :: members, elem :: elems, hnd, h => by
    obtain ⟨hhead, htail⟩ := List.cons.inj h
    have hfilled : (elem.visitMut (fillVisitor key input)).2.held = (m.put key input).entry member := by
      rw [← TypedMap.fillVisitor_entry]
      exact congrArg (fun e : TypedEntry El =>
        (⟨e.1, (fillVisitor key input e.1 e.2).2⟩ : TypedEntry El)) hhead
    unfold fillElems
    dsimp only
    rw [List.map_cons] at hnd ⊢
    split
    · next hbreak =>
      have hflow := congrArg (fun e : TypedEntry El => (fillVisitor key input e.1 e.2).1) hhead
      have hkey : member.1 = key := key_of_break (hflow.symm.trans hbreak)
      have hrest : members.map (m.put key input).entry = members.map m.entry := by
        apply List.map_congr_left
        intro other hother
        apply TypedMap.entry_put_of_ne
        rintro rfl
        exact (List.nodup_cons.mp hnd).1 (hkey ▸ List.mem_map_of_mem hother)
      rw [List.map_cons, hfilled, htail, hrest]
    · rw [List.map_cons, hfilled, held_fillElems key input members elems (List.nodup_cons.mp hnd).2 htail]

/-- A visitor leaves its vectors in the map: an entry is visited once, since no other has
its key. -/
theorem held_forEachElems (visitor : (T : τ) → MemberEntry El T → S → S × List (El T)) :
    ∀ (members : List (String × τ)) (elems : List (Variant (MemberEntry El) ts)) (s : S),
      (members.map Prod.fst).Nodup → elems.map Variant.held = members.map m.entry →
      (forEachElems visitor elems s).2.map Variant.held = members.map (m.visited visitor members s).entry
  | [], elems, s, _, h => by
    rw [List.map_eq_nil_iff.mp h]
    rfl
  | member :: members, [], s, _, h => by cases h
  | member :: members, elem :: elems, s, hnd, h => by
    obtain ⟨hhead, htail⟩ := List.cons.inj h
    rw [List.map_cons, List.nodup_cons] at hnd
    have hstate : (visitor elem.held.1 elem.held.2 s).1 = (visitor member.2 (m.entry member).2 s).1 :=
      congrArg (fun e : TypedEntry El => (visitor e.1 e.2 s).1) hhead
    have hleft := congrArg (fun e : TypedEntry El =>
      (⟨e.1, ⟨e.2.key, (visitor e.1 e.2 s).2⟩⟩ : TypedEntry El)) hhead
    have hrest : members.map (m.visited visitor (member :: members) s).entry =
        members.map (m.visited visitor members (visitor member.2 (m.entry member).2 s).1).entry := by
      apply List.map_congr_left
      intro other hother
      apply TypedMap.entry_put_of_ne
      rintro rfl
      exact hnd.1 (List.mem_map_of_mem hother)
    unfold forEachElems
    dsimp only
    rw [List.map_cons, List.map_cons, hrest, ← held_forEachElems visitor members elems _ hnd.2 htail, ← hstate]
    congr 1
    exact hleft.trans (TypedMap.entry_put_self ..).symm

/-- A member is left with what the visitor made of it, after the members before it. -/
theorem visited_eq (visitor : (T : τ) → MemberEntry El T → S → S × List (El T)) {key : String} {U : τ}
    {after : List (String × τ)} : ∀ {before : List (String × τ)} (s : S),
      ((before ++ (key, U) :: after).map Prod.fst).Nodup →
      m.visited visitor (before ++ (key, U) :: after) s key U = (visitor U ⟨key, m key U⟩
        (before.foldl (fun s member => (visitor member.2 ⟨member.1, m member.1 member.2⟩ s).1) s)).2
  | [], s, _ => by
    rw [List.nil_append, TypedMap.visited]
    simp [TypedMap.put]
  | member :: before, s, hnd => by
    rw [List.cons_append, List.map_cons, List.nodup_cons] at hnd
    have hne : (key, U) ≠ (member.1, member.2) := by
      intro h
      apply hnd.1
      rw [← congrArg Prod.fst h]
      exact List.mem_map_of_mem (f := Prod.fst) (List.mem_append_right before List.mem_cons_self)
    rw [List.cons_append, TypedMap.visited]
    dsimp only
    rw [TypedMap.put_of_ne hne, visited_eq visitor _ hnd.2]
    rfl

theorem readElems_eq (key : String) (output : List (El U)) :
    ∀ (members : List (String × τ)) (elems : List (Variant (MemberEntry El) ts)),
      elems.map Variant.held = members.map m.entry →
      readElems key elems output = if (key, U) ∈ members then m key U else output
  | [], elems, h => by
    rw [List.map_eq_nil_iff.mp h]
    rfl
  | member :: members, [], h => by cases h
  | member :: members, elem :: elems, h => by
    obtain ⟨hhead, htail⟩ := List.cons.inj h
    have hvisit : elem.visit (readVisitor key output) =
        if member = (key, U) then (.break_, m key U) else (.loop, output) := by
      rw [← TypedMap.readVisitor_entry]
      exact congrArg (fun e : TypedEntry El => readVisitor key output e.1 e.2) hhead
    unfold readElems
    rw [hvisit]
    by_cases hm : member = (key, U)
    · rw [if_pos hm, if_pos (hm ▸ List.mem_cons_self)]
      rfl
    · rw [if_neg hm]
      show readElems key elems output = _
      rw [readElems_eq key output members elems htail]
      simp [List.mem_cons, Ne.symm hm]

end Map

/-! ### Runs -/

variable [DecidableEq τ] {D : Declaration τ} {m : TypedMap El} {p : VectorPlugin D El}

namespace VectorPlugin

/-- The plugin has of the map what is declared. -/
def Holds (p : VectorPlugin D El) (m : TypedMap El) : Prop := p.entries = D.members.map m.entry

theorem holds_default : (VectorPlugin.default D El).Holds fun _ _ => [] := by
  show (D.members.attach.map _).map Variant.held = _
  rw [List.map_map]
  calc _ = D.members.attach.map fun member => TypedMap.entry (fun _ _ => []) member.1 :=
        List.map_congr_left fun _ _ => Variant.held_of _ _
    _ = D.members.map (TypedMap.entry fun _ _ => []) := List.attach_map_val

theorem Holds.fill (h : p.Holds m) (key : String) (input : List (El U)) :
    (p.fill key input).Holds (m.put key input) :=
  held_fillElems key input D.members p.elems D.nodup_keys h

/-- What is not declared is not kept. -/
theorem Holds.fill_of_notMem (h : p.Holds m) {key : String} {input : List (El U)}
    (hkey : (key, U) ∉ D.members) : p.fill key input = p := by
  apply entries_injective
  rw [h.fill key input, h]
  apply List.map_congr_left
  intro member hmember
  apply TypedMap.entry_put_of_ne
  rintro rfl
  exact hkey hmember

theorem Holds.read (h : p.Holds m) (key : String) (output : List (El U)) :
    p.read key output = if (key, U) ∈ D.members then m key U else output :=
  readElems_eq key output D.members p.elems h

theorem Holds.forEach (h : p.Holds m) (visitor : (T : τ) → MemberEntry El T → S → S) (s : S) :
    p.forEach visitor s =
      D.members.foldl (fun s member => visitor member.2 ⟨member.1, m member.1 member.2⟩ s) s := by
  calc p.forEach visitor s = p.entries.foldl (fun s e => visitor e.1 e.2 s) s :=
        (List.foldl_map (f := Variant.held) (g := fun s e => visitor e.1 e.2 s)).symm
    _ = (D.members.map m.entry).foldl (fun s e => visitor e.1 e.2 s) s := by rw [h]
    _ = _ := List.foldl_map

theorem Holds.forEachMut (h : p.Holds m) (visitor : (T : τ) → MemberEntry El T → S → S × List (El T)) (s : S) :
    (p.forEachMut visitor s).1 =
      D.members.foldl (fun s member => (visitor member.2 ⟨member.1, m member.1 member.2⟩ s).1) s := by
  calc (p.forEachMut visitor s).1 = p.entries.foldl (fun s e => (visitor e.1 e.2 s).1) s :=
        forEachElems_fst visitor p.elems s
    _ = (D.members.map m.entry).foldl (fun s e => (visitor e.1 e.2 s).1) s := by rw [h]
    _ = _ := List.foldl_map

theorem Holds.forEachMut_snd (h : p.Holds m) (visitor : (T : τ) → MemberEntry El T → S → S × List (El T)) (s : S) :
    (p.forEachMut visitor s).2.Holds (m.visited visitor D.members s) :=
  held_forEachElems visitor D.members p.elems s D.nodup_keys h

end VectorPlugin

/-- One call of `fill`. -/
structure Fill (El : τ → Type*) where
  key : String
  type : τ
  input : List (El type)

/-- The vector, if it is for that key and of that type. -/
def Fill.under (key : String) (T : τ) (f : Fill El) : Option (List (El T)) :=
  if h : f.type = T then if f.key = key then some (h ▸ f.input) else none else none

/-- The last vector filled under a key with a type, empty if there is none. -/
def lastFilled (fs : List (Fill El)) : TypedMap El := fun key T =>
  (fs.filterMap (Fill.under key T)).getLast?.getD []

theorem lastFilled_append_one (fs : List (Fill El)) (f : Fill El) :
    lastFilled (fs ++ [f]) = (lastFilled fs).put f.key f.input := by
  funext key T
  unfold lastFilled TypedMap.put
  rw [List.filterMap_append]
  by_cases hT : f.type = T
  · by_cases hk : f.key = key
    · simp [Fill.under, hT, hk]
    · simp [Fill.under, hT, hk, Ne.symm hk]
  · simp [Fill.under, hT]

/-- Among fills of different keys each is the last of its own. -/
theorem lastFilled_of_mem {fs : List (Fill El)} {f : Fill El} (hnd : (fs.map Fill.key).Nodup) (hf : f ∈ fs) :
    lastFilled fs f.key f.type = f.input := by
  induction fs using List.reverseRecOn with
  | nil => cases hf
  | append_singleton fs g ih =>
    rw [lastFilled_append_one]
    rw [List.map_append, List.nodup_append] at hnd
    rcases List.mem_append.mp hf with hf | hf
    · have hne : f.key ≠ g.key := hnd.2.2 f.key (List.mem_map_of_mem hf) g.key List.mem_cons_self
      rw [TypedMap.put_of_ne (fun h => hne (Prod.mk.inj h).1)]
      exact ih hnd.1 hf
    · obtain rfl := List.mem_singleton.mp hf
      simp [TypedMap.put]

namespace VectorPlugin

def fills (p : VectorPlugin D El) (fs : List (Fill El)) : VectorPlugin D El :=
  fs.foldl (fun p f => p.fill f.key f.input) p

theorem holds_fills (fs : List (Fill El)) : ((VectorPlugin.default D El).fills fs).Holds (lastFilled fs) := by
  induction fs using List.reverseRecOn with
  | nil => exact holds_default
  | append_singleton fs f ih =>
    rw [lastFilled_append_one, fills, List.foldl_append]
    exact ih.fill f.key f.input

/-- The constructor from a vector for each key. -/
def ofVectors (vectors : (member : {member // member ∈ D.members}) → List (El member.1.2)) : VectorPlugin D El :=
  (VectorPlugin.default D El).fills (D.members.attach.map fun member => ⟨member.1.1, member.1.2, vectors member⟩)

theorem read_ofVectors (vectors : (member : {member // member ∈ D.members}) → List (El member.1.2))
    (member : {member // member ∈ D.members}) (output : List (El member.1.2)) :
    (ofVectors vectors).read member.1.1 output = vectors member := by
  rw [ofVectors, (holds_fills _).read, if_pos member.2]
  refine lastFilled_of_mem (f := ⟨member.1.1, member.1.2, vectors member⟩) ?_ ?_
  · rw [List.map_map]
    show (D.members.attach.map fun member => member.1.1).Nodup
    rw [List.attach_map_val (f := Prod.fst)]
    exact D.nodup_keys
  · exact List.mem_map_of_mem (List.mem_attach _ member)

end VectorPlugin

/-- **The plugin is a typed map.** After any calls of `fill`, whatever their keys and
types, `read` gives the vector filled last under the key with its type; what is not
declared is neither kept nor read; and `for_each` comes to each entry once, in the
order of the keys. Of a plugin that may be changed `for_each` gives out the vectors
themselves: a `read` after it gives what the visitor has made of the vector. -/
theorem plugin_is_typed_map (D : Declaration τ) (fs : List (Fill El)) :
    let p := (VectorPlugin.default D El).fills fs
    (∀ (key : String) (U : τ) (output : List (El U)), (key, U) ∈ D.members →
        p.read key output = lastFilled fs key U) ∧
      (∀ (key : String) (U : τ) (output : List (El U)), (key, U) ∉ D.members → p.read key output = output) ∧
      (∀ (key : String) (U : τ) (input : List (El U)), (key, U) ∉ D.members → p.fill key input = p) ∧
      (∀ (visitor : (T : τ) → MemberEntry El T → S → S) (s : S), p.forEach visitor s =
        D.members.foldl (fun s member => visitor member.2 ⟨member.1, lastFilled fs member.1 member.2⟩ s) s) ∧
      (∀ (visitor : (T : τ) → MemberEntry El T → S → S × List (El T)) (s : S), (p.forEachMut visitor s).1 =
        D.members.foldl
          (fun s member => (visitor member.2 ⟨member.1, lastFilled fs member.1 member.2⟩ s).1) s) ∧
      ∀ (visitor : (T : τ) → MemberEntry El T → S → S × List (El T)) (s : S) (before after : List (String × τ))
        (key : String) (U : τ) (output : List (El U)), D.members = before ++ (key, U) :: after →
        (p.forEachMut visitor s).2.read key output = (visitor U ⟨key, lastFilled fs key U⟩
          (before.foldl
            (fun s member => (visitor member.2 ⟨member.1, lastFilled fs member.1 member.2⟩ s).1) s)).2 := by
  intro p
  have hp : p.Holds (lastFilled fs) := VectorPlugin.holds_fills fs
  refine ⟨?_, ?_, ?_, ?_, ?_, ?_⟩
  · intro key U output hkey
    rw [hp.read, if_pos hkey]
  · intro key U output hkey
    rw [hp.read, if_neg hkey]
  · intro key U input hkey
    exact hp.fill_of_notMem hkey
  · exact hp.forEach
  · exact hp.forEachMut
  · intro visitor s before after key U output hmembers
    have hmem : (key, U) ∈ D.members := by simp [hmembers]
    have hnd := D.nodup_keys
    rw [hmembers] at hnd
    rw [(hp.forEachMut_snd visitor s).read, if_pos hmem, hmembers]
    exact visited_eq visitor s hnd

/-- Two keys of one type: the first entry of that type has another key. -/
example :
    let p := (VectorPlugin.default ⟨[("a", false), ("b", true), ("c", false)], rfl⟩ fun _ => ℕ).fills
      [⟨"c", false, [1]⟩, ⟨"b", false, [2]⟩, ⟨"c", false, [3]⟩]
    p.read (U := false) "c" [] = [3] ∧ p.read (U := false) "a" [4] = [] ∧ p.read (U := true) "b" [5] = [] ∧
      p.read (U := false) "b" [6] = [6] ∧
      (p.forEachMut (fun _ entry s => (s, entry.vec.map (2 * ·))) ()).2.read (U := false) "c" [] = [6] :=
  ⟨rfl, rfl, rfl, rfl, rfl⟩

end Viu
