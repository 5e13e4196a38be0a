/-
# Arguments as bytes

`cli::serialize_argv` and `cli::deserialize_argv`: a count, then the length and
the bytes of each argument. The decoder's input comes from a socket. Its count
becomes an `int` that the reserves and the loop go by, its lengths are checked
against an offset that moves, and the pointers it hands out point into strings
that must not move any more.

The decoder accepts the buffers that begin with a serialisation, and no others,
and never reads outside the buffer (`argv_codec`).
-/
import Viu.Lib.Bytes
import Viu.Lib.Cut
import Viu.Lib.Ints
import Viu.Lib.Storage

namespace Viu

open Bytes Ints

namespace Argv

inductive Stop
  /-- "Malformed argv payload". -/
  | malformed
  /-- `reserve` of more than a vector can hold. -/
  | lengthError
  /-- A read outside the buffer. -/
  | outside
  deriving DecidableEq, Repr

/-- An exception, and nothing undefined. -/
def Stop.thrown : Stop → Bool
  | .malformed | .lengthError => true
  | .outside => false

structure DeserializedArgs where
  argc : BitVec 32
  argvStorage : List (Option Storage.Ref)
  stringStorage : Storage (List Byte)

/-! ### The encoder -/

/-- What `strlen` counts. -/
def cString (arg : List Byte) : List Byte := arg.takeWhile (· ≠ 0)

def appendU32 (E : Order) (buffer : List Byte) (v : BitVec 32) : List Byte := buffer ++ store E v

/-- One argument; its length is cut to 32 bits, and so are its bytes. -/
def appendArg (E : Order) (buffer : List Byte) (arg : List Byte) : List Byte :=
  let len := BitVec.ofNat 32 (cString arg).length
  appendU32 E buffer len ++ (cString arg).take len.toNat

def serializeArgv (E : Order) (argv : List (List Byte)) : List Byte :=
  argv.foldl (appendArg E) (appendU32 E [] (BitVec.ofNat 32 argv.length))

/-! ### The decoder -/

/-- A sum of `size_t`. -/
def addSize (a b : ℕ) : ℕ := (a + b) % 2 ^ 64

/-- `n` bytes of the buffer at an offset. -/
def memcpy (data : List Byte) (offset n : ℕ) : Except Stop (List Byte) :=
  if offset + n ≤ data.length then .ok ((data.drop offset).take n) else .error .outside

def readU32 (E : Order) (data : List Byte) (offset : ℕ) : Except Stop (BitVec 32 × ℕ) :=
  if addSize offset 4 > data.length then .error .malformed
  else do
    let bytes ← memcpy data offset 4
    return (load E 32 bytes, addSize offset 4)

/-- The most `char*` and the most strings a vector holds. -/
def maxPointers : ℕ := 2 ^ 60 - 1
def maxStrings : ℕ := 2 ^ 58 - 1

def reserve (n : BitVec 64) (max : ℕ) : Except Stop ℕ :=
  if n.toNat ≤ max then .ok n.toNat else .error .lengthError

/-- `argc + 1` as a `size_t`. For the largest `int` the sum is not defined; `overflow` is
what comes of it. -/
def succ (overflow : BitVec 64) (argc : BitVec 32) : BitVec 64 :=
  if argc.toInt + 1 < 2 ^ 31 then BitVec.ofInt 64 (argc.toInt + 1) else overflow

/-- `emplace_back`, and the pointer to what has been placed. -/
def DeserializedArgs.push (r : DeserializedArgs) (s : List Byte) : DeserializedArgs :=
  let strings := r.stringStorage.push s
  ⟨r.argc, r.argvStorage ++ [some (strings.ref (strings.elems.length - 1))], strings⟩

/-- The loop, for as many arguments as are left. -/
def readStrings (E : Order) (data : List Byte) : ℕ → ℕ → DeserializedArgs → Except Stop DeserializedArgs
  | 0, _, r => .ok r
  | n + 1, offset, r => do
    let (len, offset) ← readU32 E data offset
    if addSize offset len.toNat > data.length then .error .malformed
    else do
      let s ← memcpy data offset len.toNat
      readStrings E data n (addSize offset len.toNat) (r.push s)

def deserializeArgv (E : Order) (overflow : BitVec 64) (data : List Byte) : Except Stop DeserializedArgs := do
  let (count, offset) ← readU32 E data 0
  let argc := count
  let _pointers ← reserve (succ overflow argc) maxPointers
  let strings ← reserve (argc.signExtend 64) maxStrings
  let r ← readStrings E data argc.toInt.toNat offset ⟨argc, [], (Storage.empty _).reserve strings⟩
  return { r with argvStorage := r.argvStorage ++ [none] }

end Argv

/-! ### What is decoded -/

open Argv

/-- One string behind its length. -/
def argItem (E : Order) (s : List Byte) : List Byte := store E (BitVec.ofNat 32 s.length) ++ s

/-- The serialisation of a list of byte strings. -/
def serialisation (E : Order) (args : List (List Byte)) : List Byte :=
  store E (BitVec.ofNat 32 args.length) ++ args.flatMap (argItem E)

/-- What the i-th entry of `argv` denotes: null, or the bytes it points to. -/
def Argv.DeserializedArgs.denotes (r : DeserializedArgs) (i : ℕ) (s : List Byte) : Prop :=
  ∃ p, r.argvStorage[i]? = some (some p) ∧ r.stringStorage.get? p = some s

/-- The result holds this list. -/
structure Argv.DeserializedArgs.Holds (r : DeserializedArgs) (args : List (List Byte)) : Prop where
  strings : r.stringStorage.elems = args
  argc : r.argc.toInt = args.length
  length : r.argvStorage.length = args.length + 1
  entries : ∀ i s, args[i]? = some s → r.denotes i s
  last : r.argvStorage[args.length]? = some none

namespace Argv

variable {E : Order}

theorem length_argItem (E : Order) (s : List Byte) : (argItem E s).length = 4 + s.length := by
  rw [argItem, List.length_append, length_store]

theorem length_flatMap_argItem (E : Order) (args : List (List Byte)) :
    4 * args.length ≤ (args.flatMap (argItem E)).length := by
  induction args with
  | nil => exact Nat.le_refl 0
  | cons s args ih =>
    rw [List.flatMap_cons, List.length_append, length_argItem, List.length_cons]
    omega

/-! ### Reading -/

theorem addSize_eq {a b : ℕ} (ha : a < 2 ^ 32) (hb : b < 2 ^ 32) : addSize a b = a + b := by
  rw [addSize, Nat.mod_eq_of_lt (by omega)]

/-- The bytes behind what has been read. -/
theorem memcpy_append (pre s rest : List Byte) : memcpy (pre ++ (s ++ rest)) pre.length s.length = .ok s := by
  rw [memcpy, if_pos (by simp only [List.length_append]; omega), List.drop_left, List.take_left]

theorem readU32_append (pre : List Byte) {w rest : List Byte} (hlen : (pre ++ (w ++ rest)).length < 2 ^ 32)
    (hw : w.length = 4) :
    readU32 E (pre ++ (w ++ rest)) pre.length = .ok (load E 32 w, (pre ++ w).length) := by
  have hcopy := memcpy_append pre w rest
  rw [hw] at hcopy
  simp only [List.length_append] at hlen ⊢
  rw [readU32, addSize_eq (by omega) (by omega), if_neg (by simp only [List.length_append]; omega), hcopy]
  simp only [bind, Except.bind, pure, Except.pure, hw]

theorem readU32_short (pre : List Byte) {rest : List Byte} (hlen : (pre ++ rest).length < 2 ^ 32)
    (hrest : rest.length < 4) : readU32 E (pre ++ rest) pre.length = .error .malformed := by
  rw [List.length_append] at hlen
  rw [readU32, addSize_eq (by omega) (by omega), if_pos (by rw [List.length_append]; omega)]

/-- One turn of the loop. -/
theorem readStrings_succ {pre w s rest : List Byte} (hlen : (pre ++ (w ++ (s ++ rest))).length < 2 ^ 32)
    (hw : w.length = 4) (hs : s.length = (load E 32 w).toNat) (n : ℕ) (r : DeserializedArgs) :
    readStrings E (pre ++ (w ++ (s ++ rest))) (n + 1) pre.length r =
      readStrings E (pre ++ (w ++ (s ++ rest))) n (pre ++ (w ++ s)).length (r.push s) := by
  have hcopy := memcpy_append (pre ++ w) s rest
  rw [List.append_assoc] at hcopy
  have hread := readU32_append (E := E) pre hlen hw
  simp only [List.length_append] at hlen
  rw [readStrings, hread]
  simp only [bind, Except.bind]
  have hadd : addSize (pre ++ w).length (load E 32 w).toNat = (pre ++ (w ++ s)).length := by
    simp only [List.length_append]
    rw [addSize_eq (by omega) (by omega)]
    omega
  rw [hadd, if_neg (by simp only [List.length_append]; omega), ← hs, hcopy]

theorem readStrings_short {pre w rest : List Byte} (hlen : (pre ++ (w ++ rest)).length < 2 ^ 32)
    (hw : w.length = 4) (hs : rest.length < (load E 32 w).toNat) (n : ℕ) (r : DeserializedArgs) :
    readStrings E (pre ++ (w ++ rest)) (n + 1) pre.length r = .error .malformed := by
  have hlt := (load E 32 w).isLt
  have hread := readU32_append (E := E) pre hlen hw
  simp only [List.length_append] at hlen
  rw [readStrings, hread]
  simp only [bind, Except.bind]
  rw [if_pos]
  simp only [List.length_append]
  rw [addSize_eq (by omega) hlt]
  omega

/-- The loop takes the items it finds. -/
theorem readStrings_items (args : List (List Byte)) : ∀ (pre rest : List Byte) (r : DeserializedArgs),
    (pre ++ (args.flatMap (argItem E) ++ rest)).length < 2 ^ 32 →
    readStrings E (pre ++ (args.flatMap (argItem E) ++ rest)) args.length pre.length r =
      .ok (args.foldl DeserializedArgs.push r) := by
  induction args with
  | nil => exact fun _ _ _ _ => rfl
  | cons s args ih =>
    intro pre rest r hlen
    have hload : s.length = (load E 32 (store E (BitVec.ofNat 32 s.length))).toNat := by
      rw [load_store (by decide), BitVec.toNat_ofNat, Nat.mod_eq_of_lt]
      simp only [List.flatMap_cons, List.length_append, length_argItem] at hlen
      omega
    have hsplit : pre ++ ((s :: args).flatMap (argItem E) ++ rest) =
        pre ++ (store E (BitVec.ofNat 32 s.length) ++ (s ++ (args.flatMap (argItem E) ++ rest))) := by
      simp only [List.flatMap_cons, argItem, List.append_assoc]
    rw [hsplit] at hlen ⊢
    rw [List.length_cons, readStrings_succ hlen (length_store ..) hload]
    have hnext : pre ++ (store E (BitVec.ofNat 32 s.length) ++ (s ++ (args.flatMap (argItem E) ++ rest))) =
        (pre ++ (store E (BitVec.ofNat 32 s.length) ++ s)) ++ (args.flatMap (argItem E) ++ rest) := by
      simp only [List.append_assoc]
    rw [hnext] at hlen ⊢
    exact ih _ _ _ hlen

/-- It finds items, or the buffer is malformed. -/
theorem readStrings_cases (n : ℕ) : ∀ {pre rest : List Byte} (r : DeserializedArgs), (pre ++ rest).length < 2 ^ 32 →
    readStrings E (pre ++ rest) n pre.length r = .error .malformed ∨
      ∃ args : List (List Byte), args.length = n ∧ args.flatMap (argItem E) <+: rest := by
  induction n with
  | zero => exact fun _ _ => .inr ⟨[], rfl, List.nil_prefix⟩
  | succ n ih =>
    intro pre rest r hlen
    rcases Nat.lt_or_ge rest.length 4 with hshort | hlong
    · left
      rw [readStrings, readU32_short pre hlen hshort]
      rfl
    · obtain ⟨w, rest, rfl, hw⟩ := Cut.exists_append hlong
      rcases Nat.lt_or_ge rest.length (load E 32 w).toNat with hshort | hlong
      · exact .inl (readStrings_short hlen hw hshort n r)
      · obtain ⟨s, rest, rfl, hs⟩ := Cut.exists_append hlong
        rw [readStrings_succ hlen hw hs]
        have hnext : pre ++ (w ++ (s ++ rest)) = (pre ++ (w ++ s)) ++ rest := by simp only [List.append_assoc]
        rw [hnext] at hlen ⊢
        refine (ih (r.push s) hlen).imp_right ?_
        rintro ⟨args, rfl, hargs⟩
        have hitem : argItem E s = w ++ s := by
          rw [argItem, hs, BitVec.ofNat_toNat, BitVec.setWidth_eq, store_load (by decide) E w hw]
        refine ⟨s :: args, rfl, ?_⟩
        rw [List.flatMap_cons, hitem, ← List.append_assoc]
        exact (List.prefix_append_right_inj _).mpr hargs

/-! ### The strings stay where they are -/

/-- Every pointer so far points to the string it was made for. -/
structure Pointing (r : DeserializedArgs) : Prop where
  argv : r.argvStorage = (List.range r.stringStorage.elems.length).map fun i => some (r.stringStorage.ref i)

theorem Pointing.push {r : DeserializedArgs} (h : Pointing r) (s : List Byte)
    (hroom : r.stringStorage.elems.length < r.stringStorage.capacity) : Pointing (r.push s) := by
  have hsame : ∀ i, (r.stringStorage.push s).ref i = r.stringStorage.ref i := Storage.ref_push hroom s
  refine ⟨?_⟩
  simp only [DeserializedArgs.push, Storage.elems_push, List.length_append, List.length_singleton, List.range_succ,
    List.map_append, hsame, h.argv]
  rfl

/-- With room for all of them. -/
theorem Pointing.foldl (args : List (List Byte)) : ∀ {r : DeserializedArgs}, Pointing r →
    r.stringStorage.elems.length + args.length ≤ r.stringStorage.capacity →
    Pointing (args.foldl DeserializedArgs.push r) ∧
      (args.foldl DeserializedArgs.push r).stringStorage.elems = r.stringStorage.elems ++ args ∧
      (args.foldl DeserializedArgs.push r).argc = r.argc := by
  induction args with
  | nil => exact fun h _ => ⟨h, (List.append_nil _).symm, rfl⟩
  | cons s args ih =>
    intro r h hroom
    rw [List.length_cons] at hroom
    have hlt : r.stringStorage.elems.length < r.stringStorage.capacity := by omega
    have hstrings : (r.push s).stringStorage = r.stringStorage.push s := rfl
    obtain ⟨hpoint, helems, hargc⟩ := ih (h.push s hlt) (by
      rw [hstrings, Storage.elems_push, Storage.capacity_push hlt, List.length_append, List.length_singleton]
      omega)
    refine ⟨hpoint, ?_, hargc⟩
    rw [List.foldl_cons, helems, hstrings, Storage.elems_push, List.append_assoc]
    rfl

/-- The result, closed by a null pointer, holds the strings. -/
theorem Pointing.holds {r : DeserializedArgs} (h : Pointing r) (hargc : r.argc.toInt = r.stringStorage.elems.length) :
    DeserializedArgs.Holds { r with argvStorage := r.argvStorage ++ [none] } r.stringStorage.elems := by
  have hlen : r.argvStorage.length = r.stringStorage.elems.length := by
    rw [h.argv, List.length_map, List.length_range]
  refine ⟨rfl, hargc, by rw [List.length_append, hlen]; rfl, fun i s hs => ?_, ?_⟩
  · have hi : i < r.stringStorage.elems.length := (List.getElem?_eq_some_iff.mp hs).1
    refine ⟨r.stringStorage.ref i, ?_, by rw [Storage.get?_ref, hs]⟩
    rw [List.getElem?_append_left (by omega), h.argv, List.getElem?_map, List.getElem?_range hi]
    rfl
  · rw [List.getElem?_append_right (by omega), hlen, Nat.sub_self]
    rfl

/-! ### The decoder -/

theorem reserve_argc (argc : BitVec 32) (h : 0 ≤ argc.toInt) :
    reserve (argc.signExtend 64) maxStrings = .ok argc.toNat := by
  have hlt := argc.isLt
  rw [reserve, toNat_signExtend h, if_pos (by unfold maxStrings; omega)]

/-- A serialisation is decoded. -/
theorem deserializeArgv_serialisation (overflow : BitVec 64) {args : List (List Byte)} {data : List Byte}
    (hlen : data.length < 2 ^ 32) (h : serialisation E args <+: data) :
    ∃ r, deserializeArgv E overflow data = .ok r ∧ r.Holds args := by
  obtain ⟨rest, rfl⟩ := h
  rw [serialisation, List.append_assoc] at hlen ⊢
  have hcount : args.length < 2 ^ 30 := by
    have := length_flatMap_argItem E args
    simp only [List.length_append, length_store] at hlen
    omega
  have hread := readU32_append (E := E) [] hlen (length_store ..)
  rw [load_store (by decide)] at hread
  have hint : (BitVec.ofNat 32 args.length).toInt = args.length := toInt_ofNat_of_lt (by omega)
  have hnat : (BitVec.ofNat 32 args.length).toNat = args.length := by
    rw [BitVec.toNat_ofNat, Nat.mod_eq_of_lt (by omega)]
  have hpointers : reserve (succ overflow (BitVec.ofNat 32 args.length)) maxPointers = .ok (args.length + 1) := by
    have hmod : ((args.length : ℤ) + 1) % (2 ^ 64 : ℕ) = args.length + 1 := Int.emod_eq_of_lt (by omega) (by omega)
    rw [succ, hint, if_pos (by omega), reserve, BitVec.toNat_ofInt, hmod, if_pos (by unfold maxPointers; omega)]
    rfl
  have hstrings := reserve_argc (BitVec.ofNat 32 args.length) (by omega)
  rw [hnat] at hstrings
  set r₀ : DeserializedArgs := ⟨BitVec.ofNat 32 args.length, [], (Storage.empty _).reserve args.length⟩ with hr₀
  have hloop := readStrings_items (E := E) args ([] ++ store E (BitVec.ofNat 32 args.length)) rest r₀
  rw [List.append_assoc] at hloop
  have hroom : r₀.stringStorage.elems.length + args.length ≤ r₀.stringStorage.capacity := by
    have hcapacity := (Storage.empty (List Byte)).le_capacity_reserve args.length
    rw [Storage.elems_reserve]
    simpa using hcapacity
  have hstart : Pointing r₀ := ⟨by rw [Storage.elems_reserve]; rfl⟩
  obtain ⟨hpoint, helems, hargc⟩ := Pointing.foldl args hstart hroom
  rw [Storage.elems_reserve, Storage.elems_empty, List.nil_append] at helems
  have hholds := hpoint.holds (by rw [hargc, helems, hint])
  rw [helems] at hholds
  refine ⟨_, ?_, hholds⟩
  rw [deserializeArgv]
  simp only [List.nil_append, List.length_nil] at hread hloop
  simp only [hread, hpointers, hstrings, hint, Int.toNat_natCast, bind, Except.bind, ← hr₀, hloop hlen, pure,
    Except.pure]

/-- What is decoded is one, or something is thrown. -/
theorem deserializeArgv_cases (E : Order) (overflow : BitVec 64) {data : List Byte} (hlen : data.length < 2 ^ 32) :
    (∃ e, deserializeArgv E overflow data = .error e ∧ e.thrown = true) ∨ ∃ args, serialisation E args <+: data := by
  rcases Nat.lt_or_ge data.length 4 with hshort | hlong
  · have hread : readU32 E data 0 = .error .malformed := readU32_short [] hlen hshort
    refine .inl ⟨.malformed, ?_, rfl⟩
    rw [deserializeArgv, hread]
    rfl
  obtain ⟨w, rest, rfl, hw⟩ := Cut.exists_append hlong
  have hread : readU32 E (w ++ rest) 0 = .ok (load E 32 w, w.length) := readU32_append [] hlen hw
  rw [deserializeArgv, hread]
  simp only [bind, Except.bind]
  cases hpointers : reserve (succ overflow (load E 32 w)) maxPointers with
  | error e =>
    refine .inl ⟨e, rfl, ?_⟩
    unfold reserve at hpointers
    split at hpointers <;> cases hpointers
    rfl
  | ok n =>
    by_cases hneg : (load E 32 w).toInt < 0
    · have hlarge := le_toNat_signExtend hneg
      have hstrings : reserve ((load E 32 w).signExtend 64) maxStrings = .error .lengthError :=
        if_neg (by unfold maxStrings; omega)
      exact .inl ⟨.lengthError, by rw [hstrings], rfl⟩
    · have hpos : 0 ≤ (load E 32 w).toInt := by omega
      simp only [reserve_argc _ hpos]
      set r₀ : DeserializedArgs := ⟨load E 32 w, [], (Storage.empty _).reserve (load E 32 w).toNat⟩
      rcases readStrings_cases (E := E) (load E 32 w).toInt.toNat r₀ hlen with herror | ⟨args, hargs, hitems⟩
      · exact .inl ⟨.malformed, by rw [herror], rfl⟩
      · right
        have hcount : store E (BitVec.ofNat 32 args.length) = w := by
          rw [hargs, toInt_of_nonneg hpos, Int.toNat_natCast, BitVec.ofNat_toNat, BitVec.setWidth_eq,
            store_load (by decide) E w hw]
        refine ⟨args, ?_⟩
        rw [serialisation, hcount]
        exact (List.prefix_append_right_inj w).mpr hitems

/-- What is decoded is unique. -/
theorem serialisation_unique {args args' : List (List Byte)} {data : List Byte} (hlen : data.length < 2 ^ 32)
    (h : serialisation E args <+: data) (h' : serialisation E args' <+: data) : args = args' := by
  obtain ⟨r, hr, hholds⟩ := deserializeArgv_serialisation 0 hlen h
  obtain ⟨r', hr', hholds'⟩ := deserializeArgv_serialisation 0 hlen h'
  have hsame : r = r' := Except.ok.inj (hr.symm.trans hr')
  rw [← hholds.strings, ← hholds'.strings, hsame]

/-! ### The encoder -/

theorem cString_eq {s : List Byte} (h : 0 ∉ s) : cString s = s := by
  rw [cString, List.takeWhile_eq_self_iff]
  intro c hc
  simpa using ne_of_mem_of_not_mem hc h

theorem foldl_appendArg (E : Order) (args : List (List Byte)) : ∀ buffer : List Byte,
    (∀ s ∈ args, 0 ∉ s ∧ s.length < 2 ^ 32) →
    args.foldl (appendArg E) buffer = buffer ++ args.flatMap (argItem E) := by
  induction args with
  | nil => exact fun buffer _ => (List.append_nil buffer).symm
  | cons s args ih =>
    intro buffer h
    obtain ⟨hnul, hlen⟩ := h s List.mem_cons_self
    have hitem : appendArg E buffer s = buffer ++ argItem E s := by
      rw [appendArg, cString_eq hnul, appendU32, argItem, BitVec.toNat_ofNat, Nat.mod_eq_of_lt hlen, List.take_length,
        List.append_assoc]
    rw [List.foldl_cons, hitem, ih _ fun s hs => h s (List.mem_cons_of_mem _ hs), List.flatMap_cons, List.append_assoc]

/-- Strings without a NUL are serialised. -/
theorem serializeArgv_eq {args : List (List Byte)} (hnul : ∀ s ∈ args, 0 ∉ s)
    (hlen : (serialisation E args).length < 2 ^ 32) : serializeArgv E args = serialisation E args := by
  have hitems : ∀ s ∈ args, 0 ∉ s ∧ s.length < 2 ^ 32 := by
    intro s hs
    refine ⟨hnul s hs, ?_⟩
    have hpart := (List.sublist_flatten_of_mem (List.mem_map_of_mem (f := argItem E) hs)).length_le
    rw [serialisation, List.length_append, List.flatMap_def] at hlen
    rw [length_argItem] at hpart
    omega
  rw [serializeArgv, foldl_appendArg E args _ hitems]
  rfl

end Argv

/-- **The codec of the arguments**: the buffers that begin with a serialisation are
decoded to what was serialised, the others are rejected, and so is a buffer that is cut
short; nothing is read outside the buffer. -/
theorem argv_codec (E : Order) (overflow : BitVec 64) :
    (∀ data : List Byte, data.length < 2 ^ 32 →
      ((∃ r, deserializeArgv E overflow data = .ok r) ↔ ∃ args, serialisation E args <+: data) ∧
      (∀ args, serialisation E args <+: data → ∃ r, deserializeArgv E overflow data = .ok r ∧ r.Holds args) ∧
      ∀ e, deserializeArgv E overflow data = .error e → e.thrown = true) ∧
    ∀ args : List (List Byte), (∀ s ∈ args, 0 ∉ s) → (serialisation E args).length < 2 ^ 32 →
      (∃ r, deserializeArgv E overflow (serializeArgv E args) = .ok r ∧ r.Holds args) ∧
      ∀ cut, cut <+: serializeArgv E args → cut ≠ serializeArgv E args →
        ∃ e, deserializeArgv E overflow cut = .error e ∧ e.thrown = true := by
  refine ⟨fun data hlen => ⟨⟨?_, ?_⟩, fun args => deserializeArgv_serialisation overflow hlen, fun e he => ?_⟩,
    fun args hnul hlen => ⟨?_, fun cut hcut hne => ?_⟩⟩
  · rintro ⟨r, hr⟩
    refine (deserializeArgv_cases E overflow hlen).resolve_left ?_
    rintro ⟨e, he, -⟩
    rw [hr] at he
    cases he
  · rintro ⟨args, hargs⟩
    obtain ⟨r, hr, -⟩ := deserializeArgv_serialisation overflow hlen hargs
    exact ⟨r, hr⟩
  · rcases deserializeArgv_cases E overflow hlen with ⟨e', he', hthrown⟩ | ⟨args, hargs⟩
    · rw [he] at he'
      exact Except.error.inj he' ▸ hthrown
    · obtain ⟨r, hr, -⟩ := deserializeArgv_serialisation overflow hlen hargs
      rw [hr] at he
      cases he
  · rw [serializeArgv_eq hnul hlen]
    exact deserializeArgv_serialisation overflow hlen (List.prefix_refl _)
  · rw [serializeArgv_eq hnul hlen] at hcut hne
    have hshort := hcut.length_le
    refine (deserializeArgv_cases E overflow (by omega)).resolve_right ?_
    -- the same strings would have been serialised to less
    rintro ⟨args', hargs'⟩
    have hsame := serialisation_unique hlen (hargs'.trans hcut) (List.prefix_refl _)
    subst hsame
    exact hne (hcut.eq_of_length (Nat.le_antisymm hshort hargs'.length_le))

/-- "A" with a byte behind it is decoded; "viu list" is sent and read back, and without its
last byte rejected. -/
theorem argv_codec_list :
    (∃ r, deserializeArgv .little 0 [1, 0, 0, 0, 1, 0, 0, 0, 65, 7] = .ok r ∧ r.Holds [[65]]) ∧
    ∃ data : List Byte, data = serializeArgv .little [[118, 105, 117], [108, 105, 115, 116]] ∧
      (∃ r, deserializeArgv .little 0 data = .ok r ∧ r.Holds [[118, 105, 117], [108, 105, 115, 116]]) ∧
      ∃ e, deserializeArgv .little 0 data.dropLast = .error e ∧ e.thrown = true := by
  obtain ⟨hdata, hround⟩ := argv_codec .little 0
  obtain ⟨-, hdecoded, -⟩ := hdata [1, 0, 0, 0, 1, 0, 0, 0, 65, 7] (by decide)
  obtain ⟨hback, hcut⟩ := hround [[118, 105, 117], [108, 105, 115, 116]] (by decide) (by decide)
  exact ⟨hdecoded [[65]] ⟨[7], rfl⟩, _, rfl, hback, hcut _ (List.dropLast_prefix _) (by decide)⟩

end Viu
