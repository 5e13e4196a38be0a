/-
# Words in memory

A word of `k` bits (`8 ∣ k`) is `k / 8` bytes in memory, least significant
first on a little-endian machine and last on a big-endian one. `store` and
`load` are the two directions, `toBig` and `fromBig` the conversions a
program makes on values it copies to and from a big-endian wire: whatever
the machine's own order, the bytes of `toBig E x` are `x` most significant
byte first (`store_toBig`) and what comes back is `x` (`fromBig_toBig`).

Key theorems: `load_store`, `store_toBig`, `fromBig_toBig`,
`fromBig_load_big`.
-/
import Mathlib.Data.Nat.ModEq
import Mathlib.Data.List.Basic
import Mathlib.Tactic.Ring

namespace Bytes

abbrev Byte := BitVec 8

/-- The `n` low bytes of `x`, least significant first. -/
def leBytes : ℕ → ℕ → List Byte
  | 0, _ => []
  | n + 1, x => BitVec.ofNat 8 x :: leBytes n (x / 256)

/-- The number whose bytes, least significant first, are `bs`. -/
def leNat : List Byte → ℕ
  | [] => 0
  | b :: bs => b.toNat + 256 * leNat bs

@[simp] theorem length_leBytes : ∀ n x : ℕ, (leBytes n x).length = n
  | 0, _ => rfl
  | n + 1, x => by simp [leBytes, length_leBytes n]

theorem leNat_leBytes : ∀ n x : ℕ, leNat (leBytes n x) = x % 256 ^ n
  | 0, x => by simp [leBytes, leNat, Nat.mod_one]
  | n + 1, x => by
    have hp : (256 : ℕ) ^ (n + 1) = 256 * 256 ^ n := pow_succ' ..
    rw [leBytes, leNat, leNat_leBytes n, BitVec.toNat_ofNat, hp, Nat.mod_mul]

theorem leBytes_leNat : ∀ bs : List Byte, leBytes bs.length (leNat bs) = bs
  | [] => rfl
  | b :: bs => by
    have hb : b.toNat < 256 := b.isLt
    rw [List.length_cons, leBytes, leNat]
    congr 1
    · apply BitVec.eq_of_toNat_eq
      rw [BitVec.toNat_ofNat]
      omega
    · rw [show (b.toNat + 256 * leNat bs) / 256 = leNat bs by omega, leBytes_leNat bs]

theorem leNat_lt : ∀ bs : List Byte, leNat bs < 256 ^ bs.length
  | [] => by simp [leNat]
  | b :: bs => by
    have hb : b.toNat < 256 := b.isLt
    have ih := leNat_lt bs
    rw [leNat, List.length_cons, pow_succ]
    omega

theorem take_leBytes : ∀ n k x : ℕ, (leBytes n x).take k = leBytes (min k n) x
  | 0, _, _ => by simp [leBytes]
  | _ + 1, 0, _ => by simp [leBytes]
  | n + 1, k + 1, x => by
    rw [Nat.succ_min_succ]
    simp only [leBytes, List.take_succ_cons, take_leBytes n k]

theorem drop_leBytes : ∀ n k x : ℕ, (leBytes n x).drop k = leBytes (n - k) (x / 256 ^ k)
  | 0, _, _ => by simp [leBytes]
  | n + 1, 0, x => by simp
  | n + 1, k + 1, x => by
    have hp : (256 : ℕ) ^ (k + 1) = 256 * 256 ^ k := pow_succ' ..
    rw [leBytes, List.drop_succ_cons, drop_leBytes n k, Nat.add_sub_add_right, hp, Nat.div_div_eq_div_mul]

/-- The bits of `m` bytes of `x` from its byte `a` on. -/
theorem testBit_leNat_leBytes (m a x j : ℕ) :
    (leNat (leBytes m (x / 256 ^ a))).testBit j = (decide (j < 8 * m) && x.testBit (8 * a + j)) := by
  have hp : ∀ n : ℕ, (256 : ℕ) ^ n = 2 ^ (8 * n) := fun n => by rw [pow_mul]; norm_num
  rw [leNat_leBytes, hp, hp, Nat.testBit_mod_two_pow, Nat.testBit_div_two_pow, Nat.add_comm j]

/-! ### A word in native order -/

/-- The byte order of a machine. -/
inductive Order
  | little
  | big
  deriving DecidableEq, Repr

/-- The bytes of `x` as they stand in memory. -/
def store (E : Order) {k : ℕ} (x : BitVec k) : List Byte :=
  match E with
  | .little => leBytes (k / 8) x.toNat
  | .big => (leBytes (k / 8) x.toNat).reverse

/-- The word a machine reads from `bs`. -/
def load (E : Order) (k : ℕ) (bs : List Byte) : BitVec k :=
  match E with
  | .little => BitVec.ofNat k (leNat bs)
  | .big => BitVec.ofNat k (leNat bs.reverse)

/-- `x` with its bytes in the opposite order. -/
def endianReverse {k : ℕ} (x : BitVec k) : BitVec k := load .big k (store .little x)

/-- The value whose bytes in memory are `x`, most significant first. -/
def toBig (E : Order) {k : ℕ} (x : BitVec k) : BitVec k :=
  match E with
  | .little => endianReverse x
  | .big => x

/-- The value of a word read from a big-endian source. -/
def fromBig (E : Order) {k : ℕ} (x : BitVec k) : BitVec k := toBig E x

/-- The value of a word taken from a little-endian source. -/
def fromLittle (E : Order) {k : ℕ} (x : BitVec k) : BitVec k :=
  match E with
  | .little => x
  | .big => endianReverse x

@[simp] theorem length_store (E : Order) {k : ℕ} (x : BitVec k) : (store E x).length = k / 8 := by
  cases E <;> simp [store]

theorem leNat_leBytes_word {k : ℕ} (hk : 8 * (k / 8) = k) (x : BitVec k) :
    leNat (leBytes (k / 8) x.toNat) = x.toNat := by
  have h : (256 : ℕ) ^ (k / 8) = 2 ^ k := by
    rw [show (256 : ℕ) = 2 ^ 8 by norm_num, ← pow_mul, hk]
  rw [leNat_leBytes, h, Nat.mod_eq_of_lt x.isLt]

/-- A word survives memory. -/
@[simp] theorem load_store {k : ℕ} (hk : 8 * (k / 8) = k) (E : Order) (x : BitVec k) :
    load E k (store E x) = x := by
  cases E <;> simp [load, store, leNat_leBytes_word hk]

/-- Bytes survive a word. -/
theorem store_load {k : ℕ} (hk : 8 * (k / 8) = k) (E : Order) (bs : List Byte)
    (hb : bs.length = k / 8) : store E (load E k bs) = bs := by
  have hlt : ∀ cs : List Byte, cs.length = k / 8 → leNat cs < 2 ^ k := fun cs hc => by
    have h := leNat_lt cs
    rwa [hc, show (256 : ℕ) = 2 ^ 8 by norm_num, ← pow_mul, hk] at h
  have hone : ∀ cs : List Byte, cs.length = k / 8 →
      leBytes (k / 8) (BitVec.ofNat k (leNat cs)).toNat = cs := fun cs hc => by
    rw [BitVec.toNat_ofNat, Nat.mod_eq_of_lt (hlt cs hc), ← hc, leBytes_leNat]
  cases E with
  | little => exact hone bs hb
  | big =>
    have h := hone bs.reverse (by simpa using hb)
    simp only [store, load, h, List.reverse_reverse]

theorem store_endianReverse {k : ℕ} (hk : 8 * (k / 8) = k) (x : BitVec k) :
    store .little (endianReverse x) = store .big x := by
  have h := store_load hk .big (store .little x) (by simp)
  rw [endianReverse]
  simpa [store] using congrArg List.reverse h

/-- Whatever the machine, the bytes of `toBig E x` are `x` most significant
byte first. -/
@[simp] theorem store_toBig {k : ℕ} (hk : 8 * (k / 8) = k) (E : Order) (x : BitVec k) :
    store E (toBig E x) = store .big x := by
  cases E with
  | little => exact store_endianReverse hk x
  | big => rfl

/-- What a machine makes of big-endian bytes: the number they spell. -/
theorem fromBig_load {k : ℕ} (hk : 8 * (k / 8) = k) (E : Order) (bs : List Byte)
    (hb : bs.length = k / 8) : fromBig E (load E k bs) = load .big k bs := by
  cases E with
  | little =>
    show load .big k (store .little (load .little k bs)) = _
    rw [store_load hk .little bs hb]
  | big => rfl

/-- A value survives the wire. -/
@[simp] theorem fromBig_toBig {k : ℕ} (hk : 8 * (k / 8) = k) (E : Order) (x : BitVec k) :
    fromBig E (toBig E x) = x := by
  have h := fromBig_load hk E (store E (toBig E x)) (by simp)
  rwa [load_store hk, store_toBig hk, load_store hk] at h

end Bytes
