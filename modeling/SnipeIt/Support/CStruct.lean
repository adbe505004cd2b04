import Mathlib.Algebra.Group.Nat.Defs
import Mathlib.Data.List.Basic
import Mathlib.Tactic.Common

/-! # Words and structures in the memory of a host

A host keeps the bytes of a word in an order of its own. The members of a C
structure lie one behind the other, each at a multiple of its alignment, which
is 1 for every member of a packed structure.
-/

namespace SnipeIt.Support

/-! ## Words -/

/-- The value of some bytes, the least significant one first. -/
def leValue : List UInt8 → ℕ
  | [] => 0
  | b :: bs => b.toNat + 256 * leValue bs

/-- The `n` low bytes of a value, the least significant one first. -/
def leBytes : ℕ → ℕ → List UInt8
  | 0, _ => []
  | n + 1, v => UInt8.ofNat v :: leBytes n (v / 256)

/-- The `n` low bytes of a value, the most significant one first. -/
def beBytes (n v : ℕ) : List UInt8 := (leBytes n v).reverse

@[simp] theorem length_leBytes (n v : ℕ) : (leBytes n v).length = n := by
  induction n generalizing v with
  | zero => rfl
  | succ n ih => rw [leBytes, List.length_cons, ih]

@[simp] theorem length_beBytes (n v : ℕ) : (beBytes n v).length = n := by
  rw [beBytes, List.length_reverse, length_leBytes]

theorem leValue_lt (bs : List UInt8) : leValue bs < 256 ^ bs.length := by
  induction bs with
  | nil => decide
  | cons b bs ih =>
    have hb : b.toNat < 256 := b.toNat_lt
    rw [leValue, List.length_cons, Nat.pow_succ]
    omega

theorem leBytes_leValue (bs : List UInt8) : leBytes bs.length (leValue bs) = bs := by
  induction bs with
  | nil => rfl
  | cons b bs ih =>
    have hb : b.toNat < 256 := b.toNat_lt
    have hlow : UInt8.ofNat (b.toNat + 256 * leValue bs) = b := by
      apply UInt8.toNat_inj.mp
      rw [UInt8.toNat_ofNat']
      omega
    have hhigh : (b.toNat + 256 * leValue bs) / 256 = leValue bs := by omega
    rw [List.length_cons, leValue, leBytes, hlow, hhigh, ih]

theorem leValue_leBytes (n v : ℕ) : leValue (leBytes n v) = v % 256 ^ n := by
  induction n generalizing v with
  | zero => rw [Nat.pow_zero, Nat.mod_one, leBytes, leValue]
  | succ n ih =>
    have hbyte : (UInt8.ofNat v).toNat = v % 256 := UInt8.toNat_ofNat'
    rw [leBytes, leValue, ih, hbyte, Nat.pow_succ', Nat.mod_mul]

theorem leBytes_eq_map (n v : ℕ) :
    leBytes n v = (List.range n).map fun i => UInt8.ofNat (v / 256 ^ i) := by
  induction n generalizing v with
  | zero => rfl
  | succ n ih =>
    have hhead : UInt8.ofNat (v / 256 ^ 0) = UInt8.ofNat v := by rw [Nat.pow_zero, Nat.div_one]
    rw [leBytes, ih, List.range_succ_eq_map, List.map_cons, List.map_map, hhead]
    congr 1
    apply List.map_congr_left
    intro i _
    rw [Function.comp_apply, Nat.div_div_eq_div_mul, Nat.pow_succ']

inductive ByteOrder where
  | little | big
  deriving DecidableEq

namespace ByteOrder

/-- Turn bytes from the order of the memory to the least significant one first, and back. -/
def arrange : ByteOrder → List UInt8 → List UInt8
  | little, bs => bs
  | big, bs => bs.reverse

def load (order : ByteOrder) (bs : List UInt8) : ℕ := leValue (order.arrange bs)

def store (order : ByteOrder) (n v : ℕ) : List UInt8 := order.arrange (leBytes n v)

@[simp] theorem length_arrange (order : ByteOrder) (bs : List UInt8) :
    (order.arrange bs).length = bs.length := by
  cases order with
  | little => rfl
  | big => exact List.length_reverse

@[simp] theorem arrange_arrange (order : ByteOrder) (bs : List UInt8) :
    order.arrange (order.arrange bs) = bs := by
  cases order with
  | little => rfl
  | big => exact List.reverse_reverse bs

@[simp] theorem length_store (order : ByteOrder) (n v : ℕ) : (order.store n v).length = n := by
  rw [store, length_arrange, length_leBytes]

theorem load_lt (order : ByteOrder) (bs : List UInt8) : order.load bs < 256 ^ bs.length := by
  rw [← order.length_arrange bs]
  exact leValue_lt _

/-- The bytes of a word are those that it was loaded from, whatever their order. -/
theorem store_load (order : ByteOrder) (bs : List UInt8) :
    order.store bs.length (order.load bs) = bs := by
  rw [store, load, ← order.length_arrange bs, leBytes_leValue, arrange_arrange]

end ByteOrder

structure Member (ι : Type*) where
  name : ι
  size : ℕ
  align : ℕ

namespace Member

variable {ι : Type*}

def packed (name : ι) (size : ℕ) : Member ι := ⟨name, size, 1⟩

def word (name : ι) (size : ℕ) : Member ι := ⟨name, size, size⟩

def bytes (name : ι) (size : ℕ) : Member ι := ⟨name, size, 1⟩

/-- The first multiple of an alignment from an offset on. -/
def alignUp (align offset : ℕ) : ℕ := (offset + align - 1) / align * align

def place : ℕ → List (Member ι) → List (ι × ℕ × ℕ)
  | _, [] => []
  | offset, m :: ms =>
    (m.name, alignUp m.align offset, m.size) :: place (alignUp m.align offset + m.size) ms

/-- `offsetof` and `sizeof` of a member. -/
def span [DecidableEq ι] (members : List (Member ι)) (name : ι) : ℕ × ℕ :=
  ((place 0 members).lookup name).getD (0, 0)

/-- The end of the last member. -/
def extent : ℕ → List (Member ι) → ℕ
  | offset, [] => offset
  | offset, m :: ms => extent (alignUp m.align offset + m.size) ms

/-- `sizeof`: the end of the last member, up to the strictest alignment. -/
def structSize (members : List (Member ι)) : ℕ :=
  alignUp ((members.map align).foldl max 1) (extent 0 members)

end Member

end SnipeIt.Support
