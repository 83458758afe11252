import Mathlib.Data.Nat.Digits.Defs
import TinyBpfLog.Foundation.BoundedMap
import TinyBpfLog.Foundation.CharArray

/-!
# What the kernel gives to a program

The identifiers of the current task, the clock, the memory of the kernel, and
the ways in which an event leaves a program.
-/

namespace TinyBpfLog.Bpftools

open Foundation

def taskCommLen : Nat := 16

/-- `bpf_get_current_pid_tgid() >> 32` -/
def pidOf (pidTgid : UInt64) : UInt32 := (pidTgid >>> 32).toUInt32

/-- `(u32)bpf_get_current_pid_tgid()` -/
def tidOf (pidTgid : UInt64) : UInt32 := pidTgid.toUInt32

/-- An event that is offered is dropped if the ring buffer has no room for it. -/
inductive Offer (ε : Type) where
  | notOffered
  | dropped
  | submitted (event : ε)

/-- The byte at an address, or `none` where a read faults. -/
abbrev KernelMemory := UInt64 → Option UInt8

/-- The bytes from `address` on, or zeros when one of them cannot be read. -/
def probeReadKernel (kernel : KernelMemory) (size : Nat) (address : UInt64) :
    Bytes :=
  ((List.range size).mapM fun i => kernel (address + i.toUInt64)).getD
    (List.replicate size 0)

/-- An unsigned integer of `size` bytes, from memory. -/
def littleEndian (size : Nat) (bytes : Bytes) : BitVec (8 * size) :=
  BitVec.ofNat (8 * size) (Nat.ofDigits 256 (bytes.map UInt8.toNat))

/-! ## Reading memory -/

/-- `bytes` are there to be read, from `address` on. -/
def KernelMemory.Holds (kernel : KernelMemory) (address : UInt64) (bytes : Bytes) :
    Prop :=
  ∀ i < bytes.length, kernel (address + i.toUInt64) = bytes[i]?

private theorem mapM_eq_some {α β : Type} {f : α → Option β} {g : α → β}
    {xs : List α} (h : ∀ x ∈ xs, f x = some (g x)) : xs.mapM f = some (xs.map g) := by
  induction xs with
  | nil => rfl
  | cons x xs ih =>
      rw [List.mapM_cons, h x List.mem_cons_self,
        ih fun y hy => h y (List.mem_cons_of_mem x hy)]
      rfl

theorem probeReadKernel_of_holds {kernel : KernelMemory} {address : UInt64}
    {bytes : Bytes} (h : kernel.Holds address bytes) :
    probeReadKernel kernel bytes.length address = bytes := by
  have hread := @mapM_eq_some Nat UInt8 (fun i => kernel (address + i.toUInt64))
    (fun i => bytes.getD i 0) (List.range bytes.length) fun i hi => by
      have hlt := List.mem_range.mp hi
      simp [h i hlt, List.getD, hlt]
  have hbytes : (List.range bytes.length).map (fun i => bytes.getD i 0) = bytes :=
    List.ext_getElem (by simp) fun i hi _ => by
      rw [List.length_map, List.length_range] at hi
      simp [List.getD, hi]
  rw [probeReadKernel, hread, hbytes]
  rfl

/-- The `size` low bytes of a number, the lowest first. -/
def lowBytes : Nat → Nat → Bytes
  | 0, _ => []
  | size + 1, n => n.toUInt8 :: lowBytes size (n / 256)

@[simp] theorem length_lowBytes (size n : Nat) : (lowBytes size n).length = size := by
  induction size generalizing n with
  | zero => rfl
  | succ size ih => rw [lowBytes, List.length_cons, ih]

theorem ofDigits_lowBytes (size n : Nat) :
    Nat.ofDigits 256 ((lowBytes size n).map UInt8.toNat) = n % 256 ^ size := by
  induction size generalizing n with
  | zero => simp [lowBytes, Nat.mod_one]
  | succ size ih =>
      have hlow : n.toUInt8.toNat = n % 256 := rfl
      rw [lowBytes, List.map_cons, Nat.ofDigits_cons, ih, hlow, Nat.pow_succ',
        Nat.mod_mul]

theorem littleEndian_append (size : Nat) (low high : Bytes) :
    littleEndian size (low ++ high) =
      BitVec.ofNat (8 * size) (Nat.ofDigits 256 (low.map UInt8.toNat) +
        256 ^ low.length * Nat.ofDigits 256 (high.map UInt8.toNat)) := by
  rw [littleEndian, List.map_append, Nat.ofDigits_append, List.length_map]

theorem elapsed_toNat {start now : UInt64} (h : start ≤ now) :
    (now - start).toNat = now.toNat - start.toNat :=
  UInt64.toNat_sub_of_le _ _ h

end TinyBpfLog.Bpftools
