import Mathlib.Data.List.Basic
import Mathlib.Data.List.Induction
import Mathlib.Tactic.NormNum

/-!
# Byte strings

Numbers as big-endian bytes, and a list cut into chunks.
-/

universe u

/-! ## Big-endian numbers -/

namespace BigEndian

/-- The last `width` bytes of a number, the most significant one first. -/
def toBytes : Nat → Nat → List UInt8
  | 0, _ => []
  | width + 1, n => toBytes width (n / 256) ++ [UInt8.ofNat n]

/-- The number the bytes stand for. -/
def ofBytes (bytes : List UInt8) : Nat :=
  bytes.foldl (fun n byte => n * 256 + byte.toNat) 0

@[simp] theorem length_toBytes (width n : Nat) : (toBytes width n).length = width := by
  induction width generalizing n with
  | zero => rfl
  | succ width ih => simp [toBytes, ih]

theorem ofBytes_snoc (bytes : List UInt8) (byte : UInt8) :
    ofBytes (bytes ++ [byte]) = ofBytes bytes * 256 + byte.toNat := by
  simp [ofBytes]

/-- The bytes of a number that fits stand for it. -/
theorem ofBytes_toBytes {width n : Nat} (h : n < 256 ^ width) : ofBytes (toBytes width n) = n := by
  induction width generalizing n with
  | zero =>
      have hzero : n = 0 := by simpa using h
      rw [hzero]
      rfl
  | succ width ih =>
      have hquot : n / 256 < 256 ^ width := by
        rw [Nat.pow_succ] at h
        exact Nat.div_lt_of_lt_mul (by rwa [Nat.mul_comm])
      rw [toBytes, ofBytes_snoc, ih hquot, UInt8.toNat_ofNat']
      exact Nat.div_add_mod' n 256

theorem ofBytes_lt (bytes : List UInt8) : ofBytes bytes < 256 ^ bytes.length := by
  induction bytes using List.reverseRecOn with
  | nil => simp [ofBytes]
  | append_singleton bytes byte ih =>
      have hbyte := byte.toNat_lt
      rw [ofBytes_snoc, List.length_append, List.length_singleton, Nat.pow_succ]
      omega

/-- The bytes of the number that some bytes stand for are these bytes. -/
theorem toBytes_ofBytes (bytes : List UInt8) : toBytes bytes.length (ofBytes bytes) = bytes := by
  induction bytes using List.reverseRecOn with
  | nil => rfl
  | append_singleton bytes byte ih =>
      have hbyte := byte.toNat_lt
      have hquot : (ofBytes bytes * 256 + byte.toNat) / 256 = ofBytes bytes := by omega
      have hlow : UInt8.ofNat (ofBytes bytes * 256 + byte.toNat) = byte := by
        rw [← UInt8.toNat_inj, UInt8.toNat_ofNat']
        omega
      rw [ofBytes_snoc, List.length_append, List.length_singleton, toBytes, hquot, ih, hlow]

end BigEndian

/-! ## Chunks -/

namespace List

variable {α : Type u}

/-- Cuts a list into pieces of `size`, the last one possibly shorter. -/
def chunks (size : Nat) (xs : List α) : List (List α) :=
  if size = 0 ∨ xs = [] then [] else xs.take size :: chunks size (xs.drop size)
termination_by xs.length
decreasing_by
  rename_i h
  have hpos : 0 < xs.length := List.length_pos_of_ne_nil fun hnil => h (.inr hnil)
  rw [List.length_drop]
  omega

variable {size : Nat}

theorem flatten_chunks (hsize : 0 < size) (xs : List α) : (xs.chunks size).flatten = xs := by
  fun_induction chunks size xs with
  | case1 xs h =>
      obtain hzero | rfl := h
      · omega
      · rfl
  | case2 xs h ih => rw [List.flatten_cons, ih, List.take_append_drop]

theorem length_le_of_mem_chunks {xs chunk : List α} (h : chunk ∈ xs.chunks size) :
    chunk.length ≤ size := by
  fun_induction chunks size xs with
  | case1 => cases h
  | case2 xs _ ih =>
      rcases List.mem_cons.mp h with rfl | hrest
      · exact List.length_take_le ..
      · exact ih hrest

/-- There are no more chunks than elements. -/
theorem length_chunks_le (xs : List α) : (xs.chunks size).length ≤ xs.length := by
  fun_induction chunks size xs with
  | case1 => exact Nat.zero_le _
  | case2 xs h ih =>
      have hpos : 0 < xs.length := List.length_pos_of_ne_nil fun hnil => h (.inr hnil)
      rw [List.length_drop] at ih
      rw [List.length_cons]
      omega

end List
