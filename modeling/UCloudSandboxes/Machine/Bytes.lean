import Mathlib.Data.List.Sort
import Mathlib.Data.Prod.Lex
import Mathlib.Data.String.Basic

/-! Fixed-width fields of byte strings. -/
namespace UCloudSandboxes.Machine
open List

abbrev Bytes := List (Fin 256)

def byte (n : Nat) : Fin 256 := Fin.ofNat 256 n

def zeros (size : Nat) : Bytes := replicate size (byte 0)

/-- An unsigned field of `struct`: `width` bytes, the lowest first. -/
def packUint : Nat → Nat → Bytes
  | 0, _ => []
  | width + 1, n => byte n :: packUint width (n / 256)

def unpackUint : Bytes → Nat
  | [] => 0
  | byte :: rest => byte + 256 * unpackUint rest

@[simp]
theorem length_packUint (width n) : (packUint width n).length = width := by
  induction width generalizing n with
  | zero => rfl
  | succ width ih => rw [packUint,length_cons,ih]

@[simp]
theorem length_zeros (size) : (zeros size).length = size := length_replicate

theorem unpackUint_packUint {width n} (h : n < 256 ^ width) :
    unpackUint (packUint width n) = n := by
  induction width generalizing n with
  | zero => exact (Nat.lt_one_iff.mp h).symm
  | succ width ih =>
    rw [packUint,unpackUint,ih (Nat.div_lt_of_lt_mul (by rwa [pow_succ'] at h))]
    exact Nat.mod_add_div n 256

def slice (bytes : Bytes) (offset size : Nat) : Bytes := (bytes.drop offset).take size

variable {a b : Bytes} {i n : Nat}

theorem slice_left (h : a.length = n) : slice (a ++ b) 0 n = a := take_left' h

theorem slice_right (h : a.length ≤ i) : slice (a ++ b) i n = slice b (i - a.length) n := by
  rw [slice,drop_append,drop_eq_nil_of_le h]
  rfl

theorem slice_append (h : i + n ≤ a.length) : slice (a ++ b) i n = slice a i n := by
  rw [slice,drop_append_of_le_length (by omega),take_append_of_le_length (by rw [length_drop]; omega)]
  rfl

end UCloudSandboxes.Machine
