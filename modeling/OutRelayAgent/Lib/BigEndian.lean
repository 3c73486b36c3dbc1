import OutRelayAgent.Lib.Bytes
import Mathlib.Algebra.Order.Ring.Nat

/-!
# Numbers in network byte order

`putBE k n` are the last `k` bytes of `n`, the most significant one first, and `getBE` reads them.

* `getBE_putBE`: what is read is `n` modulo `256 ^ k`, so `n` if it fits.
* `getBE_take`, `drop_putBE`: the number and the rest, when more bytes follow.
-/

namespace OutRelayAgent.Lib

def putBE : ℕ → ℕ → Bytes
  | 0, _ => []
  | k + 1, n => putBE k (n / 256) ++ [UInt8.ofNat n]

def getBE (bs : Bytes) : ℕ := bs.foldl (fun n b => 256 * n + b.toNat) 0

@[simp] theorem length_putBE (k n : ℕ) : (putBE k n).length = k := by
  induction k generalizing n with
  | zero => rfl
  | succ k ih => simp [putBE, ih]

theorem getBE_concat (bs : Bytes) (b : UInt8) : getBE (bs ++ [b]) = 256 * getBE bs + b.toNat := by
  simp [getBE]

theorem getBE_putBE (k n : ℕ) : getBE (putBE k n) = n % 256 ^ k := by
  induction k generalizing n with
  | zero => simp [putBE, getBE, Nat.mod_one]
  | succ k ih =>
    have hbyte : (UInt8.ofNat n).toNat = n % 256 := UInt8.toNat_ofNat'
    rw [putBE, getBE_concat, ih, hbyte, Nat.pow_succ', Nat.mod_mul, Nat.add_comm]

theorem getBE_putBE_of_lt {k n : ℕ} (h : n < 256 ^ k) : getBE (putBE k n) = n := by
  rw [getBE_putBE, Nat.mod_eq_of_lt h]

theorem getBE_take {k n : ℕ} (h : n < 256 ^ k) (bs : Bytes) :
    getBE ((putBE k n ++ bs).take k) = n := by
  rw [List.take_left' (length_putBE k n), getBE_putBE_of_lt h]

theorem drop_putBE (k n : ℕ) (bs : Bytes) : (putBE k n ++ bs).drop k = bs :=
  List.drop_left' (length_putBE k n)

end OutRelayAgent.Lib
