import Mathlib.Algebra.Ring.Nat
import Mathlib.Data.List.Basic

/-! Numbers as bytes, the most significant byte first. -/
namespace RtspRelay.BigEndian

def number (bytes : List UInt8) : Nat := bytes.foldl (fun n b => 256 * n + b.toNat) 0

-- The last `k` bytes of a number.
def bytes : Nat → Nat → List UInt8
  | 0, _ => []
  | k + 1, n => bytes k (n / 256) ++ [.ofNat n]

@[simp] theorem bytesLength (k n : Nat) : (bytes k n).length = k := by
  induction k generalizing n with
  | zero => rfl
  | succ k ih => rw [bytes, List.length_append, ih, List.length_singleton]

theorem numberAppend (s : List UInt8) (b : UInt8) : number (s ++ [b]) = 256 * number s + b.toNat := by
  rw [number, List.foldl_append]
  rfl

theorem bytesNumber (k n : Nat) : number (bytes k n) = n % 256 ^ k := by
  induction k generalizing n with
  | zero => rw [Nat.pow_zero, Nat.mod_one]; rfl
  | succ k ih =>
    have last : (UInt8.ofNat n).toNat = n % 256 := rfl
    rw [bytes, numberAppend, ih, last, Nat.pow_succ', Nat.mod_mul]
    omega

/-! The same number put together with shifts. -/

theorem orBelow {a b k : Nat} (below : b < 2 ^ k) : a <<< k ||| b = a * 2 ^ k + b := by
  rw [← Nat.shiftLeft_add_eq_or_of_lt below, Nat.shiftLeft_eq]

theorem twoBytes (a b : UInt8) : a.toUInt16 <<< 8 ||| b.toUInt16 = .ofNat (number [a, b]) := by
  have join : a.toNat <<< 8 ||| b.toNat = number [a, b] := by
    rw [orBelow b.toNat_lt]
    simp only [number, List.foldl_cons, List.foldl_nil]
    omega
  apply UInt16.toNat_inj.mp
  rw [← join]
  simp [UInt16.toNat_or, UInt16.toNat_shiftLeft]

theorem fourBytes (a b c d : UInt8) :
    a.toUInt32 <<< 24 ||| b.toUInt32 <<< 16 ||| c.toUInt32 <<< 8 ||| d.toUInt32 = .ofNat (number [a, b, c, d]) := by
  have nested : a.toNat <<< 24 ||| b.toNat <<< 16 ||| c.toNat <<< 8 ||| d.toNat =
      ((a.toNat <<< 8 ||| b.toNat) <<< 8 ||| c.toNat) <<< 8 ||| d.toNat := by
    simp only [Nat.shiftLeft_or_distrib, ← Nat.shiftLeft_add]
  have join : a.toNat <<< 24 ||| b.toNat <<< 16 ||| c.toNat <<< 8 ||| d.toNat = number [a, b, c, d] := by
    rw [nested, orBelow d.toNat_lt, orBelow c.toNat_lt, orBelow b.toNat_lt]
    simp only [number, List.foldl_cons, List.foldl_nil]
    omega
  apply UInt32.toNat_inj.mp
  rw [← join]
  simp [UInt32.toNat_or, UInt32.toNat_shiftLeft]

theorem bytes16 (n : UInt16) : UInt16.ofNat (number (bytes 2 n.toNat)) = n := by
  have below : n.toNat < 256 ^ 2 := n.toNat_lt
  rw [bytesNumber, Nat.mod_eq_of_lt below]
  exact UInt16.ofNat_toNat

theorem bytes32 (n : UInt32) : UInt32.ofNat (number (bytes 4 n.toNat)) = n := by
  have below : n.toNat < 256 ^ 4 := n.toNat_lt
  rw [bytesNumber, Nat.mod_eq_of_lt below]
  exact UInt32.ofNat_toNat

end RtspRelay.BigEndian
