import Mathlib.Algebra.Ring.Int.Defs
import Mathlib.Algebra.Ring.Nat
import Mathlib.Data.List.AList
import RtspRelay.General.ByteSearch

/-! What the source takes from the C++ library and the 64-bit target: byte
strings, wrapping conversions, and the calls of `std::string` that can throw. -/
namespace RtspRelay.Machine

abbrev Bytes := List UInt8

def ascii (s : String) : Bytes := s.toList.map (fun c => UInt8.ofNat c.toNat)

def crlf : Bytes := [13, 10]
def crlfcrlf : Bytes := [13, 10, 13, 10]

inductive Exn where
  | lengthError
  | outOfRange
  deriving DecidableEq, Repr

-- Conversion to `size_t`, modulo 2^64.
def sizeT (x : Int) : Nat := (x % 2 ^ 64).toNat

-- Conversion to a two's complement `int`; also the value of an `int` sum.
def int32 (x : Int) : Int := x.bmod (2 ^ 32)

def intMax : Int := 2147483647

-- `max_size()` of a libstdc++ string of `char`.
def stringMaxSize : Nat := 2 ^ 62 - 1

def makeString (s : Bytes) (n : Nat) : Except Exn Bytes :=
  if stringMaxSize < n then .error .lengthError else .ok (s.take n)

def substr (s : Bytes) (pos n : Nat) : Except Exn Bytes :=
  if s.length < pos then .error .outOfRange else .ok ((s.drop pos).take n)

def substrFrom (s : Bytes) (pos : Nat) : Except Exn Bytes :=
  if s.length < pos then .error .outOfRange else .ok (s.drop pos)

theorem makeStringOk {s : Bytes} {n : Nat} (h : n ≤ stringMaxSize) :
    makeString s n = .ok (s.take n) := if_neg (Nat.not_lt.mpr h)

theorem substrOk {s : Bytes} {pos : Nat} (h : pos ≤ s.length) (n : Nat) :
    substr s pos n = .ok ((s.drop pos).take n) := if_neg (Nat.not_lt.mpr h)

theorem substrFromOk {s : Bytes} {pos : Nat} (h : pos ≤ s.length) :
    substrFrom s pos = .ok (s.drop pos) := if_neg (Nat.not_lt.mpr h)

/-! Numbers in text. `strtoll` saturates at the ends of its range; `long` and
`long long` agree on the target, and `atoi` truncates the result. -/

def isSpace (b : UInt8) : Bool := b == 32 || (9 ≤ b && b ≤ 13)
def isDigit (b : UInt8) : Bool := 48 ≤ b && b ≤ 57

def digitsValue (s : Bytes) : Int :=
  (s.takeWhile isDigit).foldl (fun acc b => 10 * acc + (b.toNat - 48 : Int)) 0

def strtoll (s : Bytes) : Int :=
  match s.dropWhile isSpace with
  | [] => 0
  | b :: rest =>
    if b = 45 then max (-2 ^ 63) (-digitsValue rest)
    else if b = 43 then min (2 ^ 63 - 1) (digitsValue rest)
    else min (2 ^ 63 - 1) (digitsValue (b :: rest))

def atoll (s : Bytes) : Int := strtoll s
def atoi (s : Bytes) : Int := int32 (strtoll s)

def decimal (n : Nat) : Bytes := (Nat.toDigits 10 n).map (fun c => UInt8.ofNat c.toNat)

def rfind (b : UInt8) (s : Bytes) : Option Nat := (s.reverse.idxOf? b).map (s.length - 1 - ·)

theorem digitsValueNonneg (s : Bytes) : 0 ≤ digitsValue s := by
  unfold digitsValue
  have step : ∀ (digits : Bytes) (acc : Int), 0 ≤ acc → (∀ b ∈ digits, isDigit b = true) →
      0 ≤ digits.foldl (fun acc b => 10 * acc + (b.toNat - 48 : Int)) acc := by
    intro digits
    induction digits with
    | nil => intro acc h _; simpa using h
    | cons b rest ih =>
      intro acc h all
      have digit : 48 ≤ b.toNat := by
        have := all b List.mem_cons_self
        simp only [isDigit, Bool.and_eq_true, decide_eq_true_eq, UInt8.le_iff_toNat_le] at this
        simpa using this.1
      have next : 0 ≤ 10 * acc + (b.toNat - 48 : Int) := by omega
      exact ih _ next (fun x hx => all x (List.mem_cons_of_mem _ hx))
  exact step _ 0 (Int.le_refl 0) (List.all_eq_true.mp List.all_takeWhile)

theorem atollRange (s : Bytes) : -2 ^ 63 ≤ atoll s ∧ atoll s < 2 ^ 63 := by
  have positive := digitsValueNonneg
  unfold atoll strtoll
  split
  · omega
  · rename_i b rest _
    have tail := positive rest
    have whole := positive (b :: rest)
    split
    · omega
    · split <;> omega

theorem sizeTNonneg {x : Int} (low : 0 ≤ x) (high : x < 2 ^ 64) : (sizeT x : Int) = x := by
  unfold sizeT; omega

theorem sizeTNegative {x : Int} (low : -2 ^ 64 ≤ x) (negative : x < 0) :
    (sizeT x : Int) = 2 ^ 64 + x := by
  unfold sizeT; omega

theorem sizeTLt (x : Int) : sizeT x < 2 ^ 64 := by
  unfold sizeT; omega

theorem int32Range (x : Int) : -intMax - 1 ≤ int32 x ∧ int32 x ≤ intMax := by
  unfold int32 intMax
  have low := Int.le_bmod (x := x) (m := 2 ^ 32) (by decide)
  have high := Int.bmod_lt (x := x) (m := 2 ^ 32) (by decide)
  omega

theorem int32Le (n : Nat) : int32 n ≤ n := by
  unfold int32
  rw [Int.bmod_def]
  split <;> omega

theorem int32Small {x : Int} (low : -intMax - 1 ≤ x) (high : x ≤ intMax) : int32 x = x := by
  unfold intMax at low high
  unfold int32
  rw [Int.bmod_def]
  split <;> omega

theorem int32Wraps (x k : Int) : int32 (x + 2 ^ 32 * k) = int32 x :=
  Int.add_mul_bmod_self_left x (2 ^ 32) k

theorem int32Emod (x : Int) : int32 x % 2 ^ 32 = x % 2 ^ 32 := by
  have wraps := Int.bmod_emod (x := x) (m := 2 ^ 32)
  unfold int32
  simpa using wraps

theorem int32Near {x : Int} (below : int32 x ≤ x) (near : x - int32 x < 2 ^ 32) : int32 x = x := by
  have wraps := int32Emod x
  omega

theorem int32Overflow {x : Int} (low : intMax < x) (high : x ≤ intMax + 4) :
    int32 x = x - 2 ^ 32 := by
  unfold intMax at low high
  unfold int32
  rw [Int.bmod_def]
  split <;> omega

end RtspRelay.Machine
