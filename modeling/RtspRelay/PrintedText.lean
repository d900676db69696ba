import Mathlib.Data.List.TakeWhile
import RtspRelay.MessageFraming

/-! What the parsers read in text that was printed line by line: a number, the
end of the header block, and the fields in the order in which they were written. -/
namespace RtspRelay.PrintedText
open Machine Buffer ByteSearch MessageText MessageFraming

theorem digitByte {c : Char} (digit : c.isDigit = true) :
    isDigit (UInt8.ofNat c.toNat) = true ∧ (UInt8.ofNat c.toNat).toNat = c.toNat ∧ 48 ≤ c.toNat := by
  have range := Char.isDigit_iff_toNat.mp digit
  simp only [Char.reduceToNat] at range
  have same : (UInt8.ofNat c.toNat).toNat = c.toNat := by
    rw [UInt8.toNat_ofNat']
    exact Nat.mod_eq_of_lt (by omega)
  refine ⟨?_, same, by omega⟩
  unfold isDigit
  simp only [Bool.and_eq_true, decide_eq_true_eq, UInt8.le_iff_toNat_le, same, UInt8.reduceToNat]
  omega

theorem digitsFold {chars : List Char} (digits : ∀ c ∈ chars, c.isDigit = true) (acc : Nat) :
    (chars.map fun c => UInt8.ofNat c.toNat).foldl
      (fun acc b => 10 * acc + (b.toNat - 48 : Int)) (acc : Int) = Nat.ofDigitChars 10 chars acc := by
  induction chars generalizing acc with
  | nil => rfl
  | cons c chars ih =>
    obtain ⟨here, later⟩ := List.forall_mem_cons.mp digits
    obtain ⟨_, same, low⟩ := digitByte here
    have next : 10 * (acc : Int) + (c.toNat - 48 : Int) = (10 * acc + (c.toNat - 48) : Nat) := by
      omega
    rw [List.map_cons, List.foldl_cons, same, next, ih later, Nat.ofDigitChars_cons]
    rfl

theorem decimalDigits (n : Nat) : ∀ b ∈ decimal n, isDigit b = true := by
  intro b inside
  obtain ⟨c, member, rfl⟩ := List.mem_map.mp inside
  exact (digitByte (Nat.isDigit_of_mem_toDigits (by decide) (by decide) member)).1

theorem digitsValueDecimal (n : Nat) : digitsValue (decimal n) = n := by
  have digits : ∀ c ∈ Nat.toDigits 10 n, c.isDigit = true := fun c member =>
    Nat.isDigit_of_mem_toDigits (by decide) (by decide) member
  have fold := digitsFold digits 0
  rw [Nat.ofDigitChars_ten_toDigits] at fold
  unfold digitsValue
  rw [List.takeWhile_eq_self_iff.mpr (decimalDigits n)]
  exact fold

theorem digitNot {b : UInt8} (digit : isDigit b = true) : isSpace b = false ∧ b ≠ 45 ∧ b ≠ 43 ∧
    b ≠ 13 ∧ b ≠ 32 := by
  have low : 48 ≤ b.toNat := by
    simp only [isDigit, Bool.and_eq_true, decide_eq_true_eq, UInt8.le_iff_toNat_le,
      UInt8.reduceToNat] at digit
    exact digit.1
  have other : ∀ k : UInt8, k.toNat < 48 → b ≠ k := fun k small same => by
    rw [same] at low
    omega
  refine ⟨?_, other 45 (by decide), other 43 (by decide), other 13 (by decide), other 32 (by decide)⟩
  have above : ¬ b ≤ 13 := by
    rw [UInt8.le_iff_toNat_le]
    exact Nat.not_le.mpr (Nat.lt_of_lt_of_le (by decide) low)
  simp [isSpace, other 32 (by decide), above]

theorem decimalCons (n : Nat) : ∃ b rest, decimal n = b :: rest ∧ isDigit b = true := by
  have nonempty : decimal n ≠ [] := by simp [decimal, Nat.toDigits_ne_nil]
  obtain ⟨b, rest, same⟩ := List.exists_cons_of_ne_nil nonempty
  exact ⟨b, rest, same, decimalDigits n b (by rw [same]; exact List.mem_cons_self)⟩

theorem strtollDecimal (n : Nat) : strtoll (decimal n) = min (2 ^ 63 - 1) (n : Int) := by
  obtain ⟨b, rest, same, digit⟩ := decimalCons n
  obtain ⟨space, minus, plus, _⟩ := digitNot digit
  have value := digitsValueDecimal n
  rw [same] at value ⊢
  unfold strtoll
  simp only [List.dropWhile_cons, space, Bool.false_eq_true, if_false, if_neg minus, if_neg plus,
    value]

theorem strtollNegative (n : Nat) : strtoll (45 :: decimal n) = max (-2 ^ 63) (-(n : Int)) := by
  have value := digitsValueDecimal n
  have space : isSpace 45 = false := by decide
  unfold strtoll
  simp only [List.dropWhile_cons, space, Bool.false_eq_true, if_false, if_true, value]

theorem digitsFresh {digits : Bytes} (decimal : ∀ b ∈ digits, isDigit b = true) {c : UInt8}
    (other : isDigit c = false) : c ∉ digits := by
  intro inside
  rw [decimal c inside] at other
  exact Bool.noConfusion other

theorem strtollDigits {digits : Bytes} (some : digits ≠ []) (decimal : ∀ b ∈ digits, isDigit b = true)
    (high : digitsValue digits ≤ 2 ^ 63 - 1) : strtoll digits = digitsValue digits := by
  obtain ⟨b, rest, rfl⟩ := List.exists_cons_of_ne_nil some
  obtain ⟨space, minus, plus, -⟩ := digitNot (decimal b List.mem_cons_self)
  rw [strtoll, List.dropWhile_cons_of_neg (by rw [space]; exact Bool.noConfusion)]
  simp only [if_neg minus, if_neg plus]
  exact Int.min_eq_right high

theorem atoiDigits {digits : Bytes} (some : digits ≠ []) (decimal : ∀ b ∈ digits, isDigit b = true)
    (high : digitsValue digits ≤ intMax) : atoi digits = digitsValue digits := by
  have low := digitsValueNonneg digits
  rw [intMax] at high
  rw [atoi, strtollDigits some decimal (by omega), int32Small (by rw [intMax]; omega) (by rw [intMax]; omega)]

/-! Header lines. -/

structure FieldText (f : Bytes × Bytes) : Prop where
  named : f.1 ≠ []
  keyColon : (58 : UInt8) ∉ f.1
  keyLine : (13 : UInt8) ∉ f.1
  valLine : (13 : UInt8) ∉ f.2
  valStart : f.2.head? ≠ some 32

def lineText (f : Bytes × Bytes) : Bytes := f.1 ++ ascii ": " ++ f.2

-- The end of the start line, the lines of the fields and the empty line.
def closed : List (Bytes × Bytes) → Bytes
  | [] => crlfcrlf
  | f :: fs => crlf ++ lineText f ++ closed fs

theorem closedLines (fs : List (Bytes × Bytes)) :
    closed fs = crlf ++ fs.flatMap (fun f => lineText f ++ crlf) ++ crlf := by
  induction fs with
  | nil => rfl
  | cons f fs ih => simp only [closed, ih, List.flatMap_cons, List.append_assoc]

theorem closedFour (fs : List (Bytes × Bytes)) : 4 ≤ (closed fs).length := by
  have sizes := congrArg List.length (closedLines fs)
  simp only [crlf, List.length_append, List.length_cons, List.length_nil] at sizes
  omega

-- A line that the parser reads as the field it was printed from.
structure FieldLine (f : Bytes × Bytes) : Prop where
  named : f.1 ≠ []
  keyColon : (58 : UInt8) ∉ f.1
  whole : find crlf (lineText f) = none
  valStart : f.2.head? ≠ some 32

theorem wholeJoined {key val : Bytes} (keyWhole : find crlf key = none) (valWhole : find crlf val = none) :
    find crlf (lineText (key, val)) = none := by
  have shape : lineText (key, val) = key ++ 58 :: ([] ++ 32 :: val) := by simp [lineText, ascii]
  have behind : find crlf ([] ++ 32 :: val) = none := by
    rw [findBarrier (by decide) (by decide) rfl, valWhole]
    rfl
  rw [shape, findBarrier (by decide) (by decide) keyWhole, behind]
  rfl

theorem wholeFresh {s : Bytes} (fresh : (13 : UInt8) ∉ s) : find crlf s = none := by
  have after : find crlf (s ++ []) = none := findAfter fresh []
  rw [List.append_nil] at after
  exact after

theorem fieldLine {f : Bytes × Bytes} (h : FieldText f) : FieldLine f :=
  ⟨h.named, h.keyColon, wholeJoined (wholeFresh h.keyLine) (wholeFresh h.valLine), h.valStart⟩

section
variable {fs : List (Bytes × Bytes)} (printed : ∀ f ∈ fs, FieldLine f)

theorem lineNonempty (f : Bytes × Bytes) : lineText f ≠ [] := by simp [lineText, ascii]

theorem lineSplits {f : Bytes × Bytes} (h : FieldLine f) : splitField (lineText f) = some f := by
  have shape : lineText f = f.1 ++ 58 :: 32 :: f.2 := by simp [lineText, ascii]
  have val : f.2.dropWhile (· == 32) = f.2 := by
    have start := h.valStart
    cases shape : f.2 with
    | nil => rfl
    | cons b rest =>
      rw [shape] at start
      have other : b ≠ 32 := fun same => start (by rw [same]; rfl)
      simp [other]
  rw [shape, splitNamed h.keyColon, List.dropWhile_cons_of_pos (by decide), val]

theorem closedBegins (fs : List (Bytes × Bytes)) : ∃ tail, closed fs = 13 :: 10 :: tail := by
  cases fs <;> exact ⟨_, rfl⟩

theorem lineFound {f : Bytes × Bytes} (h : FieldLine f) (fs : List (Bytes × Bytes)) :
    find crlf (lineText f ++ closed fs) = some (lineText f).length := by
  obtain ⟨tail, shape⟩ := closedBegins fs
  rw [shape]
  exact findPairAfter (by decide) h.whole tail

include printed

theorem closedEnds (rest : Bytes) :
    find crlfcrlf (closed fs ++ rest) = some ((closed fs).length - 4) := by
  induction fs with
  | nil => rfl
  | cons f fs ih =>
    obtain ⟨here, later⟩ := List.forall_mem_cons.mp printed
    obtain ⟨tail, shape⟩ := closedBegins fs
    have first : closed (f :: fs) ++ rest = crlf ++ lineText f ++ (crlf ++ (tail ++ rest)) := by
      simp [closed, shape, crlf]
    have behind : crlf ++ (tail ++ rest) = closed fs ++ rest := by rw [shape]; rfl
    have size := closedFour fs
    rw [first, lineSkipped (lineNonempty f) here.whole, behind, ih later, Option.map_some]
    simp only [closed, crlf, List.length_append, List.length_cons, List.length_nil]
    exact congrArg some (by omega)

theorem closedFields : fieldsOf ((closed fs).drop 2) = fs := by
  induction fs with
  | nil => rfl
  | cons f fs ih =>
    obtain ⟨here, later⟩ := List.forall_mem_cons.mp printed
    have lines : (closed (f :: fs)).drop 2 = lineText f ++ closed fs := rfl
    have nonempty : (lineText f).length ≠ 0 := by simp [lineNonempty f]
    rw [lines, fieldsOfSome (lineFound here fs), if_neg nonempty, List.take_left, lineSplits here,
      ← List.drop_drop, List.drop_left, ih later]
    rfl

theorem closedTaken (n : Nat) : fieldsOf (((closed fs).drop 2).take n) <+: fs := by
  induction fs generalizing n with
  | nil =>
    have short : (((closed ([] : List (Bytes × Bytes))).drop 2).take n).length ≤ 2 := List.length_take_le' n _
    rw [fieldsOfShort short]
  | cons f fs ih =>
    obtain ⟨here, later⟩ := List.forall_mem_cons.mp printed
    have lines : (closed (f :: fs)).drop 2 = lineText f ++ crlf ++ (closed fs).drop 2 := by
      obtain ⟨tail, shape⟩ := closedBegins fs
      simp [closed, shape, crlf]
    rw [lines, lineCut (lineNonempty f) here.whole, lineSplits here]
    split
    · exact List.cons_prefix_cons.mpr ⟨rfl, ih later _⟩
    · exact List.nil_prefix
end

/-! A header block: a start line, and the lines of its fields. -/

section
variable {start : Bytes} {fs : List (Bytes × Bytes)} (whole : find crlf start = none)
include whole

theorem printedStart : find crlf (start ++ closed fs) = some start.length := by
  obtain ⟨tail, shape⟩ := closedBegins fs
  rw [shape]
  exact findPairAfter (by decide) whole tail

variable (printed : ∀ f ∈ fs, FieldLine f)
include printed

theorem printedFields : fields (start ++ closed fs) = fs := by
  unfold fields
  rw [printedStart whole]
  dsimp only
  rw [← List.drop_drop, List.drop_left, closedFields printed]

theorem printedEnd (rest : Bytes) : find crlfcrlf (start ++ closed fs ++ rest) =
    some ((start ++ closed fs).length - 4) := by
  have four := closedFour fs
  have first : find crlf (start ++ closed fs) = some start.length := printedStart whole
  have skipped : ∀ j < start.length, ¬ crlfcrlf <+: (start ++ (closed fs ++ rest)).drop j := by
    intro j before double
    have again := findAppend first rest
    rw [List.append_assoc] at again
    exact findFirst again j before (emptyLine double).1
  rw [List.append_assoc, findPast _ skipped, closedEnds printed, Option.map_some, List.length_append]
  exact congrArg some (by omega)

theorem printedBlock (rest : Bytes) (small : (start ++ closed fs).length ≤ intMax) :
    block (start ++ closed fs ++ rest) = .header (start ++ closed fs) := by
  have four := closedFour fs
  have size : 4 ≤ (start ++ closed fs).length := by rw [List.length_append]; omega
  have position : int32 ((start ++ closed fs).length - 4 : Nat) =
      ((start ++ closed fs).length - 4 : Nat) := int32Small (by unfold intMax; omega) (by omega)
  rw [blockFound (printedEnd whole printed rest), position, if_neg (by omega), if_neg (by omega)]
  rw [show (((start ++ closed fs).length - 4 : Nat) + 4 : Int).toNat = (start ++ closed fs).length by
    omega, List.take_left]
end

end RtspRelay.PrintedText
