import Mathlib.Algebra.Ring.Nat
import Mathlib.Data.List.TakeWhile

/-! The texts of JSON, byte by byte, and the value each of them has. Whether the bytes are
UTF-8 is left open. A \u escape stands for the UTF-8 of its character, two of them for a
surrogate pair; a lone surrogate stands for the three bytes of its number. -/
namespace RtspRelay.Json

inductive Value where
  | null
  | bool (b : Bool)
  | number (q : Rat)
  | string (s : List UInt8)
  | array (items : List Value)
  | object (members : List (List UInt8 × Value))

def isBlank (b : UInt8) : Bool := b == 32 || b == 9 || b == 10 || b == 13

def Blank (w : List UInt8) : Prop := ∀ b ∈ w, isBlank b = true

/-! Strings. -/

-- A byte, as it stands or escaped, or the number of a \u escape.
inductive StringChar where
  | byte (b : UInt8)
  | unit (n : Nat)
  deriving DecidableEq, Repr

def escaped (c : UInt8) : Option UInt8 :=
  if c = 34 ∨ c = 92 ∨ c = 47 then some c
  else if c = 98 then some 8
  else if c = 102 then some 12
  else if c = 110 then some 10
  else if c = 114 then some 13
  else if c = 116 then some 9
  else none

def hexValue (c : UInt8) : Option Nat :=
  if 48 ≤ c ∧ c ≤ 57 then some (c.toNat - 48)
  else if 65 ≤ c ∧ c ≤ 70 then some (c.toNat - 55)
  else if 97 ≤ c ∧ c ≤ 102 then some (c.toNat - 87)
  else none

def hexUnit (a b c d : UInt8) : Option Nat := do
  let a ← hexValue a
  let b ← hexValue b
  let c ← hexValue c
  let d ← hexValue d
  some (((a * 16 + b) * 16 + c) * 16 + d)

-- What stands between the quotes of a string.
inductive Chars : List UInt8 → List StringChar → Prop where
  | nil : Chars [] []
  | plain {b raw chars} (high : 32 ≤ b) (other : b ≠ 34 ∧ b ≠ 92) (later : Chars raw chars) :
      Chars (b :: raw) (.byte b :: chars)
  | escape {c b raw chars} (known : escaped c = some b) (later : Chars raw chars) :
      Chars (92 :: c :: raw) (.byte b :: chars)
  | unicode {a b c d n raw chars} (digits : hexUnit a b c d = some n) (later : Chars raw chars) :
      Chars (92 :: 117 :: a :: b :: c :: d :: raw) (.unit n :: chars)

def utf8 (n : Nat) : List UInt8 :=
  if n < 0x80 then [.ofNat n]
  else if n < 0x800 then [.ofNat (0xC0 + n / 0x40), .ofNat (0x80 + n % 0x40)]
  else if n < 0x10000 then
    [.ofNat (0xE0 + n / 0x1000), .ofNat (0x80 + n / 0x40 % 0x40), .ofNat (0x80 + n % 0x40)]
  else
    [.ofNat (0xF0 + n / 0x40000), .ofNat (0x80 + n / 0x1000 % 0x40), .ofNat (0x80 + n / 0x40 % 0x40),
      .ofNat (0x80 + n % 0x40)]

def decoded : List StringChar → List UInt8
  | [] => []
  | .byte b :: chars => b :: decoded chars
  | .unit high :: .unit low :: chars =>
    if 0xD800 ≤ high ∧ high < 0xDC00 ∧ 0xDC00 ≤ low ∧ low < 0xE000 then
      utf8 (0x10000 + (high - 0xD800) * 0x400 + (low - 0xDC00)) ++ decoded chars
    else utf8 high ++ decoded (.unit low :: chars)
  | .unit n :: chars => utf8 n ++ decoded chars

/-! Numbers. -/

def isDigit (b : UInt8) : Bool := 48 ≤ b && b ≤ 57

def Digits (ds : List UInt8) : Prop := ds ≠ [] ∧ ∀ b ∈ ds, isDigit b = true

inductive Whole : List UInt8 → Prop where
  | zero : Whole [48]
  | digits {d ds} (first : 49 ≤ d ∧ d ≤ 57) (later : ∀ b ∈ ds, isDigit b = true) : Whole (d :: ds)

inductive Fraction : List UInt8 → Prop where
  | absent : Fraction []
  | present {ds} (digits : Digits ds) : Fraction (46 :: ds)

inductive Exponent : List UInt8 → Prop where
  | absent : Exponent []
  | present {e sign ds} (mark : e = 101 ∨ e = 69) (signed : sign = [] ∨ sign = [43] ∨ sign = [45])
      (digits : Digits ds) : Exponent (e :: (sign ++ ds))

inductive Number : List UInt8 → Prop where
  | parts {sign whole frac exp} (signed : sign = [] ∨ sign = [45]) (integer : Whole whole)
      (fraction : Fraction frac) (exponent : Exponent exp) : Number (sign ++ whole ++ frac ++ exp)

def digitsValue (ds : List UInt8) : Nat := ds.foldl (fun n b => 10 * n + (b.toNat - 48)) 0

def numberValue (t : List UInt8) : Rat :=
  let unsigned := if t.head? = some 45 then t.tail else t
  let whole := unsigned.takeWhile isDigit
  let behind := unsigned.dropWhile isDigit
  let frac := if behind.head? = some 46 then behind.tail.takeWhile isDigit else []
  let exp := (behind.dropWhile fun b => b ≠ 101 ∧ b ≠ 69).tail
  let shift : Int := digitsValue (exp.dropWhile fun b => !isDigit b)
  let power := (if exp.head? = some 45 then -shift else shift) - frac.length
  let size := (digitsValue (whole ++ frac) : Rat) * 10 ^ power
  if t.head? = some 45 then -size else size

/-! Values, the members of an object, and the rows between brackets: parts with blanks
around each and commas between them. `tail` is what follows one part of a row. -/

inductive Part where
  | value (v : Value)
  | member (m : List UInt8 × Value)
  | row (parts : List Part)
  | tail (parts : List Part)

inductive Text : Part → List UInt8 → Prop where
  | null : Text (.value .null) [110, 117, 108, 108]
  | yes : Text (.value (.bool true)) [116, 114, 117, 101]
  | no : Text (.value (.bool false)) [102, 97, 108, 115, 101]
  | number {t} (digits : Number t) : Text (.value (.number (numberValue t))) t
  | string {raw chars} (inside : Chars raw chars) :
      Text (.value (.string (decoded chars))) (34 :: (raw ++ [34]))
  | array {items t} (inside : Text (.row (items.map .value)) t) :
      Text (.value (.array items)) (91 :: (t ++ [93]))
  | object {members t} (inside : Text (.row (members.map .member)) t) :
      Text (.value (.object members)) (123 :: (t ++ [125]))
  | member {raw chars w w' v t} (name : Chars raw chars) (blank : Blank w) (blank' : Blank w')
      (inside : Text (.value v) t) :
      Text (.member (decoded chars, v)) (34 :: (raw ++ 34 :: (w ++ 58 :: (w' ++ t))))
  | empty {w} (blank : Blank w) : Text (.row []) w
  | filled {w p t w' parts rest} (blank : Blank w) (inside : Text p t) (blank' : Blank w')
      (later : Text (.tail parts) rest) : Text (.row (p :: parts)) (w ++ (t ++ (w' ++ rest)))
  | done : Text (.tail []) []
  | comma {p parts rest} (later : Text (.row (p :: parts)) rest) : Text (.tail (p :: parts)) (44 :: rest)

def Document (t : List UInt8) (v : Value) : Prop :=
  ∃ w inner w', Blank w ∧ Text (.value v) inner ∧ Blank w' ∧ t = w ++ (inner ++ w')

def WellFormed (t : List UInt8) : Prop := ∃ v, Document t v

/-! No control byte stands in a text, except between the parts. -/

def Visible (b : UInt8) : Prop := 32 ≤ b ∨ isBlank b = true

theorem escapedKnown {c b : UInt8} (known : escaped c = some b) : 32 ≤ c ∧ c ≠ 117 := by
  unfold escaped at known
  repeat' split at known
  · rename_i same
    rcases same with rfl | rfl | rfl <;> decide
  all_goals first | (rename_i same; subst same; decide) | contradiction

theorem hexKnown {c : UInt8} {n : Nat} (known : hexValue c = some n) : 48 ≤ c := by
  have high : ∀ k : UInt8, 48 ≤ k → k ≤ c → 48 ≤ c := fun k low => UInt8.le_trans low
  unfold hexValue at known
  repeat' split at known
  · rename_i range
    exact range.1
  · exact high 65 (by decide) (by rename_i range; exact range.1)
  · exact high 97 (by decide) (by rename_i range; exact range.1)
  · contradiction

theorem hexUnitKnown {a b c d : UInt8} {n : Nat} (known : hexUnit a b c d = some n) :
    48 ≤ a ∧ 48 ≤ b ∧ 48 ≤ c ∧ 48 ≤ d := by
  unfold hexUnit at known
  obtain ⟨_, first, known⟩ := Option.bind_eq_some_iff.mp known
  obtain ⟨_, second, known⟩ := Option.bind_eq_some_iff.mp known
  obtain ⟨_, third, known⟩ := Option.bind_eq_some_iff.mp known
  obtain ⟨_, fourth, _⟩ := Option.bind_eq_some_iff.mp known
  exact ⟨hexKnown first, hexKnown second, hexKnown third, hexKnown fourth⟩

theorem charsHigh {raw : List UInt8} {chars : List StringChar} (h : Chars raw chars) : ∀ b ∈ raw, 32 ≤ b := by
  induction h with
  | nil => nofun
  | plain high other later ih => exact List.forall_mem_cons.mpr ⟨high, ih⟩
  | escape known later ih =>
    have backslash : (32 : UInt8) ≤ 92 := by decide
    exact List.forall_mem_cons.mpr ⟨backslash, List.forall_mem_cons.mpr ⟨(escapedKnown known).1, ih⟩⟩
  | unicode digits later ih =>
    obtain ⟨a, b, c, d⟩ := hexUnitKnown digits
    have mark : (32 : UInt8) ≤ 92 ∧ (32 : UInt8) ≤ 117 := by decide
    have high : ∀ {x : UInt8}, 48 ≤ x → 32 ≤ x := UInt8.le_trans (by decide)
    simp only [List.forall_mem_cons]
    exact ⟨mark.1, mark.2, high a, high b, high c, high d, ih⟩

/-! Numbers end in front of the first byte that no number has. -/

def numberByte (b : UInt8) : Bool := isDigit b || b == 43 || b == 45 || b == 46 || b == 69 || b == 101

theorem digitByte {b : UInt8} (digit : isDigit b = true) : numberByte b = true := by simp [numberByte, digit]

theorem numberBytes {t : List UInt8} (h : Number t) : ∀ b ∈ t, numberByte b = true := by
  obtain ⟨signed, integer, fraction, exponent⟩ := h
  simp only [List.forall_mem_append]
  refine ⟨⟨⟨?_, ?_⟩, ?_⟩, ?_⟩
  · rcases signed with rfl | rfl <;> decide +kernel
  · cases integer with
    | zero => decide +kernel
    | digits first later =>
      have digit : isDigit _ = true := Bool.and_eq_true_iff.mpr
        ⟨decide_eq_true (UInt8.le_trans (by decide) first.1), decide_eq_true first.2⟩
      exact List.forall_mem_cons.mpr ⟨digitByte digit, fun b inside => digitByte (later b inside)⟩
  · cases fraction with
    | absent => nofun
    | present digits =>
      exact List.forall_mem_cons.mpr ⟨by decide, fun b inside => digitByte (digits.2 b inside)⟩
  · cases exponent with
    | absent => nofun
    | present mark signed digits =>
      simp only [List.forall_mem_cons, List.forall_mem_append]
      refine ⟨?_, ?_, fun b inside => digitByte (digits.2 b inside)⟩
      · rcases mark with rfl | rfl <;> decide
      · rcases signed with rfl | rfl | rfl <;> decide +kernel

theorem numberFirst {t : List UInt8} (h : Number t) :
    ∃ b rest, t = b :: rest ∧ (b = 45 ∨ isDigit b = true) := by
  obtain ⟨signed, integer, fraction, exponent⟩ := h
  rcases signed with rfl | rfl
  · cases integer with
    | zero => exact ⟨48, _, rfl, .inr (by decide)⟩
    | digits first later =>
      exact ⟨_, _, rfl, .inr (Bool.and_eq_true_iff.mpr
        ⟨decide_eq_true (UInt8.le_trans (by decide) first.1), decide_eq_true first.2⟩)⟩
  · exact ⟨45, _, rfl, .inl rfl⟩

def Stops (r : List UInt8) : Prop := ∀ b ∈ r.head?, numberByte b = false

theorem numberTaken {t r : List UInt8} (h : Number t) (stops : Stops r) : (t ++ r).takeWhile numberByte = t := by
  have front : t.takeWhile numberByte = t := List.takeWhile_eq_self_iff.mpr (numberBytes h)
  have behind : r.takeWhile numberByte = [] := by
    cases r with
    | nil => rfl
    | cons b rest => exact List.takeWhile_cons_of_neg (by simp [stops b rfl])
  rw [List.takeWhile_append_of_pos (numberBytes h), behind, List.append_nil]

theorem digitsHigh {t : List UInt8} (h : ∀ b ∈ t, numberByte b = true) : ∀ b ∈ t, 32 ≤ b := by
  intro b inside
  have number := h b inside
  simp only [numberByte, Bool.or_eq_true, beq_iff_eq] at number
  rcases number with ((((digit | rfl) | rfl) | rfl) | rfl) | rfl
  · exact UInt8.le_trans (by decide) (of_decide_eq_true (Bool.and_eq_true_iff.mp digit).1)
  all_goals decide

theorem textVisible {p : Part} {t : List UInt8} (h : Text p t) : ∀ b ∈ t, Visible b := by
  have quote : Visible 34 := .inl (by decide)
  have high : ∀ {s : List UInt8}, (∀ b ∈ s, 32 ≤ b) → ∀ b ∈ s, Visible b := fun all b inside => .inl (all b inside)
  have blanks : ∀ {w : List UInt8}, Blank w → ∀ b ∈ w, Visible b := fun blank b inside => .inr (blank b inside)
  induction h with
  | null | yes | no => exact high (by decide +kernel)
  | number digits => exact high (digitsHigh (numberBytes digits))
  | string inside =>
    simp only [List.forall_mem_cons, List.forall_mem_append]
    exact ⟨quote, high (charsHigh inside), quote, nofun⟩
  | array inside ih =>
    simp only [List.forall_mem_cons, List.forall_mem_append]
    exact ⟨.inl (by decide), ih, .inl (by decide), nofun⟩
  | object inside ih =>
    simp only [List.forall_mem_cons, List.forall_mem_append]
    exact ⟨.inl (by decide), ih, .inl (by decide), nofun⟩
  | member name blank blank' inside ih =>
    simp only [List.forall_mem_cons, List.forall_mem_append]
    exact ⟨quote, high (charsHigh name), quote, blanks blank, .inl (by decide), blanks blank', ih⟩
  | empty blank => exact blanks blank
  | filled blank inside blank' later ih ihLater =>
    simp only [List.forall_mem_append]
    exact ⟨blanks blank, ih, blanks blank', ihLater⟩
  | done => nofun
  | comma later ih => exact List.forall_mem_cons.mpr ⟨.inl (by decide), ih⟩

theorem documentVisible {t : List UInt8} (h : WellFormed t) : ∀ b ∈ t, Visible b := by
  obtain ⟨v, w, inner, w', blank, text, blank', rfl⟩ := h
  simp only [List.forall_mem_append]
  exact ⟨fun b inside => .inr (blank b inside), textVisible text, fun b inside => .inr (blank' b inside)⟩

/-! Strings end at the first quote that no backslash escapes. -/

theorem charsUnique {raw raw' : List UInt8} {chars chars' : List StringChar} {r r' : List UInt8}
    (h : Chars raw chars) (h' : Chars raw' chars') (same : raw ++ 34 :: r = raw' ++ 34 :: r') :
    raw = raw' ∧ chars = chars' := by
  induction h generalizing raw' chars' with
  | nil =>
    cases h' with
    | nil => exact ⟨rfl, rfl⟩
    | plain high other later => exact absurd (List.cons.inj same).1.symm other.1
    | escape | unicode => exact absurd (List.cons.inj same).1 (by decide)
  | plain high other later ih =>
    cases h' with
    | nil => exact absurd (List.cons.inj same).1 other.1
    | plain high' other' later' =>
      obtain ⟨rfl, rest⟩ := List.cons.inj same
      obtain ⟨rfl, rfl⟩ := ih later' rest
      exact ⟨rfl, rfl⟩
    | escape | unicode => exact absurd (List.cons.inj same).1 other.2
  | escape known later ih =>
    cases h' with
    | nil => exact absurd (List.cons.inj same).1 (by decide)
    | plain high other later' => exact absurd (List.cons.inj same).1.symm other.2
    | escape known' later' =>
      obtain ⟨rfl, rest⟩ := List.cons.inj (List.cons.inj same).2
      obtain ⟨rfl, rfl⟩ := ih later' rest
      exact ⟨rfl, by rw [Option.some.inj (known.symm.trans known')]⟩
    | unicode => exact absurd (List.cons.inj (List.cons.inj same).2).1 (escapedKnown known).2
  | unicode digits later ih =>
    cases h' with
    | nil => exact absurd (List.cons.inj same).1 (by decide)
    | plain high other later' => exact absurd (List.cons.inj same).1.symm other.2
    | escape known => exact absurd (List.cons.inj (List.cons.inj same).2).1.symm (escapedKnown known).2
    | unicode digits' later' =>
      simp only [List.cons_append, List.cons.injEq, true_and] at same
      obtain ⟨rfl, rfl, rfl, rfl, rest⟩ := same
      obtain ⟨rfl, rfl⟩ := ih later' rest
      exact ⟨rfl, by rw [Option.some.inj (digits.symm.trans digits')]⟩

/-! The first byte of a value tells which it is, and is neither a blank nor the end of a row. -/

def opens : Value → UInt8 → Prop
  | .null, b => b = 110
  | .bool true, b => b = 116
  | .bool false, b => b = 102
  | .number _, b => b = 45 ∨ isDigit b = true
  | .string _, b => b = 34
  | .array _, b => b = 91
  | .object _, b => b = 123

theorem valueOpens {v : Value} {t : List UInt8} (h : Text (.value v) t) :
    ∃ b rest, t = b :: rest ∧ opens v b := by
  cases h with
  | number digits => exact numberFirst digits
  | null | yes | no | string | array | object => exact ⟨_, _, rfl, rfl⟩

def Solid (s : List UInt8) : Prop := ∃ b rest, s = b :: rest ∧ isBlank b = false

structure Opening (b : UInt8) : Prop where
  solid : isBlank b = false
  inside : b ≠ 44 ∧ b ≠ 93 ∧ b ≠ 125

theorem digitOpening {b : UInt8} (digit : isDigit b = true) : Opening b := by
  have range := Bool.and_eq_true_iff.mp digit
  simp only [decide_eq_true_eq, UInt8.le_iff_toNat_le] at range
  have other : ∀ k : UInt8, k.toNat < 48 ∨ 57 < k.toNat → b ≠ k := fun k outside same => by
    rw [same] at range
    simp at range
    omega
  refine ⟨?_, other 44 (by decide), other 93 (by decide), other 125 (by decide)⟩
  simp [isBlank, other 32 (by decide), other 9 (by decide), other 10 (by decide), other 13 (by decide)]

theorem valueOpening {v : Value} {b : UInt8} (h : opens v b) : Opening b := by
  cases v with
  | number =>
    rcases h with rfl | digit
    · exact ⟨rfl, by decide⟩
    · exact digitOpening digit
  | bool yes => cases yes <;> (cases h; exact ⟨rfl, by decide⟩)
  | null | string | array | object => cases h; exact ⟨rfl, by decide⟩

inductive Inner : Part → Prop where
  | value (v) : Inner (.value v)
  | member (m) : Inner (.member m)

theorem innerOpens {p : Part} (inner : Inner p) {t : List UInt8} (h : Text p t) :
    ∃ b rest, t = b :: rest ∧ Opening b := by
  cases inner with
  | value =>
    obtain ⟨b, rest, same, first⟩ := valueOpens h
    exact ⟨b, rest, same, valueOpening first⟩
  | member =>
    cases h
    exact ⟨34, _, rfl, rfl, by decide⟩

/-! Blanks end at the first byte that is none. -/

theorem blankTaken {w s : List UInt8} (blank : Blank w) (solid : Solid s) : (w ++ s).takeWhile isBlank = w := by
  obtain ⟨b, rest, rfl, other⟩ := solid
  rw [List.takeWhile_append_of_pos blank, List.takeWhile_cons_of_neg (by simp [other]), List.append_nil]

theorem blankUnique {w w' s s' : List UInt8} (blank : Blank w) (blank' : Blank w') (solid : Solid s)
    (solid' : Solid s') (same : w ++ s = w' ++ s') : w = w' ∧ s = s' := by
  have front := blankTaken blank solid
  rw [same, blankTaken blank' solid'] at front
  subst front
  exact ⟨rfl, List.append_cancel_left same⟩

theorem blankNotNumber {b : UInt8} (blank : isBlank b = true) : numberByte b = false := by
  simp only [isBlank, Bool.or_eq_true, beq_iff_eq] at blank
  rcases blank with ((rfl | rfl) | rfl) | rfl <;> decide

theorem blankStops {w s : List UInt8} (blank : Blank w) (stops : Stops s) : Stops (w ++ s) := by
  cases w with
  | nil => exact stops
  | cons b rest =>
    intro c first
    cases first
    exact blankNotNumber (blank b List.mem_cons_self)

/-! A text has one value, and ends where what follows does not continue it. -/

-- Values only, or members only.
def Uniform (ps qs : List Part) : Prop :=
  ((∀ p ∈ ps, ∃ v, p = .value v) ∧ ∀ q ∈ qs, ∃ v, q = .value v) ∨
    (∀ p ∈ ps, ∃ m, p = .member m) ∧ ∀ q ∈ qs, ∃ m, q = .member m

def Like : Part → Part → Prop
  | .value _, .value _ => True
  | .member _, .member _ => True
  | .row ps, .row qs => Uniform ps qs
  | .tail ps, .tail qs => Uniform ps qs
  | _, _ => False

def Closes (r : List UInt8) : Prop := r.head? = some 93 ∨ r.head? = some 125

def Ends : Part → List UInt8 → Prop
  | .row _, r => Closes r
  | .tail _, r => Closes r
  | _, r => Stops r

theorem numberNot {b : UInt8} {s t r : List UInt8} (other : ¬ (b = 45 ∨ isDigit b = true)) (digits : Number t)
    (same : b :: s = t ++ r) : False := by
  obtain ⟨first, rest, rfl, starts⟩ := numberFirst digits
  obtain rfl := (List.cons.inj same).1
  exact other starts

theorem closesSolid {r : List UInt8} (closes : Closes r) : Solid r := by
  cases r with
  | nil => rcases closes with none | none <;> contradiction
  | cons b rest =>
    rcases closes with same | same <;> (cases same; exact ⟨_, rest, rfl, by decide⟩)

theorem closesStops {r : List UInt8} (closes : Closes r) : Stops r := by
  intro b first
  rcases closes with same | same <;> (rw [same] at first; cases first; decide)

theorem closesNotComma {r s : List UInt8} (closes : Closes r) (same : r = 44 :: s) : False := by
  subst same
  rcases closes with bracket | bracket <;> exact absurd (Option.some.inj bracket) (by decide)

theorem openingNotCloses {b : UInt8} {s : List UInt8} (opening : Opening b) (closes : Closes (b :: s)) : False := by
  rcases closes with same | same
  · exact opening.inside.2.1 (Option.some.inj same)
  · exact opening.inside.2.2 (Option.some.inj same)

theorem uniformCons {p q : Part} {ps qs : List Part} (h : Uniform (p :: ps) (q :: qs)) :
    Like p q ∧ Inner p ∧ Inner q ∧ Uniform ps qs := by
  simp only [Uniform, List.forall_mem_cons] at h
  rcases h with ⟨⟨⟨v, rfl⟩, rest⟩, ⟨v', rfl⟩, rest'⟩ | ⟨⟨⟨m, rfl⟩, rest⟩, ⟨m', rfl⟩, rest'⟩
  · exact ⟨trivial, .value v, .value v', .inl ⟨rest, rest'⟩⟩
  · exact ⟨trivial, .member m, .member m', .inr ⟨rest, rest'⟩⟩

theorem uniformInner {ps qs : List Part} (h : Uniform ps qs) : (∀ p ∈ ps, Inner p) ∧ ∀ q ∈ qs, Inner q := by
  have value : ∀ {p : Part}, (∃ v, p = .value v) → Inner p := fun ⟨v, same⟩ => same ▸ .value v
  have member : ∀ {p : Part}, (∃ m, p = .member m) → Inner p := fun ⟨m, same⟩ => same ▸ .member m
  rcases h with ⟨left, right⟩ | ⟨left, right⟩
  · exact ⟨fun p inside => value (left p inside), fun q inside => value (right q inside)⟩
  · exact ⟨fun p inside => member (left p inside), fun q inside => member (right q inside)⟩

theorem innerEnds {p : Part} (inner : Inner p) {r : List UInt8} (stops : Stops r) : Ends p r := by
  cases inner <;> exact stops

-- What follows a part of a row.
theorem tailFollows {parts : List Part} {rest r : List UInt8} (h : Text (.tail parts) rest) (closes : Closes r) :
    Solid (rest ++ r) ∧ Stops (rest ++ r) := by
  cases h with
  | done => exact ⟨closesSolid closes, closesStops closes⟩
  | comma later =>
    refine ⟨⟨44, _, rfl, by decide⟩, fun b first => ?_⟩
    cases first
    decide

theorem innerSolid {p : Part} (inner : Inner p) {t : List UInt8} (h : Text p t) (s : List UInt8) :
    Solid (t ++ s) := by
  obtain ⟨b, rest, rfl, opening⟩ := innerOpens inner h
  exact ⟨b, rest ++ s, rfl, opening.solid⟩

theorem emptyNotFilled {w w' t s r : List UInt8} {p : Part} (blank : Blank w) (blank' : Blank w') (inner : Inner p)
    (h : Text p t) (closes : Closes r) (same : w ++ r = w' ++ (t ++ s)) : False := by
  obtain ⟨-, rest⟩ := blankUnique blank blank' (closesSolid closes) (innerSolid inner h s) same
  obtain ⟨b, later, rfl, opening⟩ := innerOpens inner h
  rw [rest] at closes
  exact openingNotCloses opening closes

theorem mapped {α : Type} (f : α → Part) {items : List α} : ∀ p ∈ items.map f, ∃ x, p = f x := fun p inside => by
  obtain ⟨x, -, rfl⟩ := List.mem_map.mp inside
  exact ⟨x, rfl⟩

theorem textUnique {p : Part} {t : List UInt8} (h : Text p t) : ∀ {p' : Part} {t' r r' : List UInt8},
    Text p' t' → Like p p' → t ++ r = t' ++ r' → Ends p r → Ends p' r' → p = p' ∧ t = t' := by
  induction h with
  | null =>
    intro p' t' r r' h' like same ends ends'
    cases h' with
    | null => exact ⟨rfl, rfl⟩
    | number digits => exact (numberNot (by decide) digits same).elim
    | yes | no | string | array | object => exact absurd (List.cons.inj same).1 (by decide)
    | member | empty | filled | done | comma => exact like.elim
  | yes =>
    intro p' t' r r' h' like same ends ends'
    cases h' with
    | yes => exact ⟨rfl, rfl⟩
    | number digits => exact (numberNot (by decide) digits same).elim
    | null | no | string | array | object => exact absurd (List.cons.inj same).1 (by decide)
    | member | empty | filled | done | comma => exact like.elim
  | no =>
    intro p' t' r r' h' like same ends ends'
    cases h' with
    | no => exact ⟨rfl, rfl⟩
    | number digits => exact (numberNot (by decide) digits same).elim
    | null | yes | string | array | object => exact absurd (List.cons.inj same).1 (by decide)
    | member | empty | filled | done | comma => exact like.elim
  | number digits =>
    intro p' t' r r' h' like same ends ends'
    cases h' with
    | number digits' =>
      have taken := numberTaken digits ends
      rw [same, numberTaken digits' ends'] at taken
      subst taken
      exact ⟨rfl, rfl⟩
    | null | yes | no | string | array | object => exact (numberNot (by decide) digits same.symm).elim
    | member | empty | filled | done | comma => exact like.elim
  | string inside =>
    intro p' t' r r' h' like same ends ends'
    cases h' with
    | string inside' =>
      simp only [List.append_assoc, List.cons_append, List.nil_append, List.cons.injEq, true_and] at same
      obtain ⟨rfl, rfl⟩ := charsUnique inside inside' same
      exact ⟨rfl, rfl⟩
    | number digits => exact (numberNot (by decide) digits same).elim
    | null | yes | no | array | object => exact absurd (List.cons.inj same).1 (by decide)
    | member | empty | filled | done | comma => exact like.elim
  | @array items t inside ih =>
    intro p' t' r r' h' like same ends ends'
    cases h' with
    | @array items' s inside' =>
      simp only [List.append_assoc, List.cons_append, List.nil_append, List.cons.injEq, true_and] at same
      have uniform : Uniform (items.map .value) (items'.map .value) := .inl ⟨mapped .value, mapped .value⟩
      obtain ⟨rows, rfl⟩ := ih inside' uniform same (.inl rfl) (.inl rfl)
      have items : items = items' := (List.map_inj_right fun _ _ => Part.value.inj).mp (Part.row.inj rows)
      exact ⟨by rw [items], rfl⟩
    | number digits => exact (numberNot (by decide) digits same).elim
    | null | yes | no | string | object => exact absurd (List.cons.inj same).1 (by decide)
    | member | empty | filled | done | comma => exact like.elim
  | @object members t inside ih =>
    intro p' t' r r' h' like same ends ends'
    cases h' with
    | @object members' s inside' =>
      simp only [List.append_assoc, List.cons_append, List.nil_append, List.cons.injEq, true_and] at same
      have uniform : Uniform (members.map .member) (members'.map .member) :=
        .inr ⟨mapped .member, mapped .member⟩
      obtain ⟨rows, rfl⟩ := ih inside' uniform same (.inr rfl) (.inr rfl)
      have members : members = members' :=
        (List.map_inj_right fun _ _ => Part.member.inj).mp (Part.row.inj rows)
      exact ⟨by rw [members], rfl⟩
    | number digits => exact (numberNot (by decide) digits same).elim
    | null | yes | no | string | array => exact absurd (List.cons.inj same).1 (by decide)
    | member | empty | filled | done | comma => exact like.elim
  | member name blank blank' inside ih =>
    intro p' t' r r' h' like same ends ends'
    cases h' with
    | member name' blank₁ blank₁' inside' =>
      simp only [List.append_assoc, List.cons_append, List.cons.injEq, true_and] at same
      obtain ⟨rfl, rfl⟩ := charsUnique name name' same
      have behind := (List.cons.inj (List.append_cancel_left same)).2
      obtain ⟨rfl, colon⟩ := blankUnique blank blank₁ ⟨58, _, rfl, by decide⟩ ⟨58, _, rfl, by decide⟩ behind
      obtain ⟨rfl, values⟩ := blankUnique blank' blank₁' (innerSolid (.value _) inside _)
        (innerSolid (.value _) inside' _) (List.cons.inj colon).2
      obtain ⟨value, rfl⟩ := ih inside' trivial values ends ends'
      exact ⟨by rw [Part.value.inj value], rfl⟩
    | null | yes | no | number | string | array | object | empty | filled | done | comma => exact like.elim
  | empty blank =>
    intro p' t' r r' h' like same ends ends'
    cases h' with
    | empty blank' =>
      obtain ⟨rfl, -⟩ := blankUnique blank blank' (closesSolid ends) (closesSolid ends') same
      exact ⟨rfl, rfl⟩
    | @filled w p t w' parts rest blank₁ inside blank₁' later =>
      have inner := (uniformInner like).2 p List.mem_cons_self
      simp only [List.append_assoc] at same
      exact (emptyNotFilled blank blank₁ inner inside ends same).elim
    | null | yes | no | number | string | array | object | member | done | comma => exact like.elim
  | @filled w p t w' parts rest blank inside blank' later ih ihLater =>
    intro p' t' r r' h' like same ends ends'
    cases h' with
    | empty blank₁ =>
      have inner := (uniformInner like).1 p List.mem_cons_self
      simp only [List.append_assoc] at same
      exact (emptyNotFilled blank₁ blank inner inside ends' same.symm).elim
    | @filled w₁ p₁ t₁ w₁' parts₁ rest₁ blank₁ inside₁ blank₁' later₁ =>
      obtain ⟨alike, inner, inner', uniform⟩ := uniformCons like
      obtain ⟨solid, stops⟩ := tailFollows later ends
      obtain ⟨solid', stops'⟩ := tailFollows later₁ ends'
      simp only [List.append_assoc] at same
      obtain ⟨rfl, behind⟩ := blankUnique blank blank₁ (innerSolid inner inside _)
        (innerSolid inner' inside₁ _) same
      obtain ⟨rfl, rfl⟩ := ih inside₁ alike behind (innerEnds inner (blankStops blank' stops))
        (innerEnds inner' (blankStops blank₁' stops'))
      obtain ⟨rfl, tails⟩ := blankUnique blank' blank₁' solid solid' (List.append_cancel_left behind)
      obtain ⟨rows, rfl⟩ := ihLater later₁ uniform tails ends ends'
      exact ⟨by rw [Part.tail.inj rows], rfl⟩
    | null | yes | no | number | string | array | object | member | done | comma => exact like.elim
  | done =>
    intro p' t' r r' h' like same ends ends'
    cases h' with
    | done => exact ⟨rfl, rfl⟩
    | comma later => exact (closesNotComma ends same).elim
    | null | yes | no | number | string | array | object | member | empty | filled => exact like.elim
  | comma later ih =>
    intro p' t' r r' h' like same ends ends'
    cases h' with
    | done => exact (closesNotComma ends' same.symm).elim
    | comma later' =>
      obtain ⟨rows, rfl⟩ := ih later' like (List.cons.inj same).2 ends ends'
      exact ⟨by rw [Part.row.inj rows], rfl⟩
    | null | yes | no | number | string | array | object | member | empty | filled => exact like.elim

theorem documentUnique {t : List UInt8} {v v' : Value} (h : Document t v) (h' : Document t v') : v = v' := by
  obtain ⟨w, inner, w', blank, text, behind, rfl⟩ := h
  obtain ⟨w₁, inner₁, w₁', blank₁, text₁, behind₁, same⟩ := h'
  have nothing : Stops [] := nofun
  obtain ⟨rfl, values⟩ := blankUnique blank blank₁ (innerSolid (.value _) text _) (innerSolid (.value _) text₁ _) same
  have ends : Stops w' := List.append_nil w' ▸ blankStops behind nothing
  have ends' : Stops w₁' := List.append_nil w₁' ▸ blankStops behind₁ nothing
  exact Part.value.inj (textUnique text text₁ trivial values ends ends').1

end RtspRelay.Json
