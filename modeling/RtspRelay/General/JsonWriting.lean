import RtspRelay.General.Json

/-! Texts put together by a writer, and one string of a text exchanged for another. -/
namespace RtspRelay.Json

/-! Strings without an escape, and what an escape does to a string. -/

def Plain (s : List UInt8) : Prop := ∀ b ∈ s, 32 ≤ b ∧ b ≠ 34 ∧ b ≠ 92

instance (s : List UInt8) : Decidable (Plain s) := List.decidableBAll _ s

theorem plainChars {s : List UInt8} (plain : Plain s) : Chars s (s.map .byte) := by
  induction s with
  | nil => exact .nil
  | cons b s ih =>
    obtain ⟨here, later⟩ := List.forall_mem_cons.mp plain
    exact .plain here.1 here.2 (ih later)

theorem decodedBytes (s : List UInt8) : decoded (s.map .byte) = s := by
  induction s with
  | nil => rfl
  | cons b s ih => rw [List.map_cons, decoded, ih]

theorem charsPlain {raw : List UInt8} {chars : List StringChar} (h : Chars raw chars) (plain : 92 ∉ raw) :
    34 ∉ raw ∧ decoded chars = raw := by
  induction h with
  | nil => exact ⟨nofun, rfl⟩
  | plain high other later ih =>
    obtain ⟨here, rest⟩ := List.ne_and_not_mem_of_not_mem_cons plain
    obtain ⟨quotes, same⟩ := ih rest
    rw [decoded, same]
    exact ⟨List.not_mem_cons_of_ne_of_not_mem other.1.symm quotes, rfl⟩
  | escape | unicode => exact absurd List.mem_cons_self plain

theorem byteDecoded {b : UInt8} {chars : List StringChar} (inside : .byte b ∈ chars) : b ∈ decoded chars := by
  fun_induction decoded chars with
  | case1 => contradiction
  | case2 c chars ih =>
    rcases List.mem_cons.mp inside with same | later
    · cases same
      exact List.mem_cons_self
    · exact List.mem_cons_of_mem c (ih later)
  | case3 high low chars pair ih => exact List.mem_append_right _ (ih (by simpa using inside))
  | case4 high low chars alone ih => exact List.mem_append_right _ (ih (by simpa using inside))
  | case5 n chars alone ih => exact List.mem_append_right _ (ih (by simpa using inside))

theorem quoteDecoded {raw : List UInt8} {chars : List StringChar} (h : Chars raw chars) (inside : 34 ∈ raw) :
    34 ∈ decoded chars := by
  refine byteDecoded ?_
  induction h with
  | nil => contradiction
  | plain high other later ih =>
    rcases List.mem_cons.mp inside with same | rest
    · exact absurd same.symm other.1
    · exact List.mem_cons_of_mem _ (ih rest)
  | escape known later ih =>
    rcases List.mem_cons.mp inside with same | rest
    · contradiction
    · rcases List.mem_cons.mp rest with rfl | rest
      · cases Option.some.inj known
        exact List.mem_cons_self
      · exact List.mem_cons_of_mem _ (ih rest)
  | unicode digits later ih =>
    obtain ⟨a, b, c, d⟩ := hexUnitKnown digits
    have other : ∀ {x : UInt8}, 48 ≤ x → (34 : UInt8) ≠ x := fun low same => by
      rw [← same] at low
      exact absurd low (by decide)
    simp only [List.mem_cons, other a, other b, other c, other d, false_or] at inside
    rcases inside with same | same | rest
    · exact absurd same (by decide)
    · exact absurd same (by decide)
    · exact List.mem_cons_of_mem _ (ih rest)

-- The most bytes a character stands for.
def width : StringChar → Nat
  | .byte _ => 1
  | .unit _ => 4

theorem utf8Width (n : Nat) : (utf8 n).length ≤ 4 := by
  unfold utf8
  repeat' split
  all_goals simp only [List.length_cons, List.length_nil]; omega

theorem decodedWidth (chars : List StringChar) : (decoded chars).length ≤ (chars.map width).sum := by
  fun_induction decoded chars with
  | case1 => exact Nat.le_refl 0
  | case2 c chars ih =>
    simp only [List.length_cons, List.map_cons, List.sum_cons, width]
    omega
  | case3 high low chars pair ih =>
    have size := utf8Width (0x10000 + (high - 0xD800) * 0x400 + (low - 0xDC00))
    simp only [List.length_append, List.map_cons, List.sum_cons, width]
    omega
  | case4 high low chars alone ih =>
    have size := utf8Width high
    simp only [List.length_append, List.map_cons, List.sum_cons, width] at ih ⊢
    omega
  | case5 n chars alone ih =>
    have size := utf8Width n
    simp only [List.length_append, List.map_cons, List.sum_cons, width]
    omega

theorem charsWidth {raw : List UInt8} {chars : List StringChar} (h : Chars raw chars) :
    (chars.map width).sum ≤ raw.length ∧ (92 ∈ raw → (chars.map width).sum < raw.length) := by
  induction h with
  | nil => exact ⟨Nat.le_refl 0, nofun⟩
  | plain high other later ih =>
    simp only [List.map_cons, List.sum_cons, width, List.length_cons, List.mem_cons]
    refine ⟨by omega, fun inside => ?_⟩
    have rest := ih.2 (inside.resolve_left other.2.symm)
    omega
  | escape known later ih =>
    simp only [List.map_cons, List.sum_cons, width, List.length_cons]
    omega
  | unicode digits later ih =>
    simp only [List.map_cons, List.sum_cons, width, List.length_cons]
    omega

theorem escapeShortens {raw : List UInt8} {chars : List StringChar} (h : Chars raw chars) (inside : 92 ∈ raw) :
    decoded chars ≠ raw := by
  intro same
  have short := (charsWidth h).2 inside
  have width := decodedWidth chars
  rw [same] at width
  omega

/-! A writer's numbers, members and rows, without blanks. -/

theorem wholeDigits {ds : List UInt8} (whole : Whole ds) : ∀ b ∈ ds, isDigit b = true := by
  cases whole with
  | zero => decide +kernel
  | digits first later =>
    have digit : isDigit _ = true := Bool.and_eq_true_iff.mpr
      ⟨decide_eq_true (UInt8.le_trans (by decide) first.1), decide_eq_true first.2⟩
    exact List.forall_mem_cons.mpr ⟨digit, later⟩

theorem wholeValue {ds : List UInt8} (whole : Whole ds) : numberValue ds = digitsValue ds := by
  have digits := wholeDigits whole
  have unsigned : ds.head? ≠ some 45 := fun same =>
    absurd (digits 45 (List.mem_of_mem_head? same)) (by decide)
  have front : ds.takeWhile isDigit = ds := List.takeWhile_eq_self_iff.mpr digits
  have behind : ds.dropWhile isDigit = [] := List.dropWhile_eq_nil_iff.mpr digits
  unfold numberValue
  simp only [if_neg unsigned, front, behind]
  simp [digitsValue]

theorem wholeText {ds : List UInt8} (whole : Whole ds) : Text (.value (.number (digitsValue ds))) ds := by
  have number : Number ([] ++ ds ++ [] ++ []) := .parts (.inl rfl) whole .absent .absent
  rw [List.append_nil, List.append_nil, List.nil_append] at number
  rw [← wholeValue whole]
  exact .number number

theorem plainText {s : List UInt8} (plain : Plain s) : Text (.value (.string s)) (34 :: (s ++ [34])) := by
  have text := Text.string (plainChars plain)
  rwa [decodedBytes] at text

theorem noBlank : Blank [] := nofun

theorem memberText {name t : List UInt8} {v : Value} (plain : Plain name) (inside : Text (.value v) t) :
    Text (.member (name, v)) (34 :: (name ++ 34 :: 58 :: t)) := by
  have text := Text.member (plainChars plain) noBlank noBlank inside
  rw [decodedBytes] at text
  exact text

theorem rowText {l : List (Part × List UInt8)} (each : ∀ x ∈ l, Text x.1 x.2) :
    Text (.row (l.map Prod.fst)) ([44].intercalate (l.map Prod.snd)) := by
  induction l with
  | nil => exact .empty noBlank
  | cons x l ih =>
    obtain ⟨here, later⟩ := List.forall_mem_cons.mp each
    cases l with
    | nil =>
      have row := Text.filled noBlank here noBlank .done
      simpa [List.intercalate] using row
    | cons y l =>
      have row := Text.filled noBlank here noBlank (.comma (ih later))
      simpa [List.intercalate] using row

theorem arrayText {l : List (Value × List UInt8)} (each : ∀ x ∈ l, Text (.value x.1) x.2) :
    Text (.value (.array (l.map Prod.fst))) (91 :: ([44].intercalate (l.map Prod.snd) ++ [93])) := by
  have parts : ∀ y ∈ l.map (fun x => (Part.value x.1, x.2)), Text y.1 y.2 := by
    intro y inside
    obtain ⟨x, there, rfl⟩ := List.mem_map.mp inside
    exact each x there
  have row := rowText parts
  rw [List.map_map, List.map_map] at row
  refine .array ?_
  rw [List.map_map]
  exact row

-- A member's name, its value and the text of the value.
def memberBytes (x : List UInt8 × Value × List UInt8) : List UInt8 := 34 :: (x.1 ++ 34 :: 58 :: x.2.2)

def Written (l : List (List UInt8 × Value × List UInt8)) : Prop := ∀ x ∈ l, Plain x.1 ∧ Text (.value x.2.1) x.2.2

theorem noneWritten : Written [] := nofun

theorem oneWritten (name : List UInt8) (plain : Plain name) {v : Value} {t : List UInt8} (text : Text (.value v) t)
    {l : List (List UInt8 × Value × List UInt8)} (later : Written l) : Written ((name, v, t) :: l) :=
  List.forall_mem_cons.mpr ⟨⟨plain, text⟩, later⟩

theorem objectText {l : List (List UInt8 × Value × List UInt8)} (each : Written l) :
    Text (.value (.object (l.map fun x => (x.1, x.2.1)))) (123 :: ([44].intercalate (l.map memberBytes) ++ [125])) := by
  have parts : ∀ y ∈ l.map (fun x => (Part.member (x.1, x.2.1), memberBytes x)), Text y.1 y.2 := by
    intro y inside
    obtain ⟨x, there, rfl⟩ := List.mem_map.mp inside
    exact memberText (each x there).1 (each x there).2
  have row := rowText parts
  rw [List.map_map, List.map_map] at row
  refine .object ?_
  rw [List.map_map]
  exact row

theorem textDocument {v : Value} {t : List UInt8} (text : Text (.value v) t) : Document t v :=
  ⟨[], t, [], noBlank, text, noBlank, (List.append_nil t).symm⟩

/-! One part of a row exchanged for another. -/

theorem tailRow {parts : List Part} (some : parts ≠ []) {rest : List UInt8} (h : Text (.tail parts) rest) :
    ∃ later, rest = 44 :: later ∧ Text (.row parts) later := by
  cases h with
  | done => contradiction
  | comma later => exact ⟨_, rfl, later⟩

theorem rowTail {parts : List Part} (some : parts ≠ []) {rest : List UInt8} (h : Text (.row parts) rest) :
    Text (.tail parts) (44 :: rest) := by
  obtain ⟨p, parts, rfl⟩ := List.exists_cons_of_ne_nil some
  exact .comma h

theorem rowExchanged {before after : List Part} {p : Part} {t : List UInt8}
    (h : Text (.row (before ++ p :: after)) t) :
    ∃ pre inner post, t = pre ++ (inner ++ post) ∧ Text p inner ∧
      ∀ q s, Text q s → Text (.row (before ++ q :: after)) (pre ++ (s ++ post)) := by
  induction before generalizing t with
  | nil =>
    cases h with
    | filled blank inside blank' later => exact ⟨_, _, _, rfl, inside, fun q s text => .filled blank text blank' later⟩
  | cons first before ih =>
    cases h with
    | @filled w _ inner w' _ rest blank inside blank' later =>
      have some : ∀ q, before ++ q :: after ≠ [] := by simp
      obtain ⟨row, rfl, text⟩ := tailRow (some p) later
      obtain ⟨pre, part, post, rfl, exact_, exchanged⟩ := ih text
      refine ⟨w ++ (inner ++ (w' ++ 44 :: pre)), part, post, by simp, exact_, fun q s new => ?_⟩
      have row := Text.filled blank inside blank' (rowTail (some q) (exchanged q s new))
      simpa using row

theorem stringExchanged {name t s : List UInt8} (h : Text (.member (name, .string s)) t) :
    ∃ pre raw chars, t = pre ++ 34 :: (raw ++ [34]) ∧ Chars raw chars ∧ decoded chars = s ∧
      ∀ raw chars, Chars raw chars →
        Text (.member (name, .string (decoded chars))) (pre ++ 34 :: (raw ++ [34])) := by
  cases h with
  | @member label _ w w' _ _ named blank blank' inside =>
    cases inside with
    | @string raw chars text =>
      refine ⟨34 :: (label ++ 34 :: (w ++ 58 :: w')), raw, chars, by simp, text, rfl, fun raw chars new => ?_⟩
      have member := Text.member named blank blank' (.string new)
      simpa using member

theorem documentExchanged {t name s : List UInt8} {members : List (List UInt8 × Value)}
    (h : Document t (.object members)) (inside : (name, .string s) ∈ members) :
    ∃ pre raw post chars before after, t = pre ++ 34 :: (raw ++ 34 :: post) ∧ Chars raw chars ∧ decoded chars = s ∧
      members = before ++ (name, .string s) :: after ∧
      ∀ raw chars, Chars raw chars → Document (pre ++ 34 :: (raw ++ 34 :: post))
        (.object (before ++ (name, .string (decoded chars)) :: after)) := by
  obtain ⟨w, inner, w', blank, text, blank', rfl⟩ := h
  obtain ⟨before, after, rfl⟩ := List.append_of_mem inside
  cases text with
  | object row =>
    rw [List.map_append, List.map_cons] at row
    obtain ⟨front, part, back, rfl, member, others⟩ := rowExchanged row
    obtain ⟨pre, raw, chars, rfl, string, same, exchanged⟩ := stringExchanged member
    refine ⟨w ++ 123 :: (front ++ pre), raw, back ++ 125 :: w', chars, before, after, by simp, string, same, rfl,
      fun raw chars new => ?_⟩
    have row := others _ _ (exchanged raw chars new)
    rw [← List.map_cons (f := Part.member), ← List.map_append] at row
    exact ⟨w, _, w', blank, .object row, blank', by simp⟩

end RtspRelay.Json
