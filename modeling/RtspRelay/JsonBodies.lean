import RtspRelay.General.JsonWriting
import RtspRelay.StreamApi

/-! What the handlers take out of a JSON body beside the value that the text has. They look
for the quoted key anywhere, then for the next colon and the next two quotes; what stands
between these is not decoded. -/
namespace RtspRelay.JsonBodies
open Machine ByteSearch Json StreamApi

abbrev Members := List (Bytes × Value)

/-! The value of a member stands in the text as the string `raw`: any other string in its
place would be the value instead. -/
structure Place (b : Bytes) (members : Members) (key pre raw post value : Bytes) : Prop where
  body : b = pre ++ 34 :: (raw ++ 34 :: post)
  text : ∃ chars, Chars raw chars ∧ decoded chars = value
  member : ∃ before after, members = before ++ (key, .string value) :: after ∧
    ∀ raw chars, Chars raw chars → Document (pre ++ 34 :: (raw ++ 34 :: post))
      (.object (before ++ (key, .string (decoded chars)) :: after))

theorem memberPlaced {b key value : Bytes} {members : Members} (document : Document b (.object members))
    (inside : (key, .string value) ∈ members) : ∃ pre raw post, Place b members key pre raw post value := by
  obtain ⟨pre, raw, post, chars, before, after, body, text, same, split, exchanged⟩ :=
    documentExchanged document inside
  exact ⟨pre, raw, post, body, ⟨chars, text, same⟩, before, after, split, exchanged⟩

theorem placedValue {b key pre raw post value other : Bytes} {members : Members}
    (place : Place b members key pre raw post value) (distinct : (members.map Prod.fst).Nodup)
    (inside : (key, .string other) ∈ members) : value = other := by
  obtain ⟨before, after, rfl, -⟩ := place.member
  have here : (key, Value.string value) ∈ before ++ (key, Value.string value) :: after := by simp
  have same := List.inj_on_of_nodup_map distinct here inside rfl
  exact Value.string.inj (Prod.mk.inj same).2

/-! Where the search leads. -/

def quoted (key : Bytes) : Bytes := ascii "\"" ++ key ++ ascii "\""

-- The first colon behind the first quoted key.
def colonOf (key s : Bytes) : Option Nat := do
  let pos ← find (quoted key) s
  findFrom [58] s (pos + (quoted key).length)

-- The next quote behind that colon is the first one behind `front`.
def Leads (key front : Bytes) : Prop := ∃ colon ∈ colonOf key front, (34 : UInt8) ∉ front.drop (colon + 1)

instance (key front : Bytes) : Decidable (Leads key front) := by
  unfold Leads
  cases colonOf key front with
  | none => exact .isFalse (by simp)
  | some colon =>
    exact decidable_of_iff ((34 : UInt8) ∉ front.drop (colon + 1)) (by simp)

def LedTo (key b text : Bytes) : Prop :=
  ∃ front back, b = front ++ 34 :: (text ++ 34 :: back) ∧ Leads key front ∧ (34 : UInt8) ∉ text

theorem colonAppend {key s : Bytes} {colon : Nat} (found : colonOf key s = some colon) (t : Bytes) :
    colonOf key (s ++ t) = some colon ∧ colon < s.length := by
  obtain ⟨pos, first, behind⟩ := Option.bind_eq_some_iff.mp found
  obtain ⟨k, second, rfl⟩ := Option.map_eq_some_iff.mp behind
  have room := (findOccurs first).2
  have inside := (findOccurs second).2
  simp only [List.length_drop, List.length_cons, List.length_nil] at inside
  refine ⟨Option.bind_eq_some_iff.mpr ⟨pos, findAppend first t, ?_⟩, by omega⟩
  rw [findFrom, List.drop_append_of_le_length room, findAppend second]
  rfl

theorem colonTake {key s : Bytes} {colon n : Nat} (found : colonOf key s = some colon) (room : colon < n) :
    colonOf key (s.take n) = some colon := by
  obtain ⟨pos, first, behind⟩ := Option.bind_eq_some_iff.mp found
  obtain ⟨k, second, rfl⟩ := Option.map_eq_some_iff.mp behind
  have cut := findTake first (n := n) (by omega)
  refine Option.bind_eq_some_iff.mpr ⟨pos, cut, ?_⟩
  rw [findFrom, List.drop_take, findTake second (by simp; omega)]
  rfl

-- The text that the handlers take, if they find one.
def reading (b key : Bytes) : Option Bytes := do
  let colon ← colonOf key b
  let valStart ← findFrom [34] b (colon + 1)
  let valEnd ← findFrom [34] b (valStart + 1)
  some ((b.drop (valStart + 1)).take (valEnd - valStart - 1))

theorem extractReading (b key : Bytes) : extractStringValue b key = (reading b key).getD [] := by
  unfold extractStringValue reading colonOf quoted
  simp only [Option.bind_eq_bind, Option.bind_assoc]

theorem ledReads {key b text : Bytes} (led : LedTo key b text) : reading b key = some text := by
  obtain ⟨front, back, rfl, ⟨colon, found, plain⟩, fresh⟩ := led
  obtain ⟨whole, inside⟩ := colonAppend found (34 :: (text ++ 34 :: back))
  have start : findFrom [34] (front ++ 34 :: (text ++ 34 :: back)) (colon + 1) = some front.length := by
    rw [findFrom, List.drop_append_of_le_length inside, firstSplit plain, Option.map_some, List.length_drop]
    exact congrArg some (by omega)
  have behind : (front ++ 34 :: (text ++ 34 :: back)).drop (front.length + 1) = text ++ 34 :: back := by
    rw [← List.drop_drop, List.drop_left]
    rfl
  have stop : findFrom [34] (front ++ 34 :: (text ++ 34 :: back)) (front.length + 1) =
      some (text.length + (front.length + 1)) := by
    rw [findFrom, behind, firstSplit fresh]
    rfl
  have size : text.length + (front.length + 1) - front.length - 1 = text.length := by omega
  unfold reading
  simp only [whole, start, stop, behind, size, Option.bind_eq_bind, Option.bind_some, List.take_left]

theorem dropFound {s : Bytes} {m k : Nat} (found : find [34] (s.drop m) = some k) :
    s.drop (k + m) = 34 :: s.drop (k + m + 1) := by
  obtain ⟨⟨tail, same⟩, -⟩ := findOccurs found
  rw [List.drop_drop, Nat.add_comm] at same
  have rest : tail = s.drop (k + m + 1) := by
    rw [← List.drop_drop, ← same]
    rfl
  rw [← same, rest]
  rfl

theorem readsLed {key b text : Bytes} (read : reading b key = some text) : LedTo key b text := by
  obtain ⟨colon, found, read⟩ := Option.bind_eq_some_iff.mp read
  obtain ⟨valStart, start, read⟩ := Option.bind_eq_some_iff.mp read
  obtain ⟨valEnd, stop, read⟩ := Option.bind_eq_some_iff.mp read
  obtain ⟨k, first, rfl⟩ := Option.map_eq_some_iff.mp start
  obtain ⟨n, second, rfl⟩ := Option.map_eq_some_iff.mp stop
  have size : n + (k + (colon + 1) + 1) - (k + (colon + 1)) - 1 = n := by omega
  rw [size] at read
  cases Option.some.inj read
  refine ⟨b.take (k + (colon + 1)), b.drop (k + (colon + 1) + 1 + (n + 1)), ?_, ⟨colon, ?_, ?_⟩, ?_⟩
  · have rest : (b.drop (k + (colon + 1) + 1)).drop n = 34 :: b.drop (k + (colon + 1) + 1 + (n + 1)) := by
      rw [List.drop_drop, Nat.add_comm, dropFound second]
      exact congrArg (fun i => 34 :: b.drop i) (by omega)
    rw [← rest, List.take_append_drop, ← dropFound first, List.take_append_drop]
  · exact colonTake found (by omega)
  · rw [List.drop_take, Nat.add_sub_cancel]
    exact findSingletonFresh first
  · exact findSingletonFresh second

/-! The handlers read a member right when it has no escape and the search leads to it. Else they
do so by accident: another text in quotes, or none at all, spells the same. -/

def Coincides (key b pre value : Bytes) : Prop :=
  (∃ front back, front ≠ pre ∧ b = front ++ 34 :: (value ++ 34 :: back) ∧ Leads key front ∧ (34 : UInt8) ∉ value) ∨
    value = [] ∧ ∀ text, ¬ LedTo key b text

theorem placeRead {b key pre raw post value : Bytes} {members : Members}
    (place : Place b members key pre raw post value) :
    extractStringValue b key = value ↔ Leads key pre ∧ (92 : UInt8) ∉ raw ∨ Coincides key b pre value := by
  obtain ⟨chars, text, same⟩ := place.text
  rw [extractReading]
  constructor
  · intro right
    cases read : reading b key with
    | none =>
      rw [read] at right
      have lost : ∀ text, ¬ LedTo key b text := fun text led => by
        rw [ledReads led] at read
        contradiction
      exact .inr (.inr ⟨right.symm, lost⟩)
    | some found =>
      rw [read] at right
      cases right
      obtain ⟨front, back, split, leads, fresh⟩ := readsLed read
      by_cases other : front = pre
      · subst other
        have spelt : decoded chars = found := same
        have strings : found ++ 34 :: back = raw ++ 34 :: post := by
          have bodies := split.symm.trans place.body
          exact (List.cons.inj (List.append_cancel_left bodies)).2
        refine .inl ⟨leads, fun escape => ?_⟩
        by_cases quotes : (34 : UInt8) ∈ raw
        · exact fresh (spelt ▸ quoteDecoded text quotes)
        · obtain rfl := splitUnique fresh quotes strings
          exact escapeShortens text escape spelt
      · exact .inr (.inl ⟨front, back, other, split, leads, fresh⟩)
  · rintro (⟨leads, plain⟩ | ⟨front, back, -, split, leads, fresh⟩ | ⟨rfl, lost⟩)
    · obtain ⟨quotes, exact_⟩ := charsPlain text plain
      rw [ledReads ⟨pre, post, place.body, leads, quotes⟩, Option.getD_some, ← same, exact_]
    · rw [ledReads ⟨front, back, split, leads, fresh⟩, Option.getD_some]
    · cases read : reading b key with
      | none => rfl
      | some found => exact absurd (readsLed read) (lost found)

-- The condition on the text and the place of the member's value.
def Reads (b : Bytes) (members : Members) (key : Bytes) : Prop :=
  ∃ pre raw post value, Place b members key pre raw post value ∧
    (Leads key pre ∧ (92 : UInt8) ∉ raw ∨ Coincides key b pre value)

theorem memberRead {b key value : Bytes} {members : Members} (document : Document b (.object members))
    (distinct : (members.map Prod.fst).Nodup) (inside : (key, .string value) ∈ members) :
    extractStringValue b key = value ↔ Reads b members key := by
  constructor
  · intro right
    obtain ⟨pre, raw, post, place⟩ := memberPlaced document inside
    exact ⟨pre, raw, post, value, place, (placeRead place).mp right⟩
  · rintro ⟨pre, raw, post, other, place, reads⟩
    obtain rfl := placedValue place distinct inside
    exact (placeRead place).mpr reads

theorem bodyRead (b : Bytes) (members : Members) (document : Document b (.object members))
    (distinct : (members.map Prod.fst).Nodup) (path upstream : Bytes)
    (named : (ascii "path", .string path) ∈ members) (named' : (ascii "upstream", .string upstream) ∈ members) :
    (extractStringValue b (ascii "path") = path ∧ extractStringValue b (ascii "upstream") = upstream) ↔
      Reads b members (ascii "path") ∧ Reads b members (ascii "upstream") :=
  and_congr (memberRead document distinct named) (memberRead document distinct named')

/-! A body of the documented form, and one whose writer escapes each '/'. -/

def twoMembers (path upstream : Bytes) : Bytes :=
  123 :: ([44].intercalate [34 :: (ascii "path" ++ 34 :: 58 :: 34 :: (path ++ [34])),
    34 :: (ascii "upstream" ++ 34 :: 58 :: 34 :: (upstream ++ [34]))] ++ [125])

def membersOf (path upstream : Bytes) : Members :=
  [(ascii "path", .string path), (ascii "upstream", .string upstream)]

theorem twoDocument {path upstream : Bytes} {chars chars' : List StringChar} (text : Chars path chars)
    (text' : Chars upstream chars') :
    Document (twoMembers path upstream) (.object (membersOf (decoded chars) (decoded chars'))) := by
  have rest := oneWritten (ascii "upstream") (by decide) (.string text') noneWritten
  have both := oneWritten (ascii "path") (by decide) (.string text) rest
  exact textDocument (objectText both)

section
variable {path upstream : Bytes} {chars chars' : List StringChar} (text : Chars path chars)
  (text' : Chars upstream chars')
include text text'

theorem pathPlaced : Place (twoMembers path upstream) (membersOf (decoded chars) (decoded chars')) (ascii "path")
    (ascii "\x7b\"path\":") path (ascii ",\"upstream\":\"" ++ upstream ++ ascii "\"\x7d") (decoded chars) := by
  have shape : ∀ raw, twoMembers raw upstream = ascii "\x7b\"path\":" ++
      34 :: (raw ++ 34 :: (ascii ",\"upstream\":\"" ++ upstream ++ ascii "\"\x7d")) := by
    intro raw
    simp [twoMembers, List.intercalate, ascii]
  refine ⟨shape path, ⟨chars, text, rfl⟩, [], [(ascii "upstream", .string (decoded chars'))], rfl, ?_⟩
  intro raw chars new
  rw [← shape]
  exact twoDocument new text'

theorem upstreamPlaced : Place (twoMembers path upstream) (membersOf (decoded chars) (decoded chars'))
    (ascii "upstream") (ascii "\x7b\"path\":\"" ++ path ++ ascii "\",\"upstream\":") upstream (ascii "\x7d")
    (decoded chars') := by
  have shape : ∀ raw, twoMembers path raw = ascii "\x7b\"path\":\"" ++ path ++ ascii "\",\"upstream\":" ++
      34 :: (raw ++ 34 :: ascii "\x7d") := by
    intro raw
    simp [twoMembers, List.intercalate, ascii]
  refine ⟨shape upstream, ⟨chars', text', rfl⟩, [(ascii "path", .string (decoded chars))], [], rfl, ?_⟩
  intro raw chars' new
  rw [← shape]
  exact twoDocument text new

end

def camUrl : Bytes := ascii "rtsp://10.0.0.9/cam"

theorem plainCam : Json.Plain (ascii "/cam") ∧ Json.Plain camUrl := by decide

theorem camRead : extractStringValue (twoMembers (ascii "/cam") camUrl) (ascii "path") = ascii "/cam" ∧
    extractStringValue (twoMembers (ascii "/cam") camUrl) (ascii "upstream") = camUrl := by
  obtain ⟨path, upstream⟩ := plainCam
  have placed := pathPlaced (plainChars path) (plainChars upstream)
  have placed' := upstreamPlaced (plainChars path) (plainChars upstream)
  have document := twoDocument (plainChars path) (plainChars upstream)
  rw [decodedBytes, decodedBytes] at placed placed' document
  exact (bodyRead _ (membersOf (ascii "/cam") camUrl) document (by decide) _ _ List.mem_cons_self
    (List.mem_cons_of_mem _ List.mem_cons_self)).mpr
    ⟨⟨_, _, _, _, placed, .inl (by decide)⟩, ⟨_, _, _, _, placed', .inl (by decide)⟩⟩

theorem escapedPath : Chars (ascii "\\/cam") (.byte 47 :: (ascii "cam").map .byte) :=
  .escape rfl (plainChars (by decide))

theorem slashNotRead : ¬ ∀ (b : Bytes) (members : Members), Document b (.object members) →
    (members.map Prod.fst).Nodup → ∀ path upstream : Bytes, (ascii "path", .string path) ∈ members →
    (ascii "upstream", .string upstream) ∈ members →
    extractStringValue b (ascii "path") = path ∧ extractStringValue b (ascii "upstream") = upstream := by
  intro always
  have read := always _ _ (twoDocument escapedPath (plainChars plainCam.2)) (by decide) _ _
    List.mem_cons_self (List.mem_cons_of_mem _ List.mem_cons_self)
  exact absurd read.1 (by decide)

end RtspRelay.JsonBodies
