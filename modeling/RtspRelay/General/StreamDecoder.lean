import Mathlib.Data.List.Basic

/-! Decoders of a growing buffer. One step looks at the buffered elements and
either asks for more, takes a unit off the front, or fails for good. What has
been decided on a buffer is not revised when elements are appended to it; the
result of a whole stream then does not depend on how it was cut. -/
namespace RtspRelay.StreamDecoder

inductive Step (υ ε : Type) where
  | more
  | unit (value : υ) (size : Nat)
  | fail (error : ε)
  deriving DecidableEq, Repr

structure Decoder (α υ ε : Type) where
  step : List α → Step υ ε
  empty : step [] = .more
  progress : ∀ {b u n}, step b = .unit u n → 0 < n ∧ n ≤ b.length
  unitStable : ∀ {b u n}, step b = .unit u n → ∀ t, step (b ++ t) = .unit u n
  failStable : ∀ {b e}, step b = .fail e → ∀ t, step (b ++ t) = .fail e

variable {α υ ε : Type}

-- The units taken, and the elements left over or the failure that ended the run.
abbrev Decoded (α υ ε : Type) := List υ × Except ε (List α)

-- What a decoded result becomes when its leftover is decoded further.
def andThen (first : Decoded α υ ε) (next : List α → Decoded α υ ε) : Decoded α υ ε :=
  match first.2 with
  | .error e => (first.1, .error e)
  | .ok rest => (first.1 ++ (next rest).1, (next rest).2)

def drain (d : Decoder α υ ε) : Nat → List α → Decoded α υ ε
  | 0, b => ([], .ok b)
  | fuel + 1, b => match d.step b with
    | .more => ([], .ok b)
    | .fail e => ([], .error e)
    | .unit u n => (u :: (drain d fuel (b.drop n)).1, (drain d fuel (b.drop n)).2)

def decode (d : Decoder α υ ε) (b : List α) : Decoded α υ ε := drain d b.length b

variable (d : Decoder α υ ε)

theorem drainFuel {n fuel : Nat} {b : List α} (small : b.length ≤ n) (enough : n ≤ fuel) :
    drain d fuel b = drain d n b := by
  induction n generalizing fuel b with
  | zero =>
    have empty : b = [] := List.length_eq_zero_iff.mp (by omega)
    subst empty
    cases fuel <;> simp [drain, d.empty]
  | succ n ih =>
    obtain ⟨fuel, rfl⟩ : ∃ k, fuel = k + 1 := ⟨fuel - 1, by omega⟩
    simp only [drain]
    cases h : d.step b with
    | more => rfl
    | fail e => rfl
    | unit u size =>
      have bounds := d.progress h
      have shorter : (b.drop size).length ≤ n := by simp only [List.length_drop]; omega
      simp only [ih shorter (show n ≤ fuel by omega)]

theorem decodeMore {b : List α} (h : d.step b = .more) : decode d b = ([], .ok b) := by
  unfold decode
  cases b.length <;> simp [drain, h]

theorem decodeFail {b : List α} {e : ε} (h : d.step b = .fail e) :
    decode d b = ([], .error e) := by
  unfold decode
  cases b with
  | nil => simp [d.empty] at h
  | cons x rest => simp [drain, h]

theorem decodeUnit {b : List α} {u : υ} {n : Nat} (h : d.step b = .unit u n) :
    decode d b = (u :: (decode d (b.drop n)).1, (decode d (b.drop n)).2) := by
  obtain ⟨positive, inside⟩ := d.progress h
  obtain ⟨k, hk⟩ : ∃ k, b.length = k + 1 := ⟨b.length - 1, by omega⟩
  have same : drain d k (b.drop n) = decode d (b.drop n) :=
    drainFuel d (Nat.le_refl _) (by simp only [List.length_drop]; omega)
  simp only [decode, hk, drain, h]
  rw [same]
  rfl

theorem decodeInduction {P : List α → Prop}
    (more : ∀ b, d.step b = .more → P b)
    (fail : ∀ b e, d.step b = .fail e → P b)
    (unit : ∀ b u n, d.step b = .unit u n → P (b.drop n) → P b) : ∀ b, P b := by
  intro b
  induction h : b.length using Nat.strongRecOn generalizing b with
  | ind size ih =>
    cases found : d.step b with
    | more => exact more b found
    | fail e => exact fail b e found
    | unit u n =>
      have bounds := d.progress found
      exact unit b u n found (ih _ (by simp only [List.length_drop]; omega) _ rfl)

theorem decodeTaken {b : List α} {u : υ} (taken : u ∈ (decode d b).1) :
    ∃ rest n, d.step rest = .unit u n := by
  induction b using decodeInduction d with
  | more b stuck =>
    rw [decodeMore d stuck] at taken
    contradiction
  | fail b e bad =>
    rw [decodeFail d bad] at taken
    contradiction
  | unit b first n found ih =>
    rw [decodeUnit d found] at taken
    rcases List.mem_cons.mp taken with rfl | later
    · exact ⟨b, n, found⟩
    · exact ih later

theorem decodeAppend (b t : List α) :
    decode d (b ++ t) = andThen (decode d b) (fun rest => decode d (rest ++ t)) := by
  induction b using decodeInduction d with
  | more b h => simp [decodeMore d h, andThen]
  | fail b e h => simp [decodeFail d h, decodeFail d (d.failStable h t), andThen]
  | unit b u n h ih =>
    rw [decodeUnit d h, decodeUnit d (d.unitStable h t),
      List.drop_append_of_le_length (d.progress h).2, ih]
    unfold andThen
    cases (decode d (b.drop n)).2 <;> simp

theorem decodeRest (b : List α) {rest : List α} (h : (decode d b).2 = .ok rest) :
    decode d rest = ([], .ok rest) := by
  induction b using decodeInduction d with
  | more b stuck =>
    rw [decodeMore d stuck] at h
    cases h
    exact decodeMore d stuck
  | fail b e bad => rw [decodeFail d bad] at h; contradiction
  | unit b u n found ih => rw [decodeUnit d found] at h; exact ih h

-- A stream of encodings, each of which the decoder takes whole whatever follows it.
theorem decodeEncoded {ι : Type} {encode : ι → List α} {value : ι → υ} {items : List ι}
    (each : ∀ x ∈ items, ∀ t, d.step (encode x ++ t) = .unit (value x) (encode x).length) :
    decode d (items.flatMap encode) = (items.map value, .ok []) := by
  induction items with
  | nil => exact decodeMore d d.empty
  | cons x rest ih =>
    obtain ⟨first, later⟩ := List.forall_mem_cons.mp each
    rw [List.flatMap_cons, decodeUnit d (first _), List.drop_left, ih later]
    rfl

-- Before a unit is whole there is nothing to take.
theorem partStuck {whole b : List α} {u : υ} (own : d.step whole = .unit u whole.length) (part : b <+: whole)
    (short : b.length < whole.length) : d.step b = .more := by
  obtain ⟨t, rfl⟩ := part
  cases found : d.step b with
  | more => rfl
  | unit early n =>
    have same : n = (b ++ t).length := (Step.unit.inj ((d.unitStable found t).symm.trans own)).2
    have inside := (d.progress found).2
    omega
  | fail e =>
    rw [d.failStable found t] at own
    contradiction

-- Of a stream of encodings that is still coming in, the whole ones are taken.
theorem decodeIncoming {ι : Type} {encode : ι → List α} {value : ι → υ} {items : List ι}
    (each : ∀ x ∈ items, ∀ t, d.step (encode x ++ t) = .unit (value x) (encode x).length) {b : List α}
    (incoming : b <+: items.flatMap encode) :
    ∃ n left, decode d b = ((items.take n).map value, .ok left) ∧
      b = (items.take n).flatMap encode ++ left ∧ ∀ x ∈ items[n]?, left.length < (encode x).length := by
  induction items generalizing b with
  | nil =>
    cases List.prefix_nil.mp incoming
    exact ⟨0, [], decodeMore d d.empty, rfl, nofun⟩
  | cons x rest ih =>
    obtain ⟨first, later⟩ := List.forall_mem_cons.mp each
    have own := first []
    rw [List.append_nil] at own
    rw [List.flatMap_cons] at incoming
    have begins : encode x <+: encode x ++ rest.flatMap encode := List.prefix_append _ _
    rcases Nat.lt_or_ge b.length (encode x).length with short | long
    · have part := List.prefix_of_prefix_length_le incoming begins (Nat.le_of_lt short)
      refine ⟨0, b, decodeMore d (partStuck d own part short), rfl, fun y there => ?_⟩
      cases Option.some.inj there
      exact short
    · obtain ⟨behind, rfl⟩ := List.prefix_of_prefix_length_le begins incoming long
      obtain ⟨n, left, decoded, same, next⟩ := ih later ((List.prefix_append_right_inj _).mp incoming)
      refine ⟨n + 1, left, ?_, ?_, next⟩
      · rw [decodeUnit d (first behind), List.drop_left, decoded]
        rfl
      · rw [List.take_succ_cons, List.flatMap_cons, List.append_assoc, ← same]

def feed (d : Decoder α υ ε) : List (List α) → List α → Decoded α υ ε
  | [], b => ([], .ok b)
  | chunk :: chunks, b => andThen (decode d (b ++ chunk)) (feed d chunks)

theorem feedWhole (chunks : List (List α)) {b : List α} (stuck : decode d b = ([], .ok b)) :
    feed d chunks b = decode d (b ++ chunks.flatten) := by
  induction chunks generalizing b with
  | nil => simp [feed, stuck]
  | cons chunk chunks ih =>
    rw [feed, List.flatten_cons, ← List.append_assoc, decodeAppend d (b ++ chunk)]
    unfold andThen
    cases h : (decode d (b ++ chunk)).2 with
    | error e => rfl
    | ok rest => simp only [ih (decodeRest d _ h)]

theorem feedFromEmpty (chunks : List (List α)) :
    feed d chunks [] = decode d chunks.flatten := by
  simpa using feedWhole d chunks (b := []) (decodeMore d d.empty)

-- A cut stream and the same stream in one piece decode alike.
theorem feedOnePiece (chunks : List (List α)) :
    feed d chunks [] = feed d [chunks.flatten] [] := by
  rw [feedFromEmpty, feedFromEmpty]
  simp

end RtspRelay.StreamDecoder
