import RtspRelay.Protocol
import RtspRelay.HttpMessage

/-! The letter case of header field names. The parsers compare names byte by byte; what
they make of a buffer depends on the spelling of the names they look up and of no
other name. -/
namespace RtspRelay.HeaderCase
open Machine Buffer ByteSearch MessageText MessageFraming
open Protocol (RtspMessage rtspGrammar)
open HttpMessage (HttpRequest httpGrammar)

def lower (c : UInt8) : UInt8 := if 65 ≤ c ∧ c ≤ 90 then c + 32 else c

-- The names in `looked` are spelled like that in one exactly where they are in the other.
structure SameName (looked : List Bytes) (name name' : Bytes) : Prop where
  letters : name.map lower = name'.map lower
  spelled : ∀ x ∈ looked, name = x ↔ name' = x

-- Behind the start line; the header ends in front of an empty line.
inductive SameLines (looked : List Bytes) : Bytes → Bytes → Prop where
  | rest (tail : Bytes) : SameLines looked tail tail
  | line {line tail tail' : Bytes} (some : line ≠ []) (whole : find crlf line = none)
      (later : SameLines looked tail tail') : SameLines looked (line ++ crlf ++ tail) (line ++ crlf ++ tail')
  | named {name name' value tail tail' : Bytes} (ends : (58 : UInt8) ∉ name)
      (whole : find crlf (name ++ 58 :: value) = none) (same : SameName looked name name')
      (later : SameLines looked tail tail') :
      SameLines looked (name ++ 58 :: value ++ crlf ++ tail) (name' ++ 58 :: value ++ crlf ++ tail')
  | last {name name' value : Bytes} (ends : (58 : UInt8) ∉ name)
      (whole : find crlf (name ++ 58 :: value) = none) (same : SameName looked name name') :
      SameLines looked (name ++ 58 :: value) (name' ++ 58 :: value)

-- The buffers differ in the letter case of header field names only.
inductive Recased (looked : List Bytes) : Bytes → Bytes → Prop where
  | same (content : Bytes) : Recased looked content content
  | header {first tail tail' : Bytes} (whole : find crlf first = none) (lines : SameLines looked tail tail') :
      Recased looked (first ++ crlf ++ tail) (first ++ crlf ++ tail')

section
variable {μ : Type} (g : Grammar μ)

def framing (out : Except Exn (Parsed μ)) : Except Exn (Bool × Nat) := out.map fun p => (p.ok, p.consumed)

def body (out : Except Exn (Parsed μ)) : Except Exn Bytes := out.map fun p => g.bodyOf p.msg
end

-- What one field of the message is read as.
def reading {α : Type} (f : RtspMessage → α) (out : Except Exn (Parsed RtspMessage)) : Except Exn α :=
  out.map fun p => f p.msg

def lengthName : Bytes := ascii "Content-Length"

-- The position at which the header ends fits an int.
def Counted (content : Bytes) : Prop := ∀ p, find crlfcrlf content = some p → (p : Int) + 4 ≤ intMax

/-! Lower case moves no separator. -/

theorem lowerReflects {x : UInt8} (outside : x < 65 ∨ 122 < x ∨ (90 < x ∧ x < 97)) (y : UInt8)
    (same : lower y = lower x) : y = x := by
  have fixed : lower x = x := by
    unfold lower
    split
    · rename_i upper
      simp only [UInt8.lt_iff_toNat_lt, UInt8.le_iff_toNat_le] at outside upper
      simp at outside upper
      omega
    · rfl
  rw [fixed] at same
  unfold lower at same
  split at same
  · rename_i upper
    have size := congrArg UInt8.toNat same
    simp only [UInt8.lt_iff_toNat_lt, UInt8.le_iff_toNat_le, UInt8.toNat_add] at outside upper size
    simp at outside upper size
    omega
  · exact same

theorem findLower {pat s s' : Bytes} (plain : ∀ x ∈ pat, x < 65) (same : s.map lower = s'.map lower) :
    find pat s = find pat s' := by
  have reflects : ∀ x ∈ pat, ∀ y, lower y = lower x → y = x := fun x inside y =>
    lowerReflects (.inl (plain x inside)) y
  rw [← findRenamed reflects s, same, findRenamed reflects s']

section
variable {looked : List Bytes} {s s' : Bytes}

theorem linesLower (h : SameLines looked s s') : s.map lower = s'.map lower := by
  induction h with
  | rest tail => rfl
  | line some whole later ih => rw [List.map_append, ih, ← List.map_append]
  | named ends whole same later ih =>
    simp only [List.map_append, List.map_cons, same.letters, ih]
  | last ends whole same => rw [List.map_append, List.map_append, same.letters]

theorem recasedLower (h : Recased looked s s') : s.map lower = s'.map lower := by
  cases h with
  | same => rfl
  | header whole lines => rw [List.map_append, linesLower lines, ← List.map_append]

structure SameField (looked : List Bytes) (field field' : Bytes × Bytes) : Prop where
  spelled : ∀ x ∈ looked, field.1 = x ↔ field'.1 = x
  value : field.2 = field'.2

abbrev SameFields (looked : List Bytes) := List.Forall₂ (SameField looked)

theorem fieldsRefl (looked : List Bytes) (fields : List (Bytes × Bytes)) : SameFields looked fields fields :=
  List.forall₂_same.mpr fun _ _ => ⟨fun _ _ => .rfl, rfl⟩

theorem namedLine {name name' value : Bytes} (ends : (58 : UInt8) ∉ name)
    (whole : find crlf (name ++ 58 :: value) = none) (same : SameName looked name name') :
    name'.length = name.length ∧ (58 : UInt8) ∉ name' ∧ find crlf (name' ++ 58 :: value) = none := by
  have size := congrArg List.length same.letters
  simp only [List.length_map] at size
  refine ⟨size.symm, ?_, ?_⟩
  · rw [← findSingleton, ← findLower (by decide +kernel) same.letters, findSingletonNone ends]
    decide
  · rw [← findLower (s := name ++ 58 :: value) (by decide +kernel) ?_]
    · exact whole
    · rw [List.map_append, List.map_append, same.letters]

theorem fieldsCut (h : SameLines looked s s') (m : Nat) :
    SameFields looked (fieldsOf (s.take m)) (fieldsOf (s'.take m)) := by
  induction h generalizing m with
  | rest tail => exact fieldsRefl looked _
  | line some whole later ih =>
    rw [lineCut some whole, lineCut some whole]
    split
    · exact List.rel_append (fieldsRefl looked _) (ih _)
    · exact .nil
  | @named name name' value tail tail' ends whole same later ih =>
    obtain ⟨size, ends', whole'⟩ := namedLine ends whole same
    have sizes : (name' ++ 58 :: value).length = (name ++ 58 :: value).length := by
      simp only [List.length_append, size]
    rw [lineCut (by simp) whole, lineCut (by simp) whole', sizes, splitNamed ends, splitNamed ends']
    split
    · exact .cons ⟨same.spelled, rfl⟩ (ih _)
    · exact .nil
  | @last name name' value ends whole same =>
    obtain ⟨-, -, whole'⟩ := namedLine ends whole same
    rw [fieldsOfNone (findTakeNone whole m), fieldsOfNone (findTakeNone whole' m)]
    exact .nil

/-! The header block of both buffers: cut at the same place, with the same start line. -/

structure SameHeader (looked : List Bytes) (header header' : Bytes) : Prop where
  size : header.length = header'.length
  start : startOf header = startOf header'
  fields : SameFields looked (fields header) (fields header')

theorem headerSame (h : Recased looked s s') (n : Nat) : SameHeader looked (s.take n) (s'.take n) := by
  cases h with
  | same => exact ⟨rfl, rfl, fieldsRefl looked _⟩
  | @header first tail tail' whole lines =>
    have sizes : tail.length = tail'.length := by
      have lower := congrArg List.length (linesLower lines)
      simpa only [List.length_map] using lower
    rcases Nat.lt_or_ge n (first ++ crlf).length with short | long
    · rw [List.take_append_of_le_length (Nat.le_of_lt short), List.take_append_of_le_length (Nat.le_of_lt short)]
      exact ⟨rfl, rfl, fieldsRefl looked _⟩
    · have begins : ∀ tail : Bytes, startOf ((first ++ crlf ++ tail).take n) = some first ∧
          fields ((first ++ crlf ++ tail).take n) = fieldsOf (tail.take (n - (first ++ crlf).length)) := by
        intro tail
        have cut : (first ++ crlf ++ tail).take n = first ++ crlf ++ tail.take (n - (first ++ crlf).length) := by
          rw [List.take_append, List.take_of_length_le long]
        have found : find crlf (first ++ crlf ++ tail.take (n - (first ++ crlf).length)) = some first.length := by
          rw [List.append_assoc]
          exact findPairAfter (by decide) whole _
        rw [cut, startOf, fields, found]
        refine ⟨?_, congrArg fieldsOf (List.drop_left' (by simp [crlf]))⟩
        rw [Option.map_some, List.append_assoc, List.take_left]
      refine ⟨?_, (begins tail).1.trans (begins tail').1.symm, ?_⟩
      · simp only [List.length_take, List.length_append, sizes]
      · rw [(begins tail).2, (begins tail').2]
        exact fieldsCut lines _

theorem lookupsSame {fs fs' : List (Bytes × Bytes)} (h : SameFields looked fs fs') {name : Bytes}
    (inside : name ∈ looked) (map map' : Headers) (same : map.lookup name = map'.lookup name) :
    (fs.foldl (fun map field => map.insert field.1 field.2) map).lookup name =
      (fs'.foldl (fun map field => map.insert field.1 field.2) map').lookup name := by
  induction h generalizing map map' with
  | nil => exact same
  | @cons field field' fs fs' one later ih =>
    refine ih _ _ ?_
    dsimp only
    have spelled := one.spelled name inside
    rcases eq_or_ne field.1 name with here | differ
    · rw [here, spelled.mp here, one.value, AList.lookup_insert, AList.lookup_insert]
    · have differ' : field'.1 ≠ name := fun here => differ (spelled.mpr here)
      rw [AList.lookup_insert_ne differ.symm, AList.lookup_insert_ne differ'.symm]
      exact same

theorem declaredSame {header header' : Bytes} (h : SameHeader looked header header')
    (inside : lengthName ∈ looked) : declaredLength header = declaredLength header' := by
  have same := lookupsSame h.fields inside ∅ ∅ rfl
  unfold declaredLength contentLength headerMap
  rw [show ascii "Content-Length" = lengthName from rfl, same]

theorem startedSame {header header' : Bytes} (h : SameHeader looked header header') :
    Started header ↔ Started header' := by
  unfold Started
  rw [h.start]

theorem blockSame (h : Recased looked s s') : (block s = block s' ∧ ∀ header, block s ≠ .header header) ∨
    ∃ n ≤ s.length, block s = .header (s.take n) ∧ block s' = .header (s'.take n) := by
  have same : find crlfcrlf s = find crlfcrlf s' := findLower (by decide +kernel) (recasedLower h)
  unfold block
  rw [← same]
  cases found : find crlfcrlf s with
  | none => exact .inl ⟨rfl, nofun⟩
  | some p =>
    dsimp only
    split
    · exact .inl ⟨rfl, nofun⟩
    · split
      · exact .inl ⟨rfl, nofun⟩
      · have bound := (findOccurs found).2
        have below := int32Le p
        simp only [crlfcrlf, List.length_cons, List.length_nil] at bound
        exact .inr ⟨_, by omega, rfl, rfl⟩

/-! The framing: only the spelling of Content-Length counts. -/

section
variable {μ : Type} (g : Grammar μ)

-- Both headers end at `n`, and what is read of them is the same up to the recased names.
structure Paired (looked : List Bytes) (s s' : Bytes) (n : Nat) : Prop where
  inside : n ≤ s.length
  shape : block s = .header (s.take n)
  shape' : block s' = .header (s'.take n)
  header : SameHeader looked (s.take n) (s'.take n)
  declared : declaredLength (s.take n) = declaredLength (s'.take n)
  sizes : s.length = s'.length
  starts : (head g (s.take n)).1 = (head g (s'.take n)).1

theorem outcomePaired (h : Recased looked s s') (inside : lengthName ∈ looked) :
    outcome g s = outcome g s' ∨ ∃ n, Paired g looked s s' n := by
  rcases blockSame h with ⟨same, none⟩ | ⟨n, within, shape, shape'⟩
  · left
    unfold outcome
    rw [← same]
    cases kind : block s with
    | missing => rfl
    | overlong => rfl
    | header header => exact absurd kind (none header)
  · have header := headerSame h n
    have lower := congrArg List.length (recasedLower h)
    refine .inr ⟨n, within, shape, shape', header, declaredSame header inside, ?_, ?_⟩
    · simpa only [List.length_map] using lower
    · rw [Bool.eq_iff_iff, headStarted, headStarted, startedSame header]

theorem framingSame (h : Recased looked s s') (inside : lengthName ∈ looked) :
    framing (outcome g s) = framing (outcome g s') := by
  rcases outcomePaired g h inside with same | ⟨n, paired⟩
  · rw [same]
  · unfold outcome
    rw [paired.shape, paired.shape']
    dsimp only
    rw [paired.starts]
    split
    · unfold finish
      rw [paired.header.size, paired.declared, paired.sizes]
      dsimp only
      repeat' split
      all_goals rfl
    · rfl
end

/-! What follows the header is the same in both, as long as positions fit an int. -/

theorem dropPast (pre s : Bytes) (q : Nat) : (pre ++ s).drop (q + pre.length + 4) = s.drop (q + 4) := by
  rw [Nat.add_right_comm, Nat.add_comm, ← List.drop_drop, List.drop_left]

theorem lineDropped (line tail : Bytes) (q : Nat) :
    (crlf ++ (line ++ crlf ++ tail)).drop (q + (crlf ++ line).length + 4) = (crlf ++ tail).drop (q + 4) := by
  rw [← dropPast (crlf ++ line) (crlf ++ tail) q]
  simp only [List.append_assoc]

theorem linesBehind (h : SameLines looked s s') {p : Nat} (found : find crlfcrlf (crlf ++ s) = some p) :
    (crlf ++ s).drop (p + 4) = (crlf ++ s').drop (p + 4) := by
  induction h generalizing p with
  | rest tail => rfl
  | @line line tail tail' some whole later ih =>
    rw [List.append_assoc, ← List.append_assoc, lineSkipped some whole] at found
    obtain ⟨q, inner, rfl⟩ := Option.map_eq_some_iff.mp found
    have same := ih inner
    rw [lineDropped, lineDropped, same]
  | @named name name' value tail tail' ends whole same later ih =>
    obtain ⟨size, -, whole'⟩ := namedLine ends whole same
    rw [List.append_assoc, ← List.append_assoc, lineSkipped (by simp) whole] at found
    obtain ⟨q, inner, rfl⟩ := Option.map_eq_some_iff.mp found
    have behind := ih inner
    have sizes : (crlf ++ (name ++ 58 :: value)).length = (crlf ++ (name' ++ 58 :: value)).length := by
      simp only [List.length_append, size]
    rw [lineDropped, sizes, lineDropped, behind]
  | @last name name' value ends whole same =>
    have inside := (emptyLine (findOccurs found).1).2
    rw [List.drop_drop, Nat.add_comm, ← List.drop_drop] at inside
    exact absurd inside (findNone whole p)

theorem recasedBehind (h : Recased looked s s') {p : Nat} (found : find crlfcrlf s = some p) :
    s.drop (p + 4) = s'.drop (p + 4) := by
  cases h with
  | same => rfl
  | @header first tail tail' whole lines =>
    have starts : find crlf (first ++ (crlf ++ tail)) = some first.length :=
      findPairAfter (by decide) whole tail
    rw [List.append_assoc, findPast (crlf ++ tail) fun j before double =>
      findFirst starts j before (emptyLine double).1] at found
    obtain ⟨q, inner, rfl⟩ := Option.map_eq_some_iff.mp found
    rw [List.append_assoc, List.append_assoc, dropPast, dropPast]
    exact linesBehind lines inner

theorem countedBehind (h : Recased looked s s') (counted : Counted s) {n : Nat}
    (shape : block s = .header (s.take n)) (inside : n ≤ s.length) : s.drop n = s'.drop n := by
  obtain ⟨-, -, -, -, p, found, size⟩ := blockHeader shape
  have fits := counted p found
  have exact_ : int32 p = p := int32Small (by unfold intMax; omega) (by omega)
  rw [exact_, List.length_take, Nat.min_eq_left inside] at size
  obtain rfl : n = p + 4 := by omega
  exact recasedBehind h found

section
variable {μ : Type} (g : Grammar μ)

theorem bodySame (h : Recased looked s s') (inside : lengthName ∈ looked) (counted : Counted s) :
    body g (outcome g s) = body g (outcome g s') := by
  rcases outcomePaired g h inside with same | ⟨n, paired⟩
  · rw [same]
  · have behind := countedBehind h counted paired.shape paired.inside
    have width : (s.take n).length = n := by rw [List.length_take, Nat.min_eq_left paired.inside]
    have width' : (s'.take n).length = n := paired.header.size.symm.trans width
    have empty := (headAccepted g (s.take n)).2.2
    have empty' := (headAccepted g (s'.take n)).2.2
    unfold outcome
    rw [paired.shape, paired.shape']
    dsimp only
    rw [paired.starts]
    split
    · unfold finish
      rw [paired.declared, paired.sizes, width, width', behind]
      dsimp only
      repeat' split
      all_goals simp only [body, Except.map, empty, empty', g.bodySet]
    · simp only [body, Except.map, empty, empty']
end

/-! What an RTSP message is read as: the fields of the names it looks up. -/

structure Reads (looked : List Bytes) (msg msg' : RtspMessage) : Prop where
  cseq : ascii "CSeq" ∈ looked → msg.cseq = msg'.cseq
  sessionId : ascii "Session" ∈ looked → msg.sessionId = msg'.sessionId
  transport : ascii "Transport" ∈ looked → msg.transport = msg'.transport
  contentType : ascii "Content-Type" ∈ looked →
    msg.headers.lookup (ascii "Content-Type") = msg'.headers.lookup (ascii "Content-Type")
  sdp : msg.sdp = msg'.sdp

theorem readsRefl (looked : List Bytes) (msg : RtspMessage) : Reads looked msg msg :=
  ⟨fun _ => rfl, fun _ => rfl, fun _ => rfl, fun _ => rfl, rfl⟩

-- What one header line gives each of them.
theorem fieldParts (msg : RtspMessage) (key val : Bytes) :
    (Protocol.field msg key val).cseq =
        (if key = ascii "CSeq" then (atoi val % 2 ^ 32).toNat else msg.cseq) ∧
      (Protocol.field msg key val).sessionId =
        (if key = ascii "Session" then Protocol.sessionValue val else msg.sessionId) ∧
      (Protocol.field msg key val).transport = (if key = ascii "Transport" then val else msg.transport) ∧
      (Protocol.field msg key val).sdp = msg.sdp := by
  unfold Protocol.field
  refine ⟨?_, ?_, ?_, ?_⟩
  all_goals
    dsimp only
    repeat' split
    all_goals rfl

theorem fieldReads {field field' : Bytes × Bytes} (one : SameField looked field field')
    {msg msg' : RtspMessage} (same : Reads looked msg msg') :
    Reads looked (Protocol.field msg field.1 field.2) (Protocol.field msg' field'.1 field'.2) := by
  obtain ⟨cseq, session, transport, sdp⟩ := fieldParts msg field.1 field.2
  obtain ⟨cseq', session', transport', sdp'⟩ := fieldParts msg' field'.1 field'.2
  refine ⟨fun inside => ?_, fun inside => ?_, fun inside => ?_, fun inside => ?_, ?_⟩
  · rw [cseq, cseq', same.cseq inside, one.value]
    simp only [one.spelled _ inside]
  · rw [session, session', same.sessionId inside, one.value]
    simp only [one.spelled _ inside]
  · rw [transport, transport', same.transport inside, one.value]
    simp only [one.spelled _ inside]
  · have maps := rtspGrammar.fieldHeaders msg field.1 field.2
    have maps' := rtspGrammar.fieldHeaders msg' field'.1 field'.2
    have step : SameFields looked [field] [field'] := .cons one .nil
    have lookup := lookupsSame step inside _ _ (same.contentType inside)
    exact (congrArg _ maps).trans (lookup.trans (congrArg _ maps'.symm))
  · rw [sdp, sdp', same.sdp]

theorem fieldsReads {fs fs' : List (Bytes × Bytes)} (h : SameFields looked fs fs') {msg msg' : RtspMessage}
    (same : Reads looked msg msg') :
    Reads looked (fs.foldl (fun m f => Protocol.field m f.1 f.2) msg)
      (fs'.foldl (fun m f => Protocol.field m f.1 f.2) msg') := by
  induction h generalizing msg msg' with
  | nil => exact same
  | cons one later ih => exact ih (fieldReads one same)

theorem headReads {header header' : Bytes} (h : SameHeader looked header header') :
    Reads looked (head rtspGrammar header).2 (head rtspGrammar header').2 := by
  have starts := h.start
  unfold startOf at starts
  unfold head
  cases found : find crlf header with
  | none =>
    rw [found] at starts
    have none' := Option.map_eq_none_iff.mp starts.symm
    rw [none']
    exact readsRefl looked _
  | some lineEnd =>
    rw [found, Option.map_some] at starts
    obtain ⟨lineEnd', found', line⟩ := Option.map_eq_some_iff.mp starts.symm
    rw [found']
    dsimp only
    rw [line]
    cases rtspGrammar.startLine (header.take lineEnd) rtspGrammar.fresh with
    | error => exact readsRefl looked _
    | ok out =>
      dsimp only
      split
      · exact fieldsReads h.fields (readsRefl looked _)
      · exact readsRefl looked _

theorem setBodyParts (msg : RtspMessage) (bytes : Bytes) :
    (Protocol.setBody msg bytes).cseq = msg.cseq ∧ (Protocol.setBody msg bytes).sessionId = msg.sessionId ∧
      (Protocol.setBody msg bytes).transport = msg.transport := by
  unfold Protocol.setBody
  dsimp only
  repeat' split
  all_goals exact ⟨rfl, rfl, rfl⟩

theorem setBodySdp {msg msg' : RtspMessage} (same : Reads looked msg msg')
    (typed : ascii "Content-Type" ∈ looked) (bytes : Bytes) :
    (Protocol.setBody msg bytes).sdp = (Protocol.setBody msg' bytes).sdp := by
  unfold Protocol.setBody
  dsimp only
  rw [same.contentType typed]
  repeat' split
  · rfl
  · exact same.sdp
  · exact same.sdp

/-! A field that the heads agree on and no body changes is read alike. -/
theorem headReading {α : Type} {f : RtspMessage → α} (bodies : ∀ m b, f (Protocol.setBody m b) = f m)
    (h : Recased looked s s') (inside : lengthName ∈ looked)
    (agrees : ∀ msg msg', Reads looked msg msg' → f msg = f msg') :
    reading f (outcome rtspGrammar s) = reading f (outcome rtspGrammar s') := by
  rcases outcomePaired rtspGrammar h inside with same | ⟨n, paired⟩
  · rw [same]
  · have reads := agrees _ _ (headReads paired.header)
    have body : rtspGrammar.setBody = Protocol.setBody := rfl
    unfold outcome
    rw [paired.shape, paired.shape']
    dsimp only
    rw [paired.starts]
    split
    · unfold finish
      rw [paired.declared, paired.sizes, paired.header.size, body]
      dsimp only
      repeat' split
      all_goals simp only [reading, Except.map, bodies, reads]
    · simp only [reading, Except.map, reads]

theorem sdpSame (h : Recased looked s s') (inside : lengthName ∈ looked) (typed : ascii "Content-Type" ∈ looked)
    (counted : Counted s) :
    reading RtspMessage.sdp (outcome rtspGrammar s) = reading RtspMessage.sdp (outcome rtspGrammar s') := by
  rcases outcomePaired rtspGrammar h inside with same | ⟨n, paired⟩
  · rw [same]
  · have reads := headReads paired.header
    have body : rtspGrammar.setBody = Protocol.setBody := rfl
    have width : (s.take n).length = n := by rw [List.length_take, Nat.min_eq_left paired.inside]
    have behind := countedBehind h counted paired.shape paired.inside
    unfold outcome
    rw [paired.shape, paired.shape']
    dsimp only
    rw [paired.starts]
    split
    · unfold finish
      rw [← paired.declared, ← paired.sizes, ← paired.header.size, width, ← behind, body]
      dsimp only
      repeat' split
      all_goals simp only [reading, Except.map, reads.sdp, setBodySdp reads typed]
    · simp only [reading, Except.map, reads.sdp]

end

/-! Both parsers. -/

structure SameFraming (buf buf' : ByteBuffer) : Prop where
  rtsp : framing (Protocol.parse buf) = framing (Protocol.parse buf')
  http : framing (HttpMessage.parseRequest buf) = framing (HttpMessage.parseRequest buf')

structure SameBody (buf buf' : ByteBuffer) : Prop where
  rtsp : body rtspGrammar (Protocol.parse buf) = body rtspGrammar (Protocol.parse buf')
  http : body httpGrammar (HttpMessage.parseRequest buf) = body httpGrammar (HttpMessage.parseRequest buf')

structure SameReading (buf buf' : ByteBuffer) : Prop where
  cseq : reading RtspMessage.cseq (Protocol.parse buf) = reading RtspMessage.cseq (Protocol.parse buf')
  sessionId : reading RtspMessage.sessionId (Protocol.parse buf) = reading RtspMessage.sessionId (Protocol.parse buf')
  transport : reading RtspMessage.transport (Protocol.parse buf) = reading RtspMessage.transport (Protocol.parse buf')
  sdp : reading RtspMessage.sdp (Protocol.parse buf) = reading RtspMessage.sdp (Protocol.parse buf')

-- A field that is read alike when the lines with its name, and those of Content-Length, are the same.
def ReadAlike {α : Type} (name : Bytes) (f : RtspMessage → α) (buf buf' : ByteBuffer) : Prop :=
  Recased [lengthName, name] buf.content buf'.content →
    reading f (Protocol.parse buf) = reading f (Protocol.parse buf')

theorem spelledAlike (buf buf' : ByteBuffer) :
    (Recased [lengthName] buf.content buf'.content →
      SameFraming buf buf' ∧ (Counted buf.content → SameBody buf buf')) ∧
    ReadAlike (ascii "CSeq") RtspMessage.cseq buf buf' ∧
    ReadAlike (ascii "Session") RtspMessage.sessionId buf buf' ∧
    ReadAlike (ascii "Transport") RtspMessage.transport buf buf' ∧
    (Counted buf.content → ReadAlike (ascii "Content-Type") RtspMessage.sdp buf buf') := by
  have parses : ∀ {μ : Type} (g : Grammar μ) (b : ByteBuffer), MessageText.parse g b = outcome g b.content :=
    fun g b => parseOutcome g b
  have named (name : Bytes) : name ∈ [lengthName, name] := List.mem_cons_of_mem _ List.mem_cons_self
  refine ⟨fun h => ⟨⟨?_, ?_⟩, fun counted => ⟨?_, ?_⟩⟩, fun h => ?_, fun h => ?_, fun h => ?_, fun counted h => ?_⟩
  · rw [Protocol.parse, Protocol.parse, parses, parses]
    exact framingSame rtspGrammar h List.mem_cons_self
  · rw [HttpMessage.parseRequest, HttpMessage.parseRequest, parses, parses]
    exact framingSame httpGrammar h List.mem_cons_self
  · rw [Protocol.parse, Protocol.parse, parses, parses]
    exact bodySame rtspGrammar h List.mem_cons_self counted
  · rw [HttpMessage.parseRequest, HttpMessage.parseRequest, parses, parses]
    exact bodySame httpGrammar h List.mem_cons_self counted
  · rw [Protocol.parse, Protocol.parse, parses, parses]
    exact headReading (fun m b => (setBodyParts m b).1) h List.mem_cons_self fun _ _ reads => reads.cseq (named _)
  · rw [Protocol.parse, Protocol.parse, parses, parses]
    exact headReading (fun m b => (setBodyParts m b).2.1) h List.mem_cons_self
      fun _ _ reads => reads.sessionId (named _)
  · rw [Protocol.parse, Protocol.parse, parses, parses]
    exact headReading (fun m b => (setBodyParts m b).2.2) h List.mem_cons_self
      fun _ _ reads => reads.transport (named _)
  · rw [Protocol.parse, Protocol.parse, parses, parses]
    exact sdpSame h List.mem_cons_self (named _) counted

/-! One request whose only header line has the name. -/

def request (name : Bytes) : Bytes :=
  ascii "OPTIONS * RTSP/1.0" ++ crlf ++ (name ++ 58 :: ascii " 1" ++ crlf ++ ascii "\r\nx")

def received (name : Bytes) : ByteBuffer := (ByteBuffer.init 0).append (request name)

theorem receivedContent (name : Bytes) : (received name).content = request name := by
  rw [received, ByteBuffer.filledContent]

theorem requestRecased {looked : List Bytes} {name name' : Bytes} (ends : (58 : UInt8) ∉ name)
    (whole : find crlf (name ++ 58 :: ascii " 1") = none) (same : SameName looked name name') :
    Recased looked (received name).content (received name').content := by
  rw [receivedContent, receivedContent]
  exact .header (by decide) (.named ends whole same (.rest _))

theorem acceptAlike : SameFraming (received (ascii "Accept")) (received (ascii "ACCEPT")) ∧
    reading RtspMessage.cseq (Protocol.parse (received (ascii "Accept"))) =
      reading RtspMessage.cseq (Protocol.parse (received (ascii "ACCEPT"))) := by
  have differ : ∀ looked, (∀ x ∈ looked, ascii "Accept" ≠ x ∧ ascii "ACCEPT" ≠ x) →
      Recased looked (received (ascii "Accept")).content (received (ascii "ACCEPT")).content := fun looked apart =>
    requestRecased (by decide) (by decide)
      ⟨by decide, fun x inside => iff_of_false (apart x inside).1 (apart x inside).2⟩
  have alike := spelledAlike (received (ascii "Accept")) (received (ascii "ACCEPT"))
  exact ⟨(alike.1 (differ _ (by decide))).1, alike.2.1 (differ _ (by decide))⟩

/-! In lower case the length is not found, and the body is left as the next message. -/
theorem lengthMissed : ¬ ∀ buf buf' : ByteBuffer, Recased [] buf.content buf'.content →
    SameFraming buf buf' ∧ SameBody buf buf' ∧ SameReading buf buf' := by
  intro always
  have recased : Recased [] (received (ascii "Content-Length")).content
      (received (ascii "content-length")).content :=
    requestRecased (by decide) (by decide) ⟨by decide, nofun⟩
  have same := (always _ _ recased).1.http
  rw [HttpMessage.parseRequest, HttpMessage.parseRequest, parseOutcome, parseOutcome, receivedContent,
    receivedContent] at same
  exact absurd same (by decide +kernel)

end RtspRelay.HeaderCase
