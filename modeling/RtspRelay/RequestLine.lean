import RtspRelay.RoundTrip

/-! A request line as the parser splits it. Whatever stands in the place of the URL, it is
read up to the first space. -/
namespace RtspRelay.RequestLine
open Machine Buffer ByteSearch MessageText MessageFraming Protocol RoundTrip

structure RequestRead (method : RtspMethod) (url : Bytes) (msg : RtspMessage) : Prop where
  type : msg.type = .request
  method : msg.method = method
  url : msg.url = url

section
variable {method : RtspMethod} {u : Bytes}

theorem requestStart (fresh : (32 : UInt8) ∉ u) (version : Bytes) :
    startLine (methodToString method ++ ascii " " ++ u ++ ascii " " ++ version) rtspGrammar.fresh =
      .ok (true, { type := .request, method := method, url := u, version := version }) := by
  have parts := threePartsPrinted (methodFresh (.inr rfl) method) fresh version
  have other : (methodToString method ++ ascii " " ++ u ++ ascii " " ++ version).take 5 ≠
      ascii "RTSP/" := by
    rw [List.append_assoc, List.append_assoc, List.append_assoc]
    exact methodNotResponse method _
  unfold startLine
  rw [substrOk (Nat.zero_le _), List.drop_zero]
  simp only [bind, Except.bind, if_neg other, parts, parseMethodToString]
  rfl

theorem fieldsRequest (fs : List (Bytes × Bytes)) {msg : RtspMessage} (h : RequestRead method u msg) :
    RequestRead method u (fs.foldl (fun m f => field m f.1 f.2) msg) := by
  rw [fieldsRead]
  exact ⟨h.type, h.method, h.url⟩

theorem bodyRequest {msg : RtspMessage} (h : RequestRead method u msg) (body : Bytes) :
    RequestRead method u (setBody msg body) := by
  unfold setBody
  dsimp only
  repeat' split
  all_goals exact ⟨h.type, h.method, h.url⟩

theorem headRequest {header more : Bytes} {k : Nat} (ended : find crlf header = some k)
    (line : header.take k = methodToString method ++ ascii " " ++ u ++ ascii " " ++ more)
    (fresh : (32 : UInt8) ∉ u) :
    (head rtspGrammar header).1 = true ∧ RequestRead method u (head rtspGrammar header).2 := by
  have started : rtspGrammar.startLine (header.take k) rtspGrammar.fresh =
      .ok (true, { type := .request, method := method, url := u, version := more }) := by
    rw [line]
    exact requestStart fresh more
  unfold head
  rw [ended]
  dsimp only
  rw [started]
  dsimp only
  rw [if_pos rfl]
  exact ⟨rfl, fieldsRequest _ ⟨rfl, rfl, rfl⟩⟩

-- The header block ends behind the request line, and the line has a second space.
structure Cut (method : RtspMethod) (behind u : Bytes) (header : Bytes) : Prop where
  shape : block (methodToString method ++ 32 :: behind) = .header header
  line : ∃ more k, k + (methodToString method ++ [32]).length + 2 ≤ header.length ∧
    find crlf behind = some k ∧ behind.take k = u ++ 32 :: more
  fresh : (32 : UInt8) ∉ u

theorem requestCut {behind : Bytes} {out : Parsed RtspMessage}
    (parsed : outcome rtspGrammar (methodToString method ++ 32 :: behind) = .ok out) (ok : out.ok = true) :
    ∃ header u, Cut method behind u header ∧ RequestRead method u out.msg := by
  have text : methodToString method ++ 32 :: behind = methodToString method ++ [32] ++ behind := by simp
  have fresh : (13 : UInt8) ∉ methodToString method ++ [32] := by
    simp only [List.mem_append, not_or]
    exact ⟨methodFresh (.inl rfl) method, by decide⟩
  obtain ⟨header, framed⟩ := outcomeFramed rtspGrammar parsed ok
  obtain ⟨slice, _⟩ := blockHeader framed.shape
  obtain ⟨line, began, accepted⟩ : ∃ line, startOf header = some line ∧ Accepts line := by
    have started := framed.started
    unfold Started at started
    split at started
    · exact started.elim
    · exact ⟨_, by assumption, started⟩
  obtain ⟨lineEnd, ended, rfl⟩ := Option.map_eq_some_iff.mp began
  have inside := (findOccurs ended).2
  have whole : find crlf (methodToString method ++ 32 :: behind) = some lineEnd := by
    have later := findAppend ended ((methodToString method ++ 32 :: behind).drop header.length)
    rwa [← List.take_append_drop header.length (methodToString method ++ 32 :: behind), ← slice]
  rw [text, crlf, findAfter fresh, ← crlf] at whole
  obtain ⟨k, first, rfl⟩ := Option.map_eq_some_iff.mp whole
  have line : header.take (k + (methodToString method ++ [32]).length) =
      methodToString method ++ [32] ++ behind.take k := by
    have cut : header.take (k + (methodToString method ++ [32]).length) =
        (methodToString method ++ 32 :: behind).take (k + (methodToString method ++ [32]).length) := by
      rw [slice, List.take_take, Nat.min_eq_left (by omega)]
    rw [cut, text, Nat.add_comm, List.take_length_add_append]
  rw [line, Accepts, List.count_append, List.count_append] at accepted
  have plain : (methodToString method).count 32 = 0 := List.count_eq_zero.mpr (methodFresh (.inr rfl) method)
  have one : List.count (32 : UInt8) [32] = 1 := rfl
  have some_ : (32 : UInt8) ∈ behind.take k := List.count_pos_iff.mp (by omega)
  obtain ⟨u, more, split, plain⟩ := List.eq_append_cons_of_mem some_
  have parts : header.take (k + (methodToString method ++ [32]).length) =
      methodToString method ++ ascii " " ++ u ++ ascii " " ++ more := by
    rw [line, split]
    simp [ascii]
  refine ⟨header, u, ⟨framed.shape, ⟨more, k, inside, first, split⟩, plain⟩, ?_⟩
  have read := (headRequest ended parts plain).2
  rw [framed.message]
  repeat' split
  · exact read
  · exact bodyRequest read _

/-! A URL that is read back whole has no space and no end of a line. -/
theorem cutWhole {url rest header : Bytes} (h : Cut method (url ++ 32 :: rest) url header) :
    (32 : UInt8) ∉ url ∧ find crlf url = none := by
  obtain ⟨more, k, _, first, split⟩ := h.line
  have front := firstPiece (by decide) first
  rw [split] at front
  exact ⟨h.fresh, findWithin front⟩

theorem cutPlain {url rest u header : Bytes} (plain : (32 : UInt8) ∉ url)
    (h : Cut method (url ++ 32 :: rest) u header) : u = url := by
  obtain ⟨more, k, _, first, split⟩ := h.line
  have whole := List.take_append_drop k (url ++ 32 :: rest)
  rw [split, List.append_assoc, List.cons_append] at whole
  exact splitUnique h.fresh plain whole
end

end RtspRelay.RequestLine
