import RtspRelay.PrintedText
import RtspRelay.Session
import RtspRelay.Source

/-! The parts of an upstream URL: what parseUpstreamUrl and extractStreamPath make of a
URL put together from its parts. -/
namespace RtspRelay.UpstreamUrl
open Machine ByteSearch PrintedText Session Source

inductive Port where
  | absent
  | empty
  | number (digits : Bytes) (some : digits ≠ []) (decimal : ∀ b ∈ digits, isDigit b = true)
      (low : 1 ≤ digitsValue digits) (high : digitsValue digits ≤ 65535)

def Port.text : Port → Bytes
  | .absent => []
  | .empty => [58]
  | .number digits _ _ _ _ => 58 :: digits

-- The port of RTSP where the URL gives none.
def Port.value : Port → UInt16
  | .number digits _ _ _ _ => .ofInt (digitsValue digits)
  | _ => 554

structure Url where
  scheme : Bytes
  schemeColon : (58 : UInt8) ∉ scheme
  host : Bytes
  named : host ≠ []
  hostColon : (58 : UInt8) ∉ host
  hostSlash : (47 : UInt8) ∉ host
  port : Port
  absPath : Option Bytes
  rooted : ∀ p ∈ absPath, p.head? = some 47

def authority (u : Url) : Bytes := u.host ++ u.port.text

def Url.text (u : Url) : Bytes := u.scheme ++ (ascii "://" ++ (authority u ++ u.absPath.getD []))

def Url.path (u : Url) : Bytes := u.absPath.getD (ascii "/")

theorem rfindNone {c : UInt8} {s : Bytes} (absent : c ∉ s) : rfind c s = none := by
  have reversed : c ∉ s.reverse := fun inside => absent (List.mem_reverse.mp inside)
  rw [rfind, List.idxOf?_eq_none_iff.mpr reversed]
  rfl

theorem indexBehind {c : UInt8} {t : Bytes} (fresh : c ∉ t) (s : Bytes) : (t ++ c :: s).idxOf? c = some t.length := by
  induction t with
  | nil => rw [List.nil_append, List.idxOf?_cons, if_pos (beq_self_eq_true c)]; rfl
  | cons b t ih =>
    obtain ⟨other, later⟩ := List.ne_and_not_mem_of_not_mem_cons fresh
    have skipped : ¬(b == c) = true := fun same => other (beq_iff_eq.mp same).symm
    rw [List.cons_append, List.idxOf?_cons, if_neg skipped, ih later]
    rfl

theorem rfindLast {c : UInt8} (s : Bytes) {t : Bytes} (fresh : c ∉ t) : rfind c (s ++ c :: t) = some s.length := by
  have reversed : (s ++ c :: t).reverse = t.reverse ++ c :: s.reverse := by
    rw [List.reverse_append, List.reverse_cons, List.append_assoc]
    rfl
  have place : (s ++ c :: t).length - 1 - t.reverse.length = s.length := by
    rw [List.length_append, List.length_cons, List.length_reverse]
    omega
  rw [rfind, reversed, indexBehind (fun inside => fresh (List.mem_reverse.mp inside)), Option.map_some, place]

/-! ### The two splitters -/

theorem schemeFound (u : Url) : find (ascii "://") u.text = some u.scheme.length := by
  have separator : ascii "://" = 58 :: ascii "//" := by decide
  rw [Url.text, separator, findAfter u.schemeColon]
  simp only [List.cons_append, find, List.isPrefixOf_iff_prefix, List.cons_prefix_cons, List.prefix_append, and_self,
    if_true, Option.map_some, Nat.zero_add]

theorem behindScheme (u : Url) : u.text.drop (u.scheme.length + 3) = authority u ++ u.absPath.getD [] := by
  rw [Url.text, ← List.drop_drop, List.drop_left]
  rfl

theorem authoritySlash (u : Url) : (47 : UInt8) ∉ authority u := by
  rw [authority, List.mem_append, not_or]
  refine ⟨u.hostSlash, ?_⟩
  cases u.port with
  | absent => exact List.not_mem_nil
  | empty => decide
  | number digits some decimal low high =>
    rw [Port.text, List.mem_cons, not_or]
    exact ⟨by decide, digitsFresh decimal (by decide)⟩

-- The first slash behind the scheme opens the path.
theorem pathFound (u : Url) :
    find [47] (authority u ++ u.absPath.getD []) = u.absPath.map fun _ => (authority u).length := by
  have fresh := authoritySlash u
  cases path : u.absPath with
  | none =>
    rw [Option.getD_none, List.append_nil]
    exact findSingletonNone fresh
  | some p =>
    obtain ⟨rest, rfl⟩ := List.head?_eq_some_iff.mp (u.rooted p path)
    rw [Option.getD_some]
    exact firstSplit fresh rest

theorem streamPathSplit (u : Url) : extractStreamPath u.text = u.path := by
  rw [extractStreamPath, schemeFound]
  simp only [findFrom, behindScheme, pathFound]
  cases path : u.absPath with
  | none => rw [Url.path, path]; rfl
  | some p =>
    simp only [Option.map_some]
    rw [Nat.add_comm, ← List.drop_drop, behindScheme, List.drop_left, Url.path, path]
    rfl

-- The number behind the last colon; with nothing behind it that is 0.
def Port.read : Port → UInt16
  | .empty => 0
  | port => port.value

theorem portSplit (u : Url) (path : Bytes) :
    (match rfind 58 (authority u) with
      | some colon => ((authority u).take colon, UInt16.ofInt (atoi ((authority u).drop (colon + 1))), path)
      | none => (authority u, 554, path)) = (u.host, u.port.read, path) := by
  rw [authority]
  cases u.port with
  | absent =>
    rw [Port.text, List.append_nil, rfindNone u.hostColon]
    rfl
  | empty =>
    rw [Port.text, rfindLast u.host List.not_mem_nil]
    simp only [List.take_left, ← List.drop_drop, List.drop_left]
    rfl
  | number digits some decimal low high =>
    have value : atoi digits = digitsValue digits := atoiDigits some decimal (by rw [intMax]; omega)
    rw [Port.text, rfindLast u.host (digitsFresh decimal (by decide))]
    simp only [List.take_left, ← List.drop_drop, List.drop_left, List.drop_succ_cons, List.drop_zero, value]
    rfl

theorem parsedUrl (u : Url) : parseUpstreamUrl u.text = (u.host, u.port.read, u.path) := by
  rw [parseUpstreamUrl, schemeFound]
  simp only [behindScheme, pathFound]
  cases path : u.absPath with
  | none =>
    simp only [Option.map_none, Option.getD_none, List.append_nil, Url.path, path]
    exact portSplit u (ascii "/")
  | some p =>
    simp only [Option.map_some, Option.getD_some, List.take_left, List.drop_left, Url.path, path]
    exact portSplit u p

theorem portRead (port : Port) : port.read = port.value ↔ port ≠ .empty := by
  cases port with
  | absent => exact iff_of_true rfl Port.noConfusion
  | empty => exact iff_of_false (by decide) (fun other => other rfl)
  | number digits some decimal low high => exact iff_of_true rfl Port.noConfusion

theorem urlSplitExact (u : Url) :
    (parseUpstreamUrl u.text = (u.host, u.port.value, u.path) ∧
      (parseUpstreamUrl u.text).2.2 = extractStreamPath u.text) ↔ u.port ≠ .empty := by
  rw [parsedUrl, streamPathSplit, ← portRead]
  constructor
  · rintro ⟨same, -⟩
    exact (Prod.mk.inj (Prod.mk.inj same).2).1
  · intro same
    rw [same]
    exact ⟨rfl, rfl⟩

-- rtsp://h:/
def colonOnly : Url :=
  { scheme := ascii "rtsp", schemeColon := by decide, host := ascii "h", named := by decide, hostColon := by decide
    hostSlash := by decide, port := .empty, absPath := some (ascii "/"), rooted := by decide }

theorem emptyPortZero :
    ¬∀ u : Url, parseUpstreamUrl u.text = (u.host, u.port.value, u.path) ∧
      (parseUpstreamUrl u.text).2.2 = extractStreamPath u.text := by
  intro all
  have same := (all colonOnly).1
  rw [parsedUrl] at same
  exact absurd (Prod.mk.inj (Prod.mk.inj same).2).1 (by decide)

end RtspRelay.UpstreamUrl
