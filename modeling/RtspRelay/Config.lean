import Mathlib.Logic.Relation
import RtspRelay.PrintedText
import RtspRelay.General.Trimming

/-! The configuration file: sections and `key = value` lines. The section is what the
lines in front of a line have left; only assignments inside [server] count. -/
namespace RtspRelay.Config
open Machine ByteSearch PrintedText

structure ServerConfig where
  rtspPort : UInt16 := 8554
  httpPort : UInt16 := 18080
  ioThreads : Int := 4
  backlog : Int := 1024
  maxConnections : Nat := 2000
  maxSources : Nat := 500
  statsIntervalSec : Int := 10
  deriving DecidableEq, Repr

def isBlank (b : UInt8) : Bool := b == 32 || b == 9 || b == 13 || b == 10

def trim (s : Bytes) : Bytes := Trimming.trim isBlank s

-- `std::getline` until it fails; `line` is what has been read of the next one.
def linesFrom (line : Bytes) : Bytes → List Bytes
  | [] => if line = [] then [] else [line]
  | b :: rest => if b = 10 then line :: linesFrom [] rest else linesFrom (line ++ [b]) rest

def lines (content : Bytes) : List Bytes := linesFrom [] content

structure Parsing where
  cfg : ServerConfig
  section_ : Bytes
  deriving DecidableEq, Repr

def assign (cfg : ServerConfig) (key val : Bytes) : ServerConfig :=
  if key = ascii "rtsp_port" then { cfg with rtspPort := .ofInt (atoi val) }
  else if key = ascii "http_port" then { cfg with httpPort := .ofInt (atoi val) }
  else if key = ascii "io_threads" then { cfg with ioThreads := atoi val }
  else if key = ascii "backlog" then { cfg with backlog := atoi val }
  else if key = ascii "max_connections" then { cfg with maxConnections := sizeT (atoll val) }
  else if key = ascii "max_sources" then { cfg with maxSources := sizeT (atoll val) }
  else if key = ascii "stats_interval_sec" then { cfg with statsIntervalSec := atoi val }
  else cfg

def parseTrimmed (s : Parsing) (line : Bytes) : Parsing :=
  match line with
  | [] => s
  | first :: _ =>
    if first = 35 then s
    else if first = 91 then
      match find [93] line with
      | some close => { s with section_ := trim ((line.drop 1).take (close - 1)) }
      | none => s
    else
      match find [61] line with
      | none => s
      | some eq =>
        let key := trim (line.take eq)
        let val := trim (line.drop (eq + 1))
        if s.section_ = ascii "server" then { s with cfg := assign s.cfg key val } else s

def parseLine (s : Parsing) (line : Bytes) : Parsing := parseTrimmed s (trim line)

def parseString (content : Bytes) : ServerConfig := ((lines content).foldl parseLine ⟨{}, []⟩).cfg

/-! ### Lines -/

-- Nothing, or all of it in lines that end.
def Whole (before : Bytes) : Prop := before = [] ∨ ∃ t, before = t ++ [10]

def Opens (after : Bytes) : Prop := after = [] ∨ ∃ t, after = 10 :: t

theorem linesFromBreak (line t rest : Bytes) :
    linesFrom line (t ++ 10 :: rest) = linesFrom line (t ++ [10]) ++ lines rest := by
  induction t generalizing line with
  | nil => rfl
  | cons b t ih =>
    simp only [List.cons_append, linesFrom]
    split
    · rw [ih, List.cons_append]
    · exact ih _

theorem linesWhole {before : Bytes} (whole : Whole before) (rest : Bytes) :
    lines (before ++ rest) = lines before ++ lines rest := by
  rcases whole with rfl | ⟨t, rfl⟩
  · rfl
  · rw [List.append_assoc]
    exact linesFromBreak [] t rest

theorem linesFromFresh {l : Bytes} (fresh : (10 : UInt8) ∉ l) (line rest : Bytes) :
    linesFrom line (l ++ rest) = linesFrom (line ++ l) rest := by
  induction l generalizing line with
  | nil => rw [List.nil_append, List.append_nil]
  | cons b l ih =>
    obtain ⟨other, later⟩ := List.ne_and_not_mem_of_not_mem_cons fresh
    rw [List.cons_append, linesFrom, if_neg (fun same => other same.symm), ih later, List.append_assoc]
    rfl

theorem linesLine {l : Bytes} (fresh : (10 : UInt8) ∉ l) (rest : Bytes) :
    lines (l ++ 10 :: rest) = l :: lines rest := by
  rw [lines, linesFromFresh fresh, linesFrom, if_pos rfl]
  rfl

theorem linesLast {l : Bytes} (fresh : (10 : UInt8) ∉ l) (some : l ≠ []) : lines l = [l] := by
  have read := linesFromFresh fresh [] []
  rw [List.append_nil, List.nil_append] at read
  rw [lines, read, linesFrom, if_neg some]

-- The lines behind a line, which ends with the text or with the character that opens `after`.
theorem linesOpen {after : Bytes} (opens : Opens after) :
    ∃ rest, ∀ l, (10 : UInt8) ∉ l → l ≠ [] → lines (l ++ after) = l :: rest := by
  rcases opens with rfl | ⟨t, rfl⟩
  · exact ⟨[], fun l fresh some => by rw [List.append_nil, linesLast fresh some]⟩
  · exact ⟨lines t, fun l fresh _ => linesLine fresh t⟩

/-! ### One line -/

def Header (line : Bytes) : Prop := (trim line).head? = some 91 ∧ (93 : UInt8) ∈ line

def keys : List Bytes :=
  [ascii "rtsp_port", ascii "http_port", ascii "io_threads", ascii "backlog", ascii "max_connections",
    ascii "max_sources", ascii "stats_interval_sec"]

theorem assignUnknown {key : Bytes} (unknown : key ∉ keys) (cfg : ServerConfig) (val : Bytes) :
    assign cfg key val = cfg := by
  simp only [keys, List.mem_cons, List.not_mem_nil, or_false, not_or] at unknown
  obtain ⟨a, b, c, d, e, f, g⟩ := unknown
  rw [assign, if_neg a, if_neg b, if_neg c, if_neg d, if_neg e, if_neg f, if_neg g]

-- What an assignment does where it is one.
def assigned (s : Parsing) (key val : Bytes) : Parsing :=
  if (trim key).head? = some 35 then s
  else if s.section_ = ascii "server" then { s with cfg := assign s.cfg (trim key) (trim val) } else s

theorem parseTrimmedKey (s : Parsing) {k : Bytes} (v : Bytes) (fresh : (61 : UInt8) ∉ k) (other : k.head? ≠ some 91) :
    parseTrimmed s (k ++ 61 :: v) =
      if k.head? = some 35 then s
      else if s.section_ = ascii "server" then { s with cfg := assign s.cfg (trim k) (trim v) } else s := by
  have found := firstSplit fresh v
  have behind : (k ++ 61 :: v).drop (k.length + 1) = v := by
    rw [← List.drop_drop, List.drop_left]
    rfl
  cases k with
  | nil => rfl
  | cons first rest =>
    rw [List.head?_cons] at other ⊢
    have notHeader : first ≠ 91 := fun same => other (congrArg some same)
    rw [List.cons_append] at found behind ⊢
    rw [parseTrimmed, if_neg notHeader, found]
    simp only [behind, Option.some.injEq]
    rw [← List.cons_append, List.take_left]

theorem trimKey (key val : Bytes) :
    trim (key ++ 61 :: val) = key.dropWhile isBlank ++ 61 :: val.rdropWhile isBlank :=
  Trimming.trimAround (by decide) key val

theorem parseKey (s : Parsing) {key : Bytes} (val : Bytes) (fresh : (61 : UInt8) ∉ key)
    (other : (trim key).head? ≠ some 91) : parseLine s (key ++ 61 :: val) = assigned s key val := by
  have front : (61 : UInt8) ∉ key.dropWhile isBlank := fun inside => fresh ((List.dropWhile_sublist _).mem inside)
  have first : (trim key).head? = (key.dropWhile isBlank).head? := Trimming.trimHead key
  have left : trim (key.dropWhile isBlank) = trim key := Trimming.trimOfLeft key
  have right : trim (val.rdropWhile isBlank) = trim val := Trimming.trimOfRight val
  rw [first] at other
  rw [parseLine, trimKey, parseTrimmedKey s _ front other, assigned, first, left, right]

theorem headerParsed {line : Bytes} (first : (trim line).head? = some 91) (s : Parsing) :
    parseLine s line = match find [93] (trim line) with
      | some close => { s with section_ := trim (((trim line).drop 1).take (close - 1)) }
      | none => s := by
  rw [parseLine]
  obtain ⟨rest, shape⟩ := List.head?_eq_some_iff.mp first
  rw [shape]
  rfl

-- A line that sets nothing.
inductive Idle (line : Bytes) : Prop where
  | blank : (∀ b ∈ line, isBlank b = true) → Idle line
  | comment : (trim line).head? = some 35 → Idle line
  | noAssignment : (61 : UInt8) ∉ line → ¬Header line → Idle line
  | unknownKey (key val : Bytes) : line = key ++ 61 :: val → (61 : UInt8) ∉ key → ¬Header line → trim key ∉ keys →
      Idle line

theorem headerlessParsed {line : Bytes} (no : ¬Header line) (first : (trim line).head? = some 91) (s : Parsing) :
    parseLine s line = s := by
  have absent : (93 : UInt8) ∉ trim line := fun inside => no ⟨first, Trimming.trimMember inside⟩
  rw [headerParsed first, findSingletonNone absent]

theorem parseIdle {line : Bytes} (idle : Idle line) (s : Parsing) : parseLine s line = s := by
  cases idle with
  | blank all =>
    have empty : trim line = [] := Trimming.trimBlank all
    rw [parseLine, empty]
    rfl
  | comment first =>
    obtain ⟨rest, shape⟩ := List.head?_eq_some_iff.mp first
    rw [parseLine, shape]
    rfl
  | noAssignment fresh no =>
    by_cases first : (trim line).head? = some 91
    · exact headerlessParsed no first s
    · have absent : find [61] (trim line) = none :=
        findSingletonNone fun inside => fresh (Trimming.trimMember inside)
      rw [parseLine]
      revert absent first
      cases trim line with
      | nil => exact fun _ _ => rfl
      | cons b rest =>
        intro first absent
        have notHeader : b ≠ 91 := fun same => first (congrArg some same)
        simp only [parseTrimmed, if_neg notHeader, absent, ite_self]
  | unknownKey key val shape fresh no unknown =>
    by_cases first : (trim line).head? = some 91
    · exact headerlessParsed no first s
    · have other : (trim key).head? ≠ some 91 := by
        intro opens
        have same : (trim key).head? = (key.dropWhile isBlank).head? := Trimming.trimHead key
        apply first
        rw [shape, trimKey, List.head?_append, ← same, opens]
        rfl
      rw [shape, parseKey s val fresh other, assigned, assignUnknown unknown]
      repeat' split
      all_goals rfl

/-! ### Numbers in front of a comment -/

-- Text behind a number that is no part of it.
structure Behind (t : Bytes) : Prop where
  digit : ∀ b ∈ t.head?, isDigit b = false
  solid : ∃ rest, t.dropWhile isSpace = 35 :: rest

theorem digitsValueBehind {t : Bytes} (behind : Behind t) (s : Bytes) : digitsValue (s ++ t) = digitsValue s := by
  rw [digitsValue, digitsValue]
  congr 1
  induction s with
  | nil =>
    cases t with
    | nil => rfl
    | cons b t =>
      rw [List.nil_append, List.takeWhile_cons, behind.digit b rfl]
      rfl
  | cons b s ih => rw [List.cons_append, List.takeWhile_cons, List.takeWhile_cons, ih]

theorem strtollBehind {t : Bytes} (behind : Behind t) (s : Bytes) : strtoll (s ++ t) = strtoll s := by
  rw [strtoll, strtoll, List.dropWhile_append]
  cases front : s.dropWhile isSpace with
  | nil =>
    obtain ⟨rest, shape⟩ := behind.solid
    rw [List.isEmpty_nil, if_pos rfl, shape]
    rfl
  | cons b rest =>
    have inner := digitsValueBehind behind rest
    have outer := digitsValueBehind behind (b :: rest)
    rw [List.isEmpty_cons, if_neg Bool.noConfusion, List.cons_append]
    rw [List.cons_append] at outer
    simp only [inner, outer]

theorem blankKind {b : UInt8} (blank : isBlank b = true) : isSpace b = true ∧ isDigit b = false := by
  simp only [isBlank, Bool.or_eq_true, beq_iff_eq] at blank
  rcases blank with ((rfl | rfl) | rfl) | rfl <;> decide

theorem behindComment {w : Bytes} (blank : ∀ b ∈ w, isBlank b = true) (c : Bytes) : Behind (w ++ 35 :: c) := by
  refine ⟨fun b first => ?_, c, ?_⟩
  · cases w with
    | nil => cases first; decide
    | cons a w => cases first; exact (blankKind (blank b List.mem_cons_self)).2
  · rw [Trimming.dropLeft fun b inside => (blankKind (blank b inside)).1]
    rfl

theorem commentTrimmed (val c : Bytes) : ∃ t, Behind t ∧ trim (val ++ 32 :: 35 :: c) = trim val ++ t := by
  have solid : isBlank 35 = false := by decide
  have shape : val ++ 32 :: 35 :: c = (val ++ [32]) ++ 35 :: c := by rw [List.append_assoc]; rfl
  have whole : trim (val ++ 32 :: 35 :: c) = (val ++ [32]).dropWhile isBlank ++ 35 :: c.rdropWhile isBlank := by
    rw [shape]
    exact Trimming.trimAround solid _ c
  rw [whole, List.dropWhile_append]
  split
  next empty =>
    have none : trim val = [] := by
      rw [trim, Trimming.trim, List.isEmpty_iff.mp empty]
      rfl
    exact ⟨_, behindComment (List.forall_mem_nil _) (c.rdropWhile isBlank), by rw [none]; rfl⟩
  next =>
    have split : trim val ++ (val.dropWhile isBlank).rtakeWhile isBlank = val.dropWhile isBlank :=
      List.rdropWhile_append_rtakeWhile
    have blank : ∀ b ∈ (val.dropWhile isBlank).rtakeWhile isBlank ++ [32], isBlank b = true := by
      intro b inside
      rcases List.mem_append.mp inside with tail | one
      · exact List.mem_rtakeWhile_imp tail
      · rw [List.mem_singleton.mp one]
        decide
    refine ⟨_, behindComment blank (c.rdropWhile isBlank), ?_⟩
    rw [← List.append_assoc, ← List.append_assoc, split]

theorem commentStrtoll (val c : Bytes) : strtoll (trim (val ++ 32 :: 35 :: c)) = strtoll (trim val) := by
  obtain ⟨t, behind, same⟩ := commentTrimmed val c
  rw [same, strtollBehind behind]

theorem assignNumber {val val' : Bytes} (same : strtoll val = strtoll val') (cfg : ServerConfig) (key : Bytes) :
    assign cfg key val = assign cfg key val' := by
  simp only [assign, atoi, atoll, same]

/-! ### Edits that change nothing -/

def Pad (w : Bytes) : Prop := ∀ b ∈ w, b = 32 ∨ b = 9

-- The line of an assignment, which is not a section's.
structure KeyLine (key val : Bytes) : Prop where
  keyBreak : (10 : UInt8) ∉ key
  keyEquals : (61 : UInt8) ∉ key
  valBreak : (10 : UInt8) ∉ val
  noSection : (trim key).head? ≠ some 91

inductive Edit : Bytes → Bytes → Prop where
  | insert {before line after : Bytes} : Whole before → (10 : UInt8) ∉ line → Idle line →
      Edit (before ++ after) (before ++ (line ++ 10 :: after))
  | pad {before key val after p q r s : Bytes} : Whole before → Opens after → KeyLine key val →
      Pad p → Pad q → Pad r → Pad s →
      Edit (before ++ ((key ++ 61 :: val) ++ after)) (before ++ ((p ++ (key ++ q) ++ 61 :: (r ++ (val ++ s))) ++ after))
  | comment {before key val after c : Bytes} : Whole before → Opens after → KeyLine key val → (10 : UInt8) ∉ c →
      Edit (before ++ ((key ++ 61 :: val) ++ after)) (before ++ ((key ++ 61 :: (val ++ 32 :: 35 :: c)) ++ after))

theorem parseInserted {before line after : Bytes} (whole : Whole before) (fresh : (10 : UInt8) ∉ line)
    (idle : Idle line) : parseString (before ++ (line ++ 10 :: after)) = parseString (before ++ after) := by
  rw [parseString, parseString, linesWhole whole, linesWhole whole, linesLine fresh, List.foldl_append,
    List.foldl_append, List.foldl_cons, parseIdle idle]

theorem parseReplaced {before after l l' : Bytes} (whole : Whole before) (opens : Opens after)
    (fresh : (10 : UInt8) ∉ l) (fresh' : (10 : UInt8) ∉ l') (some : l ≠ []) (some' : l' ≠ [])
    (same : ∀ s, parseLine s l' = parseLine s l) :
    parseString (before ++ (l' ++ after)) = parseString (before ++ (l ++ after)) := by
  obtain ⟨rest, split⟩ := linesOpen opens
  rw [parseString, parseString, linesWhole whole, linesWhole whole, split l fresh some, split l' fresh' some',
    List.foldl_append, List.foldl_append, List.foldl_cons, List.foldl_cons, same]

theorem padBlank {w : Bytes} (pad : Pad w) : ∀ b ∈ w, isBlank b = true := by
  intro b inside
  rcases pad b inside with rfl | rfl <;> decide

theorem padFresh {w : Bytes} (pad : Pad w) {c : UInt8} (other : c ≠ 32 ∧ c ≠ 9) : c ∉ w := by
  intro inside
  rcases pad c inside with same | same
  · exact other.1 same
  · exact other.2 same

theorem trimPadded {p s : Bytes} (left : Pad p) (right : Pad s) (x : Bytes) : trim (p ++ (x ++ s)) = trim x := by
  have front : trim (p ++ (x ++ s)) = trim (x ++ s) := Trimming.trimLeft (padBlank left) _
  rw [front]
  exact Trimming.trimRight x (padBlank right)

theorem paddedFresh {p s x : Bytes} (left : Pad p) (right : Pad s) {c : UInt8} (other : c ≠ 32 ∧ c ≠ 9)
    (fresh : c ∉ x) : c ∉ p ++ (x ++ s) := by
  simp only [List.mem_append, not_or]
  exact ⟨padFresh left other, fresh, padFresh right other⟩

theorem keyLineFresh {key val : Bytes} (keyBreak : (10 : UInt8) ∉ key) (valBreak : (10 : UInt8) ∉ val) :
    (10 : UInt8) ∉ key ++ 61 :: val := by
  rw [List.mem_append, List.mem_cons, not_or, not_or]
  exact ⟨keyBreak, by decide, valBreak⟩

theorem keyLineSome (key val : Bytes) : key ++ 61 :: val ≠ [] :=
  List.append_ne_nil_of_right_ne_nil _ (List.cons_ne_nil _ _)

theorem parseEdited {c c' : Bytes} (edit : Edit c c') : parseString c' = parseString c := by
  cases edit with
  | insert whole fresh idle => exact parseInserted whole fresh idle
  | pad whole opens line left keyRight valLeft right =>
    rename_i before key val after p q r s
    have keyTrim := trimPadded left keyRight key
    have valTrim := trimPadded valLeft right val
    refine parseReplaced whole opens (keyLineFresh line.keyBreak line.valBreak)
      (keyLineFresh (paddedFresh left keyRight (by decide) line.keyBreak)
        (paddedFresh valLeft right (by decide) line.valBreak)) (keyLineSome _ _) (keyLineSome _ _) fun s => ?_
    rw [parseKey s val line.keyEquals line.noSection,
      parseKey s _ (paddedFresh left keyRight (by decide) line.keyEquals) (by rw [keyTrim]; exact line.noSection),
      assigned, assigned, keyTrim, valTrim]
  | comment whole opens line fresh =>
    rename_i before key val after c
    have valFresh : (10 : UInt8) ∉ val ++ 32 :: 35 :: c := by
      simp only [List.mem_append, List.mem_cons, not_or]
      exact ⟨line.valBreak, by decide, by decide, fresh⟩
    refine parseReplaced whole opens (keyLineFresh line.keyBreak line.valBreak) (keyLineFresh line.keyBreak valFresh)
      (keyLineSome _ _) (keyLineSome _ _) fun s => ?_
    rw [parseKey s val line.keyEquals line.noSection, parseKey s _ line.keyEquals line.noSection, assigned, assigned,
      assignNumber (commentStrtoll val c)]

theorem parseEdits {c c' : Bytes} (edits : Relation.ReflTransGen Edit c c') : parseString c' = parseString c := by
  induction edits with
  | refl => rfl
  | tail _ edit ih => exact (parseEdited edit).trans ih

/-! ### Sections and assignments -/

inductive Field where
  | rtspPort | httpPort | ioThreads | backlog | maxConnections | maxSources | statsIntervalSec
  deriving DecidableEq, Repr

def Field.key : Field → Bytes
  | .rtspPort => ascii "rtsp_port"
  | .httpPort => ascii "http_port"
  | .ioThreads => ascii "io_threads"
  | .backlog => ascii "backlog"
  | .maxConnections => ascii "max_connections"
  | .maxSources => ascii "max_sources"
  | .statsIntervalSec => ascii "stats_interval_sec"

def value (cfg : ServerConfig) : Field → Int
  | .rtspPort => cfg.rtspPort.toNat
  | .httpPort => cfg.httpPort.toNat
  | .ioThreads => cfg.ioThreads
  | .backlog => cfg.backlog
  | .maxConnections => cfg.maxConnections
  | .maxSources => cfg.maxSources
  | .statsIntervalSec => cfg.statsIntervalSec

-- How the field's text is read.
def Field.read : Field → Bytes → Int
  | .rtspPort, val | .httpPort, val => (UInt16.ofInt (atoi val)).toNat
  | .maxConnections, val | .maxSources, val => sizeT (atoll val)
  | _, val => atoi val

def Field.InRange : Field → Int → Prop
  | .rtspPort, v | .httpPort, v => 0 ≤ v ∧ v ≤ 65535
  | .maxConnections, v | .maxSources, v => 0 ≤ v ∧ v < 2 ^ 63
  | _, v => -intMax - 1 ≤ v ∧ v ≤ intMax

structure Literal where
  negative : Bool
  digits : Bytes
  some : digits ≠ []
  decimal : ∀ b ∈ digits, isDigit b = true

def Literal.text (l : Literal) : Bytes := if l.negative then 45 :: l.digits else l.digits

def Literal.value (l : Literal) : Int := if l.negative then -digitsValue l.digits else digitsValue l.digits

structure Assignment where
  field : Field
  number : Literal
  inRange : field.InRange number.value

inductive Item where
  | section_ (name : Bytes) (nameBreak : (10 : UInt8) ∉ name) (closed : (93 : UInt8) ∉ name)
  | assign (a : Assignment)

def Item.line : Item → Bytes
  | .section_ name _ _ => 91 :: (name ++ [93])
  | .assign a => a.field.key ++ 61 :: a.number.text

def text (items : List Item) : Bytes := items.flatMap fun item => item.line ++ [10]

-- The assignments inside a [server] section; `server` is whether one is open.
def inServer : Bool → List Item → List Assignment
  | _, [] => []
  | _, .section_ name _ _ :: rest => inServer (decide (trim name = ascii "server")) rest
  | server, .assign a :: rest => if server then a :: inServer server rest else inServer server rest

def lastValue (f : Field) (as : List Assignment) (default : Int) : Int :=
  match (as.filter fun a => a.field = f).getLast? with
  | some a => a.number.value
  | none => default

theorem assignField (cfg : ServerConfig) (f g : Field) (val : Bytes) :
    value (assign cfg f.key val) g = if f = g then f.read val else value cfg g := by
  cases f <;> cases g <;> rfl

theorem literalRead (l : Literal) (low : -2 ^ 63 ≤ l.value) (high : l.value < 2 ^ 63) : strtoll l.text = l.value := by
  obtain ⟨negative, digits, some, decimal⟩ := l
  cases negative with
  | false => exact strtollDigits some decimal (Int.le_sub_one_of_lt high)
  | true =>
    have solid : ¬isSpace 45 = true := by decide
    change strtoll (45 :: digits) = -digitsValue digits
    rw [strtoll, List.dropWhile_cons_of_neg solid]
    exact Int.max_eq_right low

theorem portRead {v : Int} (low : 0 ≤ v) (high : v ≤ 65535) : ((UInt16.ofInt v).toNat : Int) = v := by
  rw [UInt16.ofInt, UInt16.toNat_ofNat']
  omega

theorem atoiLiteral (l : Literal) (low : -intMax - 1 ≤ l.value) (high : l.value ≤ intMax) : atoi l.text = l.value := by
  have bound : intMax = 2147483647 := rfl
  rw [atoi, literalRead l (by omega) (by omega), int32Small low high]

theorem fieldRead (a : Assignment) : a.field.read a.number.text = a.number.value := by
  obtain ⟨field, number, inRange⟩ := a
  have bound : intMax = 2147483647 := rfl
  have port (range : 0 ≤ number.value ∧ number.value ≤ 65535) :
      ((UInt16.ofInt (atoi number.text)).toNat : Int) = number.value := by
    rw [atoiLiteral number (by omega) (by omega)]
    exact portRead range.1 range.2
  have size (range : 0 ≤ number.value ∧ number.value < 2 ^ 63) : (sizeT (atoll number.text) : Int) = number.value := by
    rw [atoll, literalRead number (by omega) range.2]
    exact sizeTNonneg range.1 (by omega)
  cases field with
  | rtspPort => exact port inRange
  | httpPort => exact port inRange
  | maxConnections => exact size inRange
  | maxSources => exact size inRange
  | ioThreads => exact atoiLiteral number inRange.1 inRange.2
  | backlog => exact atoiLiteral number inRange.1 inRange.2
  | statsIntervalSec => exact atoiLiteral number inRange.1 inRange.2

/-! The lines of a section and of an assignment, as they are parsed. -/

theorem trimSolid {s : Bytes} (solid : ∀ b ∈ s, isBlank b = false) : trim s = s := Trimming.trimSolid solid

theorem literalSolid (l : Literal) : ∀ b ∈ l.text, isBlank b = false := by
  have digit (b : UInt8) (inside : b ∈ l.digits) : isBlank b = false := by
    have kind := l.decimal b inside
    by_contra blank
    rw [Bool.not_eq_false] at blank
    rw [(blankKind blank).2] at kind
    exact Bool.noConfusion kind
  rw [Literal.text]
  split
  · exact List.forall_mem_cons.mpr ⟨by decide, digit⟩
  · exact digit

theorem keyShape (f : Field) : trim f.key = f.key ∧ (61 : UInt8) ∉ f.key ∧ f.key.head? ≠ some 91 ∧
    f.key.head? ≠ some 35 ∧ (10 : UInt8) ∉ f.key := by
  cases f <;> decide +kernel

theorem parseAssignment (s : Parsing) (a : Assignment) :
    parseLine s (Item.assign a).line =
      if s.section_ = ascii "server" then { s with cfg := assign s.cfg a.field.key a.number.text } else s := by
  obtain ⟨same, fresh, notSection, notComment, -⟩ := keyShape a.field
  have shown := trimSolid (literalSolid a.number)
  rw [Item.line, parseKey s _ fresh (by rw [same]; exact notSection), assigned, same, if_neg notComment, shown]

theorem parseSection (s : Parsing) {name : Bytes} (nameBreak : (10 : UInt8) ∉ name) (closed : (93 : UInt8) ∉ name) :
    parseLine s (Item.section_ name nameBreak closed).line = { s with section_ := trim name } := by
  have whole : trim (91 :: (name ++ [93])) = (91 :: name) ++ 93 :: [] := by
    have outer : trim ([] ++ 91 :: (name ++ [93])) = [] ++ 91 :: (name ++ 93 :: []).rdropWhile isBlank :=
      Trimming.trimAround (by decide) [] _
    have inner : (name ++ 93 :: []).rdropWhile isBlank = name ++ 93 :: [] := Trimming.dropBehind (by decide) name []
    rw [inner] at outer
    exact outer
  have fresh : (93 : UInt8) ∉ 91 :: name := by
    rw [List.mem_cons, not_or]
    exact ⟨by decide, closed⟩
  rw [Item.line, headerParsed (by rw [whole]; rfl), whole, firstSplit fresh]
  simp only [List.cons_append, List.length_cons, List.drop_succ_cons, List.drop_zero, Nat.add_sub_cancel,
    List.take_left]

theorem lineFresh (item : Item) : (10 : UInt8) ∉ item.line := by
  cases item with
  | section_ name nameBreak closed =>
    rw [Item.line, List.mem_cons, List.mem_append, List.mem_singleton, not_or, not_or]
    exact ⟨by decide, nameBreak, by decide⟩
  | assign a =>
    have number : (10 : UInt8) ∉ a.number.text := fun inside =>
      absurd (literalSolid a.number 10 inside) (by decide)
    exact keyLineFresh (keyShape a.field).2.2.2.2 number

theorem textLines (items : List Item) : lines (text items) = items.map Item.line := by
  induction items with
  | nil => rfl
  | cons item items ih =>
    have shape : text (item :: items) = item.line ++ 10 :: text items := by
      rw [text, List.flatMap_cons, List.append_assoc]
      rfl
    rw [shape, linesLine (lineFresh item), ih, List.map_cons]

theorem lastBehind (f : Field) (a : Assignment) (as : List Assignment) (default : Int) :
    lastValue f (a :: as) default = lastValue f as (if a.field = f then a.number.value else default) := by
  rw [lastValue, lastValue, List.filter_cons]
  by_cases same : a.field = f
  · simp only [same, decide_true, if_true, List.getLast?_cons]
    cases (as.filter fun a => a.field = f).getLast? <;> rfl
  · simp only [same, decide_false, Bool.false_eq_true, if_false]

-- By induction on the items, from any section and any values so far.
theorem itemsParsed (items : List Item) (f : Field) (s : Parsing) :
    value ((items.map Item.line).foldl parseLine s).cfg f =
      lastValue f (inServer (decide (s.section_ = ascii "server")) items) (value s.cfg f) := by
  induction items generalizing s with
  | nil => rfl
  | cons item items ih =>
    rw [List.map_cons, List.foldl_cons, ih]
    cases item with
    | section_ name nameBreak closed => rw [parseSection, inServer]
    | assign a =>
      rw [parseAssignment, inServer]
      by_cases server : s.section_ = ascii "server"
      · simp only [server, decide_true, if_true, lastBehind, assignField, fieldRead]
      · simp only [server, decide_false, Bool.false_eq_true, if_false]

theorem configParsed :
    (∀ c c', Relation.ReflTransGen Edit c c' → parseString c' = parseString c) ∧
      ∀ items f, value (parseString (text items)) f = lastValue f (inServer false items) (value {} f) := by
  refine ⟨fun _ _ => parseEdits, fun items f => ?_⟩
  have none : decide ([] = ascii "server") = false := by decide
  rw [parseString, textLines, itemsParsed, none]

example : parseString (ascii "[ server ]\r\n\nrtsp_port = 9000   # RTSP\nbacklog=-5 #\n[log]\nhttp_port=1") =
    { rtspPort := 9000, backlog := -5 } := by decide +kernel

end RtspRelay.Config
