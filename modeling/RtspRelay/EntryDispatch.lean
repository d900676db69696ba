import RtspRelay.General.Transition
import RtspRelay.EventLoop

/-! The loop's pass over a batch of ready descriptors. The iterator that the lookup
of a descriptor gives is used again after the read callback has run, and a callback
may change the table in any way. -/
namespace RtspRelay.EntryDispatch
open EventLoop Transition

variable {κ : Type}

-- `erased fd`: how many entries of `fd` have been erased.
structure Entries (κ : Type) where
  table : FdTable κ
  erased : Int → Nat

inductive Change (κ : Type) where
  | addFd (fd : Int) (events : Events) (cb : κ)
  | modFd (fd : Int) (events : Events)
  | delFd (fd : Int)

-- A ready descriptor, and what its callbacks will do to the table.
structure Ready (κ : Type) where
  fd : Int
  input : Bool
  output : Bool
  reading : List (Change κ)
  writing : List (Change κ)

-- An assignment to a present entry leaves its iterators valid.
def change (s : Entries κ) : Change κ → Entries κ
  | .addFd fd events cb => { s with table := addFd s.table fd events cb }
  | .modFd fd events => { s with table := modFd s.table fd events }
  | .delFd fd => ⟨delFd s.table fd, Function.update s.erased fd (s.erased fd + 1)⟩

structure Iterator where
  fd : Int
  erased : Nat

inductive Fault where
  | erasedEntry
  deriving DecidableEq, Repr

def find (s : Entries κ) (fd : Int) : Option Iterator :=
  (s.table.lookup fd).map fun _ => ⟨fd, s.erased fd⟩

-- `it->second`
def second (s : Entries κ) (it : Iterator) : Except Fault (FdEntry κ) :=
  match s.table.lookup it.fd with
  | some entry => if s.erased it.fd = it.erased then .ok entry else .error .erasedEntry
  | none => .error .erasedEntry

-- `if (asked) if (cb) cb(fd, ..)`
def invoke (s : Entries κ) (it : Iterator) (asked : Bool) (cb : FdEntry κ → Option κ)
    (changes : List (Change κ)) : Except Fault (Entries κ) :=
  if asked then do
    let entry ← second s it
    .ok (if (cb entry).isSome then changes.foldl change s else s)
  else .ok s

def handleReady (s : Entries κ) (e : Ready κ) : Except Fault (Entries κ) :=
  match find s e.fd with
  | none => .ok s
  | some it => do
    let s ← invoke s it e.input FdEntry.readCb e.reading
    invoke s it e.output FdEntry.writeCb e.writing

def handleBatch (s : Entries κ) (batch : List (Ready κ)) : Except Fault (Entries κ) :=
  batch.foldlM handleReady s

-- The table behind an event that was handled.
def next (s : Entries κ) (e : Ready κ) : Entries κ := orStay handleReady s e

def Deletes (fd : Int) : Change κ → Prop
  | .delFd other => other = fd
  | _ => False

-- A read callback does not delete its own entry when a write is due on it.
def KeepsEntry (s : Entries κ) (e : Ready κ) : Prop :=
  e.input = true → e.output = true → ∀ entry, s.table.lookup e.fd = some entry →
    entry.readCb.isSome = true → ∀ c ∈ e.reading, ¬ Deletes e.fd c

def Handled (s : Entries κ) (e : Ready κ) : Prop := ∃ after, handleReady s e = .ok after

/-! Only an erasure of the descriptor makes its iterator invalid. -/

def Present (s : Entries κ) (fd : Int) : Prop := (s.table.lookup fd).isSome = true

theorem changeKeeps {s : Entries κ} {fd : Int} {c : Change κ} (apart : ¬ Deletes fd c)
    (present : Present s fd) : Present (change s c) fd ∧ (change s c).erased fd = s.erased fd := by
  cases c with
  | addFd other events cb =>
    refine ⟨?_, rfl⟩
    rcases eq_or_ne fd other with rfl | differ
    · simp [Present, change, addFd]
    · simpa [Present, change, addFd, AList.lookup_insert_ne differ] using present
  | modFd other events => exact ⟨(modFdPresent s.table other events fd).trans present, rfl⟩
  | delFd other =>
    have differ : fd ≠ other := fun same => apart same.symm
    refine ⟨?_, Function.update_of_ne differ _ _⟩
    simpa [Present, change, delFd, AList.lookup_erase_ne differ] using present

theorem changesKeep {s : Entries κ} {fd : Int} {changes : List (Change κ)}
    (apart : ∀ c ∈ changes, ¬ Deletes fd c) (present : Present s fd) :
    Present (changes.foldl change s) fd ∧ (changes.foldl change s).erased fd = s.erased fd := by
  induction changes generalizing s with
  | nil => exact ⟨present, rfl⟩
  | cons c rest ih =>
    obtain ⟨here, later⟩ := List.forall_mem_cons.mp apart
    obtain ⟨still, same⟩ := changeKeeps here present
    obtain ⟨last, whole⟩ := ih later still
    exact ⟨last, whole.trans same⟩

theorem changeErased (s : Entries κ) (fd : Int) (c : Change κ) :
    s.erased fd ≤ (change s c).erased fd ∧ (Deletes fd c → s.erased fd < (change s c).erased fd) := by
  cases c with
  | addFd | modFd => exact ⟨Nat.le_refl _, nofun⟩
  | delFd other =>
    rcases eq_or_ne fd other with rfl | differ
    · simp [change]
    · have apart : ¬ Deletes fd (.delFd other : Change κ) := fun same => differ same.symm
      simp [change, Function.update_of_ne differ, apart]

theorem changesErased {s : Entries κ} {fd : Int} {changes : List (Change κ)} :
    s.erased fd ≤ (changes.foldl change s).erased fd ∧ ((∃ c ∈ changes, Deletes fd c) →
      s.erased fd < (changes.foldl change s).erased fd) := by
  induction changes generalizing s with
  | nil => exact ⟨Nat.le_refl _, nofun⟩
  | cons c rest ih =>
    obtain ⟨grows, deletes⟩ := changeErased s fd c
    obtain ⟨later, lost⟩ := @ih (change s c)
    refine ⟨grows.trans later, ?_⟩
    rintro ⟨d, inside, gone⟩
    rcases List.mem_cons.mp inside with rfl | behind
    · exact Nat.lt_of_lt_of_le (deletes gone) later
    · exact Nat.lt_of_le_of_lt grows (lost ⟨d, behind, gone⟩)

theorem secondValid {s : Entries κ} {it : Iterator} :
    (∃ entry, second s it = .ok entry) ↔ Present s it.fd ∧ s.erased it.fd = it.erased := by
  unfold second Present
  cases s.table.lookup it.fd with
  | none => simp
  | some entry => by_cases same : s.erased it.fd = it.erased <;> simp [same]

theorem invokeOk {s : Entries κ} {it : Iterator} {asked : Bool} {cb : FdEntry κ → Option κ}
    {changes : List (Change κ)} : (∃ after, invoke s it asked cb changes = .ok after) ↔
      (asked = true → Present s it.fd ∧ s.erased it.fd = it.erased) := by
  rw [← secondValid]
  unfold invoke
  cases asked with
  | false => exact iff_of_true ⟨s, rfl⟩ nofun
  | true => cases second s it <;> simp [bind, Except.bind]

-- The table behind the read callback.
def afterRead (s : Entries κ) (e : Ready κ) (entry : FdEntry κ) : Entries κ :=
  if e.input = true ∧ entry.readCb.isSome = true then e.reading.foldl change s else s

theorem handleReadyFound {s : Entries κ} {e : Ready κ} {entry : FdEntry κ}
    (found : s.table.lookup e.fd = some entry) : handleReady s e =
      invoke (afterRead s e entry) ⟨e.fd, s.erased e.fd⟩ e.output FdEntry.writeCb e.writing := by
  have valid : second s ⟨e.fd, s.erased e.fd⟩ = .ok entry := by
    unfold second
    dsimp only
    rw [found]
    exact if_pos rfl
  have read : invoke s ⟨e.fd, s.erased e.fd⟩ e.input FdEntry.readCb e.reading =
      .ok (afterRead s e entry) := by
    unfold invoke afterRead
    rw [valid]
    cases e.input <;> simp [bind, Except.bind]
  unfold handleReady find
  rw [found, Option.map_some]
  dsimp only
  rw [read]
  rfl

/-! An event is handled unless its read callback erases the entry that the test of
the write callback reads. -/
theorem handledExact (s : Entries κ) (e : Ready κ) : Handled s e ↔ KeepsEntry s e := by
  unfold Handled KeepsEntry
  cases found : s.table.lookup e.fd with
  | none =>
    refine iff_of_true ⟨s, ?_⟩ (fun _ _ _ none => nomatch none)
    unfold handleReady find
    rw [found]
    rfl
  | some entry =>
    have present : Present s e.fd := by rw [Present, found]; rfl
    rw [handleReadyFound found, invokeOk]
    simp only [Option.some.injEq, forall_eq', afterRead]
    by_cases runs : e.input = true ∧ entry.readCb.isSome = true
    · rw [if_pos runs]
      constructor
      · intro valid _ due _ c inside deletes
        have lost := (changesErased (s := s)).2 ⟨c, inside, deletes⟩
        exact absurd (valid due).2 (Nat.ne_of_gt lost)
      · intro keeps due
        exact changesKeep (keeps runs.1 due runs.2) present
    · rw [if_neg runs]
      exact iff_of_true (fun _ => ⟨present, rfl⟩) fun input _ read => absurd ⟨input, read⟩ runs

theorem entriesPresent (s : Entries κ) (batch : List (Ready κ)) :
    (∃ after, handleBatch s batch = .ok after) ↔ Throughout next KeepsEntry s batch := by
  rw [handleBatch, foldlMOk]
  exact throughoutExact (I := fun _ => True) (fun _ _ => id) (fun s e _ => handledExact s e) trivial batch

/-! The peer closes a connection that waits to write: the read callback is
handleClose, which deletes the entry. -/

def watched : Entries Unit := ⟨modFd (addFd ∅ 7 kEventRead ()) 7 kEventReadWrite, fun _ => 0⟩

def closing : Ready Unit := ⟨7, true, true, [.delFd 7], []⟩

theorem closedWhileWritable : ¬ ∀ (s : Entries Unit) (batch : List (Ready Unit)),
    ∃ after, handleBatch s batch = .ok after := by
  intro always
  have handled := always watched [closing]
  rw [handleBatch, foldlMOk] at handled
  have keeps := (handledExact watched closing).mp handled.1
  exact keeps rfl rfl _ rfl rfl (.delFd 7) (by simp [closing]) rfl

end RtspRelay.EntryDispatch
