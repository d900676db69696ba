import RtspRelay.Machine

/-! The descriptor table of an event loop: which events a descriptor is watched
for and which callbacks they run. A callback is a value of `κ`; `addFd` stores
it for the events first asked for. -/
namespace RtspRelay.EventLoop

-- kEventRead | kEventWrite | kEventError
structure Events where
  read : Bool
  write : Bool
  error : Bool
  deriving DecidableEq, Repr

def kEventRead : Events := ⟨true, false, false⟩
def kEventWrite : Events := ⟨false, true, false⟩
def kEventReadWrite : Events := ⟨true, true, false⟩

structure FdEntry (κ : Type) where
  events : Events
  readCb : Option κ
  writeCb : Option κ
  errorCb : Option κ
  deriving DecidableEq, Repr

abbrev FdTable (κ : Type) := AList (fun _ : Int => FdEntry κ)

variable {κ : Type}

def addFd (table : FdTable κ) (fd : Int) (events : Events) (cb : κ) : FdTable κ :=
  table.insert fd
    ⟨events, if events.read then some cb else none, if events.write then some cb else none,
      if events.error then some cb else none⟩

def modFd (table : FdTable κ) (fd : Int) (events : Events) : FdTable κ :=
  match table.lookup fd with
  | none => table
  | some entry => table.insert fd { entry with
      events := events
      readCb := if events.read && entry.readCb.isNone then entry.errorCb else entry.readCb }

def delFd (table : FdTable κ) (fd : Int) : FdTable κ := table.erase fd

def dispatch (table : FdTable κ) (fd : Int) (input output : Bool) : List (κ × Events) :=
  match table.lookup fd with
  | none => []
  | some entry =>
    (if input then entry.readCb.toList.map (·, kEventRead) else []) ++
    (if output then entry.writeCb.toList.map (·, kEventWrite) else [])

theorem modFdWriteCb (table : FdTable κ) (fd : Int) (events : Events) (other : Int) :
    ((modFd table fd events).lookup other).map FdEntry.writeCb =
      (table.lookup other).map FdEntry.writeCb := by
  unfold modFd
  cases found : table.lookup fd with
  | none => rfl
  | some entry =>
    rcases eq_or_ne other fd with rfl | differ
    · rw [AList.lookup_insert, found]
      rfl
    · rw [AList.lookup_insert_ne differ]

theorem modFdPresent (table : FdTable κ) (fd : Int) (events : Events) (other : Int) :
    ((modFd table fd events).lookup other).isSome = (table.lookup other).isSome := by
  have same := congrArg Option.isSome (modFdWriteCb table fd events other)
  rwa [Option.isSome_map, Option.isSome_map] at same

end RtspRelay.EventLoop
