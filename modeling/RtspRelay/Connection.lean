import RtspRelay.Buffer

/-! A non-blocking TCP connection: its descriptor, state and buffers, and what
the answers of `read` and `write` do to them. The bytes the socket has accepted
are kept beside the bytes still buffered. -/
namespace RtspRelay.Connection
open Machine Buffer

inductive State where
  | disconnected | connecting | connected | disconnecting
  deriving DecidableEq, Repr

-- A count is clipped to the bytes offered; a socket never takes 0 of them.
inductive WriteResult where
  | wrote (n : Nat) (positive : 0 < n)
  | again
  | error
  deriving DecidableEq

inductive ReadResult where
  | data (chunk : Bytes)
  | eof
  | again
  | error
  deriving DecidableEq

structure TcpConnection where
  fd : Int
  state : State
  inputBuf : ByteBuffer
  outputBuf : ByteBuffer
  written : Bytes
  shutWr : Bool
  deriving DecidableEq

inductive Effect where
  | none
  | enableWriting
  | failed
  deriving DecidableEq, Repr

namespace TcpConnection

-- The capacity a buffer starts with does not show in its content.
def create (fd : Int) : TcpConnection :=
  ⟨fd, .connected, ByteBuffer.init 0, ByteBuffer.init 0, [], false⟩

def connected (c : TcpConnection) : Bool := c.state = .connected

-- The bytes given to the socket and those waiting for it, in order.
def accepted (c : TcpConnection) : Bytes := c.written ++ c.outputBuf.content

def handleClose (c : TcpConnection) : TcpConnection := { c with state := .disconnected, fd := -1 }
def handleError (c : TcpConnection) : TcpConnection := { c with state := .disconnected, fd := -1 }

def buffered (c : TcpConnection) (rest : Bytes) : TcpConnection × Effect :=
  if rest = [] then (c, .none)
  else ({ c with outputBuf := c.outputBuf.append rest }, .enableWriting)

def sendInLoop (c : TcpConnection) (data : Bytes) (w : WriteResult) : TcpConnection × Effect :=
  if c.state ≠ .connected then (c, .none)
  else if 0 < c.outputBuf.readable then c.buffered data
  else match w with
    | .wrote n _ => { c with written := c.written ++ data.take n }.buffered (data.drop n)
    | .again => c.buffered data
    | .error => (c.handleError, .failed)

-- The write loop of handleWrite; an exhausted list is an EAGAIN.
def writeLoop : List WriteResult → TcpConnection → TcpConnection × Effect
  | [], c => (c, .none)
  | w :: rest, c =>
    if 0 < c.outputBuf.readable then
      match w with
      | .wrote n _ => writeLoop rest
        { c with written := c.written ++ c.outputBuf.content.take n
                 outputBuf := c.outputBuf.skip n }
      | .again => (c, .none)
      | .error => (c.handleError, .failed)
    else (c, .none)

def finish (c : TcpConnection) : TcpConnection :=
  if c.outputBuf.readable = 0 then { c with shutWr := true } else c

theorem finishKeeps (c : TcpConnection) : c.finish.state = c.state ∧ c.finish.accepted = c.accepted := by
  unfold finish
  split <;> exact ⟨rfl, rfl⟩

theorem readableEmpty {b : ByteBuffer} : b.readable = 0 ↔ b.content = [] := by
  rw [← b.contentLength, List.length_eq_zero_iff]

theorem bufferedAccepted (c : TcpConnection) (rest : Bytes) :
    (c.buffered rest).1.accepted = c.accepted ++ rest := by
  unfold buffered
  split
  · rename_i empty
    simp [empty]
  · simp [accepted]

theorem bufferedKeeps (c : TcpConnection) (rest : Bytes) :
    (c.buffered rest).1.fd = c.fd ∧ (c.buffered rest).1.state = c.state := by
  unfold buffered
  split <;> exact ⟨rfl, rfl⟩

theorem sendInput (c : TcpConnection) (data : Bytes) (w : WriteResult) :
    (c.sendInLoop data w).1.inputBuf = c.inputBuf := by
  unfold sendInLoop buffered
  cases w <;> (dsimp only; repeat' split) <;> rfl

/-! What a send does, by the state, the bytes that still wait and the answer of the write. -/
inductive SendStep (c : TcpConnection) (data : Bytes) : WriteResult → TcpConnection × Effect → Prop where
  | dropped {w} (apart : c.state ≠ .connected) : SendStep c data w (c, .none)
  | behind {w} (connected : c.state = .connected) (waiting : c.outputBuf.content ≠ []) :
      SendStep c data w (c.buffered data)
  | wrote {n positive} (connected : c.state = .connected) (empty : c.outputBuf.content = []) :
      SendStep c data (.wrote n positive) ({ c with written := c.written ++ data.take n }.buffered (data.drop n))
  | again (connected : c.state = .connected) (empty : c.outputBuf.content = []) :
      SendStep c data .again (c.buffered data)
  | failed (connected : c.state = .connected) (empty : c.outputBuf.content = []) :
      SendStep c data .error (c.handleError, .failed)

theorem sendSteps (c : TcpConnection) (data : Bytes) (w : WriteResult) :
    SendStep c data w (c.sendInLoop data w) := by
  unfold sendInLoop
  split
  · rename_i apart
    exact .dropped apart
  · rename_i still
    have connected : c.state = .connected := not_not.mp still
    split
    · rename_i some
      exact .behind connected fun empty => Nat.ne_of_gt some (readableEmpty.mpr empty)
    · rename_i nothing
      have empty : c.outputBuf.content = [] := readableEmpty.mp (Nat.eq_zero_of_not_pos nothing)
      cases w with
      | wrote n positive => exact .wrote connected empty
      | again => exact .again connected empty
      | error => exact .failed connected empty

theorem sendError {c : TcpConnection} (connected : c.state = .connected) (empty : c.outputBuf.content = [])
    (data : Bytes) : c.sendInLoop data .error = (c.handleError, .failed) := by
  have nothing : ¬ 0 < c.outputBuf.readable := by
    rw [readableEmpty.mpr empty]
    exact Nat.lt_irrefl 0
  rw [sendInLoop, if_neg (not_not.mpr connected), if_neg nothing]

theorem sendDescriptor (c : TcpConnection) (data : Bytes) (w : WriteResult) :
    (c.sendInLoop data w).1.fd = c.fd ∨ (c.sendInLoop data w).1.fd = -1 := by
  have step := sendSteps c data w
  generalize c.sendInLoop data w = out at step ⊢
  cases step with
  | dropped => exact .inl rfl
  | behind | wrote | again => exact .inl (bufferedKeeps _ _).1
  | failed => exact .inr rfl

theorem bufferedEffect (c : TcpConnection) (rest : Bytes) : (c.buffered rest).2 ≠ .failed := by
  unfold buffered
  split <;> nofun

theorem sendEffect {c : TcpConnection} {data : Bytes} {w : WriteResult} (works : w ≠ .error) :
    (c.sendInLoop data w).2 ≠ .failed := by
  have step := sendSteps c data w
  generalize c.sendInLoop data w = out at step ⊢
  cases step with
  | dropped => nofun
  | behind | wrote | again => exact bufferedEffect _ _
  | failed => exact absurd rfl works

/-! What a write leaves: the connection failed, or its state and descriptor kept. -/
def FailsOrKeeps (c : TcpConnection) (out : TcpConnection × Effect) : Prop :=
  (out.2 = .failed ∧ out.1.state = .disconnected ∧ out.1.fd = -1) ∨
    (out.2 ≠ .failed ∧ out.1.state = c.state ∧ out.1.fd = c.fd)

theorem bufferedKept (c : TcpConnection) (rest : Bytes) : FailsOrKeeps c (c.buffered rest) := by
  have kept := c.bufferedKeeps rest
  exact .inr ⟨bufferedEffect c rest, kept.2, kept.1⟩

theorem sendOutcome (c : TcpConnection) (data : Bytes) (w : WriteResult) :
    FailsOrKeeps c (c.sendInLoop data w) := by
  have step := sendSteps c data w
  generalize c.sendInLoop data w = out at step ⊢
  cases step with
  | dropped => exact .inr ⟨nofun, rfl, rfl⟩
  | behind | again => exact bufferedKept c data
  | @wrote n => exact bufferedKept { c with written := c.written ++ data.take n } (data.drop n)
  | failed => exact .inl ⟨rfl, rfl, rfl⟩

theorem writeOutcome (writes : List WriteResult) (c : TcpConnection) :
    FailsOrKeeps c (writeLoop writes c) := by
  induction writes generalizing c with
  | nil => exact .inr ⟨nofun, rfl, rfl⟩
  | cons w rest ih =>
    unfold writeLoop
    split
    · cases w with
      | wrote n positive => exact ih _
      | again => exact .inr ⟨nofun, rfl, rfl⟩
      | error => exact .inl ⟨rfl, rfl, rfl⟩
    · exact .inr ⟨nofun, rfl, rfl⟩

/-! A send on a connected socket that does not fail adds exactly its bytes, and
whatever it leaves in the output buffer comes with an enableWriting. -/
theorem sendWhole {c : TcpConnection} (connected : c.state = .connected) (data : Bytes)
    {w : WriteResult} (works : (c.sendInLoop data w).2 ≠ .failed) :
    (c.sendInLoop data w).1.accepted = c.accepted ++ data ∧
      (c.sendInLoop data w).1.state = .connected := by
  have step := sendSteps c data w
  generalize c.sendInLoop data w = out at step works ⊢
  cases step with
  | dropped apart => exact absurd connected apart
  | behind | again => exact ⟨bufferedAccepted c data, (bufferedKeeps c data).2.trans connected⟩
  | wrote _ empty =>
    refine ⟨?_, (bufferedKeeps _ _).2.trans connected⟩
    rw [bufferedAccepted]
    simp [accepted, empty]
  | failed => exact absurd rfl works

theorem sendAccepted {c : TcpConnection} (connected : c.state = .connected) (data : Bytes)
    {w : WriteResult} (works : w ≠ .error) :
    (c.sendInLoop data w).1.accepted = c.accepted ++ data ∧
      (c.sendInLoop data w).1.state = .connected :=
  sendWhole connected data (sendEffect works)

theorem bufferedLeaves {c : TcpConnection} {rest : Bytes}
    (empty : c.outputBuf.content = []) (left : (c.buffered rest).1.outputBuf.content ≠ []) :
    (c.buffered rest).2 = .enableWriting := by
  unfold buffered at left ⊢
  split
  · rename_i nothing
    rw [if_pos nothing] at left
    exact absurd empty left
  · rfl

theorem sendLeaves {c : TcpConnection} {data : Bytes} {w : WriteResult}
    (left : (c.sendInLoop data w).1.outputBuf.content ≠ []) (live : 0 ≤ (c.sendInLoop data w).1.fd) :
    (c.sendInLoop data w).2 = .enableWriting ∨ (c.outputBuf.content ≠ [] ∧ 0 ≤ c.fd) := by
  have step := sendSteps c data w
  generalize c.sendInLoop data w = out at step left live ⊢
  cases step with
  | dropped => exact .inr ⟨left, live⟩
  | behind _ waiting =>
    rw [(bufferedKeeps c data).1] at live
    exact .inr ⟨waiting, live⟩
  | wrote _ empty | again _ empty => exact .inl (bufferedLeaves empty left)
  | failed => exact absurd live (show ¬ (0 : Int) ≤ -1 by decide)

/-! The write loop moves bytes from the buffer to the socket and adds none. -/
theorem writeLoopAccepted (results : List WriteResult) (c : TcpConnection) :
    (writeLoop results c).1.accepted = c.accepted := by
  induction results generalizing c with
  | nil => rfl
  | cons w rest ih =>
    unfold writeLoop
    split
    · cases w with
      | wrote n positive =>
        dsimp only
        rw [ih]
        simp [accepted]
      | again => rfl
      | error => rfl
    · rfl

theorem writeLoopLeaves (results : List WriteResult) (c : TcpConnection)
    (left : (writeLoop results c).1.outputBuf.content ≠ []) (live : 0 ≤ (writeLoop results c).1.fd) :
    c.outputBuf.content ≠ [] ∧ 0 ≤ c.fd := by
  induction results generalizing c with
  | nil => exact ⟨left, live⟩
  | cons w rest ih =>
    unfold writeLoop at left live
    split at left
    · rename_i some
      rw [if_pos some] at live
      cases w with
      | wrote n positive =>
        have before := ih _ left live
        refine ⟨fun empty => before.1 ?_, before.2⟩
        simp [empty]
      | again => exact ⟨left, live⟩
      | error => exact absurd live (show ¬ (0 : Int) ≤ -1 by decide)
    · rename_i none
      rw [if_neg none] at live
      exact ⟨left, live⟩

end TcpConnection
end RtspRelay.Connection
