import RtspRelay.ChannelSeparation
import RtspRelay.HandshakeCaller

/-! The bytes of the upstream connections of a source. A callback that reads nothing
from a connection leaves what waits in its buffer; one that reads hands on the
payloads of the whole frames and leaves what is behind them. -/
namespace RtspRelay.SourceReads
open Machine Buffer Protocol Source World Decoders StreamDecoder Exchange ChannelSeparation Transition
open Connection (WriteResult ReadResult)
open HandshakeCaller (sendBuffer openedBuffer)

def payload : StreamUnit → Option Bytes
  | .interleaved _ data => some data
  | .message _ => none

def payloads (bytes : Bytes) : List Bytes := (decode interleavedDecoder bytes).1.filterMap payload

def waiting (w : World) (c : ConnId) : Bytes := (w.conns c).tcp.inputBuf.content

/-! What a callback does to the buffers, but for the connection it reads from. No
number is given twice, and a new connection starts with nothing. -/
structure Keeps (from_ : Option ConnId) (w after : World) : Prop where
  waiting : ∀ c < w.nextConn, from_ ≠ some c → waiting after c = waiting w c
  allocated : w.nextConn ≤ after.nextConn
  fresh : ∀ c, w.nextConn ≤ c → c < after.nextConn → SourceReads.waiting after c = []
  live : ∀ c, after.Live c → w.Live c ∨ w.nextConn ≤ c ∧ c < after.nextConn

variable {from_ : Option ConnId}

theorem keepsSame {w after : World} (conns : after.conns = w.conns) (next : after.nextConn = w.nextConn) :
    Keeps from_ w after := by
  refine ⟨fun c _ _ => by rw [waiting, waiting, conns], next ▸ Nat.le_refl _, fun c old new => ?_, fun c live => ?_⟩
  · rw [next] at new
    exact absurd new (Nat.not_lt.mpr old)
  · rw [World.Live, conns] at live
    exact .inl live

theorem keepsRefl (w : World) : Keeps from_ w w := keepsSame rfl rfl

theorem keepsTrans {w mid after : World} (first : Keeps from_ w mid) (last : Keeps none mid after) :
    Keeps from_ w after := by
  refine ⟨fun c own apart => ?_, Nat.le_trans first.allocated last.allocated, fun c old new => ?_, fun c live => ?_⟩
  · exact (last.waiting c (Nat.lt_of_lt_of_le own first.allocated) nofun).trans (first.waiting c own apart)
  · rcases Nat.lt_or_ge c mid.nextConn with before | later
    · exact (last.waiting c before nofun).trans (first.fresh c old before)
    · exact last.fresh c later new
  · rcases last.live c live with before | ⟨old, new⟩
    · exact (first.live c before).imp id fun between =>
        ⟨between.1, Nat.lt_of_lt_of_le between.2 last.allocated⟩
    · exact .inr ⟨Nat.le_trans first.allocated old, new⟩

theorem keepsFrom {w v after : World} (h : Keeps from_ v after) (conns : v.conns = w.conns)
    (next : v.nextConn = w.nextConn) : Keeps from_ w after := by
  refine ⟨fun c own apart => ?_, next ▸ h.allocated, fun c old new => h.fresh c (next ▸ old) new, fun c live => ?_⟩
  · rw [h.waiting c (next ▸ own) apart, waiting, waiting, conns]
  · have before := h.live c live
    rwa [World.Live, conns, next] at before

theorem setConnKeeps (w : World) (i : ConnId) {up : Upstream}
    (same : up.tcp.inputBuf = (w.conns i).tcp.inputBuf)
    (only : up.registered = true → 0 ≤ up.tcp.fd → w.Live i) : Keeps none w (w.setConn i up) := by
  refine ⟨fun c _ _ => ?_, Nat.le_refl _, fun c old new => absurd new (Nat.not_lt.mpr old),
    fun c live => .inl (setConnLive only c live)⟩
  unfold waiting
  rcases eq_or_ne c i with rfl | differ
  · rw [setConnSame, same]
  · rw [setConnOther _ differ]

theorem sendRequestKeeps (w : World) (request : Nat → RtspMessage) : Keeps none w (w.sendRequest request) := by
  have live := (sendRequestSteady w request).live
  unfold World.sendRequest at live ⊢
  dsimp only at live ⊢
  split at live
  · exact keepsSame rfl rfl
  · rename_i i _
    refine ⟨fun c _ _ => congrArg ByteBuffer.content (sendBuffer _ i _ c), ?_, fun c old new => ?_,
      fun c open_ => .inl (live c open_)⟩
    all_goals unfold World.send at *; dsimp only at *
    · split <;> exact Nat.le_refl _
    · split at new <;> exact absurd new (Nat.not_lt.mpr old)

theorem handleResponseKeeps (w : World) (resp : RtspMessage) : Keeps none w (w.handleResponse resp) := by
  have noted : Keeps none w (w.noteSession resp) := by
    unfold World.noteSession
    split <;> exact keepsSame rfl rfl
  have channels : ∀ w : World, Keeps none w (w.noteChannels resp) := by
    intro w
    unfold World.noteChannels
    split <;> exact keepsSame rfl rfl
  unfold World.handleResponse
  split
  · split <;> exact keepsSame rfl rfl
  · refine keepsTrans noted ?_
    unfold World.advance
    split
    · exact keepsFrom (sendRequestKeeps _ _) rfl rfl
    · exact keepsFrom (sendRequestKeeps _ _) rfl rfl
    · exact keepsTrans (channels _) (keepsFrom (sendRequestKeeps _ _) rfl rfl)
    · exact keepsRefl _

theorem openConnKeeps (w : World) (d : ClientId) : Keeps none w (w.openConn d) := by
  have others : ∀ c, c ≠ w.nextConn → (w.openConn d).conns c = w.conns c := fun c differ => by
    simp only [World.openConn, World.setClient, setConnOther _ differ]
  have opened : (w.openConn d).conns w.nextConn = ⟨.create w.nextConn, d, false⟩ := by
    simp only [World.openConn, World.setClient, setConnSame]
  refine ⟨fun c own _ => ?_, Nat.le_succ _, fun c old new => ?_, fun c live => ?_⟩
  · rw [waiting, others c (Nat.ne_of_lt own)]
    rfl
  · rw [Nat.le_antisymm (Nat.le_of_lt_succ new) old, waiting, opened]
    exact ByteBuffer.initContent 0
  · rcases eq_or_ne c w.nextConn with rfl | differ
    · rw [World.Live, opened] at live
      exact absurd live.1 Bool.false_ne_true
    · rw [World.Live, others c differ] at live
      exact .inl live

theorem registerKeeps {w v : World} (h : Keeps none w v) {i : ConnId} (old : w.nextConn ≤ i)
    (new : i < v.nextConn) : Keeps none w (v.register i) := by
  have same : ∀ c, waiting (v.register i) c = waiting v c := fun c => by
    unfold waiting World.register
    rcases eq_or_ne c i with rfl | differ
    · rw [setConnSame]
    · rw [setConnOther _ differ]
  refine ⟨fun c own apart => (same c).trans (h.waiting c own apart), h.allocated,
    fun c old new => (same c).trans (h.fresh c old new), fun c live => ?_⟩
  rcases eq_or_ne c i with rfl | differ
  · exact .inr ⟨old, new⟩
  · rw [World.Live, World.register, setConnOther _ differ] at live
    exact h.live c live

theorem handleConnectKeeps (w : World) (d : ClientId) : Keeps none w (w.handleConnect d) := by
  have asked : Keeps none (w.openConn d) ((w.openConn d).onConnect w.nextConn) := by
    unfold World.onConnect World.sendOptions
    exact keepsFrom (sendRequestKeeps _ _) rfl rfl
  exact registerKeeps (keepsTrans (openConnKeeps w d) asked) (Nat.le_refl _)
    (Nat.lt_of_lt_of_le (Nat.lt_succ_self _) asked.allocated)

theorem connectKeeps (w : World) (d : ClientId) (result : ConnectResult) :
    Keeps none w (w.connect d result) := by
  cases result with
  | immediate => exact keepsFrom (handleConnectKeeps _ d) rfl rfl
  | resolveFailed | socketFailed | refused | inProgress => exact keepsSame rfl rfl

theorem dropClientKeeps (w : World) : Keeps none w w.dropClient := by
  unfold World.dropClient
  split <;> exact keepsSame rfl rfl

theorem upstreamKeeps (w : World) (result : ConnectResult) : Keeps none w (w.connectToUpstream result) := by
  unfold World.connectToUpstream
  split
  · exact keepsRefl w
  · have made : Keeps none w w.dropClient.makeClient := keepsTrans (dropClientKeeps w) (keepsSame rfl rfl)
    exact keepsTrans made (connectKeeps _ _ result)

theorem fireKeeps (w : World) (n : Nat) (result : ConnectResult) : Keeps none w (w.fire n result) := by
  unfold World.fire
  split
  · exact keepsRefl w
  · rename_i t _
    cases t with
    | connect d => exact keepsFrom (connectKeeps _ d result) rfl rfl
    | reconnect => exact keepsFrom (upstreamKeeps _ result) rfl rfl
    | retry404 =>
      rw [World.expire]
      split
      · exact keepsSame rfl rfl
      · exact keepsFrom (upstreamKeeps _ result) rfl rfl

theorem endKeeps (w : World) (i : ConnId) : Keeps none w (w.read i .eof) := by
  unfold World.read
  split
  · have ended : Keeps none w (w.endConn i) := setConnKeeps w i rfl nofun
    refine keepsTrans ended ?_
    unfold World.clientClosed World.scheduleReconnect
    dsimp only
    split <;> exact keepsSame rfl rfl
  · exact keepsRefl w

theorem failKeeps (w : World) (i : ConnId) : Keeps none w (w.read i .error) := by
  unfold World.read
  split
  · exact setConnKeeps w i rfl nofun
  · exact keepsRefl w

theorem stopKeeps (w : World) (writes : List WriteResult) : Keeps none w (w.stop writes) := by
  have torn : ∀ w : World, Keeps none w w.sendTeardown := by
    intro w
    unfold World.sendTeardown
    split
    · exact sendRequestKeeps _ _
    · exact keepsRefl w
  have begun : Keeps none w (((w.entering writes).setStopping true).setState .idle).sendTeardown :=
    keepsFrom (torn _) rfl rfl
  exact keepsTrans (keepsTrans begun (dropClientKeeps _)) (keepsSame rfl rfl)

theorem unitsKeep (w : World) (units : List StreamUnit) :
    Keeps none w (run (onUnit handleInterleavedData handleResponse) w units) := by
  refine runInvariant (fun v u before => keepsTrans before ?_) (keepsRefl w) units
  cases u with
  | interleaved channel data => exact keepsSame rfl rfl
  | message msg => exact handleResponseKeeps v msg

theorem handledKeeps (w : World) (buf : ByteBuffer) :
    Keeps none w (Decoders.handleMessage handleInterleavedData handleResponse w buf).1 := by
  rw [handleMessageRuns]
  exact unitsKeep w _

theorem handleMessageKeeps (w : World) {i : ConnId} (own : i < w.nextConn) (buf : ByteBuffer) :
    Keeps (some i) w (w.handleMessage i buf) := by
  have handled := handledKeeps w buf
  unfold World.handleMessage
  generalize Decoders.handleMessage handleInterleavedData handleResponse w buf = ended at handled
  have live := (afterMessagesSteady i ended).live
  obtain ⟨after, left⟩ := ended
  have others : ∀ c, c ≠ i → waiting (afterMessages i (after, left)) c = waiting after c := fun c differ => by
    cases left with
    | ok rest => simp only [afterMessages, waiting, setConnOther _ differ]
    | error e => rfl
  have number : (afterMessages i (after, left)).nextConn = after.nextConn := by cases left <;> rfl
  refine ⟨fun c bound apart => ?_, number ▸ handled.allocated, fun c old new => ?_, fun c open_ => ?_⟩
  · have differ : c ≠ i := fun same => apart (congrArg some same.symm)
    have unread : none ≠ some c := (Option.some_ne_none c).symm
    rw [others c differ, handled.waiting c bound unread]
  · have differ : c ≠ i := fun same => absurd own (Nat.not_lt.mpr (same ▸ old))
    rw [others c differ, handled.fresh c old (number ▸ new)]
  · rw [number]
    exact handled.live c (live c open_)

-- The connection an input reads from, and what it reads, if the loop still reports it.
def reads (w : World) (input : Source.Input) : Option (ConnId × Bytes) :=
  match input.event with
  | .read i (.data chunk) => if w.crashed = false ∧ w.Live i then some (i, chunk) else none
  | _ => none

/-! Between two callbacks no whole frame waits, and what the loop reports is known. -/
structure Settled (w : World) : Prop where
  waiting : ∀ c < w.nextConn, decode interleavedDecoder (waiting w c) = ([], .ok (SourceReads.waiting w c))
  live : ∀ c, w.Live c → c < w.nextConn

theorem stepKeeps {w : World} (h : Settled w) (input : Source.Input) :
    Keeps ((reads w input).map Prod.fst) w (w.step input) := by
  obtain ⟨event, connect, writes⟩ := input
  unfold World.step
  split
  · exact keepsSame rfl rfl
  · rename_i running
    refine keepsFrom (v := w.entering writes) ?_ rfl rfl
    cases event with
    | writable d failed =>
      simp only [World.handle, World.writable]
      split
      · split
        · exact keepsSame rfl rfl
        · exact handleConnectKeeps _ d
      · exact keepsRefl _
    | fire n => exact fireKeeps _ n connect
    | runTask =>
      simp only [World.handle, World.runTask]
      split <;> exact keepsSame rfl rfl
    | read i result =>
      cases result with
      | eof => exact endKeeps _ i
      | error => exact failKeeps _ i
      | again =>
        simp only [World.handle, World.read]
        split <;> exact keepsRefl _
      | data chunk =>
        simp only [World.handle, World.read]
        split
        · rename_i live
          have read : reads w ⟨.read i (.data chunk), connect, writes⟩ = some (i, chunk) :=
            if_pos ⟨Bool.eq_false_iff.mpr running, live⟩
          rw [read]
          exact handleMessageKeeps (w.entering writes) (h.live i live) _
        · exact keepsRefl _

/-! A read hands on its frames, whatever the answers beside them do. -/

theorem framesData (w : World) (i : ConnId) (units : List StreamUnit) (rest : Except Exn ByteBuffer) :
    (frames w (units.map (unitHappening i) ++ [.stored i rest])).map Frame.data =
      units.filterMap payload := by
  induction units generalizing w with
  | nil => rfl
  | cons u units ih =>
    cases u with
    | interleaved channel data => exact congrArg (data :: ·) (ih _)
    | message msg => exact ih _

structure Handed (c : ConnId) (chunk : Bytes) (w after : World) : Prop where
  packets : Service.Relay.packets after.acts = payloads (waiting w c ++ chunk)
  rest : ∀ rest, (decode interleavedDecoder (waiting w c ++ chunk)).2 = .ok rest → waiting after c = rest
  failed : ∀ e, (decode interleavedDecoder (waiting w c ++ chunk)).2 = .error e →
    after.crashed = true ∧ waiting after c = waiting w c

theorem readsLive {w : World} {input : Source.Input} {c : ConnId} {chunk : Bytes}
    (read : reads w input = some (c, chunk)) : w.Live c := by
  unfold reads at read
  split at read
  · split at read
    · rename_i here
      cases Option.some.inj read
      exact here.2
    · contradiction
  · contradiction

theorem readHands {w : World} (h : Settled w) {input : Source.Input} {c : ConnId} {chunk : Bytes}
    (arrives : reads w input = some (c, chunk)) : Handed c chunk w (w.step input) := by
  obtain ⟨event, connect, writes⟩ := input
  cases event with
  | read i result =>
    cases result with
    | data bytes =>
      unfold reads at arrives
      dsimp only at arrives
      split at arrives
      · rename_i here
        obtain ⟨running, live⟩ := here
        cases Option.some.inj arrives
        have alive : (w.entering writes).Live c := live
        have content : ((w.conns c).tcp.inputBuf.append chunk).content = waiting w c ++ chunk :=
          ByteBuffer.appendContent _ _
        have stepped : w.step ⟨.read c (.data chunk), connect, writes⟩ =
            (w.entering writes).handleMessage c ((w.conns c).tcp.inputBuf.append chunk) := by
          rw [World.step, if_neg (by simp [running]), World.handle, World.read, if_pos alive]
          rfl
        have leaves := handleMessageLeaves handleInterleavedData handleResponse (w.entering writes)
          ((w.conns c).tcp.inputBuf.append chunk)
        rw [content] at leaves
        have unread : none ≠ some c := (Option.some_ne_none c).symm
        have handled := (handledKeeps (w.entering writes) ((w.conns c).tcp.inputBuf.append chunk)).waiting c
          (h.live c live) unread
        refine ⟨?_, fun rest whole => ?_, fun e bad => ?_⟩
        · rw [stepPackets, decoded, happenings, if_neg (by simp [running]), eventHappenings, if_pos alive]
          refine (framesData _ c _ _).trans ?_
          exact congrArg (fun b => (decode interleavedDecoder b).1.filterMap payload) content
        all_goals
          rw [stepped, World.handleMessage]
          generalize Decoders.handleMessage handleInterleavedData handleResponse (w.entering writes)
            ((w.conns c).tcp.inputBuf.append chunk) = ended at leaves handled
          obtain ⟨after, left⟩ := ended
        · rw [whole] at leaves
          cases left with
          | ok buf => simpa [afterMessages, waiting] using Except.ok.inj leaves
          | error e => contradiction
        · rw [bad] at leaves
          cases left with
          | ok buf => contradiction
          | error e => exact ⟨rfl, handled⟩
      · contradiction
    | _ => contradiction
  | _ => contradiction

theorem keepsSettled {w after : World} (h : Settled w) (keeps : Keeps from_ w after)
    (read : ∀ c, from_ = some c → decode interleavedDecoder (waiting after c) = ([], .ok (waiting after c))) :
    Settled after := by
  refine ⟨fun c bound => ?_, fun c live => ?_⟩
  · rcases Classical.em (from_ = some c) with same | apart
    · exact read c same
    · rcases Nat.lt_or_ge c w.nextConn with own | new
      · rw [keeps.waiting c own apart]
        exact h.waiting c own
      · rw [keeps.fresh c new bound]
        exact decodeMore interleavedDecoder rfl
  · rcases keeps.live c live with before | ⟨_, new⟩
    · exact Nat.lt_of_lt_of_le (h.live c before) keeps.allocated
    · exact new

theorem stepSettled {w : World} (h : Settled w) (input : Source.Input) : Settled (w.step input) := by
  refine keepsSettled h (stepKeeps h input) fun c same => ?_
  obtain ⟨⟨d, chunk⟩, read, rfl⟩ := Option.map_eq_some_iff.mp same
  have hands := readHands h read
  cases whole : (decode interleavedDecoder (waiting w d ++ chunk)).2 with
  | ok rest =>
    rw [hands.rest rest whole]
    exact decodeRest interleavedDecoder _ whole
  | error e =>
    rw [(hands.failed e whole).2]
    exact h.waiting d (h.live d (readsLive read))

theorem stopSettled {w : World} (h : Settled w) (writes : List WriteResult) : Settled (w.stop writes) :=
  keepsSettled h (stopKeeps w writes) nofun

theorem startSettled {w : World} (h : Settled w) (connect : ConnectResult) (writes : List WriteResult) :
    Settled (w.start connect writes) :=
  keepsSettled h (keepsFrom (upstreamKeeps _ connect) rfl rfl) nofun

theorem createdSettled (order : HeaderOrder) (upstreamUrl streamPath : Bytes) :
    Settled (World.create order upstreamUrl streamPath) :=
  ⟨nofun, fun _ live => absurd live.1 Bool.false_ne_true⟩

theorem payloadsAppend (first last : Bytes) : payloads (first ++ last) = payloads first ++
    match (decode interleavedDecoder first).2 with
    | .ok rest => payloads (rest ++ last)
    | .error _ => [] := by
  unfold payloads
  rw [decodeAppend interleavedDecoder first last]
  unfold andThen
  cases (decode interleavedDecoder first).2 with
  | ok rest => exact List.filterMap_append
  | error e => exact (List.append_nil _).symm

/-! A crash is for good. -/

theorem stepCrashed {w : World} (crashed : w.crashed = true) (input : Source.Input) :
    (w.step input).crashed = true := by
  rw [World.step, if_pos crashed]
  exact crashed

theorem stopCrashed {w : World} (crashed : w.crashed = true) (writes : List WriteResult) :
    (w.stop writes).crashed = true := by
  have torn : ∀ w : World, w.crashed = true → w.sendTeardown.crashed = true := by
    intro w crashed
    unfold World.sendTeardown World.sendRequest World.send
    dsimp only
    split
    · split
      · rfl
      · split <;> exact crashed
    · exact crashed
  have dropped : ∀ w : World, w.crashed = true → w.dropClient.crashed = true := by
    intro w crashed
    unfold World.dropClient
    split <;> exact crashed
  exact dropped _ (torn _ crashed)

theorem crashedReads {w : World} (crashed : w.crashed = true) (input : Source.Input) :
    reads w input = none := by
  obtain ⟨event, connect, writes⟩ := input
  cases event with
  | read i result =>
    cases result with
    | data chunk => simp [reads, crashed]
    | _ => rfl
  | _ => rfl

end RtspRelay.SourceReads
