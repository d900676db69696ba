import RtspRelay.ExchangeSteps

/-! Which connection a source sends its requests on. It waits for an answer only
while it holds a connection, in whatever order its callbacks run and whatever
clients, connections and timers it has left behind. -/
namespace RtspRelay.NullConnection
open Machine Buffer Protocol Source World Exchange Transition
open Connection (WriteResult)

/-! What runs a source: its `start`, and all that happens to it. -/
inductive Call where
  | start (connect : ConnectResult) (writes : List WriteResult)
  | happening (h : Happening)

def act (w : World) : Call → World
  | .start connect writes => w.start connect writes
  | .happening h => effect w h

def Asking (state : Source.State) : Prop := state = .options ∨ state = .describe ∨ state = .setup

def Guarded (w : World) : Prop := Asking w.source.state → w.source.conn ≠ none

-- Its connect completed: a connection was made for it.
def Completed (w : World) (c : ClientId) : Prop := ∃ i < w.nextConn, (w.conns i).client = c

instance (w : World) (c : ClientId) : Decidable (Completed w c) :=
  inferInstanceAs (Decidable (∃ i < w.nextConn, (w.conns i).client = c))

/-! A client destroyed before its connect completed retries no more. Its socket
was closed with it. -/

def retrying (w : World) : Call → Option ClientId
  | .happening (.fire n _) => w.timers[n]?.bind connectRetry
  | _ => none

def Quiet (w : World) (call : Call) : Prop :=
  ∀ c ∈ retrying w call, (w.clients c).destroyed = true → Completed w c

instance (w : World) (call : Call) : Decidable (Quiet w call) :=
  inferInstanceAs (Decidable (∀ c ∈ retrying w call, (w.clients c).destroyed = true → Completed w c))

-- An exception of the parser ends the process as well, without any send.
def Throws : Call → Prop
  | .happening (.stored _ (.error _)) => True
  | _ => False

def SendsSafely (w : World) (call : Call) : Prop := ¬ Throws call → (act w call).crashed = w.crashed

/-! The clients of a source: the one it holds is the only one not destroyed, each
waits for one thing at a time, and has no connection while it waits. -/

def Pending (w : World) (c : ClientId) : Prop := (w.clients c).connecting = true ∨ c ∈ w.retries

structure Roll (w : World) : Prop where
  alive : ∀ c < w.nextClient, (w.clients c).destroyed = false → w.source.client = some c
  kept : ∀ c, (w.clients c).connecting = true → (w.clients c).destroyed = false
  once : w.retries.Nodup
  waiting : ∀ c ∈ w.retries, (w.clients c).connecting = false
  made : ∀ c, Pending w c → c < w.nextClient
  owners : ∀ i < w.nextConn, (w.conns i).client < w.nextClient
  pending : ∀ c, Pending w c → ¬ Completed w c

structure Untouched (w after : World) : Prop where
  client : after.source.client = w.source.client
  clients : ∀ c, (after.clients c).connecting = (w.clients c).connecting ∧
    (after.clients c).destroyed = (w.clients c).destroyed
  nextClient : after.nextClient = w.nextClient
  owner : ∀ i, (after.conns i).client = (w.conns i).client
  nextConn : after.nextConn = w.nextConn
  retries : after.retries.Sublist w.retries

theorem untouchedOf {w after : World} (client : after.source.client = w.source.client)
    (clients : after.clients = w.clients) (nextClient : after.nextClient = w.nextClient)
    (conns : after.conns = w.conns) (nextConn : after.nextConn = w.nextConn)
    (retries : after.retries = w.retries) : Untouched w after :=
  ⟨client, fun c => by rw [clients]; exact ⟨rfl, rfl⟩, nextClient, fun i => by rw [conns], nextConn,
    retries ▸ List.Sublist.refl _⟩

theorem untouchedTrans {w mid after : World} (first : Untouched w mid) (last : Untouched mid after) :
    Untouched w after :=
  ⟨last.client.trans first.client,
    fun c => ⟨(last.clients c).1.trans (first.clients c).1, (last.clients c).2.trans (first.clients c).2⟩,
    last.nextClient.trans first.nextClient, fun i => (last.owner i).trans (first.owner i),
    last.nextConn.trans first.nextConn, last.retries.trans first.retries⟩

theorem untouchedRoll {w after : World} (untouched : Untouched w after) (h : Roll w) : Roll after := by
  have pending : ∀ c, Pending after c → Pending w c := by
    rintro c (connecting | due)
    · exact .inl ((untouched.clients c).1 ▸ connecting)
    · exact .inr (untouched.retries.subset due)
  refine ⟨fun c bound alive => ?_, fun c connecting => ?_, h.once.sublist untouched.retries,
    fun c due => ?_, fun c waits => ?_, fun i bound => ?_, fun c waits completed => ?_⟩
  · rw [untouched.client]
    exact h.alive c (untouched.nextClient ▸ bound) ((untouched.clients c).2 ▸ alive)
  · rw [(untouched.clients c).2]
    exact h.kept c ((untouched.clients c).1 ▸ connecting)
  · rw [(untouched.clients c).1]
    exact h.waiting c (untouched.retries.subset due)
  · rw [untouched.nextClient]
    exact h.made c (pending c waits)
  · rw [untouched.owner, untouched.nextClient]
    exact h.owners i (untouched.nextConn ▸ bound)
  · obtain ⟨i, bound, owner⟩ := completed
    exact h.pending c (pending c waits) ⟨i, untouched.nextConn ▸ bound, untouched.owner i ▸ owner⟩

theorem setConnUntouched (w : World) {i : ConnId} {up : Upstream}
    (same : up.client = (w.conns i).client) : Untouched w (w.setConn i up) := by
  refine ⟨rfl, fun _ => ⟨rfl, rfl⟩, rfl, fun j => ?_, rfl, .refl _⟩
  rcases eq_or_ne j i with rfl | differ
  · rw [setConnSame]
    exact same
  · rw [setConnOther _ differ]

theorem sendUntouched (w : World) (i : ConnId) (data : Bytes) : Untouched w (w.send i data) := by
  unfold World.send
  dsimp only
  split
  · have answered : Untouched w { w with writes := w.writes.tail } := untouchedOf rfl rfl rfl rfl rfl rfl
    exact untouchedTrans answered (setConnUntouched _ rfl)
  · exact untouchedOf rfl rfl rfl rfl rfl rfl

theorem sendRequestUntouched (w : World) (request : Nat → RtspMessage) :
    Untouched w (w.sendRequest request) := by
  have numbered : Untouched w { w with source := { w.source with cseq := nextCseq w.source } } :=
    untouchedOf rfl rfl rfl rfl rfl rfl
  unfold World.sendRequest
  dsimp only
  split
  · exact untouchedOf rfl rfl rfl rfl rfl rfl
  · exact untouchedTrans numbered (sendUntouched _ _ _)

theorem advanceUntouched (w : World) (msg : RtspMessage) : Untouched w (w.advance msg) := by
  unfold World.advance
  split
  · have stated : Untouched w (w.setState .describe) := untouchedOf rfl rfl rfl rfl rfl rfl
    exact untouchedTrans stated (sendRequestUntouched _ _)
  · have described : Untouched w ({ w with source := { w.source with sdp := msg.sdp } }.setState .setup) :=
      untouchedOf rfl rfl rfl rfl rfl rfl
    exact untouchedTrans described (sendRequestUntouched _ _)
  · have noted : Untouched w ((w.noteChannels msg).setState .playing) := by
      unfold World.noteChannels
      split <;> exact untouchedOf rfl rfl rfl rfl rfl rfl
    exact untouchedTrans noted (sendRequestUntouched _ _)
  · exact untouchedOf rfl rfl rfl rfl rfl rfl

theorem handleResponseUntouched (w : World) (msg : RtspMessage) : Untouched w (w.handleResponse msg) := by
  have retried : (w.addTimer .retry404).retries = w.retries := by
    simp [World.retries, World.addTimer, connectRetry]
  have noted : Untouched w (w.noteSession msg) := by
    unfold World.noteSession
    split <;> exact untouchedOf rfl rfl rfl rfl rfl rfl
  unfold World.handleResponse
  split
  · split
    · exact untouchedOf rfl rfl rfl rfl rfl retried
    · exact untouchedOf rfl rfl rfl rfl rfl rfl
  · exact untouchedTrans noted (advanceUntouched _ msg)

/-! A client that has not been destroyed, does not wait, and has not connected. -/
structure Ready (w : World) (c : ClientId) : Prop where
  bound : c < w.nextClient
  kept : (w.clients c).destroyed = false
  idle : (w.clients c).connecting = false
  due : c ∉ w.retries
  fresh : ¬ Completed w c

theorem dueRoll {w : World} {c : ClientId} (h : Roll w) (ready : Ready w c) {timers : List Timer}
    {tasks : List ClientId} (due : ({ w with timers, tasks } : World).retries.Perm (c :: w.retries)) :
    Roll { w with timers, tasks } := by
  have cases : ∀ d, d ∈ ({ w with timers, tasks } : World).retries → d = c ∨ d ∈ w.retries :=
    fun d there => List.mem_cons.mp (due.mem_iff.mp there)
  refine ⟨h.alive, h.kept, due.nodup_iff.mpr (List.nodup_cons.mpr ⟨ready.due, h.once⟩), fun d there => ?_,
    fun d waits => ?_, h.owners, fun d waits => ?_⟩
  · rcases cases d there with rfl | before
    · exact ready.idle
    · exact h.waiting d before
  · rcases waits with connecting | there
    · exact h.made d (.inl connecting)
    · rcases cases d there with rfl | before
      · exact ready.bound
      · exact h.made d (.inr before)
  · rcases waits with connecting | there
    · exact h.pending d (.inl connecting)
    · rcases cases d there with rfl | before
      · exact ready.fresh
      · exact h.pending d (.inr before)

theorem connectingRoll {w : World} {c : ClientId} (h : Roll w) (ready : Ready w c) :
    Roll (w.setConnecting c true) := by
  have destroyed : ∀ d, ((w.setConnecting c true).clients d).destroyed = (w.clients d).destroyed := by
    intro d
    rcases eq_or_ne d c with rfl | differ
    · rw [setConnecting, setClientSame]
    · rw [setConnecting, setClientOther _ differ]
  have other : ∀ d, d ≠ c → (w.setConnecting c true).clients d = w.clients d :=
    fun d differ => setClientOther w differ _
  have pending : ∀ d, Pending (w.setConnecting c true) d → d = c ∨ Pending w d := by
    intro d waits
    rcases eq_or_ne d c with same | differ
    · exact .inl same
    · rw [Pending, other d differ] at waits
      exact .inr waits
  refine ⟨fun d bound alive => h.alive d bound ((destroyed d).symm.trans alive), fun d connecting => ?_,
    h.once, fun d due => ?_, fun d waits => ?_, h.owners, fun d waits => ?_⟩
  · rcases eq_or_ne d c with rfl | differ
    · exact (destroyed d).trans ready.kept
    · rw [other d differ] at connecting ⊢
      exact h.kept d connecting
  · have differ : d ≠ c := fun same => ready.due (same ▸ due)
    rw [other d differ]
    exact h.waiting d due
  · rcases pending d waits with rfl | before
    · exact ready.bound
    · exact h.made d before
  · rcases pending d waits with rfl | before
    · exact ready.fresh
    · exact h.pending d before

/-! A client that waits for nothing any more, whether it lives on or not. -/
theorem restedRoll {w : World} (h : Roll w) {c : ClientId} (client : TcpClient)
    (idle : client.connecting = false)
    (alive : client.destroyed = false → (w.clients c).destroyed = false) : Roll (w.setClient c client) := by
  have connecting : ∀ d, ((w.setClient c client).clients d).connecting = true →
      d ≠ c ∧ (w.clients d).connecting = true := by
    intro d waits
    rcases eq_or_ne d c with rfl | differ
    · rw [setClientSame, idle] at waits
      contradiction
    · rw [setClientOther _ differ] at waits
      exact ⟨differ, waits⟩
  have pending : ∀ d, Pending (w.setClient c client) d → Pending w d :=
    fun d waits => waits.imp_left fun open_ => (connecting d open_).2
  refine ⟨fun d known kept => h.alive d known ?_, fun d waits => ?_, h.once, fun d due => ?_,
    fun d waits => h.made d (pending d waits), h.owners, fun d waits => h.pending d (pending d waits)⟩
  · rcases eq_or_ne d c with rfl | differ
    · rw [setClientSame] at kept
      exact alive kept
    · rw [setClientOther _ differ] at kept
      exact kept
  · obtain ⟨differ, before⟩ := connecting d waits
    rw [setClientOther _ differ]
    exact h.kept d before
  · exact Bool.eq_false_iff.mpr fun waits =>
      Bool.eq_false_iff.mp (h.waiting d due) (connecting d waits).2

-- A new connection belongs to a client that does not wait.
theorem openedRoll {w : World} {c : ClientId} (h : Roll w) (bound : c < w.nextClient)
    (rests : ¬ Pending w c) (tcp : Connection.TcpConnection) :
    Roll ({ w with nextConn := w.nextConn + 1 }.setConn w.nextConn ⟨tcp, c, false⟩) := by
  have owner : ∀ i, (({ w with nextConn := w.nextConn + 1 }.setConn w.nextConn ⟨tcp, c, false⟩).conns
      i).client = if i = w.nextConn then c else (w.conns i).client := by
    intro i
    rcases eq_or_ne i w.nextConn with rfl | differ
    · rw [if_pos rfl, setConnSame]
    · rw [if_neg differ, setConnOther _ differ]
  refine ⟨h.alive, h.kept, h.once, h.waiting, h.made, fun i known => ?_, fun d waits completed => ?_⟩
  · rw [owner]
    split
    · exact bound
    · rename_i differ
      exact h.owners i (Nat.lt_of_le_of_ne (Nat.le_of_lt_succ known) differ)
  · obtain ⟨i, known, made⟩ := completed
    rw [owner] at made
    split at made
    · exact rests (made ▸ waits)
    · rename_i differ
      exact h.pending d waits ⟨i, Nat.lt_of_le_of_ne (Nat.le_of_lt_succ known) differ, made⟩

theorem openConnRoll {w : World} {c : ClientId} (h : Roll w) (bound : c < w.nextClient)
    (due : c ∉ w.retries) : Roll (w.openConn c) := by
  have rested := restedRoll h (c := c) { w.clients c with connecting := false, conn := some w.nextConn } rfl id
  have rests : ¬ Pending (w.setClient c
      { w.clients c with connecting := false, conn := some w.nextConn }) c := by
    rintro (waits | there)
    · rw [setClientSame] at waits
      contradiction
    · exact due there
  exact openedRoll rested bound rests _

theorem dropClientRoll {w : World} (h : Roll w) :
    Roll w.dropClient ∧ w.dropClient.source = { w.source with client := none } := by
  unfold World.dropClient
  cases held : w.source.client with
  | none =>
    refine ⟨h, ?_⟩
    dsimp only
    rw [← held]
  | some c =>
    refine ⟨?_, rfl⟩
    have rested := restedRoll h (c := c) { w.clients c with connecting := false, destroyed := true } rfl nofun
    refine ⟨fun d known alive => ?_, rested.kept, rested.once, rested.waiting, rested.made, rested.owners,
      rested.pending⟩
    have differ : d ≠ c := by
      rintro rfl
      rw [setClientSame] at alive
      contradiction
    rw [setClientOther _ differ] at alive
    have only := h.alive d known alive
    rw [held] at only
    exact absurd (Option.some.inj only).symm differ

theorem dropClientRest (w : World) :
    w.dropClient.nextClient = w.nextClient ∧ w.dropClient.crashed = w.crashed := by
  unfold World.dropClient
  split <;> exact ⟨rfl, rfl⟩

theorem makeClientRoll {w : World} (h : Roll w) (empty : w.source.client = none) :
    Roll w.makeClient ∧ Ready w.makeClient w.nextClient := by
  have new : w.makeClient.clients w.nextClient =
      ⟨w.source.upstreamHost, w.source.upstreamPort, false, none, false⟩ := setClientSame _ _ _
  have old : ∀ d, d ≠ w.nextClient → w.makeClient.clients d = w.clients d :=
    fun d differ => setClientOther _ differ _
  have pending : ∀ d, Pending w.makeClient d → Pending w d := by
    rintro d (waits | due)
    · rcases eq_or_ne d w.nextClient with rfl | differ
      · rw [new] at waits
        contradiction
      · exact .inl (old d differ ▸ waits)
    · exact .inr due
  have due : w.nextClient ∉ w.retries := fun there => Nat.lt_irrefl _ (h.made _ (.inr there))
  have fresh : ¬ Completed w.makeClient w.nextClient := by
    rintro ⟨i, known, owner⟩
    exact Nat.ne_of_lt (h.owners i known) owner
  refine ⟨⟨fun d known alive => ?_, fun d waits => ?_, h.once, fun d there => ?_,
    fun d waits => Nat.lt_succ_of_lt (h.made d (pending d waits)),
    fun i known => Nat.lt_succ_of_lt (h.owners i known), fun d waits => h.pending d (pending d waits)⟩,
    Nat.lt_succ_self _, by rw [new], by rw [new], due, fresh⟩
  · rcases eq_or_ne d w.nextClient with rfl | differ
    · rfl
    · rw [old d differ] at alive
      have only := h.alive d (Nat.lt_of_le_of_ne (Nat.le_of_lt_succ known) differ) alive
      rw [empty] at only
      contradiction
  · rcases eq_or_ne d w.nextClient with rfl | differ
    · rw [new]
    · rw [old d differ] at waits ⊢
      exact h.kept d waits
  · have differ : d ≠ w.nextClient := fun equal => due (equal ▸ there)
    rw [old d differ]
    exact h.waiting d there

/-! What holds between any two callbacks. A source that stops waits for no answer
and holds no client, so nothing can connect it again before its next start. -/
structure Sound (w : World) : Prop where
  roll : Roll w
  guarded : Guarded w
  stopped : w.source.stopping = true →
    (w.source.state = .idle ∨ w.source.state = .connecting) ∧ w.source.client = none

theorem restingQuiet {state : Source.State} (resting : Resting state) : ¬ Asking state := by
  rintro (rfl | rfl | rfl) <;> rcases resting with rest | rest | rest <;> contradiction

theorem soundKeeps {w after : World} (h : Sound w) (untouched : Untouched w after)
    (conn : after.source.conn = w.source.conn) (stopping : after.source.stopping = w.source.stopping)
    (state : after.source.state = w.source.state ∨ Asking w.source.state) : Sound after := by
  refine ⟨untouchedRoll untouched h.roll, fun asking => ?_, fun stopped => ?_⟩
  · rw [conn]
    rcases state with same | before
    · exact h.guarded (same ▸ asking)
    · exact h.guarded before
  · obtain ⟨rests, empty⟩ := h.stopped (stopping ▸ stopped)
    rcases state with same | before
    · exact ⟨same ▸ rests, untouched.client.trans empty⟩
    · have resting : Resting w.source.state := rests.imp_right .inl
      exact absurd before (restingQuiet resting)

theorem soundSource {w after : World} (h : Sound w) (untouched : Untouched w after)
    (source : after.source = w.source) : Sound after :=
  soundKeeps h untouched (by rw [source]) (by rw [source]) (.inl (by rw [source]))

theorem soundDue {w : World} {c : ClientId} (h : Sound w) (ready : Ready w c) {timers : List Timer}
    {tasks : List ClientId} (due : ({ w with timers, tasks } : World).retries.Perm (c :: w.retries)) :
    Sound { w with timers, tasks } :=
  ⟨dueRoll h.roll ready due, h.guarded, h.stopped⟩

theorem retryDue (w : World) (c : ClientId) :
    (w.addTimer (.connect c)).retries.Perm (c :: w.retries) ∧ (w.postRetry c).retries.Perm (c :: w.retries) := by
  constructor
  · simp only [World.retries, World.addTimer, List.filterMap_append, List.append_assoc]
    exact List.perm_middle
  · simp only [World.retries, World.postRetry, ← List.append_assoc]
    exact List.perm_append_singleton c _

theorem connectSent (w : World) (c : ClientId) : (w.handleConnect c).crashed = w.crashed :=
  (sendRequestSends { w.openConn c with
    source := { w.source with conn := some w.nextConn, state := .options, cseq := 0 } }
    (optionsRequest w.source.upstreamUrl)).crashed.trans (Bool.or_false _)

theorem handleConnectSound {w : World} {c : ClientId} (h : Sound w) (bound : c < w.nextClient)
    (kept : (w.clients c).destroyed = false) (due : c ∉ w.retries) : Sound (w.handleConnect c) := by
  have source := handleConnectSource w c
  have running : ¬ w.source.stopping = true := fun stopping => by
    have held := h.roll.alive c bound kept
    rw [(h.stopped stopping).2] at held
    contradiction
  have connected : Untouched (w.openConn c) { w.openConn c with
      source := { w.source with conn := some w.nextConn, state := .options, cseq := 0 } } :=
    untouchedOf rfl rfl rfl rfl rfl rfl
  have asked := untouchedTrans connected (sendRequestUntouched _ (optionsRequest w.source.upstreamUrl))
  have untouched : Untouched (w.openConn c) (w.handleConnect c) :=
    untouchedTrans asked (setConnUntouched _ rfl)
  refine ⟨untouchedRoll untouched (openConnRoll h.roll bound due), fun _ => ?_, fun stopping => ?_⟩
  · rw [source]
    exact nofun
  · rw [source] at stopping
    exact absurd stopping running

theorem connectSound {w : World} {c : ClientId} (h : Sound w) (ready : Ready w c) (result : ConnectResult) :
    Sound (w.connect c result) ∧ (w.connect c result).crashed = w.crashed := by
  have noted : Sound (w.note (.connect c)) := soundSource h (untouchedOf rfl rfl rfl rfl rfl rfl) rfl
  have still : Ready (w.note (.connect c)) c :=
    ⟨ready.bound, ready.kept, ready.idle, ready.due, ready.fresh⟩
  obtain ⟨timed, posted⟩ := retryDue (w.note (.connect c)) c
  cases result with
  | resolveFailed => exact ⟨soundDue noted still posted, rfl⟩
  | socketFailed | refused => exact ⟨soundDue noted still timed, rfl⟩
  | inProgress => exact ⟨⟨connectingRoll noted.roll still, h.guarded, h.stopped⟩, rfl⟩
  | immediate => exact ⟨handleConnectSound noted ready.bound ready.kept ready.due, connectSent _ c⟩

theorem upstreamSound {w : World} (h : Sound w) (result : ConnectResult) :
    Sound (w.connectToUpstream result) ∧ (w.connectToUpstream result).crashed = w.crashed := by
  unfold World.connectToUpstream
  split
  · exact ⟨h, rfl⟩
  · rename_i running
    obtain ⟨roll, source⟩ := dropClientRoll h.roll
    obtain ⟨made, ready⟩ := makeClientRoll roll (by rw [source])
    obtain ⟨next, crashed⟩ := dropClientRest w
    have fresh : Sound w.dropClient.makeClient := by
      refine ⟨made, fun asking => ?_, fun stopping => ?_⟩
      · simp only [World.makeClient, World.setClient, source] at asking ⊢
        exact h.guarded asking
      · simp only [World.makeClient, World.setClient, source] at stopping
        exact absurd stopping running
    rw [next] at ready
    obtain ⟨sound, same⟩ := connectSound fresh ready result
    exact ⟨sound, same.trans crashed⟩

theorem retriedSound {w : World} (h : Sound w) (result : ConnectResult) :
    Sound ((w.setState .connecting).connectToUpstream result) ∧
      ((w.setState .connecting).connectToUpstream result).crashed = w.crashed := by
  have stated : Untouched w (w.setState .connecting) := untouchedOf rfl rfl rfl rfl rfl rfl
  have connecting : Sound (w.setState .connecting) :=
    ⟨untouchedRoll stated h.roll,
      fun asking => absurd asking (restingQuiet (.inr (.inl rfl))),
      fun stopping => ⟨.inr rfl, (h.stopped stopping).2⟩⟩
  exact upstreamSound connecting result

/-! One callback after another. -/

theorem messageSound {w : World} (h : Sound w) (msg : RtspMessage) :
    Sound (w.handleResponse msg) ∧ (w.handleResponse msg).crashed = w.crashed := by
  have steady := handleResponseSteady w msg
  have keeps := soundKeeps h (handleResponseUntouched w msg) steady.conn steady.stopping
  cases replies : reply w msg with
  | none =>
    have silent : (w.handleResponse msg).source.state = w.source.state := by
      rw [silentSource replies, (heardSource w msg).1]
    exact ⟨keeps (.inl silent), (silentRest replies).2.1⟩
  | some req =>
    have asking : Asking w.source.state := by
      cases (replied replies).2 with
      | describe state => exact .inl state
      | setup state => exact .inr (.inl state)
      | play state => exact .inr (.inr state)
    have kept := readyKept w msg
    have there : (ready w msg).source.conn.isNone = false := by
      rw [kept.conn]
      exact Option.isNone_eq_false_iff.mpr (Option.isSome_iff_ne_none.mpr (h.guarded asking))
    refine ⟨keeps (.inr asking), ?_⟩
    rw [(repliedSends replies).crashed, there, Bool.or_false, kept.crashed]

theorem writableSound {w : World} (h : Sound w) (c : ClientId) (failed : Bool) :
    Sound (w.writable c failed) ∧ (w.writable c failed).crashed = w.crashed := by
  unfold World.writable
  split
  · rename_i connecting
    have bound := h.roll.made c (.inl connecting)
    have kept := h.roll.kept c connecting
    have due : c ∉ w.retries := fun there =>
      Bool.eq_false_iff.mp (h.roll.waiting c there) connecting
    split
    · have rested : Sound (w.setConnecting c false) := ⟨restedRoll h.roll _ rfl id, h.guarded, h.stopped⟩
      have ready : Ready (w.setConnecting c false) c := by
        refine ⟨bound, ?_, ?_, due, h.roll.pending c (.inl connecting)⟩
        · rw [setConnecting, setClientSame]
          exact kept
        · rw [setConnecting, setClientSame]
      exact ⟨soundDue rested ready (retryDue _ c).1, rfl⟩
    · exact ⟨handleConnectSound h bound kept due, connectSent w c⟩
  · exact ⟨h, rfl⟩

theorem endedSound {w : World} (h : Sound w) (c : ClientId) : Sound (w.clientClosed c) := by
  have scheduled : Untouched w w.dropConn.scheduleReconnect := by
    unfold World.scheduleReconnect
    split
    · exact untouchedOf rfl rfl rfl rfl rfl rfl
    · refine untouchedOf rfl rfl rfl rfl rfl ?_
      simp [World.retries, World.addTimer, World.setState, World.dropConn, connectRetry]
  have forgotten : Untouched w.dropConn.scheduleReconnect (w.clientClosed c) := by
    refine ⟨rfl, fun d => ?_, rfl, fun _ => rfl, rfl, .refl _⟩
    unfold World.clientClosed World.forgetConn
    rcases eq_or_ne d c with rfl | differ
    · rw [setClientSame]
      exact ⟨rfl, rfl⟩
    · rw [setClientOther _ differ]
      exact ⟨rfl, rfl⟩
  refine ⟨untouchedRoll (untouchedTrans scheduled forgotten) h.roll, ?_, ?_⟩
  · unfold Guarded World.clientClosed World.scheduleReconnect
    split
    · rename_i stopping
      intro asking
      have resting : Resting w.source.state := (h.stopped stopping).1.imp_right .inl
      exact absurd asking (restingQuiet resting)
    · exact fun asking => absurd asking (restingQuiet (.inr (.inr rfl)))
  · unfold World.clientClosed World.scheduleReconnect
    split
    · exact h.stopped
    · rename_i running
      exact fun stopping => absurd stopping running

theorem closedCrashed (w : World) (c : ClientId) : (w.clientClosed c).crashed = w.crashed := by
  unfold World.clientClosed World.scheduleReconnect
  split <;> rfl

theorem takenReady {w : World} {n : Nat} {c : ClientId} (h : Roll w)
    (found : w.timers[n]? = some (.connect c)) (quiet : (w.clients c).destroyed = true → Completed w c) :
    Ready (w.takeTimer n) c := by
  obtain ⟨before, after, whole, left⟩ := retriesErase found
  have waits : c ∈ w.retries := by
    rw [whole]
    exact List.mem_append_left _ (List.mem_append_right _ List.mem_cons_self)
  have fresh := h.pending c (.inr waits)
  refine ⟨h.made c (.inr waits), ?_, h.waiting c waits, ?_, fresh⟩
  · exact Bool.eq_false_iff.mpr fun destroyed => fresh (quiet destroyed)
  · have once := h.once
    rw [whole] at once
    have split_ : (before ++ [c] ++ after).Perm (c :: (before ++ after)) := by
      rw [List.append_assoc]
      exact List.perm_middle
    rw [left]
    exact (List.nodup_cons.mp (split_.nodup_iff.mp once)).1

theorem fireSound {w : World} (h : Sound w) (n : Nat) (connect : ConnectResult)
    (quiet : Quiet w (.happening (.fire n connect))) :
    Sound (w.fire n connect) ∧ (w.fire n connect).crashed = w.crashed := by
  have taken : Untouched w (w.takeTimer n) := by
    refine ⟨rfl, fun _ => ⟨rfl, rfl⟩, rfl, fun _ => rfl, rfl, ?_⟩
    exact ((List.eraseIdx_sublist w.timers n).filterMap connectRetry).append_right w.tasks
  have sound := soundSource h taken rfl
  unfold World.fire
  cases found : w.timers[n]? with
  | none => exact ⟨h, rfl⟩
  | some t =>
    cases t with
    | connect c =>
      have due : c ∈ retrying w (.happening (.fire n connect)) := by
        rw [retrying, found]
        rfl
      exact connectSound sound (takenReady h.roll found (quiet c due)) connect
    | reconnect => exact retriedSound sound connect
    | retry404 =>
      simp only [World.expire]
      split
      · exact ⟨sound, rfl⟩
      · exact retriedSound sound connect

theorem teardownSent (w : World) : Untouched w w.sendTeardown ∧
    w.sendTeardown.source.state = w.source.state ∧ w.sendTeardown.crashed = w.crashed := by
  unfold World.sendTeardown
  split
  · rename_i connected
    have there : w.source.conn.isNone = false := by
      unfold World.connConnected at connected
      cases held : w.source.conn with
      | none =>
        rw [held] at connected
        contradiction
      | some i => rfl
    have sends := sendRequestSends w fun cseq =>
      teardownRequest w.source.upstreamUrl cseq w.source.sessionId
    refine ⟨sendRequestUntouched w _, by rw [sends.source], ?_⟩
    rw [sends.crashed, there, Bool.or_false]
  · exact ⟨untouchedOf rfl rfl rfl rfl rfl rfl, rfl, rfl⟩

theorem stopSound {w : World} (h : Sound w) (writes : List WriteResult) :
    Sound (w.stop writes) ∧ (w.stop writes).crashed = w.crashed := by
  have stated : Untouched w (stopping w writes) := untouchedOf rfl rfl rfl rfl rfl rfl
  have stops : w.stop writes = (stopping w writes).sendTeardown.dropClient.dropConn := rfl
  obtain ⟨torn, idle, crashed⟩ := teardownSent (stopping w writes)
  obtain ⟨roll, source⟩ := dropClientRoll (untouchedRoll (untouchedTrans stated torn) h.roll)
  have dropped : (stopping w writes).sendTeardown.dropClient.crashed = w.crashed :=
    (dropClientRest _).2.trans crashed
  have left : (w.stop writes).source =
      { (stopping w writes).sendTeardown.source with client := none, conn := none } := by
    rw [stops, World.dropConn, source]
  have rests : (w.stop writes).source.state = .idle := by rw [left]; exact idle
  have forgotten : Untouched (stopping w writes).sendTeardown.dropClient (w.stop writes) :=
    untouchedOf rfl rfl rfl rfl rfl rfl
  refine ⟨⟨untouchedRoll forgotten roll, fun asking => ?_, fun _ => ⟨.inl rests, by rw [left]⟩⟩, dropped⟩
  exact absurd asking (restingQuiet (.inl rests))

theorem startSound {w : World} (h : Sound w) (connect : ConnectResult) (writes : List WriteResult) :
    Sound (w.start connect writes) ∧ (w.start connect writes).crashed = w.crashed := by
  have ready : Untouched w ((w.entering writes).setStopping false) := untouchedOf rfl rfl rfl rfl rfl rfl
  have running : Sound ((w.entering writes).setStopping false) :=
    ⟨untouchedRoll ready h.roll, h.guarded, nofun⟩
  exact retriedSound running connect

theorem readSound {w : World} (h : Sound w) (i : ConnId) :
    (Sound (w.read i .eof) ∧ (w.read i .eof).crashed = w.crashed) ∧
      Sound (w.read i .error) ∧ (w.read i .error).crashed = w.crashed := by
  have ended : Sound (w.endConn i) := soundSource h (setConnUntouched w rfl) rfl
  have failed : Sound (w.failConn i) := soundSource h (setConnUntouched w rfl) rfl
  unfold World.read
  split
  · exact ⟨⟨endedSound ended _, closedCrashed _ _⟩, failed, rfl⟩
  · exact ⟨⟨h, rfl⟩, h, rfl⟩

theorem runTaskSound {w : World} (h : Sound w) : Sound w.runTask ∧ w.runTask.crashed = w.crashed := by
  unfold World.runTask
  cases posted : w.tasks with
  | nil => exact ⟨h, rfl⟩
  | cons c rest =>
    have moved : (({ w with tasks := rest } : World).addTimer (.connect c)).retries = w.retries := by
      simp [World.retries, World.addTimer, connectRetry, posted]
    exact ⟨soundSource h (untouchedOf rfl rfl rfl rfl rfl moved) rfl, rfl⟩

theorem actSound {w : World} (h : Sound w) {call : Call} (quiet : Quiet w call) :
    Sound (act w call) ∧ SendsSafely w call := by
  have safe : ∀ {after : World}, Sound after ∧ after.crashed = w.crashed →
      Sound after ∧ (¬ Throws call → after.crashed = w.crashed) :=
    fun both => ⟨both.1, fun _ => both.2⟩
  cases call with
  | start connect writes => exact safe (startSound h connect writes)
  | happening hap =>
    cases hap with
    | enter writes => exact safe ⟨soundSource h (untouchedOf rfl rfl rfl rfl rfl rfl) rfl, rfl⟩
    | frame i channel payload => exact safe ⟨soundSource h (untouchedOf rfl rfl rfl rfl rfl rfl) rfl, rfl⟩
    | message i msg => exact safe (messageSound h msg)
    | writable c failed => exact safe (writableSound h c failed)
    | ended i => exact safe (readSound h i).1
    | broken i => exact safe (readSound h i).2
    | fire n connect => exact safe (fireSound h n connect quiet)
    | runTask => exact safe (runTaskSound h)
    | stop writes => exact safe (stopSound h writes)
    | stored i rest =>
      cases rest with
      | ok rest => exact safe ⟨soundSource h (setConnUntouched w rfl) rfl, rfl⟩
      | error e => exact ⟨soundSource h (untouchedOf rfl rfl rfl rfl rfl rfl) rfl, fun calm => absurd trivial calm⟩

theorem createdSound (order : HeaderOrder) (upstreamUrl streamPath : Bytes) :
    Sound (World.create order upstreamUrl streamPath) :=
  ⟨⟨nofun, nofun, .nil, nofun, by rintro c (_ | _) <;> contradiction, nofun,
    by rintro c (_ | _) <;> contradiction⟩, by rintro (_ | _ | _) <;> contradiction, nofun⟩

/-! A source never waits for an answer without a connection, and never sends on none. -/
theorem neverNull (order : HeaderOrder) (upstreamUrl streamPath : Bytes) (calls : List Call)
    (quiet : Throughout act Quiet (World.create order upstreamUrl streamPath) calls) :
    Always act Guarded (World.create order upstreamUrl streamPath) calls ∧
      Throughout act SendsSafely (World.create order upstreamUrl streamPath) calls := by
  have start := createdSound order upstreamUrl streamPath
  have keeps : ∀ w call, Sound w → Quiet w call → Sound (act w call) :=
    fun _ _ sound calm => (actSound sound calm).1
  have both : ∀ w call, Sound w → (Quiet w call ↔ Quiet w call ∧ SendsSafely w call) :=
    fun _ _ sound => ⟨fun calm => ⟨calm, (actSound sound calm).2⟩, And.left⟩
  refine ⟨alwaysAlong keeps (fun _ sound => sound.guarded) start quiet, ?_⟩
  exact throughoutMono (fun _ _ => And.right) ((throughoutAlong keeps both start calls).mp quiet)

/-! A 404 has a client replaced while its connection is open. The connection closes
behind it, the next client is destroyed before it connects, and the third connects
at its retry. -/
def supersededThenRetried : List Call :=
  [.start .inProgress [], .happening (.writable 0 false), .happening (.message 0 (errorResponse 1 404 [])),
    .happening (.fire 0 .inProgress), .happening (.ended 0), .happening (.fire 0 .refused),
    .happening (.fire 0 .immediate), .happening (.message 1 (ok 1)), .happening (.stop [])]

theorem supersededGuarded :
    Always act Guarded (World.create insertionOrder (ascii "rtsp://10.0.0.9/cam") (ascii "/cam"))
      supersededThenRetried ∧
    Throughout act SendsSafely (World.create insertionOrder (ascii "rtsp://10.0.0.9/cam") (ascii "/cam"))
      supersededThenRetried :=
  neverNull insertionOrder _ _ supersededThenRetried (by decide)

end RtspRelay.NullConnection
