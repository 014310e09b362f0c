import Mathlib.Data.List.Chain
import MassRelay.Lib.Machine
import MassRelay.Ts.Replica
import MassRelay.Ts.Sockets

/-!
# MassRelay.Ts.Reconnect

A client whose page only listens, from its one `connect` on.
-/

namespace MassRelay.Ts

/-- A client, the callbacks it made, and the sockets that have answered its joins. -/
structure Transcript where
  client : CollabClient
  log : List Callback := []
  connects : List ConnectArgs := []
  answered : List Nat := []

/-! ### What a page hears -/

namespace Callback

/-- Up for `onConnect` and down for `onDisconnect`. -/
def edge : Callback → Option Bool
  | .onConnect _ => some true
  | .onDisconnect => some false
  | _ => none

def isReconnecting : Callback → Bool
  | .onReconnecting _ => true
  | _ => false

def isSessionEnded : Callback → Bool
  | .onSessionEnded _ => true
  | _ => false

/-- The answer to a join, which `onEvent` is the first to get. -/
def roomJoined? : Callback → Option RoomJoined
  | .onEvent { event := .roomJoined rj, .. } => some rj
  | _ => none

end Callback

def edges (log : List Callback) : List Bool := log.filterMap Callback.edge

/-- The `onReconnecting` calls since the latest `onConnect`. -/
def attempts (log : List Callback) : Nat :=
  log.foldl
    (fun n callback =>
      if callback.edge = some true then 0 else if callback.isReconnecting then n + 1 else n) 0

/-- The session id of the latest answer that names one. -/
def namedSession (sessionId : String) (log : List Callback) : String :=
  (log.filterMap Callback.roomJoined?).foldl
    (fun sessionId rj => if rj.room.sessionId ≠ "" then rj.room.sessionId else sessionId) sessionId

/-- The calls of `onConnect` and `onDisconnect` take turns, and the last was `onConnect` when
the client is connected. -/
structure Paired (log : List Callback) (connected : Bool) : Prop where
  alternate : (edges log).IsChain (· ≠ ·)
  first : (edges log).head? ≠ some false
  last : connected = true ↔ (edges log).getLast? = some true

variable {log : List Callback} {callback : Callback} {connected : Bool}

theorem edges_concat : edges (log ++ [callback]) = edges log ++ callback.edge.toList := by
  rw [edges, List.filterMap_append]
  cases h : callback.edge <;> simp [edges, h]

theorem attempts_concat : attempts (log ++ [callback]) =
    if callback.edge = some true then 0
    else if callback.isReconnecting then attempts log + 1 else attempts log := by
  rw [attempts, List.foldl_append]
  rfl

/-- Turns that begin with up and do not end with it. -/
theorem count_of_alternate : ∀ (turns : List Bool), turns.IsChain (· ≠ ·) →
    turns.head? ≠ some false → turns.getLast? ≠ some true → turns.count true = turns.count false
  | [], _, _, _ => rfl
  | [b], _, hfirst, hlast => by cases b <;> simp at hfirst hlast
  | a :: b :: turns, halternate, hfirst, hlast => by
    obtain ⟨hab, hrest⟩ := List.isChain_cons_cons.mp halternate
    obtain rfl : a = true := by simpa using hfirst
    obtain rfl : b = false := by simpa using hab.symm
    have hcount := count_of_alternate turns hrest.tail
      (by
        intro hhead
        cases turns with
        | nil => cases hhead
        | cons c turns =>
          obtain rfl : c = false := by simpa using hhead
          exact (List.isChain_cons_cons.mp hrest).1 rfl)
      (by
        intro hlast'
        cases turns with
        | nil => cases hlast'
        | cons c turns => exact hlast (by simpa using hlast'))
    simp [hcount]

namespace Paired

theorem nil : Paired [] false where
  alternate := List.IsChain.nil
  first := by simp [edges]
  last := by simp [edges]

theorem other (h : Paired log connected) (hedge : callback.edge = none) :
    Paired (log ++ [callback]) connected := by
  have heq : edges (log ++ [callback]) = edges log := by simp [edges_concat, hedge]
  exact ⟨heq ▸ h.alternate, heq ▸ h.first, heq ▸ h.last⟩

theorem turn (h : Paired log connected) (hedge : callback.edge = some (!connected)) :
    Paired (log ++ [callback]) (!connected) := by
  have heq : edges (log ++ [callback]) = edges log ++ [!connected] := by simp [edges_concat, hedge]
  refine ⟨?_, ?_, ?_⟩
  · rw [heq, List.isChain_append]
    refine ⟨h.alternate, List.IsChain.singleton _, fun last hlast b hb => ?_⟩
    obtain rfl : b = !connected := by simpa using hb.symm
    intro hsame
    have hup := h.last
    rw [Option.mem_def.mp hlast, hsame] at hup
    cases connected <;> simp at hup
  · rw [heq]
    cases hrest : edges log with
    | nil =>
      have hup := h.last
      rw [hrest] at hup
      cases connected <;> simp at hup ⊢
    | cons b bs =>
      have hfirst := h.first
      rw [hrest] at hfirst
      exact hfirst
  · rw [heq, List.getLast?_append]
    cases connected <;> simp

/-- Who is not connected has heard of every disconnect. -/
theorem count_eq (h : Paired log false) :
    (edges log).count true = (edges log).count false :=
  count_of_alternate _ h.alternate h.first fun hlast => by simpa using h.last.mpr hlast

end Paired

/-! ### The machine -/

/-- The sockets that answer a join in this job. -/
def Job.answers : Job → List Nat
  | .message socket { event := .roomJoined _, .. } => [socket]
  | _ => []

namespace Transcript

def page : Listener Transcript where
  client := client
  setClient c s := { s with client := c }
  call callback s := { s with log := s.log ++ [callback] }
  client_setClient _ _ := rfl
  client_call _ _ := rfl

def step (s : Transcript) : Move → Option Transcript
  | .call (.connect args) =>
    (page.connect args s).map fun s => { s with connects := s.connects ++ [args] }
  | .call .disconnect => some (page.disconnect s)
  | .job job => page.run job { s with answered := s.answered ++ job.answers }

/-- The page calls `connect` once. A socket delivers nothing once it is closed, and no second
answer to a join. -/
def Orderly (s : Transcript) : Move → Prop
  | .call (.connect _) => s.connects = []
  | .job (.message socket event) =>
    socket ∈ s.client.sockets ∧
      ∀ answer ∈ (Job.message socket event).answers, answer ∉ s.answered
  | _ => True

end Transcript

theorem namedSession_other {sessionId : String} (h : callback.roomJoined? = none) :
    namedSession sessionId (log ++ [callback]) = namedSession sessionId log := by
  simp [namedSession, h]

/-- What the page has heard, and what the client keeps of it. -/
structure Heard (args : ConnectArgs) (n : Nat) (log : List Callback) (c : CollabClient) : Prop where
  maxRetries : c.maxRetries = n
  attempts : attempts log = c.retryCount
  bounded : ∀ p, p <+: log → Ts.attempts p ≤ n
  ended : log.countP Callback.isSessionEnded ≤ c.explicitDisconnect.toNat
  joined : log.filterMap Callback.roomJoined? ≠ [] → c.hasJoined = true
  session : c.sessionId = namedSession args.sessionId log

namespace Heard

variable {args : ConnectArgs} {n : Nat} {c c' : CollabClient}

theorem bounded_concat (hbounded : ∀ p, p <+: log → Ts.attempts p ≤ n)
    (h : Ts.attempts (log ++ [callback]) ≤ n) (p : List Callback) (hp : p <+: log ++ [callback]) :
    Ts.attempts p ≤ n := by
  rcases List.prefix_concat_iff.mp hp with rfl | hp
  · exact h
  · exact hbounded p hp

/-- A callback that tells of no attempt, no answer and no end. -/
theorem other (h : Heard args n log c) (hedge : callback.edge ≠ some true)
    (hreconnecting : callback.isReconnecting = false) (hended : callback.isSessionEnded = false)
    (hjoined : callback.roomJoined? = none) : Heard args n (log ++ [callback]) c := by
  have hattempts : Ts.attempts (log ++ [callback]) = Ts.attempts log := by
    rw [attempts_concat, if_neg hedge, hreconnecting, if_neg Bool.false_ne_true]
  refine
    { maxRetries := h.maxRetries
      attempts := hattempts.trans h.attempts
      bounded := bounded_concat h.bounded (hattempts ▸ h.bounded _ (List.prefix_refl _))
      ended := ?_
      joined := ?_
      session := h.session.trans (namedSession_other hjoined).symm }
  · simpa [hended] using h.ended
  · intro hne
    exact h.joined fun hnil => hne (by simp [hnil, hjoined])

/-- The end of the session, the first one that the page hears of. -/
theorem sessionEnded (h : Heard args n log c) (hexplicit : c.explicitDisconnect = true)
    (hended : log.countP Callback.isSessionEnded = 0) (reason : String) :
    Heard args n (log ++ [.onSessionEnded reason]) c := by
  have hattempts : Ts.attempts (log ++ [.onSessionEnded reason]) = Ts.attempts log := by
    rw [attempts_concat]
    rfl
  refine
    { maxRetries := h.maxRetries
      attempts := hattempts.trans h.attempts
      bounded := bounded_concat h.bounded (hattempts ▸ h.bounded _ (List.prefix_refl _))
      ended := by simp [hended, hexplicit, Callback.isSessionEnded]
      joined := ?_
      session := h.session.trans (namedSession_other rfl).symm }
  intro hne
  exact h.joined fun hnil => hne (by simp [hnil, Callback.roomJoined?])

/-- One more attempt, while there are any left. -/
theorem attempt (h : Heard args n log c) (hcount : c.retryCount < n) (k : Nat) :
    Heard args n (log ++ [.onReconnecting k]) { c with retryCount := c.retryCount + 1 } := by
  have hattempts : Ts.attempts (log ++ [.onReconnecting k]) = c.retryCount + 1 := by
    rw [attempts_concat, h.attempts]
    rfl
  refine
    { maxRetries := h.maxRetries
      attempts := hattempts
      bounded := bounded_concat h.bounded (hattempts.trans_le hcount)
      ended := by simpa [Callback.isSessionEnded] using h.ended
      joined := ?_
      session := h.session.trans (namedSession_other rfl).symm }
  intro hne
  exact h.joined fun hnil => hne (by simp [hnil, Callback.roomJoined?])

/-- The answer to a join. -/
theorem answer (h : Heard args n log c) (eventId from' : String) (rj : RoomJoined) (id : String) :
    Heard args n (log ++ [.onEvent ⟨eventId, from', .roomJoined rj⟩] ++ [.onConnect id])
      (c.setRoom rj) := by
  have hsession : namedSession args.sessionId (log ++ [.onEvent ⟨eventId, from', .roomJoined rj⟩]) =
      (c.setRoom rj).sessionId := by
    rw [CollabClient.setRoom, h.session]
    simp [namedSession, Callback.roomJoined?]
  have hevent : Ts.attempts (log ++ [.onEvent ⟨eventId, from', .roomJoined rj⟩]) =
      Ts.attempts log := by
    rw [attempts_concat]
    rfl
  have hconnect : Ts.attempts
      (log ++ [.onEvent ⟨eventId, from', .roomJoined rj⟩] ++ [.onConnect id]) = 0 := by
    rw [attempts_concat]
    rfl
  exact
    { maxRetries := h.maxRetries
      attempts := hconnect
      bounded := bounded_concat
        (bounded_concat h.bounded (hevent ▸ h.bounded _ (List.prefix_refl _)))
        (hconnect ▸ Nat.zero_le n)
      ended := by simpa [Callback.isSessionEnded, CollabClient.setRoom] using h.ended
      joined := fun _ => rfl
      session := hsession.symm.trans (namedSession_other rfl).symm }

/-- Only what the page hears of matters. -/
theorem congr (h : Heard args n log c) (hmax : c'.maxRetries = c.maxRetries)
    (hcount : c'.retryCount = c.retryCount)
    (hexplicit : c.explicitDisconnect = true → c'.explicitDisconnect = true)
    (hjoined : c'.hasJoined = c.hasJoined) (hsession : c'.sessionId = c.sessionId) :
    Heard args n log c' where
  maxRetries := hmax.trans h.maxRetries
  attempts := h.attempts.trans hcount.symm
  bounded := h.bounded
  ended := by
    refine Nat.le_trans h.ended ?_
    cases hover : c.explicitDisconnect
    · exact Nat.zero_le _
    · rw [hexplicit hover]
  joined := hjoined ▸ h.joined
  session := hsession.trans h.session

end Heard

namespace Transcript

instance : ∀ s m, Decidable (Orderly s m)
  | s, .call (.connect _) => inferInstanceAs (Decidable (s.connects = []))
  | s, .job (.message socket event) => inferInstanceAs (Decidable (socket ∈ s.client.sockets ∧
      ∀ answer ∈ (Job.message socket event).answers, answer ∉ s.answered))
  | _, .call .disconnect | _, .job (.opened _) | _, .job (.refused _) | _, .job (.closed _)
  | _, .job (.failed ..) | _, .job (.fired _) | _, .job (.checked ..) | _, .job (.gotToken ..)
  | _, .job (.tokenFailed ..) => isTrue trivial

/-- What holds of a client from its `connect` on. -/
structure Inv (args : ConnectArgs) (n : Nat) (s : Transcript) : Prop where
  connects : s.connects = [args]
  line : s.client.OneLine
  paired : Paired s.log s.client.isConnected
  held : s.client.isConnected = true → ∃ socket, s.client.grpc = some socket ∧ socket ∈ s.answered
  stopped : s.client.explicitDisconnect = true →
    s.client.grpc = none ∧ ∀ timer, .retry timer ∉ s.client.tasks
  heard : Heard args n s.log s.client

variable {args : ConnectArgs} {n : Nat} {s : Transcript}

theorem client_told (wasConnected : Bool) (callback : Callback) :
    (if wasConnected then page.call callback s else s).client = s.client := by
  split <;> rfl

namespace Inv

/-- A callback that says nothing of the connection. -/
theorem call (h : Inv args n s) (hedge : callback.edge = none)
    (hreconnecting : callback.isReconnecting = false) (hended : callback.isSessionEnded = false)
    (hjoined : callback.roomJoined? = none) : Inv args n (page.call callback s) where
  connects := h.connects
  line := h.line
  paired := h.paired.other hedge
  held := h.held
  stopped := h.stopped
  heard := h.heard.other (by simp [hedge]) hreconnecting hended hjoined

theorem endCall (h : Inv args n s) (hexplicit : s.client.explicitDisconnect = true)
    (hended : s.log.countP Callback.isSessionEnded = 0) (reason : String) :
    Inv args n (page.call (.onSessionEnded reason) s) where
  connects := h.connects
  line := h.line
  paired := h.paired.other rfl
  held := h.held
  stopped := h.stopped
  heard := h.heard.sessionEnded hexplicit hended reason

/-- A change of what is not about the connection. -/
theorem modify (h : Inv args n s) {f : CollabClient → CollabClient}
    (hline : (f s.client).OneLine)
    (htasks : ∀ timer, .retry timer ∈ (f s.client).tasks → .retry timer ∈ s.client.tasks)
    (hgrpc : (f s.client).grpc = s.client.grpc)
    (hconnected : (f s.client).isConnected = s.client.isConnected)
    (hexplicit : (f s.client).explicitDisconnect = s.client.explicitDisconnect)
    (hmax : (f s.client).maxRetries = s.client.maxRetries)
    (hcount : (f s.client).retryCount = s.client.retryCount)
    (hjoined : (f s.client).hasJoined = s.client.hasJoined)
    (hsession : (f s.client).sessionId = s.client.sessionId) :
    Inv args n (page.modify f s) where
  connects := h.connects
  line := hline
  paired := hconnected ▸ h.paired
  held := by
    intro hup
    obtain ⟨socket, hsocket, hanswered⟩ := h.held (hconnected ▸ hup)
    exact ⟨socket, hgrpc.trans hsocket, hanswered⟩
  stopped := by
    intro hover
    obtain ⟨hnone, hretry⟩ := h.stopped (hexplicit ▸ hover)
    exact ⟨hgrpc.trans hnone, fun timer hmem => hretry timer (htasks timer hmem)⟩
  heard := h.heard.congr hmax hcount (fun hover => hexplicit.trans hover) hjoined hsession

/-- The client lets its socket go, and says so when it was connected. -/
theorem leave (h : Inv args n s) {c : CollabClient} (hleft : s.client.Left c)
    (hexplicit : s.client.explicitDisconnect = true → c.explicitDisconnect = true)
    (hretry : c.explicitDisconnect = true → ∀ timer, .retry timer ∉ s.client.tasks) :
    Inv args n (if s.client.isConnected then page.call .onDisconnect { s with client := c }
      else { s with client := c }) := by
  have hheard : Heard args n s.log c :=
    h.heard.congr hleft.maxRetries hleft.retryCount hexplicit hleft.hasJoined hleft.sessionId
  have hheld : c.isConnected = true → ∃ socket, c.grpc = some socket ∧ socket ∈ s.answered :=
    fun hup => absurd (hleft.isConnected.symm.trans hup) Bool.false_ne_true
  have hover : c.explicitDisconnect = true → c.grpc = none ∧ ∀ timer, .retry timer ∉ c.tasks :=
    fun hover => ⟨hleft.grpc, hleft.tasks ▸ hretry hover⟩
  by_cases hup : s.client.isConnected = true
  · rw [if_pos hup]
    have hpaired : Paired s.log true := hup ▸ h.paired
    exact
      { connects := h.connects
        line := h.line.drop hleft
        paired := hleft.isConnected ▸ hpaired.turn rfl
        held := hheld
        stopped := hover
        heard := hheard.other (by decide) rfl rfl rfl }
  · rw [if_neg hup]
    exact
      { connects := h.connects
        line := h.line.drop hleft
        paired := hleft.isConnected ▸ Bool.eq_false_iff.mpr hup ▸ h.paired
        held := hheld
        stopped := hover
        heard := hheard }

theorem not_connected (h : Inv args n s) (hgrpc : s.client.grpc = none) :
    s.client.isConnected = false := by
  refine Bool.eq_false_iff.mpr fun hup => ?_
  obtain ⟨socket, hsocket, -⟩ := h.held hup
  rw [hgrpc] at hsocket
  cases hsocket

theorem not_ended (h : Inv args n s) (hexplicit : s.client.explicitDisconnect = false) :
    s.log.countP Callback.isSessionEnded = 0 := by
  have hended := h.heard.ended
  rw [hexplicit] at hended
  exact Nat.le_zero.mp hended

/-- A client that waits for nothing gives up. -/
theorem endSession (h : Inv args n s) (hidle : s.client.Idle)
    (hexplicit : s.client.explicitDisconnect = false) (reason : String) :
    Inv args n (page.endSession reason s) := by
  have hset : Inv args n (page.modify
      (fun c => { c with explicitDisconnect := true, isConnecting := false }) s) :=
    { connects := h.connects
      line := h.line.congr rfl rfl rfl rfl
      paired := h.paired
      held := h.held
      stopped := fun _ => ⟨hidle.grpc, CollabClient.not_retry hidle.underway⟩
      heard := h.heard.congr rfl rfl (fun _ => rfl) rfl rfl }
  exact hset.endCall rfl (h.not_ended hexplicit) reason

/-- A client that waits for nothing tries again, or gives up. -/
theorem scheduleReconnect (h : Inv args n s) (hidle : s.client.Idle)
    (hexplicit : s.client.explicitDisconnect = false) : Inv args n (page.scheduleReconnect s) := by
  unfold Page.scheduleReconnect
  split
  · exact h.endSession hidle hexplicit _
  · rename_i hretries
    have hcount : s.client.retryCount < n := by
      rw [← h.heard.maxRetries]
      exact Nat.lt_of_not_le hretries
    have hline : ({ s.client with
        retryCount := s.client.retryCount + 1, isConnecting := true } : CollabClient).OneLine :=
      h.line.congr rfl rfl rfl rfl
    exact
      { connects := h.connects
        line := hline.await ⟨hidle.grpc, hidle.underway⟩ rfl rfl rfl
          fun timer heq => congrArg some (Task.retry.inj heq)
        paired := h.paired.other rfl
        held := h.held
        stopped := fun hover => absurd (hover.symm.trans hexplicit) Bool.true_eq_false.mp
        heard := (h.heard.attempt hcount _).congr rfl rfl id rfl rfl }

/-- What a client does when it lets its socket go for good. -/
theorem closeFromRelay (h : Inv args n s) (hgrpc : s.client.grpc ≠ none) :
    Inv args n (page.closeFromRelay s) :=
  h.leave (CollabClient.left_close h.line.sockets true) (fun _ => by simp [CollabClient.resetState])
    fun _ => CollabClient.not_retry (h.line.idle_of_socket hgrpc)

/-- After it, the page is told nothing but the end of the session. -/
theorem closeFromRelay_ended (s : Transcript) :
    (page.closeFromRelay s).client.explicitDisconnect = true ∧
      (page.closeFromRelay s).client.hasJoined = s.client.hasJoined ∧
      (page.closeFromRelay s).log.countP Callback.isSessionEnded =
        s.log.countP Callback.isSessionEnded := by
  unfold Page.closeFromRelay
  dsimp only
  split <;> simp [page, CollabClient.resetState, Callback.isSessionEnded, Page.modify]

/-- The client without its socket waits for nothing. -/
theorem idle_left (h : Inv args n s) {c : CollabClient} (hleft : s.client.Left c)
    (hgrpc : s.client.grpc ≠ none) : c.Idle where
  grpc := hleft.grpc
  underway := by
    rw [CollabClient.underway, hleft.tasks]
    exact h.line.idle_of_socket hgrpc

theorem dropAndReconnect (h : Inv args n s) (hgrpc : s.client.grpc ≠ none)
    (hexplicit : s.client.explicitDisconnect = false) : Inv args n (page.dropAndReconnect s) := by
  have hleft := CollabClient.left_close h.line.sockets s.client.explicitDisconnect
  have hleave :=
    h.leave hleft (fun hover => absurd (hover.symm.trans hexplicit) Bool.true_eq_false.mp)
    fun _ => CollabClient.not_retry (h.line.idle_of_socket hgrpc)
  have hclient := client_told (s := { s with client := s.client.resetState.close s.client.grpc })
    s.client.isConnected .onDisconnect
  refine hleave.scheduleReconnect ?_ ?_
  · exact hclient ▸ h.idle_left hleft hgrpc
  · exact hclient ▸ (by simpa [CollabClient.resetState] using hexplicit)

theorem handleConnectionClosed (h : Inv args n s) {socket : Nat}
    (hgrpc : s.client.grpc = some socket) :
    Inv args n (page.handleConnectionClosed
      (page.modify (fun c => { c with sockets := c.sockets.erase socket }) s)) := by
  have hsocket : s.client.grpc ≠ none := hgrpc ▸ Option.some_ne_none _
  have hleft := CollabClient.left_closed h.line.sockets hgrpc
  have hleave := h.leave hleft id fun _ => CollabClient.not_retry (h.line.idle_of_socket hsocket)
  have hclient := client_told
    (s := { s with
      client := { s.client with sockets := s.client.sockets.erase socket }.resetState })
    s.client.isConnected .onDisconnect
  have hrest : ∀ t, Inv args n t → t.client.Idle →
      Inv args n (if !(page.client t).explicitDisconnect && (page.client t).hasJoined &&
        (page.client t).reconnectEnabled then page.scheduleReconnect t else t) := by
    intro t ht hidle
    split
    · rename_i hagain
      have hexplicit := (Bool.and_eq_true_iff.mp (Bool.and_eq_true_iff.mp hagain).1).1
      exact ht.scheduleReconnect hidle ((Bool.not_eq_true' _).mp hexplicit)
    · exact ht
  exact hrest _ hleave (hclient ▸ h.idle_left hleft hsocket)

theorem disconnect (h : Inv args n s) : Inv args n (page.disconnect s) := by
  have hretry := h.line.clearRetry.not_retry_of_timer CollabClient.clearRetry_retryTimer
  have hcleared : Inv args n
      (page.modify (fun c => { c.clearRetry with isConnecting := false }) s) :=
    h.modify (h.line.clearRetry.congr rfl rfl rfl rfl)
      (fun _ => CollabClient.OneLine.mem_clearRetry) (by simp) (by simp) (by simp)
        (by simp) (by simp)
      (by simp) (by simp)
  unfold Page.disconnect
  simp only [Page.modify, CollabClient.stop_eq]
  split
  · rename_i hgrpc
    exact
      { connects := h.connects
        line := hcleared.line.congr rfl rfl rfl rfl
        paired := hcleared.paired
        held := hcleared.held
        stopped := fun _ => ⟨hgrpc, hretry⟩
        heard := hcleared.heard.congr rfl rfl (fun _ => rfl) rfl rfl }
  · have hleft := CollabClient.left_hangUp (c := { s.client.clearRetry with
      explicitDisconnect := true, isConnecting := false }) hcleared.line.sockets
    refine hcleared.leave ⟨hleft.1, hleft.2, hleft.3, hleft.4, hleft.5, hleft.6, hleft.7, hleft.8,
      hleft.9, hleft.10, hleft.11, hleft.12, hleft.13⟩ ?_ fun _ => hretry
    exact fun _ => CollabClient.hangUp_explicitDisconnect

theorem handleError (h : Inv args n s) {socket : Nat} (hgrpc : s.client.grpc = some socket)
    (err : ErrorEvent) : Inv args n (page.handleError err s) := by
  have hsocket : s.client.grpc ≠ none := hgrpc ▸ Option.some_ne_none _
  have hcall : Inv args n (page.call (.onErrorEvent err.code err.message) s) :=
    h.call rfl rfl rfl rfl
  have hexplicit : s.client.explicitDisconnect = false :=
    Bool.eq_false_iff.mpr fun hover => hsocket (h.stopped hover).1
  obtain ⟨hover, -, hended⟩ :=
    closeFromRelay_ended (page.call (.onErrorEvent err.code err.message) s)
  unfold Page.handleError
  dsimp only
  split
  · exact hcall
  · split
    · exact (hcall.closeFromRelay hsocket).endCall hover
        (hended.trans (hcall.not_ended hexplicit)) _
    · exact hcall.closeFromRelay hsocket

theorem handleSessionEnded (h : Inv args n s) {socket : Nat} (hgrpc : s.client.grpc = some socket)
    (reason : String) : Inv args n (page.handleSessionEnded reason s) := by
  have hsocket : s.client.grpc ≠ none := hgrpc ▸ Option.some_ne_none _
  have hexplicit : s.client.explicitDisconnect = false :=
    Bool.eq_false_iff.mpr fun hover => hsocket (h.stopped hover).1
  obtain ⟨hover, -, hended⟩ := closeFromRelay_ended s
  unfold Page.handleSessionEnded
  split
  · exact h.dropAndReconnect hsocket hexplicit
  · exact (h.closeFromRelay hsocket).endCall hover (hended.trans (h.not_ended hexplicit)) reason

/-- A peer that the client adds, to its peers and to those of the page. -/
theorem addPeer (h : Inv args n s) (peer : PeerInfoJson) : Inv args n (page.addPeer peer s) := by
  have hset : Inv args n (page.modify (.setPeer peer) s) := by
    change Inv args n (page.setClient (s.client.setPeer peer) s)
    rw [CollabClient.setPeer_eq]
    exact h.modify (f := fun c => { c with peers := (s.client.setPeer peer).peers })
      (h.line.congr rfl rfl rfl rfl) (fun _ => id) rfl rfl rfl rfl rfl rfl rfl
  exact hset.call rfl rfl rfl rfl

/-- The answer to a join, on a socket that has given none. -/
theorem handleRoomJoined (h : Inv args n s) {socket : Nat} (hgrpc : s.client.grpc = some socket)
    (hconnected : s.client.isConnected = false) (hanswered : socket ∈ s.answered)
    (eventId from' : String) (rj : RoomJoined) :
    Inv args n (page.handleEvent ⟨eventId, from', .roomJoined rj⟩ s) := by
  have hpaired : Paired (s.log ++ [.onEvent ⟨eventId, from', .roomJoined rj⟩]) false :=
    Paired.other (hconnected ▸ h.paired) rfl
  have hexplicit : s.client.explicitDisconnect = false :=
    Bool.eq_false_iff.mpr fun hover => by simp [(h.stopped hover).1] at hgrpc
  have hroom : Inv args n { s with
      client := { s.client.setRoom rj with peers := ∅ }
      log := s.log ++ [.onEvent ⟨eventId, from', .roomJoined rj⟩] ++ [.onConnect rj.clientId] } :=
    { connects := h.connects
      line := h.line.congr rfl rfl rfl rfl
      paired := hpaired.turn rfl
      held := fun _ => ⟨socket, hgrpc, hanswered⟩
      stopped := fun hover => absurd (hover.symm.trans hexplicit) Bool.true_eq_false.mp
      heard := (h.heard.answer eventId from' rj _).congr rfl rfl id rfl rfl }
  have hpeers : ∀ (peers : List (String × PeerInfo)) (t : Transcript), Inv args n t →
      Inv args n (peers.foldl (fun t entry => page.addPeer (peerToJson entry.2) t) t) := by
    intro peers
    induction peers with
    | nil => exact fun t ht => ht
    | cons entry peers ih => exact fun t ht => ih _ (ht.addPeer _)
  exact hpeers _ _ (hroom.addPeer _)

/-- Any other event. -/
theorem handleEvent (h : Inv args n s) {socket : Nat} (hgrpc : s.client.grpc = some socket)
    (event : CollabEvent) (hjoined : (Callback.onEvent event).roomJoined? = none) :
    Inv args n (page.handleEvent event s) := by
  have hcall : Inv args n (page.call (.onEvent event) s) := h.call rfl rfl rfl hjoined
  unfold Page.handleEvent
  cases hevent : event.event with
  | error err => exact hcall.handleError hgrpc err
  | roomJoined rj =>
    obtain ⟨eventId, fromClientId, e⟩ := event
    cases hevent
    cases hjoined
  | peerJoined peer => exact hcall.addPeer _
  | peerLeft left =>
    have hset : Inv args n (page.modify
        (fun c => { c with peers := c.peers.erase left.clientId })
          (page.call (.onEvent event) s)) :=
      hcall.modify (hcall.line.congr rfl rfl rfl rfl) (fun _ => id) rfl rfl rfl rfl rfl rfl rfl
    exact hset.call rfl rfl rfl rfl
  | sessionEnded reason => exact hcall.handleSessionEnded hgrpc reason
  | ownerChanged newOwnerId =>
    have hset : Inv args n (page.modify (fun c => { c with
        isOwner := newOwnerId = c.clientId
        peers := CollabClient.setOwner newOwnerId c.peers }) (page.call (.onEvent event) s)) :=
      hcall.modify (hcall.line.congr rfl rfl rfl rfl) (fun _ => id) rfl rfl rfl rfl rfl rfl rfl
    exact hset.call rfl rfl rfl rfl
  | credentialsChanged cc => exact hcall.call rfl rfl rfl rfl
  | titleChanged tc =>
    have hset : Inv args n (page.modify
        (fun c => { c with title := tc.title }) (page.call (.onEvent event) s)) :=
      hcall.modify (hcall.line.congr rfl rfl rfl rfl) (fun _ => id) rfl rfl rfl rfl rfl rfl rfl
    exact hset.call rfl rfl rfl rfl
  | appMessage msg => exact hcall.call rfl rfl rfl rfl
  | presence | sceneUpdate | cursorUpdate | textUpdate | sceneInitResponse | sceneInitRequest =>
    exact hcall

/-- A task that ends. -/
theorem endTask (h : Inv args n s) (task : Task) : Inv args n (page.modify (.endTask task) s) :=
  h.modify (h.line.endTask task)
    (fun _ hmem => (List.mem_filter.mp hmem).1) rfl rfl rfl rfl rfl rfl rfl

/-- A client that waits for nothing and has not given up opens a socket, or asks for a token
first. -/
theorem openSocket (h : Inv args n s) (hexplicit : s.client.explicitDisconnect = false)
    {f : CollabClient → CollabClient} (hline : (f s.client).OneLine)
    (hconnected : (f s.client).isConnected = s.client.isConnected)
    (hgrpc : s.client.grpc = none)
    (hover : (f s.client).explicitDisconnect = s.client.explicitDisconnect)
    (hmax : (f s.client).maxRetries = s.client.maxRetries)
    (hcount : (f s.client).retryCount = s.client.retryCount)
    (hjoined : (f s.client).hasJoined = s.client.hasJoined)
    (hsession : (f s.client).sessionId = s.client.sessionId) : Inv args n (page.modify f s) where
  connects := h.connects
  line := hline
  paired := hconnected ▸ h.paired
  held := fun hup => by
    have := h.not_connected hgrpc
    simp [page, Page.modify, hconnected, this] at hup
  stopped := fun hup => by
    simp [page, Page.modify, hover, hexplicit] at hup
  heard := h.heard.congr hmax hcount (fun h => hover.trans h) hjoined hsession

theorem openWithToken (h : Inv args n s) (hidle : s.client.Idle)
    (hexplicit : s.client.explicitDisconnect = false) :
    Inv args n (page.modify .openWithToken s) := by
  refine h.openSocket hexplicit (h.line.openWithToken hidle) ?_ hidle.grpc ?_ ?_ ?_ ?_ ?_ <;>
    (unfold CollabClient.openWithToken; split <;> rfl)

theorem roomChecked (h : Inv args n s) (hidle : s.client.Idle) (status : Option Nat) :
    Inv args n (page.roomChecked status s) := by
  unfold Page.roomChecked
  split
  · exact h
  · rename_i hexplicit
    have hexplicit : s.client.explicitDisconnect = false := Bool.eq_false_iff.mpr hexplicit
    split
    · exact h.endSession hidle hexplicit _
    · split
      · exact h.openWithToken hidle hexplicit
      · exact h.scheduleReconnect hidle hexplicit

theorem gotToken (h : Inv args n s) (hidle : s.client.Idle) (token : String) :
    Inv args n (page.gotToken token s) := by
  unfold Page.gotToken
  split
  · exact h
  · rename_i hexplicit
    exact h.openSocket (Bool.eq_false_iff.mpr hexplicit) (h.line.openWebSocket hidle _) rfl
      hidle.grpc rfl rfl rfl rfl rfl

theorem getTokenFailed (h : Inv args n s) (hidle : s.client.Idle) (message : String) :
    Inv args n (page.getTokenFailed message s) := by
  have hcall : Inv args n (page.call (.onError message) s) := h.call rfl rfl rfl rfl
  unfold Page.getTokenFailed
  dsimp only
  split
  · exact hcall
  · rename_i hexplicit
    split
    · exact hcall.scheduleReconnect hidle (Bool.eq_false_iff.mpr hexplicit)
    · exact hcall.modify (hcall.line.congr rfl rfl rfl rfl)
        (fun _ => id) rfl rfl rfl rfl rfl rfl rfl

/-- A job of a client whose sockets are orderly. -/
theorem run (h : Inv args n s) {job : Job} {t : Transcript} (horderly : Orderly s (.job job))
    (hrun : step s (.job job) = some t) : Inv args n t := by
  have h' : Inv args n { s with answered := s.answered ++ job.answers } := by
    refine { h with held := fun hup => ?_ }
    obtain ⟨socket, hgrpc, hanswered⟩ := h.held hup
    exact ⟨socket, hgrpc, List.mem_append_left _ hanswered⟩
  have hsettle : ∀ {task : Task}, task ∈ s.client.tasks → task.rejoins = true →
      (s.client.endTask task).Idle := fun hmem hrejoins => h.line.idle_endTask hmem hrejoins
  cases job with
  | opened socket =>
    obtain ⟨-, rfl⟩ := Page.settle_eq_some.mp hrun
    have hended := h'.endTask (.opening socket)
    exact hended.modify (hended.line.sendOn _) (fun _ => by simp) (by simp) (by simp) (by simp)
      (by simp) (by simp) (by simp) (by simp)
  | refused socket =>
    obtain ⟨-, rfl⟩ := Page.settle_eq_some.mp hrun
    exact h'.endTask _
  | closed socket =>
    obtain ⟨-, heq⟩ := Option.ite_none_right_eq_some.mp hrun
    obtain rfl := Option.some.inj heq
    split
    · rename_i hgrpc
      exact h'.handleConnectionClosed hgrpc
    · rename_i hgrpc
      exact h'.modify (f := fun c => { c with sockets := c.sockets.erase socket })
        (h'.line.congr (h'.line.erase hgrpc) rfl rfl rfl) (fun _ => id) rfl rfl rfl rfl rfl rfl rfl
  | failed socket message =>
    obtain ⟨-, heq⟩ := Option.ite_none_right_eq_some.mp hrun
    exact Option.some.inj heq ▸ h'.call rfl rfl rfl rfl
  | message socket event =>
    obtain ⟨-, heq⟩ := Option.ite_none_right_eq_some.mp hrun
    obtain rfl := Option.some.inj heq
    obtain ⟨hopen, hanswers⟩ := horderly
    have hgrpc : s.client.grpc = some socket := by
      rw [h.line.sockets, Option.mem_toList] at hopen
      exact hopen
    cases hjoined : (Callback.onEvent event).roomJoined? with
    | none => exact h'.handleEvent hgrpc event hjoined
    | some rj =>
      obtain ⟨eventId, fromClientId, e⟩ := event
      cases e <;> cases hjoined
      -- a socket is answered once, so the client is not connected on it yet
      have hnew : socket ∉ s.answered := hanswers socket List.mem_cons_self
      have hconnected : s.client.isConnected = false := by
        refine Bool.eq_false_iff.mpr fun hup => ?_
        obtain ⟨socket', hgrpc', hanswered⟩ := h.held hup
        obtain rfl := Option.some.inj (hgrpc.symm.trans hgrpc')
        exact hnew hanswered
      exact h'.handleRoomJoined hgrpc hconnected
        (List.mem_append_right _ List.mem_cons_self) eventId fromClientId rj
  | fired timer =>
    obtain ⟨hmem, rfl⟩ := Page.settle_eq_some.mp hrun
    exact (h'.endTask _).modify ((h'.endTask _).line.checkRoom (hsettle hmem rfl))
      (fun timer hretry => by
        rcases List.mem_append.mp hretry with hold | hnew
        · exact hold
        · cases List.mem_singleton.mp hnew)
      rfl rfl rfl rfl rfl rfl rfl
  | checked fetch status =>
    obtain ⟨hmem, rfl⟩ := Page.settle_eq_some.mp hrun
    exact (h'.endTask _).roomChecked (hsettle hmem rfl) status
  | gotToken request token =>
    obtain ⟨hmem, rfl⟩ := Page.settle_eq_some.mp hrun
    exact (h'.endTask _).gotToken (hsettle hmem rfl) token
  | tokenFailed request message =>
    obtain ⟨hmem, rfl⟩ := Page.settle_eq_some.mp hrun
    exact (h'.endTask _).getTokenFailed (hsettle hmem rfl) message

end Inv

/-- A client that has not been asked to connect. -/
structure Unused (n : Nat) (s : Transcript) : Prop where
  connects : s.connects = []
  log : s.log = []
  asked : s.client.asked = []
  tasks : s.client.tasks = []
  sockets : s.client.sockets = []
  grpc : s.client.grpc = none
  retryTimer : s.client.retryTimer = none
  isConnected : s.client.isConnected = false
  maxRetries : s.client.maxRetries = n

namespace Unused

theorem connect (h : Unused n s) (args : ConnectArgs) {t : Transcript}
    (hstep : step s (.call (.connect args)) = some t) : Inv args n t := by
  obtain ⟨s', hs', rfl⟩ := Option.map_eq_some_iff.mp hstep
  rw [Page.connect, if_neg (by simp [page, h.isConnected])] at hs'
  obtain rfl := Option.some.inj hs'
  have hline : (s.client.connect args).OneLine := by
    refine ⟨?_, ?_, fun timer hmem => ?_⟩
    · rw [CollabClient.connect, h.sockets, h.grpc]
      rfl
    · rw [CollabClient.underway, CollabClient.connect, h.tasks, h.sockets]
      exact Nat.zero_le 1
    · rw [CollabClient.connect, h.tasks] at hmem
      cases hmem
  -- before the first socket there is nothing on record but the call
  have hconnect : Inv args n
      { s with client := s.client.connect args, connects := s.connects ++ [args] } :=
    { connects := by rw [h.connects, List.nil_append]
      line := hline
      paired := by
        rw [h.log, CollabClient.connect, h.isConnected]
        exact Paired.nil
      held := fun hup => absurd (h.isConnected.symm.trans hup) Bool.false_ne_true
      stopped := fun hover => absurd hover Bool.false_ne_true
      heard :=
        { maxRetries := h.maxRetries
          attempts := by
            rw [h.log]
            rfl
          bounded := by
            rw [h.log]
            intro p hp
            rw [List.prefix_nil.mp hp]
            exact Nat.zero_le n
          ended := by
            rw [h.log]
            exact Nat.zero_le _
          joined := by simp [h.log]
          session := by
            rw [h.log]
            rfl } }
  refine hconnect.openWithToken ⟨h.grpc, ?_⟩ rfl
  rw [CollabClient.underway, CollabClient.connect, h.tasks]
  rfl

theorem disconnect (h : Unused n s) : Unused n (page.disconnect s) := by
  have hstop :
      s.client.stop = { s.client with explicitDisconnect := true, isConnecting := false } := by
    rw [CollabClient.stop_eq, CollabClient.clearRetry, h.retryTimer]
  unfold Page.disconnect
  simp only [Page.modify, page, hstop]
  rw [if_pos h.grpc]
  exact ⟨h.connects, h.log, h.asked, h.tasks, h.sockets, h.grpc, h.retryTimer, h.isConnected,
    h.maxRetries⟩

/-- It has no jobs. -/
theorem run (h : Unused n s) (job : Job) : step s (.job job) = none := by
  cases job <;>
    simp [step, Page.run, Page.settle, page, h.tasks, CollabClient.isSocket, h.asked]

end Unused

/-- A client before its `connect`. -/
def start (options : CollabClientOptions) (maxRetries : Nat) : Transcript where
  client := { options, maxRetries }

theorem reached {options : CollabClientOptions} {ms : List Move} {t : Transcript}
    (horderly : Machine.Guarded step Orderly (start options n) ms)
    (hexec : Machine.exec step (start options n) ms = some t) :
    Unused n t ∨ ∃ args, Inv args n t := by
  have hstart : Unused n (start options n) := ⟨rfl, rfl, rfl, rfl, rfl, rfl, rfl, rfl, rfl⟩
  refine Machine.invariant_guarded (I := fun t => Unused n t ∨ ∃ args, Inv args n t) ?_
    (Or.inl hstart) horderly hexec
  intro s m t hs hm hstep
  cases m with
  | call call =>
    cases call with
    | connect args =>
      rcases hs with hs | ⟨args', hs⟩
      · exact Or.inr ⟨args, hs.connect args hstep⟩
      · exact absurd (hs.connects.symm.trans hm) (List.cons_ne_nil _ _)
    | disconnect =>
      obtain rfl := Option.some.inj hstep
      exact hs.imp Unused.disconnect fun ⟨args, hs⟩ => ⟨args, hs.disconnect⟩
  | job job =>
    rcases hs with hs | ⟨args, hs⟩
    · rw [hs.run] at hstep
      cases hstep
    · exact Or.inr ⟨args, hs.run hm hstep⟩

/-- A step sends a join only when a socket opens. -/
theorem joins_of_step {s t : Transcript} {m : Move} (hstep : step s m = some t) {socket : Nat}
    {join : JoinRoom} (hjoin : Command.send socket (.join join) ∈
      t.client.asked.drop s.client.asked.length) :
    join = s.client.joinAction ∧ ∃ socket', m = .job (.opened socket') := by
  have hcall : ∀ callback t, page.NoJoin t (page.call callback t) :=
    fun _ t => CollabClient.NoJoin.refl t.client
  have hnone : ∀ {t : Transcript}, page.NoJoin s t →
      Command.send socket (.join join) ∉ t.client.asked.drop s.client.asked.length := by
    intro t ⟨asked, heq, hasked⟩ hmem
    rw [show t.client.asked = s.client.asked ++ asked from heq, List.drop_left] at hmem
    exact absurd (hasked _ hmem) (by simp [Command.isJoin])
  cases m with
  | call call =>
    cases call with
    | connect args =>
      obtain ⟨s', hs', rfl⟩ := Option.map_eq_some_iff.mp hstep
      obtain ⟨-, heq⟩ := Option.ite_none_left_eq_some.mp hs'
      obtain rfl := Option.some.inj heq
      have hconnect : s.client.NoJoin (s.client.connect args).openWithToken :=
        CollabClient.NoJoin.trans (.of_eq rfl) (CollabClient.NoJoin.openWithToken _)
      exact absurd hjoin (hnone hconnect)
    | disconnect =>
      obtain rfl := Option.some.inj hstep
      exact absurd hjoin (hnone ((Page.within_noJoin hcall).disconnect (Page.NoJoin.refl s)))
  | job job =>
    obtain ⟨-, hjoin, socket', rfl⟩ := Page.joins_of_run hcall hstep hjoin
    exact ⟨hjoin, socket', rfl⟩

/-- What a page hears of a client that it connects once: `onConnect` and `onDisconnect` take
turns, and an `onDisconnect` has followed every `onConnect` of a client that is not connected;
there are never more than `maxRetries` attempts since the latest `onConnect`, and one end of the
session; and a join that the client sends after an answer must find its room, by the session id
of the latest answer that names one, or else that of `connect`. -/
theorem reconnect_bounded {options : CollabClientOptions} {n : Nat} {ms : List Move}
    {t : Transcript} (horderly : Machine.Guarded step Orderly (start options n) ms)
    (hexec : Machine.exec step (start options n) ms = some t) :
    ((edges t.log).IsChain (· ≠ ·) ∧ (edges t.log).head? ≠ some false) ∧
    (t.client.isConnected = false → (edges t.log).count true = (edges t.log).count false) ∧
    (∀ p, p <+: t.log → attempts p ≤ n) ∧
    t.log.countP Callback.isSessionEnded ≤ 1 ∧
    ∀ m t', step t m = some t' → ∀ socket join,
      .send socket (.join join) ∈ t'.client.asked.drop t.client.asked.length →
      t.log.filterMap Callback.roomJoined? ≠ [] →
      join.mustExist = true ∧
        ∃ args, t.connects = [args] ∧ join.sessionId = namedSession args.sessionId t.log := by
  rcases reached horderly hexec with h | ⟨args, h⟩
  · simp [h.log, edges, attempts]
  · refine ⟨⟨h.paired.alternate, h.paired.first⟩, fun hdown => ?_, h.heard.bounded, ?_, ?_⟩
    · exact Paired.count_eq (hdown ▸ h.paired)
    · exact Nat.le_trans h.heard.ended (Bool.toNat_le _)
    · intro m t' hstep socket join hjoin hanswered
      obtain ⟨rfl, -⟩ := joins_of_step hstep hjoin
      exact ⟨h.heard.joined hanswered, args, h.connects, h.heard.session⟩

theorem join_of_opened {t : Transcript} {socket grpc : Nat}
    (hopening : .opening socket ∈ t.client.tasks) (hgrpc : t.client.grpc = some grpc) :
    ∃ t', step t (.job (.opened socket)) = some t' ∧
      .send grpc (.join t.client.joinAction) ∈ t'.client.asked.drop t.client.asked.length := by
  refine ⟨_, Page.settle_eq_some.mpr ⟨hopening, rfl⟩, ?_⟩
  simp [Page.modify, page, CollabClient.sendOn, CollabClient.endTask, hgrpc,
    CollabClient.joinAction]

/-- The answer of a relay that gives this session id. -/
def answer (sessionId : String) : CollabEvent where
  eventId := "e"
  event := .roomJoined
    { clientId := "me"
      room :=
        { sessionId, peers := [], ownerClientId := "", metadata := none, encrypted := false,
          title := "" }
      maxPeers := 10
      protocolVersion := 2 }

/-- A client joins, is answered, loses its socket and has another, which has yet to open. -/
def rejoin (sessionId : String) : List Move :=
  [.call (.connect { relayUrl := "ws", sessionId := "asked", username := "page", metadata := [] }),
    .job (.opened 0),
    .job (.message 0 (answer sessionId)),
    .job (.closed 0),
    .job (.fired 2),
    .job (.checked 3 (some 200))]

theorem reconnect_bounded_rejoin : ∃ t t' join,
    Machine.exec step (start {} 5) (rejoin "named") = some t ∧
    step t (.job (.opened 4)) = some t' ∧
    .send 4 (.join join) ∈ t'.client.asked.drop t.client.asked.length ∧
    join.mustExist = true ∧ edges t.log = [true, false] ∧ (edges t.log).IsChain (· ≠ ·) := by
  have hrun : (Machine.execIf step Orderly (start {} 5) (rejoin "named")).any (fun t =>
      edges t.log = [true, false] ∧ .opening 4 ∈ t.client.tasks ∧ t.client.grpc = some 4 ∧
      (t.log.filterMap Callback.roomJoined?).length = 1) = true := by
    decide +kernel
  obtain ⟨t, ht, hstate⟩ := (Option.any_eq_true _ _).mp hrun
  obtain ⟨horderly, ht⟩ := Machine.execIf_eq_some ht
  obtain ⟨hedges, hopening, hgrpc, hlog⟩ := of_decide_eq_true hstate
  obtain ⟨halternate, -, -, -, hjoins⟩ := reconnect_bounded horderly ht
  obtain ⟨t', hstep, hjoin⟩ := join_of_opened hopening hgrpc
  refine ⟨t, t', _, ht, hstep, hjoin, ?_, hedges, halternate.1⟩
  exact (hjoins _ _ hstep 4 _ hjoin (List.ne_nil_of_length_eq_add_one hlog)).1

/-- An answer without a session id leaves the client with the one it had. -/
theorem rejoin_unnamed : ¬ ∀ options n ms t m t' socket join,
    Machine.Guarded step Orderly (start options n) ms →
    Machine.exec step (start options n) ms = some t → step t m = some t' →
    .send socket (.join join) ∈ t'.client.asked.drop t.client.asked.length →
    ∀ rj, (t.log.filterMap Callback.roomJoined?).getLast? = some rj →
      join.mustExist = true ∧ join.sessionId = rj.room.sessionId := by
  intro h
  have hrun : (Machine.execIf step Orderly (start {} 5) (rejoin "")).any (fun t =>
      .opening 4 ∈ t.client.tasks ∧ t.client.grpc = some 4 ∧ t.client.sessionId = "asked" ∧
      (t.log.filterMap Callback.roomJoined?).getLast?.map (·.room.sessionId) = some "") = true := by
    decide +kernel
  obtain ⟨t, ht, hstate⟩ := (Option.any_eq_true _ _).mp hrun
  obtain ⟨horderly, ht⟩ := Machine.execIf_eq_some ht
  obtain ⟨hopening, hgrpc, hsession, hlog⟩ := of_decide_eq_true hstate
  obtain ⟨rj, hrj, hunnamed⟩ := Option.map_eq_some_iff.mp hlog
  obtain ⟨t', hstep, hjoin⟩ := join_of_opened hopening hgrpc
  have hsame : t.client.sessionId = rj.room.sessionId :=
    (h {} 5 _ t _ t' 4 _ horderly ht hstep hjoin rj hrj).2
  rw [hsession, hunnamed] at hsame
  exact absurd hsame (by decide)

end Transcript

end MassRelay.Ts
