import MassRelay.Lib.Machine
import MassRelay.Ts.App

/-!
# MassRelay.Ts.OneSocket

The sockets of a client that is connected and disconnected again and again.

What an earlier `connect` has started is stopped by a flag that the next `connect` resets, and
`connect` itself stops nothing. So a page must find its client idle when it connects it, and so
must `scheduleReconnect` when its callback returns (`Proper`); then no two things of a client
ever lead to a socket (`Inv`), and nothing that was started before a `disconnect` comes to
anything.
-/

namespace MassRelay.Ts

/-- The command that started a task. -/
def Task.id : Task → Nat
  | .opening id | .retry id | .roomCheck id | .token id => id

/-- The task that a job ends. -/
def Job.task? : Job → Option Task
  | .opened socket | .refused socket => some (.opening socket)
  | .fired timer => some (.retry timer)
  | .checked fetch _ => some (.roomCheck fetch)
  | .gotToken request _ | .tokenFailed request _ => some (.token request)
  | .closed _ | .failed .. | .message .. => none

/-- When the page has been told of an attempt, the client waits for nothing and the page has not
left. -/
def Return.Waits (r : Return) : Prop :=
  ∀ attempt, r.fired.getLast? = some (.onReconnecting attempt) → r.client.Idle ∧ r.gone = false

namespace App

variable {react : Callback → App → List AppCall} {s t : App} {callback : Callback}

/-- The page connects its client only when that is idle, and lets it be when it tries again. -/
def Proper (s : App) : Prop := (∀ c ∈ s.found, c.Idle) ∧ ∀ r ∈ s.returned, r.Waits

/-- A socket opens while it is the client's, or while the client has none; and no request for a
token fails once the page has left. -/
def Prompt (s : App) : Move → Prop
  | .job (.opened socket) => socket ∈ s.client.sockets ∨ s.client.sockets = []
  | .job (.tokenFailed ..) => s.gone = false
  | _ => True

/-- One line of sockets, started by the latest `connect`, and stopped by `disconnect`. -/
structure Inv (s : App) : Prop where
  line : s.client.OneLine
  gone : s.gone = true → s.client.explicitDisconnect = true ∧ s.client.grpc = none ∧
    ∀ timer, .retry timer ∉ s.client.tasks
  since : s.since ≤ s.client.asked.length
  young : ∀ task ∈ s.client.underway, s.since ≤ task.id

namespace Inv

/-- Only the client and the calls of its page matter. -/
theorem same (h : Inv s) (hclient : t.client = s.client) (hsince : t.since = s.since)
    (hgone : t.gone = s.gone) : Inv t where
  line := hclient ▸ h.line
  gone := hgone ▸ hclient ▸ h.gone
  since := hsince ▸ hclient ▸ h.since
  young := hsince ▸ hclient ▸ h.young

/-- A change that leaves the sockets and tasks as they are. -/
theorem congr (h : Inv s) {c : CollabClient} (hsockets : c.sockets = s.client.sockets)
    (hgrpc : c.grpc = s.client.grpc) (htasks : c.tasks = s.client.tasks)
    (htimer : c.retryTimer = s.client.retryTimer)
    (hexplicit : s.client.explicitDisconnect = true → c.explicitDisconnect = true)
    (hasked : s.client.asked.length ≤ c.asked.length) : Inv { s with client := c } where
  line := h.line.congr hsockets hgrpc htasks htimer
  gone := by
    intro hgone
    obtain ⟨he, hg, hr⟩ := h.gone hgone
    exact ⟨hexplicit he, hgrpc.trans hg, htasks ▸ hr⟩
  since := Nat.le_trans h.since hasked
  young := by
    intro task hmem
    rw [CollabClient.underway, htasks] at hmem
    exact h.young task hmem

/-- The client lets its socket go. -/
theorem drop (h : Inv s) {c : CollabClient} (hleft : s.client.Left c)
    (hexplicit : s.client.explicitDisconnect = true → c.explicitDisconnect = true)
    (hasked : s.client.asked.length ≤ c.asked.length) : Inv { s with client := c } where
  line := h.line.drop hleft
  gone := by
    intro hgone
    obtain ⟨he, -, hr⟩ := h.gone hgone
    exact ⟨hexplicit he, hleft.grpc, hleft.tasks ▸ hr⟩
  since := Nat.le_trans h.since hasked
  young := by
    intro task hmem
    rw [CollabClient.underway, hleft.tasks] at hmem
    exact h.young task hmem

/-- The client, which waits for nothing, starts to wait. -/
theorem await (h : Inv s) (hidle : s.client.Idle) {c : CollabClient} {task : Task}
    (hline : c.OneLine) (hgone : s.gone = false) (htasks : c.tasks = s.client.tasks ++ [task])
    (hid : task.id = s.client.asked.length) (hasked : s.client.asked.length ≤ c.asked.length) :
    Inv { s with client := c } where
  line := hline
  gone := fun hg => absurd (hg.symm.trans hgone) Bool.true_eq_false.mp
  since := Nat.le_trans h.since hasked
  young := by
    intro task' hmem
    have hnil : s.client.tasks.filter Task.rejoins = [] := hidle.underway
    rw [CollabClient.underway, htasks, List.filter_append, hnil, List.nil_append] at hmem
    rw [List.mem_singleton.mp (List.mem_filter.mp hmem).1, hid]
    exact h.since

/-- The client, which waits for nothing, opens a socket or asks for a token. -/
theorem openWithToken (h : Inv s) (hidle : s.client.Idle) (hgone : s.gone = false) :
    Inv { s with client := s.client.openWithToken } := by
  have hopen := h.line.openWithToken hidle
  have hlength := (CollabClient.NoJoin.openWithToken s.client).length_le
  unfold CollabClient.openWithToken at hopen hlength ⊢
  split
  · rename_i htoken
    rw [if_pos htoken] at hopen hlength
    exact h.await hidle hopen hgone rfl rfl hlength
  · rename_i htoken
    rw [if_neg htoken] at hopen hlength
    exact h.await hidle hopen hgone rfl rfl hlength

/-- A task ends. -/
theorem endTask (h : Inv s) (task : Task) : Inv { s with client := s.client.endTask task } where
  line := h.line.endTask task
  gone := fun hgone => ⟨(h.gone hgone).1, (h.gone hgone).2.1,
    fun timer hmem => (h.gone hgone).2.2 timer (List.mem_filter.mp hmem).1⟩
  since := h.since
  young := by
    intro task' hmem
    obtain ⟨hmem, hrejoins⟩ := List.mem_filter.mp hmem
    exact h.young task' (List.mem_filter.mpr ⟨(List.mem_filter.mp hmem).1, hrejoins⟩)

theorem connect (h : Inv s) (hidle : s.client.Idle) (args : ConnectArgs) :
    Inv { s with
      client := (s.client.connect args).openWithToken
      found := s.found ++ [s.client]
      since := s.client.asked.length
      gone := false
      left := false } := by
  have hconnect : Inv { s with
      client := s.client.connect args
      found := s.found ++ [s.client]
      since := s.client.asked.length
      gone := false
      left := false } :=
    { line := h.line.congr rfl rfl rfl rfl
      gone := nofun
      since := le_rfl
      young := by
        intro task hmem
        change task ∈ s.client.underway at hmem
        rw [hidle.underway] at hmem
        cases hmem }
  exact hconnect.openWithToken ⟨hidle.grpc, hidle.underway⟩ rfl

theorem line_stop (h : Inv s) : s.client.stop.OneLine := by
  rw [CollabClient.stop_eq]
  exact h.line.clearRetry.congr rfl rfl rfl rfl

theorem not_retry_stop (h : Inv s) (timer : Nat) : .retry timer ∉ s.client.stop.tasks := by
  rw [CollabClient.stop_eq]
  exact h.line.clearRetry.not_retry_of_timer CollabClient.clearRetry_retryTimer timer

theorem young_stop (h : Inv s) {task : Task} (hmem : task ∈ s.client.stop.underway) :
    s.since ≤ task.id := by
  obtain ⟨hmem, hrejoins⟩ := List.mem_filter.mp hmem
  rw [CollabClient.stop_eq] at hmem
  exact h.young task (List.mem_filter.mpr ⟨CollabClient.OneLine.mem_clearRetry hmem, hrejoins⟩)

theorem stop (h : Inv s) (hgrpc : s.client.stop.grpc = none) :
    Inv { s with client := s.client.stop, gone := true } where
  line := h.line_stop
  gone := fun _ => ⟨by simp [CollabClient.stop_eq], hgrpc, h.not_retry_stop⟩
  since := Nat.le_trans h.since (CollabClient.NoJoin.stop _).length_le
  young := fun _ hmem => h.young_stop hmem

theorem hangUp (h : Inv s) : Inv { s with client := s.client.stop.hangUp, gone := true } where
  line := h.line_stop.drop (CollabClient.left_hangUp h.line_stop.sockets)
  gone := fun _ => ⟨by simp [CollabClient.stop_eq], by simp, by simpa using h.not_retry_stop⟩
  since := Nat.le_trans h.since
    ((CollabClient.NoJoin.stop _).trans (CollabClient.NoJoin.hangUp _)).length_le
  young := fun _ hmem => h.young_stop (by simpa [CollabClient.underway] using hmem)

end Inv

/-- With a proper page, one line. -/
def Kept (s : App) : Prop := s.Proper → Inv s

theorem proper_of_call (h : Proper ((page react).call callback s)) :
    s.Proper ∧ Return.Waits ⟨s.handling, s.fired ++ [callback],
      ((page react).call callback s).client, ((page react).call callback s).gone,
      ((page react).call callback s).left⟩ := by
  obtain ⟨-, -, hreturned⟩ := page_call_returned react callback s
  have hfound : ∀ c ∈ s.found, c ∈ ((page react).call callback s).found := by
    intro c hc
    refine call_keeps (P := fun t => c ∈ t.found)
      (fun t _ ht _ => List.mem_append_left _ ht) (fun _ ht _ => ht) (fun _ ht _ => ht)
      react (fun _ ht => ht) callback (s := { s with fired := s.fired ++ [callback] }) hc
  have hall := h.2
  rw [hreturned] at hall
  exact ⟨⟨fun c hc => h.1 c (hfound c hc), fun r hr => hall r (List.mem_append_left _ hr)⟩,
    hall _ (List.mem_append_right _ List.mem_cons_self)⟩

namespace Kept

theorem connect (h : Kept s) (args : ConnectArgs) :
    Kept { s with
      client := (s.client.connect args).openWithToken
      found := s.found ++ [s.client]
      since := s.client.asked.length
      gone := false
      left := false } := by
  intro hproper
  have hbefore : s.Proper :=
    ⟨fun c hc => hproper.1 c (List.mem_append_left _ hc), hproper.2⟩
  exact (h hbefore).connect
    (hproper.1 _ (List.mem_append_right _ List.mem_cons_self)) args

theorem stop (h : Kept s) (hgrpc : s.client.stop.grpc = none) :
    Kept { s with client := s.client.stop, gone := true } :=
  fun hproper => (h ⟨hproper.1, hproper.2⟩).stop hgrpc

theorem hangUp (h : Kept s) : Kept { s with client := s.client.stop.hangUp, gone := true } :=
  fun hproper => (h ⟨hproper.1, hproper.2⟩).hangUp

theorem hear (h : Kept s) : Kept (s.hear callback) :=
  fun hproper => (h ⟨hproper.1, hproper.2⟩).same rfl rfl rfl

theorem call (h : Kept s) : Kept ((page react).call callback s) := by
  intro hproper
  have hbegun : Kept { s with fired := s.fired ++ [callback] } :=
    fun hproper => (h ⟨hproper.1, hproper.2⟩).same rfl rfl rfl
  have hcall := call_keeps (P := Kept) (fun _ args hs _ => hs.connect args)
    (fun _ hs hgrpc => hs.stop hgrpc) (fun _ hs _ => hs.hangUp) react (fun _ hs => hs.hear) callback
    hbegun.hear
  refine (hcall ⟨hproper.1, fun r hr => ?_⟩).same rfl rfl rfl
  exact hproper.2 r (List.mem_append_left _ hr)

/-- A change that leaves the sockets and tasks as they are. -/
theorem modify (h : Kept s) {f : CollabClient → CollabClient}
    (hsockets : (f s.client).sockets = s.client.sockets)
    (hgrpc : (f s.client).grpc = s.client.grpc) (htasks : (f s.client).tasks = s.client.tasks)
    (htimer : (f s.client).retryTimer = s.client.retryTimer)
    (hexplicit : s.client.explicitDisconnect = true → (f s.client).explicitDisconnect = true)
    (hasked : s.client.asked.length ≤ (f s.client).asked.length) :
    Kept ((page react).modify f s) :=
  fun hproper => (h hproper).congr hsockets hgrpc htasks htimer hexplicit hasked

theorem endSession (h : Kept s) (reason : String) : Kept ((page react).endSession reason s) :=
  call (modify h rfl rfl rfl rfl (fun _ => rfl) le_rfl)

theorem scheduleReconnect (h : Kept s) : Kept ((page react).scheduleReconnect s) := by
  unfold Page.scheduleReconnect
  split
  · exact h.endSession _
  · have hset : Kept ((page react).modify (fun c => { c with
        retryCount := s.client.retryCount + 1, isConnecting := true }) s) :=
      h.modify rfl rfl rfl rfl id le_rfl
    have hcall : Kept ((page react).call (.onReconnecting (s.client.retryCount + 1)) _) := hset.call
    intro hproper
    obtain ⟨hidle, hgone⟩ := (proper_of_call hproper).2 _ List.getLast?_concat
    have hinv := hcall hproper
    refine hinv.await hidle ?_ hgone rfl rfl
      (CollabClient.NoJoin.of_concat (by rfl) (by rfl)).length_le
    exact hinv.line.await hidle rfl rfl rfl fun timer heq => congrArg some (Task.retry.inj heq)

theorem closeFromRelay (h : Kept s) : Kept ((page react).closeFromRelay s) := by
  have hdrop : Kept ((page react).modify (fun c =>
      { c with explicitDisconnect := true }.resetState.close s.client.grpc) s) := by
    intro hproper
    refine (h hproper).drop (CollabClient.left_close (h hproper).line.sockets true)
      (fun _ => CollabClient.close_explicitDisconnect) ?_
    refine CollabClient.NoJoin.length_le (c := s.client) ?_
    exact CollabClient.NoJoin.trans (.of_eq rfl) (.close _ _)
  unfold Page.closeFromRelay
  dsimp only
  split
  · exact hdrop.call
  · exact hdrop

theorem dropAndReconnect (h : Kept s) : Kept ((page react).dropAndReconnect s) := by
  have hdrop : Kept ((page react).modify (fun c => c.resetState.close s.client.grpc) s) := by
    intro hproper
    refine (h hproper).drop
      (CollabClient.left_close (h hproper).line.sockets s.client.explicitDisconnect)
      (fun he => CollabClient.close_explicitDisconnect.trans he) ?_
    refine CollabClient.NoJoin.length_le (c := s.client) ?_
    exact (CollabClient.NoJoin.resetState _).trans (.close _ _)
  unfold Page.dropAndReconnect
  dsimp only
  split
  · exact hdrop.call.scheduleReconnect
  · exact hdrop.scheduleReconnect

theorem addPeer (h : Kept s) (peer : PeerInfoJson) : Kept ((page react).addPeer peer s) := by
  have hset : Kept ((page react).modify (.setPeer peer) s) := by
    refine h.modify ?_ ?_ ?_ ?_ ?_ ?_ <;> unfold CollabClient.setPeer <;> split <;>
      first | rfl | exact id
  exact hset.call

theorem handleEvent (h : Kept s) (event : CollabEvent) :
    Kept ((page react).handleEvent event s) := by
  have ht : Kept ((page react).call (.onEvent event) s) := h.call
  have hpeers : ∀ (peers : List (String × PeerInfo)) (t : App), Kept t →
      Kept (peers.foldl (fun t entry => (page react).addPeer (peerToJson entry.2) t) t) := by
    intro peers
    induction peers with
    | nil => exact fun t ht => ht
    | cons entry peers ih => exact fun t ht => ih _ (ht.addPeer _)
  unfold Page.handleEvent
  cases event.event with
  | error err =>
    have herror : Kept ((page react).call (.onErrorEvent err.code err.message) _) := ht.call
    simp only [Page.handleError]
    split
    · exact herror
    · split
      · exact herror.closeFromRelay.call
      · exact herror.closeFromRelay
  | roomJoined rj =>
    have hroom : Kept ((page react).modify (.setRoom rj) ((page react).call (.onEvent event) s)) :=
      ht.modify rfl rfl rfl rfl id le_rfl
    exact hpeers _ _ (addPeer (modify hroom.call rfl rfl rfl rfl id le_rfl) _)
  | peerJoined peer => exact ht.addPeer _
  | sessionEnded reason =>
    simp only [Page.handleSessionEnded]
    split
    · exact ht.dropAndReconnect
    · exact ht.closeFromRelay.call
  | peerLeft | ownerChanged | titleChanged =>
    exact call (modify ht rfl rfl rfl rfl id le_rfl)
  | credentialsChanged | appMessage => exact ht.call
  | presence | sceneUpdate | cursorUpdate | textUpdate | sceneInitResponse | sceneInitRequest =>
    exact ht

theorem handleConnectionClosed (h : Kept s) {socket : Nat} (hgrpc : s.client.grpc = some socket) :
    Kept ((page react).handleConnectionClosed
      ((page react).modify (fun c => { c with sockets := c.sockets.erase socket }) s)) := by
  have hdrop : Kept { s with
      client := { s.client with sockets := s.client.sockets.erase socket }.resetState } :=
    fun hproper => (h hproper).drop (CollabClient.left_closed (h hproper).line.sockets hgrpc) id
      le_rfl
  have hrest : ∀ t, Kept t → Kept
      (if !((page react).client t).explicitDisconnect && ((page react).client t).hasJoined &&
        ((page react).client t).reconnectEnabled then (page react).scheduleReconnect t else t) := by
    intro t ht
    split
    · exact ht.scheduleReconnect
    · exact ht
  unfold Page.handleConnectionClosed
  dsimp only
  refine hrest _ ?_
  split
  · exact hdrop.call
  · exact hdrop

theorem not_gone (h : Kept s) (hexplicit : s.client.explicitDisconnect = false)
    (hproper : s.Proper) : s.gone = false :=
  Bool.eq_false_iff.mpr fun hgone =>
    absurd (((h hproper).gone hgone).1.symm.trans hexplicit) Bool.true_eq_false.mp

theorem roomChecked (h : Kept s) (hidle : s.Proper → s.client.Idle) (status : Option Nat) :
    Kept ((page react).roomChecked status s) := by
  unfold Page.roomChecked
  split
  · exact h
  · rename_i hexplicit
    split
    · exact h.endSession _
    · split
      · exact fun hproper => (h hproper).openWithToken (hidle hproper)
          (h.not_gone (Bool.eq_false_iff.mpr hexplicit) hproper)
      · exact h.scheduleReconnect

theorem gotToken (h : Kept s) (hidle : s.Proper → s.client.Idle) (token : String) :
    Kept ((page react).gotToken token s) := by
  unfold Page.gotToken
  split
  · exact h
  · rename_i hexplicit
    intro hproper
    exact (h hproper).await (hidle hproper) ((h hproper).line.openWebSocket (hidle hproper) _)
      (h.not_gone (Bool.eq_false_iff.mpr hexplicit) hproper) rfl rfl
      (CollabClient.NoJoin.of_concat (by rfl) (by rfl)).length_le

theorem getTokenFailed (h : Kept s) (message : String) :
    Kept ((page react).getTokenFailed message s) := by
  have hcall : Kept ((page react).call (.onError message) s) := h.call
  unfold Page.getTokenFailed
  dsimp only
  split
  · exact hcall
  · split
    · exact hcall.scheduleReconnect
    · exact hcall.modify rfl rfl rfl rfl id le_rfl

/-- The retry timer fires, of a page that has not left. -/
theorem checkRoom (h : Kept s) (hidle : s.Proper → s.client.Idle)
    (hgone : s.Proper → s.gone = false) :
    Kept ((page react).modify (fun c => { c with retryTimer := none }.checkRoom) s) :=
  fun hproper => (h hproper).await (hidle hproper) ((h hproper).line.checkRoom (hidle hproper))
    (hgone hproper) rfl rfl (CollabClient.NoJoin.of_concat (by rfl) (by rfl)).length_le

theorem run (h : Kept s) {job : Job} (hrun : (page react).run job s = some t) : Kept t := by
  have hended : ∀ task, Kept ((page react).modify (.endTask task) s) :=
    fun task hproper => (h hproper).endTask task
  have hidle : ∀ {task : Task}, task ∈ s.client.tasks → task.rejoins = true →
      s.Proper → (s.client.endTask task).Idle :=
    fun hmem hrejoins hproper => (h hproper).line.idle_endTask hmem hrejoins
  cases job with
  | opened socket =>
    obtain ⟨-, rfl⟩ := Page.settle_eq_some.mp hrun
    refine (hended _).modify (by simp) (by simp) (by simp) (by simp) (by simp) ?_
    unfold CollabClient.sendOn
    split <;> simp
  | refused socket =>
    obtain ⟨-, rfl⟩ := Page.settle_eq_some.mp hrun
    exact hended _
  | closed socket =>
    obtain ⟨-, heq⟩ := Option.ite_none_right_eq_some.mp hrun
    obtain rfl := Option.some.inj heq
    split
    · rename_i hgrpc
      exact h.handleConnectionClosed hgrpc
    · rename_i hgrpc
      exact fun hproper =>
        (h hproper).congr ((h hproper).line.erase hgrpc) rfl rfl rfl id le_rfl
  | failed socket message =>
    obtain ⟨-, heq⟩ := Option.ite_none_right_eq_some.mp hrun
    exact Option.some.inj heq ▸ h.call
  | message socket event =>
    obtain ⟨-, heq⟩ := Option.ite_none_right_eq_some.mp hrun
    exact Option.some.inj heq ▸ h.handleEvent event
  | fired timer =>
    obtain ⟨hmem, rfl⟩ := Page.settle_eq_some.mp hrun
    refine (hended _).checkRoom (hidle hmem rfl) fun hproper => ?_
    -- no retry is due once the session is gone
    exact Bool.eq_false_iff.mpr fun hgone => ((h hproper).gone hgone).2.2 timer hmem
  | checked fetch status =>
    obtain ⟨hmem, rfl⟩ := Page.settle_eq_some.mp hrun
    exact (hended _).roomChecked (hidle hmem rfl) status
  | gotToken request token =>
    obtain ⟨hmem, rfl⟩ := Page.settle_eq_some.mp hrun
    exact (hended _).gotToken (hidle hmem rfl) token
  | tokenFailed request message =>
    obtain ⟨-, rfl⟩ := Page.settle_eq_some.mp hrun
    exact (hended _).getTokenFailed message

end Kept

/-! ### Runs -/

theorem step_kept {m : Move} (h : Kept s) (hstep : step react s m = some t) : Kept t := by
  have hbegin : ∀ handling, Kept { s with left := s.gone, handling := handling, fired := [] } :=
    fun handling hproper => (h hproper).same rfl rfl rfl
  cases m with
  | call call =>
    obtain rfl := Option.some.inj hstep
    exact perform_keeps (P := Kept) (fun _ args ht _ => ht.connect args)
      (fun _ ht hgrpc => ht.stop hgrpc) (fun _ ht _ => ht.hangUp) (fun _ ht => ht.call) _ call
      (hbegin none)
  | job job => exact (hbegin _).run hstep

theorem exec_kept {options : CollabClientOptions} {n : Nat} {ms : List Move}
    (hexec : Machine.exec (step react) (start options n) ms = some t) : Kept t := by
  have hstart : Kept (start options n) := by
    refine fun _ => ⟨⟨rfl, Nat.zero_le 1, fun timer hmem => ?_⟩, nofun, Nat.zero_le 0, ?_⟩
    · cases hmem
    · exact fun task hmem => nomatch hmem
  exact Machine.invariant_guarded (G := fun _ _ => True)
    (fun s m t hs _ hstep => step_kept hs hstep)
    hstart (Machine.guarded_of_forall fun _ _ _ => trivial) hexec

/-- The end of a task that was started before the page left, or by an earlier `connect`. -/
theorem stale_settles (h : Inv s) {job : Job} {task : Task} (htask : job.task? = some task)
    (hrejoins : task.rejoins = true) (hstale : s.gone = true ∨ task.id < s.since)
    (hprompt : Prompt s (.job job)) (hstep : step react s (.job job) = some t) :
    t.client = s.client.endTask task ∧ t.log = s.log := by
  have hgone : task ∈ s.client.tasks → s.gone = true := fun hmem =>
    hstale.resolve_right (Nat.not_lt.mpr (h.young task (List.mem_filter.mpr ⟨hmem, hrejoins⟩)))
  cases job with
  | opened socket | refused socket =>
    obtain rfl := Option.some.inj htask
    cases hrejoins
  | closed socket | failed socket message | message socket event => cases htask
  | fired timer =>
    obtain ⟨hmem, -⟩ := Page.settle_eq_some.mp hstep
    obtain rfl := Option.some.inj htask
    exact absurd hmem ((h.gone (hgone hmem)).2.2 timer)
  | checked fetch status =>
    obtain ⟨hmem, rfl⟩ := Page.settle_eq_some.mp hstep
    obtain rfl := Option.some.inj htask
    unfold Page.roomChecked
    exact (if_pos (h.gone (hgone hmem)).1).symm ▸ ⟨rfl, rfl⟩
  | gotToken request token =>
    obtain ⟨hmem, rfl⟩ := Page.settle_eq_some.mp hstep
    obtain rfl := Option.some.inj htask
    unfold Page.gotToken
    exact (if_pos (h.gone (hgone hmem)).1).symm ▸ ⟨rfl, rfl⟩
  | tokenFailed request message =>
    obtain ⟨hmem, -⟩ := Page.settle_eq_some.mp hstep
    obtain rfl := Option.some.inj htask
    exact absurd ((hgone hmem).symm.trans hprompt) Bool.true_eq_false.mp

/-- A proper page never has two sockets, whatever it connects and disconnects; and while its
sockets are prompt, a join goes out on the socket that opened, and nothing that was started
before a `disconnect`, or by an earlier `connect`, comes to anything. -/
theorem one_socket {options : CollabClientOptions} {n : Nat} {ms : List Move}
    (hexec : Machine.exec (step react) (start options n) ms = some t) (hproper : t.Proper) :
    t.client.sockets.length ≤ 1 ∧ ∀ m t', Prompt t m → step react t m = some t' →
      (∀ socket join, .send socket (.join join) ∈ t'.client.asked.drop t.client.asked.length →
        m = .job (.opened socket)) ∧
      ∀ job task, m = .job job → job.task? = some task → task.rejoins = true →
        t.gone = true ∨ task.id < t.since →
        t'.client = t.client.endTask task ∧ t'.log = t.log := by
  have h := exec_kept hexec hproper
  refine ⟨?_, fun m t' hprompt hstep => ⟨fun socket join hjoin => ?_, ?_⟩⟩
  · exact Nat.le_trans (Nat.le_add_left _ _) h.line.one
  · obtain ⟨hgrpc, socket', rfl⟩ := joins_of_step hstep hjoin
    have hsockets := h.line.sockets
    rw [hgrpc, Option.toList_some] at hsockets
    rcases hprompt with hopen | hclosed
    · rw [hsockets, List.mem_singleton] at hopen
      rw [hopen]
    · simp [hsockets] at hclosed
  · rintro job task rfl htask hrejoins hstale
    exact stale_settles h htask hrejoins hstale hprompt hstep

/-- The calls of a page that does nothing in its callbacks. -/
def calling (calls : List AppCall) : Option App :=
  Machine.exec (step fun _ _ => []) (start {} 5) (calls.map .call)

def plainArgs : ConnectArgs where
  relayUrl := "ws"
  sessionId := "s"
  username := "page"
  metadata := []

/-- It connects, leaves before the socket opens, and connects again. -/
theorem one_socket_again : ∃ t,
    calling [.connect plainArgs, .disconnect, .connect plainArgs] = some t ∧
    t.client.sockets.length ≤ 1 ∧ ∀ m t', Prompt t m → step (fun _ _ => []) t m = some t' →
      ∀ socket join, .send socket (.join join) ∈ t'.client.asked.drop t.client.asked.length →
        m = .job (.opened socket) := by
  have hrun : (calling [.connect plainArgs, .disconnect, .connect plainArgs]).any (fun t =>
      (∀ c ∈ t.found, c.Idle) ∧ t.returned.length = 0) = true := by
    decide +kernel
  obtain ⟨t, ht, hstate⟩ := (Option.any_eq_true _ _).mp hrun
  obtain ⟨hfound, hreturned⟩ := of_decide_eq_true hstate
  have hproper : t.Proper :=
    ⟨hfound, by simp [List.eq_nil_of_length_eq_zero hreturned]⟩
  obtain ⟨hsockets, hsteps⟩ := one_socket ht hproper
  exact ⟨t, ht, hsockets, fun m t' hprompt hstep => (hsteps m t' hprompt hstep).1⟩

/-- It connects twice, and has two sockets. -/
theorem connect_twice : ¬ ∀ (react : Callback → App → List AppCall) options n ms t,
    Machine.exec (step react) (start options n) ms = some t → t.client.sockets.length ≤ 1 := by
  intro h
  have hrun : (calling [.connect plainArgs, .connect plainArgs]).any (fun t =>
      t.client.sockets.length = 2) = true := by
    decide +kernel
  obtain ⟨t, ht, hstate⟩ := (Option.any_eq_true _ _).mp hrun
  have htwo := of_decide_eq_true hstate
  have hone := h _ _ _ _ t ht
  omega

end App

end MassRelay.Ts
