import MassRelay.Ts.Sockets

/-!
# MassRelay.Ts.App

A page that calls its client back: in any callback it may call `connect` and `disconnect`, as
often as it likes.

What it does there is a function of the callback and of everything so far (`react`). A callback
runs inside the method that makes it, so the calls of the page are made on the client as the
method has left it so far, and the method goes on with what they leave. A `disconnect` may call
back in its turn, but only from a client that was connected and no longer is, and neither
`connect` nor `disconnect` calls back from there: the callbacks nest no deeper than two
(`answering_answering`). A `connect` that throws leaves the client as it is, and the page
catches it.
-/

namespace MassRelay.Ts

/-- What a callback of a method leaves when it returns. -/
structure Return where
  /-- The event that the client is handling. -/
  handling : Option Event
  /-- The callbacks that its methods have made in this job. -/
  fired : List Callback
  client : CollabClient
  gone : Bool
  left : Bool

structure App where
  client : CollabClient
  log : List Callback := []
  /-- The clients on which the page called `connect`, before they connected. -/
  found : List CollabClient := []
  /-- How much the client had asked for when it last did. -/
  since : Nat := 0
  /-- The page has called `disconnect`, and not `connect` since. -/
  gone : Bool := false
  /-- It had when the job began, and has not called `connect` since. -/
  left : Bool := false
  /-- The callbacks since it left, before its next `connect`. -/
  late : List Callback := []
  handling : Option Event := none
  fired : List Callback := []
  returned : List Return := []

/-- The event that a job handles. -/
def Job.event? : Job → Option Event
  | .message _ event => some event.event
  | _ => none

namespace App

def hear (callback : Callback) (s : App) : App :=
  { s with
    log := s.log ++ [callback]
    late := if s.left then s.late ++ [callback] else s.late }

/-- A page by what it does in its callbacks. -/
def pageOf (call : Callback → App → App) : Page App where
  client := client
  setClient c s := { s with client := c }
  call := call
  client_setClient _ _ := rfl

def perform (page : Page App) (s : App) : AppCall → App
  | .connect args =>
    (page.connect args { s with
      found := s.found ++ [s.client]
      since := s.client.asked.length
      gone := false
      left := false }).getD s
  | .disconnect => page.disconnect { s with gone := true }

/-- What a page does in a callback whose calls are those of another page. -/
def answering (react : Callback → App → List AppCall) (page : Page App) : Page App :=
  pageOf fun callback s => (react callback (s.hear callback)).foldl (perform page) (s.hear callback)

def record (s : App) : App :=
  { s with returned := s.returned ++ [⟨s.handling, s.fired, s.client, s.gone, s.left⟩] }

/-- The page, with a record of what its callbacks leave to the methods that make them. -/
def page (react : Callback → App → List AppCall) : Page App :=
  pageOf fun callback s =>
    ((answering react (answering react (pageOf hear))).call callback
      { s with fired := s.fired ++ [callback] }).record

/-- A call of the page, or a job of the browser. -/
def step (react : Callback → App → List AppCall) (s : App) : Move → Option App
  | .call call =>
    some (perform (page react) { s with left := s.gone, handling := none, fired := [] } call)
  | .job job => (page react).run job { s with left := s.gone, handling := job.event?, fired := [] }

/-- A page with a client that it has not connected yet. -/
def start (options : CollabClientOptions) (maxRetries : Nat) : App where
  client := { options, maxRetries }

variable {react : Callback → App → List AppCall} {s : App} {callback : Callback}

/-! ### The calls of a page -/

theorem perform_connect (call : Callback → App → App) (args : ConnectArgs)
    (hdown : s.client.isConnected = false) :
    perform (pageOf call) s (.connect args) =
      { s with
        client := (s.client.connect args).openWithToken
        found := s.found ++ [s.client]
        since := s.client.asked.length
        gone := false
        left := false } := by
  simp [perform, Page.connect, pageOf, hdown, Page.modify]

theorem perform_connect_refused (call : Callback → App → App) (args : ConnectArgs)
    (hup : s.client.isConnected = true) : perform (pageOf call) s (.connect args) = s := by
  simp [perform, Page.connect, pageOf, hup]

theorem perform_disconnect (call : Callback → App → App) (s : App) :
    perform (pageOf call) s .disconnect =
      if s.client.stop.grpc = none then { s with client := s.client.stop, gone := true }
      else if s.client.stop.isConnected then
        call .onDisconnect { s with client := s.client.stop.hangUp, gone := true }
      else { s with client := s.client.stop.hangUp, gone := true } := rfl

/-! ### Callbacks inside callbacks -/

/-- The calls of a page call back only from a client that is no longer connected. -/
theorem perform_congr {call call' : Callback → App → App}
    (hcall : ∀ t, t.client.isConnected = false → call .onDisconnect t = call' .onDisconnect t)
    (s : App) (c : AppCall) : perform (pageOf call) s c = perform (pageOf call') s c := by
  cases c with
  | connect args => rfl
  | disconnect =>
    rw [perform_disconnect, perform_disconnect, hcall _ CollabClient.hangUp_isConnected]

/-- A client that is not connected makes no callback of the calls of its page, and is still not
connected after them. -/
theorem perform_down (call call' : Callback → App → App) (hdown : s.client.isConnected = false)
    (c : AppCall) : perform (pageOf call) s c = perform (pageOf call') s c ∧
      (perform (pageOf call) s c).client.isConnected = false := by
  cases c with
  | connect args =>
    rw [perform_connect call args hdown]
    exact ⟨(perform_connect call' args hdown).symm,
      CollabClient.openWithToken_isConnected.trans hdown⟩
  | disconnect =>
    have hstop : s.client.stop.isConnected = false := by
      rw [CollabClient.stop_eq]
      exact CollabClient.clearRetry_isConnected.trans hdown
    rw [perform_disconnect, perform_disconnect, hstop, if_neg Bool.false_ne_true,
      if_neg Bool.false_ne_true]
    refine ⟨rfl, ?_⟩
    split
    · exact hstop
    · exact CollabClient.hangUp_isConnected

theorem foldl_perform_down (call call' : Callback → App → App) (calls : List AppCall)
    (hdown : s.client.isConnected = false) :
    calls.foldl (perform (pageOf call)) s = calls.foldl (perform (pageOf call')) s := by
  induction calls generalizing s with
  | nil => rfl
  | cons c calls ih =>
    obtain ⟨heq, hstill⟩ := perform_down call call' hdown c
    rw [List.foldl_cons, List.foldl_cons, ih hstill, heq]

/-- A third level of callbacks is never reached. -/
theorem answering_answering (call : Callback → App → App) :
    answering react (answering react (pageOf call)) =
      answering react (answering react (pageOf hear)) := by
  have hperform : perform (answering react (pageOf call)) =
      perform (answering react (pageOf hear)) := by
    funext s c
    refine perform_congr (fun t hdown => ?_) s c
    exact foldl_perform_down call hear (s := t.hear .onDisconnect) _ hdown
  rw [answering, hperform]
  rfl

/-! ### What callbacks keep -/

section Keeps

variable {P : App → Prop}
  (hconnect : ∀ s args, P s → s.client.isConnected = false → P { s with
    client := (s.client.connect args).openWithToken
    found := s.found ++ [s.client]
    since := s.client.asked.length
    gone := false
    left := false })
  (hstop : ∀ s, P s → s.client.stop.grpc = none →
    P { s with client := s.client.stop, gone := true })
  (hhangUp : ∀ s, P s → s.client.stop.grpc ≠ none →
    P { s with client := s.client.stop.hangUp, gone := true })

include hconnect hstop hhangUp

/-- What the calls of a page keep, when its `onDisconnect` does. -/
theorem perform_keeps {call : Callback → App → App} (hcall : ∀ s, P s → P (call .onDisconnect s))
    (s : App) (c : AppCall) (hs : P s) : P (perform (pageOf call) s c) := by
  cases c with
  | connect args =>
    cases hup : s.client.isConnected with
    | true => exact (perform_connect_refused call args hup).symm ▸ hs
    | false => exact (perform_connect call args hup).symm ▸ hconnect s args hs hup
  | disconnect =>
    rw [perform_disconnect]
    split
    · rename_i hgrpc
      exact hstop s hs hgrpc
    · rename_i hgrpc
      split
      · exact hcall _ (hhangUp s hs hgrpc)
      · exact hhangUp s hs hgrpc

theorem foldl_perform_keeps {call : Callback → App → App}
    (hcall : ∀ s, P s → P (call .onDisconnect s)) (calls : List AppCall) (s : App) (hs : P s) :
    P (calls.foldl (perform (pageOf call)) s) := by
  induction calls generalizing s with
  | nil => exact hs
  | cons c calls ih => exact ih _ (perform_keeps hconnect hstop hhangUp hcall s c hs)

/-- What holds when a callback begins holds when it returns, if the calls of the page keep it. -/
theorem call_keeps (react : Callback → App → List AppCall)
    (hhear : ∀ s, P s → P (s.hear .onDisconnect)) (callback : Callback) (hs : P (s.hear callback)) :
    P ((answering react (answering react (pageOf hear))).call callback s) :=
  foldl_perform_keeps hconnect hstop hhangUp
    (fun s hs => foldl_perform_keeps hconnect hstop hhangUp hhear _ _ (hhear s hs)) _ _ hs

end Keeps

/-- What a call of the page leaves as it is. -/
structure SameJob (s t : App) : Prop where
  handling : t.handling = s.handling
  fired : t.fired = s.fired
  returned : t.returned = s.returned
  options : t.client.options = s.client.options
  maxRetries : t.client.maxRetries = s.client.maxRetries
  left : s.left = false → t.left = false

theorem SameJob.trans {s t u : App} (h : s.SameJob t) (h' : t.SameJob u) : s.SameJob u :=
  ⟨h'.1.trans h.1, h'.2.trans h.2, h'.3.trans h.3, h'.4.trans h.4, h'.5.trans h.5,
    fun hleft => h'.6 (h.6 hleft)⟩

theorem call_sameJob (react : Callback → App → List AppCall) (callback : Callback) (s : App) :
    s.SameJob ((answering react (answering react (pageOf hear))).call callback s) := by
  refine call_keeps (P := s.SameJob) ?_ ?_ ?_ react ?_ callback ⟨rfl, rfl, rfl, rfl, rfl, id⟩
  · intro t args ht _
    refine ht.trans ⟨rfl, rfl, rfl, ?_, ?_, fun _ => rfl⟩ <;> simp [CollabClient.connect]
  · intro t ht _
    refine ht.trans ⟨rfl, rfl, rfl, ?_, ?_, id⟩ <;> simp [CollabClient.stop_eq]
  · intro t ht _
    refine ht.trans ⟨rfl, rfl, rfl, ?_, ?_, id⟩ <;> simp [CollabClient.stop_eq]
  · exact fun t ht => ht.trans ⟨rfl, rfl, rfl, rfl, rfl, id⟩

/-! ### The page -/

variable {P : App → Prop}

/-- What a callback of a method adds to the record. -/
theorem page_call_returned (react : Callback → App → List AppCall) (callback : Callback)
    (s : App) :
    let t := (page react).call callback s
    t.handling = s.handling ∧ t.fired = s.fired ++ [callback] ∧
      t.returned =
        s.returned ++ [⟨s.handling, s.fired ++ [callback], t.client, t.gone, t.left⟩] := by
  have h := call_sameJob react callback { s with fired := s.fired ++ [callback] }
  refine ⟨h.handling, h.fired, ?_⟩
  change _ ++ [_] = _
  rw [h.returned, h.handling, h.fired]
  rfl

/-- The page sends no joins: the client does. -/
theorem noJoin_connect (c : CollabClient) (args : ConnectArgs) :
    c.NoJoin (c.connect args).openWithToken :=
  CollabClient.NoJoin.trans (.of_eq rfl) (CollabClient.NoJoin.openWithToken _)

theorem page_call_noJoin (callback : Callback) (s : App) :
    (page react).NoJoin s ((page react).call callback s) :=
  call_keeps (P := fun t => s.client.NoJoin t.client)
    (fun _ args ht _ => ht.trans (noJoin_connect _ args))
    (fun _ ht _ => ht.trans (CollabClient.NoJoin.stop _))
    (fun _ ht _ => ht.trans ((CollabClient.NoJoin.stop _).trans (CollabClient.NoJoin.hangUp _)))
    react (fun _ ht => ht) callback (CollabClient.NoJoin.refl _)

/-- A step sends a join only when a socket opens, on the socket that the client then has. -/
theorem joins_of_step {t : App} {m : Move} (hstep : step react s m = some t) {socket : Nat}
    {join : JoinRoom}
    (hjoin : .send socket (.join join) ∈ t.client.asked.drop s.client.asked.length) :
    s.client.grpc = some socket ∧ ∃ socket', m = .job (.opened socket') := by
  cases m with
  | call call =>
    obtain rfl := Option.some.inj hstep
    have hnone : s.client.NoJoin (perform (page react)
        { s with left := s.gone, handling := none, fired := [] } call).client :=
      perform_keeps (P := fun t => s.client.NoJoin t.client)
        (fun _ args ht _ => ht.trans (noJoin_connect _ args))
        (fun _ ht _ => ht.trans (CollabClient.NoJoin.stop _))
        (fun _ ht _ => ht.trans ((CollabClient.NoJoin.stop _).trans (CollabClient.NoJoin.hangUp _)))
        (fun t ht => ht.trans (page_call_noJoin .onDisconnect t)) _ call
          (CollabClient.NoJoin.refl _)
    obtain ⟨asked, heq, hasked⟩ := hnone
    rw [heq, List.drop_left] at hjoin
    exact absurd (hasked _ hjoin) (by simp [Command.isJoin])
  | job job =>
    obtain ⟨hgrpc, -, socket', rfl⟩ := Page.joins_of_run page_call_noJoin hstep hjoin
    exact ⟨hgrpc, socket', rfl⟩

end App

end MassRelay.Ts
