import MassRelay.Lib.Machine
import MassRelay.Ts.Timers

/-!
# MassRelay.Ts.CursorThrottle

The cursor of an engine is sent by a timer, and `_cursorPending` says that there is one.

`_clearTimers` stops the timer and leaves the mark, so from then on no cursor is sent, in any
session. So does a local change, where the handle that it clears has run out and is now that of the
cursor. A timer whose handle is null or false is passed over by `_clearTimers`: then the mark is
right, and the timer outlives the session, and may find the client down. These are the only moves at
which the throttle fails (`Throttled`).
-/

namespace MassRelay.Ts

namespace Clock

variable {doc : Document} {c c' : Clock}

/-- The mark says that there is a timer only if there is. -/
def Unjammed (c : Clock) : Prop := c.cursorPending = true → c.Has .sendCursor

/-- There is a timer for the cursor, and `_clearTimers` would find a handle. -/
def Waits (doc : Document) (c : Clock) : Prop :=
  c.Has .sendCursor ∧ c.cursorTimer.any doc.truthy = true

theorem waits_tick {t : Tick} (h : (c.tick doc t).Waits doc) :
    t = .cursorMove ∨ t ≠ .cleared ∧ c.Waits doc := by
  obtain ⟨⟨timer, hmem⟩, htruthy⟩ := h
  cases t with
  | idle => exact Or.inr ⟨by simp, ⟨timer, hmem⟩, htruthy⟩
  | cleared =>
    have hfalsy : (doc.kept c.cursorTimer).any doc.truthy = false := Document.any_kept
    exact absurd htruthy (ne_true_of_eq_false hfalsy)
  | localChange =>
    exact Or.inr ⟨by simp, ⟨timer, ((mem_debounce.mp hmem).resolve_right (by simp)).1⟩, htruthy⟩
  | cursorMove => exact Or.inl rfl
  | fired timer' =>
    have hhandle : (c.fire timer').cursorTimer = c.cursorTimer := by
      unfold fire
      split <;> rfl
    exact Or.inr ⟨by simp, ⟨timer, (mem_fire.mp hmem).1⟩, hhandle ▸ htruthy⟩

/-- The tick stops this timer, which has not fired. -/
def Stopped (doc : Document) (c : Clock) (timer : Nat) : Tick → Prop
  | .cleared =>
    doc.stops c.set c.debounceTimer timer = true ∨ doc.stops c.set c.cursorTimer timer = true
  | .localChange => c.debounceTimer.any (doc.cancels c.set · timer) = true
  | _ => False

/-- Where some timers are stopped, and the mark is left as it is. -/
theorem Sound.unjammed_filter (h : Sound c) (hun : c.Unjammed) {stopped : Nat → Prop}
    (hpending : c'.cursorPending = c.cursorPending)
    (hmem : ∀ n, (n, .sendCursor) ∈ c'.timers ↔ (n, .sendCursor) ∈ c.timers ∧ ¬ stopped n) :
    c'.Unjammed ↔ ∀ n, (n, .sendCursor) ∈ c.timers → ¬ stopped n := by
  constructor
  · intro hun' n hn
    obtain ⟨n', hn'⟩ := hun' (hpending.trans (h.pending n hn))
    obtain ⟨hold, hleft⟩ := (hmem n').mp hn'
    rwa [h.single n n' hn hold]
  · intro hleft hset
    obtain ⟨n, hn⟩ := hun (hpending.symm.trans hset)
    exact ⟨n, (hmem n).mpr ⟨hn, hleft n hn⟩⟩

/-- The mark stays right at every tick that does not stop the timer. -/
theorem Sound.unjammed_tick (h : Sound c) (hun : c.Unjammed) (t : Tick) :
    (c.tick doc t).Unjammed ↔ ∀ n, (n, .sendCursor) ∈ c.timers → ¬ Stopped doc c n t := by
  cases t with
  | idle => exact iff_of_true hun fun _ _ => id
  | cleared =>
    refine h.unjammed_filter hun rfl fun n => mem_clear.trans (and_congr_right fun _ => ?_)
    simp [Stopped]
  | localChange =>
    refine h.unjammed_filter hun rfl fun n => mem_debounce.trans ?_
    simp [Stopped]
  | cursorMove =>
    refine iff_of_true (fun _ => ?_) fun _ _ => id
    change (c.throttle doc).Has .sendCursor
    unfold throttle
    split
    · rename_i hpending
      exact hun hpending
    · exact ⟨c.set, by simp⟩
  | fired timer =>
    refine iff_of_true (fun hpending => ?_) fun _ _ => id
    change (c.fire timer).cursorPending = true at hpending
    have hother : c.timers.lookup timer ≠ some .sendCursor := by
      intro hlookup
      simp [Clock.fire, hlookup] at hpending
    have hstill : c.cursorPending = true := by
      unfold Clock.fire at hpending
      split at hpending
      · exact hpending
      · exact hpending
      · rename_i hlookup
        exact absurd hlookup hother
    obtain ⟨n, hmem⟩ := hun hstill
    refine ⟨n, mem_fire.mpr ⟨hmem, fun heq => hother ?_⟩⟩
    exact h.lookup_eq_some.mpr (heq ▸ hmem)

end Clock

/-- The timer of the engine that fires. -/
def EngineMove.timer? : EngineMove → Option Nat
  | .fired timer => some timer
  | _ => none

namespace CollabEngine

variable {doc : Document} {e e' : CollabEngine} {m : EngineMove}

/-- There is a timer that runs this. -/
def Runs (e : CollabEngine) (callback : TimerCallback) : Prop :=
  ∃ handle, e.timers.lookup handle = some callback

/-- The mark is set only while the timer is, and a cursor that moves finds a timer or sets one. -/
structure Unjammed (doc : Document) (e : CollabEngine) : Prop where
  pending : e.cursorPending = true → e.Runs .sendCursor
  notify : e.state.phase = .connected → e.adapter ≠ none →
    (e.notifyCursorMove doc).Runs .sendCursor

/-- The cursor that this timer hands to the client. -/
def cursorOf (doc : Document) (e : CollabEngine) (timer : Nat) : Option CursorUpdate :=
  if e.timers.lookup timer = some .sendCursor ∧ e.adapter ≠ none then
    doc.getCursorData { e.expire timer with cursorPending := false }
  else none

/-- A timer calls `send` only while the client is connected. -/
def SendsUp (doc : Document) (e : CollabEngine) (m : EngineMove) : Prop :=
  ∀ timer ∈ m.timer?, (cursorOf doc e timer).isSome = true → e.client.isConnected = true

/-- The timer of a cursor that waits is stopped neither by `_clearTimers` nor, with the handle of
the last update, by a local change. And one that fires while `_cursorTimer` is null or false finds
the client connected. -/
structure Throttled (doc : Document) (e : CollabEngine) (m : EngineMove) : Prop where
  clears : e.clearsTimers m = true →
    ∀ x ∈ e.timers, x.2 = .sendCursor → ¬ Clears doc e x.1
  change : e.notifies m = true → ∀ x ∈ e.timers, x.2 = .sendCursor →
    ∀ handle ∈ e.debounceTimer, doc.cancels e.set handle x.1 = false
  fired : e.cursorTimer.any doc.truthy = false → SendsUp doc e m

/-- While a cursor waits with a handle that `_clearTimers` would find, the client is connected. -/
def Lively (doc : Document) (e : CollabEngine) : Prop :=
  e.clock.Waits doc → e.client.isConnected = true

theorem Timely.runs_iff (h : Timely e) (callback : TimerCallback) :
    e.Runs callback ↔ e.clock.Has callback :=
  exists_congr fun _ => h.sound.lookup_eq_some

theorem ticks_cursorMove (h : e.ticks m = .cursorMove) : e.state.phase = .connected := by
  unfold ticks at h
  split at h
  · simp at h
  · split at h
    · simp at h
    · rename_i hon
      simp only [Bool.or_eq_true, decide_eq_true_eq, not_or, not_not] at hon
      exact hon.2
  · simp at h
  · split at h <;> simp at h

theorem Lively.step (h : Lively doc e) (htimely : Timely e) (hstep : e.step doc m = some e') :
    Lively doc e' := by
  intro hwaits
  have hticked := step_ticked hstep
  rw [hticked.clock] at hwaits
  obtain hmoved | ⟨hkept, hwaited⟩ := Clock.waits_tick hwaits
  · refine (hticked.up (htimely.lit (ticks_cursorMove hmoved))).resolve_right fun hclears => ?_
    have := hmoved.symm.trans (ticks_of_clears hclears)
    simp at this
  · exact (hticked.up (h hwaited)).resolve_right fun hclears => hkept (ticks_of_clears hclears)

/-- A mark that is right lets a cursor find its timer. -/
theorem Timely.unjammed_iff (h : Timely e) : Unjammed doc e ↔ e.clock.Unjammed := by
  have hpending : (e.cursorPending = true → e.Runs .sendCursor) ↔ e.clock.Unjammed :=
    imp_congr_right fun _ => h.runs_iff _
  refine ⟨fun hun => hpending.mp hun.pending,
    fun hun => ⟨hpending.mpr hun, fun hphase hadapter => ?_⟩⟩
  have hstep : e.step doc (.call .notifyCursorMove) = some (e.notifyCursorMove doc) := rfl
  rw [(h.step hstep).runs_iff]
  unfold notifyCursorMove
  split
  · rename_i hoff
    refine hun (?_ : e.cursorPending = true)
    simpa [Option.isNone_iff_eq_none.not.mpr hadapter, hphase] using hoff
  · exact ⟨e.set, by simp [clock, setTimeout]⟩

/-- The move does not stop the timer of a cursor that waits. -/
def Spared (doc : Document) (e : CollabEngine) (m : EngineMove) : Prop :=
  ∀ timer, (timer, .sendCursor) ∈ e.timers → ¬ e.clock.Stopped doc timer (e.ticks m)

/-- The mark stays right at every move that does not stop the timer. -/
theorem Timely.unjammed_step (h : Timely e) (hun : Unjammed doc e)
    (hstep : e.step doc m = some e') : Unjammed doc e' ↔ Spared doc e m := by
  rw [(h.step hstep).unjammed_iff, (step_ticked hstep).clock]
  exact h.sound.unjammed_tick (h.unjammed_iff.mp hun) _

theorem stopped_iff {timer : Nat} : e.clock.Stopped doc timer (e.ticks m) ↔
    e.clearsTimers m = true ∧ Clears doc e timer ∨
      e.notifies m = true ∧ e.debounceTimer.any (doc.cancels e.set · timer) = true := by
  cases hclears : e.clearsTimers m with
  | true =>
    have hother : e.notifies m = false := by
      refine eq_false_of_ne_true fun hchange => ?_
      have := (ticks_of_clears hclears).symm.trans (ticks_of_notifies hchange)
      simp at this
    rw [ticks_of_clears hclears]
    simp [Clock.Stopped, Clears, clock, hother]
  | false =>
    unfold ticks
    split
    · simp [Clock.Stopped, clock, notifies]
    · split <;> simp [Clock.Stopped, notifies]
    · simp [Clock.Stopped, notifies]
    · simp_all [Clock.Stopped, notifies]

theorem throttled_iff : Throttled doc e m ↔
    Spared doc e m ∧ (e.cursorTimer.any doc.truthy = false → SendsUp doc e m) := by
  constructor
  · intro h
    refine ⟨fun timer hmem hstopped => ?_, h.fired⟩
    obtain ⟨hclears, hstops⟩ | ⟨hchange, hcancels⟩ := stopped_iff.mp hstopped
    · exact h.clears hclears _ hmem rfl hstops
    · obtain ⟨handle, hhandle, htrue⟩ := (Option.any_eq_true _ _).mp hcancels
      simp [h.change hchange _ hmem rfl handle hhandle] at htrue
  · rintro ⟨hspared, hfired⟩
    have hleft : ∀ x ∈ e.timers, x.2 = .sendCursor → ¬ e.clock.Stopped doc x.1 (e.ticks m) := by
      rintro ⟨timer, callback⟩ hmem rfl
      exact hspared timer hmem
    refine ⟨fun hclears x hx hcursor hstops => ?_,
      fun hchange x hx hcursor handle hhandle => ?_, hfired⟩
    · exact hleft x hx hcursor (stopped_iff.mpr (Or.inl ⟨hclears, hstops⟩))
    · refine eq_false_of_ne_true fun hcancels => hleft x hx hcursor (stopped_iff.mpr (Or.inr ?_))
      exact ⟨hchange, (Option.any_eq_true _ _).mpr ⟨handle, hhandle, hcancels⟩⟩

/-- No timer finds the client down while there is a handle that `_clearTimers` would find. -/
theorem Lively.sendsUp_iff (h : Lively doc e) :
    SendsUp doc e m ↔ (e.cursorTimer.any doc.truthy = false → SendsUp doc e m) := by
  refine ⟨fun hup _ => hup, fun hpassed => ?_⟩
  cases htruthy : e.cursorTimer.any doc.truthy with
  | false => exact hpassed htruthy
  | true =>
    intro timer _ hcursor
    have hlookup : e.timers.lookup timer = some .sendCursor := by
      by_contra hne
      rw [cursorOf, if_neg fun hset => hne hset.1] at hcursor
      simp at hcursor
    exact h ⟨⟨timer, Clock.mem_of_lookup (c := e.clock) hlookup⟩, htruthy⟩

theorem lively_start (options : CollabClientOptions) (maxRetries : Nat) (adapter : Option Nat) :
    Lively doc (start options maxRetries adapter) := by
  simp [Lively, Clock.Waits, Clock.Has, start, clock]

theorem unjammed_start (options : CollabClientOptions) (maxRetries : Nat) (adapter : Option Nat) :
    Unjammed doc (start options maxRetries adapter) :=
  ⟨by simp [start], by simp [start]⟩

/-- In every run, and with any provider, the mark is right in all states and no timer finds the
client down, exactly when all of its moves are throttled. -/
theorem throttle_iff (doc : Document) (options : CollabClientOptions) (maxRetries : Nat)
    (adapter : Option Nat) (ms : List EngineMove) {t : CollabEngine}
    (hrun : Machine.exec (step doc) (start options maxRetries adapter) ms = some t) :
    Machine.Throughout (step doc) (Unjammed doc) (start options maxRetries adapter) ms ∧
      Machine.Guarded (step doc) (SendsUp doc) (start options maxRetries adapter) ms ↔
    Machine.Guarded (step doc) (Throttled doc) (start options maxRetries adapter) ms := by
  have hunjammed :
      Machine.Throughout (step doc) (Unjammed doc) (start options maxRetries adapter) ms ↔
      Machine.Guarded (step doc) (Spared doc) (start options maxRetries adapter) ms :=
    Machine.throughout_iff_guarded (I := fun e => Timely e ∧ Unjammed doc e) (fun _ h => h.2)
      (fun _ _ _ h hG hstep => ⟨h.1.step hstep, (h.1.unjammed_step h.2 hstep).mpr hG⟩)
      (fun _ _ _ h hstep hun => (h.1.unjammed_step h.2 hstep).mp hun)
      ⟨timely_start _ _ _, unjammed_start _ _ _⟩ hrun
  have hlively : ∀ {G G' : CollabEngine → EngineMove → Prop},
      (∀ e m, Lively doc e → G e m → G' e m) →
      Machine.Guarded (step doc) G (start options maxRetries adapter) ms →
      Machine.Guarded (step doc) G' (start options maxRetries adapter) ms := fun hG =>
    Machine.Guarded.of_invariant (I := fun e => Timely e ∧ Lively doc e)
      (fun _ _ _ h _ hstep => ⟨h.1.step hstep, h.2.step h.1 hstep⟩) (fun e m h => hG e m h.2)
      ⟨timely_start _ _ _, lively_start _ _ _⟩
  constructor
  · rintro ⟨hthroughout, hsends⟩
    have hfired := hlively (fun _ _ h => h.sendsUp_iff.mp) hsends
    exact ((hunjammed.mp hthroughout).and hfired).imp fun _ _ => throttled_iff.mpr
  · intro hthrottled
    exact ⟨hunjammed.mpr (hthrottled.imp fun _ _ h => (throttled_iff.mp h).1),
      hlively (fun _ _ h hG => h.sendsUp_iff.mpr hG.fired) hthrottled⟩

instance (doc : Document) (e : CollabEngine) (m : EngineMove) : Decidable (SendsUp doc e m) := by
  unfold SendsUp
  infer_instance

instance (doc : Document) (e : CollabEngine) (m : EngineMove) : Decidable (Throttled doc e m) :=
  decidable_of_iff (_ ∧ _ ∧ _)
    ⟨fun h => ⟨h.1, h.2.1, h.2.2⟩, fun h => ⟨h.clears, h.change, h.fired⟩⟩

/-- An editor with a cursor. -/
def pointing : Document where
  computeOutgoing _ := none
  getSceneSnapshot _ := "snapshot"
  getCursorData _ :=
    some { x := 10, y := 20, tool := "pointer", button := "", selectedElementIds := [] }

/-- It joins, and its cursor moves. -/
def pointed : List EngineMove :=
  [.call (.connect (plainParams false)), .job (.opened 0),
    .job (.message 0 (joinedAs "a" "b" [])), .call .notifyCursorMove]

/-- The first handle is false, and the socket closes once the cursor was sent. -/
theorem throttle_iff_sent : ∃ t,
    Machine.exec (step { pointing with truthy := (· ≠ 0) }) (start {} 5 (some 0))
      (pointed ++ [.fired 0, .job (.closed 0)]) = some t ∧ t.client.isConnected = false ∧
    Machine.Throughout (step { pointing with truthy := (· ≠ 0) })
      (Unjammed { pointing with truthy := (· ≠ 0) }) (start {} 5 (some 0))
      (pointed ++ [.fired 0, .job (.closed 0)]) := by
  have hrun : (Machine.execIf (step { pointing with truthy := (· ≠ 0) })
      (Throttled { pointing with truthy := (· ≠ 0) }) (start {} 5 (some 0))
      (pointed ++ [.fired 0, .job (.closed 0)])).any (fun t => !t.client.isConnected) = true := by
    decide +kernel
  obtain ⟨t, ht, hdown⟩ := (Option.any_eq_true _ _).mp hrun
  obtain ⟨hguarded, ht⟩ := Machine.execIf_eq_some ht
  exact ⟨t, ht, by simpa using hdown, ((throttle_iff _ _ _ _ _ ht).mpr hguarded).1⟩

/-- A provider that gives a handle again once its timer has fired. -/
def reusing : Document :=
  { pointing with handle := fun n => some (n / 2), cancels := fun _ h n => n / 2 = h }

/-- The socket closes while the cursor waits, and when the engine is back no cursor is sent. Or,
while it waits, a local change clears the handle of the one before, now that of the cursor. -/
theorem throttle_jammed :
    (¬ ∀ options maxRetries adapter ms t,
      Machine.exec (step pointing) (start options maxRetries adapter) ms = some t →
        Unjammed pointing t) ∧
    ¬ ∀ options maxRetries adapter ms t,
      Machine.exec (step reusing) (start options maxRetries adapter) ms = some t →
        Unjammed reusing t := by
  have hjammed : ∀ doc ms, (Machine.exec (step doc) (start {} 5 (some 0)) ms).any (fun t =>
      t.state.phase = .connected ∧ t.adapter ≠ none ∧
        ∀ x ∈ (t.notifyCursorMove doc).timers, x.2 ≠ .sendCursor) = true →
      ∃ t, Machine.exec (step doc) (start {} 5 (some 0)) ms = some t ∧ ¬ Unjammed doc t := by
    intro doc ms hrun
    obtain ⟨t, ht, hstate⟩ := (Option.any_eq_true _ _).mp hrun
    obtain ⟨hphase, hadapter, hnone⟩ := of_decide_eq_true hstate
    refine ⟨t, ht, fun hun => ?_⟩
    obtain ⟨timer, hlookup⟩ := hun.notify hphase hadapter
    exact hnone _ (Clock.mem_of_lookup (c := (t.notifyCursorMove doc).clock) hlookup) rfl
  constructor
  · intro h
    obtain ⟨t, ht, hjam⟩ := hjammed pointing (pointed ++ [.job (.closed 0), .job (.fired 2),
      .job (.checked 3 (some 200)), .job (.opened 4), .job (.message 4 (joinedAs "a" "b" []))])
      (by decide +kernel)
    exact hjam (h _ _ _ _ _ ht)
  · intro h
    obtain ⟨t, ht, hjam⟩ := hjammed reusing ([.call (.connect (plainParams false)),
      .job (.opened 0), .job (.message 0 (joinedAs "a" "b" [])), .call .notifyLocalChange, .fired 0,
      .call .notifyCursorMove, .call .notifyLocalChange]) (by decide +kernel)
    exact hjam (h _ _ _ _ _ ht)

end CollabEngine

end MassRelay.Ts
