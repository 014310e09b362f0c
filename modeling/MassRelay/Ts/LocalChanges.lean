import MassRelay.Lib.Machine
import MassRelay.Ts.Timers

/-!
# MassRelay.Ts.LocalChanges

What becomes of a local change.

A change waits for a timer, whatever the phase of the engine, and a new change sets it anew. The
timer runs `_flushOutgoing`, which asks the adapter for nothing unless the engine is connected, and
is not set again: what was changed before the join then waits for the next change, as it does when a
reset stops the timer. Unless one of the two has happened since the last change (`strands`), and
whatever the provider does, the timer is set (`localChange_waits`).
-/

namespace MassRelay.Ts

namespace Clock

variable {doc : Document} {c : Clock}

/-- The timer of an update stays set until it fires, or the timers are cleared. -/
theorem Sound.has_tick (h : Sound c) {t : Tick} (hhas : c.Has .flushOutgoing)
    (hcleared : t ≠ .cleared)
    (hfired : ∀ timer, t = .fired timer → c.timers.lookup timer ≠ some .flushOutgoing) :
    (c.tick doc t).Has .flushOutgoing := by
  obtain ⟨timer, hmem⟩ := hhas
  cases t with
  | idle => exact ⟨timer, hmem⟩
  | cleared => exact absurd rfl hcleared
  | localChange => exact ⟨c.set, mem_debounce.mpr (Or.inr rfl)⟩
  | cursorMove =>
    change (c.throttle doc).Has .flushOutgoing
    unfold throttle
    split
    · exact ⟨timer, hmem⟩
    · exact ⟨timer, List.mem_append_left _ hmem⟩
  | fired timer' =>
    refine ⟨timer, mem_fire.mpr ⟨hmem, fun heq => hfired timer' rfl ?_⟩⟩
    exact h.lookup_eq_some.mpr (heq ▸ hmem)

end Clock

namespace CollabEngine

variable {doc : Document} {e e' : CollabEngine} {m : EngineMove}

/-- `_flushOutgoing` runs. -/
def flushes (e : CollabEngine) : EngineMove → Bool
  | .fired timer => e.timers.lookup timer = some .flushOutgoing
  | _ => false

/-- What `_flushOutgoing` asks for first. -/
def canFlush (e : CollabEngine) : Bool := e.adapter.isSome && e.state.phase = .connected

/-- `_flushOutgoing` runs, and asks the adapter. -/
def computesOutgoing (e : CollabEngine) (m : EngineMove) : Bool := e.flushes m && e.canFlush

/-- `_flushOutgoing` runs, and asks nobody. -/
def returnsEarly (e : CollabEngine) (m : EngineMove) : Bool := e.flushes m && !e.canFlush

/-- `_flushOutgoing` asks nobody, or the engine is reset, or disposed of. -/
def strands (e : CollabEngine) (m : EngineMove) : Bool := e.returnsEarly m || e.clearsTimers m

theorem flushes_of_ticks {timer : Nat} (hticks : e.ticks m = .fired timer)
    (hlookup : e.timers.lookup timer = some .flushOutgoing) : e.flushes m = true := by
  unfold ticks at hticks
  split at hticks
  · simp at hticks
  · split at hticks <;> simp at hticks
  · obtain rfl := Tick.fired.inj hticks
    exact decide_eq_true hlookup
  · split at hticks <;> simp at hticks

/-- What one move does to a change that waits, and to one that is new. -/
theorem has_step {b : Bool} (h : Timely e) (hb : b = true → e.clock.Has .flushOutgoing)
    (hstep : e.step doc m = some e')
    (hnext : (e.notifies m || (b && !(e.computesOutgoing m || e.strands m))) = true) :
    e'.clock.Has .flushOutgoing := by
  rw [(step_ticked hstep).clock]
  obtain hnew | hkept := Bool.or_eq_true_iff.mp hnext
  · rw [ticks_of_notifies hnew]
    exact ⟨e.set, Clock.mem_debounce.mpr (Or.inr rfl)⟩
  · obtain ⟨hwaits, hkept⟩ := Bool.and_eq_true_iff.mp hkept
    obtain ⟨hcomputes, hearly, hclears⟩ :
        e.computesOutgoing m = false ∧ e.returnsEarly m = false ∧ e.clearsTimers m = false := by
      simpa [strands] using hkept
    refine h.sound.has_tick (hb hwaits) (ticks_of_not_clears hclears) fun timer hticks hlookup => ?_
    have hflushes := flushes_of_ticks hticks hlookup
    cases hcan : e.canFlush with
    | true => simp [computesOutgoing, hflushes, hcan] at hcomputes
    | false => simp [returnsEarly, hflushes, hcan] at hearly

/-- In every state of every run, and with any provider, a timer of `_flushOutgoing` is set if there
was a local change since `_flushOutgoing` last asked the adapter, and none of the moves since the
last change stranded it. -/
theorem localChange_waits (doc : Document) (options : CollabClientOptions) (maxRetries : Nat)
    (adapter : Option Nat) (ms : List EngineMove) {t : CollabEngine}
    (hrun : Machine.exec (step doc) (start options maxRetries adapter) ms = some t)
    (hchange : Machine.since (step doc) notifies computesOutgoing false
      (start options maxRetries adapter) ms = true)
    (hkept : Machine.since (step doc) notifies strands false
      (start options maxRetries adapter) ms = true) :
    ∃ timer, t.timers.lookup timer = some .flushOutgoing := by
  have hsince : Machine.since (step doc) notifies (fun e m => e.computesOutgoing m || e.strands m)
      false (start options maxRetries adapter) ms = true := by
    rw [← Bool.and_false false, ← Machine.since_and, hchange, hkept, Bool.and_true]
  obtain ⟨htimely, hwaits⟩ := Machine.invariant_since
    (I := fun e b => Timely e ∧ (b = true → e.clock.Has .flushOutgoing))
    (fun _ _ _ _ h hstep => ⟨h.1.step hstep, has_step h.1 h.2 hstep⟩)
    ⟨timely_start _ _ _, fun h => absurd h Bool.false_ne_true⟩ hrun
  obtain ⟨timer, hmem⟩ := hwaits hsince
  exact ⟨timer, htimely.sound.lookup_eq_some.mpr hmem⟩

/-- A provider with one handle for all timers, and that false. -/
def oneHandle : Document :=
  { Document.blank with
    handle := fun _ => some 0, truthy := fun _ => false, cancels := fun _ _ _ => true }

/-- A change before the join is sent after it, and the cursor waits when there is another one. -/
theorem localChange_waits_falsy : ∃ t,
    Machine.exec (step oneHandle) (start {} 5 (some 0)) [.call (.connect (plainParams false)),
      .call .notifyLocalChange, .job (.opened 0), .job (.message 0 (joinedAs "a" "b" [])), .fired 0,
      .call .notifyCursorMove, .call .notifyLocalChange] = some t ∧
    t.state.phase = .connected ∧ ∃ timer, t.timers.lookup timer = some .flushOutgoing := by
  have hrun : (Machine.exec (step oneHandle) (start {} 5 (some 0))
      [.call (.connect (plainParams false)), .call .notifyLocalChange, .job (.opened 0),
        .job (.message 0 (joinedAs "a" "b" [])), .fired 0, .call .notifyCursorMove,
        .call .notifyLocalChange]).any (fun t => t.state.phase = .connected) = true := by
    decide +kernel
  obtain ⟨t, ht, hphase⟩ := (Option.any_eq_true _ _).mp hrun
  refine ⟨t, ht, of_decide_eq_true hphase, localChange_waits _ _ _ _ _ ht ?_ ?_⟩ <;>
    decide +kernel

/-- The timer fires before the engine has joined. -/
def changedEarly : List EngineMove :=
  [.call (.connect (plainParams false)), .call .notifyLocalChange, .fired 0, .job (.opened 0),
    .job (.message 0 (joinedAs "a" "b" []))]

/-- The socket closes before the timer fires, and the engine joins again. -/
def changedBeforeDrop : List EngineMove :=
  [.call (.connect (plainParams false)), .job (.opened 0),
    .job (.message 0 (joinedAs "a" "b" [])), .call .notifyLocalChange, .job (.closed 0),
    .job (.fired 2), .job (.checked 3 (some 200)), .job (.opened 4),
    .job (.message 4 (joinedAs "a" "b" []))]

/-- A connected engine may be without a timer though it was told of a change, if it was reset since
or not. -/
theorem localChange_stranded :
    (¬ ∀ doc options maxRetries adapter ms t,
      Machine.exec (step doc) (start options maxRetries adapter) ms = some t →
        t.state.phase = .connected → t.adapter ≠ none →
          Machine.since (step doc) notifies computesOutgoing false
            (start options maxRetries adapter) ms = true →
          Machine.since (step doc) notifies clearsTimers false
            (start options maxRetries adapter) ms = true →
            ∃ timer, t.timers.lookup timer = some .flushOutgoing) ∧
    ¬ ∀ doc options maxRetries adapter ms t,
      Machine.exec (step doc) (start options maxRetries adapter) ms = some t →
        t.state.phase = .connected → t.adapter ≠ none →
          Machine.since (step doc) notifies computesOutgoing false
            (start options maxRetries adapter) ms = true →
          Machine.since (step doc) notifies returnsEarly false
            (start options maxRetries adapter) ms = true →
            ∃ timer, t.timers.lookup timer = some .flushOutgoing := by
  have hnone : ∀ ms, (Machine.exec (step .blank) (start {} 5 (some 0)) ms).any (fun t =>
      t.state.phase = .connected ∧ t.adapter ≠ none ∧ t.timers = []) = true →
      ∃ t, Machine.exec (step .blank) (start {} 5 (some 0)) ms = some t ∧
        t.state.phase = .connected ∧ t.adapter ≠ none ∧
          ¬ ∃ timer, t.timers.lookup timer = some .flushOutgoing := by
    intro ms hrun
    obtain ⟨t, ht, hstate⟩ := (Option.any_eq_true _ _).mp hrun
    obtain ⟨hphase, hadapter, htimers⟩ := of_decide_eq_true hstate
    exact ⟨t, ht, hphase, hadapter, by simp [htimers]⟩
  constructor
  · intro h
    obtain ⟨t, ht, hphase, hadapter, hidle⟩ := hnone changedEarly (by decide +kernel)
    exact hidle (h _ _ _ _ _ t ht hphase hadapter (by decide +kernel) (by decide +kernel))
  · intro h
    obtain ⟨t, ht, hphase, hadapter, hidle⟩ := hnone changedBeforeDrop (by decide +kernel)
    exact hidle (h _ _ _ _ _ t ht hphase hadapter (by decide +kernel) (by decide +kernel))

end CollabEngine

end MassRelay.Ts
