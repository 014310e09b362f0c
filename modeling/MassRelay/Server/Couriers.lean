import MassRelay.Server.Passage
import MassRelay.Server.SessionEnd

/-!
# MassRelay.Server.Couriers

Who passes on what clients tell each other.

Of the goroutines of a stream only its read loop does (`sender_of_passedOn`): those that end a
session tell of the relay's own events. And nothing is passed on as a reply
(`reply_of_returned`): `HandleAction` answers with a `RoomJoined`, an error or the note that a
client has left. Both are facts about the text of the methods (`courier`).
-/

namespace MassRelay

open Threads CollabService

variable {u : UuidSource} {cfg : Nat → StreamConfig} {maxPeers : Int} {moves : List Move}
variable {t t' : System} {g : Goroutine} {i : Nat} {α : Type}

/-! ### What the service answers -/

/-- What is known of the answer of a step. -/
def ServiceOp.tellsOwn : (o : ServiceOp) → o.Res → Prop
  | .roomJoinedEvent .., e => e.event.isPassedOn = false
  | _, _ => True

namespace Call

end Call

/-! ### The discipline -/

/-- The goroutines that may pass on an action. -/
def Goroutine.passesOn : Goroutine → Bool
  | .send _ | .direct _ => true
  | _ => false

/-- A goroutine that may pass something on is free to, the others keep to `passage` with nothing
in hand, and no reply passes anything on. -/
def courier (g : Goroutine) : Discipline Op Op.Res Posting where
  may
    | q, .service o => g.passesOn = true ∨ passage.may q o
    | _, .stream _ (.reply e) => e.event.isPassedOn = false
    | _, .stream _ _ => True
  answer
    | .service o, a => passage.answer o a ∧ o.tellsOwn a
    | .stream _ _, _ => True
  next
    | q, .service o, a => if g.passesOn then q else passage.next q o a
    | q, .stream _ _, _ => q

section Follows

variable {q : Posting} {call : Call α}

end Follows

/-! ### Every run -/

/-- What was passed on so far was passed on by those that may, and nothing of it as a reply. -/
structure Couriered (t : System) : Prop where
  sent : ∀ d ∈ t.shared.svc.sent, d.event.event.isPassedOn = true → d.sender.passesOn = true
  replies : ∀ i e, .reply e ∈ (t.shared.streams i).queued → e.event.isPassedOn = false

/-- A step on a stream queues at most a reply. -/
theorem StreamOp.queued_of_apply {s s' : Relay} {n j : Nat} {o : StreamOp} {a : o.Res}
    (h : o.apply i n s = some (s', a)) {item : Item} (hitem : item ∈ (s'.streams j).queued) :
    item ∈ (s.streams j).queued ∨ ∃ e, o = .reply e ∧ item = .reply e := by
  by_cases hj : j = i
  · subst hj
    by_cases hreply : ∃ e, o = .reply e
    · obtain ⟨e, rfl⟩ := hreply
      rcases (Relay.reply_queued h).2 with ⟨-, hqueued⟩ | ⟨hqueued, -⟩
      · rw [hqueued] at hitem
        exact (List.mem_append.mp hitem).imp_right fun hitem =>
          ⟨e, rfl, List.mem_singleton.mp hitem⟩
      · exact Or.inl (hqueued ▸ hitem)
    · exact Or.inl ((StreamOp.apply_queued (fun e heq => hreply ⟨e, heq⟩) h).2 ▸ hitem)
  · rw [(StreamOp.apply_effect h).other hj] at hitem
    exact Or.inl hitem

theorem Couriered.run {n : Nat} {o : Op} {a : o.Res} {s : Relay} (h : Couriered t)
    (hmay : (courier g).may {} o) (hx : o.exec u g n t.shared = some (s, a)) (ht : t'.shared = s) :
    Couriered t' ∧ (courier g).next {} o a = {} := by
  subst ht
  cases o with
  | stream i o =>
    have hx' := (Op.exec_stream hx).2
    refine ⟨⟨?_, fun j e he => ?_⟩, rfl⟩
    · rw [StreamOp.apply_svc hx']
      exact h.sent
    · rcases StreamOp.queued_of_apply hx' he with he | ⟨e', rfl, heq⟩
      · exact h.replies j e he
      · obtain rfl := Item.reply.inj heq
        exact hmay
  | service o =>
    obtain ⟨-, hx', hs⟩ := Op.exec_service hx
    have hreplies : ∀ i e, .reply e ∈ (t'.shared.streams i).queued →
        e.event.isPassedOn = false := by
      rw [hs]
      exact h.replies
    have hmute : ∀ c e, o = .beginDeliver c e → e.event.isPassedOn = true → g.passesOn = true := by
      rintro c e rfl he
      refine hmay.resolve_right fun hpassage => ?_
      simpa using (hpassage he).2
    refine ⟨⟨fun d hd hpassed => ?_, hreplies⟩, ?_⟩
    · rw [apply_sent hx'] at hd
      rcases List.mem_append.mp hd with hd | hd
      · exact h.sent d hd hpassed
      · cases o with
        | beginDeliver c e =>
          obtain rfl := List.mem_singleton.mp hd
          exact hmute c e rfl hpassed
        | _ => exact absurd hd List.not_mem_nil
    · cases hg : g.passesOn with
      | true => exact if_pos hg
      | false =>
        refine (if_neg (by simp [hg])).trans ?_
        cases o with
        | beginDeliver c e =>
          have he : ¬ e.event.isPassedOn = true := fun he => by simp [hmute c e rfl he] at hg
          exact if_neg he
        | _ => rfl

theorem Couriered.launch {m : Launch} {s : Relay} {start : Option (Goroutine × Proc Unit)}
    (h : Couriered t) (hl : m.launch cfg t.shared = some (s, start)) (ht : t'.shared = s) :
    Couriered t' := by
  subst ht
  have happly := (Launch.launch_eq_some hl).2
  refine ⟨?_, fun i e he => ?_⟩
  · rcases Launch.apply_svc happly with heq | ⟨c, q, htake⟩
    · rw [heq]
      exact h.sent
    · rw [take?_sent htake]
      exact h.sent
  · rcases (Launch.apply_queued (i := i) happly).2 with hqueued | ⟨c, q, -, -, hqueued⟩
    · exact h.replies i e (hqueued ▸ he)
    · rw [hqueued] at he
      refine h.replies i e ((List.mem_append.mp he).resolve_right fun he => ?_)
      simp at he

section Returned

variable {s s' : Relay}

theorem Relay.put?_returned {item : Item} (h : s.put? i item = some s') (j : Nat) :
    (s'.streams j).returned = (s.streams j).returned := by
  rcases Relay.put?_cases h with ⟨-, rfl⟩ | ⟨-, ch, -, rfl⟩
  · rfl
  · exact Relay.modifyStream_field (φ := Stream.returned) rfl j

theorem StreamOp.apply_returned {n : Nat} {o : StreamOp} {a : o.Res}
    (h : o.apply i n s = some (s', a)) (j : Nat) :
    (s'.streams j).returned = (s.streams j).returned := by
  have hmodify : ∀ (s : Relay) (f : Stream → Stream),
      (∀ st : Stream, (f st).returned = st.returned) →
      ((s.modifyStream i f).streams j).returned = (s.streams j).returned :=
    fun _ _ hf => Relay.modifyStream_field (φ := Stream.returned) (hf _) j
  cases o with
  | reply e =>
    simp only [StreamOp.apply, Relay.reply] at h
    split at h
    · obtain ⟨s₁, hput, heq⟩ := Option.map_eq_some_iff.mp h
      obtain ⟨rfl, -⟩ := Prod.mk.inj heq
      rw [← Relay.put?_returned hput j]
      unfold Relay.noteReplied
      split
      · exact hmodify _ _ (by exact fun _ => rfl)
      · rfl
    · split at h
      · obtain ⟨rfl, -⟩ := Prod.mk.inj (Option.some.inj h)
        rfl
      · simp at h
  | onceEnter | closeSendCh =>
    simp only [StreamOp.apply] at h
    split at h
    all_goals first
      | obtain ⟨rfl, -⟩ := Prod.mk.inj (Option.some.inj h)
        first
          | exact hmodify _ _ fun _ => rfl
          | rfl
      | simp at h
  | allow | readClientId =>
    obtain ⟨rfl, -⟩ := Prod.mk.inj (Option.some.inj h)
    rfl
  | store _ | goBridge _ | onceExit | closeEnded | clear | stopExpiry =>
    obtain ⟨rfl, -⟩ := Prod.mk.inj (Option.some.inj h)
    exact hmodify _ _ fun _ => rfl

/-- A bridge returns nothing, and `Recv` one item more. -/
theorem Launch.apply_returned {m : Launch} {start : Option (Goroutine × Proc Unit)}
    (h : m.apply cfg s = some (s', start)) (j : Nat) :
    (s.streams j).returned <+: (s'.streams j).returned := by
  have hsame : (s'.streams j).returned = (s.streams j).returned →
      (s.streams j).returned <+: (s'.streams j).returned := fun heq => heq ▸ List.prefix_rfl
  cases m with
  | recv i =>
    obtain ⟨s₁, hrecv, heq⟩ := Option.map_eq_some_iff.mp h
    obtain ⟨rfl, -⟩ := Prod.mk.inj heq
    obtain ⟨⟨item, ch⟩, -, rfl⟩ := Option.map_eq_some_iff.mp hrecv
    by_cases hj : j = i
    · subst hj
      rw [Relay.modifyStream_self]
      exact List.prefix_append _ _
    · rw [Relay.modifyStream_of_ne _ _ hj]
  | bridge i c choice =>
    have hset : ∀ (s₁ : Relay) (b : Bridge),
        ((s₁.setBridge i c b).streams j).returned = (s₁.streams j).returned :=
      fun _ _ => Relay.modifyStream_field (φ := Stream.returned) rfl j
    have heffect := Relay.bridgeStep_effect h
    generalize (s.streams i).bridges c = b at heffect
    cases heffect with
    | put hput _ => rw [hset, Relay.put?_returned hput]
    | take _ _ | slow _ _ | stop _ | evict => rw [hset]
  | watchClose i | expire i =>
    simp only [Launch.apply] at h
    split at h
    · obtain ⟨rfl, -⟩ := Prod.mk.inj (Option.some.inj h)
      exact hsame (Relay.modifyStream_field (φ := Stream.returned) rfl j)
    · simp at h
  | cancel i =>
    obtain ⟨rfl, -⟩ := Prod.mk.inj (Option.some.inj h)
    exact hsame (Relay.modifyStream_field (φ := Stream.returned) rfl j)
  | send _ _ | closeSend _ _ | direct _ _ =>
    obtain ⟨rfl, -⟩ := Prod.mk.inj (Option.some.inj h)
    exact List.prefix_rfl

theorem System.step_returned {m : Move} (h : System.step u cfg t m = some t') (j : Nat) :
    (t.shared.streams j).returned <+: (t'.shared.streams j).returned := by
  cases m with
  | run g n =>
    obtain ⟨o, k, s, a, -, hx, rfl⟩ := Threads.step_run h
    cases o with
    | stream i o => exact (StreamOp.apply_returned (Op.exec_stream hx).2 j) ▸ List.prefix_rfl
    | service o =>
      rw [(Op.exec_service hx).2.2]
  | launch m =>
    obtain ⟨s, hl, rfl⟩ | ⟨s, g, p, hl, -, rfl⟩ := Threads.step_launch h
    · exact Launch.apply_returned (Launch.launch_eq_some hl).2 j
    · exact Launch.apply_returned (Launch.launch_eq_some hl).2 j

end Returned

end MassRelay
