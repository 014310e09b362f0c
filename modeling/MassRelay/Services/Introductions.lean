import MassRelay.Services.Membership

/-!
# MassRelay.Services.Introductions

Who has been told of whom.

A client learns of the others in its room twice over: its join is answered with the peers
that were there when the snapshot was taken, and whoever comes later is announced to it. But
`handleJoin` takes the snapshot, adds the client and announces it in sections of their own,
and a join whose sections fall between the snapshot and the `AddClient` of another is in
neither. What it takes is that the snapshot still covers whoever can be heard from when the
client is added (`Introduces`, and what `Newcomers` asks of the others). On these terms
(`introductions`) nobody in a room has yet to be told of a client whose join was answered
(`Introduced`), or of one that is acting there (`Speaking`), unless its queue was full and it
gets nothing more.
-/

namespace MassRelay

/-- The entry is the `PeerJoined` of client `x`. -/
def Queued.names (x : String) (q : Queued) : Bool :=
  match q.event.event with
  | .peerJoined p => p.clientId = x
  | _ => false

/-- The client was told of `x`: by the peers its join was answered with, or by a
`PeerJoined` in its queue. -/
def CollabClient.Knows (cl : CollabClient) (x : String) : Prop :=
  x ∈ cl.snapshot.map Prod.fst ∨ ∃ q ∈ cl.enqueued, q.names x = true

instance (cl : CollabClient) (x : String) : Decidable (cl.Knows x) :=
  inferInstanceAs (Decidable (_ ∨ _))

namespace CollabService

open Threads

variable {u : UuidSource} {s s' s'' : CollabService} {g : Goroutine} {r : RoomRef} {x y : String}

theorem ClientGrow.knows {cl cl' : CollabClient} (h : ClientGrow cl cl') (hx : cl.Knows x) :
    cl'.Knows x := by
  rcases hx with hx | ⟨q, hq, hnames⟩
  · left
    rwa [h.snapshot]
  · exact Or.inr ⟨q, h.enqueued.subset hq, hnames⟩

/-- An event from `x` finds client `y` told of `x`, or does not reach it. -/
structure Acquainted (u : UuidSource) (y x : String) (s : CollabService) : Prop where
  issued : Issued u s y
  told : s.panicked = true ∨ (s.clientAt y).slow = true ∨ (s.clientAt y).Knows x

theorem Acquainted.grow (h : Grow u s s') (hs : Acquainted u y x s) : Acquainted u y x s' := by
  have hclient := h.client hs.issued
  exact ⟨hs.issued.mono h.nextUuid, hs.told.imp h.panicked (Or.imp hclient.slow hclient.knows)⟩

/-- Whoever joined a room and was answered has been introduced to everyone in it. -/
structure Introduced (u : UuidSource) (s : CollabService) : Prop extends Housed u s where
  acquainted : ∀ {r x y}, x ∈ (s.roomAt r).clients → (s.clientAt x).progress = .answered →
    y ∈ (s.roomAt r).clients → y ≠ x → Acquainted u y x s

theorem Introduced.new (maxPeers : Int) : Introduced u (newCollabService maxPeers) where
  toHoused := .new maxPeers
  acquainted h := by simp [newCollabService] at h

/-! ### The terms -/

/-- A client is added with a snapshot of whoever was announced in the room; a client acts
once its join was answered; and it addresses no message to itself. -/
def Introduces (g : Goroutine) (o : ServiceOp) (s : CollabService) : Prop :=
  match o with
  | .addClient r _ _ _ peers =>
    ∀ x ∈ (s.roomAt r).clients, (s.clientAt x).progress ≠ .added → x ∈ peers.map Prod.fst
  | .findRoomForClient x =>
    (s.findRoomForClient x).isSome = true → (s.clientAt x).progress = .answered
  | .rlock r (.each clientIds) =>
    ∀ x ∈ clientIds, s.acting g = some (x, r) → x ∉ (s.roomAt r).clients
  | _ => True

/-- A client that is put an event of an action was told of the client that acts. -/
def HearsKnown (g : Goroutine) (o : ServiceOp) (s : CollabService) : Prop :=
  match o with
  | .put y e _ => e.isPeerJoined = false → (s.acting g).map Prod.fst = some e.fromClientId →
    (s.clientAt y).Knows e.fromClientId
  | _ => True

instance (g : Goroutine) (o : ServiceOp) (s : CollabService) : Decidable (Introduces g o s) :=
  decidable_of_iff ((match o with
    | .addClient r _ _ _ peers => (s.roomAt r).clients.all fun x =>
      decide ((s.clientAt x).progress ≠ .added → x ∈ peers.map Prod.fst)
    | .findRoomForClient x =>
      decide ((s.findRoomForClient x).isSome = true → (s.clientAt x).progress = .answered)
    | .rlock r (.each clientIds) => clientIds.all fun x =>
      decide (s.acting g = some (x, r) → x ∉ (s.roomAt r).clients)
    | _ => true) = true) (by
      unfold Introduces
      split
      · simp only [List.all_eq_true, decide_eq_true_eq]
      · exact decide_eq_true_iff
      · simp only [List.all_eq_true, decide_eq_true_eq]
      · exact iff_of_true rfl trivial)

instance (g : Goroutine) (o : ServiceOp) (s : CollabService) : Decidable (HearsKnown g o s) := by
  unfold HearsKnown
  split <;> infer_instance

/-- What holds before each step: a join is answered when everyone in the room was told of
it. -/
def Acquaints (u : UuidSource) (g : Goroutine) (o : ServiceOp) (s : CollabService) : Prop :=
  match o with
  | .roomJoinedEvent _ _ _ c _ _ => ∀ r y, c ∈ (s.roomAt r).clients → y ∈ (s.roomAt r).clients →
    y ≠ c → Acquainted u y c s
  | _ => HearsKnown g o s

/-- Whoever enters a room is told of the client that `g` announced there, and of the one
that it acts for. -/
structure Newcomers (u : UuidSource) (g : Goroutine) (s s' : CollabService) : Prop where
  announced : ∀ {r x y}, Issued u s x → (s.clientAt x).creator = g →
    (s.clientAt x).progress ≠ .added → x ∈ (s'.roomAt r).clients → y ∈ (s'.roomAt r).clients →
    y ∈ (s.roomAt r).clients ∨ Acquainted u y x s'
  heard : ∀ {r x y}, s.acting g = some (x, r) → y ∈ (s'.roomAt r).clients →
    y ∈ (s.roomAt r).clients ∨ Acquainted u y x s'

/-- Nobody enters a room. -/
theorem Newcomers.of_old (h : ∀ {r y}, y ∈ (s'.roomAt r).clients → y ∈ (s.roomAt r).clients) :
    Newcomers u g s s' :=
  ⟨fun _ _ _ _ hy => Or.inl (h hy), fun _ hy => Or.inl (h hy)⟩

/-- What a goroutine can count on when someone else makes a step. -/
structure IntroRely (u : UuidSource) (g : Goroutine) (s s' : CollabService) : Prop
    extends MemberRely u g s s', Newcomers u g s s'

/-- What `g` sees of the others, and of its own steady steps. -/
structure IntroSteady (u : UuidSource) (g : Goroutine) (s s' : CollabService) : Prop
    extends Steady u g s s', Newcomers u g s s'

/-- How goroutines introduce clients to each other. -/
def introductions (u : UuidSource) : Protocol CollabService Goroutine ServiceOp Unit where
  inv := Introduced u
  rely := IntroRely u
  idle g s := s.acting g = none
  req g o s := Acquaints u g o s
  ok g _ o s := Introduces g o s
  okLaunch _ _ := True

/-! ### Every step keeps the terms -/

section Step

variable {n : Nat} {o : ServiceOp} {a : o.Res}

/-- Who is in a room after a step was there before, as far as its join had come or has come
now; or it has just been added. -/
theorem client_of_apply (hs : Base u s) (h : o.apply u g n s = some (s', a))
    (hx : x ∈ (s'.roomAt r).clients) :
    (x ∈ (s.roomAt r).clients ∧
      (s'.clientAt x).progress = (progresses x o).getD (s.clientAt x).progress) ∨
    (x = s.uuid u ∧ (s'.clientAt x).progress = .added ∧ ∃ ctx join sid peers,
      o = .addClient r ctx join sid peers) := by
  rcases (apply_effect h).mem_clients hx with hold | ⟨rfl, -, ctx, join, sid, peers, rfl, rfl⟩
  · rcases (apply_effect h).client x with ⟨rfl, -⟩ | ⟨-, hprogress⟩
    · exact absurd (hs.issued hold) uuid_not_issued
    · exact Or.inl ⟨hold, hprogress⟩
  · refine Or.inr ⟨rfl, ?_, ctx, join, sid, peers, rfl⟩
    simp [addJoined, addClient, newClient]

/-- A client that is added was told of the peers in its snapshot. -/
theorem acquainted_of_added {ctx : Ctx} {join : JoinRoom} {sid : String}
    {peers : List (String × PeerInfo)} {c : String}
    (h : (ServiceOp.addClient r ctx join sid peers).apply u g n s = some (s', c))
    (hx : x ∈ peers.map Prod.fst) : Acquainted u (s.uuid u) x s' := by
  obtain ⟨rfl, -⟩ := Prod.mk.inj (lock_eq_some h).2
  refine ⟨⟨s.nextUuid, Nat.lt_succ_self _, rfl⟩, Or.inr (Or.inr (Or.inl ?_))⟩
  simpa [addJoined, addClient, newClient] using hx

theorem Introduced.apply (hs : Introduced u s) (hreq : Acquaints u g o s)
    (hok : Introduces g o s) (h : o.apply u g n s = some (s', a)) : Introduced u s' where
  toHoused := hs.toHoused.apply h
  acquainted := by
    intro r x y hx hanswered hy hne
    have hgrow := (apply_effect h).grow
    rcases client_of_apply hs.toBase h hx with ⟨hxold, hprogress⟩ | ⟨-, hadded, -⟩
    · rw [hprogress] at hanswered
      rcases client_of_apply hs.toBase h hy with ⟨hyold, -⟩ | ⟨rfl, -, ctx, join, sid, peers, rfl⟩
      · cases o with
        | roomJoinedEvent id r' sid c enc peers =>
          by_cases hc : c = x
          · subst hc
            exact (hreq r y hxold hyold hne).grow hgrow
          · simp only [progresses, if_neg hc, Option.getD_none] at hanswered
            exact (hs.acquainted hxold hanswered hyold hne).grow hgrow
        | rlock r' range =>
          cases range with
          | announce c =>
            by_cases hc : c = x
            · simp [progresses, hc] at hanswered
            · simp only [progresses, if_neg hc, Option.getD_none] at hanswered
              exact (hs.acquainted hxold hanswered hyold hne).grow hgrow
          | _ => exact (hs.acquainted hxold hanswered hyold hne).grow hgrow
        | _ => exact (hs.acquainted hxold hanswered hyold hne).grow hgrow
      · have hanswered : (s.clientAt x).progress = .answered := hanswered
        exact acquainted_of_added h (hok x hxold (by simp [hanswered]))
    · simp [hadded] at hanswered

theorem Introduced.take? {c : String} {q : Queued} (hs : Introduced u s)
    (h : s.take? c = some (q, s')) : Introduced u s' where
  toHoused := hs.toHoused.take? h
  acquainted := by
    intro r x y hx hanswered hy hne
    have hrely : MemberRely u (s.clientAt x).creator s s' := .take? h
    rw [take?_roomAt h] at hx hy
    rw [hrely.joining (hs.issued hx) rfl] at hanswered
    exact (hs.acquainted hx hanswered hy hne).grow hrely.toGrow

theorem Newcomers.trans (hgrow : Grow u s s')
    (hjoining : ∀ {c}, Issued u s c → (s.clientAt c).creator = g →
      (s'.clientAt c).progress = (s.clientAt c).progress)
    (hacting : s'.acting g = s.acting g) (hgrow' : Grow u s' s'') (h : Newcomers u g s s')
    (h' : Newcomers u g s' s'') : Newcomers u g s s'' where
  announced {r x y} hissued hcreator hprogress hx hy := by
    have hissued' := hissued.mono hgrow.nextUuid
    have hcreator' := (hgrow.client hissued).creator.trans hcreator
    have hprogress' : (s'.clientAt x).progress ≠ .added := hjoining hissued hcreator ▸ hprogress
    have hx' : x ∈ (s'.roomAt r).clients := by
      by_contra hout
      exact hgrow'.gone hissued' hout hx
    rcases h'.announced hissued' hcreator' hprogress' hx hy with hy | htold
    · exact (h.announced hissued hcreator hprogress hx' hy).imp_right fun htold => htold.grow hgrow'
    · exact Or.inr htold
  heard {r x y} hspeaks hy := by
    rcases h'.heard (hacting.trans hspeaks) hy with hy | htold
    · exact (h.heard hspeaks hy).imp_right fun htold => htold.grow hgrow'
    · exact Or.inr htold

theorem IntroRely.refl (u : UuidSource) (g : Goroutine) (s : CollabService) :
    IntroRely u g s s :=
  ⟨.refl u g s, .of_old fun hy => hy⟩

theorem IntroRely.trans (h : IntroRely u g s s') (h' : IntroRely u g s' s'') :
    IntroRely u g s s'' :=
  ⟨h.toMemberRely.trans h'.toMemberRely,
    .trans h.toGrow h.joining h.acting h'.toGrow h.toNewcomers h'.toNewcomers⟩

theorem IntroRely.take? {c : String} {q : Queued} (h : s.take? c = some (q, s')) :
    IntroRely u g s s' :=
  ⟨.take? h, .of_old fun hy => take?_roomAt h ▸ hy⟩

/-- A step that meets its terms is one that the others can count on, if it adds nobody who
was not told of a client they act for. -/
theorem IntroRely.of_apply {principals : Nat → Ctx} {g' : Goroutine} (hs : Base u s)
    (hreq : Requires u principals g s o) (hok : Introduces g o s)
    (hheard : ∀ {r ctx join sid peers x}, o = .addClient r ctx join sid peers →
      s.acting g' = some (x, r) → x ∈ peers.map Prod.fst)
    (h : o.apply u g n s = some (s', a)) (hne : g' ≠ g) : IntroRely u g' s s' where
  toMemberRely := .of_apply hreq h hne
  announced {r x y} hissued _ hprogress hx hy := by
    rcases client_of_apply hs h hy with ⟨hold, -⟩ | ⟨rfl, -, ctx, join, sid, peers, rfl⟩
    · exact Or.inl hold
    · rcases client_of_apply hs h hx with ⟨hold, -⟩ | ⟨rfl, -⟩
      · exact Or.inr (acquainted_of_added h (hok x hold hprogress))
      · exact absurd hissued uuid_not_issued
  heard {r x y} hspeaks hy := by
    rcases client_of_apply hs h hy with ⟨hold, -⟩ | ⟨rfl, -, ctx, join, sid, peers, rfl⟩
    · exact Or.inl hold
    · exact Or.inr (acquainted_of_added h (hheard rfl hspeaks))

theorem IntroRely.steady (h : IntroRely u g s s') : IntroSteady u g s s' :=
  ⟨h.toMemberRely.steady, h.toNewcomers⟩

theorem IntroSteady.of_apply (hs : Base u s) (ho : CollabService.steady o = true)
    (h : o.apply u g n s = some (s', a)) : IntroSteady u g s s' := by
  refine ⟨.of_apply ho h, .of_old fun hy => ?_⟩
  rcases client_of_apply hs h hy with ⟨hold, -⟩ | ⟨-, -, ctx, join, sid, peers, rfl⟩
  · exact hold
  · simp [CollabService.steady] at ho

end Step

/-! ### The programs -/

section Rules

/-- The rule of a step. -/
theorem intro_wp {o : ServiceOp} {A : CollabService → Prop} {Q : o.Res → CollabService → Prop}
    (hA : A s) (hstable : ∀ {s s'}, IntroRely u g s s' → A s → A s')
    (hreq : ∀ {s}, Introduced u s → A s → Acquaints u g o s)
    (hpost : ∀ {n s s' a}, Introduced u s → Introduces g o s → s.panicked = false → A s →
      o.apply u g n s = some (s', a) → Q a s') :
    wp (ServiceOp.exec u) (introductions u) g (Call.perform o) Q s := by
  refine wp_op hA hstable hreq ?_
  intro n s₁ s₂ a hs hA hok hx
  obtain ⟨hp, happly⟩ := exec_eq_some hx
  exact ⟨hs.apply (hreq hs hA) hok happly, hpost hs hok hp hA happly⟩

theorem acquaints_of_plain {o : ServiceOp} (h : plain o = true) : Acquaints u g o s := by
  cases o <;> trivial

/-- A plain step keeps whatever is steady. -/
theorem intro_keeps {K : CollabService → Prop} (hK : ∀ {s s'}, IntroSteady u g s s' → K s → K s')
    {o : ServiceOp} (ho : plain o = true) :
    Keeps (ServiceOp.exec u) (introductions u) g K (Call.perform o) := by
  intro s hs
  refine intro_wp hs (fun hrely => hK hrely.steady) (fun _ _ => acquaints_of_plain ho) ?_
  intro n s s' a hinv _ _ hs hx
  exact hK (.of_apply hinv.toBase (steady_of_plain ho) hx) hs

/-- Goroutine `g` carries out an action of client `x` in room `r`, where everyone else was
told of it. -/
structure Speaking (u : UuidSource) (g : Goroutine) (x : String) (r : RoomRef)
    (s : CollabService) : Prop where
  issued : Issued u s x
  room : r < s.nextRoom
  acting : s.acting g = some (x, r)
  told : ∀ y ∈ (s.roomAt r).clients, y ≠ x → Acquainted u y x s

theorem Speaking.steady (h : IntroSteady u g s s') (hs : Speaking u g x r s) :
    Speaking u g x r s' where
  issued := hs.issued.mono h.nextUuid
  room := hs.room.trans_le h.nextRoom
  acting := h.acting.trans hs.acting
  told y hy hne := by
    rcases h.heard hs.acting hy with hold | htold
    · exact (hs.told y hold hne).grow h.toGrow
    · exact htold

/-- An event of the action goes to a client in the room. -/
theorem speak_wp {A : CollabService → Prop} {c : String} {cs : List String} {e : CollabEvent}
    (hA : ∀ {s s'}, IntroSteady u g s s' → A s → A s') (hspeaks : ∀ {s}, A s → Speaking u g x r s)
    (he : FromClient x e) (hs : (Reading g r (c :: cs) s ∧ x ∉ c :: cs) ∧ A s) :
    wp (ServiceOp.exec u) (introductions u) g (Call.deliver c e)
      (fun _ s => (Reading g r cs s ∧ x ∉ cs) ∧ A s) s := by
  let L : CollabService → Prop := fun s => (Reading g r (c :: cs) s ∧ x ∉ c :: cs) ∧ A s
  have htail : ∀ {s}, L s → (Reading g r cs s ∧ x ∉ cs) ∧ A s := fun hs =>
    ⟨⟨hs.1.1.tail, fun hx => hs.1.2 (List.mem_cons_of_mem _ hx)⟩, hs.2⟩
  have hL : ∀ {s s'}, IntroRely u g s s' → L s → L s' := fun hrely hs =>
    ⟨⟨hs.1.1.rely hrely.toRely, hs.1.2⟩, hA hrely.steady hs.2⟩
  have hkept : ∀ {n o s s' a}, Introduced u s → steady o = true → delivering o = true → L s →
      o.apply u g n s = some (s', a) → L s' := fun hinv ho ho' hs hx =>
    ⟨⟨hs.1.1.delivering ho' hx, hs.1.2⟩, hA (.of_apply hinv.toBase ho hx) hs.2⟩
  let F : CollabService → Prop := fun s => L s ∧ Issued u s c ∧ (s.clientAt c).Knows x
  refine deliver_steps (F := fun _ => F) (M := fun _ => L) ?_ (fun k s hs => ?_) fun k s hs => ?_
  · refine intro_wp hs hL (fun _ _ => trivial) ?_
    intro n s s' call hinv _ hp hs hx
    have hs' := hkept hinv rfl rfl hs hx
    have hacquainted := (hspeaks hs.2).told c (hs.1.1.clients c List.mem_cons_self) fun hc =>
      hs.1.2 (hc ▸ List.mem_cons_self)
    refine ⟨fun _ => htail hs', fun k hk => ⟨hs', ?_⟩⟩
    have hgrow := (apply_effect hx).grow
    -- the call did not return at once, so the client is not slow
    have hslow : (s.clientAt c).slow = false := by
      obtain ⟨-, rfl⟩ := Prod.mk.inj (Option.some.inj hx)
      cases hslow : (s.clientAt c).slow with
      | false => rfl
      | true => simp [beginDeliver, hslow] at hk
    have hknows : (s.clientAt c).Knows x := by simpa [hp, hslow] using hacquainted.told
    exact ⟨hacquainted.issued.mono hgrow.nextUuid,
      (hgrow.client hacquainted.issued).knows hknows⟩
  · refine intro_wp (A := F) hs ?_ ?_ ?_
    · rintro s s' hrely ⟨hs, hissued, hknows⟩
      exact ⟨hL hrely hs, hissued.mono hrely.nextUuid, (hrely.client hissued).knows hknows⟩
    · rintro s - ⟨-, -, hknows⟩ - -
      rwa [he.fromClientId]
    · rintro n s s' queued hinv - - ⟨hs, -⟩ hx
      have hs' := hkept hinv rfl rfl hs hx
      exact ⟨fun _ => htail hs', fun _ => hs'⟩
  · refine intro_wp hs hL (fun _ _ => trivial) ?_
    intro n s s' _ hinv _ _ hs hx
    exact htail (hkept hinv rfl rfl hs hx)

/-- An event of the action goes to clients in the room other than the one that acts. -/
theorem speak_keeps {A : CollabService → Prop} {range : Range} {build : String → CollabEvent}
    (hA : ∀ {s s'}, IntroSteady u g s s' → A s → A s') (hspeaks : ∀ {s}, A s → Speaking u g x r s)
    (hbuild : ∀ c, FromClient x (build c)) (hrange : ∀ c, range ≠ .announce c)
    (hout : ∀ {n s}, Introduced u s → Introduces g (.rlock r range) s → A s →
      x ∉ (s.rangeTargets r n range).1) :
    Keeps (ServiceOp.exec u) (introductions u) g A (Call.broadcast r range build) := by
  intro s hs
  refine broadcast_wp (L := fun cs s => (Reading g r cs s ∧ x ∉ cs) ∧ A s) ?_
    (fun c cs s hs => speak_wp hA hspeaks (hbuild c) hs) ?_
  · have hsteady : steady (.rlock r range) = true := by
      cases range with
      | announce c => exact absurd rfl (hrange c)
      | _ => rfl
    refine intro_wp hs (fun hrely => hA hrely.steady) (fun _ _ => trivial) ?_
    intro n s s' a hinv hok _ hs hx
    have hA' := hA (.of_apply hinv.toBase hsteady hx) hs
    obtain ⟨rfl, rfl⟩ := Prod.mk.inj (Option.some.inj hx)
    exact ⟨⟨rlock_reading s g n range (hspeaks hs).room, hout hinv hok hs⟩, hA'⟩
  · intro s hs
    refine intro_wp hs.2 (fun hrely => hA hrely.steady) (fun _ _ => trivial) ?_
    intro n s s' a hinv _ _ hs hx
    exact hA (.of_apply hinv.toBase rfl hx) hs

/-- Looking for the room of the client begins its action: everyone there was told of it. -/
theorem find_wp : wp (ServiceOp.exec u) (introductions u) g (Call.perform (.findRoomForClient x))
    (fun room s => True ∧ ∀ r, room = some r → Speaking u g x r s) s := by
  refine intro_wp (A := fun _ => True) trivial (fun _ _ => trivial) (fun _ _ => trivial) ?_
  intro n s s' room hinv hok _ _ hx
  refine ⟨trivial, fun r hr => ?_⟩
  have hgrow := (apply_effect hx).grow
  have hacting := (apply_effect hx).acting
  obtain ⟨hs', hroom⟩ := Prod.mk.inj (Option.some.inj hx)
  have hfind : s.findRoomForClient x = some r := hroom.trans hr
  obtain ⟨⟨sid, hsid⟩, hmem⟩ := findRoomForClient_eq_some hfind
  have hanswered := hok (by simp [hfind])
  refine ⟨(hinv.issued hmem).mono hgrow.nextUuid,
    (hinv.registered hsid).1.trans_le hgrow.nextRoom, ?_, fun y hy hne => ?_⟩
  · rw [hacting]
    simp [actingAfter, hfind]
  · rw [← hs'] at hy
    exact (hinv.acquainted hmem hanswered hy hne).grow hgrow

/-- An action is heard by clients that were told of the one that acts. -/
theorem introductions_phaseRules (x : String) :
    PhaseRules u (introductions u) g x (fun _ => True) (Speaking u g x)
      (fun r s => Speaking u g x r s ∧ x ∉ (s.roomAt r).clients) where
  forget _ := trivial
  forgetLeft _ := trivial
  find _ := find_wp
  present r := by
    refine ⟨intro_keeps Speaking.steady, fun {range build} hrelays hbuild =>
      speak_keeps Speaking.steady (fun hs => hs) hbuild (fun c hc => ?_) ?_⟩
    · subst hc
      exact hrelays
    · intro n s hinv hok hs hx
      cases range with
      | except c =>
        obtain rfl : c = x := hrelays
        have hx := List.mem_filter.mp ((rangeOrder_perm _ _).mem_iff.mp hx)
        simp [hinv.named hx.1] at hx
      | each clientIds =>
        obtain ⟨hid, -, hmem⟩ := mem_eachLoop.mp hx
        exact hok x hid hs.acting hmem
      | all | announce _ => exact hrelays
  remove {r s} hs := by
    refine intro_wp hs (fun hrely hs => hs.steady hrely.steady) (fun _ _ => trivial) ?_
    intro n s s' _ hinv _ _ hs hx
    refine ⟨hs.steady (.of_apply hinv.toBase rfl hx), ?_⟩
    rcases apply_clients hx r with hclients | ⟨-, hnil⟩
    · rw [hclients]
      simpa [clientsAfter] using (hinv.nodup r).not_mem_erase
    · rw [hnil]
      exact List.not_mem_nil
  left r := by
    have hsteady : ∀ {s s'}, IntroSteady u g s s' →
        Speaking u g x r s ∧ x ∉ (s.roomAt r).clients →
        Speaking u g x r s' ∧ x ∉ (s'.roomAt r).clients :=
      fun h hs => ⟨hs.1.steady h, h.gone hs.1.issued hs.2⟩
    refine ⟨intro_keeps hsteady, fun {range build} hall hbuild =>
      speak_keeps hsteady (fun hs => hs.1) hbuild (fun c hc => ?_) ?_⟩
    · simp [hall] at hc
    · exact fun _ _ hs hx => hs.2 (mem_rangeTargets hx)

/-! ### Joins -/

/-- The event is the `PeerJoined` of client `c`. -/
def NamesPeer (c : String) (e : CollabEvent) : Prop := ∃ p, e.event = .peerJoined p ∧ p.clientId = c

/-- Whoever has the `PeerJoined` in its queue was told. -/
theorem Acquainted.of_put {c : String} {e : CollabEvent} {k : Nat} (he : NamesPeer c e)
    (hy : Issued u s y) (h : s.put? g y e k = some s') : Acquainted u y c s' := by
  obtain ⟨p, hp, rfl⟩ := he
  rcases put?_cases h with rfl | ⟨ch, rfl⟩
  · exact ⟨hy, Or.inl rfl⟩
  · refine ⟨hy, Or.inr (Or.inr (Or.inr ⟨⟨e, g, k⟩, ?_, ?_⟩))⟩
    · rw [withPut_enqueued_self]
      exact List.mem_append_right _ (List.mem_singleton_self _)
    · simp [Queued.names, hp]

/-- Client `c` was added to room `r`, and no other, by a join of `g` that has come to
`progress`. -/
structure Entered (u : UuidSource) (g : Goroutine) (r : RoomRef) (c : String)
    (progress : JoinProgress) (s : CollabService) : Prop where
  issued : Issued u s c
  room : r < s.nextRoom
  creator : (s.clientAt c).creator = g
  named : (s.clientAt c).info.clientId = c
  progress : (s.clientAt c).progress = progress
  only : ∀ {r'}, c ∈ (s.roomAt r').clients → r' = r

theorem Entered.steady {c : String} {progress : JoinProgress} (h : IntroSteady u g s s')
    (hs : Entered u g r c progress s) : Entered u g r c progress s' where
  issued := hs.issued.mono h.nextUuid
  room := hs.room.trans_le h.nextRoom
  creator := (h.client hs.issued).creator.trans hs.creator
  named := (h.client hs.issued).clientId.trans hs.named
  progress := (h.joining hs.issued hs.creator).trans hs.progress
  only hc := by
    by_contra hne
    exact h.gone hs.issued (fun hold => hne (hs.only hold)) hc

/-- The client is announced: everyone in the room but `cs` was told of it. -/
structure Announced (u : UuidSource) (g : Goroutine) (r : RoomRef) (c : String) (cs : List String)
    (s : CollabService) : Prop extends Entered u g r c .announced s where
  told : c ∈ (s.roomAt r).clients → ∀ y ∈ (s.roomAt r).clients, y ≠ c →
    y ∈ cs ∨ Acquainted u y c s

theorem Announced.steady {c : String} {cs : List String} (h : IntroSteady u g s s')
    (hs : Announced u g r c cs s) : Announced u g r c cs s' where
  toEntered := hs.toEntered.steady h
  told hc y hy hne := by
    have hprogress : (s.clientAt c).progress ≠ .added := by simp [hs.progress]
    rcases h.announced hs.issued hs.creator hprogress hc hy with hold | htold
    · have hcold : c ∈ (s.roomAt r).clients := by
        by_contra hout
        exact h.gone hs.issued hout hc
      exact (hs.told hcold y hold hne).imp_right fun htold => htold.grow h.toGrow
    · exact Or.inr htold

theorem Announced.tail {c : String} {cs : List String} (hs : Announced u g r c (y :: cs) s)
    (hy : Acquainted u y c s) : Announced u g r c cs s where
  toEntered := hs.toEntered
  told hc y' hy' hne := by
    rcases hs.told hc y' hy' hne with hmem | htold
    · rcases List.mem_cons.mp hmem with rfl | hmem
      · exact Or.inr hy
      · exact Or.inl hmem
    · exact Or.inr htold

/-- The `PeerJoined` goes to one more client: it is put in its queue, or the client is
slow. -/
theorem tell_wp {c : String} {cs : List String} {e : CollabEvent} (he : NamesPeer c e)
    (hs : Reading g r (y :: cs) s ∧ Announced u g r c (y :: cs) s) :
    wp (ServiceOp.exec u) (introductions u) g (Call.deliver y e)
      (fun _ s => Reading g r cs s ∧ Announced u g r c cs s) s := by
  let L : CollabService → Prop := fun s => Reading g r (y :: cs) s ∧ Announced u g r c (y :: cs) s
  have hL : ∀ {s s'}, IntroRely u g s s' → L s → L s' := fun hrely hs =>
    ⟨hs.1.rely hrely.toRely, hs.2.steady hrely.steady⟩
  have htail : ∀ {s}, L s → Acquainted u y c s → Reading g r cs s ∧ Announced u g r c cs s :=
    fun hs hy => ⟨hs.1.tail, hs.2.tail hy⟩
  have hkept : ∀ {n o s s' a}, Introduced u s → steady o = true → delivering o = true → L s →
      o.apply u g n s = some (s', a) → L s' ∧ Issued u s' y := fun hinv ho ho' hs hx =>
    ⟨⟨hs.1.delivering ho' hx, hs.2.steady (.of_apply hinv.toBase ho hx)⟩,
      (hinv.issued (hs.1.clients y List.mem_cons_self)).mono (apply_effect hx).grow.nextUuid⟩
  refine deliver_steps (F := fun _ => L) (M := fun _ => L) ?_ (fun k s hs => ?_) fun k s hs => ?_
  · refine intro_wp hs hL (fun _ _ => trivial) ?_
    intro n s s' call hinv _ _ hs hx
    obtain ⟨hs', hy⟩ := hkept hinv rfl rfl hs hx
    refine ⟨fun hcall => htail hs' ⟨hy, Or.inr (Or.inl ?_)⟩, fun _ _ => hs'⟩
    obtain ⟨rfl, rfl⟩ := Prod.mk.inj (Option.some.inj hx)
    rw [beginDeliver_clientAt]
    cases hslow : (s.clientAt y).slow with
    | true => rfl
    | false => simp [beginDeliver, hslow] at hcall
  · refine intro_wp hs hL ?_ ?_
    · obtain ⟨p, hp, -⟩ := he
      intro s _ _ hnot
      simp [CollabEvent.isPeerJoined, hp] at hnot
    · intro n s s' queued hinv _ _ hs hx
      obtain ⟨hs', -⟩ := hkept hinv rfl rfl hs hx
      refine ⟨fun hqueued => htail hs' ?_, fun _ => hs'⟩
      have hy := hinv.issued (hs.1.clients y List.mem_cons_self)
      obtain ⟨rfl, rfl⟩ := Prod.mk.inj (Option.some.inj hx)
      obtain ⟨s₁, hput⟩ := Option.isSome_iff_exists.mp hqueued
      rw [hput]
      exact .of_put he hy hput
  · refine intro_wp hs hL (fun _ _ => trivial) ?_
    intro n s s' _ hinv _ _ hs hx
    obtain ⟨hs', hy⟩ := hkept hinv rfl rfl hs hx
    refine htail hs' ⟨hy, Or.inr (Or.inl ?_)⟩
    obtain ⟨rfl, -⟩ := Prod.mk.inj (Option.some.inj hx)
    simp [markSlow]

/-- The `PeerJoined` goes out, and everyone in the room is told. -/
theorem announceJoin_wp {c : String} {e : CollabEvent}
    (hs : Entered u g r c .added s ∧ NamesPeer c e) :
    wp (ServiceOp.exec u) (introductions u) g (Call.broadcast r (.announce c) fun _ => e)
      (fun _ => Announced u g r c []) s := by
  refine broadcast_wp (L := fun cs s => Reading g r cs s ∧ Announced u g r c cs s) ?_
    (fun y cs s h => tell_wp hs.2 h) ?_
  · refine intro_wp hs.1 (fun hrely hs => hs.steady hrely.steady) (fun _ _ => trivial) ?_
    intro n s s' a hinv _ _ hs hx
    have hgrow := (apply_effect hx).grow
    obtain ⟨hclient, hprogress⟩ := ((apply_effect hx).client c).resolve_left
      fun h => hs.issued.ne_uuid h.1
    have hold : ∀ {r' y}, y ∈ (s'.roomAt r').clients → y ∈ (s.roomAt r').clients := by
      intro r' y hy
      rcases client_of_apply hinv.toBase hx hy with ⟨hold, -⟩ | ⟨-, -, _, _, _, _, ho⟩
      · exact hold
      · simp at ho
    have hentered : Entered u g r c .announced s' :=
      { issued := hs.issued.mono hgrow.nextUuid
        room := hs.room.trans_le hgrow.nextRoom
        creator := hclient.creator.trans hs.creator
        named := hclient.clientId.trans hs.named
        progress := hprogress.trans (by simp [progresses])
        only := fun hc => hs.only (hold hc) }
    refine ⟨?_, hentered, fun _ y hy hne => Or.inl ?_⟩
    · obtain ⟨rfl, rfl⟩ := Prod.mk.inj (Option.some.inj hx)
      exact rlock_reading s g n _ hs.room
    · obtain ⟨-, rfl⟩ := Prod.mk.inj (Option.some.inj hx)
      refine (rangeOrder_perm _ _).mem_iff.mpr (List.mem_filter.mpr ⟨hold hy, ?_⟩)
      simpa [hinv.named (hold hy)] using hne
  · intro s hs
    refine intro_wp hs.2 (fun hrely hs => hs.steady hrely.steady) (fun _ _ => trivial) ?_
    intro n s s' _ hinv _ _ hs hx
    exact hs.steady (.of_apply hinv.toBase rfl hx)

/-- The client is added to a room that is not another's. -/
theorem enter_wp {ctx : Ctx} {join : JoinRoom} {sid : String} {peers : List (String × PeerInfo)}
    (hr : r < s.nextRoom) :
    wp (ServiceOp.exec u) (introductions u) g (Call.perform (.addClient r ctx join sid peers))
      (fun c => Entered u g r c .added) s := by
  refine intro_wp (A := fun s => r < s.nextRoom) hr
    (fun hrely hr => hr.trans_le hrely.nextRoom) (fun _ _ => trivial) ?_
  intro n s s' c hinv _ _ hr hx
  have hgrow := (apply_effect hx).grow
  have honly : ∀ {r'}, s.uuid u ∈ (s'.roomAt r').clients → r' = r := by
    intro r' hc
    rcases (apply_effect hx).mem_clients hc with hc | ⟨-, -, _, _, _, _, ho, -⟩
    · exact absurd (hinv.issued hc) uuid_not_issued
    · exact (ServiceOp.addClient.inj ho).1.symm
  obtain ⟨rfl, rfl⟩ := Prod.mk.inj (lock_eq_some hx).2
  have hclient : (s.tick.addJoined r (newClient g ctx join sid (s.uuid u) peers)).clientAt
      (s.uuid u) = newClient g ctx join sid (s.uuid u) peers := by
    simp [addJoined, addClient, newClient]
  refine ⟨⟨s.nextUuid, Nat.lt_succ_self _, rfl⟩, hr.trans_le hgrow.nextRoom, ?_, ?_, ?_, honly⟩ <;>
    rw [hclient] <;> rfl

theorem acceptJoin_wp {ctx : Ctx} {join : JoinRoom} {sid : String} {enc : Bool}
    (hr : r < s.nextRoom) :
    wp (ServiceOp.exec u) (introductions u) g (Call.accept ctx join sid r enc)
      (fun _ _ => True) s := by
  refine wp_bind (wp_mono ?_ (intro_keeps (K := fun s => r < s.nextRoom)
    (fun h hr => hr.trans_le h.nextRoom) rfl s hr))
  intro peers s₁ hs₁
  refine wp_bind (wp_mono ?_ (enter_wp hs₁))
  intro c s₂ hs₂
  refine wp_bind (wp_mono ?_ (intro_keeps Entered.steady rfl s₂ hs₂))
  intro _ s₃ hs₃
  refine wp_bind (wp_mono ?_ (intro_keeps Entered.steady rfl s₃ hs₃))
  intro eventId s₄ hs₄
  refine wp_bind (wp_mono (Q := fun e s => Entered u g r c .added s ∧ NamesPeer c e) ?_ ?_)
  · intro e s₅ hs₅
    refine wp_bind (wp_mono ?_ (announceJoin_wp hs₅))
    intro _ s₆ hs₆
    refine wp_bind (wp_mono ?_ (intro_keeps Announced.steady rfl s₆ hs₆))
    intro eventId s₇ hs₇
    refine wp_bind (intro_wp hs₇ (fun hrely hs => hs.steady hrely.steady) ?_ ?_)
    · intro s _ hs r' y hc hy hne
      obtain rfl := hs.only hc
      exact (hs.told hc y hy hne).resolve_left List.not_mem_nil
    · exact fun _ _ _ _ _ => trivial
  · refine intro_wp hs₄ (fun hrely hs => hs.steady hrely.steady) (fun _ _ => trivial) ?_
    intro n s s' e _ _ _ hs hx
    obtain ⟨rfl, rfl⟩ := Prod.mk.inj (Option.some.inj hx)
    exact ⟨hs, _, rfl, hs.named⟩

theorem introductions_joinRules (ctx : Ctx) (join : JoinRoom) :
    JoinRules u (introductions u) g ctx join (fun _ => True) (fun _ r s => r < s.nextRoom)
      (fun _ _ => True) where
  forget _ := trivial
  refused _ _ := trivial
  outside ho := intro_keeps (fun _ _ => trivial) ho
  create {sid s} _ _ _ := by
    refine intro_wp (A := fun _ => True) trivial (fun _ _ => trivial) (fun _ _ => trivial) ?_
    intro n s s' r hinv _ _ _ hx
    have hbase := hinv.toBase.effect (apply_effect hx)
    obtain ⟨rfl, rfl⟩ := Prod.mk.inj (Option.some.inj hx)
    exact (hbase.registered (getOrCreateRoom_registered s sid)).1
  inside ho := intro_keeps (fun h hr => hr.trans_le h.nextRoom) ho
  accept hr := acceptJoin_wp hr

/-- `HandleAction` ends with nobody to act for. -/
theorem actsForNobody_wp {ctx : Ctx} {a : CollabAction} :
    wp (ServiceOp.exec u) (introductions u) g (Call.handleAction ctx a)
      (fun _ s => s.acting g = none) s := by
  have hroute :
      wp (ServiceOp.exec u) (introductions u) g (Call.route ctx a) (fun _ _ => True) s := by
    by_cases hjoin : ∃ join, a.action = some (.join join)
    · obtain ⟨join, hjoin⟩ := hjoin
      simp only [Call.route, hjoin]
      exact (introductions_joinRules ctx join).handleJoin_wp trivial
    · exact (introductions_phaseRules a.clientId).route_keeps rfl (fun join h => hjoin ⟨join, h⟩) s
        trivial
  refine wp_bind (wp_mono (fun answer s₁ _ => ?_) hroute)
  refine wp_bind
    (intro_wp (A := fun _ => True) trivial (fun _ _ => trivial) (fun _ _ => trivial) ?_)
  exact fun _ _ _ _ hx => (apply_effect hx).acting

/-- A goroutine that acts for nobody goes on to. -/
theorem idle_keeps {o : ServiceOp} (ho : steady o = true) :
    Keeps (ServiceOp.exec u) (introductions u) g (fun s => s.acting g = none) (Call.perform o) := by
  intro s hs
  refine intro_wp hs (fun hrely hs => hrely.acting.trans hs) ?_ ?_
  · intro s _ hs
    cases o with
    | put y e k => exact fun _ hacting => by simp [hs] at hacting
    | roomJoinedEvent => simp [steady] at ho
    | _ => trivial
  · exact fun _ _ _ hs hx => (Steady.of_apply ho hx).acting.trans hs

end Rules

/-! ### Calls of an embedding server -/

section Steady

variable {P : Protocol CollabService Goroutine ServiceOp Unit} {A : CollabService → Prop}
variable (hkeeps : ∀ {o}, steady o = true → Keeps (ServiceOp.exec u) P g A (Call.perform o))

include hkeeps

/-- A broadcast that announces nobody is made of steady steps. -/
theorem broadcast_steadily {range : Range} {build : String → CollabEvent}
    (hrange : ∀ c, range ≠ .announce c) :
    Keeps (ServiceOp.exec u) P g A (Call.broadcast r range build) := by
  have hlock : steady (.rlock r range) = true := by
    cases range with
    | announce c => exact absurd rfl (hrange c)
    | _ => rfl
  intro s hs
  refine broadcast_wp (L := fun _ => A) (hkeeps hlock s hs) (fun c _ s hs => ?_)
    fun s hs => hkeeps rfl s hs
  refine deliver_steps (F := fun _ => A) (M := fun _ => A) ?_ (fun k s hs => ?_) fun k s hs => ?_
  · exact wp_mono (fun _ _ hs => ⟨fun _ => hs, fun _ _ => hs⟩) (hkeeps rfl s hs)
  · exact wp_mono (fun _ _ hs => ⟨fun _ => hs, fun _ => hs⟩) (hkeeps rfl s hs)
  · exact hkeeps rfl s hs

theorem deliverAppMessage_steadily (sid c : String) (msg : AppMessage) :
    Keeps (ServiceOp.exec u) P g A (Call.deliverAppMessage sid c msg) := by
  refine .bind (hkeeps rfl) fun room => ?_
  cases room with
  | none => exact .ret _
  | some r =>
    refine .bind (hkeeps rfl) fun eventId => ?_
    split
    · exact .bind (broadcast_steadily hkeeps fun _ => by simp) fun _ => .bind (hkeeps rfl) fun _ =>
        .ret _
    · exact .bind (broadcast_steadily hkeeps fun _ => by simp) fun _ => .bind (hkeeps rfl) fun _ =>
        .ret _

theorem getClient_steadily (sid c : String) :
    Keeps (ServiceOp.exec u) P g A (Call.getClient sid c) := by
  refine .bind (hkeeps rfl) fun room => ?_
  cases room with
  | none => exact .ret _
  | some r => exact hkeeps rfl

end Steady

end CollabService

end MassRelay
