import WebrtcDatachannels.Signaling.Fetch

/-!
# A long-poll loses no wake-up

`Rooms::fetch` beside any other requests, as in `Signaling/Fetch`, here of a room that is not
removed while the fetch runs. `Watched` is the server with its clock and with two histories: the
accepted publishes whose room has stayed since, and what each fetch saw whenever it looked.
`Server.step_effect` says once what a step does to a mailbox and to the fetches it does not step;
the invariant of one fetch follows from it (`Watched.Sound.step`), and with it that the fetch is
never left waiting beside its blob or the mark, and what each of its answers means
(`fetch_loses_no_wakeup`).
-/

namespace WebrtcDatachannels.Signaling

/-! ## What a step does -/

/-- What a step that wakes the notifiers `woken` makes of a mailbox. -/
inductive Mailbox.Grows (woken : List NotifyId) (m : Mailbox) : Mailbox → Prop where
  | same : Grows woken m m
  | appended {blob : Bytes} (hd : m.done = false) (hw : m.notify ∈ woken) :
      Grows woken m { m with blobs := m.blobs ++ [blob] }
  | marked (hw : m.notify ∈ woken) : Grows woken m { m with done := true }

/-- What a step that wakes the notifiers `woken` makes of a fetch that it does not step. -/
structure FetchTask.Signalled (woken : List NotifyId) (t t' : FetchTask) : Prop where
  room : t'.room = t.room
  role : t'.role = t.role
  seq : t'.seq = t.seq
  deadline : t'.deadline = t.deadline
  stage : t'.stage = (t.wake woken).stage

namespace Rooms

section
variable {s : Rooms} {now : Instant} {room room' : String} {role role' : Role} {m : Mailbox}

/-- The mailboxes after `entry`. -/
theorem mailbox?_entry_eq (s : Rooms) (now : Instant) (room room' : String) (role : Role) :
    (s.entry now room).2.mailbox? room' role =
      if room' = room then some ((s.entry now room).1.mailbox role) else s.mailbox? room' role := by
  unfold mailbox?
  rw [lookup_entry]
  split <;> rfl

/-- A mailbox that is there stays as it is over `entry`. -/
theorem mailbox?_entry_of_some (h : s.mailbox? room' role = some m) :
    (s.entry now room).2.mailbox? room' role = some m := by
  rw [mailbox?_entry_eq]
  split
  · next he => subst he; rw [entry_eq h]
  · exact h

/-- A mailbox after `entry` was there before, or is a new one. -/
theorem mailbox?_of_entry (h : (s.entry now room).2.mailbox? room' role = some m) :
    s.mailbox? room' role = some m ∨ m.blobs = [] ∧ m.done = false := by
  by_cases hin : room' ∈ s.map
  · obtain ⟨m₀, hm₀⟩ : ∃ m, s.mailbox? room' role = some m := mailbox?_of_mem hin
    rw [mailbox?_entry_of_some hm₀] at h
    exact .inl (hm₀.trans h)
  · have hnone : s.map.lookup room' = none := AList.lookup_eq_none.2 hin
    rw [mailbox?_entry_eq] at h
    split at h
    · next he =>
      subst he
      cases h
      obtain ⟨hb, hd⟩ := s.entry_mailbox now room' role
      exact .inr ⟨by rw [hb]; simp [mailbox?, hnone], by rw [hd]; simp [mailbox?, hnone]⟩
    · exact .inl h

/-- The mailboxes after a write to an entry. -/
theorem mailbox?_write (s : Rooms) (now : Instant) (room room' : String) (role role' : Role)
    (m : Mailbox) :
    ((s.entry now room).2.write room (s.entry now room).1 role m).mailbox? room' role' =
      if room' = room ∧ role' = role then some m
      else (s.entry now room).2.mailbox? room' role' := by
  unfold mailbox?
  rw [lookup_write, lookup_entry]
  by_cases hroom : room' = room
  · by_cases hrole : role' = role
    · subst hrole; simp [hroom]
    · simp [hroom, hrole, Room.mailbox_setMailbox_ne _ _ hrole]
  · simp [hroom]

/-- A publish is refused, which writes no mailbox, or appends the blob to a mailbox that is not
done and wakes it. -/
theorem publish_cases (s : Rooms) (now : Instant) (room : String) (role : Role) (blob : Bytes) :
    ((∀ n, (s.publish now room role blob).1 ≠ .seq n) ∧
      (s.publish now room role blob).2.1 = [] ∧
      ((s.publish now room role blob).2.2 = s ∨
        (s.publish now room role blob).2.2 = (s.entry now room).2)) ∨
    ∃ m, (s.entry now room).1.mailbox role = m ∧ m.done = false ∧
      s.publish now room role blob =
        (.seq m.blobs.length, [m.notify], (s.entry now room).2.write room (s.entry now room).1 role
          { m with blobs := m.blobs ++ [blob] }) := by
  simp only [publish]
  split
  · refine .inl ⟨?_, rfl, .inl rfl⟩
    intro n hn
    cases hn
  · split
    · refine .inl ⟨?_, rfl, .inr rfl⟩
      intro n hn
      cases hn
    · next hd =>
      split
      · refine .inl ⟨?_, rfl, .inr rfl⟩
        intro n hn
        cases hn
      · exact .inr ⟨_, rfl, eq_false_of_ne_true hd, rfl⟩

/-- A write to the entry of a mailbox makes of every mailbox that is there what it makes of that
one. -/
theorem grows_write {woken : List NotifyId} {m' : Mailbox}
    (hg : ((s.entry now room).1.mailbox role).Grows woken m')
    (h : s.mailbox? room' role' = some m) :
    ∃ m₁, ((s.entry now room).2.write room (s.entry now room).1 role m').mailbox? room' role' =
      some m₁ ∧ m.Grows woken m₁ := by
  rw [mailbox?_write]
  split
  · next he =>
    obtain ⟨rfl, rfl⟩ := he
    rw [entry_eq h] at hg
    exact ⟨m', rfl, hg⟩
  · exact ⟨m, mailbox?_entry_of_some h, .same⟩

theorem publish_grows (blob : Bytes) (h : s.mailbox? room' role' = some m) :
    ∃ m', (s.publish now room role blob).2.2.mailbox? room' role' = some m' ∧
      m.Grows (s.publish now room role blob).2.1 m' := by
  obtain ⟨-, hw, hs | hs⟩ | ⟨m₀, hm₀, hd, hp⟩ := s.publish_cases now room role blob
  · rw [hs]; exact ⟨m, h, .same⟩
  · rw [hs]; exact ⟨m, mailbox?_entry_of_some h, .same⟩
  · rw [hp]
    subst hm₀
    exact grows_write (.appended hd (List.mem_singleton_self _)) h

theorem markDone_grows (h : s.mailbox? room' role' = some m) :
    ∃ m', (s.markDone now room role).2.2.mailbox? room' role' = some m' ∧
      m.Grows (s.markDone now room role).2.1 m' :=
  grows_write (.marked (List.mem_singleton_self _)) h

end

end Rooms

namespace FetchTask

section
variable {t t' t'' : FetchTask} {woken woken' : List NotifyId}

theorem Signalled.refl (t : FetchTask) : t.Signalled [] t := by
  refine ⟨rfl, rfl, rfl, rfl, ?_⟩
  obtain ⟨room, role, seq, deadline, stage, pending, orphaned, recreated, waited⟩ := t
  cases stage <;> simp [wake]

theorem Signalled.trans (h : t.Signalled woken t') (h' : t'.Signalled woken' t'') :
    t.Signalled (woken ++ woken') t'' := by
  refine ⟨h'.room.trans h.room, h'.role.trans h.role, h'.seq.trans h.seq,
    h'.deadline.trans h.deadline, ?_⟩
  have hs := h.stage
  rw [h'.stage]
  obtain ⟨room, role, seq, deadline, stage, pending, orphaned, recreated, waited⟩ := t
  obtain ⟨room', role', seq', deadline', stage', pending', orphaned', recreated', waited'⟩ := t'
  cases stage <;> simp only [wake] at hs ⊢ <;> subst hs <;> simp [Bool.or_assoc]

theorem signalled_wake (woken : List NotifyId) (t : FetchTask) :
    t.Signalled woken (t.wake woken) := by
  refine ⟨?_, ?_, ?_, ?_, rfl⟩
  all_goals unfold wake; split <;> rfl

theorem signalled_orphan (room : String) (woken : List NotifyId) (t : FetchTask) :
    t.Signalled woken ((t.orphan room).wake woken) := by
  have h := (t.orphan room).signalled_wake woken
  have hkept : (t.orphan room).room = t.room ∧ (t.orphan room).role = t.role ∧
      (t.orphan room).seq = t.seq ∧ (t.orphan room).deadline = t.deadline ∧
      ((t.orphan room).wake woken).stage = (t.wake woken).stage := by
    unfold orphan
    split
    · refine ⟨rfl, rfl, rfl, rfl, ?_⟩
      unfold wake
      split <;> simp_all
    · exact ⟨rfl, rfl, rfl, rfl, rfl⟩
  obtain ⟨hroom, hrole, hseq, hdl, hst⟩ := hkept
  exact ⟨h.room.trans hroom, h.role.trans hrole, h.seq.trans hseq, h.deadline.trans hdl, hst⟩

end

end FetchTask

namespace Server

variable {s s' : Server} {a : ServerAct}

/-- The fetches of `s` are signalled in `s'`. -/
def Signals (woken : List NotifyId) (s s' : Server) : Prop :=
  ∀ (k : Nat) (t : FetchTask), s.fetches[k]? = some t →
    ∃ t', s'.fetches[k]? = some t' ∧ t.Signalled woken t'

theorem signals_map {f : FetchTask → FetchTask} {woken : List NotifyId} {rooms : Rooms}
    (hf : ∀ t : FetchTask, t.Signalled woken (f t)) :
    Signals woken s { rooms, fetches := s.fetches.map f } := by
  intro k t hk
  exact ⟨f t, by simp [hk], hf t⟩

/-- A removal leaves the rooms that are still there alone. -/
theorem removeRoom_effect (s : Server) (key : String) :
    (∀ room, room ∈ (s.removeRoom key).rooms.map →
      (s.removeRoom key).rooms.map.lookup room = s.rooms.map.lookup room) ∧
    ∃ woken, Signals woken s (s.removeRoom key) := by
  unfold removeRoom
  split
  · refine ⟨fun room hroom => ?_, _, signals_map fun t => t.signalled_orphan key _⟩
    obtain ⟨r, hr⟩ := Rooms.mem_iff_lookup.1 hroom
    rw [Rooms.lookup_remove] at hr ⊢
    split at hr
    · cases hr
    · next hne => rw [if_neg hne]
  · exact ⟨fun _ _ => rfl, [], fun k t hk => ⟨t, hk, .refl t⟩⟩

theorem foldl_removeRoom_effect (keys : List String) (s : Server) :
    (∀ room, room ∈ (keys.foldl removeRoom s).rooms.map →
      (keys.foldl removeRoom s).rooms.map.lookup room = s.rooms.map.lookup room) ∧
    ∃ woken, Signals woken s (keys.foldl removeRoom s) := by
  induction keys generalizing s with
  | nil => exact ⟨fun _ _ => rfl, [], fun k t hk => ⟨t, hk, .refl t⟩⟩
  | cons key keys ih =>
    obtain ⟨hmail, woken', hsig'⟩ := ih (s.removeRoom key)
    obtain ⟨hmail₁, woken, hsig⟩ := s.removeRoom_effect key
    refine ⟨fun room hroom => ?_, woken ++ woken', fun k t hk => ?_⟩
    · have hlook := hmail room hroom
      refine hlook.trans (hmail₁ room ?_)
      obtain ⟨r, hr⟩ := Rooms.mem_iff_lookup.1 hroom
      exact Rooms.mem_iff_lookup.2 ⟨r, hlook.symm.trans hr⟩
    · obtain ⟨t', hk', ht'⟩ := hsig k t hk
      obtain ⟨t'', hk'', ht''⟩ := hsig' k t' hk'
      exact ⟨t'', hk'', ht'.trans ht''⟩

/-- A step of a fetch leaves the mailboxes that are there as they are. -/
theorem poll_mailbox? {rooms : Rooms} {t : FetchTask} {now : Instant} {p : FetchTask × Rooms}
    {room : String} {role : Role} {m : Mailbox} (hp : t.poll rooms now = some p)
    (hm : rooms.mailbox? room role = some m) : p.2.mailbox? room role = some m := by
  obtain ⟨-, hentry⟩ | ⟨-, hsame⟩ := t.poll_cases hp
  · rw [hentry]; exact Rooms.mailbox?_entry_of_some hm
  · rw [hsame]; exact hm

/-- What a step makes of the mailboxes whose room is still there, and of the fetches that it does
not step. -/
theorem step_effect (hs : s.step a = some s') : ∃ woken,
    (∀ room role m, s.rooms.mailbox? room role = some m → room ∈ s'.rooms.map →
      ∃ m', s'.rooms.mailbox? room role = some m' ∧ m.Grows woken m') ∧
    ∀ (k : Nat) (t : FetchTask), s.fetches[k]? = some t → (∀ now, a ≠ .poll k now) →
      ∃ t', s'.fetches[k]? = some t' ∧ t.Signalled woken t' := by
  have hkept : ∀ {room role m} {woken : List NotifyId},
      s'.rooms.map.lookup room = s.rooms.map.lookup room → s.rooms.mailbox? room role = some m →
      ∃ m', s'.rooms.mailbox? room role = some m' ∧ m.Grows woken m' := by
    intro room role m woken hlook hm
    exact ⟨m, by rw [Rooms.mailbox?, hlook]; exact hm, .same⟩
  cases a with
  | publish now room role blob =>
    cases hs
    refine ⟨(s.rooms.publish now room role blob).2.1, fun _ _ m hm _ => ?_, fun k t hk _ => ?_⟩
    · exact Rooms.publish_grows blob hm
    · exact ⟨_, by simp [hk], t.signalled_wake _⟩
  | markDone now room role =>
    cases hs
    refine ⟨(s.rooms.markDone now room role).2.1, fun _ _ m hm _ => ?_, fun k t hk _ => ?_⟩
    · exact Rooms.markDone_grows hm
    · exact ⟨_, by simp [hk], t.signalled_wake _⟩
  | delete room =>
    cases hs
    obtain ⟨hmail, woken, hsig⟩ := s.removeRoom_effect room
    exact ⟨woken, fun room' _ _ hm hin => hkept (hmail room' hin) hm, fun k t hk _ => hsig k t hk⟩
  | evictExpired now =>
    cases hs
    obtain ⟨hmail, woken, hsig⟩ := foldl_removeRoom_effect (s.rooms.expired now) s
    exact ⟨woken, fun room' _ _ hm hin => hkept (hmail room' hin) hm, fun k t hk _ => hsig k t hk⟩
  | fetch now room role seq wait =>
    cases hs
    refine ⟨[], fun _ _ m hm _ => ⟨m, hm, .same⟩, fun k t hk _ => ⟨t, ?_, .refl t⟩⟩
    exact (List.getElem?_append_left (List.getElem?_eq_some_iff.1 hk).1).trans hk
  | poll j now =>
    simp only [step, Option.map_eq_some_iff, Option.bind_eq_some_iff] at hs
    obtain ⟨p, ⟨t, hj, hp⟩, rfl⟩ := hs
    refine ⟨[], fun room role m hm _ => ⟨m, ?_, .same⟩, fun k t' hk hne => ⟨t', ?_, .refl t'⟩⟩
    · exact poll_mailbox? hp hm
    · have hjk : j ≠ k := fun he => hne now (by rw [he])
      exact (List.getElem?_set_ne hjk).trans hk

end Server

/-! ## The server with its clock and its histories -/

/-- An accepted publish. -/
structure Entry where
  room : String
  role : Role
  seq : Nat
  blob : Bytes
deriving DecidableEq, Repr

/-- The time that a fetch reads in a step. -/
def ServerAct.clock? : ServerAct → Option Instant
  | .fetch now _ _ _ _ | .poll _ now => some now
  | _ => none

/-- A server with the time that a fetch read last, the accepted publishes on the rooms that have
stayed since, and what the fetches saw at each of their looks, oldest first. -/
structure Watched where
  server : Server
  clock : Instant
  published : List Entry
  looks : List (Nat × Fetch)

namespace Watched

/-- A server with no room and no fetch. -/
def start (limits : Limits) : Watched :=
  { server := .start limits, clock := 0, published := [], looks := [] }

/-- What a step publishes. -/
def accepted (s : Watched) : ServerAct → List Entry
  | .publish now room role blob =>
    match (s.server.rooms.publish now room role blob).1 with
    | .seq seq => [{ room, role, seq, blob }]
    | _ => []
  | _ => []

/-- What a step's fetch sees, if it looks at its mailbox. -/
def looked (s : Watched) : ServerAct → List (Nat × Fetch)
  | .poll k now =>
    match s.server.fetches[k]? with
    | some t =>
      match t.stage with
      | .top | .armed _ _ _ => [(k, (s.server.rooms.fetchNow now t.room t.role t.seq).1.1)]
      | _ => []
    | none => []
  | _ => []

/-- One step; the clock does not go back. -/
def step (s : Watched) (a : ServerAct) : Option Watched :=
  if a.clock?.all (s.clock ≤ ·) then
    (s.server.step a).map fun server =>
      { server
        clock := a.clock?.getD s.clock
        published := (s.published ++ s.accepted a).filter (·.room ∈ server.rooms.map)
        looks := s.looks ++ s.looked a }
  else none

/-- One step that does not remove the room `room`. -/
def stepKeeping (room : String) (s : Watched) (a : ServerAct) : Option Watched :=
  (s.step a).filter fun s' => room ∈ s.server.rooms.map → room ∈ s'.server.rooms.map

/-- What fetch `k` saw when it looked last. -/
def lastLook (s : Watched) (k : Nat) : Option Fetch :=
  ((s.looks.filter (·.1 = k)).map Prod.snd).getLast?

/-- The fetch `k`, at `t`, misses nothing: while it waits unwoken, it waits for its mailbox, whose
blob is not there and which is not done; a blob that it returned is the one published under its
number; when it returned that the mailbox is done, it is, with no more blobs than its number; and
when it returned that the blob may still come, its time is over and it saw so at its last look. -/
structure MissesNothing (s : Watched) (k : Nat) (t : FetchTask) : Prop where
  awake : ∀ notify expires, t.stage = .parked notify expires false →
    ∃ m, s.server.rooms.mailbox? t.room t.role = some m ∧ m.notify = notify ∧
      m.peek t.seq = .pending
  blob : ∀ blob, t.stage = .returned (.blob blob) →
    { room := t.room, role := t.role, seq := t.seq, blob } ∈ s.published
  done : t.stage = .returned .done → ∃ m, s.server.rooms.mailbox? t.room t.role = some m ∧
    m.done = true ∧ m.blobs.length ≤ t.seq
  pending : t.stage = .returned .pending → t.deadline ≤ s.clock ∧ s.lastLook k = some .pending

end Watched

/-! ## The published blobs -/

/-- Every blob of the store is an accepted publish. -/
def Recorded (published : List Entry) (rooms : Rooms) : Prop :=
  ∀ room role m, rooms.mailbox? room role = some m → ∀ seq blob, m.blobs[seq]? = some blob →
    { room, role, seq, blob } ∈ published

section
variable {published more : List Entry} {rooms rooms' : Rooms} {now : Instant} {room : String}
  {role : Role}

theorem Recorded.left (h : Recorded published rooms) : Recorded (published ++ more) rooms :=
  fun room role m hm seq blob hb => List.mem_append_left _ (h room role m hm seq blob hb)

theorem Recorded.entry (h : Recorded published rooms) (now : Instant) (room : String) :
    Recorded published (rooms.entry now room).2 := by
  intro room' role m hm seq blob hb
  obtain hm | ⟨hnil, -⟩ := Rooms.mailbox?_of_entry hm
  · exact h room' role m hm seq blob hb
  · rw [hnil] at hb; cases hb

theorem Recorded.write {m : Mailbox} (h : Recorded published rooms)
    (hb : ∀ seq blob, m.blobs[seq]? = some blob → { room, role, seq, blob } ∈ published) :
    Recorded published ((rooms.entry now room).2.write room (rooms.entry now room).1 role m) := by
  intro room' role' m' hm
  rw [Rooms.mailbox?_write] at hm
  split at hm
  · next he =>
    obtain ⟨rfl, rfl⟩ := he
    cases hm
    exact hb
  · exact h.entry now room room' role' m' hm

/-- The blobs of the mailbox that an entry holds. -/
theorem Recorded.of_entry (h : Recorded published rooms) (seq : Nat) (blob : Bytes)
    (hb : ((rooms.entry now room).1.mailbox role).blobs[seq]? = some blob) :
    { room, role, seq, blob } ∈ published :=
  h.entry now room room role _ (rooms.mailbox?_entry now room role) seq blob hb

/-- Removals take no blob away from a room that stays. -/
theorem Recorded.of_lookup (h : Recorded published rooms)
    (hk : ∀ room, room ∈ rooms'.map → rooms'.map.lookup room = rooms.map.lookup room) :
    Recorded published rooms' := by
  intro room role m hm
  refine h room role m ?_
  rw [Rooms.mailbox?, ← hk room (Rooms.mem_of_mailbox? hm)]
  exact hm

/-- The publishes on rooms that are not there need not be kept. -/
theorem Recorded.filter (h : Recorded published rooms) :
    Recorded (published.filter (·.room ∈ rooms.map)) rooms := by
  intro room role m hm seq blob hb
  exact List.mem_filter.2 ⟨h room role m hm seq blob hb,
    decide_eq_true (Rooms.mem_of_mailbox? hm)⟩

end

namespace Watched

variable {s s' : Watched} {a : ServerAct} {as : List ServerAct} {k : Nat} {t : FetchTask}

/-- What every run keeps of the history of publishes. -/
structure Inv (s : Watched) : Prop where
  recorded : Recorded s.published s.server.rooms
  there : ∀ e ∈ s.published, e.room ∈ s.server.rooms.map

theorem inv_start (limits : Limits) : (start limits).Inv :=
  ⟨fun _ _ _ hm => (by cases hm), nofun⟩

theorem step_eq (hs : s.step a = some s') :
    (∀ now, a.clock? = some now → s.clock ≤ now) ∧ s.server.step a = some s'.server ∧
      s'.clock = a.clock?.getD s.clock ∧
      s'.published = (s.published ++ s.accepted a).filter (·.room ∈ s'.server.rooms.map) ∧
      s'.looks = s.looks ++ s.looked a := by
  unfold step at hs
  split at hs
  · next hc =>
    obtain ⟨server, hserver, rfl⟩ := Option.map_eq_some_iff.1 hs
    refine ⟨fun now hn => ?_, hserver, rfl, rfl, rfl⟩
    rw [hn] at hc
    exact of_decide_eq_true hc
  · cases hs

/-- The blobs after a step are among those published before and in it. -/
theorem Inv.recorded_step (h : s.Inv) (hs : s.server.step a = some s'.server) :
    Recorded (s.published ++ s.accepted a) s'.server.rooms := by
  have hr := h.recorded
  have hrooms : ∀ server, s.server.step a = some server → s'.server = server :=
    fun server hserver => Option.some.inj (hs.symm.trans hserver)
  cases a with
  | publish now room role blob =>
    rw [hrooms _ rfl]
    obtain ⟨hno, -, hsame | hsame⟩ | ⟨m, hm, -, hp⟩ :=
      s.server.rooms.publish_cases now room role blob
    · simp only [hsame]; exact hr.left
    · simp only [hsame]; exact (hr.entry now room).left
    · have hacc : s.accepted (.publish now room role blob) =
          [{ room, role, seq := m.blobs.length, blob }] := by simp only [accepted, hp]
      simp only [hp, hacc]
      refine hr.left.write fun seq b hb => ?_
      -- the blob was there, or is the one published
      rw [List.getElem?_append] at hb
      split at hb
      · subst hm
        exact List.mem_append_left _ (hr.of_entry seq b hb)
      · next hlen =>
        rw [List.getElem?_singleton] at hb
        split at hb
        · next hz =>
          cases hb
          have hseq : seq = m.blobs.length := by omega
          rw [hseq]
          exact List.mem_append_right _ (List.mem_singleton_self _)
        · cases hb
  | markDone now room role =>
    rw [hrooms _ rfl]
    refine Recorded.left ?_
    exact hr.write (m := { (s.server.rooms.entry now room).1.mailbox role with done := true })
      fun seq b hb => hr.of_entry seq b hb
  | delete room =>
    rw [hrooms _ rfl]
    exact (hr.of_lookup (s.server.removeRoom_effect room).1).left
  | evictExpired now =>
    rw [hrooms _ rfl]
    exact (hr.of_lookup (Server.foldl_removeRoom_effect _ s.server).1).left
  | fetch now room role seq wait =>
    rw [hrooms _ rfl]
    exact hr.left
  | poll j now =>
    simp only [Server.step, Option.map_eq_some_iff, Option.bind_eq_some_iff] at hs
    obtain ⟨p, ⟨t, -, hp⟩, hp'⟩ := hs
    rw [← hp']
    refine Recorded.left ?_
    obtain ⟨-, hentry⟩ | ⟨-, hsame⟩ := t.poll_cases hp
    · simp only [hentry]; exact hr.entry now t.room
    · simp only [hsame]; exact hr

theorem Inv.step (h : s.Inv) (hs : s.step a = some s') : s'.Inv := by
  obtain ⟨-, hserver, -, hpub, -⟩ := step_eq hs
  refine ⟨?_, fun e he => ?_⟩
  · rw [hpub]; exact (h.recorded_step hserver).filter
  · rw [hpub] at he
    exact of_decide_eq_true (List.mem_filter.1 he).2

/-! ## One fetch -/

/-- What a run keeps of a fetch whose room is not removed: it misses nothing; past a look it holds
the notifier of its mailbox, and saw `Pending` at its last look; and its timer does not run out
before its deadline. -/
structure Sound (s : Watched) (k : Nat) (t : FetchTask) : Prop extends s.MissesNothing k t where
  notifier : ∀ notify, t.stage.notifier? = some notify →
    (∃ m, s.server.rooms.mailbox? t.room t.role = some m ∧ m.notify = notify) ∧
      s.lastLook k = some .pending
  armed : ∀ notify remaining notified, t.stage = .armed notify remaining notified →
    t.deadline ≤ s.clock + remaining
  parked : ∀ notify expires notified, t.stage = .parked notify expires notified →
    t.deadline ≤ expires

/-- A call that has just been made has not missed anything. -/
theorem sound_new (s : Watched) (k : Nat) (room : String) (role : Role) (seq deadline : Nat) :
    s.Sound k (.new room role seq deadline) := by
  refine ⟨⟨?_, ?_, ?_, ?_⟩, ?_, ?_, ?_⟩
  all_goals nofun

/-- A look of another fetch is not one of this fetch. -/
theorem lastLook_of_other (looks : List (Nat × Fetch)) (hl : s'.looks = s.looks ++ looks)
    (hne : ∀ e ∈ looks, e.1 ≠ k) : s'.lastLook k = s.lastLook k := by
  have hnil : looks.filter (·.1 = k) = [] := by
    rw [List.filter_eq_nil_iff]
    intro e he
    simpa using hne e he
  simp only [lastLook, hl, List.filter_append, hnil, List.append_nil]

/-- A look is the last one of its fetch. -/
theorem lastLook_of_own {f : Fetch} (hl : s'.looks = s.looks ++ [(k, f)]) :
    s'.lastLook k = some f := by
  simp [lastLook, hl]

/-- Only the fetch that is stepped looks. -/
theorem looked_of_other (s : Watched) (hne : ∀ now, a ≠ .poll k now) :
    ∀ e ∈ s.looked a, e.1 ≠ k := by
  intro e he hk
  cases a with
  | poll j now =>
    simp only [looked] at he
    split at he
    · split at he
      · rw [List.mem_singleton.1 he] at hk; exact hne now (by rw [← hk])
      · rw [List.mem_singleton.1 he] at hk; exact hne now (by rw [← hk])
      · cases he
    · cases he
  | publish | markDone | delete | evictExpired | fetch => cases he

/-- A wake leaves the remaining time of an armed fetch alone. -/
theorem wake_armed {woken : List NotifyId} {notify : NotifyId} {remaining : Nat} {notified : Bool}
    (h : (t.wake woken).stage = .armed notify remaining notified) :
    ∃ notified', t.stage = .armed notify remaining notified' := by
  obtain ⟨room, role, seq, deadline, stage, pending, orphaned, recreated, waited⟩ := t
  cases stage with
  | armed => simp only [FetchTask.wake, Stage.armed.injEq] at h; exact ⟨_, by rw [h.1, h.2.1]⟩
  | top | peeked | parked | returned => cases h

/-- A wake leaves the timer of a waiting fetch alone. -/
theorem wake_parked_timer {woken : List NotifyId} {notify : NotifyId} {expires : Instant}
    {notified : Bool} (h : (t.wake woken).stage = .parked notify expires notified) :
    ∃ notified', t.stage = .parked notify expires notified' := by
  obtain ⟨room, role, seq, deadline, stage, pending, orphaned, recreated, waited⟩ := t
  cases stage with
  | parked => simp only [FetchTask.wake, Stage.parked.injEq] at h; exact ⟨_, by rw [h.1, h.2.1]⟩
  | top | peeked | armed | returned => cases h

theorem clock_le (hs : s.step a = some s') : s.clock ≤ s'.clock := by
  obtain ⟨hle, -, hclock, -, -⟩ := step_eq hs
  rw [hclock]
  cases hc : a.clock? with
  | none => exact Nat.le_refl _
  | some now => exact hle now hc

/-- A step of anything else, which leaves the room of the fetch there. -/
theorem Sound.other (h : s.Sound k t) (hi : s.Inv) (hs : s.step a = some s')
    (hk : s.server.fetches[k]? = some t) (hne : ∀ now, a ≠ .poll k now)
    (hkeep : t.room ∈ s.server.rooms.map → t.room ∈ s'.server.rooms.map) :
    ∃ t', s'.server.fetches[k]? = some t' ∧ t'.room = t.room ∧ t'.role = t.role ∧
      t'.seq = t.seq ∧ t'.deadline = t.deadline ∧ s'.Sound k t' := by
  obtain ⟨-, hserver, -, hpub, hlooks⟩ := step_eq hs
  obtain ⟨woken, hgrow, hsig⟩ := Server.step_effect hserver
  obtain ⟨t', hk', hsig⟩ := hsig k t hk hne
  refine ⟨t', hk', hsig.room, hsig.role, hsig.seq, hsig.deadline, ?_⟩
  have hlast : s'.lastLook k = s.lastLook k := lastLook_of_other _ hlooks (looked_of_other s hne)
  have hclock := clock_le hs
  have hmail : ∀ m, s.server.rooms.mailbox? t.room t.role = some m →
      ∃ m', s'.server.rooms.mailbox? t.room t.role = some m' ∧ m.Grows woken m' :=
    fun m hm => hgrow _ _ m hm (hkeep (Rooms.mem_of_mailbox? hm))
  have hret : ∀ f, t'.stage = .returned f → t.stage = .returned f :=
    fun f hf => (FetchTask.wake_returned woken t f).1 (hsig.stage.symm.trans hf)
  refine ⟨⟨?_, ?_, ?_, ?_⟩, ?_, ?_, ?_⟩
  · intro notify expires hst
    rw [hsig.room, hsig.role, hsig.seq]
    obtain ⟨hst, hno⟩ := FetchTask.wake_parked (hsig.stage.symm.trans hst)
    obtain ⟨m, hm, hn, hpeek⟩ := h.awake notify expires hst
    obtain ⟨m', hm', hg⟩ := hmail m hm
    -- a change of the mailbox would have woken the fetch
    cases hg with
    | same => exact ⟨m, hm', hn, hpeek⟩
    | appended _ hw => rw [hn] at hw; exact absurd hw hno
    | marked hw => rw [hn] at hw; exact absurd hw hno
  · intro blob hst
    rw [hsig.room, hsig.role, hsig.seq, hpub]
    have hmem := h.blob blob (hret _ hst)
    exact List.mem_filter.2 ⟨List.mem_append_left _ hmem,
      decide_eq_true (hkeep (hi.there _ hmem))⟩
  · intro hst
    rw [hsig.room, hsig.role, hsig.seq]
    obtain ⟨m, hm, hd, hlen⟩ := h.done (hret _ hst)
    obtain ⟨m', hm', hg⟩ := hmail m hm
    cases hg with
    | same => exact ⟨m, hm', hd, hlen⟩
    | appended hno _ => rw [hd] at hno; cases hno
    | marked _ => exact ⟨_, hm', rfl, hlen⟩
  · intro hst
    obtain ⟨hdl, hl⟩ := h.pending (hret _ hst)
    exact ⟨by rw [hsig.deadline]; exact Nat.le_trans hdl hclock, hlast.trans hl⟩
  · intro notify hn
    have hn : t.stage.notifier? = some notify := by
      obtain ⟨-, -, -, -, -, -, hw⟩ := t.wake_kept woken
      rw [← hw, ← hsig.stage]
      exact hn
    obtain ⟨⟨m, hm, hnot⟩, hl⟩ := h.notifier notify hn
    obtain ⟨m', hm', hg⟩ := hmail m hm
    refine ⟨⟨m', by rw [hsig.room, hsig.role]; exact hm', ?_⟩, hlast.trans hl⟩
    cases hg <;> exact hnot
  · intro notify remaining notified hst
    obtain ⟨notified', hst⟩ := wake_armed (hsig.stage.symm.trans hst)
    rw [hsig.deadline]
    exact Nat.le_trans (h.armed _ _ _ hst) (Nat.add_le_add_right hclock remaining)
  · intro notify expires notified hst
    obtain ⟨notified', hst⟩ := wake_parked_timer (hsig.stage.symm.trans hst)
    rw [hsig.deadline]
    exact h.parked _ _ _ hst

/-- A fetch that looks sees its mailbox, and goes on as that says. -/
theorem look_spec (rooms : Rooms) (now : Instant) (next : NotifyId → Stage) (t : FetchTask) :
    ∃ m, (t.look rooms now next).2.mailbox? t.room t.role = some m ∧
      (rooms.fetchNow now t.room t.role t.seq).1.1 = m.peek t.seq ∧
      (t.look rooms now next).1.stage =
        match m.peek t.seq with
        | .blob blob => .returned (.blob blob)
        | .done => .returned .done
        | .pending => next m.notify := by
  refine ⟨(rooms.entry now t.room).1.mailbox t.role, ?_, rfl, ?_⟩
  · have hm := rooms.mailbox?_entry now t.room t.role
    simp only [FetchTask.look]
    split <;> exact hm
  · simp only [FetchTask.look, Rooms.fetchNow]
    cases ((rooms.entry now t.room).1.mailbox t.role).peek t.seq <;> rfl

/-- A fetch that has just looked, and goes on to a stage that only a `Pending` look leads to. -/
theorem sound_look (next : NotifyId → Stage) (m : Mailbox) {t' : FetchTask} (hi : s'.Inv)
    (hm : s'.server.rooms.mailbox? t'.room t'.role = some m)
    (hl : s'.lastLook k = some (m.peek t'.seq))
    (hst : t'.stage =
      match m.peek t'.seq with
      | .blob blob => .returned (.blob blob)
      | .done => .returned .done
      | .pending => next m.notify)
    (hnext : (next m.notify).notifier? = some m.notify)
    (harmed : ∀ notify remaining notified, next m.notify ≠ .armed notify remaining notified)
    (hparked : ∀ notify expires notified, next m.notify = .parked notify expires notified →
      t'.deadline ≤ expires) :
    s'.Sound k t' := by
  cases hp : m.peek t'.seq with
  | blob b =>
    rw [hp] at hst
    refine ⟨⟨?_, fun blob hb => ?_, ?_, ?_⟩, ?_, ?_, ?_⟩
    case refine_2 =>
      rw [hst] at hb
      cases hb
      refine hi.recorded _ _ m hm _ _ ?_
      unfold Mailbox.peek at hp
      cases hblob : m.blobs[t'.seq]? with
      | some x => rw [hblob] at hp; cases hp; rfl
      | none => rw [hblob] at hp; cases hd : m.done <;> simp [hd] at hp
    all_goals rw [hst]; nofun
  | done =>
    rw [hp] at hst
    refine ⟨⟨?_, ?_, fun _ => ⟨m, hm, ?_⟩, ?_⟩, ?_, ?_, ?_⟩
    case refine_3 =>
      unfold Mailbox.peek at hp
      cases hblob : m.blobs[t'.seq]? with
      | some x => rw [hblob] at hp; cases hp
      | none =>
        rw [hblob] at hp
        cases hd : m.done with
        | true => exact ⟨rfl, List.getElem?_eq_none_iff.1 hblob⟩
        | false => simp [hd] at hp
    all_goals rw [hst]; nofun
  | pending =>
    rw [hp] at hst hl
    have hst : t'.stage = next m.notify := hst
    have hret : ∀ f, t'.stage ≠ .returned f := by
      intro f hf
      rw [hst] at hf
      rw [hf] at hnext
      cases hnext
    refine ⟨⟨fun notify expires hpk => ?_, fun _ hf => absurd hf (hret _),
      fun hf => absurd hf (hret _), fun hf => absurd hf (hret _)⟩, fun notify hn => ?_,
      fun notify remaining notified ha => ?_, fun notify expires notified hpk => ?_⟩
    · rw [hst] at hpk
      rw [hpk] at hnext
      cases hnext
      exact ⟨m, hm, rfl, hp⟩
    · rw [hst, hnext] at hn
      cases hn
      exact ⟨⟨m, hm, rfl⟩, hl⟩
    · exact absurd (hst.symm.trans ha) (harmed notify remaining notified)
    · exact hparked notify expires notified (hst.symm.trans hpk)

/-- A look leaves the call alone. -/
theorem look_call (rooms : Rooms) (now : Instant) (next : NotifyId → Stage) (t : FetchTask) :
    (t.look rooms now next).1.room = t.room ∧ (t.look rooms now next).1.role = t.role ∧
      (t.look rooms now next).1.seq = t.seq ∧ (t.look rooms now next).1.deadline = t.deadline := by
  simp only [FetchTask.look]
  split <;> exact ⟨rfl, rfl, rfl, rfl⟩

/-- The first look. -/
theorem sound_top {now : Instant} (hi : s'.Inv)
    (hrooms : s'.server.rooms = (t.look s.server.rooms now .peeked).2)
    (hlooks : s'.looks =
      s.looks ++ [(k, (s.server.rooms.fetchNow now t.room t.role t.seq).1.1)]) :
    s'.Sound k (t.look s.server.rooms now .peeked).1 := by
  obtain ⟨m, hm, hf, hst⟩ := look_spec s.server.rooms now .peeked t
  obtain ⟨hroom, hrole, hseq, -⟩ := look_call s.server.rooms now .peeked t
  rw [hf] at hlooks
  refine sound_look .peeked m hi ?_ ?_ ?_ rfl nofun nofun
  · rw [hrooms, hroom, hrole]; exact hm
  · rw [hseq]; exact lastLook_of_own hlooks
  · rw [hseq]; exact hst

/-- The second look. -/
theorem sound_armed {now : Instant} {notify : NotifyId} {remaining : Nat} {notified : Bool}
    (h : s.Sound k t) (hi : s'.Inv) (hst : t.stage = .armed notify remaining notified)
    (hle : s.clock ≤ now)
    (hrooms : s'.server.rooms = (t.recheck s.server.rooms now notify remaining notified).2)
    (hlooks : s'.looks =
      s.looks ++ [(k, (s.server.rooms.fetchNow now t.room t.role t.seq).1.1)]) :
    s'.Sound k (t.recheck s.server.rooms now notify remaining notified).1 := by
  -- the notifier is that of the mailbox
  obtain ⟨⟨m₀, hm₀, hn⟩, -⟩ := h.notifier notify (by rw [hst]; rfl)
  obtain ⟨m, hm, hf, hlook⟩ :=
    look_spec s.server.rooms now (fun _ => .parked notify (now + remaining) notified) t
  obtain ⟨hroom, hrole, hseq, hdl⟩ :=
    look_call s.server.rooms now (fun _ => .parked notify (now + remaining) notified) t
  have hsame : m₀ = m := by
    have hpoll : t.poll s.server.rooms now =
        some (t.recheck s.server.rooms now notify remaining notified) := by
      unfold FetchTask.poll
      rw [hst]
    exact Option.some.inj ((Server.poll_mailbox? hpoll hm₀).symm.trans hm)
  subst hsame
  subst hn
  rw [hf] at hlooks
  refine sound_look (fun n => .parked n (now + remaining) notified) m₀ hi ?_ ?_ ?_
    rfl nofun ?_
  · rw [hrooms]
    simp only [FetchTask.recheck, hroom, hrole]
    exact hm
  · simp only [FetchTask.recheck, hseq]
    exact lastLook_of_own hlooks
  · simp only [FetchTask.recheck, hseq]
    exact hlook
  · intro n expires notified' he
    cases he
    simp only [FetchTask.recheck, hdl]
    exact Nat.le_trans (h.armed _ _ _ hst) (Nat.add_le_add_right hle remaining)

/-- A fetch that is about to look misses nothing. -/
theorem sound_of_top (hst : t.stage = .top) : s.Sound k t := by
  refine ⟨⟨?_, ?_, ?_, ?_⟩, ?_, ?_, ?_⟩
  all_goals rw [hst]; nofun

/-- A fetch whose time is over, and which saw so at its last look, returns that its blob may still
come. -/
theorem sound_of_expired (hst : t.stage = .returned .pending) (hd : t.deadline ≤ s.clock)
    (hl : s.lastLook k = some .pending) : s.Sound k t := by
  refine ⟨⟨?_, ?_, ?_, fun _ => ⟨hd, hl⟩⟩, ?_, ?_, ?_⟩
  all_goals rw [hst]; nofun

/-- A fetch that sets its timer holds the notifier of its mailbox. -/
theorem sound_of_armed {notify : NotifyId} {remaining : Nat} {notified : Bool}
    (hst : t.stage = .armed notify remaining notified)
    (hm : ∃ m, s.server.rooms.mailbox? t.room t.role = some m ∧ m.notify = notify)
    (hl : s.lastLook k = some .pending) (hd : t.deadline ≤ s.clock + remaining) :
    s.Sound k t := by
  refine ⟨⟨?_, ?_, ?_, ?_⟩, ?_, ?_, ?_⟩
  all_goals rw [hst]
  case refine_5 =>
    intro n hn
    cases hn
    exact ⟨hm, hl⟩
  case refine_6 =>
    intro n r b ha
    cases ha
    exact hd
  all_goals nofun

/-- A step of the fetch itself. -/
theorem Sound.own {now : Instant} (h : s.Sound k t) (hi : s'.Inv)
    (hs : s.step (.poll k now) = some s') (hk : s.server.fetches[k]? = some t) :
    ∃ t', s'.server.fetches[k]? = some t' ∧ t'.room = t.room ∧ t'.role = t.role ∧
      t'.seq = t.seq ∧ t'.deadline = t.deadline ∧ s'.Sound k t' := by
  obtain ⟨hle, hserver, hclock, -, hlooks⟩ := step_eq hs
  have hle : s.clock ≤ now := hle now rfl
  have hclock : s'.clock = now := hclock
  simp only [Server.step, hk, Option.bind_some, Option.map_eq_some_iff] at hserver
  obtain ⟨p, hp, hserver⟩ := hserver
  have hrooms : s'.server.rooms = p.2 := by rw [← hserver]
  have hk' : s'.server.fetches[k]? = some p.1 := by
    rw [← hserver]
    exact List.getElem?_set_self (List.getElem?_eq_some_iff.1 hk).1
  refine ⟨p.1, hk', ?_⟩
  have hquiet : ∀ looks, s.looked (.poll k now) = looks → s'.looks = s.looks ++ looks := by
    intro looks hl
    rw [hlooks, hl]
  unfold FetchTask.poll at hp
  split at hp
  · next hst =>
    cases hp
    obtain ⟨hroom, hrole, hseq, hdl⟩ := look_call s.server.rooms now .peeked t
    refine ⟨hroom, hrole, hseq, hdl, sound_top hi hrooms (hquiet _ ?_)⟩
    simp only [looked, hk, hst]
  · next notify hst =>
    have hlast : s'.lastLook k = s.lastLook k :=
      lastLook_of_other [] (hquiet _ (by simp only [looked, hk, hst])) (List.forall_mem_nil _)
    obtain ⟨hmail, hl⟩ := h.notifier notify (by rw [hst]; rfl)
    split at hp
    · next hz =>
      cases hp
      refine ⟨rfl, rfl, rfl, rfl, sound_of_expired rfl ?_ (hlast.trans hl)⟩
      rw [hclock]
      exact Nat.sub_eq_zero_iff_le.1 hz
    · cases hp
      refine ⟨rfl, rfl, rfl, rfl, sound_of_armed rfl ?_ (hlast.trans hl) ?_⟩
      · rw [hrooms]
        exact hmail
      · rw [hclock]
        exact Nat.sub_le_iff_le_add'.1 (Nat.le_refl _)
  · next notify remaining notified hst =>
    cases hp
    obtain ⟨hroom, hrole, hseq, hdl⟩ :=
      look_call s.server.rooms now (fun _ => .parked notify (now + remaining) notified) t
    refine ⟨hroom, hrole, hseq, hdl, sound_armed h hi hst hle hrooms (hquiet _ ?_)⟩
    simp only [looked, hk, hst]
  · next notify expires notified hst =>
    have hlast : s'.lastLook k = s.lastLook k :=
      lastLook_of_other [] (hquiet _ (by simp only [looked, hk, hst])) (List.forall_mem_nil _)
    obtain ⟨-, hl⟩ := h.notifier notify (by rw [hst]; rfl)
    split at hp
    · cases hp
      exact ⟨rfl, rfl, rfl, rfl, sound_of_top rfl⟩
    · split at hp
      · next hexp =>
        cases hp
        refine ⟨rfl, rfl, rfl, rfl, sound_of_expired rfl ?_ (hlast.trans hl)⟩
        rw [hclock]
        exact Nat.le_trans (h.parked _ _ _ hst) hexp
      · cases hp
  · cases hp

end Watched

/-- A fetch that is called in any state of the server and whose room is not removed from then on,
whatever else is called meanwhile: it never waits unwoken while its blob is there or its mailbox is
done; a blob that it returns is the one published under its number; when it returns that the mailbox
is done, it is, with no more blobs than its number; and when it returns that the blob may still
come, its time is over, and it saw so at its last look. -/
theorem fetch_loses_no_wakeup (limits : Limits) {room : String} {role : Role} {seq wait : Nat}
    {now : Instant} {before after : List ServerAct} {s₀ s₁ s : Watched}
    (h₀ : Runs.run Watched.step (.start limits) before = some s₀)
    (h₁ : s₀.step (.fetch now room role seq wait) = some s₁)
    (h : Runs.run (Watched.stepKeeping room) s₁ after = some s) :
    ∃ t, s.server.fetches[s₀.server.fetches.length]? = some t ∧ t.room = room ∧ t.role = role ∧
      t.seq = seq ∧ t.deadline = now + wait ∧
      s.MissesNothing s₀.server.fetches.length t := by
  have hi₀ : s₀.Inv :=
    Runs.invariant (fun _ _ _ hi hs => Watched.Inv.step hi hs) (Watched.inv_start limits) h₀
  have hi₁ : s₁.Inv := hi₀.step h₁
  have hinv := Runs.invariant (I := fun s : Watched => s.Inv ∧ ∃ t,
      s.server.fetches[s₀.server.fetches.length]? = some t ∧ t.room = room ∧ t.role = role ∧
      t.seq = seq ∧ t.deadline = now + wait ∧ s.Sound s₀.server.fetches.length t) ?_ ?_ h
  · obtain ⟨-, t, hk, hroom, hrole, hseq, hdl, hsound⟩ := hinv
    exact ⟨t, hk, hroom, hrole, hseq, hdl, hsound.toMissesNothing⟩
  · rintro u a u' ⟨hi, t, hk, hroom, hrole, hseq, hdl, hsound⟩ hstep
    obtain ⟨hs, hkeep⟩ := Option.filter_eq_some_iff.1 hstep
    have hi' : u'.Inv := hi.step hs
    have hnext : ∃ t', u'.server.fetches[s₀.server.fetches.length]? = some t' ∧
        t'.room = t.room ∧ t'.role = t.role ∧ t'.seq = t.seq ∧ t'.deadline = t.deadline ∧
        u'.Sound s₀.server.fetches.length t' := by
      by_cases hown : ∃ now, a = .poll s₀.server.fetches.length now
      · obtain ⟨now', rfl⟩ := hown
        exact hsound.own hi' hs hk
      · refine hsound.other hi hs hk (fun now' he => hown ⟨now', he⟩) ?_
        rw [hroom]
        exact of_decide_eq_true hkeep
    obtain ⟨t', hk', hroom', hrole', hseq', hdl', hsound'⟩ := hnext
    exact ⟨hi', t', hk', hroom'.trans hroom, hrole'.trans hrole, hseq'.trans hseq,
      hdl'.trans hdl, hsound'⟩
  · refine ⟨hi₁, .new room role seq (now + wait), ?_, rfl, rfl, rfl, rfl, s₁.sound_new _ _ _ _ _⟩
    obtain ⟨-, hserver, -⟩ := Watched.step_eq h₁
    rw [← Option.some.inj hserver]
    exact List.getElem?_concat_length

/-- A fetch waits when its blob is published: it is woken, looks again and returns the blob. -/
theorem fetch_loses_no_wakeup_of_published :
    ∃ s₀ s₁ s, Runs.run Watched.step (.start ⟨300, 0, 0⟩)
        [.publish 0 "q" .answerer [1], .fetch 0 "q" .answerer 1 5] = some s₀ ∧
      s₀.step (.fetch 1 "r" .offerer 0 20) = some s₁ ∧
      Runs.run (Watched.stepKeeping "r") s₁
        [.poll 1 1, .poll 1 2, .poll 1 3, .publish 4 "r" .offerer [7], .delete "q", .poll 1 5,
          .poll 1 6] = some s ∧
      { room := "r", role := .offerer, seq := 0, blob := [7] } ∈ s.published := by
  have hrun : ∃ s₀ s₁ s, Runs.run Watched.step (.start ⟨300, 0, 0⟩)
        [.publish 0 "q" .answerer [1], .fetch 0 "q" .answerer 1 5] = some s₀ ∧
      s₀.step (.fetch 1 "r" .offerer 0 20) = some s₁ ∧
      Runs.run (Watched.stepKeeping "r") s₁
        [.poll 1 1, .poll 1 2, .poll 1 3, .publish 4 "r" .offerer [7], .delete "q", .poll 1 5,
          .poll 1 6] = some s ∧
      s₀.server.fetches.length = 1 ∧
      (s.server.fetches[1]?).map FetchTask.stage = some (.returned (.blob [7])) :=
    ⟨_, _, _, rfl, rfl, rfl, rfl, rfl⟩
  obtain ⟨s₀, s₁, s, h₀, h₁, h, hlen, hst⟩ := hrun
  obtain ⟨t, hk, hroom, hrole, hseq, -, hnone⟩ := fetch_loses_no_wakeup ⟨300, 0, 0⟩ h₀ h₁ h
  rw [hlen] at hk
  rw [hk] at hst
  have hmem := hnone.blob [7] (Option.some.inj hst)
  rw [hroom, hrole, hseq] at hmem
  exact ⟨s₀, s₁, s, h₀, h₁, h, hmem⟩

end WebrtcDatachannels.Signaling
