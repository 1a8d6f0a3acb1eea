import WebrtcDatachannels.Guest.Conn

/-!
# Waiting tasks

A task awaits `changed(seen)` with the version it read together with the state. `Task.Waits` says
what each task's check has to see for the task to wait. A step that leaves the version as it was
changes nothing the checks read, except that it may pop a message (`Effect.calm`), so every task
that awaits the current version would still wait (`Conn.Awaits.run`): no notification is missed.
-/

namespace WebrtcDatachannels.Guest

/-- The version a task awaits a change of. -/
def Task.awaited : Task → Option Nat
  | .send _ _ (.pending seen) => seen
  | .sendViaStream _ _ (.opening _ _ seen) => seen
  | .receive _ (.pending seen) => seen
  | .pumpReceive _ _ _ (.looping seen) => seen
  | .pumpIncoming _ _ _ (.looping seen) => seen
  | .waitConnected _ (.pending seen) => seen
  | _ => none

/-- The check of a task decides to wait. -/
def Task.Waits (s : Shared) : Task → Prop
  | .send h _ _ | .sendViaStream h _ _ => s.channel? h.id = none ∧ s.dead = false
  | .receive h _ =>
    (∀ c, s.channel? h.id = some c →
      c.streamClaimed = false ∧ c.inbox = [] ∧ c.overflowed = false ∧ c.closed = false) ∧
    (s.channel? h.id = none → s.dead = false)
  | .pumpReceive id _ _ _ =>
    (∀ c, s.channel? id = some c → c.inbox = [] ∧ c.closed = false) ∧
    (s.channel? id = none → s.dead = false)
  | .pumpIncoming localChannel cursor _ _ =>
    (scanIncoming localChannel (s.channels.drop cursor) cursor).1 = none ∧ s.dead = false
  | .waitConnected _ _ => s.connected = false ∧ s.dead = false

/-! ## Steps that do not notify -/

/-- The fields that the checks read. -/
structure SameView (s s' : Shared) : Prop where
  channels : s'.channels = s.channels
  connected : s'.connected = s.connected
  failed : s'.failed = s.failed
  closed : s'.closed = s.closed

section
variable {s s' : Shared}

theorem SameView.channel? (h : SameView s s') (id : RTCDataChannelId) :
    s'.channel? id = s.channel? id := by
  rw [Shared.channel?, Shared.channel?, h.channels]

theorem SameView.dead (h : SameView s s') : s'.dead = s.dead := by
  rw [Shared.dead, Shared.dead, h.closed, h.failed]

theorem SameView.drain (s : Shared) : SameView s s.drain :=
  ⟨s.drain_frame.1, s.drain_frame.2.1, s.drain_frame.2.2.1, s.drain_frame.2.2.2.1⟩

theorem applyEvents_watch (limit : Nat) (s : Shared) (es : List PeerEvent) :
    (s.applyEvents limit es).watch = s.watch := by
  induction es generalizing s with
  | nil => rfl
  | cons e es ih =>
    rw [Shared.applyEvents_cons, ih]
    cases e with
    | connected | failed | closed | channelClosed => rfl
    | channelOpen id label => simp only [Shared.applyEvent]; split <;> rfl
    | message id text data =>
      simp only [Shared.applyEvent]
      split
      · split
        · rfl
        · split <;> rfl
      · rfl

/-- A check that decides to wait does so in a state with the same view. -/
theorem Task.Waits.of_view {t : Task} (h : t.Waits s) (hv : SameView s s') : t.Waits s' := by
  cases t with
  | send | sendViaStream | receive | pumpReceive =>
    simpa only [Task.Waits, hv.channel?, hv.dead] using h
  | pumpIncoming => simpa only [Task.Waits, hv.channels, hv.dead] using h
  | waitConnected => simpa only [Task.Waits, hv.connected, hv.dead] using h

/-- The scan for incoming channels reads ids and labels only. -/
theorem scanIncoming_congr {l l' : List Channel} (localChannel : Option RTCDataChannelId)
    (h : l'.map (fun c => (c.id, c.label)) = l.map fun c => (c.id, c.label)) (cursor : Nat) :
    scanIncoming localChannel l' cursor = scanIncoming localChannel l cursor := by
  induction l generalizing l' cursor with
  | nil =>
    rw [List.map_nil, List.map_eq_nil_iff] at h
    rw [h]
  | cons c l ih =>
    cases l' with
    | nil => cases h
    | cons c' l' =>
      simp only [List.map_cons, List.cons.injEq, Prod.mk.injEq] at h
      obtain ⟨⟨hid, hlabel⟩, hrest⟩ := h
      rw [scanIncoming, scanIncoming, hid, hlabel, ih hrest]

/-- An update of one channel keeps the ids and labels. -/
theorem labels_modify {id : RTCDataChannelId} {f : Channel → Channel}
    (hf : ∀ c, ((f c).id, (f c).label) = (c.id, c.label)) (l : List Channel) :
    (Keyed.modify Channel.id id f l).map (fun c => (c.id, c.label)) =
      l.map fun c => (c.id, c.label) := by
  induction l with
  | nil => rfl
  | cons c l ih =>
    rw [Keyed.modify]
    split
    · simp [hf]
    · simp [ih]

theorem Channel.pop_label (c : Channel) : ((c.pop.2).id, (c.pop.2).label) = (c.id, c.label) := by
  unfold pop; split <;> rfl

/-- A check that decides to wait still does after a message was popped. -/
theorem Task.Waits.of_pop {t : Task} {id : RTCDataChannelId} {m : InboundMessage} {c : Channel}
    (h : t.Waits s) (hc : s.channel? id = some c) (hm : c.pop.1 = some m) :
    t.Waits (s.modifyChannel id fun c => c.pop.2) := by
  have hnone : ∀ id', (s.modifyChannel id fun c => c.pop.2).channel? id' = none ↔
      s.channel? id' = none := by
    intro id'
    by_cases hid : id' = id
    · subst hid
      rw [Shared.channel?_modifyChannel_self _ _ Channel.pop_id, Option.map_eq_none_iff]
    · rw [Shared.channel?_modifyChannel_ne _ Channel.pop_id hid]
  -- a channel with an empty inbox is not the one popped
  have hsome : ∀ id' c', (s.modifyChannel id fun c => c.pop.2).channel? id' = some c' →
      (∀ c, s.channel? id' = some c → c.inbox = []) → s.channel? id' = some c' := by
    intro id' c' hc' hempty
    by_cases hid : id' = id
    · subst hid
      rw [Channel.pop, hempty c hc] at hm
      cases hm
    · rwa [Shared.channel?_modifyChannel_ne _ Channel.pop_id hid] at hc'
  cases t with
  | send h' | sendViaStream h' => exact ⟨(hnone _).2 h.1, h.2⟩
  | receive h' =>
    refine ⟨fun c' hc' => h.1 c' (hsome _ c' hc' fun c hc => (h.1 c hc).2.1), ?_⟩
    intro hn
    exact h.2 ((hnone _).1 hn)
  | pumpReceive id' =>
    refine ⟨fun c' hc' => h.1 c' (hsome _ c' hc' fun c hc => (h.1 c hc).1), ?_⟩
    intro hn
    exact h.2 ((hnone _).1 hn)
  | pumpIncoming localChannel cursor =>
    refine ⟨?_, h.2⟩
    rw [← h.1]
    congr 1
    refine scanIncoming_congr _ ?_ _
    rw [Shared.modifyChannel, List.map_drop, labels_modify Channel.pop_label, List.map_drop]
  | waitConnected => exact h

end

/-- What an effect does to the version: it moves it on, or it leaves it and the view of the checks
as they were, except for a popped message. -/
theorem Effect.calm {limit : Nat} {pumps : Prop} {L L' : Ledger} (h : Effect limit pumps L L') :
    L.shared.watch.version < L'.shared.watch.version ∨
    (L'.shared.watch.version = L.shared.watch.version ∧
      (SameView L.shared L'.shared ∨ ∃ id m c, L.shared.channel? id = some c ∧
        c.pop.1 = some m ∧ L'.shared = L.shared.modifyChannel id fun c => c.pop.2)) := by
  cases h with
  | watch w hw => exact .inr ⟨hw, .inl ⟨rfl, rfl, rfl, rfl⟩⟩
  | peer p hp => exact .inr ⟨rfl, .inl ⟨rfl, rfl, rfl, rfl⟩⟩
  | sent id message answer => exact .inr ⟨rfl, .inl ⟨rfl, rfl, rfl, rfl⟩⟩
  | popped id m c hc hm => exact .inr ⟨rfl, .inr ⟨id, m, c, hc, hm, rfl⟩⟩
  | turn _ es hes =>
    simp only [Shared.turn]
    split
    · next he =>
      rw [List.isEmpty_iff.1 he]
      exact .inr ⟨by rw [Shared.applyEvents_nil, L.shared.drain_frame.2.2.2.2.1], .inl (.drain _)⟩
    · refine .inl ?_
      simp only [Shared.notify, StateWatch.notify_version, applyEvents_watch,
        L.shared.drain_frame.2.2.2.2.1]
      omega
  | finish => exact .inl (Nat.lt_succ_self _)
  | beginClose now =>
    simp only [Shared.beginClose]
    split
    · exact .inr ⟨rfl, .inl ⟨rfl, rfl, rfl, rfl⟩⟩
    · exact .inl (Nat.lt_succ_self _)
  | claim id c hc hs hcl => exact .inl (Nat.lt_succ_self _)

/-! ## Tasks that a step leaves waiting -/

/-- The task awaits at most the current version, and if it is the current one, its check would
still decide to wait. -/
def Task.Awaits (s : Shared) (t : Task) : Prop :=
  ∀ v, t.awaited = some v → v ≤ s.watch.version ∧ (v = s.watch.version → t.Waits s)

theorem Task.Awaits.of_none {s : Shared} {t : Task} (h : t.awaited = none) : t.Awaits s :=
  fun v hv => by rw [h] at hv; cases hv

/-- A task that was waiting is still waiting, or the version moved on. -/
theorem Task.Awaits.effect {limit : Nat} {pumps : Prop} {L L' : Ledger} {t : Task}
    (h : t.Awaits L.shared) (he : Effect limit pumps L L') : t.Awaits L'.shared := by
  intro v hv
  obtain ⟨hle, hw⟩ := h v hv
  rcases he.calm with hlt | ⟨heq, hview⟩
  · exact ⟨by omega, fun hv' => by omega⟩
  · refine ⟨by omega, fun hv' => ?_⟩
    have hwt := hw (by omega)
    rcases hview with hview | ⟨id, m, c, hc, hm, hs⟩
    · exact hwt.of_view hview
    · rw [hs]; exact hwt.of_pop hc hm

/-- A pass of `when_open` that decides to wait. -/
theorem whenOpen_wait {ρ : Type} {s : Shared} {id : RTCDataChannelId}
    {op : Shared → Except Error ρ × Shared} {v : Nat} (h : (whenOpen s id op).1 = .wait v) :
    v = s.watch.version ∧ (whenOpen s id op).2 = s ∧ s.channel? id = none ∧ s.dead = false := by
  unfold whenOpen at h ⊢
  unfold channelState at h ⊢
  cases hc : s.channel? id with
  | some c => cases hcl : c.closed <;> simp [hc, hcl] at h
  | none =>
    cases hd : (s.closed || s.failed) with
    | true => simp [hc, hd] at h
    | false =>
      simp [hc, hd] at h
      simp [h, Shared.dead, hd]

/-- A pass of `receive` that decides to wait. -/
theorem receive_wait {s : Shared} {h : DataChannel} (call : Call (Except Error Message)) {v : Nat}
    (hr : (receive s h.id).1 = .wait v) :
    v = s.watch.version ∧ (receive s h.id).2 = s ∧ (Task.receive h call).Waits s := by
  unfold receive at hr ⊢
  cases hc : s.channel? h.id with
  | some c =>
    cases hs : c.streamClaimed with
    | true => simp [hc, hs] at hr
    | false =>
      cases hi : c.inbox with
      | cons m rest => simp [hc, hs, Shared.popChannel, Channel.pop, hi] at hr
      | nil =>
        cases ho : c.overflowed with
        | true => simp [hc, hs, ho, Shared.popChannel, Channel.pop, hi] at hr
        | false =>
          cases hcl : c.closed with
          | true => simp [hc, hs, ho, hcl, Shared.popChannel, Channel.pop, hi] at hr
          | false =>
            simp [hc, hs, ho, hcl, Shared.popChannel, Channel.pop, hi] at hr
            simp [hr, hs, ho, hcl, Shared.popChannel, Channel.pop, hi, Task.Waits, hc]
  | none =>
    cases hd : s.dead with
    | true => simp [hc, hd] at hr
    | false =>
      simp [hc, hd] at hr
      simp [hr, Task.Waits, hc, hd]

/-- A pull of a feeder that decides to wait. -/
theorem pullNext_wait {s : Shared} {id : RTCDataChannelId} (before delivered : List InboundMessage)
    (feed : Feed InboundMessage) {v : Nat} (h : (pullNext s id).1 = .wait v) :
    v = s.watch.version ∧ (pullNext s id).2 = s ∧
      (Task.pumpReceive id before delivered feed).Waits s := by
  unfold pullNext at h ⊢
  cases hc : s.channel? id with
  | some c =>
    cases hi : c.inbox with
    | cons m rest => simp [hc, Shared.popChannel, Channel.pop, hi] at h
    | nil =>
      cases hcl : c.closed with
      | true => simp [hc, hcl, Shared.popChannel, Channel.pop, hi] at h
      | false =>
        simp [hc, hcl, Shared.popChannel, Channel.pop, hi] at h
        simp [h, hcl, Shared.popChannel, Channel.pop, hi, Task.Waits, hc]
  | none =>
    cases hd : s.dead with
    | true => simp [hc, hd] at h
    | false =>
      simp [hc, hd] at h
      simp [h, Task.Waits, hc, hd]

/-- A scan that finds nothing found nothing from its last cursor on either. -/
theorem scanIncoming_none {l : List Channel} {localChannel : Option RTCDataChannelId} {n : Nat}
    (h : (scanIncoming localChannel (l.drop n) n).1 = none) :
    (scanIncoming localChannel (l.drop (scanIncoming localChannel (l.drop n) n).2)
      (scanIncoming localChannel (l.drop n) n).2).1 = none := by
  rw [(scanIncoming_skips h).2, List.drop_eq_nil_of_le (by rw [List.length_drop]; omega)]
  rfl

/-- A pass of `wait_connected` that decides to wait. -/
theorem waitConnected_wait {s : Shared} {deadline now : Instant}
    (call : Call (Except Error Unit)) {v : Nat} (h : waitConnected s deadline now = .wait v) :
    v = s.watch.version ∧ (Task.waitConnected deadline call).Waits s := by
  unfold waitConnected at h
  cases hc : s.connected with
  | true => simp [hc] at h
  | false =>
    cases hf : s.failed with
    | true => simp [hc, hf] at h
    | false =>
      cases hcl : s.closed with
      | true => simp [hc, hf, hcl] at h
      | false =>
        simp only [hc, hf, hcl, Bool.false_eq_true, if_false, Bool.or_self] at h
        split at h
        · cases h
        · cases h
          exact ⟨rfl, hc, by rw [Shared.dead, hcl, hf]; rfl⟩

/-- A wait's waker registration leaves the checks as they were. -/
theorem SameView.register (s : Shared) (w : StateWatch) : SameView s { s with watch := w } :=
  ⟨rfl, rfl, rfl, rfl⟩

/-- A poll that leaves the task awaiting a change did nothing else: its check decided to wait, and
the task awaits the current version with its waker registered. -/
theorem Task.poll_parks {s : Shared} {t : Task} {k : TaskId} {now : Instant}
    {answer : Except String Unit} {p : Polled} {v : Nat} (h : t.poll s k now answer = some p)
    (ha : p.task.awaited = some v) :
    v = s.watch.version ∧ p.shared = { s with watch := s.watch.register k } ∧ p.task.Waits s := by
  unfold Task.poll at h
  split at h
  · next hd message seen =>
    split at h
    · cases h
      cases hv : (whenOpen s hd.id (handOver hd.id message answer)).1 with
      | ret r => simp [hv, Verdict.call, awaited] at ha
      | wait w =>
        obtain ⟨hw, hs, hn⟩ := whenOpen_wait hv
        simp only [hv, Verdict.call, awaited, Option.some.injEq] at ha
        exact ⟨ha ▸ hw, by rw [hs]; rfl, hn⟩
    · cases h
  · next hd sent status message seen =>
    split at h
    · cases h
      cases hv : (whenOpen s hd.id (handOver hd.id message answer)).1 with
      | ret r =>
        cases r with
        | error e => simp [hv, SendStream.after, awaited] at ha
        | ok u => cases he : status.ended <;> simp [hv, SendStream.after, he, awaited] at ha
      | wait w =>
        obtain ⟨hw, hs, hn⟩ := whenOpen_wait hv
        simp only [hv, SendStream.after, awaited, Option.some.injEq] at ha
        exact ⟨ha ▸ hw, by rw [hs]; rfl, hn⟩
    · cases h
  · next hd seen =>
    split at h
    · cases h
      cases hv : (Guest.receive s hd.id).1 with
      | ret r => simp [hv, Verdict.call, awaited] at ha
      | wait w =>
        obtain ⟨hw, hs, hn⟩ := receive_wait (.pending (some w)) hv
        simp only [hv, Verdict.call, awaited, Option.some.injEq] at ha
        exact ⟨ha ▸ hw, by rw [hs]; rfl, hn⟩
    · cases h
  · next id before delivered seen =>
    split at h
    · simp only at h
      split at h
      · cases h; cases ha
      · next w hv =>
        obtain ⟨hw, hs, hn⟩ := pullNext_wait before delivered (.looping (some w)) hv
        cases h
        cases ha
        exact ⟨hw, by rw [hs], hn⟩
      · cases h; cases ha
    · cases h
  · next localChannel cursor yielded seen =>
    split at h
    · simp only at h
      split at h
      · cases h; cases ha
      · next hf =>
        split at h
        · cases h; cases ha
        · next hd =>
          cases h
          cases ha
          exact ⟨rfl, rfl, scanIncoming_none hf, eq_false_of_ne_true hd⟩
    · cases h
  · next deadline seen =>
    split at h
    · cases h
      cases hv : Guest.waitConnected s deadline now with
      | ret r => simp [hv, Verdict.call, awaited] at ha
      | wait w =>
        obtain ⟨hw, hn⟩ := waitConnected_wait (.pending (some w)) hv
        simp only [hv, Verdict.call, awaited, Option.some.injEq] at ha
        exact ⟨ha ▸ hw, rfl, hn⟩
    · cases h
  · cases h

/-- A task that a poll leaves awaiting a change awaits the current version, and would still wait. -/
theorem Task.poll_awaits {s : Shared} {t : Task} {k : TaskId} {now : Instant}
    {answer : Except String Unit} {p : Polled} (h : t.poll s k now answer = some p) :
    p.task.Awaits p.shared := by
  intro v hv
  obtain ⟨rfl, hs, hw⟩ := Task.poll_parks h hv
  rw [hs]
  simp only [StateWatch.register_version]
  exact ⟨Nat.le_refl _, fun _ => hw.of_view (.register s _)⟩

/-- No stream operation leaves a task awaiting a change. -/
theorem Task.advance_awaited {t t' : Task} {io : Io} (h : t.advance io = some t') :
    t'.awaited = none := by
  unfold Task.advance at h
  split at h
  · next status => cases h; cases he : status.ended <;> simp [awaited]
  · cases h; rfl
  · split at h
    · split at h <;> cases h <;> rfl
    · cases h
  all_goals first | (cases h; rfl) | cases h

namespace Conn

variable {limit : Nat} {c c' : Conn} {a : Act} {as : List Act}

/-- A task that a step starts awaits nothing. -/
theorem Spawned.awaited {t : Task} (h : Spawned c a c' t) : t.awaited = none := by
  cases t with
  | sendViaStream => rw [h.2]; rfl
  | pumpReceive => rw [h.2.2.1]; rfl
  | pumpIncoming => rw [h.2.2.2.1]; rfl
  | send | receive | waitConnected => cases h; rfl

/-- A task after a step: one from before it, one that awaits nothing, or the polled one. -/
theorem mem_tasks_step (h : c.step limit a = some c') {t : Task} (ht : t ∈ c'.tasks) :
    t ∈ c.tasks ∨ t.Awaits c'.shared := by
  obtain ⟨k, hk⟩ := List.mem_iff_getElem?.1 ht
  cases step_task h hk with
  | kept hk | other _ _ _ _ _ hk => exact .inl (List.mem_of_getElem? hk)
  | spawned _ h₀ => exact .inr (.of_none h₀.awaited)
  | polled t₀ now answer p hk hp ht hl =>
    rw [shared, hl, ← ht]
    exact .inr (Task.poll_awaits hp)
  | advanced t₀ io hk hadv => exact .inr (.of_none (Task.advance_awaited hadv))

/-- Every task that awaits the current version would still wait. -/
def Awaits (c : Conn) : Prop := ∀ t ∈ c.tasks, t.Awaits c.shared

theorem Start.awaits (h : c.Start) : c.Awaits := by
  rcases h with rfl | rfl <;> exact fun t ht => nomatch ht

/-- A step keeps it. -/
theorem Awaits.step (hi : c.Awaits) (h : c.step limit a = some c') : c'.Awaits := by
  intro t ht
  rcases mem_tasks_step h ht with hm | ha
  · exact (hi t hm).effect (step_effect h)
  · exact ha

/-- No notification is missed in any run. -/
theorem Awaits.run (hs : c.Start) (h : Runs.run (Conn.step limit) c as = some c') : c'.Awaits :=
  Runs.invariant (I := Awaits) (fun _ _ _ hi h => hi.step h) hs.awaits h

end Conn

end WebrtcDatachannels.Guest
