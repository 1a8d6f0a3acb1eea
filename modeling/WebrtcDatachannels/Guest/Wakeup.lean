import WebrtcDatachannels.Guest.Wake

/-!
# No lost wake-up

`Guest/Wake` says that a task that awaits the current version would still wait. Here is the other
half: a task that awaits an older one has been woken. `Conn.exec` adds to the steps of a connection
the polls that find `changed` still pending, with any answer of `will_wake` that recognises wakers
of the same task only. A parked task is registered until the next notification, which wakes it
(`StateWatch.Moves`), so in every run a task whose check would no longer wait has been woken since
the poll that parked it (`no_lost_wakeup`).
-/

namespace WebrtcDatachannels.Guest

/-- The shared state alone decides a pass of the task's loop: it does not wait. For `wait_connected`
this is a pass before the deadline. -/
def Task.Due (s : Shared) (now : Instant) : Task → Prop
  | .send h _ _ | .sendViaStream h _ _ => channelState s h.id ≠ .opening
  | .receive h _ => ∃ r, (Guest.receive s h.id).1 = .ret r
  | .pumpReceive id _ _ _ => ∀ seen, (pullNext s id).1 ≠ .wait seen
  | .pumpIncoming localChannel cursor _ _ =>
    (scanIncoming localChannel (s.channels.drop cursor) cursor).1 ≠ none ∨ s.dead = true
  | .waitConnected deadline _ => now < deadline ∧ ∃ r, Guest.waitConnected s deadline now = .ret r

/-- A task that waits is not due. -/
theorem Task.Waits.not_due {s : Shared} {t : Task} (h : t.Waits s) (now : Instant) :
    ¬ t.Due s now := by
  cases t with
  | send hd | sendViaStream hd =>
    obtain ⟨hc, hd'⟩ := h
    have hd'' : (s.closed || s.failed) = false := hd'
    simp [Due, channelState, hc, hd'']
  | receive hd =>
    rintro ⟨r, hr⟩
    unfold Guest.receive at hr
    cases hc : s.channel? hd.id with
    | some c =>
      obtain ⟨hs, hi, ho, hcl⟩ := h.1 c hc
      simp [hc, hs, ho, hcl, Shared.popChannel, Channel.pop, hi] at hr
    | none => simp [hc, h.2 hc] at hr
  | pumpReceive id =>
    intro hdue
    refine hdue s.watch.version ?_
    unfold Guest.pullNext
    cases hc : s.channel? id with
    | some c =>
      obtain ⟨hi, hcl⟩ := h.1 c hc
      simp [hcl, Shared.popChannel, Channel.pop, hi, hc]
    | none => simp [h.2 hc]
  | pumpIncoming localChannel cursor =>
    rintro (hs | hd)
    · exact hs h.1
    · rw [h.2] at hd; cases hd
  | waitConnected deadline =>
    rintro ⟨hlt, r, hr⟩
    obtain ⟨hc, hd⟩ := h
    rw [Shared.dead, Bool.or_eq_false_iff] at hd
    have hge : ¬ deadline ≤ now := Nat.not_le.2 hlt
    simp [Guest.waitConnected, hc, hd.1, hd.2, hge] at hr

/-! ## The executor -/

/-- A step of the connection, or a poll of a task whose `changed` is still pending; `known` when
`will_wake` recognises the task's waker among the registered ones. -/
inductive Turn where
  | act (a : Act)
  | pending (k : TaskId) (known : Bool)

/-- The executor polls task `k`. -/
def Turn.Polls (k : TaskId) : Turn → Prop
  | .act (.poll k' _ _) | .pending k' _ => k' = k
  | .act _ => False

/-- The pending arm of `Changed::poll`: the waker is registered unless one of the same task is
recognised. -/
def StateWatch.pend (w : StateWatch) (k : TaskId) (known : Bool) : StateWatch :=
  if known then w else { w with wakers := w.wakers ++ [k] }

/-- One turn of the executor. `will_wake` holds only for wakers of the same task. -/
def Conn.exec (limit : Nat) (c : Conn) : Turn → Option Conn
  | .act a => c.step limit a
  | .pending k known =>
    if (c.tasks[k]?).bind Task.awaited = some c.shared.watch.version ∧
        (known = true → k ∈ c.shared.watch.wakers) then
      some (c.setShared { c.shared with watch := c.shared.watch.pend k known })
    else none

/-- What a turn does to the watch: it notifies, or it leaves the version, what was woken and who is
registered. -/
def StateWatch.Moves (w w' : StateWatch) : Prop :=
  w' = w.notify ∨ w'.version = w.version ∧ w'.woken = w.woken ∧ ∀ k ∈ w.wakers, k ∈ w'.wakers

section
variable {w : StateWatch} {s : Shared} {limit : Nat}

theorem StateWatch.Moves.refl (w : StateWatch) : w.Moves w := .inr ⟨rfl, rfl, fun _ h => h⟩

theorem StateWatch.mem_register (w : StateWatch) (k : TaskId) : k ∈ (w.register k).wakers := by
  unfold register
  split
  · assumption
  · simp

theorem StateWatch.moves_register (w : StateWatch) (k : TaskId) : w.Moves (w.register k) := by
  unfold register
  split
  · exact .refl w
  · exact .inr ⟨rfl, rfl, fun _ h => List.mem_append_left _ h⟩

theorem StateWatch.moves_pend (w : StateWatch) (k : TaskId) (known : Bool) :
    w.Moves (w.pend k known) := by
  unfold pend
  split
  · exact .refl w
  · exact .inr ⟨rfl, rfl, fun _ h => List.mem_append_left _ h⟩

/-- No close is requested, and none performed, and the core has the same messages queued. -/
def Shared.SameCore (s s' : Shared) : Prop :=
  s'.closeRequested = s.closeRequested ∧ s'.peer.closes = s.peer.closes ∧
    s'.peer.reads = s.peer.reads

/-- What every pass leaves alone: the close and the core's queue, and the watch but for a
registration. -/
structure Frame (s s' : Shared) : Prop where
  core : s.SameCore s'
  moves : s.watch.Moves s'.watch

/-- A pass that decided to wait registers the task, and a pass that returned does not. -/
theorem Frame.park {ρ : Type} {s s' : Shared} (hc : s.SameCore s')
    (hw : s'.watch = s.watch) (k : TaskId) (v : Verdict ρ) : Frame s (s'.park k v) := by
  cases v with
  | ret => exact ⟨hc, by rw [Shared.park, hw]; exact .refl _⟩
  | wait => exact ⟨hc, by rw [← hw]; exact s'.watch.moves_register k⟩

theorem whenOpen_frame (id : RTCDataChannelId) (message : Message) (answer : Except String Unit) :
    s.SameCore (whenOpen s id (handOver id message answer)).2 ∧
      (whenOpen s id (handOver id message answer)).2.watch = s.watch := by
  unfold whenOpen
  split <;> exact ⟨⟨rfl, rfl, rfl⟩, rfl⟩

theorem receive_frame (id : RTCDataChannelId) :
    s.SameCore (Guest.receive s id).2 ∧ (Guest.receive s id).2.watch = s.watch := by
  rcases receive_cases s id with ⟨v, hv, -⟩ | ⟨c, m, -, -, -, hr⟩
  · rw [hv]; exact ⟨⟨rfl, rfl, rfl⟩, rfl⟩
  · rw [hr]; exact ⟨⟨rfl, rfl, rfl⟩, rfl⟩

theorem pullNext_frame (id : RTCDataChannelId) :
    s.SameCore (pullNext s id).2 ∧ (pullNext s id).2.watch = s.watch := by
  rcases pullNext_cases s id with ⟨v, hv, -⟩ | ⟨c, m, -, -, hr⟩
  · rw [hv]; exact ⟨⟨rfl, rfl, rfl⟩, rfl⟩
  · rw [hr]; exact ⟨⟨rfl, rfl, rfl⟩, rfl⟩

theorem moves_turn (limit : Nat) (s : Shared) : s.watch.Moves (s.turn limit).watch := by
  have hw : (s.drain.applyEvents limit s.drained).watch = s.watch := by
    rw [applyEvents_watch, s.drain_frame.2.2.2.2.1]
  unfold Shared.turn
  split
  · rw [hw]; exact .refl _
  · exact .inl (by rw [Shared.notify, hw])

end

/-- What a poll leaves alone. -/
theorem Task.poll_frame {s : Shared} {t : Task} {k : TaskId} {now : Instant}
    {answer : Except String Unit} {p : Polled} (h : t.poll s k now answer = some p) :
    Frame s p.shared := by
  unfold Task.poll at h
  split at h
  · next hd message seen =>
    obtain ⟨hc, hw⟩ := whenOpen_frame (s := s) hd.id message answer
    split at h
    · cases h; exact .park hc hw k _
    · cases h
  · next hd sent status message seen =>
    obtain ⟨hc, hw⟩ := whenOpen_frame (s := s) hd.id message answer
    split at h
    · cases h; exact .park hc hw k _
    · cases h
  · next hd seen =>
    obtain ⟨hc, hw⟩ := receive_frame (s := s) hd.id
    split at h
    · cases h; exact .park hc hw k _
    · cases h
  · next id before delivered seen =>
    obtain ⟨hc, hw⟩ := pullNext_frame (s := s) id
    split at h
    · simp only at h
      split at h
      · cases h; exact ⟨hc, by rw [hw]; exact .refl _⟩
      · cases h; exact ⟨hc, by rw [← hw]; exact StateWatch.moves_register _ k⟩
      · cases h; exact ⟨hc, by rw [hw]; exact .refl _⟩
    · cases h
  · split at h
    · simp only at h
      split at h
      · cases h; exact ⟨⟨rfl, rfl, rfl⟩, .refl _⟩
      · split at h
        · cases h; exact ⟨⟨rfl, rfl, rfl⟩, .refl _⟩
        · cases h; exact ⟨⟨rfl, rfl, rfl⟩, s.watch.moves_register k⟩
    · cases h
  · split at h
    · cases h; exact .park ⟨rfl, rfl, rfl⟩ rfl k _
    · cases h
  · cases h

namespace Conn

variable {limit : Nat} {c c' : Conn} {a : Act} {as : List Turn} {k : TaskId}

/-- What a step does to the watch. -/
theorem step_moves (h : c.step limit a = some c') : c.shared.watch.Moves c'.shared.watch := by
  cases a with
  | core | incomingDataChannels | waitConnected => cases h; exact .refl _
  | turn now =>
    simp only [step] at h
    split at h
    · cases h; exact moves_turn limit _
    · cases h
  | finish =>
    simp only [step] at h
    split at h
    · cases h; exact .inl rfl
    · cases h
  | createDataChannel label answer =>
    cases answer with
    | error e => cases h; exact .refl _
    | ok id =>
      simp only [step, createDataChannel] at h
      split at h
      · cases h; exact .refl _
      · cases h
  | close now =>
    cases h
    simp only [setShared, Shared.beginClose]
    split
    · exact .refl _
    · exact .inl rfl
  | send | sendViaStream | receive =>
    simp only [step] at h
    split at h
    · cases h; exact .refl _
    · cases h
  | receiveViaStream hd =>
    simp only [step] at h
    split at h
    · cases h
      unfold receiveViaStream
      rcases receiveViaStream_cases c.shared hd.id with ⟨e, hr⟩ | ⟨ch, -, -, -, hr⟩ | ⟨-, -, hr⟩
      · simp only [hr]; exact .refl _
      · simp only [hr]; exact .inl rfl
      · simp only [hr]; exact .refl _
    · cases h
  | poll k now answer =>
    simp only [step, Option.map_eq_some_iff, Option.bind_eq_some_iff] at h
    obtain ⟨p, ⟨t, -, hp⟩, rfl⟩ := h
    exact (t.poll_frame hp).moves
  | io k io =>
    simp only [step, Option.bind_eq_some_iff, Option.map_eq_some_iff] at h
    obtain ⟨t, -, t', -, rfl⟩ := h
    exact .refl _

/-- A task that awaits a change is there already before every step that does not poll it. -/
theorem step_parked {t : Task} {v : Nat} (h : c.step limit a = some c')
    (hq : ∀ now answer, a ≠ .poll k now answer) (hk : c'.tasks[k]? = some t)
    (ha : t.awaited = some v) : c.tasks[k]? = some t := by
  have hgrows : (∀ k now answer, a ≠ .poll k now answer) → (∀ k io, a ≠ .io k io) →
      c.tasks[k]? = some t := by
    intro hpoll hio
    obtain ⟨new, htasks, hnew, -⟩ := step_grows h hpoll hio
    rw [htasks, List.getElem?_append] at hk
    split at hk
    · exact hk
    · have hmem := List.mem_of_getElem? hk
      rw [(hnew t (Option.mem_toList.1 hmem)).awaited] at ha
      cases ha
  cases a with
  | poll k' now answer =>
    simp only [step, Option.map_eq_some_iff, Option.bind_eq_some_iff] at h
    obtain ⟨p, -, rfl⟩ := h
    have hne : k' ≠ k := fun he => hq now answer (he ▸ rfl)
    rwa [List.getElem?_set_ne hne] at hk
  | io k' io =>
    simp only [step, Option.bind_eq_some_iff, Option.map_eq_some_iff] at h
    obtain ⟨t₀, hk₀, t₁, hadv, rfl⟩ := h
    rw [List.getElem?_set] at hk
    split at hk
    · split at hk
      · cases hk
        rw [Task.advance_awaited hadv] at ha
        cases ha
      · cases hk
    · exact hk
  | core | turn | finish | createDataChannel | incomingDataChannels | close | send
  | sendViaStream | receive | receiveViaStream | waitConnected =>
    refine hgrows ?_ ?_
    · intro _ _ _ he
      cases he
    · intro _ _ he
      cases he

/-! ## Since the last poll -/

/-- Task `k` awaits a change of `seen`. -/
def Parked (c : Conn) (k : TaskId) (seen : Nat) : Prop :=
  ∃ t, c.tasks[k]? = some t ∧ t.awaited = some seen

/-- What has happened to a task parked on `seen` between a poll that ended in `c₁` and `c`: nothing,
and it is registered, or the version has moved on and it has been woken. -/
def Since (k : TaskId) (seen : Nat) (c₁ c : Conn) : Prop :=
  ∃ w, c.shared.watch.woken = c₁.shared.watch.woken ++ w ∧
    (seen = c.shared.watch.version ∧ k ∈ c.shared.watch.wakers ∨
      seen < c.shared.watch.version ∧ k ∈ w)

/-- A move of the watch keeps what has happened since the last poll. -/
theorem Since.moves {seen : Nat} {c₁ : Conn} (h : Since k seen c₁ c)
    (hm : c.shared.watch.Moves c'.shared.watch) : Since k seen c₁ c' := by
  obtain ⟨w, hw, hk⟩ := h
  rcases hm with he | ⟨hv, hwk, hreg⟩
  · refine ⟨w ++ c.shared.watch.wakers, by rw [he, StateWatch.notify, hw, List.append_assoc], ?_⟩
    rw [he, StateWatch.notify_version]
    refine .inr ⟨by omega, List.mem_append.2 ?_⟩
    exact hk.symm.imp And.right And.right
  · refine ⟨w, by rw [hwk, hw], ?_⟩
    rw [hv]
    exact hk.imp (fun h => ⟨h.1, hreg k h.2⟩) id

/-- A poll that leaves its task parked registers it. -/
theorem since_poll {seen : Nat} {x : Turn} (h : c.exec limit x = some c') (hq : x.Polls k)
    (hp : c'.Parked k seen) : Since k seen c' c' := by
  refine ⟨[], (List.append_nil _).symm, .inl ?_⟩
  obtain ⟨t, hk, ha⟩ := hp
  cases x with
  | act a =>
    cases a with
    | poll k' now answer =>
      cases (hq : k' = k)
      simp only [exec, step, Option.map_eq_some_iff, Option.bind_eq_some_iff] at h
      obtain ⟨p, ⟨t₀, hk₀, hpoll⟩, rfl⟩ := h
      have ht : p.task = t := by
        rw [List.getElem?_set_self (List.getElem?_eq_some_iff.1 hk₀).1] at hk
        exact Option.some.inj hk
      obtain ⟨hv, hs, -⟩ := Task.poll_parks hpoll (ht ▸ ha)
      simp only [hs, StateWatch.register_version]
      exact ⟨hv, StateWatch.mem_register _ k⟩
    | _ => exact hq.elim
  | pending k' known =>
    cases (hq : k' = k)
    simp only [exec] at h
    split at h
    · next hg =>
      cases h
      obtain ⟨hseen, hknown⟩ := hg
      have hk : c.tasks[k]? = some t := hk
      rw [hk, Option.bind_some, ha, Option.some.injEq] at hseen
      simp only [setShared, StateWatch.pend]
      split
      · next hkn => exact ⟨hseen, hknown hkn⟩
      · exact ⟨hseen, by simp⟩
    · cases h

/-- Another turn leaves a parked task as it was. -/
theorem since_other {seen : Nat} {x : Turn} (h : c.exec limit x = some c') (hq : ¬ x.Polls k)
    (hp : c'.Parked k seen) :
    c.Parked k seen ∧ ∀ c₁, Since k seen c₁ c → Since k seen c₁ c' := by
  obtain ⟨t, hk, ha⟩ := hp
  cases x with
  | act a =>
    have hk₀ := step_parked h (fun now answer he => hq (by rw [he]; rfl)) hk ha
    exact ⟨⟨t, hk₀, ha⟩, fun c₁ hj => hj.moves (step_moves h)⟩
  | pending k' known =>
    simp only [exec] at h
    split at h
    · cases h
      exact ⟨⟨t, hk, ha⟩, fun c₁ hj => hj.moves (StateWatch.moves_pend _ k' known)⟩
    · cases h

/-- A turn of the executor keeps what `Guest/Wake` says of every task that awaits a change. -/
theorem Awaits.exec {x : Turn} (hi : c.Awaits) (h : c.exec limit x = some c') : c'.Awaits := by
  cases x with
  | act a => exact hi.step h
  | pending k known =>
    simp only [Conn.exec] at h
    split at h
    · cases h
      intro t ht v hv
      obtain ⟨hle, hw⟩ := hi t ht v hv
      have hver : (c.shared.watch.pend k known).version = c.shared.watch.version := by
        unfold StateWatch.pend
        split <;> rfl
      simp only [setShared, hver]
      exact ⟨hle, fun he => (hw he).of_view (.register _ _)⟩
    · cases h

end Conn

/-- In every run of the executor, a parked task that is due awaits an old version, and it has been
woken since the poll that parked it. -/
theorem no_lost_wakeup {limit : Nat} {c c' : Conn} {as : List Turn} {k : TaskId} {t : Task}
    {seen : Nat} {now : Instant} (hs : c.Start) (h : Runs.run (Conn.exec limit) c as = some c')
    (hk : c'.tasks[k]? = some t) (ha : t.awaited = some seen) (hd : t.Due c'.shared now) :
    c'.shared.watch.version ≠ seen ∧
    ∃ pre x post c₁, as = pre ++ x :: post ∧ x.Polls k ∧ (∀ y ∈ post, ¬ y.Polls k) ∧
      Runs.run (Conn.exec limit) c (pre ++ [x]) = some c₁ ∧
      ∃ w, c'.shared.watch.woken = c₁.shared.watch.woken ++ w ∧ k ∈ w := by
  have hi : c'.Awaits := Runs.invariant (I := Conn.Awaits) (fun _ _ _ hi h => hi.exec h) hs.awaits h
  have hold : c'.shared.watch.version ≠ seen := fun he =>
    ((hi t (List.mem_of_getElem? hk) seen ha).2 he.symm).not_due now hd
  refine ⟨hold, ?_⟩
  have hstart : ¬ c.Parked k seen := by
    rcases hs with rfl | rfl <;> exact fun ⟨t, ht, _⟩ => nomatch ht
  obtain ⟨pre, x, post, c₁, has, hx, hpost, hrun, w, hw, hsince⟩ :=
    Runs.exists_last (Q := Turn.Polls k) (fun _ _ _ h hq => Conn.since_poll h hq)
      (fun _ _ _ h hq => Conn.since_other h hq) hstart h ⟨t, hk, ha⟩
  refine ⟨pre, x, post, c₁, has, hx, hpost, hrun, w, hw, ?_⟩
  rcases hsince with ⟨he, -⟩ | ⟨-, hmem⟩
  · exact absurd he.symm hold
  · exact hmem

/-- A `receive` parks on a channel that is still opening, is polled once more in vain, and the
connection is closed. -/
theorem no_lost_wakeup_of_close :
    ∃ c', Runs.run (Conn.exec 8) Conn.bound
        [.act (.createDataChannel "a" (.ok 0)), .act (.receive ⟨.pump, 0, "a"⟩),
          .act (.poll 0 0 (.ok ())), .pending 0 false, .act (.close 5)] = some c' ∧
      c'.shared.watch.version ≠ 0 := by
  refine ⟨_, rfl, ?_⟩
  have h := @no_lost_wakeup 8 .bound _
    [.act (.createDataChannel "a" (.ok 0)), .act (.receive ⟨.pump, 0, "a"⟩),
      .act (.poll 0 0 (.ok ())), .pending 0 false, .act (.close 5)] 0
    (.receive ⟨.pump, 0, "a"⟩ (.pending (some 0))) 0 0 (.inl rfl) rfl rfl rfl
  exact (h ⟨.error .closed, rfl⟩).1

end WebrtcDatachannels.Guest
