import WebrtcDatachannels.Signaling.Isolation

/-!
# Idle rooms are evicted, and only they

`Rooms::evict_expired` beside any other requests, with a clock. A request reads the time and then
waits for the lock, so the time that it leaves in a room may be older than that which is there;
`lag` bounds that wait, and `period` the time between two sweeps, which the task of `spawn` makes.
`Timed` keeps the requests that used a room. No room outlives its last use by more than the TTL, a
period and a lag, so the rooms that are there are at most the uses in that time; and a room is
removed by its own `delete`, or by a sweep that finds its last use more than the TTL ago
(`idle_rooms_evicted`).
-/

namespace WebrtcDatachannels.Signaling

/-- The time that a step reads. -/
def ServerAct.now? : ServerAct → Option Instant
  | .publish now .. | .markDone now .. | .evictExpired now | .fetch now .. | .poll _ now => some now
  | .delete _ => none

/-- The step is a sweep. -/
def ServerAct.isSweep : ServerAct → Bool
  | .evictExpired _ => true
  | _ => false

/-- The room that a step uses, and the time that it reads. -/
def Server.uses (s : Server) : ServerAct → Option (String × Instant)
  | .publish now room _ _ | .markDone now room _ => some (room, now)
  | .poll k now =>
    (s.fetches[k]?).bind fun t => if t.stage.looks then some (t.room, now) else none
  | _ => none

/-- A server with the clock, the time of the last sweep, and the uses of its rooms, oldest first. -/
structure Timed where
  server : Server
  clock : Instant
  swept : Instant
  used : List (String × Instant)

namespace Timed

/-- A server with no room, which sweeps when it starts. -/
def start (limits : Limits) : Timed :=
  { server := .start limits, clock := 0, swept := 0, used := [] }

/-- A step that takes the lock at a time. The clock does not go back, the next sweep is on time, and
the step has waited no longer than `lag` since it read the time. -/
def step (period lag : Nat) (s : Timed) (a : Instant × ServerAct) : Option Timed :=
  if s.clock ≤ a.1 ∧ a.1 ≤ s.swept + period ∧
      a.2.now?.all (fun now => now ≤ a.1 && a.1 ≤ now + lag) = true then
    (s.server.step a.2).map fun server =>
      { server
        clock := a.1
        swept := if a.2.isSweep then a.1 else s.swept
        used := s.used ++ (s.server.uses a.2).toList }
  else none

/-- The time of the last use of a room. -/
def lastUse (s : Timed) (room : String) : Option Instant :=
  ((s.used.filter (·.1 = room)).map (·.2)).getLast?

/-- The uses of rooms within this time. -/
def recent (s : Timed) (age : Nat) : List (String × Instant) :=
  s.used.filter fun use => s.clock ≤ use.2 + age

end Timed

/-! ## The uses of one room -/

/-- The time that a step leaves in the room, if it uses it. -/
def RoomState.touches (s : RoomState) : RoomAct → Option Instant
  | .publish _ now _ _ | .markDone now _ => some now
  | .poll k now =>
    (s.fetches[k]?).bind fun t =>
      match t.stage with
      | .top | .armed .. => some now
      | _ => none
  | _ => none

/-- A room that is there after a step was used by it, or was there with the same last use; and after
a sweep its last use is within the TTL. -/
theorem RoomState.step_touches {limits : Limits} {s s' : RoomState} {a : RoomAct} {r' : OpenRoom}
    (hs : s.step limits a = some s') (hr : s'.room = some r') :
    (s.touches a = some r'.lastTouched ∨
      s.touches a = none ∧ ∃ r, s.room = some r ∧ r.lastTouched = r'.lastTouched) ∧
    ∀ now, a = .sweep now → now ≤ r'.lastTouched + limits.roomTtl := by
  cases a with
  | publish full now role blob =>
    refine ⟨.inl ?_, fun now he => by cases he⟩
    simp only [RoomState.step] at hs
    split at hs
    · next hfull =>
      cases hs
      simp [hr] at hfull
    · split at hs
      · cases hs; cases hr; rfl
      · split at hs <;> cases hs <;> cases hr <;> rfl
  | markDone now role =>
    cases hs
    cases hr
    exact ⟨.inl rfl, fun now he => by cases he⟩
  | delete => cases hs; cases hr
  | sweep now =>
    simp only [RoomState.step] at hs
    split at hs
    · cases hs; cases hr
    · next hno =>
      cases hs
      refine ⟨.inr ⟨rfl, r', hr, rfl⟩, ?_⟩
      rintro _ ⟨⟩
      simp only [hr, Option.any_some, decide_eq_true_eq, gt_iff_lt, Nat.not_lt] at hno
      exact Nat.sub_le_iff_le_add'.1 hno
  | fetch now role seq wait =>
    cases hs
    exact ⟨.inr ⟨rfl, r', hr, rfl⟩, fun now he => by cases he⟩
  | poll k now =>
    refine ⟨?_, fun now he => by cases he⟩
    simp only [RoomState.step, Option.map_eq_some_iff, Option.bind_eq_some_iff] at hs
    obtain ⟨p, ⟨t, hk, hp⟩, rfl⟩ := hs
    have hr : p.2 = some r' := hr
    simp only [touches, hk, Option.bind_some]
    unfold RoomState.poll at hp
    cases hst : t.stage with
    | top | armed =>
      simp only [hst, Option.some.injEq] at hp
      subst hp
      cases hr
      exact .inl rfl
    | peeked =>
      simp only [hst] at hp
      refine .inr ⟨rfl, r', ?_, rfl⟩
      split at hp <;> cases hp <;> exact hr
    | parked =>
      simp only [hst] at hp
      refine .inr ⟨rfl, r', ?_, rfl⟩
      split at hp
      · cases hp; exact hr
      · split at hp <;> cases hp; exact hr
    | returned => simp only [hst] at hp; cases hp

/-- A room that is there goes only by its own delete, or by a sweep that finds its last use more
than the TTL ago. -/
theorem RoomState.step_removes {limits : Limits} {s s' : RoomState} {a : RoomAct} {r : OpenRoom}
    (hs : s.step limits a = some s') (hr : s.room = some r) (hgone : s'.room = none) :
    a = .delete ∨ ∃ now, a = .sweep now ∧ r.lastTouched + limits.roomTtl < now := by
  cases a with
  | publish full now role blob =>
    simp only [RoomState.step, hr, Option.isNone_some, Bool.false_and, Bool.false_eq_true,
      if_false] at hs
    split at hs
    · cases hs; cases hgone
    · split at hs <;> cases hs <;> cases hgone
  | markDone now role => cases hs; cases hgone
  | delete => exact .inl rfl
  | sweep now =>
    simp only [RoomState.step, hr, Option.any_some, decide_eq_true_eq, gt_iff_lt] at hs
    split at hs
    · next hlt => exact .inr ⟨now, rfl, Nat.lt_sub_iff_add_lt'.1 hlt⟩
    · cases hs
      rw [hr] at hgone
      cases hgone
  | fetch now role seq wait =>
    cases hs
    have hgone : s.room = none := hgone
    rw [hr] at hgone
    cases hgone
  | poll k now =>
    simp only [RoomState.step, Option.map_eq_some_iff, Option.bind_eq_some_iff] at hs
    obtain ⟨p, ⟨t, -, hp⟩, rfl⟩ := hs
    have hgone : p.2 = none := hgone
    unfold RoomState.poll at hp
    cases hst : t.stage with
    | top | armed => simp only [hst, Option.some.injEq] at hp; subst hp; cases hgone
    | peeked =>
      simp only [hst, hr] at hp
      split at hp <;> cases hp <;> cases hgone
    | parked =>
      simp only [hst, hr] at hp
      split at hp
      · cases hp; cases hgone
      · split at hp <;> cases hp; cases hgone
    | returned => simp only [hst] at hp; cases hp

/-- What a step of the server leaves in a room is the use of that room. -/
theorem Server.touches_request (s : Server) (room : String) (a : ServerAct) :
    (s.request room a).bind (s.room room).touches =
      (s.uses a).bind fun use => if use.1 = room then some use.2 else none := by
  cases a with
  | publish now key role blob | markDone now key role =>
    simp only [request, uses, Option.bind_some]
    split <;> rfl
  | delete key =>
    simp only [request, uses, Option.bind_none]
    split <;> rfl
  | evictExpired now => rfl
  | fetch now key role seq wait =>
    simp only [request, uses, Option.bind_none]
    split <;> rfl
  | poll k now =>
    simp only [request, uses]
    cases hk : s.fetches[k]? with
    | none => rfl
    | some t =>
      simp only [Option.any_some, decide_eq_true_eq, Option.bind_some]
      by_cases he : t.room = room
      · subst he
        have hseen := s.room_fetch hk
        simp only [if_true, Option.bind_some, RoomState.touches, hseen, FetchTask.seen]
        cases t.stage <;> simp [Stage.seen, Stage.looks]
      · rw [if_neg he]
        cases t.stage <;> simp [Stage.looks, he]

/-! ## Rooms and their last uses -/

namespace Timed

section
variable {limits : Limits} {period lag : Nat} {s s' : Timed} {a : Instant × ServerAct}
  {room : String}

/-- What every run keeps: the sweeps are on time, and each room that is there was used since the
last one, or found fresh by it. -/
structure Inv (limits : Limits) (period lag : Nat) (s : Timed) : Prop where
  named : s.server.Named
  limited : s.server.rooms.limits = limits
  swept : s.swept ≤ s.clock
  onTime : s.clock ≤ s.swept + period
  used : ∀ room r, s.server.rooms.map.lookup room = some r →
    s.lastUse room = some r.lastTouched ∧ s.swept ≤ r.lastTouched + (limits.roomTtl + lag)

theorem inv_start (limits : Limits) (period lag : Nat) : (start limits).Inv limits period lag where
  named := Server.named_start limits
  limited := rfl
  swept := Nat.le_refl 0
  onTime := Nat.zero_le _
  used _ _ hr := by cases hr

theorem step_eq (hs : s.step period lag a = some s') :
    s.server.step a.2 = some s'.server ∧ s.clock ≤ a.1 ∧ a.1 ≤ s.swept + period ∧
      (∀ now, a.2.now? = some now → now ≤ a.1 ∧ a.1 ≤ now + lag) ∧ s'.clock = a.1 ∧
      s'.swept = (if a.2.isSweep then a.1 else s.swept) ∧
      s'.used = s.used ++ (s.server.uses a.2).toList := by
  simp only [step, Option.ite_none_right_eq_some, Option.map_eq_some_iff] at hs
  obtain ⟨⟨hclock, hperiod, hnow⟩, server, hserver, rfl⟩ := hs
  refine ⟨hserver, hclock, hperiod, fun now hn => ?_, rfl, rfl, rfl⟩
  simpa [hn] using hnow

/-- The last use of a room after a step. -/
theorem lastUse_step (hs : s.step period lag a = some s') (room : String) :
    s'.lastUse room =
      match (s.server.request room a.2).bind (s.server.room room).touches with
      | some now => some now
      | none => s.lastUse room := by
  obtain ⟨-, -, -, -, -, -, hused⟩ := step_eq hs
  rw [Server.touches_request]
  simp only [lastUse, hused, List.filter_append, List.map_append]
  cases s.server.uses a.2 with
  | none => simp
  | some use =>
    simp only [Option.bind_some, Option.toList_some, List.filter_cons, List.filter_nil,
      decide_eq_true_eq]
    by_cases he : use.1 = room <;> simp [he]

/-- The step that a room sees. -/
theorem Inv.room_step (h : s.Inv limits period lag) (hs : s.step period lag a = some s')
    (room : String) :
    s'.server.Named ∧
      ((s.server.request room a.2 = none ∧ s'.server.room room = s.server.room room) ∨
        ∃ b, s.server.request room a.2 = some b ∧
          (s.server.room room).step limits b = some (s'.server.room room)) := by
  obtain ⟨hnamed, hrun⟩ := h.named.step h.limited (step_eq hs).1 room
  refine ⟨hnamed, ?_⟩
  cases hb : s.server.request room a.2 with
  | none =>
    rw [hb] at hrun
    exact .inl ⟨rfl, (Option.some.inj hrun).symm⟩
  | some b =>
    rw [hb] at hrun
    obtain ⟨q, hq, hnil⟩ := Runs.run_cons_eq_some.1 hrun
    cases hnil
    exact .inr ⟨b, rfl, hq⟩

theorem Inv.step (h : s.Inv limits period lag) (hs : s.step period lag a = some s') :
    s'.Inv limits period lag := by
  obtain ⟨hserver, hclock, hperiod, hnow, hclock', hswept', -⟩ := step_eq hs
  refine ⟨(h.room_step hs "").1, (Server.step_limits hserver).trans h.limited, ?_, ?_, ?_⟩
  · rw [hswept', hclock']
    split
    · exact Nat.le_refl _
    · exact Nat.le_trans h.swept hclock
  · rw [hswept', hclock']
    split
    · exact Nat.le_add_right _ _
    · exact hperiod
  · intro room r' hr'
    have hseen' : (s'.server.room room).room = some r'.seen := by
      simp only [Server.room, hr', Option.map_some]
    rw [lastUse_step hs, hswept']
    -- a room that the step does not use was there
    have hold : ∀ r : OpenRoom, (s.server.room room).room = some r →
        r.lastTouched = r'.lastTouched →
        s.lastUse room = some r'.lastTouched ∧
          s.swept ≤ r'.lastTouched + (limits.roomTtl + lag) := by
      intro r hr heq
      obtain ⟨r₀, hr₀, rfl⟩ := Option.map_eq_some_iff.1 hr
      rw [← heq]
      exact h.used room r₀ hr₀
    obtain ⟨hnone, hsame⟩ | ⟨b, hb, hstep⟩ := (h.room_step hs room).2
    · have hsweep : a.2.isSweep = false := by
        cases ha : a.2 with
        | evictExpired => rw [ha] at hnone; cases hnone
        | publish | markDone | delete | fetch | poll => rfl
      rw [hnone, hsweep]
      rw [hsame] at hseen'
      exact hold _ hseen' rfl
    · obtain ⟨htouch, hfresh⟩ := RoomState.step_touches hstep hseen'
      simp only [hb, Option.bind_some]
      by_cases hsweep : a.2.isSweep = true
      · obtain ⟨now, ha⟩ : ∃ now, a.2 = .evictExpired now := by
          cases ha : a.2 with
          | evictExpired now => exact ⟨now, rfl⟩
          | publish | markDone | delete | fetch | poll => rw [ha] at hsweep; cases hsweep
        rw [ha] at hb
        cases hb
        obtain ⟨-, hlag⟩ := hnow now (by rw [ha]; rfl)
        have hle : now ≤ r'.lastTouched + limits.roomTtl := hfresh now rfl
        obtain hno | ⟨-, r, hr, heq⟩ := htouch
        · cases hno
        · rw [if_pos hsweep]
          refine ⟨(hold r hr heq).1, ?_⟩
          rw [← Nat.add_assoc]
          exact Nat.le_trans hlag (Nat.add_le_add_right hle lag)
      · rw [if_neg hsweep]
        obtain hnew | ⟨hno, r, hr, heq⟩ := htouch
        · rw [hnew]
          refine ⟨rfl, ?_⟩
          have hread : a.2.now? = some r'.seen.lastTouched := by
            have huse := s.server.touches_request room a.2
            rw [hb, Option.bind_some, hnew] at huse
            obtain ⟨use, huse, hroom⟩ := Option.bind_eq_some_iff.1 huse.symm
            obtain ⟨-, hlast⟩ := Option.ite_none_right_eq_some.1 hroom
            rw [← Option.some.inj hlast]
            cases ha : a.2 with
            | publish | markDone => rw [ha] at huse; cases huse; rfl
            | poll k now =>
              rw [ha] at huse
              obtain ⟨t, -, ht⟩ := Option.bind_eq_some_iff.1 huse
              obtain ⟨-, ht⟩ := Option.ite_none_right_eq_some.1 ht
              cases ht
              rfl
            | delete | evictExpired | fetch => rw [ha] at huse; cases huse
          obtain ⟨-, hlag⟩ := hnow _ hread
          exact Nat.le_trans h.swept (Nat.le_trans hclock (Nat.le_trans hlag
            (Nat.add_le_add_left (Nat.le_add_left _ _) _)))
        · rw [hno]
          exact hold r hr heq

/-- How long ago a room that is there was used. -/
theorem Inv.age (h : s.Inv limits period lag) {r : Room}
    (hr : s.server.rooms.map.lookup room = some r) :
    s.clock ≤ r.lastTouched + (limits.roomTtl + period + lag) :=
  calc s.clock ≤ s.swept + period := h.onTime
    _ ≤ r.lastTouched + (limits.roomTtl + lag) + period :=
      Nat.add_le_add_right (h.used room r hr).2 period
    _ = r.lastTouched + (limits.roomTtl + period + lag) := by
      rw [Nat.add_assoc, Nat.add_right_comm limits.roomTtl lag period]

/-- The rooms that are there have been used within the time that a room can outlive its use. -/
theorem Inv.roomCount_le (h : s.Inv limits period lag) :
    s.server.rooms.roomCount ≤ (s.recent (limits.roomTtl + period + lag)).length := by
  have hsub : s.server.rooms.map.keys ⊆
      (s.recent (limits.roomTtl + period + lag)).map (·.1) := by
    intro room hroom
    obtain ⟨r, hr⟩ := Rooms.mem_iff_lookup.1 (AList.mem_keys.2 hroom)
    obtain ⟨hlast, -⟩ := h.used room r hr
    have hmem := List.mem_of_getLast? hlast
    obtain ⟨use, huse, htime⟩ := List.mem_map.1 hmem
    obtain ⟨huse, hname⟩ := List.mem_filter.1 huse
    refine List.mem_map.2 ⟨use, List.mem_filter.2 ⟨huse, ?_⟩, of_decide_eq_true hname⟩
    rw [decide_eq_true_eq, htime]
    exact h.age hr
  rw [← List.length_map (·.1)]
  exact (List.subperm_of_subset s.server.rooms.map.keys_nodup hsub).length_le

end

end Timed

/-- A server that sweeps on time, over any requests, in any order: a room that is there was used no
longer ago than the TTL, a period and the lag of a request, and holds the time of that use; so there
are no more rooms than uses in that time; and a room goes only by its own delete, or by a sweep that
finds its last use more than the TTL ago. -/
theorem idle_rooms_evicted (limits : Limits) (period lag : Nat) {as : List (Instant × ServerAct)}
    {s : Timed} (h : Runs.run (Timed.step period lag) (.start limits) as = some s) :
    (∀ room r, s.server.rooms.map.lookup room = some r →
      s.lastUse room = some r.lastTouched ∧
        s.clock ≤ r.lastTouched + (limits.roomTtl + period + lag)) ∧
    s.server.rooms.roomCount ≤ (s.recent (limits.roomTtl + period + lag)).length ∧
    ∀ a s' room, s.step period lag a = some s' → room ∈ s.server.rooms.map →
      room ∉ s'.server.rooms.map →
      a.2 = .delete room ∨ ∃ now last, a.2 = .evictExpired now ∧ s.lastUse room = some last ∧
        last + limits.roomTtl < now := by
  have hi : s.Inv limits period lag :=
    Runs.invariant (fun _ _ _ hi hs => Timed.Inv.step hi hs) (Timed.inv_start limits period lag) h
  refine ⟨fun room r hr => ?_, hi.roomCount_le, fun a s' room hs hin hgone => ?_⟩
  · exact ⟨(hi.used room r hr).1, hi.age hr⟩
  · obtain ⟨r, hr⟩ := Rooms.mem_iff_lookup.1 hin
    have hseen : (s.server.room room).room = some r.seen := by
      simp only [Server.room, hr, Option.map_some]
    have hgone' : (s'.server.room room).room = none := by
      simp only [Server.room, AList.lookup_eq_none.2 hgone, Option.map_none]
    obtain ⟨-, hsame⟩ | ⟨b, hb, hstep⟩ := (hi.room_step hs room).2
    · rw [hsame, hseen] at hgone'
      cases hgone'
    · obtain rfl | ⟨now, rfl, hlt⟩ := RoomState.step_removes hstep hseen hgone'
      · left
        cases ha : a.2 with
        | delete key =>
          rw [ha] at hb
          obtain ⟨rfl, -⟩ := Option.ite_none_right_eq_some.1 hb
          rfl
        | publish | markDone | evictExpired | fetch | poll =>
          rw [ha] at hb
          simp [Server.request] at hb
      · right
        cases ha : a.2 with
        | evictExpired now' =>
          rw [ha] at hb
          cases hb
          exact ⟨now, _, rfl, (hi.used room r hr).1, hlt⟩
        | publish | markDone | delete | fetch | poll =>
          rw [ha] at hb
          simp [Server.request] at hb

/-- With a TTL of 10 and a sweep at least every 5: one room is used again, and the other is gone. -/
theorem idle_rooms_evicted_of_two : ∃ s,
    Runs.run (Timed.step 5 1) (.start ⟨10, 0, 0⟩)
      [(1, .publish 1 "q" .offerer [1]), (2, .publish 1 "r" .offerer [2]), (5, .evictExpired 5),
        (9, .evictExpired 9), (10, .markDone 9 "r" .offerer), (13, .evictExpired 13)] = some s ∧
    s.server.rooms.map.keys = ["r"] ∧ s.lastUse "r" = some 9 ∧
    s.server.rooms.roomCount ≤ (s.recent 16).length := by
  have hrun : ∃ s, Runs.run (Timed.step 5 1) (.start ⟨10, 0, 0⟩)
      [(1, .publish 1 "q" .offerer [1]), (2, .publish 1 "r" .offerer [2]), (5, .evictExpired 5),
        (9, .evictExpired 9), (10, .markDone 9 "r" .offerer), (13, .evictExpired 13)] = some s ∧
      s.server.rooms.map.keys = ["r"] ∧ s.lastUse "r" = some 9 := ⟨_, rfl, rfl, rfl⟩
  obtain ⟨s, h, hkeys, hlast⟩ := hrun
  exact ⟨s, h, hkeys, hlast, (idle_rooms_evicted ⟨10, 0, 0⟩ 5 1 h).2.1⟩

end WebrtcDatachannels.Signaling
