import WebrtcDatachannels.Host.InboundQueue
import WebrtcDatachannels.Lib.Entries
import WebrtcDatachannels.Lib.Notify

/-!
# What a Wasmtime offer covers

`wasmtime-impl/src/peer_connection.rs`. `create_data_channel` returns at once; the task that it
spawns registers the channel with the connection, and `PendingOps` counts the tasks that have not
yet done so. `create_offer` and `create_answer` wait for the count to reach zero. `Registrar` is one
connection with its `create_data_channel` calls, their tasks, and its offers and answers; a step is
one operation on what the threads share: the outcome of the build, the count, or the `Notify`.

An offer covers every earlier channel (`Registrar.offers_cover`). `end` is two operations, so a call
can be asleep at count zero between them (`Registrar.parked_at_zero`), and is woken by the second.
-/

namespace WebrtcDatachannels.Host

open Notify

/-- Where the registration of a channel is. Its call is made, has counted it, has spawned the task,
which awaits the connection and then `webrtc`; the registration has its result, which the task
takes off the count, and then `end` has returned. Without a runtime it is refused. Source: the task
of `create_data_channel`, `PendingOps::begin`, `PendingOps::end`. -/
inductive Registration where
  | called
  | begun
  | spawned
  | registering
  | settled (result : Except WebrtcError Unit)
  | counted (result : Except WebrtcError Unit)
  | ended (result : Except WebrtcError Unit)
  | refused (err : WebrtcError)

namespace Registration

/-- `begin` has counted it. -/
def hasBegun : Registration → Bool
  | .called | .refused _ => false
  | .begun | .spawned | .registering | .settled _ | .counted _ | .ended _ => true

/-- `end` has taken it off the count. -/
def hasEnded : Registration → Bool
  | .counted _ | .ended _ => true
  | .called | .begun | .spawned | .registering | .settled _ | .refused _ => false

/-- It is counted now. -/
def inFlight (r : Registration) : Bool := r.hasBegun && !r.hasEnded

/-- The channel is registered with the connection, or has failed. -/
def Complete : Registration → Prop
  | .settled _ | .counted _ | .ended _ | .refused _ => True
  | .called | .begun | .spawned | .registering => False

/-- The call of `create_data_channel` can return: its task is spawned, or it is refused. -/
def returns : Registration → Bool
  | .called | .begun => false
  | .spawned | .registering | .settled _ | .counted _ | .ended _ | .refused _ => true

end Registration

/-- One call of `create_data_channel`: whether it has returned, and its registration. -/
structure Creation where
  returned : Bool
  registration : Registration

/-- Which description a call produces. Source: `PeerConnection::create_offer`,
`PeerConnection::create_answer`. -/
inductive Describing where
  | offer
  | answer

/-- Where a call of `create_offer` or `create_answer` is: it awaits the connection, waits in
`settled`, has found the count zero, or has invoked `webrtc`; or the build failed it. -/
inductive DescribeStage where
  | building
  | waiting (w : Waiter Unit)
  | clear
  | invoked
  | failed (err : WebrtcError)

/-- One call of `create_offer` or `create_answer`, with the creations that had returned when it
began. -/
structure Description where
  kind : Describing
  earlier : List Nat
  stage : DescribeStage

/-- What `notify_waiters` does to a call. -/
def DescribeStage.notify : DescribeStage → DescribeStage
  | .waiting w => .waiting w.notify
  | stage => stage

/-- A call past the wait is not changed by a notification, and none gets past it. -/
theorem DescribeStage.notify_past {stage : DescribeStage} :
    stage.notify = .clear ∨ stage.notify = .invoked ↔ stage = .clear ∨ stage = .invoked := by
  cases stage <;> simp [notify]

/-- A call that waits after a notification was notified. -/
theorem DescribeStage.notify_eq_waiting {stage : DescribeStage} {w : Waiter Unit}
    (h : stage.notify = .waiting w) : ∃ w₀ : Waiter Unit, w = w₀.notify := by
  cases stage with
  | waiting w₀ => cases h; exact ⟨w₀, rfl⟩
  | building | clear | invoked | failed => cases h

/-- A connection with what its calls share: the outcome of the build, once there is one, and the
count of `PendingOps`. -/
structure Registrar where
  built : Option (Except WebrtcError Unit)
  count : Nat
  creations : List Creation
  descriptions : List Description

/-- What the threads do: the build ends or is cancelled; a channel is created, with a Tokio runtime
or without, its creation takes its next operation, or `webrtc` is done with it, or its call returns;
an offer or an answer is asked for, or takes its next operation. -/
inductive RegistrarAct where
  | build (result : Except String Unit)
  | cancel
  | create (runtime : Bool)
  | advance (k : Nat)
  | registered (k : Nat) (result : Except String Unit)
  | ret (k : Nat)
  | describe (kind : Describing)
  | proceed (i : Nat)

namespace Registrar

/-- A new connection, with or without a Tokio runtime for its build. Source:
`PeerConnection::new_with`. -/
def newWith (runtime : Bool) : Registrar where
  built :=
    if runtime then none
    else some (.error (.other "peer connection requires a running tokio runtime"))
  count := 0
  creations := []
  descriptions := []

/-- The operations that `begin` has counted. -/
def begun (s : Registrar) : Nat := s.creations.countP (·.registration.hasBegun)

/-- The operations that `end` has taken off the count. -/
def ended (s : Registrar) : Nat := s.creations.countP (·.registration.hasEnded)

/-- The registration of the creation `k` moves on. -/
def setRegistration (s : Registrar) (k : Nat) (c : Creation) (r : Registration) : Registrar :=
  { s with creations := s.creations.set k { c with registration := r } }

/-- The call `i` moves on. -/
def setStage (s : Registrar) (i : Nat) (d : Description) (stage : DescribeStage) : Registrar :=
  { s with descriptions := s.descriptions.set i { d with stage } }

/-- `Notify::notify_waiters`. -/
def notifyWaiters (s : Registrar) : Registrar :=
  { s with descriptions := s.descriptions.map fun d => { d with stage := d.stage.notify } }

/-- The creations whose call has returned. -/
def returned (s : Registrar) : List Nat :=
  (List.range s.creations.length).filter fun k =>
    (s.creations[k]?).any (·.returned)

/-- The next operation of the creation `k`. There are never as many tasks as would fill the
count. -/
def advance (s : Registrar) (k : Nat) (c : Creation) : Option Registrar :=
  match c.registration with
  | .called =>
    if s.count < usizeMax then
      some { s.setRegistration k c .begun with count := fetchAdd s.count 1 }
    else none
  | .begun => some (s.setRegistration k c .spawned)
  | .spawned =>
    match s.built with
    | none => none
    | some (.ok ()) => some (s.setRegistration k c .registering)
    | some (.error err) => some (s.setRegistration k c (.settled (.error err)))
  | .registering => none
  | .settled result =>
    some { s.setRegistration k c (.counted result) with count := fetchSub s.count 1 }
  | .counted result => some (s.setRegistration k c (.ended result)).notifyWaiters
  | .ended _ | .refused _ => none

/-- The next operation of the call `i`. Source: `create_offer`, `create_answer`,
`PendingOps::settled`. -/
def proceed (s : Registrar) (i : Nat) (d : Description) : Option Registrar :=
  match d.stage with
  | .building =>
    match s.built with
    | none => none
    | some (.ok ()) => some (s.setStage i d (.waiting .top))
    | some (.error err) => some (s.setStage i d (.failed err))
  | .waiting (.checking () woken) =>
    if s.count = 0 then some (s.setStage i d .clear)
    else some (s.setStage i d (.waiting (.parked woken)))
  | .waiting w => (w.proceed ()).map fun w' => s.setStage i d (.waiting w')
  | .clear => some (s.setStage i d .invoked)
  | .invoked | .failed _ => none

/-- One step of one thread. -/
def step (s : Registrar) : RegistrarAct → Option Registrar
  | .build result =>
    match s.built with
    | some _ => none
    | none => some { s with built := some (result.mapError .other) }
  | .cancel =>
    match s.built with
    | some _ => none
    | none => some { s with built := some (.error (.other "peer connection build was cancelled")) }
  | .create true =>
    some { s with creations := s.creations ++ [⟨false, .called⟩] }
  | .create false =>
    some
      { s with
        creations := s.creations ++
          [⟨false, .refused (.other "peer connection requires a running tokio runtime")⟩] }
  | .advance k => (s.creations[k]?).bind (s.advance k)
  | .registered k result =>
    match s.creations[k]? with
    | some c =>
      match c.registration with
      | .registering => some (s.setRegistration k c (.settled (result.mapError .other)))
      | _ => none
    | none => none
  | .ret k =>
    match s.creations[k]? with
    | some c =>
      if c.registration.returns then
        some { s with creations := s.creations.set k { c with returned := true } }
      else none
    | none => none
  | .describe kind =>
    some { s with descriptions := s.descriptions ++ [⟨kind, s.returned, .building⟩] }
  | .proceed i => (s.descriptions[i]?).bind (s.proceed i)

/-- Some call of `end` has taken its operation off the count and has not yet notified. -/
def Ending (s : Registrar) : Prop := ∃ c ∈ s.creations, ∃ r, c.registration = .counted r

/-- What a call asleep in `settled` relies on: at count zero a notification is due. -/
def Quiet (s : Registrar) : Prop := s.count = 0 → s.Ending

/-- Every channel whose creation had returned when the call began is registered or has failed. -/
def Covered (s : Registrar) (d : Description) : Prop :=
  ∀ k ∈ d.earlier, ∃ c, s.creations[k]? = some c ∧ c.registration.Complete

section
variable {s s' : Registrar} {a : RegistrarAct}

/-! ## What a step does -/

/-- The effects of a step: the build has its outcome; a creation is called, counted, taken off the
count, or notifies, or moves on otherwise; a call is made or moves on. -/
inductive Effect (s : Registrar) : Registrar → Prop where
  | built {result : Except WebrtcError Unit} (hb : s.built = none) :
      Effect s { s with built := some result }
  | created {r : Registration} (hr : r.hasBegun = false) :
      Effect s { s with creations := s.creations ++ [⟨false, r⟩] }
  | begins {k : Nat} {c : Creation} (hk : s.creations[k]? = some c) (hc : c.registration = .called)
      (hlt : s.count < usizeMax) :
      Effect s { s.setRegistration k c .begun with count := fetchAdd s.count 1 }
  | moves {k : Nat} {c c' : Creation} (hk : s.creations[k]? = some c)
      (hflight : c'.registration.inFlight = c.registration.inFlight)
      (hcomplete : c.registration.Complete → c'.registration.Complete)
      (hcounted : ∀ r, c.registration = .counted r → c'.registration = .counted r)
      (hkept : c.returned = true → c'.returned = true)
      (hreturns : (c.returned = true → c.registration.returns = true) →
        c'.returned = true → c'.registration.returns = true) :
      Effect s { s with creations := s.creations.set k c' }
  | ends {k : Nat} {c : Creation} {r : Except WebrtcError Unit} (hk : s.creations[k]? = some c)
      (hc : c.registration = .settled r) :
      Effect s { s.setRegistration k c (.counted r) with count := fetchSub s.count 1 }
  | notifies {k : Nat} {c : Creation} {r : Except WebrtcError Unit} (hk : s.creations[k]? = some c)
      (hc : c.registration = .counted r) :
      Effect s (s.setRegistration k c (.ended r)).notifyWaiters
  | asked {kind : Describing} :
      Effect s { s with descriptions := s.descriptions ++ [⟨kind, s.returned, .building⟩] }
  | goes {i : Nat} {d : Description} {stage : DescribeStage} (hi : s.descriptions[i]? = some d)
      (hwait : ∀ w, stage = .waiting w → w.Sound (fun _ => True) s.Quiet)
      (hclear : stage = .clear → s.count = 0) (hinvoked : stage = .invoked → d.stage = .clear) :
      Effect s (s.setStage i d stage)

/-- The next operation of a creation has its effect. -/
theorem advance_effect {k : Nat} {c : Creation} (hk : s.creations[k]? = some c)
    (h : s.advance k c = some s') : s.Effect s' := by
  obtain ⟨returned, registration⟩ := c
  cases registration with
  | called =>
    simp only [advance] at h
    split at h
    · next hlt => cases h; exact .begins hk rfl hlt
    · cases h
  | begun => cases h; exact .moves hk rfl nofun nofun (fun h => h) (fun _ _ => rfl)
  | spawned =>
    simp only [advance] at h
    split at h
    · cases h
    · cases h; exact .moves hk rfl nofun nofun (fun h => h) (fun _ _ => rfl)
    · cases h
      exact .moves hk rfl (fun _ => trivial) nofun (fun h => h) (fun _ _ => rfl)
  | registering => cases h
  | settled result => cases h; exact .ends hk rfl
  | counted result => cases h; exact .notifies hk rfl
  | ended result | refused err => cases h

/-- The next operation of a call has its effect. -/
theorem proceed_effect {i : Nat} {d : Description} (hi : s.descriptions[i]? = some d)
    (h : s.proceed i d = some s') : s.Effect s' := by
  simp only [proceed] at h
  split at h
  · -- the build
    split at h
    · cases h
    · cases h
      refine .goes hi ?_ nofun nofun
      rintro _ ⟨⟩
      trivial
    · cases h; exact .goes hi nofun nofun nofun
  · -- the load of the count
    split at h
    · next hzero => cases h; exact .goes hi nofun (fun _ => hzero) nofun
    · next hzero =>
      cases h
      refine .goes hi ?_ nofun nofun
      rintro _ ⟨⟩
      exact Waiter.sound_parked fun _ h0 => absurd h0 hzero
  · obtain ⟨w', hw, rfl⟩ := Option.map_eq_some_iff.1 h
    refine .goes hi ?_ nofun nofun
    rintro _ ⟨⟩
    exact Waiter.sound_proceed trivial hw
  · next hstage => cases h; exact .goes hi nofun nofun fun _ => hstage
  · cases h
  · cases h

/-- A step has its effect. -/
theorem step_effect (h : s.step a = some s') : s.Effect s' := by
  cases a with
  | build result | cancel =>
    simp only [step] at h
    split at h
    · cases h
    · next hb => cases h; exact .built hb
  | create runtime =>
    cases runtime with
    | true | false => cases h; exact .created rfl
  | advance k =>
    obtain ⟨c, hk, h⟩ := Option.bind_eq_some_iff.1 h
    exact advance_effect hk h
  | registered k result =>
    simp only [step] at h
    split at h
    · next c hk =>
      obtain ⟨returned, registration⟩ := c
      cases registration with
      | registering =>
        cases h
        exact .moves hk rfl (fun _ => trivial) nofun (fun h => h) (fun _ _ => rfl)
      | _ => cases h
    · cases h
  | ret k =>
    simp only [step] at h
    split at h
    · next c hk =>
      split at h
      · next hret =>
        cases h
        exact .moves hk rfl (fun h => h) (fun _ h => h) (fun _ => rfl) (fun _ _ => hret)
      · cases h
    · cases h
  | describe kind => cases h; exact .asked
  | proceed i =>
    obtain ⟨d, hi, h⟩ := Option.bind_eq_some_iff.1 h
    exact proceed_effect hi h

/-! ## The count -/

/-- The count is that of the registrations in flight; a creation that has returned left its
registration where it can return; the creations recorded with a call have returned; and a call that
found the count zero is covered. -/
structure Counted (s : Registrar) : Prop where
  count : s.count = s.creations.countP (·.registration.inFlight)
  bound : s.count ≤ usizeMax
  returns : ∀ c ∈ s.creations, c.returned = true → c.registration.returns = true
  earlier : ∀ d ∈ s.descriptions, ∀ k ∈ d.earlier, ∃ c, s.creations[k]? = some c ∧
    c.returned = true
  covered : ∀ d ∈ s.descriptions, d.stage = .clear ∨ d.stage = .invoked → s.Covered d

/-- What carries the results over a run: the counting, and what a call asleep relies on. -/
structure Inv (s : Registrar) : Prop extends s.Counted where
  waiting : ∀ d ∈ s.descriptions, ∀ w, d.stage = .waiting w → w.Sound (fun _ => True) s.Quiet

theorem inv_newWith (runtime : Bool) : (newWith runtime).Inv where
  count := rfl
  bound := Nat.zero_le _
  returns := nofun
  earlier := nofun
  covered := nofun
  waiting := nofun

/-- What was begun has ended or is in flight. -/
theorem begun_eq (s : Registrar) :
    s.begun = s.ended + s.creations.countP (·.registration.inFlight) := by
  rw [begun, ended]
  induction s.creations with
  | nil => rfl
  | cons c l ih =>
    simp only [List.countP_cons, ih]
    cases c.registration <;> simp [Registration.hasBegun, Registration.hasEnded,
      Registration.inFlight] <;> omega

/-- A registration that a call has returned from, and that is not in flight, is complete. -/
theorem complete_of_returns {r : Registration} (hret : r.returns = true)
    (hfl : r.inFlight = false) : r.Complete := by
  cases r with
  | called | begun => cases hret
  | spawned | registering => cases hfl
  | settled | counted | ended | refused => trivial

/-- At count zero every creation that has returned is complete. -/
theorem Counted.complete (hi : s.Counted) (hzero : s.count = 0) {c : Creation}
    (hc : c ∈ s.creations) (hret : c.returned = true) : c.registration.Complete := by
  have hfl : ¬ c.registration.inFlight = true :=
    List.countP_eq_zero.1 (hi.count.symm.trans hzero) c hc
  exact complete_of_returns (hi.returns c hc hret) (Bool.eq_false_iff.2 hfl)

/-- A call that is covered stays so while registrations move on. -/
theorem Covered.set {d : Description} (h : s.Covered d) {k : Nat} {c c' : Creation}
    (hk : s.creations[k]? = some c)
    (hc : c.registration.Complete → c'.registration.Complete) :
    { s with creations := s.creations.set k c' }.Covered d :=
  fun j hj => Entries.exists_getElem?_set hk hc (h j hj)

/-- The creation `k` moves on: what is known of the others and of the calls is passed on. -/
theorem Counted.set (hi : s.Counted) {k : Nat} {c c' : Creation} {count : Nat}
    (hk : s.creations[k]? = some c) (hbound : count ≤ usizeMax)
    (hcount : count + (if c.registration.inFlight then 1 else 0) =
      s.count + (if c'.registration.inFlight then 1 else 0))
    (hcomplete : c.registration.Complete → c'.registration.Complete)
    (hkept : c.returned = true → c'.returned = true)
    (hreturns : (c.returned = true → c.registration.returns = true) →
      c'.returned = true → c'.registration.returns = true) :
    { s with creations := s.creations.set k c', count }.Counted where
  count := by
    have hset := Entries.countP_set (y := c') (·.registration.inFlight) hk
    have := hi.count
    show count = (s.creations.set k c').countP _
    omega
  bound := hbound
  returns :=
    Entries.forall_mem_set hi.returns (hreturns (hi.returns c (List.mem_of_getElem? hk)))
  earlier d hd j hj := Entries.exists_getElem?_set hk hkept (hi.earlier d hd j hj)
  covered d hd hstage := (hi.covered d hd hstage).set hk hcomplete

/-- An `end` that is about to notify still is after another creation has moved on. -/
theorem Ending.set (h : s.Ending) {k : Nat} {c c' : Creation} {count : Nat}
    (hk : s.creations[k]? = some c)
    (hc : ∀ r, c.registration = .counted r → c'.registration = .counted r) :
    { s with creations := s.creations.set k c', count }.Ending :=
  (Entries.exists_mem_set_iff hk fun ⟨r, hr⟩ => ⟨r, hc r hr⟩).2 (.inl h)

/-- A notification changes nothing of the counting. -/
theorem Counted.notifyWaiters (hi : s.Counted) : s.notifyWaiters.Counted where
  count := hi.count
  bound := hi.bound
  returns := hi.returns
  earlier := by
    intro d hd
    obtain ⟨d, hmem, rfl⟩ := List.mem_map.1 hd
    exact hi.earlier d hmem
  covered := by
    intro d hd hstage
    obtain ⟨d, hmem, rfl⟩ := List.mem_map.1 hd
    exact hi.covered d hmem (DescribeStage.notify_past.1 hstage)

/-- After a notification no call relies on anything. -/
theorem sound_notifyWaiters (s : Registrar) : ∀ d ∈ s.notifyWaiters.descriptions, ∀ w,
    d.stage = .waiting w → w.Sound (fun _ => True) s.notifyWaiters.Quiet := by
  intro d hd w hw
  obtain ⟨d, hd, rfl⟩ := List.mem_map.1 hd
  obtain ⟨w₀, rfl⟩ := DescribeStage.notify_eq_waiting hw
  exact Waiter.sound_notify w₀

/-- The call `i` moves on. -/
theorem Inv.setStage (hi : s.Inv) {i : Nat} {d : Description} {stage : DescribeStage}
    (hd : s.descriptions[i]? = some d)
    (hwait : ∀ w, stage = .waiting w → w.Sound (fun _ => True) s.Quiet)
    (hclear : stage = .clear → s.count = 0) (hinvoked : stage = .invoked → d.stage = .clear) :
    (s.setStage i d stage).Inv where
  count := hi.count
  bound := hi.bound
  returns := hi.returns
  earlier := Entries.forall_mem_set hi.earlier (hi.earlier d (List.mem_of_getElem? hd))
  covered := by
    have hmem : d ∈ s.descriptions := List.mem_of_getElem? hd
    refine Entries.forall_mem_set
      (P := fun d : Description => d.stage = .clear ∨ d.stage = .invoked → s.Covered d)
      hi.covered ?_
    rintro (hstage | hstage) k hk
    · obtain ⟨c, hc, hret⟩ := hi.earlier d hmem k hk
      exact ⟨c, hc, hi.complete (hclear hstage) (List.mem_of_getElem? hc) hret⟩
    · exact hi.covered d hmem (.inl (hinvoked hstage)) k hk
  waiting := Entries.forall_mem_set (P := fun d : Description => ∀ w, d.stage = .waiting w →
    w.Sound (fun _ => True) s.Quiet) hi.waiting hwait

/-- Every step keeps the invariant. -/
theorem Inv.step (hi : s.Inv) (h : s.step a = some s') : s'.Inv := by
  cases step_effect h with
  | built => exact ⟨⟨hi.count, hi.bound, hi.returns, hi.earlier, hi.covered⟩, hi.waiting⟩
  | @created r hr =>
    refine ⟨⟨?_, hi.bound, ?_, ?_, ?_⟩, ?_⟩
    · show s.count = (s.creations ++ [_]).countP _
      rw [List.countP_append, ← hi.count]
      simp [Registration.inFlight, hr]
    · exact Entries.forall_mem_append hi.returns nofun
    · exact fun d hd k hk => Entries.exists_getElem?_append (hi.earlier d hd k hk)
    · exact fun d hd hs k hk => Entries.exists_getElem?_append (hi.covered d hd hs k hk)
    · intro d hd w hw
      refine (hi.waiting d hd w hw).mono (fun _ h => h) fun hq hzero => ?_
      obtain ⟨c, hc, hr⟩ := hq hzero
      exact ⟨c, List.mem_append_left _ hc, hr⟩
  | @begins k c hk hc hlt =>
    have hadd : fetchAdd s.count 1 = s.count + 1 := fetchAdd_of_le hlt
    refine ⟨hi.toCounted.set hk ?_ ?_ ?_ (fun h => h) ?_, ?_⟩
    · omega
    · rw [hadd, hc]
      rfl
    · rw [hc]
      exact nofun
    · rw [hc]
      exact fun hret h => nomatch hret h
    · intro d hd w hw
      refine (hi.waiting d hd w hw).mono (fun _ h => h) fun _ hzero => ?_
      have hzero' : fetchAdd s.count 1 = 0 := hzero
      omega
  | @moves k c c' hk hflight hcomplete hcounted hkept hreturns =>
    refine ⟨hi.toCounted.set hk hi.bound (by rw [hflight]) hcomplete hkept hreturns, ?_⟩
    intro d hd w hw
    exact (hi.waiting d hd w hw).mono (fun _ h => h) fun hq hzero => (hq hzero).set hk hcounted
  | @ends k c r hk hc =>
    have hpos : 0 < s.count := by
      rw [hi.count]
      exact List.countP_pos_iff.2 ⟨c, List.mem_of_getElem? hk, by rw [hc]; rfl⟩
    have hsub : fetchSub s.count 1 = s.count - 1 := fetchSub_of_le hpos hi.bound
    refine ⟨hi.toCounted.set hk ?_ ?_ (fun _ => trivial) (fun h => h) (fun _ _ => rfl), ?_⟩
    · have := hi.bound
      omega
    · rw [hsub, hc]
      show s.count - 1 + 1 = s.count + 0
      omega
    · intro d hd w hw
      refine (hi.waiting d hd w hw).mono (fun _ h => h) fun _ _ => ?_
      exact ⟨_, Entries.mem_set_self hk, r, rfl⟩
  | @notifies k c r hk hc =>
    refine ⟨Counted.notifyWaiters ?_, sound_notifyWaiters _⟩
    refine hi.toCounted.set hk hi.bound ?_ (fun _ => trivial) (fun h => h) (fun _ _ => rfl)
    rw [hc]
    rfl
  | @asked kind =>
    refine ⟨⟨hi.count, hi.bound, hi.returns, ?_, ?_⟩, ?_⟩
    · refine Entries.forall_mem_append hi.earlier fun k hk => ?_
      have hret := (List.mem_filter.1 hk).2
      simpa [Option.any_eq_true] using hret
    · exact Entries.forall_mem_append hi.covered nofun
    · exact Entries.forall_mem_append hi.waiting nofun
  | goes hd hwait hclear hinvoked => exact hi.setStage hd hwait hclear hinvoked

/-- A call asleep and not woken at count zero is about to be: some `end` notifies next. -/
theorem Inv.wakes (hi : s.Inv) {d : Description} (hd : d ∈ s.descriptions)
    (hstage : d.stage = .waiting (.parked false)) (hzero : s.count = 0) :
    ∃ k c r s', s.creations[k]? = some c ∧ c.registration = .counted r ∧
      s.step (.advance k) = some s' ∧
      ∀ d ∈ s'.descriptions, d.stage ≠ .waiting (.parked false) := by
  have hquiet : s.Quiet := hi.waiting d hd _ hstage
  obtain ⟨c, hc, r, hr⟩ := hquiet hzero
  obtain ⟨k, hk⟩ := List.mem_iff_getElem?.1 hc
  refine ⟨k, c, r, (s.setRegistration k c (.ended r)).notifyWaiters, hk, hr, ?_, ?_⟩
  · show (s.creations[k]?).bind (s.advance k) = _
    rw [hk, Option.bind_some, advance, hr]
  · intro d' hd' hparked
    obtain ⟨d₀, -, rfl⟩ := List.mem_map.1 hd'
    obtain ⟨w₀, hw⟩ := DescribeStage.notify_eq_waiting hparked
    cases w₀ <;> cases hw

end

/-- **What an offer covers.** Along every run, whenever `webrtc` has been asked for an offer or an
answer, every channel whose creation had returned when the call began is registered or has failed;
the count is that of the operations begun less those ended, and never wraps; and a call that sleeps
in `settled` at count zero has been woken, unless some `end` is between its decrement and its
notification, which wakes every call. -/
theorem offers_cover {runtime : Bool} {as : List RegistrarAct} {s : Registrar}
    (h : Runs.run step (newWith runtime) as = some s) :
    (∀ d ∈ s.descriptions, d.stage = .invoked → s.Covered d) ∧
    (s.ended ≤ s.begun ∧ s.count = s.begun - s.ended) ∧
    ∀ d ∈ s.descriptions, d.stage = .waiting (.parked false) → s.count = 0 →
      ∃ k c r s', s.creations[k]? = some c ∧ c.registration = .counted r ∧
        s.step (.advance k) = some s' ∧
        ∀ d ∈ s'.descriptions, d.stage ≠ .waiting (.parked false) := by
  have hi : s.Inv := Runs.invariant (fun _ _ _ hi hs => hi.step hs) (inv_newWith runtime) h
  have hbegun := s.begun_eq
  have hcount := hi.count
  refine ⟨fun d hd hstage => hi.covered d hd (.inr hstage), ⟨by omega, by omega⟩, ?_⟩
  exact fun d hd hstage hzero => hi.wakes hd hstage hzero

/-- An offer asked for while one channel registers and another is not yet counted covers the first;
an answer covers both. -/
theorem offers_cover_of_two : ∃ s,
    Runs.run step (newWith true)
      [.create true, .advance 0, .advance 0, .ret 0, .create true, .build (.ok ()),
        .describe .offer, .proceed 0, .proceed 0, .proceed 0, .proceed 0, .advance 0,
        .registered 0 (.ok ()), .advance 0, .advance 0, .proceed 0, .proceed 0, .proceed 0,
        .proceed 0, .proceed 0, .advance 1, .advance 1, .ret 1, .describe .answer, .proceed 1,
        .advance 1, .registered 1 (.error "closed"), .advance 1, .proceed 1, .proceed 1, .proceed 1,
        .proceed 1] = some s ∧
      s.Covered ⟨.offer, [0], .invoked⟩ ∧ s.Covered ⟨.answer, [0, 1], .invoked⟩ := by
  generalize hr : Runs.run step (newWith true) _ = r
  have hmap : r.map descriptions = some [⟨.offer, [0], .invoked⟩, ⟨.answer, [0, 1], .invoked⟩] := by
    rw [← hr]
    rfl
  obtain ⟨s, rfl, hd⟩ := Option.map_eq_some_iff.1 hmap
  refine ⟨s, rfl, (offers_cover hr).1 _ ?_ rfl, (offers_cover hr).1 _ ?_ rfl⟩
  · exact hd ▸ List.mem_cons_self ..
  · exact hd ▸ List.mem_cons_of_mem _ (List.mem_cons_self ..)

/-- Between the decrement of the last `end` and its notification a call sleeps at count zero and has
not been woken. -/
theorem parked_at_zero : ∃ s,
    Runs.run step (newWith true)
      [.create true, .advance 0, .advance 0, .ret 0, .build (.ok ()), .describe .offer, .proceed 0,
        .proceed 0, .proceed 0, .proceed 0, .advance 0, .registered 0 (.ok ()), .advance 0] =
        some s ∧
      s.count = 0 ∧ ∃ d ∈ s.descriptions, d.stage = .waiting (.parked false) :=
  ⟨_, rfl, rfl, _, List.mem_cons_self .., rfl⟩

end Registrar

end WebrtcDatachannels.Host
