import WebrtcDatachannels.Host.Connection
import WebrtcDatachannels.Lib.Entries
import WebrtcDatachannels.Lib.Notify

/-!
# Waiting for a Wasmtime connection

`wasmtime-impl/src/peer_connection.rs`. `wait_connected` reads two flags that only the state handler
sets, while `close` empties the slot of the connection and leaves it to `webrtc` to report the end.
`Connecting` is one connection with its build task, its `close` calls, the callbacks of the state
handler, and its `wait_connected` calls; a step is one operation on what the threads share: the
slot, the close signal, one of the flags, or the `Notify`.

`Connecting.Kept` is what the waits promise, and holds along every run whose steps are `Prompt`
(`Connecting.wait_connected_kept`). A connection that is closed before its build ends reports
nothing, and the two loads of a turn are not one (`Connecting.wait_connected_broken`).
-/

namespace WebrtcDatachannels.Host

open Guest (RTCPeerConnectionState)
open Notify

variable {Pc : Type}

/-- The loads of one turn of the loop of `wait_connected`, in their order. -/
inductive Load where
  | connected
  | failed
deriving DecidableEq, Repr

/-- Where a call of `wait_connected` is: it awaits the build, waits, or has returned, before a
callback for `Connected` has run or `late`, after one has. -/
inductive WaitStage where
  | building
  | waiting (w : Waiter Load)
  | returned (result : Except WebrtcError Unit) (late : Bool)

/-- What `notify_waiters` does to a call. -/
def WaitStage.notify : WaitStage → WaitStage
  | .waiting w => .waiting w.notify
  | stage => stage

/-- One call of `wait_connected`, and whether its deadline has passed. -/
structure Wait where
  stage : WaitStage
  elapsed : Bool

/-- The call has found `connected` unset and is about to load `failed`. -/
def Wait.BetweenLoads (c : Wait) : Prop := ∃ woken, c.stage = .waiting (.checking .failed woken)

/-- Where a callback of the state handler is: it is called, has stored its flag, has stored that of
the close signal, has woken those who wait for the signal, or has notified and is done. -/
inductive Running where
  | called
  | stored
  | flagged
  | fired
  | done
deriving DecidableEq

/-- One callback of the state handler. Source: `on_connection_state` in `connection_handler`. -/
structure Callback where
  state : RTCPeerConnectionState
  running : Running
deriving DecidableEq

/-- A connection with what its calls share: the slot and the close signal, the flags, and whether
`close` has run on the connection itself. -/
structure Connecting (Pc : Type) where
  teardown : Teardown Pc
  state : ConnState
  pcClosed : Bool
  callbacks : List Callback
  waits : List Wait

/-- What the threads do: the build ends or is cancelled; a `close` is called or takes its next
operation; a connection handed over is closed; `webrtc` reports a state, or the callback takes its
next operation; a `wait_connected` is called, takes its next operation, has its deadline pass, or
returns because it has. -/
inductive ConnectingAct (Pc : Type) where
  | build (result : Except String Pc)
  | cancel
  | close
  | closing (k : Nat)
  | closed
  | report (state : RTCPeerConnectionState)
  | callback (i : Nat)
  | wait
  | proceed (k : Nat)
  | elapse (k : Nat)
  | timeout (k : Nat)

namespace Connecting

/-- A new connection, with or without a Tokio runtime for its build. Source:
`PeerConnection::new_with`. -/
def newWith (runtime : Bool) : Connecting Pc where
  teardown := .newWith runtime
  state := .new
  pcClosed := false
  callbacks := []
  waits := []

/-- Some callback for a state of the kind `p` has run. -/
def Ran (s : Connecting Pc) (p : RTCPeerConnectionState → Bool) : Prop :=
  ∃ cb ∈ s.callbacks, p cb.state = true ∧ cb.running = .done

instance (s : Connecting Pc) (p : RTCPeerConnectionState → Bool) : Decidable (s.Ran p) :=
  inferInstanceAs (Decidable (∃ _ ∈ _, _))

/-- Some callback for a state of the kind `p` has stored its flag. -/
def Stored (s : Connecting Pc) (p : RTCPeerConnectionState → Bool) : Prop :=
  ∃ cb ∈ s.callbacks, p cb.state = true ∧ cb.running ≠ .called

/-- The state that connects. -/
def connects (state : RTCPeerConnectionState) : Bool := state = .connected

/-- The call `k` moves on. -/
def setStage (s : Connecting Pc) (k : Nat) (c : Wait) (stage : WaitStage) : Connecting Pc :=
  { s with waits := s.waits.set k { c with stage } }

/-- The call `k` returns. -/
def returns (s : Connecting Pc) (k : Nat) (c : Wait) (result : Except WebrtcError Unit) :
    Connecting Pc :=
  s.setStage k c (.returned result (s.Ran connects))

/-- The callback `i` moves on. -/
def setRunning (s : Connecting Pc) (i : Nat) (cb : Callback) (running : Running) : Connecting Pc :=
  { s with callbacks := s.callbacks.set i { cb with running } }

/-- `Notify::notify_waiters`. -/
def notifyWaiters (s : Connecting Pc) : Connecting Pc :=
  { s with waits := s.waits.map fun c => { c with stage := c.stage.notify } }

/-- A step of the build task or of a `close`. -/
def tear (s : Connecting Pc) (a : TeardownAct Pc) : Option (Connecting Pc) :=
  (s.teardown.step a).map fun teardown => { s with teardown }

/-- The next operation of the callback `i`. -/
def advance (s : Connecting Pc) (i : Nat) (cb : Callback) : Option (Connecting Pc) :=
  match cb.running with
  | .called =>
    if connects cb.state then
      some { s.setRunning i cb .stored with state := { s.state with connected := true } }
    else if ends cb.state then
      some { s.setRunning i cb .stored with state := { s.state with failed := true } }
    else some (s.setRunning i cb .done).notifyWaiters
  | .stored =>
    if ends cb.state then (s.setRunning i cb .flagged).tear .stored
    else some (s.setRunning i cb .done).notifyWaiters
  | .flagged => (s.setRunning i cb .fired).tear .woken
  | .fired => some (s.setRunning i cb .done).notifyWaiters
  | .done => none

/-- The next operation of the call `k`. Source: `PeerConnection::wait_connected`. -/
def proceed (s : Connecting Pc) (k : Nat) (c : Wait) : Option (Connecting Pc) :=
  match c.stage with
  | .building =>
    match s.teardown.built with
    | none => none
    | some (.error err) => some (s.returns k c (.error err))
    | some (.ok _) => some (s.setStage k c (.waiting .top))
  | .waiting (.checking .connected woken) =>
    if s.state.connected then some (s.returns k c (.ok ()))
    else some (s.setStage k c (.waiting (.checking .failed woken)))
  | .waiting (.checking .failed woken) =>
    if s.state.failed then some (s.returns k c (.error .closed))
    else some (s.setStage k c (.waiting (.parked woken)))
  | .waiting w => (w.proceed .connected).map fun w' => s.setStage k c (.waiting w')
  | .returned _ _ => none

/-- One step of one thread. `webrtc` reports only for a connection, and `Closed` only for one on
which its `close` has run. -/
def step (s : Connecting Pc) : ConnectingAct Pc → Option (Connecting Pc)
  | .build (.ok pc) => s.tear (.build (.ok pc))
  | .build (.error err) => if s.callbacks = [] then s.tear (.build (.error err)) else none
  | .cancel => if s.callbacks = [] then s.tear .cancel else none
  | .close => s.tear .close
  | .closing k => s.tear (.proceed k)
  | .closed =>
    if s.teardown.handedOver ≠ [] ∧ s.pcClosed = false then some { s with pcClosed := true }
    else none
  | .report state =>
    match s.teardown.built with
    | some (.error _) => none
    | none | some (.ok _) =>
      if state = .closed → s.pcClosed = true then
        some { s with callbacks := s.callbacks ++ [⟨state, .called⟩] }
      else none
  | .callback i => (s.callbacks[i]?).bind (s.advance i)
  | .wait => some { s with waits := s.waits ++ [⟨.building, false⟩] }
  | .proceed k => (s.waits[k]?).bind (s.proceed k)
  | .elapse k =>
    match s.waits[k]? with
    | some c =>
      match c.stage with
      | .waiting _ => some { s with waits := s.waits.set k { c with elapsed := true } }
      | .building | .returned _ _ => none
    | none => none
  | .timeout k =>
    match s.waits[k]? with
    | some c =>
      match c.stage, c.elapsed with
      | .waiting (.parked _), true => some (s.returns k c (.error .timedOut))
      | _, _ => none
    | none => none

/-- A step that keeps the promises: the build ends before a `close` has returned; no call is between
its loads when the second comes of a callback for `Connected` that is done and `failed` that is set;
and after a callback for `Connected` has run no call gives up because of its deadline. -/
def Prompt (s : Connecting Pc) : ConnectingAct Pc → Prop
  | .build (.ok _) => ¬ s.teardown.Ended
  | .callback i =>
    ∀ cb, s.callbacks[i]? = some cb →
      connects cb.state = true ∧ cb.running ≠ .called ∧ s.state.failed = true ∨
        ends cb.state = true ∧ cb.running = .called ∧ s.Ran connects →
      ∀ c ∈ s.waits, ¬ c.BetweenLoads
  | .timeout _ => ¬ s.Ran connects
  | _ => True

section
variable {s s' : Connecting Pc} {a : ConnectingAct Pc}

/-! ## What a step does -/

/-- The effects of a step: the build task or a `close` goes on; the connection is closed or reports
a state; a callback stores its flag, passes the end on to the close signal, or is done; a call is
made, goes on, returns, or has its deadline pass. -/
inductive Effect (s : Connecting Pc) : ConnectingAct Pc → Connecting Pc → Prop where
  | tears {a : ConnectingAct Pc} {b : TeardownAct Pc} {t : Teardown Pc}
      (hb : s.teardown.step b = some t) (horderly : s.Prompt a → s.teardown.Orderly b)
      (herr : ∀ err, t.built = some (.error err) → s.teardown.built ≠ t.built →
        s.callbacks = []) :
      Effect s a { s with teardown := t }
  | closed (hh : s.teardown.handedOver ≠ []) : Effect s .closed { s with pcClosed := true }
  | reports {state : RTCPeerConnectionState}
      (hb : ∀ err, s.teardown.built ≠ some (.error err)) :
      Effect s (.report state) { s with callbacks := s.callbacks ++ [⟨state, .called⟩] }
  | stores {i : Nat} {cb : Callback} {connected failed : Bool} (hi : s.callbacks[i]? = some cb)
      (hcb : cb.running = .called) (hc : connected = (s.state.connected || connects cb.state))
      (hf : failed = (s.state.failed || ends cb.state)) :
      Effect s (.callback i) { s.setRunning i cb .stored with state := { connected, failed } }
  | relays {i : Nat} {cb : Callback} {running : Running} {b : TeardownAct Pc} {t : Teardown Pc}
      (hi : s.callbacks[i]? = some cb) (hcb : cb.running = .stored ∨ cb.running = .flagged)
      (hr : running = .flagged ∨ running = .fired) (hb : s.teardown.step b = some t)
      (horderly : s.teardown.Orderly b) (hbuilt : t.built = s.teardown.built) :
      Effect s (.callback i) { s.setRunning i cb running with teardown := t }
  | finishes {i : Nat} {cb : Callback} (hi : s.callbacks[i]? = some cb)
      (hcb : cb.running = .called → connects cb.state = false ∧ ends cb.state = false) :
      Effect s (.callback i) (s.setRunning i cb .done).notifyWaiters
  | made : Effect s .wait { s with waits := s.waits ++ [⟨.building, false⟩] }
  | goes {k : Nat} {c : Wait} {w : Waiter Load} (hk : s.waits[k]? = some c)
      (hbuilt : c.stage = .building → ∃ pc, s.teardown.built = some (.ok pc))
      (hpending : ∀ r late, c.stage ≠ .returned r late)
      (hconnected : ∀ woken, w = .checking .failed woken → s.state.connected = false)
      (hparked : ∀ woken, w = .parked woken → c.stage = .waiting (.checking .failed woken) ∧
        s.state.failed = false) :
      Effect s (.proceed k) (s.setStage k c (.waiting w))
  | answers {a : ConnectingAct Pc} {k : Nat} {c : Wait} {r : Except WebrtcError Unit}
      (hk : s.waits[k]? = some c)
      (hr : s.Prompt a → s.Ran connects → r ≠ .ok () →
        (∃ err, s.teardown.built = some (.error err)) ∨
          c.BetweenLoads ∧ s.state.failed = true) :
      Effect s a (s.returns k c r)
  | elapses {k : Nat} {c : Wait} (hk : s.waits[k]? = some c) :
      Effect s (.elapse k) { s with waits := s.waits.set k { c with elapsed := true } }

/-- A step of the build task or of a `close` has its effect. -/
theorem tear_effect {b : TeardownAct Pc} (horderly : s.Prompt a → s.teardown.Orderly b)
    (herr : ∀ t, s.teardown.step b = some t → ∀ err, t.built = some (.error err) →
      s.teardown.built ≠ t.built → s.callbacks = [])
    (h : s.tear b = some s') : s.Effect a s' := by
  obtain ⟨t, ht, rfl⟩ := Option.map_eq_some_iff.1 h
  exact .tears ht horderly (herr t ht)

/-- A step of a `close` leaves the outcome of the build alone. -/
theorem tear_close_effect {b : TeardownAct Pc} (horderly : s.teardown.Orderly b)
    (hbuild : ∀ result, b ≠ .build result) (hcancel : b ≠ .cancel) (h : s.tear b = some s') :
    s.Effect a s' := by
  refine tear_effect (fun _ => horderly) (fun t ht err _ hne => ?_) h
  exact absurd (Teardown.step_built ht hbuild hcancel).symm hne

/-- A failed build ends before any callback. -/
theorem tear_failed_effect {b : TeardownAct Pc} (horderly : s.teardown.Orderly b)
    (h : (if s.callbacks = [] then s.tear b else none) = some s') : s.Effect a s' := by
  split at h
  · next hnil => exact tear_effect (fun _ => horderly) (fun _ _ _ _ _ => hnil) h
  · cases h

/-- A callback passes the end on to the close signal. -/
theorem relay_effect {i : Nat} {cb : Callback} {running : Running} {b : TeardownAct Pc}
    (hi : s.callbacks[i]? = some cb) (hcb : cb.running = .stored ∨ cb.running = .flagged)
    (hr : running = .flagged ∨ running = .fired) (hb : b = .stored ∨ b = .woken)
    (h : (s.setRunning i cb running).tear b = some s') : s.Effect (.callback i) s' := by
  obtain ⟨t, ht, rfl⟩ := Option.map_eq_some_iff.1 h
  rcases hb with rfl | rfl
  · exact .relays hi hcb hr ht trivial (Teardown.step_built ht nofun nofun)
  · exact .relays hi hcb hr ht trivial (Teardown.step_built ht nofun nofun)

/-- The next operation of a callback has its effect. -/
theorem advance_effect {i : Nat} {cb : Callback} (hi : s.callbacks[i]? = some cb)
    (h : s.advance i cb = some s') : s.Effect (.callback i) s' := by
  simp only [advance] at h
  split at h
  · next hcb =>
    split at h
    · next hconnects =>
      cases h
      have hends : ends cb.state = false := by
        obtain ⟨state, running⟩ := cb
        cases of_decide_eq_true hconnects
        rfl
      exact .stores hi hcb (by rw [hconnects, Bool.or_true]) (by rw [hends, Bool.or_false])
    · next hconnects =>
      rw [Bool.not_eq_true] at hconnects
      split at h
      · next hends =>
        cases h
        exact .stores hi hcb (by rw [hconnects, Bool.or_false]) (by rw [hends, Bool.or_true])
      · next hends =>
        cases h
        exact .finishes hi fun _ => ⟨hconnects, Bool.not_eq_true _ ▸ hends⟩
  · next hcb =>
    split at h
    · exact relay_effect hi (.inl hcb) (.inl rfl) (.inl rfl) h
    · cases h
      exact .finishes hi fun hcalled => nomatch hcb.symm.trans hcalled
  · next hcb => exact relay_effect hi (.inr hcb) (.inr rfl) (.inr rfl) h
  · next hcb =>
    cases h
    exact .finishes hi fun hcalled => nomatch hcb.symm.trans hcalled
  · cases h

/-- The next operation of a call has its effect. -/
theorem proceed_effect {k : Nat} {c : Wait} (hk : s.waits[k]? = some c)
    (h : s.proceed k c = some s') : s.Effect (.proceed k) s' := by
  simp only [proceed] at h
  split at h
  · next hstage =>
    split at h
    · cases h
    · next err hb => cases h; exact .answers hk fun _ _ _ => .inl ⟨err, hb⟩
    · next pc hb =>
      cases h
      exact .goes hk (fun _ => ⟨pc, hb⟩) (by simp [hstage]) nofun nofun
  · next woken hstage =>
    split at h
    · cases h; exact .answers hk fun _ _ hne => absurd rfl hne
    · next hconn =>
      cases h
      exact .goes hk (by simp [hstage]) (by simp [hstage])
        (fun _ _ => Bool.not_eq_true _ ▸ hconn) nofun
  · next woken hstage =>
    split at h
    · next hfailed =>
      cases h
      exact .answers hk fun _ _ _ => .inr ⟨⟨woken, hstage⟩, hfailed⟩
    · next hfailed =>
      cases h
      refine .goes hk (by simp [hstage]) (by simp [hstage]) nofun ?_
      rintro _ ⟨⟩
      exact ⟨hstage, Bool.not_eq_true _ ▸ hfailed⟩
  · next w _ _ hstage =>
    obtain ⟨w', hw, rfl⟩ := Option.map_eq_some_iff.1 h
    refine .goes hk (by simp [hstage]) (by simp [hstage]) ?_ ?_
    · rintro _ rfl
      match w with
      | .created _ => cases hw
      | .parked true => cases hw
    · rintro _ rfl
      match w with
      | .created _ => cases hw
      | .parked true => cases hw
  · cases h

/-- A step has its effect. -/
theorem step_effect (h : s.step a = some s') : s.Effect a s' := by
  cases a with
  | build result =>
    cases result with
    | ok pc =>
      refine tear_effect (b := .build (.ok pc)) (fun hp => hp) ?_ h
      intro t ht err hbuilt
      cases hb : s.teardown.built with
      | none =>
        simp only [Teardown.step, hb] at ht
        cases ht
        cases hbuilt
      | some r =>
        simp only [Teardown.step, hb] at ht
        cases ht
    | error err => exact tear_failed_effect (b := .build (.error err)) trivial h
  | cancel => exact tear_failed_effect (b := .cancel) trivial h
  | close => exact tear_close_effect (b := .close) trivial (by rintro _ ⟨⟩) (by rintro ⟨⟩) h
  | closing k =>
    exact tear_close_effect (b := .proceed k) trivial (by rintro _ ⟨⟩) (by rintro ⟨⟩) h
  | closed =>
    simp only [step] at h
    split at h
    · next hh => cases h; exact .closed hh.1
    · cases h
  | report state =>
    simp only [step] at h
    split at h
    · cases h
    all_goals
      next hb =>
        split at h
        · cases h; exact .reports (by simp [hb])
        · cases h
  | callback i =>
    obtain ⟨cb, hi, h⟩ := Option.bind_eq_some_iff.1 h
    exact advance_effect hi h
  | wait => cases h; exact .made
  | proceed k =>
    obtain ⟨c, hk, h⟩ := Option.bind_eq_some_iff.1 h
    exact proceed_effect hk h
  | elapse k =>
    simp only [step] at h
    split at h
    · next c hk =>
      split at h
      · cases h; exact .elapses hk
      · cases h
      · cases h
    · cases h
  | timeout k =>
    simp only [step] at h
    split at h
    · next c hk =>
      split at h
      · cases h; exact .answers hk fun hp hran _ => absurd hran hp
      · cases h
    · cases h

/-! ## What the callbacks have done -/

/-- A callback that goes on, and is not done, has not run. -/
theorem ran_setRunning {p : RTCPeerConnectionState → Bool} {i : Nat} {cb : Callback}
    {running : Running} (hi : s.callbacks[i]? = some cb) (hcb : cb.running ≠ .done)
    (hr : running ≠ .done) : (s.setRunning i cb running).Ran p ↔ s.Ran p := by
  refine (Entries.exists_mem_set_iff hi fun h => absurd h.2 hcb).trans ?_
  exact or_iff_left fun h => hr h.2

/-- A callback past its first operation has stored the flag of its state. -/
theorem stored_setRunning {p : RTCPeerConnectionState → Bool} {i : Nat} {cb : Callback}
    {running : Running} (hi : s.callbacks[i]? = some cb) (hr : running ≠ .called) :
    (s.setRunning i cb running).Stored p ↔ s.Stored p ∨ p cb.state = true := by
  refine (Entries.exists_mem_set_iff hi fun h => ⟨h.1, hr⟩).trans (or_congr_right ?_)
  exact and_iff_left hr

/-- A callback that was past its first operation had stored its flag already. -/
theorem stored_setRunning_of_stored {p : RTCPeerConnectionState → Bool} {i : Nat} {cb : Callback}
    {running : Running} (hi : s.callbacks[i]? = some cb) (hr : running ≠ .called)
    (hcb : cb.running = .called → p cb.state = false) :
    (s.setRunning i cb running).Stored p ↔ s.Stored p := by
  refine (stored_setRunning hi hr).trans (or_iff_left_of_imp fun hp => ?_)
  refine ⟨cb, List.mem_of_getElem? hi, hp, fun hcalled => ?_⟩
  rw [hcb hcalled] at hp
  cases hp

/-- A callback that is only called has stored nothing. -/
theorem stored_report {p : RTCPeerConnectionState → Bool} {state : RTCPeerConnectionState} :
    (∃ cb ∈ s.callbacks ++ [(⟨state, .called⟩ : Callback)], p cb.state = true ∧
      cb.running ≠ .called) ↔ s.Stored p := by
  simp [Stored, or_and_right, exists_or]

/-- A callback that is only called has not run. -/
theorem ran_report {p : RTCPeerConnectionState → Bool} {state : RTCPeerConnectionState} :
    (∃ cb ∈ s.callbacks ++ [(⟨state, .called⟩ : Callback)], p cb.state = true ∧
      cb.running = .done) ↔ s.Ran p := by
  simp [Ran, or_and_right, exists_or]

/-- A callback that has run has stored its flag. -/
theorem Ran.stored {p : RTCPeerConnectionState → Bool} (h : s.Ran p) : s.Stored p := by
  obtain ⟨cb, hcb, hp, hr⟩ := h
  exact ⟨cb, hcb, hp, hr ▸ nofun⟩

/-! ## The invariant -/

/-- What a call relies on before a load: no callback for `Connected` has run since it found
`connected` unset. -/
def Safe (s : Connecting Pc) : Load → Prop
  | .connected => True
  | .failed => ¬ s.Ran connects

/-- What a call that is asleep relies on. -/
def Quiet (s : Connecting Pc) : Prop := ¬ s.Ran connects ∧ ¬ s.Ran ends

/-- A call that waits does so on a connection that was built, and relies on what holds. -/
def SoundWait (s : Connecting Pc) (c : Wait) : Prop :=
  ∀ w, c.stage = .waiting w → (∃ pc, s.teardown.built = some (.ok pc)) ∧ w.Sound s.Safe s.Quiet

/-- A call that returned late returned `ok`. -/
def Latched (c : Wait) : Prop := ∀ r, c.stage = .returned r true → r = .ok ()

/-- What carries the results over a run: that of the slot; the flags are what the callbacks stored;
there are callbacks only for a connection; no call is about to find `failed` set after a callback
for `Connected` has run; and what is known of the calls. -/
structure Inv (s : Connecting Pc) : Prop where
  teardown : s.teardown.TeardownInv
  connected : s.state.connected = true ↔ s.Stored connects
  failed : s.state.failed = true ↔ s.Stored ends
  built : s.callbacks ≠ [] → ∀ err, s.teardown.built ≠ some (.error err)
  waiting : ∀ c ∈ s.waits, s.SoundWait c
  between : s.Ran connects → s.state.failed = true → ∀ c ∈ s.waits, ¬ c.BetweenLoads
  latched : ∀ c ∈ s.waits, Latched c

theorem inv_newWith (runtime : Bool) : (newWith runtime : Connecting Pc).Inv where
  teardown := Teardown.teardownInv_newWith runtime
  connected := by simp [newWith, ConnState.new, Stored]
  failed := by simp [newWith, ConnState.new, Stored]
  built h := absurd rfl h
  waiting := nofun
  between _ _ := nofun
  latched := nofun

/-- After a notification no call relies on anything but the build. -/
theorem soundWait_notifyWaiters {t : Connecting Pc} (hw : ∀ c ∈ s.waits, s.SoundWait c)
    (hwaits : t.waits = s.waits) (hb : t.teardown = s.teardown) :
    ∀ c ∈ t.notifyWaiters.waits, t.notifyWaiters.SoundWait c := by
  intro c hc w hw'
  obtain ⟨c, hmem, rfl⟩ := List.mem_map.1 hc
  rw [hwaits] at hmem
  cases hstage : c.stage with
  | waiting w₀ =>
    simp only [hstage, WaitStage.notify, WaitStage.waiting.injEq] at hw'
    obtain ⟨pc, hpc⟩ := (hw c hmem w₀ hstage).1
    exact ⟨⟨pc, by rw [← hpc, ← hb]; rfl⟩, hw' ▸ Waiter.sound_notify w₀⟩
  | building | returned => simp [hstage, WaitStage.notify] at hw'

/-- A notification lets no call return. -/
theorem latched_notifyWaiters {t : Connecting Pc} (hl : ∀ c ∈ s.waits, Latched c)
    (hwaits : t.waits = s.waits) : ∀ c ∈ t.notifyWaiters.waits, Latched c := by
  intro c hc r hr
  obtain ⟨c, hmem, rfl⟩ := List.mem_map.1 hc
  rw [hwaits] at hmem
  cases hstage : c.stage with
  | returned r₀ late =>
    simp only [hstage, WaitStage.notify] at hr
    exact hl c hmem r (hstage.trans hr)
  | building | waiting => simp [hstage, WaitStage.notify] at hr

/-- A notification leaves the calls between their loads where they are. -/
theorem betweenLoads_notify {c : Wait}
    (h : Wait.BetweenLoads { c with stage := c.stage.notify }) : c.BetweenLoads := by
  obtain ⟨woken, hw⟩ := h
  obtain ⟨stage, elapsed⟩ := c
  match stage with
  | .waiting (.checking .failed woken') => exact ⟨woken', rfl⟩
  | .building | .returned _ _ | .waiting .top | .waiting (.created _) | .waiting (.parked _)
  | .waiting (.checking .connected _) => cases hw

/-- A call stays sound while no callback is done and the build stays what it is. -/
theorem SoundWait.mono {t : Connecting Pc} {c : Wait} (h : s.SoundWait c)
    (hb : ∀ pc, s.teardown.built = some (.ok pc) → t.teardown.built = some (.ok pc))
    (hran : ∀ p, t.Ran p ↔ s.Ran p) : t.SoundWait c := by
  intro w hw
  obtain ⟨⟨pc, hpc⟩, hs⟩ := h w hw
  refine ⟨⟨pc, hb pc hpc⟩, hs.mono ?_ ?_⟩
  · intro load
    cases load with
    | connected => exact fun h => h
    | failed => exact fun h hr => h ((hran _).1 hr)
  · exact fun hq => ⟨fun hr => hq.1 ((hran _).1 hr), fun hr => hq.2 ((hran _).1 hr)⟩

/-- A flag that is unset was not stored, so no callback for it has run. -/
theorem not_ran_of_flag {p : RTCPeerConnectionState → Bool} {flag : Bool}
    (hflag : flag = true ↔ s.Stored p) (h : flag = false) : ¬ s.Ran p := by
  intro hran
  rw [hflag.2 hran.stored] at h
  cases h

/-- A call that goes on is sound where it gets to. -/
theorem Inv.soundWait_goes (hi : s.Inv) {k : Nat} {c : Wait} {w : Waiter Load}
    (hk : s.waits[k]? = some c)
    (hbuilt : c.stage = .building → ∃ pc, s.teardown.built = some (.ok pc))
    (hpending : ∀ r late, c.stage ≠ .returned r late)
    (hconnected : ∀ woken, w = .checking .failed woken → s.state.connected = false)
    (hparked : ∀ woken, w = .parked woken → c.stage = .waiting (.checking .failed woken) ∧
      s.state.failed = false) :
    s.SoundWait { c with stage := .waiting w } := by
  rintro _ ⟨⟩
  have hc : s.SoundWait c := hi.waiting c (List.mem_of_getElem? hk)
  refine ⟨?_, ?_⟩
  · cases hstage : c.stage with
    | building => exact hbuilt hstage
    | waiting w₀ => exact (hc w₀ hstage).1
    | returned r late => exact absurd hstage (hpending r late)
  · match w with
    | .top | .created _ | .checking .connected true | .checking .connected false => trivial
    | .checking .failed woken =>
      refine Waiter.sound_checking fun _ => ?_
      exact not_ran_of_flag hi.connected (hconnected woken rfl)
    | .parked woken =>
      obtain ⟨hstage, hfailed⟩ := hparked woken rfl
      refine Waiter.sound_parked fun hwoken => ?_
      subst hwoken
      exact ⟨(hc _ hstage).2, not_ran_of_flag hi.failed hfailed⟩

/-- No call is between its loads as a callback ends, once one for `Connected` has run. -/
theorem Inv.between_finishes (hi : s.Inv) {i : Nat} {cb : Callback}
    (hdone : connects cb.state = true → s.state.failed = true → ∀ c ∈ s.waits, ¬ c.BetweenLoads) :
    (s.setRunning i cb .done).notifyWaiters.Ran connects →
      (s.setRunning i cb .done).notifyWaiters.state.failed = true →
      ∀ c ∈ (s.setRunning i cb .done).notifyWaiters.waits, ¬ c.BetweenLoads := by
  intro hr hfailed c hc hbetween
  obtain ⟨c, hmem, rfl⟩ := List.mem_map.1 hc
  refine absurd (betweenLoads_notify hbetween) ?_
  -- the callback that is done now is for `Connected`, or one that has run before is
  rcases hconn : connects cb.state with _ | _
  · refine hi.between ?_ hfailed c hmem
    obtain ⟨cb', hcb', hp, hd⟩ := hr
    rcases List.mem_or_eq_of_mem_set hcb' with hold | rfl
    · exact ⟨cb', hold, hp, hd⟩
    · rw [hconn] at hp
      cases hp
  · exact hdone hconn hfailed c hmem

/-- A step that keeps the promises keeps the invariant. -/
theorem Inv.step (hi : s.Inv) (hC : s.Prompt a) (h : s.step a = some s') : s'.Inv := by
  cases step_effect h with
  | @tears _ b t hb horderly herr =>
    refine ⟨hi.teardown.step (horderly hC) hb, hi.connected, hi.failed, ?_, ?_, hi.between,
      hi.latched⟩
    · intro hcb err hbuilt
      by_cases heq : s.teardown.built = t.built
      · exact hi.built hcb err (heq.trans hbuilt)
      · exact hcb (herr err hbuilt heq)
    · refine fun c hc => (hi.waiting c hc).mono (fun pc hpc => ?_) fun _ => Iff.rfl
      exact Teardown.step_built_some hb hpc
  | closed =>
    exact ⟨hi.teardown, hi.connected, hi.failed, hi.built, hi.waiting, hi.between, hi.latched⟩
  | @reports state hb =>
    refine ⟨hi.teardown, hi.connected.trans stored_report.symm,
      hi.failed.trans stored_report.symm, fun _ => hb, fun c hc => ?_,
      fun hran => hi.between (ran_report.1 hran), hi.latched⟩
    exact (hi.waiting c hc).mono (fun _ h => h) fun _ => ran_report
  | @stores i cb connected failed hi' hcb hc hf =>
    have hran : ∀ p, (s.setRunning i cb .stored).Ran p ↔ s.Ran p := fun p =>
      ran_setRunning hi' (by rw [hcb]; nofun) nofun
    have hstored : ∀ p, (s.setRunning i cb .stored).Stored p ↔ s.Stored p ∨ p cb.state = true :=
      fun p => stored_setRunning hi' nofun
    refine ⟨hi.teardown, ?_, ?_, fun _ => hi.built (List.ne_nil_of_mem (List.mem_of_getElem? hi')),
      fun c hc => (hi.waiting c hc).mono (fun _ h => h) hran, fun hr hfailed => ?_, hi.latched⟩
    · rw [hc, Bool.or_eq_true, hi.connected]
      exact (hstored connects).symm
    · rw [hf, Bool.or_eq_true, hi.failed]
      exact (hstored ends).symm
    · have hr : s.Ran connects := (hran connects).1 hr
      have hfailed : failed = true := hfailed
      rw [hf, Bool.or_eq_true] at hfailed
      rcases hfailed with hset | hends
      · exact hi.between hr hset
      · exact hC cb hi' (.inr ⟨hends, hcb, hr⟩)
  | @relays i cb running b t hi' hcb hr hb horderly hbuilt =>
    have hnd : cb.running ≠ .done := by rcases hcb with h | h <;> rw [h] <;> nofun
    have hnc : cb.running ≠ .called := by rcases hcb with h | h <;> rw [h] <;> nofun
    have hnr : running ≠ .done ∧ running ≠ .called := by
      rcases hr with rfl | rfl <;> exact ⟨nofun, nofun⟩
    have hstored : ∀ p, (s.setRunning i cb running).Stored p ↔ s.Stored p := fun p =>
      stored_setRunning_of_stored hi' hnr.2 fun h => absurd h hnc
    refine ⟨hi.teardown.step horderly hb, hi.connected.trans (hstored _).symm,
      hi.failed.trans (hstored _).symm, ?_, ?_,
      fun hr => hi.between ((ran_setRunning hi' hnd hnr.1).1 hr), hi.latched⟩
    · intro _ err
      rw [hbuilt]
      exact hi.built (List.ne_nil_of_mem (List.mem_of_getElem? hi')) err
    · refine fun c hc => (hi.waiting c hc).mono (fun pc hpc => hbuilt.trans hpc) fun p => ?_
      exact ran_setRunning hi' hnd hnr.1
  | @finishes i cb hi' hcb =>
    have hstored : ∀ p, (cb.running = .called → p cb.state = false) →
        ((s.setRunning i cb .done).Stored p ↔ s.Stored p) :=
      fun p hp => stored_setRunning_of_stored hi' nofun hp
    refine ⟨hi.teardown, ?_, ?_, fun _ => hi.built (List.ne_nil_of_mem (List.mem_of_getElem? hi')),
      soundWait_notifyWaiters hi.waiting rfl rfl, hi.between_finishes fun hconn hfailed => ?_,
      latched_notifyWaiters hi.latched rfl⟩
    · exact hi.connected.trans (hstored connects fun h => (hcb h).1).symm
    · exact hi.failed.trans (hstored ends fun h => (hcb h).2).symm
    · refine hC cb hi' (.inl ⟨hconn, fun hcalled => ?_, hfailed⟩)
      rw [(hcb hcalled).1] at hconn
      cases hconn
  | made =>
    exact ⟨hi.teardown, hi.connected, hi.failed, hi.built,
      Entries.forall_mem_append hi.waiting nofun,
      fun hr hf => Entries.forall_mem_append (hi.between hr hf) nofun,
      Entries.forall_mem_append hi.latched nofun⟩
  | goes hk hbuilt hpending hconnected hparked =>
    refine ⟨hi.teardown, hi.connected, hi.failed, hi.built,
      Entries.forall_mem_set hi.waiting
        (hi.soundWait_goes hk hbuilt hpending hconnected hparked),
      fun hr hf => Entries.forall_mem_set (hi.between hr hf) ?_,
      Entries.forall_mem_set hi.latched nofun⟩
    rintro ⟨woken, ⟨⟩⟩
    exact not_ran_of_flag hi.connected (hconnected woken rfl) hr
  | @answers _ k c r hk hr =>
    refine ⟨hi.teardown, hi.connected, hi.failed, hi.built,
      Entries.forall_mem_set hi.waiting nofun,
      fun hran hf => Entries.forall_mem_set (hi.between hran hf) nofun,
      Entries.forall_mem_set hi.latched ?_⟩
    intro r' hr'
    injection hr' with hrr hlate
    have hran : s.Ran connects := of_decide_eq_true hlate
    by_contra hne
    obtain ⟨err, herr⟩ | ⟨hbetween, hfailed⟩ := hr hC hran fun h => hne (hrr ▸ h)
    · obtain ⟨cb, hcb, -⟩ := hran
      exact hi.built (List.ne_nil_of_mem hcb) err herr
    · exact hi.between hran hfailed c (List.mem_of_getElem? hk) hbetween
  | @elapses k c hk =>
    have hmem : c ∈ s.waits := List.mem_of_getElem? hk
    exact ⟨hi.teardown, hi.connected, hi.failed, hi.built,
      Entries.forall_mem_set hi.waiting (hi.waiting c hmem),
      fun hr hf => Entries.forall_mem_set (hi.between hr hf) (hi.between hr hf c hmem),
      Entries.forall_mem_set hi.latched (hi.latched c hmem)⟩

/-! ## A call that goes on alone -/

/-- The call `k` returns `r` when it goes on and nothing else happens. -/
def Reaches (s : Connecting Pc) (k : Nat) (r : Except WebrtcError Unit) : Prop :=
  ∃ n t c late, Runs.run step s (List.replicate n (.proceed k)) = some t ∧
    t.waits[k]? = some c ∧ c.stage = .returned r late

section
variable {k : Nat} {c : Wait} {r : Except WebrtcError Unit}

theorem step_proceed (hk : s.waits[k]? = some c) : s.step (.proceed k) = s.proceed k c := by
  show (s.waits[k]?).bind (s.proceed k) = _
  rw [hk, Option.bind_some]

theorem getElem?_setStage (hk : s.waits[k]? = some c) (stage : WaitStage) :
    (s.setStage k c stage).waits[k]? = some { c with stage } :=
  List.getElem?_set_self (List.getElem?_eq_some_iff.1 hk).1

/-- A call that reaches its return after one operation reaches it. -/
theorem Reaches.proceed (hk : s.waits[k]? = some c) (hs : s.proceed k c = some s')
    (h : s'.Reaches k r) : s.Reaches k r := by
  obtain ⟨n, t, c', late, hrun, ht, hr⟩ := h
  refine ⟨n + 1, t, c', late, ?_, ht, hr⟩
  exact Runs.run_cons_eq_some.2 ⟨s', (step_proceed hk).trans hs, hrun⟩

/-- A call that returns has returned. -/
theorem reaches_returns (hk : s.waits[k]? = some c) : (s.returns k c r).Reaches k r :=
  ⟨0, _, _, _, rfl, getElem?_setStage hk _, rfl⟩

/-- A call before its first load returns the verdict of its turn. -/
theorem reaches_checking (hk : s.waits[k]? = some c) {woken : Bool}
    (hstage : c.stage = .waiting (.checking .connected woken))
    (hr : waitConnected s.state = some r) : s.Reaches k r := by
  unfold waitConnected at hr
  split at hr
  · next hconn =>
    cases hr
    exact .proceed hk (by rw [proceed, hstage]; exact if_pos hconn) (reaches_returns hk)
  · next hconn =>
    split at hr
    · next hfailed =>
      cases hr
      refine .proceed hk (by rw [proceed, hstage]; exact if_neg hconn) ?_
      exact .proceed (getElem?_setStage hk _) (if_pos hfailed)
        (reaches_returns (getElem?_setStage hk _))
    · cases hr

/-- A call that has created its waiter returns the verdict of its turn. -/
theorem reaches_created (hk : s.waits[k]? = some c) {woken : Bool}
    (hstage : c.stage = .waiting (.created woken)) (hr : waitConnected s.state = some r) :
    s.Reaches k r :=
  .proceed hk (by rw [proceed, hstage]; rfl) (reaches_checking (getElem?_setStage hk _) rfl hr)

/-- A call at the top of its loop returns the verdict of the turn. -/
theorem reaches_top (hk : s.waits[k]? = some c) (hstage : c.stage = .waiting .top)
    (hr : waitConnected s.state = some r) : s.Reaches k r :=
  .proceed hk (by rw [proceed, hstage]; rfl) (reaches_created (getElem?_setStage hk _) rfl hr)

/-- A call that was woken returns the verdict of its next turn. -/
theorem reaches_parked (hk : s.waits[k]? = some c) (hstage : c.stage = .waiting (.parked true))
    (hr : waitConnected s.state = some r) : s.Reaches k r :=
  .proceed hk (by rw [proceed, hstage]; rfl) (reaches_top (getElem?_setStage hk _) rfl hr)

/-- A pending call returns the verdict of the flags, unless it sleeps and was not woken, or is
between its loads and has seen, or will see, something else. -/
theorem reaches_verdict (hk : s.waits[k]? = some c) (hr : waitConnected s.state = some r) {pc : Pc}
    (hb : s.teardown.built = some (.ok pc)) (hpending : ∀ r late, c.stage ≠ .returned r late)
    (hparked : c.stage ≠ .waiting (.parked false))
    (hmid : ∀ woken, c.stage = .waiting (.checking .failed woken) →
      if s.state.failed then r = .error .closed else woken = true) : s.Reaches k r := by
  cases hstage : c.stage with
  | building =>
    have hs : s.proceed k c = some (s.setStage k c (.waiting .top)) := by
      rw [proceed, hstage]
      simp only [hb]
    exact .proceed hk hs (reaches_top (getElem?_setStage hk _) rfl hr)
  | waiting w =>
    match w with
    | .top => exact reaches_top hk hstage hr
    | .created _ => exact reaches_created hk hstage hr
    | .checking .connected _ => exact reaches_checking hk hstage hr
    | .parked true => exact reaches_parked hk hstage hr
    | .parked false => exact absurd hstage hparked
    | .checking .failed woken =>
      have hwoken := hmid woken hstage
      split at hwoken
      · next hfailed =>
        subst hwoken
        exact .proceed hk (by rw [proceed, hstage]; exact if_pos hfailed) (reaches_returns hk)
      · next hfailed =>
        subst hwoken
        exact .proceed hk (by rw [proceed, hstage]; exact if_neg hfailed)
          (reaches_parked (getElem?_setStage hk _) rfl hr)
  | returned r late => exact absurd hstage (hpending r late)

end

/-! ## The promises -/

/-- A call that has not returned. -/
def Pending (c : Wait) : Prop := ∀ r late, c.stage ≠ .returned r late

/-- A callback for a state of the kind `p` has stored its flag and has yet to notify. -/
def Due (s : Connecting Pc) (p : RTCPeerConnectionState → Bool) : Prop :=
  ∃ cb ∈ s.callbacks, p cb.state = true ∧ cb.running ≠ .called ∧ cb.running ≠ .done

/-- `close` has been called, the connection has never been connected, and neither the build, nor a
`close`, nor a callback has a step left: what was handed over is closed and reported. -/
structure Over (s : Connecting Pc) : Prop where
  called : s.teardown.calls ≠ []
  never : ∀ cb ∈ s.callbacks, connects cb.state = false
  built : s.teardown.built ≠ none
  returned : ∀ c ∈ s.teardown.calls, c = .returned
  closed : s.teardown.handedOver ≠ [] → s.pcClosed = true
  reported : s.pcClosed = true → ∃ cb ∈ s.callbacks, cb.state = .closed
  done : ∀ cb ∈ s.callbacks, cb.running = .done

/-- What `wait_connected` promises. Once a callback for `Connected` has run, every call that returns
returns `ok`, and on a connection that was built a pending one does when it goes on. A call that
sleeps with a flag set has been woken, or is by the callback that set it. And when all is over no
call sleeps, but returns `Closed` when it goes on. -/
structure Kept (s : Connecting Pc) : Prop where
  latched : ∀ c ∈ s.waits, Latched c
  answers : s.Ran connects → s.teardown.built ≠ none → ∀ k c, s.waits[k]? = some c → Pending c →
    s.Reaches k (.ok ())
  woken : ∀ c ∈ s.waits, c.stage = .waiting (.parked false) →
    (s.state.connected = true → s.Due connects) ∧ (s.state.failed = true → s.Due ends)
  closed : s.Over → ∀ k c, s.waits[k]? = some c → Pending c →
    c.stage ≠ .waiting (.parked false) ∧
      ∀ pc, s.teardown.built = some (.ok pc) → s.Reaches k (.error .closed)

/-- A flag that was stored, by a callback none of which has run, is about to be notified. -/
theorem Stored.due {p : RTCPeerConnectionState → Bool} (h : s.Stored p) (hr : ¬ s.Ran p) :
    s.Due p := by
  obtain ⟨cb, hcb, hp, hs⟩ := h
  exact ⟨cb, hcb, hp, hs, fun hd => hr ⟨cb, hcb, hp, hd⟩⟩

/-- A call asleep and not woken relies on no callback having run. -/
theorem Inv.quiet (hi : s.Inv) {c : Wait} (hc : c ∈ s.waits)
    (hstage : c.stage = .waiting (.parked false)) : s.Quiet :=
  (hi.waiting c hc _ hstage).2

/-- After a callback for `Connected` a pending call returns `ok`. -/
theorem Inv.answers (hi : s.Inv) (hran : s.Ran connects) (hb : s.teardown.built ≠ none) {k : Nat}
    {c : Wait} (hk : s.waits[k]? = some c) (hpending : Pending c) : s.Reaches k (.ok ()) := by
  have hmem : c ∈ s.waits := List.mem_of_getElem? hk
  have hverdict : waitConnected s.state = some (.ok ()) := if_pos (hi.connected.2 hran.stored)
  obtain ⟨pc, hpc⟩ : ∃ pc, s.teardown.built = some (.ok pc) := by
    obtain ⟨cb, hcb, -⟩ := hran
    match hbuilt : s.teardown.built with
    | none => exact absurd hbuilt hb
    | some (.ok pc) => exact ⟨pc, rfl⟩
    | some (.error err) => exact absurd hbuilt (hi.built (List.ne_nil_of_mem hcb) err)
  refine reaches_verdict hk hverdict hpc hpending (fun hp => (hi.quiet hmem hp).1 hran) ?_
  intro woken hstage
  rw [if_neg fun hfailed => hi.between hran hfailed c hmem ⟨woken, hstage⟩]
  cases woken with
  | true => rfl
  | false => exact absurd hran (hi.waiting c hmem _ hstage).2

/-- When all is over, a connection that was built has reported its end. -/
theorem Inv.ended (hi : s.Inv) (ho : s.Over) {pc : Pc} (hb : s.teardown.built = some (.ok pc)) :
    s.Ran ends := by
  obtain ⟨c, hc⟩ := List.exists_mem_of_ne_nil _ ho.called
  have hended : s.teardown.Ended := .inl (ho.returned c hc ▸ hc)
  have hh : s.teardown.handedOver = [(pc, true)] := hi.teardown.tornDown pc hb hended
  obtain ⟨cb, hcb, hstate⟩ := ho.reported (ho.closed (hh ▸ List.cons_ne_nil _ _))
  exact ⟨cb, hcb, by rw [hstate]; rfl, ho.done cb hcb⟩

/-- When all is over no pending call sleeps, and on a connection that was built it returns
`Closed`. -/
theorem Inv.closed (hi : s.Inv) (ho : s.Over) {k : Nat} {c : Wait} (hk : s.waits[k]? = some c)
    (hpending : Pending c) : c.stage ≠ .waiting (.parked false) ∧
      ∀ pc, s.teardown.built = some (.ok pc) → s.Reaches k (.error .closed) := by
  have hmem : c ∈ s.waits := List.mem_of_getElem? hk
  have hparked : c.stage ≠ .waiting (.parked false) := by
    intro hp
    obtain ⟨pc, hb⟩ := (hi.waiting c hmem _ hp).1
    exact (hi.quiet hmem hp).2 (hi.ended ho hb)
  refine ⟨hparked, fun pc hb => ?_⟩
  have hfailed : s.state.failed = true := hi.failed.2 (hi.ended ho hb).stored
  have hconnected : ¬ s.state.connected = true := by
    intro hc
    obtain ⟨cb, hcb, hstate, -⟩ := hi.connected.1 hc
    rw [ho.never cb hcb] at hstate
    cases hstate
  have hverdict : waitConnected s.state = some (.error .closed) := by
    rw [waitConnected, if_neg hconnected, if_pos hfailed]
  refine reaches_verdict hk hverdict hb hpending hparked fun _ _ => ?_
  rw [if_pos hfailed]

/-- The invariant gives the promises. -/
theorem Inv.kept (hi : s.Inv) : s.Kept where
  latched := hi.latched
  answers hran hb _ _ hk hpending := hi.answers hran hb hk hpending
  woken c hc hp := by
    obtain ⟨hconnects, hends⟩ := hi.quiet hc hp
    exact ⟨fun h => (hi.connected.1 h).due hconnects, fun h => (hi.failed.1 h).due hends⟩
  closed ho _ _ hk hpending := hi.closed ho hk hpending

end

/-- **What `wait_connected` keeps.** In every run whose steps are all prompt, every state keeps the
promises. -/
theorem wait_connected_kept {runtime : Bool} {as : List (ConnectingAct Pc)}
    (h : Runs.Meets step Prompt (newWith runtime) as) :
    Runs.Along step Kept (newWith runtime) as :=
  Runs.along_of_meets (fun _ hi => hi.kept) (fun _ _ _ hi hC hs => hi.step hC hs)
    (inv_newWith runtime) h

/-- A call sleeps, the connection is closed and reports it; another connects, fails, and is waited
for again. -/
theorem wait_connected_kept_of_closed :
    Runs.Along step Kept (newWith true : Connecting Nat)
      [.build (.ok 7), .wait, .proceed 0, .proceed 0, .proceed 0, .proceed 0, .proceed 0, .close,
        .closing 0, .closing 0, .closing 0, .closed, .report .closed, .callback 0, .callback 0,
        .callback 0, .callback 0] ∧
    Runs.Along step Kept (newWith true : Connecting Nat)
      [.build (.ok 7), .report .connected, .callback 0, .callback 0, .report .failed, .callback 1,
        .callback 1, .callback 1, .callback 1, .wait] := by
  refine ⟨wait_connected_kept ?_, wait_connected_kept ?_⟩
  · refine (Runs.meets_cons rfl).2 ⟨show ¬ Teardown.Ended _ by decide, ?_⟩
    refine (Runs.meets_cons rfl).2 ⟨trivial, ?_⟩
    iterate 11 refine (Runs.meets_cons rfl).2 ⟨trivial, ?_⟩
    -- the call sleeps while the callback for `Closed` runs
    have hasleep : ∀ w : Waiter Load, (∀ woken, w ≠ .checking .failed woken) →
        ∀ c ∈ [(⟨.waiting w, false⟩ : Wait)], ¬ c.BetweenLoads := by
      rintro w hw c hc ⟨woken, hstage⟩
      rw [List.mem_singleton.1 hc] at hstage
      exact hw woken (WaitStage.waiting.inj hstage)
    iterate 4 refine (Runs.meets_cons rfl).2 ⟨fun _ _ _ => hasleep _ nofun, ?_⟩
    trivial
  · refine (Runs.meets_cons rfl).2 ⟨show ¬ Teardown.Ended _ by decide, ?_⟩
    refine (Runs.meets_cons rfl).2 ⟨trivial, ?_⟩
    iterate 2 refine (Runs.meets_cons rfl).2 ⟨fun _ _ _ => nofun, ?_⟩
    refine (Runs.meets_cons rfl).2 ⟨trivial, ?_⟩
    iterate 4 refine (Runs.meets_cons rfl).2 ⟨fun _ _ _ => nofun, ?_⟩
    exact (Runs.meets_cons rfl).2 ⟨trivial, trivial⟩

/-- Closed before its build ends, a connection is waited for until the deadline. A call between its
loads, when the connection connects and then fails, returns `Closed`, and one whose deadline has
passed returns `TimedOut` after it has been woken for `Connected`. -/
theorem wait_connected_broken :
    (∃ s : Connecting Nat,
      Runs.run step (newWith true)
        [.close, .closing 0, .closing 0, .closing 0, .build (.ok 7), .wait, .proceed 0, .proceed 0,
          .proceed 0, .proceed 0, .proceed 0] = some s ∧
      s.Over ∧ s.waits = [⟨.waiting (.parked false), false⟩] ∧ ¬ s.Kept) ∧
    (∃ s : Connecting Nat,
      Runs.run step (newWith true)
        [.build (.ok 7), .wait, .proceed 0, .proceed 0, .proceed 0, .proceed 0, .report .connected,
          .callback 0, .callback 0, .report .failed, .callback 1, .callback 1, .callback 1,
          .callback 1, .proceed 0] = some s ∧
      s.waits = [⟨.returned (.error .closed) true, false⟩] ∧ ¬ s.Kept) ∧
    ∃ s : Connecting Nat,
      Runs.run step (newWith true)
        [.build (.ok 7), .wait, .proceed 0, .proceed 0, .proceed 0, .proceed 0, .proceed 0,
          .elapse 0, .report .connected, .callback 0, .callback 0, .timeout 0] = some s ∧
      s.waits = [⟨.returned (.error .timedOut) true, true⟩] ∧ ¬ s.Kept := by
  refine ⟨⟨_, rfl, ?_, rfl, ?_⟩, ⟨_, rfl, rfl, ?_⟩, ⟨_, rfl, rfl, ?_⟩⟩
  · exact ⟨nofun, nofun, nofun, by decide, nofun, nofun, nofun⟩
  · intro hk
    refine (hk.closed ⟨nofun, nofun, nofun, by decide, nofun, nofun, nofun⟩ 0 _ rfl nofun).1 rfl
  · exact fun hk => nomatch hk.latched _ (List.mem_singleton_self _) _ rfl
  · exact fun hk => nomatch hk.latched _ (List.mem_singleton_self _) _ rfl

end Connecting

end WebrtcDatachannels.Host
