import WebrtcDatachannels.Lib.Entries
import WebrtcDatachannels.Lib.Runs
import WebrtcDatachannels.Wit

/-!
# Waiting for a connection of the browser-first host

`jco-impl/webrtc.js`. `waitConnected` looks at the two states that the `RTCPeerConnection` shows,
and looks again at each event that announces a change of one, until its timer fires. It keeps
nothing between calls, so what a call finds is what holds as it looks, not what has ever held; a
`close` changes both states without an event; and a connection that failed rejects with
`timed-out`. What `webrtc.wit` says of a wait is kept along exactly the runs in which this does not
matter (`Connecting.wait_connected_iff`). The conformance adapter has the same function.
-/

namespace WebrtcDatachannels.Jco

/-- `RTCPeerConnection.connectionState`. -/
inductive ConnectionState where
  | new
  | connecting
  | connected
  | disconnected
  | failed
  | closed
deriving DecidableEq, Repr

/-- `RTCPeerConnection.iceConnectionState`. -/
inductive IceConnectionState where
  | new
  | checking
  | connected
  | completed
  | disconnected
  | failed
  | closed
deriving DecidableEq, Repr

/-- What the `RTCPeerConnection` shows of its state. -/
structure Shown where
  connectionState : ConnectionState
  iceConnectionState : IceConnectionState
deriving DecidableEq, Repr

namespace Shown

/-- Source: `isConnected` in `waitConnected`. -/
def isConnected (s : Shown) : Bool :=
  s.connectionState = .connected ||
    s.iceConnectionState = .connected ||
    s.iceConnectionState = .completed

/-- Source: `isFailed` in `waitConnected`. -/
def isFailed (s : Shown) : Bool :=
  s.connectionState = .failed || s.iceConnectionState = .failed

/-- A connection that shows this has failed or is closed. -/
def isOver (s : Shown) : Bool :=
  s.isFailed || s.connectionState = .closed || s.iceConnectionState = .closed

end Shown

/-- What a connection has ever been: connected, and failed or closed. -/
structure Past where
  connected : Bool
  ended : Bool
deriving DecidableEq, Repr

/-- The past of a connection that shows a state more. -/
def Past.add (p : Past) (shown : Shown) : Past :=
  { connected := p.connected || shown.isConnected, ended := p.ended || shown.isOver }

/-- A call of `waitConnected`: its timer runs and it listens, or it is settled, with what the
connection had been by then. -/
inductive WaitConnected where
  | pending
  | settled (result : Except Error Unit) (past : Past)
deriving DecidableEq

/-- A call, and whether its time limit has elapsed while it was pending. -/
structure Wait where
  call : WaitConnected
  elapsed : Bool
deriving DecidableEq

/-- A connection with its calls of `waitConnected`. -/
structure Connecting where
  shown : Shown
  past : Past
  calls : List Wait

/-- The connection changes its states and fires the events for that; the guest closes it; it waits;
the timer of a call fires. -/
inductive ConnectingAct where
  | change (shown : Shown)
  | close
  | wait
  | timer (k : Nat)

namespace Connecting

/-- A new connection. -/
def new : Connecting :=
  { shown := { connectionState := .new, iceConnectionState := .new }
    past := { connected := false, ended := false }
    calls := [] }

/-- The listener of a call. Source: `check` in `waitConnected`. -/
def check (shown : Shown) (past : Past) : WaitConnected → WaitConnected
  | .pending =>
    if shown.isConnected then .settled (.ok ()) past
    else if shown.isFailed then .settled (.error .timedOut) past
    else .pending
  | .settled result past => .settled result past

/-- One step. A closed connection changes no more. -/
def step (s : Connecting) : ConnectingAct → Option Connecting
  | .change shown =>
    if s.shown.connectionState = .closed then none
    else
      some
        { shown
          past := s.past.add shown
          calls := s.calls.map fun c => { c with call := check shown (s.past.add shown) c.call } }
  | .close =>
    let shown : Shown := { connectionState := .closed, iceConnectionState := .closed }
    some { s with shown, past := s.past.add shown }
  | .wait =>
    let call := if s.shown.isConnected then .settled (.ok ()) s.past else .pending
    some { s with calls := s.calls ++ [{ call, elapsed := false }] }
  | .timer k =>
    match s.calls[k]? with
    | some { call := .pending, .. } =>
      let call : WaitConnected := .settled (.error .timedOut) s.past
      some { s with calls := s.calls.set k { call, elapsed := true } }
    | some { call := .settled _ _, .. } | none => none

/-- What a call is settled with, by what the connection has ever been. -/
def verdict (past : Past) : Except Error Unit :=
  if past.connected then .ok ()
  else if past.ended then .error .closed
  else .error .timedOut

/-- What `webrtc.wit` says of one call: it is pending only while the connection has been neither
connected nor over, and its time limit has not elapsed; it is settled with the verdict; and it has
timed out only if the limit has elapsed. -/
def Answers (s : Connecting) (c : Wait) : Prop :=
  match c.call with
  | .pending => s.past.connected = false ∧ s.past.ended = false ∧ c.elapsed = false
  | .settled result past => result = verdict past ∧ (result = .error .timedOut → c.elapsed = true)

/-- What it says of all calls. -/
def Answered (s : Connecting) : Prop := ∀ c ∈ s.calls, s.Answers c

/-- A step at which it does not matter what a call keeps: no call is pending as the connection fails
or is closed without being connected; and none is made on a connection that is not connected and has
been, or is over. -/
def Current (s : Connecting) : ConnectingAct → Prop
  | .change shown =>
    shown.isConnected = false → shown.isOver = true → ∀ c ∈ s.calls, c.call ≠ .pending
  | .close => ∀ c ∈ s.calls, c.call ≠ .pending
  | .wait => s.shown.isConnected = false → s.past.connected = false ∧ s.past.ended = false
  | .timer _ => True

variable {s s' : Connecting} {a : ConnectingAct}

/-- What carries the result over a run: the calls are answered, and a connection that shows that it
is connected has been. -/
structure Inv (s : Connecting) : Prop where
  answered : s.Answered
  connected : s.shown.isConnected = true → s.past.connected = true

theorem inv_new : new.Inv where
  answered := nofun
  connected := nofun

/-- A pending call is answered while the connection has been neither connected nor over. -/
theorem Answers.pending {c : Wait} (h : s.Answers c) (hc : c.call = .pending) :
    s.past.connected = false ∧ s.past.ended = false ∧ c.elapsed = false := by
  unfold Answers at h
  rw [hc] at h
  exact h

/-- A call that is settled is answered whatever comes. -/
theorem Answers.settled {t : Connecting} {c : Wait} (h : s.Answers c) (hc : c.call ≠ .pending) :
    t.Answers c := by
  unfold Answers at h ⊢
  cases hcall : c.call with
  | pending => exact absurd hcall hc
  | settled result past => rw [hcall] at h; exact h

/-- Without a pending call every call stays answered. -/
theorem Answered.of_not_pending (h : s.Answered) {t : Connecting} (hc : t.calls = s.calls)
    (hp : ∀ c ∈ s.calls, c.call ≠ .pending) : t.Answered := by
  intro c hmem
  rw [hc] at hmem
  exact (h c hmem).settled (hp c hmem)

/-- A pending call that looks at a change is answered, unless the connection is over. -/
theorem Answers.check {c : Wait} {shown : Shown} (h : s.Answers c) (hc : c.call = .pending)
    (hover : shown.isConnected = false → shown.isOver = false) {t : Connecting}
    (ht : t.past = s.past.add shown) :
    t.Answers { c with call := Connecting.check shown (s.past.add shown) c.call } := by
  obtain ⟨hpast, hended, helapsed⟩ := h.pending hc
  rw [hc]
  cases hconn : shown.isConnected with
  | true =>
    have hcheck : Connecting.check shown (s.past.add shown) .pending =
        .settled (.ok ()) (s.past.add shown) := if_pos hconn
    rw [hcheck]
    exact ⟨by simp [verdict, Past.add, hconn], nofun⟩
  | false =>
    have hnot := hover hconn
    have hfailed : ¬ shown.isFailed = true := by
      intro hf
      rw [Shown.isOver, hf] at hnot
      cases hnot
    have hcheck : Connecting.check shown (s.past.add shown) .pending = .pending := by
      simp [Connecting.check, hconn, hfailed]
    rw [hcheck]
    show t.past.connected = false ∧ t.past.ended = false ∧ c.elapsed = false
    rw [ht]
    exact ⟨by simp [Past.add, hpast, hconn], by simp [Past.add, hended, hnot], helapsed⟩

/-- A step at which it does not matter what a call keeps keeps the invariant. -/
theorem Inv.step (hi : s.Inv) (hC : s.Current a) (h : s.step a = some s') : s'.Inv := by
  cases a with
  | change shown =>
    simp only [Connecting.step] at h
    split at h
    · cases h
    cases h
    refine ⟨fun c hc => ?_, fun hconn => Bool.or_eq_true_iff.2 (.inr hconn)⟩
    obtain ⟨c, hmem, rfl⟩ := List.mem_map.1 hc
    have hans := hi.answered c hmem
    by_cases hcall : c.call = .pending
    · refine hans.check hcall (fun hconn => ?_) rfl
      rw [← Bool.not_eq_true]
      exact fun ho => hC hconn ho c hmem hcall
    · obtain ⟨call, elapsed⟩ := c
      cases call with
      | pending => exact absurd rfl hcall
      | settled result past => exact hans.settled hcall
  | close =>
    cases h
    exact ⟨hi.answered.of_not_pending rfl hC, nofun⟩
  | wait =>
    cases h
    refine ⟨Entries.forall_mem_append (P := s.Answers) hi.answered ?_, hi.connected⟩
    cases hconn : s.shown.isConnected with
    | true => exact ⟨by simp [verdict, hi.connected hconn], nofun⟩
    | false => exact ⟨(hC hconn).1, (hC hconn).2, rfl⟩
  | timer k =>
    simp only [Connecting.step] at h
    split at h
    · next hk =>
      cases h
      obtain ⟨hpast, hover, -⟩ := (hi.answered _ (List.mem_of_getElem? hk)).pending rfl
      refine ⟨Entries.forall_mem_set (P := s.Answers) hi.answered ?_, hi.connected⟩
      exact ⟨by simp [verdict, hpast, hover], fun _ => rfl⟩
    · cases h
    · cases h

/-- A step at which it matters what a call keeps leaves a call without its answer. -/
theorem not_answered_step (hi : s.Inv) (hC : ¬ s.Current a) (h : s.step a = some s') :
    ¬ s'.Answered := by
  intro ha
  cases a with
  | change shown =>
    simp only [Connecting.step] at h
    split at h
    · cases h
    cases h
    refine hC fun hconn hover c hmem hcall => ?_
    obtain ⟨hpast, -, -⟩ := (hi.answered c hmem).pending hcall
    have hans := ha _ (List.mem_map_of_mem hmem)
    simp only [Answers, check, hcall, hconn] at hans
    by_cases hf : shown.isFailed = true
    · simp [hf, verdict, Past.add, hpast, hconn, hover] at hans
    · simp [hf, Past.add, hover] at hans
  | close =>
    cases h
    refine hC fun c hmem hcall => ?_
    obtain ⟨-, hended, -⟩ := (ha c hmem).pending hcall
    simp [Past.add, Shown.isOver] at hended
  | wait =>
    cases h
    refine hC fun hconn => ?_
    have hans := ha _ (List.mem_append_right _ (List.mem_singleton_self _))
    rw [hconn] at hans
    exact ⟨hans.1, hans.2.1⟩
  | timer k => exact hC trivial

/-- **When a wait is answered.** Along every run, in every state a call is pending only while the
connection has been neither connected nor over, one that was settled on a connection that has been
connected resolved, and of the others it rejected with `closed` if the connection has failed or been
closed and with `timed-out` if its timer fired before, and only then, exactly when no call is
pending as the connection fails or is closed, and none is made on a connection that was connected,
or is over, and is not connected now. -/
theorem wait_connected_iff {as : List ConnectingAct} {s : Connecting}
    (h : Runs.run step new as = some s) :
    Runs.Along step Answered new as ↔ Runs.Meets step Current new as :=
  Runs.along_iff_meets (fun _ hi => hi.answered) (fun _ _ _ hi hC hs => hi.step hC hs)
    (fun _ _ _ hi hC hs => not_answered_step hi hC hs) inv_new h

/-- Calls before, during and after a connection, which then fails and is closed; and a call whose
timer fires before the connection is closed. -/
theorem wait_connected_iff_of_connected :
    Runs.Along step Answered new
      [.wait, .change ⟨.connecting, .checking⟩, .wait, .change ⟨.connecting, .connected⟩,
        .change ⟨.connected, .completed⟩, .wait, .change ⟨.failed, .failed⟩, .close] ∧
    Runs.Along step Answered new [.wait, .timer 0, .close] := by
  refine ⟨(wait_connected_iff rfl).2 ?_, (wait_connected_iff rfl).2 ?_⟩
  · refine (Runs.meets_cons rfl).2 ⟨fun _ => ⟨rfl, rfl⟩, ?_⟩
    refine (Runs.meets_cons rfl).2 ⟨fun _ h => absurd h (by decide), ?_⟩
    refine (Runs.meets_cons rfl).2 ⟨fun _ => ⟨rfl, rfl⟩, ?_⟩
    iterate 2 refine (Runs.meets_cons rfl).2 ⟨fun h => absurd h (by decide), ?_⟩
    refine (Runs.meets_cons rfl).2 ⟨fun h => absurd h (by decide), ?_⟩
    refine (Runs.meets_cons rfl).2 ⟨fun _ _ => by decide, ?_⟩
    refine (Runs.meets_cons rfl).2 ⟨show ∀ _ ∈ _, _ by decide, ?_⟩
    trivial
  · refine (Runs.meets_cons rfl).2 ⟨fun _ => ⟨rfl, rfl⟩, ?_⟩
    refine (Runs.meets_cons rfl).2 ⟨trivial, ?_⟩
    refine (Runs.meets_cons rfl).2 ⟨show ∀ _ ∈ _, _ by decide, ?_⟩
    trivial

/-- A pending call rejects with `timed-out` as the connection fails; a pending call, and one made
after, wait for the timer when the connection is closed; and so does a call made after a connection
that had connected is closed. -/
theorem wait_connected_misses :
    (∃ s, Runs.run step new [.wait, .change ⟨.failed, .failed⟩] = some s ∧
      s.calls = [⟨.settled (.error .timedOut) ⟨false, true⟩, false⟩] ∧ ¬ s.Answered) ∧
    (∃ s, Runs.run step new [.wait, .close, .wait, .timer 0, .timer 1] = some s ∧
      s.calls = [⟨.settled (.error .timedOut) ⟨false, true⟩, true⟩,
        ⟨.settled (.error .timedOut) ⟨false, true⟩, true⟩] ∧ ¬ s.Answered) ∧
    ∃ s, Runs.run step new [.change ⟨.connected, .connected⟩, .close, .wait, .timer 0] = some s ∧
      s.calls = [⟨.settled (.error .timedOut) ⟨true, true⟩, true⟩] ∧ ¬ s.Answered := by
  refine ⟨⟨_, rfl, rfl, ?_⟩, ⟨_, rfl, rfl, ?_⟩, ⟨_, rfl, rfl, ?_⟩⟩
  · exact fun ha => nomatch (ha _ (List.mem_singleton_self _)).1
  · exact fun ha => nomatch (ha _ (List.mem_cons_self ..)).1
  · exact fun ha => nomatch (ha _ (List.mem_singleton_self _)).1

end Connecting

end WebrtcDatachannels.Jco
