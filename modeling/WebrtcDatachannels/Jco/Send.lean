import Mathlib.Data.List.Basic
import WebrtcDatachannels.Wit
import WebrtcDatachannels.Lib.Runs

/-!
# Sending on a browser-first data channel

`jco-impl/webrtc.js`, outbound side. A `send` awaits `#waitOpen()`, then `#waitForDrain()`, and then
hands its message to the channel. JavaScript runs what stands between two awaits to its end, so a
step resumes one call, dispatches one event of the channel, or changes what the channel shows.
-/

namespace WebrtcDatachannels.Jco

/-- `RTCDataChannel.readyState`. -/
inductive ReadyState where
  | connecting
  | open
  | closing
  | closed
deriving DecidableEq, Repr

/-- The events of the channel that a `send` listens to. -/
inductive ChannelEvent where
  | open
  | close
  | error
  | bufferedAmountLow
deriving DecidableEq, Repr

/-- `MAX_BUFFERED_AMOUNT`. -/
def maxBufferedAmount : Nat := 8 * 1024 * 1024

/-- Where a `send` stands: awaiting the promise of `#waitOpen()`, and how that is settled; awaiting
that of `#waitForDrain()`, and whether that is resolved; or settled itself. -/
inductive SendStage where
  | waitOpen (promise : Option (Except Error Unit))
  | waitForDrain (resolved : Bool)
  | done (result : Except Error Unit)

/-- A call of `send`. -/
structure Send where
  message : Message
  stage : SendStage

namespace Send

/-- What the call's promise is settled with. -/
def result (c : Send) : Option (Except Error Unit) :=
  match c.stage with
  | .done r => some r
  | _ => none

/-- The call fails when it resumes: its wait for the opening was rejected, or the channel refuses
the message. -/
def fails (c : Send) (answer : Except String Unit) : Bool :=
  match c.stage, answer with
  | .waitOpen (some (.error _)), _ | .waitForDrain true, .error _ => true
  | _, _ => false

/-- The listeners of the call's awaits; a promise is settled once. Source: `#waitOpen`,
`#waitForDrain`. -/
def onEvent (event : ChannelEvent) (c : Send) : Send :=
  match c.stage, event with
  | .waitOpen none, .open => { c with stage := .waitOpen (some (.ok ())) }
  | .waitOpen none, .close | .waitOpen none, .error =>
    { c with stage := .waitOpen (some (.error .closed)) }
  | .waitForDrain false, .bufferedAmountLow => { c with stage := .waitForDrain true }
  | _, _ => c

end Send

/-- A channel with its calls of `send`: what the `RTCDataChannel` shows, and the messages it has
taken, oldest first. -/
structure Outbound where
  readyState : ReadyState
  bufferedAmount : Nat
  bufferedAmountLowThreshold : Nat
  sends : List Send
  taken : List Message

/-- The guest calls `send`; the channel's state or its buffer changes, or it dispatches an event; a
call resumes, with the answer of the channel's own `send` should it get there. -/
inductive SendAct where
  | send (message : Message)
  | readyState (state : ReadyState)
  | bufferedAmount (amount : Nat)
  | event (event : ChannelEvent)
  | resume (k : Nat) (answer : Except String Unit)

namespace Outbound

/-- How the promise of `#waitOpen()` starts out. Source: `#waitOpen`. -/
def waitOpen (s : Outbound) : Option (Except Error Unit) :=
  match s.readyState with
  | .open => some (.ok ())
  | .closing | .closed => some (.error .closed)
  | .connecting => none

/-- Replace a call's stage. -/
def setStage (s : Outbound) (k : Nat) (c : Send) (stage : SendStage) : Outbound :=
  { s with sends := s.sends.set k { c with stage } }

/-- Source: `#waitForDrain`. -/
def waitForDrain (s : Outbound) (k : Nat) (c : Send) : Outbound :=
  if s.bufferedAmount ≤ maxBufferedAmount then s.setStage k c (.waitForDrain true)
  else
    { s.setStage k c (.waitForDrain false) with
      bufferedAmountLowThreshold := maxBufferedAmount / 2 }

/-- The channel's `send` returns or throws. Source: the `try` block of `send`. -/
def hand (s : Outbound) (k : Nat) (c : Send) : Except String Unit → Outbound
  | .ok () => { s.setStage k c (.done (.ok ())) with taken := s.taken ++ [c.message] }
  | .error _ => s.setStage k c (.done (.error .closed))

/-- A call goes on from a settled promise to its next await or its end. Source: `send`. -/
def resume (s : Outbound) (k : Nat) (c : Send) (answer : Except String Unit) : Option Outbound :=
  match c.stage with
  | .waitOpen (some (.error e)) => some (s.setStage k c (.done (.error e)))
  | .waitOpen (some (.ok ())) => some (s.waitForDrain k c)
  | .waitForDrain true => some (s.hand k c answer)
  | _ => none

/-- One step. -/
def step (s : Outbound) : SendAct → Option Outbound
  | .send message => some { s with sends := s.sends ++ [⟨message, .waitOpen s.waitOpen⟩] }
  | .readyState state => some { s with readyState := state }
  | .bufferedAmount amount => some { s with bufferedAmount := amount }
  | .event event => some { s with sends := s.sends.map (Send.onEvent event) }
  | .resume k answer => (s.sends[k]?).bind (s.resume k · answer)

/-- A channel that nothing was sent on. -/
def new (state : ReadyState) : Outbound :=
  { readyState := state, bufferedAmount := 0, bufferedAmountLowThreshold := 0, sends := [],
    taken := [] }

/-- What a step does: a call is made; the channel shows another state or another amount, or
dispatches an event; a call ends with what its wait for the opening was rejected with, finds the
buffer low enough or waits for that, or hands its message over. -/
inductive Effect (s : Outbound) : SendAct → Outbound → Prop where
  | made {message : Message} :
      Effect s (.send message) { s with sends := s.sends ++ [⟨message, .waitOpen s.waitOpen⟩] }
  | shows {state : ReadyState} : Effect s (.readyState state) { s with readyState := state }
  | fills {amount : Nat} : Effect s (.bufferedAmount amount) { s with bufferedAmount := amount }
  | fires {event : ChannelEvent} :
      Effect s (.event event) { s with sends := s.sends.map (Send.onEvent event) }
  | rejects {k : Nat} {c : Send} {e : Error} {answer : Except String Unit}
      (hk : s.sends[k]? = some c) (hc : c.stage = .waitOpen (some (.error e))) :
      Effect s (.resume k answer) (s.setStage k c (.done (.error e)))
  | passes {k : Nat} {c : Send} {answer : Except String Unit} (hk : s.sends[k]? = some c)
      (hc : c.stage = .waitOpen (some (.ok ()))) (hle : s.bufferedAmount ≤ maxBufferedAmount) :
      Effect s (.resume k answer) (s.setStage k c (.waitForDrain true))
  | waits {k : Nat} {c : Send} {answer : Except String Unit} (hk : s.sends[k]? = some c)
      (hc : c.stage = .waitOpen (some (.ok ()))) (hlt : maxBufferedAmount < s.bufferedAmount) :
      Effect s (.resume k answer)
        { s.setStage k c (.waitForDrain false) with
          bufferedAmountLowThreshold := maxBufferedAmount / 2 }
  | hands {k : Nat} {c : Send} {answer : Except String Unit} (hk : s.sends[k]? = some c)
      (hc : c.stage = .waitForDrain true) : Effect s (.resume k answer) (s.hand k c answer)

/-- A step has its effect. -/
theorem step_effect {s s' : Outbound} {a : SendAct} (h : s.step a = some s') : s.Effect a s' := by
  cases a with
  | send message => cases h; exact .made
  | readyState state => cases h; exact .shows
  | bufferedAmount amount => cases h; exact .fills
  | event event => cases h; exact .fires
  | resume k answer =>
    obtain ⟨c, hk, h⟩ := Option.bind_eq_some_iff.1 h
    unfold resume at h
    split at h
    · next hc => cases h; exact .rejects hk hc
    · next hc =>
      cases h
      unfold waitForDrain
      split
      · next hle => exact .passes hk hc hle
      · next hlt => exact .waits hk hc (Nat.lt_of_not_le hlt)
    · next hc => cases h; exact .hands hk hc
    · cases h

/-- An event of the channel settles no call. -/
theorem onEvent_result (event : ChannelEvent) (c : Send) :
    (c.onEvent event).message = c.message ∧ (c.onEvent event).result = c.result := by
  unfold Send.onEvent
  split <;> first | exact ⟨rfl, rfl⟩ | (next h => exact ⟨rfl, by simp [Send.result, h]⟩)

/-- The call hands its message to the channel when it resumes. -/
def Hands (s : Outbound) (k : Nat) : Prop :=
  ∃ c, s.sends[k]? = some c ∧ c.stage = .waitForDrain true

/-- A call whose message the channel refuses ends with `closed`, whatever the channel's state. -/
theorem step_refused {s : Outbound} {k : Nat} (h : s.Hands k) (reason : String) :
    ∃ s' c, s.step (.resume k (.error reason)) = some s' ∧ s'.sends[k]? = some c ∧
      c.result = some (.error .closed) ∧ s'.readyState = s.readyState := by
  obtain ⟨c, hc, hst⟩ := h
  obtain ⟨hk, -⟩ := List.getElem?_eq_some_iff.1 hc
  refine ⟨s.setStage k c (.done (.error .closed)), { c with stage := .done (.error .closed) },
    ?_, ?_, rfl, rfl⟩
  · simp only [step, hc, Option.bind_some, resume, hst]
    rfl
  · exact List.getElem?_set_self hk

end Outbound

end WebrtcDatachannels.Jco
