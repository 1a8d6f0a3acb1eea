import WebrtcDatachannels.Guest.Conn
import WebrtcDatachannels.Host.Send
import WebrtcDatachannels.Jco.Send
import WebrtcDatachannels.Lib.Entries
import WebrtcDatachannels.Lib.Relay

/-!
# What the three implementations send

The `send` calls of each implementation of `lann:webrtc-datachannels` as a service that sends
messages: what the stack under it has taken, in the order of its answers, is what the calls that
have returned `Ok` have sent, each once (`hostSource`, `guestSource`, `jcoSource`).
-/

namespace WebrtcDatachannels.Contract

open Relay (Service)

/-! ## The Wasmtime host sends -/

/-- A channel whose sends are called, with the messages that its transport has taken. -/
structure HostSource where
  sending : Host.Sending
  out : List Message

namespace HostSource

open Host (Sending SendCall SendingAct Stage)

/-- The message of a call that the transport takes with this step. -/
def taken (s : Sending) : SendingAct → List Message
  | .answer k (.ok ()) => ((s.calls[k]?).bind SendCall.message).toList
  | _ => []

/-- One step; messages are sent one by one. -/
def step (s : HostSource) (a : SendingAct) : Option HostSource :=
  if a = .sendViaStream then none
  else (s.sending.step a).map fun sending => { sending, out := s.out ++ taken s.sending a }

/-- The message of a send that has returned `Ok`. -/
def sent (c : SendCall) : Option Message :=
  if c.stage = .done (.ok ()) then c.message else none

/-- The messages of the sends that have returned `Ok`. -/
def done (s : HostSource) : List Message := s.sending.calls.filterMap sent

/-- A call is a `send`. -/
structure Sends (c : SendCall) : Prop where
  message : c.message.isSome = true
  stage : c.stage ≠ .next ∧ c.stage ≠ .payload

/-- The messages of the sends. -/
def made (s : HostSource) : List Message := s.sending.calls.filterMap SendCall.message

structure Inv (s : HostSource) : Prop where
  exact : s.out.Perm s.done
  sends : ∀ c ∈ s.sending.calls, Sends c

variable {s s' : HostSource} {a : SendingAct} {c c' : SendCall} {k : Nat}

theorem sent_of_stage (h : c.stage ≠ .done (.ok ())) : sent c = none := if_neg h

/-- A call that has not returned moves, and the transport takes what it has shown. -/
theorem Inv.moved (hi : s.Inv) (hk : s.sending.calls[k]? = some c)
    (hpend : c.stage ≠ .done (.ok ())) (hc' : Sends c') (transport : List Host.Handover) :
    Inv ⟨{ s.sending with calls := s.sending.calls.set k c', transport },
      s.out ++ (sent c').toList⟩ where
  exact := by
    refine (hi.exact.append_right _).trans ?_
    exact (Entries.filterMap_set_perm sent hk (sent_of_stage hpend)).symm
  sends := Entries.forall_mem_set hi.sends hc'

/-- A step that the transport takes nothing with. -/
theorem Inv.quiet {sending : Sending} (hdone : done ⟨sending, s.out⟩ = s.done) (hi : s.Inv)
    (hsends : ∀ c ∈ sending.calls, Sends c) : Inv ⟨sending, s.out ++ []⟩ :=
  ⟨by rw [List.append_nil]; exact hi.exact.trans (List.Perm.of_eq hdone.symm), hsends⟩

/-- The stream of a call moves, which leaves a `send` alone. -/
theorem Inv.fed (hi : s.Inv) {f : SendCall → Option SendCall} {sending : Sending}
    (h : s.sending.feed k f = some sending)
    (hf : ∀ c c', f c = some c' → c'.message = c.message ∧ c'.stage = c.stage) :
    Inv ⟨sending, s.out ++ []⟩ := by
  obtain ⟨c', hc', rfl⟩ := Option.map_eq_some_iff.1 h
  obtain ⟨c, hk, hf'⟩ := Option.bind_eq_some_iff.1 hc'
  have hsends := hi.sends c (List.mem_of_getElem? hk)
  obtain ⟨hm, hst⟩ := hf c c' hf'
  have hsame : sent c' = sent c := by rw [sent, sent, hm, hst]
  refine .quiet (Entries.filterMap_set_of_eq sent hk hsame) hi ?_
  exact Entries.forall_mem_set hi.sends ⟨hm ▸ hsends.message, hst ▸ hsends.stage⟩

theorem inv_start : Inv ⟨Sending.start, []⟩ := ⟨.nil, fun c hc => by cases hc⟩

/-- A poll of a `send` does not end it well. -/
theorem sends_poll {wired : Option (Except Host.WebrtcError Unit)} {closed : Bool}
    {o : Option Message} (hc : Sends c) (h : c.poll wired closed = some (c', o)) :
    Sends c' ∧ c'.stage ≠ .done (.ok ()) ∧ c.stage ≠ .done (.ok ()) := by
  have hhand : ∀ {r : Except Host.WebrtcError Message} {c' : SendCall} {o : Option Message},
      c.hand r = (c', o) → Sends c' ∧ c'.stage ≠ .done (.ok ()) := by
    intro r c' o hr
    obtain ⟨m, -, rfl⟩ | ⟨e, -, -, rfl⟩ := SendCall.hand_cases hr
    · exact ⟨⟨hc.message, by simp⟩, by simp⟩
    · exact ⟨⟨hc.message, by simp⟩, by simp⟩
  cases SendCall.polled_of_poll h with
  | refused hs | waits hs | failed hs =>
    exact ⟨⟨hc.message, by simp⟩, by simp, by simp [hs]⟩
  | hands hs _ _ hr => exact ⟨(hhand hr).1, (hhand hr).2, by simp [hs]⟩
  | pipes _ _ hm => exact absurd hc.message (by rw [hm]; decide)
  | takes hs | ends hs => exact absurd hs hc.stage.1
  | pays hs => exact absurd hs hc.stage.2

theorem Inv.step (hi : s.Inv) (h : s.step a = some s') : s'.Inv := by
  obtain ⟨hne, h⟩ := Option.ite_none_left_eq_some.1 h
  obtain ⟨sending, hs, rfl⟩ := Option.map_eq_some_iff.1 h
  cases a with
  | wire r =>
    obtain ⟨-, hs⟩ := Option.ite_none_right_eq_some.1 hs
    cases hs
    exact .quiet rfl hi hi.sends
  | fire =>
    cases hs
    have hmark : ∀ c : SendCall, sent c.mark = sent c ∧ (Sends c → Sends c.mark) := by
      intro c
      unfold SendCall.mark
      split
      · exact ⟨rfl, id⟩
      · exact ⟨rfl, fun h => ⟨h.message, h.stage⟩⟩
    refine .quiet ?_ hi ?_
    · simp only [done]
      split
      · rfl
      · rw [List.filterMap_map]
        exact List.filterMap_congr fun c _ => (hmark c).1
    · intro c hc
      dsimp only at hc
      split at hc
      · exact hi.sends c hc
      · obtain ⟨c₀, hc₀, rfl⟩ := List.mem_map.1 hc
        exact (hmark c₀).2 (hi.sends c₀ hc₀)
  | send message =>
    cases hs
    refine .quiet ?_ hi (Entries.forall_mem_append hi.sends ⟨rfl, by simp [SendCall.new]⟩)
    simp [done, sent, SendCall.new]
  | sendViaStream => exact absurd rfl hne
  | poll k =>
    obtain ⟨⟨c', o⟩, hp, rfl⟩ := Option.map_eq_some_iff.1 hs
    obtain ⟨c, hk, hp⟩ := Option.bind_eq_some_iff.1 hp
    obtain ⟨hc', hst', hst⟩ := sends_poll (hi.sends c (List.mem_of_getElem? hk)) hp
    have hm := hi.moved hk hst hc' (s.sending.transport ++ o.toList.map fun m =>
      ⟨k, m, s.sending.closed⟩)
    rw [sent_of_stage hst'] at hm
    exact hm
  | answer k result =>
    obtain ⟨-, hs⟩ := Option.ite_none_right_eq_some.1 hs
    obtain ⟨c', hc', rfl⟩ := Option.map_eq_some_iff.1 hs
    obtain ⟨c, hk, hc'⟩ := Option.bind_eq_some_iff.1 hc'
    have hsends := hi.sends c (List.mem_of_getElem? hk)
    unfold SendCall.answered at hc'
    split at hc'
    · next hst =>
      have hpend : c.stage ≠ .done (.ok ()) := by simp [hst]
      cases result with
      | error reason =>
        cases hc'
        have hnew : Sends { c with stage := .checking reason } := ⟨hsends.message, by simp⟩
        exact hi.moved hk hpend hnew s.sending.transport
      | ok u =>
        dsimp only at hc'
        split at hc'
        · cases hc'
          have hnew : Sends { c with stage := .done (.ok ()) } := ⟨hsends.message, by simp⟩
          have hmoved := hi.moved hk hpend hnew s.sending.transport
          have htaken : taken s.sending (.answer k (.ok ())) =
              (sent { c with stage := .done (.ok ()) }).toList := by simp [taken, sent, hk]
          rw [htaken]
          exact hmoved
        · next hnone => exact absurd hsends.message (by rw [hnone]; decide)
    · cases hc'
  | state k isOpen =>
    obtain ⟨c', hc', rfl⟩ := Option.map_eq_some_iff.1 hs
    obtain ⟨c, hk, hc'⟩ := Option.bind_eq_some_iff.1 hc'
    unfold SendCall.stated at hc'
    split at hc'
    · next reason hst =>
      cases hc'
      have hnew : Sends { c with stage := .done (.error (Host.sendError reason isOpen)) } :=
        ⟨(hi.sends c (List.mem_of_getElem? hk)).message, by simp⟩
      exact hi.moved hk (by simp [hst]) hnew s.sending.transport
    · cases hc'
  | element k isString length =>
    refine hi.fed hs fun c c' hf => ?_
    obtain ⟨-, hf⟩ := Option.ite_none_right_eq_some.1 hf
    cases hf
    exact ⟨rfl, rfl⟩
  | payload k i data =>
    refine hi.fed hs fun c c' hf => ?_
    obtain ⟨p, -, hf⟩ := Option.bind_eq_some_iff.1 hf
    obtain ⟨-, hf⟩ := Option.ite_none_right_eq_some.1 hf
    cases hf
    exact ⟨rfl, rfl⟩
  | exhaust k =>
    refine hi.fed hs fun c c' hf => ?_
    obtain ⟨-, hf⟩ := Option.ite_none_right_eq_some.1 hf
    cases hf
    exact ⟨rfl, rfl⟩

/-- The message of the `send` that a step calls. -/
def calls : SendingAct → Option Message
  | .send message => some message
  | _ => none

theorem message_of_poll {wired : Option (Except Host.WebrtcError Unit)} {closed : Bool}
    {o : Option Message} (h : c.poll wired closed = some (c', o)) : c'.message = c.message := by
  cases SendCall.polled_of_poll h with
  | refused | waits | failed | pipes | takes | ends => rfl
  | hands _ _ _ hr | pays _ hr =>
    obtain ⟨m, -, rfl⟩ | ⟨e, -, -, rfl⟩ := SendCall.hand_cases hr <;> rfl

/-- A call that moves keeps its message. -/
theorem made_moved {f : SendCall → Option SendCall} {sending : Sending}
    (h : s.sending.feed k f = some sending) (hf : ∀ c c', f c = some c' → c'.message = c.message) :
    sending.calls.filterMap SendCall.message = s.made := by
  obtain ⟨c', hc', rfl⟩ := Option.map_eq_some_iff.1 h
  obtain ⟨c, hk, hf'⟩ := Option.bind_eq_some_iff.1 hc'
  exact Entries.filterMap_set_of_eq SendCall.message hk (hf c c' hf')

/-- A step makes the call that it shows. -/
theorem made_step (h : s.step a = some s') : s'.made = s.made ++ (calls a).toList := by
  obtain ⟨-, h⟩ := Option.ite_none_left_eq_some.1 h
  obtain ⟨sending, hs, rfl⟩ := Option.map_eq_some_iff.1 h
  have hsame : sending.calls.filterMap SendCall.message = s.made → calls a = none →
      sending.calls.filterMap SendCall.message = s.made ++ (calls a).toList := by
    intro hmade hnone
    rw [hnone, hmade]
    exact (List.append_nil _).symm
  cases a with
  | wire r =>
    obtain ⟨-, hs⟩ := Option.ite_none_right_eq_some.1 hs
    cases hs
    exact hsame rfl rfl
  | fire =>
    cases hs
    refine hsame ?_ rfl
    dsimp only
    split
    · rfl
    · rw [List.filterMap_map]
      refine List.filterMap_congr fun c _ => ?_
      unfold SendCall.mark
      rw [Function.comp_apply]
      split <;> rfl
  | send message =>
    cases hs
    exact List.filterMap_append
  | sendViaStream =>
    cases hs
    exact List.filterMap_append
  | poll k =>
    obtain ⟨⟨c', o⟩, hp, rfl⟩ := Option.map_eq_some_iff.1 hs
    obtain ⟨c, hk, hp⟩ := Option.bind_eq_some_iff.1 hp
    exact hsame (Entries.filterMap_set_of_eq SendCall.message hk (message_of_poll hp)) rfl
  | answer k result =>
    obtain ⟨-, hs⟩ := Option.ite_none_right_eq_some.1 hs
    refine hsame (made_moved hs fun c c' hf => ?_) rfl
    unfold SendCall.answered at hf
    split at hf
    · split at hf
      · cases hf; rfl
      · split at hf <;> cases hf <;> rfl
    · cases hf
  | state k isOpen =>
    refine hsame (made_moved hs fun c c' hf => ?_) rfl
    unfold SendCall.stated at hf
    split at hf <;> cases hf
    rfl
  | element k isString length =>
    refine hsame (made_moved hs fun c c' hf => ?_) rfl
    obtain ⟨-, hf⟩ := Option.ite_none_right_eq_some.1 hf
    cases hf
    rfl
  | payload k i data =>
    refine hsame (made_moved hs fun c c' hf => ?_) rfl
    obtain ⟨p, -, hf⟩ := Option.bind_eq_some_iff.1 hf
    obtain ⟨-, hf⟩ := Option.ite_none_right_eq_some.1 hf
    cases hf
    rfl
  | exhaust k =>
    refine hsame (made_moved hs fun c c' hf => ?_) rfl
    obtain ⟨-, hf⟩ := Option.ite_none_right_eq_some.1 hf
    cases hf
    rfl

end HostSource

/-- The sends of the Wasmtime host. -/
def hostSource : Service Message where
  State := HostSource
  Act := Host.SendingAct
  start := ⟨Host.Sending.start, []⟩
  step := HostSource.step
  out := HostSource.out
  done := HostSource.done
  grows s a s' h := by
    obtain ⟨-, h⟩ := Option.ite_none_left_eq_some.1 h
    obtain ⟨sending, -, rfl⟩ := Option.map_eq_some_iff.1 h
    exact List.prefix_append _ _
  exact as s h := (Runs.invariant (fun _ _ _ hi hs => HostSource.Inv.step hi hs)
    HostSource.inv_start h).exact
  call := .send
  calls := HostSource.calls
  made := HostSource.made
  calls_call _ := rfl
  made_start := rfl
  made_step _ _ _ h := HostSource.made_step h
  done_sublist s := Entries.filterMap_sublist HostSource.sent
    (fun c m h => (Option.ite_none_right_eq_some.1 h).2) s.sending.calls

/-! ## The browser-first host sends -/

namespace JcoSource

open Jco (Send SendStage Outbound SendAct)

/-- The message of a send that has resolved. -/
def sent (c : Send) : Option Message :=
  match c.result with
  | some (.ok ()) => some c.message
  | _ => none

/-- The messages that the channel has taken are those of the sends that have resolved. -/
def Exact (s : Outbound) : Prop := s.taken.Perm (s.sends.filterMap sent)

variable {s s' : Outbound} {a : SendAct} {c : Send} {k : Nat}

theorem exact_new (state : Jco.ReadyState) : Exact (.new state) := .nil

theorem Exact.setStage (hi : Exact s) (hk : s.sends[k]? = some c) (hold : sent c = none)
    {stage : SendStage} (hnew : sent { c with stage } = none) : Exact (s.setStage k c stage) := by
  have hperm := Entries.filterMap_set_perm sent (y := { c with stage }) hk hold
  rw [hnew, Option.toList_none, List.append_nil] at hperm
  exact hi.trans hperm.symm

theorem Exact.hand (hi : Exact s) (hk : s.sends[k]? = some c) (hold : sent c = none)
    (answer : Except String Unit) : Exact (s.hand k c answer) := by
  cases answer with
  | error reason => exact hi.setStage hk hold rfl
  | ok u =>
    have hperm := Entries.filterMap_set_perm sent (y := { c with stage := .done (.ok ()) }) hk hold
    exact (hi.append_right [c.message]).trans hperm.symm

theorem Exact.step (hi : Exact s) (h : s.step a = some s') : Exact s' := by
  cases Outbound.step_effect h with
  | made =>
    refine hi.trans (List.Perm.of_eq ?_)
    simp [sent, Send.result]
  | shows | fills => exact hi
  | @fires event =>
    refine hi.trans (List.Perm.of_eq ?_)
    rw [List.filterMap_map]
    refine List.filterMap_congr fun c _ => ?_
    obtain ⟨hm, hr⟩ := Outbound.onEvent_result event c
    rw [Function.comp_apply, sent, sent, hr, hm]
  | rejects hk hc => exact hi.setStage hk (by simp [sent, Send.result, hc]) rfl
  | passes hk hc hle => exact hi.setStage hk (by simp [sent, Send.result, hc]) rfl
  | waits hk hc hlt => exact hi.setStage hk (by simp [sent, Send.result, hc]) rfl
  | hands hk hc => exact hi.hand hk (by simp [sent, Send.result, hc]) _

/-- The message of the `send` that a step calls. -/
def calls : SendAct → Option Message
  | .send message => some message
  | _ => none

/-- A step makes the call that it shows. -/
theorem made_step (h : s.step a = some s') :
    s'.sends.map Send.message = s.sends.map Send.message ++ (calls a).toList := by
  have hset : ∀ {k : Nat} {c : Send} (stage : SendStage), s.sends[k]? = some c →
      (s.sends.set k { c with stage }).map Send.message = s.sends.map Send.message ++ [] := by
    intro k c stage hk
    rw [← List.filterMap_eq_map, List.append_nil]
    exact Entries.filterMap_set_of_eq _ hk rfl
  cases Outbound.step_effect h with
  | made => exact List.map_append
  | shows | fills => exact (List.append_nil _).symm
  | @fires event =>
    simp only [calls, Option.toList_none, List.append_nil, List.map_map]
    exact List.map_congr_left fun c _ => (Outbound.onEvent_result event c).1
  | rejects hk | passes hk | waits hk => exact hset _ hk
  | @hands k c answer hk => cases answer <;> exact hset _ hk

/-- What the channel has taken stays taken. -/
theorem taken_prefix (h : s.step a = some s') : s.taken <+: s'.taken := by
  cases Outbound.step_effect h with
  | made | shows | fills | fires | rejects | passes | waits => exact List.prefix_rfl
  | @hands k c answer hk hc =>
    cases answer with
    | ok u => exact List.prefix_append _ _
    | error reason => exact List.prefix_rfl

end JcoSource

/-- The sends of the browser-first host. -/
def jcoSource (state : Jco.ReadyState) : Service Message where
  State := Jco.Outbound
  Act := Jco.SendAct
  start := .new state
  step := Jco.Outbound.step
  out := Jco.Outbound.taken
  done s := s.sends.filterMap JcoSource.sent
  grows _ _ _ h := JcoSource.taken_prefix h
  exact _ _ h := Runs.invariant (I := JcoSource.Exact)
    (fun _ _ _ hi hs => hi.step hs) (JcoSource.exact_new state) h
  call := .send
  calls := JcoSource.calls
  made s := s.sends.map Jco.Send.message
  calls_call _ := rfl
  made_start := rfl
  made_step _ _ _ h := JcoSource.made_step h
  done_sublist s := by
    rw [← List.filterMap_eq_map]
    refine Entries.filterMap_sublist JcoSource.sent (fun c m h => ?_) s.sends
    unfold JcoSource.sent at h
    split at h
    · exact h
    · cases h

/-! ## The in-guest provider sends -/

/-- A connection whose sends are called, with the messages that the core has taken for one of its
channels. -/
structure GuestSource where
  conn : Guest.Conn
  out : List Message

namespace GuestSource

open Guest (Conn Task Act)

/-- The message of a send on the channel that the core takes with this step. -/
def taken (id : Guest.RTCDataChannelId) (c : Conn) : Act → List Message
  | .poll k _ answer =>
    match c.tasks[k]? with
    | some (.send h message (.pending _)) =>
      if h.id = id ∧ Guest.channelState c.shared h.id = .open ∧ answer = .ok () then [message]
      else []
    | _ => []
  | _ => []

/-- The guest does not send with `send_via_stream`. -/
def oneByOne : Act → Bool
  | .sendViaStream _ => false
  | _ => true

/-- One step; messages are sent one by one. -/
def step (limit : Nat) (id : Guest.RTCDataChannelId) (s : GuestSource) (a : Act) :
    Option GuestSource :=
  if oneByOne a then
    (s.conn.step limit a).map fun conn => { conn, out := s.out ++ taken id s.conn a }
  else none

/-- The message of a send on the channel that has returned `Ok`. -/
def sent (id : Guest.RTCDataChannelId) : Task → Option Message
  | .send h message (.returned (.ok ())) => if h.id = id then some message else none
  | _ => none

/-- The messages taken are those of the sends that have returned `Ok`. -/
def Exact (id : Guest.RTCDataChannelId) (s : GuestSource) : Prop :=
  s.out.Perm (s.conn.tasks.filterMap (sent id))

variable {limit : Nat} {id : Guest.RTCDataChannelId} {s s' : GuestSource} {a : Act}

theorem exact_bound (id : Guest.RTCDataChannelId) : Exact id ⟨.bound, []⟩ := .nil

/-- The task is a `send`. -/
def isSend : Task → Bool
  | .send .. => true
  | _ => false

theorem sent_of_not_send {t : Task} (h : isSend t = false) : sent id t = none := by
  cases t with
  | send => cases h
  | sendViaStream | receive | pumpReceive | pumpIncoming | waitConnected => rfl

/-- A pass of a send ends it with `Ok` exactly when the core takes its message. -/
theorem sent_pass (sh : Guest.Shared) (h : Guest.DataChannel) (message : Message)
    (answer : Except String Unit) :
    sent id (.send h message (Guest.whenOpen sh h.id (Guest.handOver h.id message answer)).1.call) =
      if h.id = id ∧ Guest.channelState sh h.id = .open ∧ answer = .ok () then some message
      else none := by
  unfold Guest.whenOpen
  split
  · next ho =>
    cases answer with
    | ok u =>
      simp [sent, Guest.handOver, Guest.SansIoPeer.send, Guest.Verdict.call, Except.mapError, ho]
    | error e =>
      simp [sent, Guest.handOver, Guest.SansIoPeer.send, Guest.Verdict.call, Except.mapError]
  · next hc => simp [sent, Guest.Verdict.call, hc]
  · next hc => simp [sent, Guest.Verdict.call, hc]

/-- A poll of a task that is no `send` leaves one that is none. -/
theorem poll_not_send {t : Task} {sh : Guest.Shared} {k : Guest.TaskId} {now : Guest.Instant}
    {answer : Except String Unit} {p : Guest.Polled} (ht : isSend t = false)
    (hp : t.poll sh k now answer = some p) : isSend p.task = false := by
  unfold Task.poll at hp
  split at hp
  · cases ht
  · obtain ⟨-, hp⟩ := Option.ite_none_right_eq_some.1 hp
    cases hp; rfl
  · obtain ⟨-, hp⟩ := Option.ite_none_right_eq_some.1 hp
    cases hp; rfl
  · obtain ⟨-, hp⟩ := Option.ite_none_right_eq_some.1 hp
    simp only at hp
    split at hp <;> cases hp <;> rfl
  · obtain ⟨-, hp⟩ := Option.ite_none_right_eq_some.1 hp
    simp only at hp
    split at hp
    · cases hp; rfl
    · split at hp <;> cases hp <;> rfl
  · obtain ⟨-, hp⟩ := Option.ite_none_right_eq_some.1 hp
    cases hp; rfl
  · cases hp

/-- A poll of a task shows what the core takes with it. -/
theorem sent_poll {t : Task} {k : Guest.TaskId} {now : Guest.Instant} {answer : Except String Unit}
    {p : Guest.Polled} {c : Conn} (hk : c.tasks[k]? = some t)
    (hp : t.poll c.shared k now answer = some p) :
    sent id t = none ∧ taken id c (.poll k now answer) = (sent id p.task).toList := by
  cases ht : isSend t with
  | false =>
    have hnone : taken id c (.poll k now answer) = [] := by
      cases t with
      | send => cases ht
      | sendViaStream | receive | pumpReceive | pumpIncoming | waitConnected => simp [taken, hk]
    rw [hnone, sent_of_not_send (poll_not_send ht hp)]
    exact ⟨sent_of_not_send ht, rfl⟩
  | true =>
    cases t with
    | send h message call =>
      cases call with
      | returned r => cases hp
      | pending seen =>
        obtain ⟨-, hp⟩ := Option.ite_none_right_eq_some.1 hp
        cases hp
        refine ⟨rfl, ?_⟩
        simp only [taken, hk, sent_pass]
        split <;> rfl
    | sendViaStream | receive | pumpReceive | pumpIncoming | waitConnected => cases ht

theorem advance_not_send {t t' : Task} {io : Guest.Io} (h : t.advance io = some t') :
    isSend t = false ∧ isSend t' = false := by
  unfold Task.advance at h
  split at h
  · cases h; exact ⟨rfl, rfl⟩
  · cases h; exact ⟨rfl, rfl⟩
  · obtain ⟨-, h⟩ := Option.ite_none_right_eq_some.1 h
    split at h <;> cases h <;> exact ⟨rfl, rfl⟩
  · cases h; exact ⟨rfl, rfl⟩
  · cases h; exact ⟨rfl, rfl⟩
  · cases h; exact ⟨rfl, rfl⟩
  · cases h; exact ⟨rfl, rfl⟩
  · cases h; exact ⟨rfl, rfl⟩
  · cases h

theorem Exact.step (hi : Exact id s) (h : step limit id s a = some s') : Exact id s' := by
  obtain ⟨-, h⟩ := Option.ite_none_right_eq_some.1 h
  obtain ⟨conn, hs, rfl⟩ := Option.map_eq_some_iff.1 h
  have hgrows : (∀ k now answer, a ≠ .poll k now answer) → (∀ k io, a ≠ .io k io) →
      taken id s.conn a = [] → Exact id ⟨conn, s.out ++ taken id s.conn a⟩ := by
    intro hpoll hio htaken
    obtain ⟨new, htasks, hnew, -⟩ := Conn.step_grows hs hpoll hio
    have hnone : new.toList.filterMap (sent id) = [] := by
      refine List.filterMap_eq_nil_iff.2 fun t ht => ?_
      have hspawned := hnew t (Option.mem_toList.1 ht)
      cases t with
      | send h message call => rw [show call = .pending none from hspawned]; rfl
      | sendViaStream | receive | pumpReceive | pumpIncoming | waitConnected => rfl
    rw [htaken, List.append_nil, Exact, htasks, List.filterMap_append, hnone, List.append_nil]
    exact hi
  cases a with
  | poll k now answer =>
    obtain ⟨p, hp, rfl⟩ := Option.map_eq_some_iff.1 hs
    obtain ⟨t, hk, hp⟩ := Option.bind_eq_some_iff.1 hp
    obtain ⟨hold, htaken⟩ : sent id t = none ∧
        taken id s.conn (.poll k now answer) = (sent id p.task).toList := sent_poll hk hp
    rw [htaken]
    exact (hi.append_right _).trans (Entries.filterMap_set_perm (sent id) hk hold).symm
  | io k io =>
    obtain ⟨t, hk, hs⟩ := Option.bind_eq_some_iff.1 hs
    obtain ⟨t', ht, rfl⟩ := Option.map_eq_some_iff.1 hs
    obtain ⟨hold, hnew⟩ := advance_not_send ht
    have hsame : sent id t' = sent id t := by rw [sent_of_not_send hold, sent_of_not_send hnew]
    have heq := Entries.filterMap_set_of_eq (sent id) hk hsame
    have hnone : taken id s.conn (.io k io) = [] := rfl
    rw [hnone, List.append_nil]
    exact hi.trans (List.Perm.of_eq heq.symm)
  | core | turn | finish | createDataChannel | incomingDataChannels | close | send
  | sendViaStream | receive | receiveViaStream | waitConnected =>
    exact hgrows (fun _ _ _ h => by cases h) (fun _ _ h => by cases h) rfl

/-- The message of a send on the channel. -/
def called (id : Guest.RTCDataChannelId) : Task → Option Message
  | .send h message _ => if h.id = id then some message else none
  | _ => none

/-- The message of the `send` on the channel that a step calls. -/
def calls (id : Guest.RTCDataChannelId) : Act → Option Message
  | .send h message => if h.id = id then some message else none
  | _ => none

theorem called_of_not_send {t : Task} (h : isSend t = false) : called id t = none := by
  cases t with
  | send => cases h
  | sendViaStream | receive | pumpReceive | pumpIncoming | waitConnected => rfl

theorem called_poll {t : Task} {sh : Guest.Shared} {k : Guest.TaskId} {now : Guest.Instant}
    {answer : Except String Unit} {p : Guest.Polled} (hp : t.poll sh k now answer = some p) :
    called id p.task = called id t := by
  cases ht : isSend t with
  | false => rw [called_of_not_send ht, called_of_not_send (poll_not_send ht hp)]
  | true =>
    cases t with
    | send h message call =>
      cases call with
      | returned r => cases hp
      | pending seen =>
        obtain ⟨-, hp⟩ := Option.ite_none_right_eq_some.1 hp
        cases hp
        rfl
    | sendViaStream | receive | pumpReceive | pumpIncoming | waitConnected => cases ht

/-- A step makes the call that it shows. -/
theorem made_step (h : step limit id s a = some s') :
    s'.conn.tasks.filterMap (called id) =
      s.conn.tasks.filterMap (called id) ++ (calls id a).toList := by
  obtain ⟨-, h⟩ := Option.ite_none_right_eq_some.1 h
  obtain ⟨conn, hs, rfl⟩ := Option.map_eq_some_iff.1 h
  dsimp only
  have hspawn : ∀ t, called id t = calls id a → (s.conn.spawn t).tasks.filterMap (called id) =
      s.conn.tasks.filterMap (called id) ++ (calls id a).toList := by
    intro t ht
    rw [Conn.spawn_tasks, List.filterMap_append, ← ht]
    cases hc : called id t <;> simp [hc]
  cases a with
  | core | close =>
    cases hs
    exact (List.append_nil _).symm
  | turn =>
    obtain ⟨-, hs⟩ := Option.ite_none_right_eq_some.1 hs
    cases hs
    exact (List.append_nil _).symm
  | finish =>
    obtain ⟨-, hs⟩ := Option.ite_none_right_eq_some.1 hs
    cases hs
    exact (List.append_nil _).symm
  | createDataChannel label answer =>
    cases answer with
    | error e =>
      cases hs
      exact (List.append_nil _).symm
    | ok id' =>
      obtain ⟨-, hs⟩ := Option.ite_none_right_eq_some.1 hs
      cases hs
      exact (List.append_nil _).symm
  | incomingDataChannels | waitConnected =>
    cases hs
    exact hspawn _ rfl
  | send | sendViaStream | receive =>
    obtain ⟨-, hs⟩ := Option.ite_none_right_eq_some.1 hs
    cases hs
    exact hspawn _ rfl
  | receiveViaStream hd =>
    obtain ⟨-, hs⟩ := Option.ite_none_right_eq_some.1 hs
    cases hs
    simp only [Conn.receiveViaStream]
    split
    · exact hspawn (.pumpReceive ..) rfl
    · exact (List.append_nil _).symm
  | poll k now answer =>
    obtain ⟨p, hp, rfl⟩ := Option.map_eq_some_iff.1 hs
    obtain ⟨t, hk, hp⟩ := Option.bind_eq_some_iff.1 hp
    refine (Entries.filterMap_set_of_eq (called id) hk (called_poll hp)).trans ?_
    exact (List.append_nil _).symm
  | io k io =>
    obtain ⟨t, hk, hs⟩ := Option.bind_eq_some_iff.1 hs
    obtain ⟨t', ht, rfl⟩ := Option.map_eq_some_iff.1 hs
    obtain ⟨hold, hnew⟩ := advance_not_send ht
    have hsame : called id t' = called id t := by
      rw [called_of_not_send hold, called_of_not_send hnew]
    refine (Entries.filterMap_set_of_eq (called id) hk hsame).trans ?_
    exact (List.append_nil _).symm

end GuestSource

/-- The sends of the in-guest provider on one channel, by one of its handles. -/
def guestSource (limit : Nat) (handle : Guest.DataChannel) : Service Message where
  State := GuestSource
  Act := Guest.Act
  start := ⟨.bound, []⟩
  step := GuestSource.step limit handle.id
  out := GuestSource.out
  done s := s.conn.tasks.filterMap (GuestSource.sent handle.id)
  grows s a s' h := by
    obtain ⟨-, h⟩ := Option.ite_none_right_eq_some.1 h
    obtain ⟨conn, -, rfl⟩ := Option.map_eq_some_iff.1 h
    exact List.prefix_append _ _
  exact _ _ h := Runs.invariant (I := GuestSource.Exact handle.id) (fun _ _ _ hi hs => hi.step hs)
    (GuestSource.exact_bound handle.id) h
  call := .send handle
  calls := GuestSource.calls handle.id
  made s := s.conn.tasks.filterMap (GuestSource.called handle.id)
  calls_call _ := if_pos rfl
  made_start := rfl
  made_step _ _ _ h := GuestSource.made_step h
  done_sublist s := by
    refine Entries.filterMap_sublist _ (fun t m h => ?_) s.conn.tasks
    unfold GuestSource.sent at h
    split at h
    · exact h
    · cases h

end WebrtcDatachannels.Contract
