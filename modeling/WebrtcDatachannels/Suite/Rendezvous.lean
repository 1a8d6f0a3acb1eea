import WebrtcDatachannels.Signaling.Mailbox
import WebrtcDatachannels.Suite.Handshake

/-!
# The handshake over the mailbox server

The two instances of a two-peer test, each with its mailbox session, and the server between them.
`Rendezvous.step` cuts a mailbox call of an instance where `Signaling/Mailbox` cuts that of a
session, so the two instances, the requests and responses on their way, the fetches at the server
and the requests of anyone else are in any order; the latter do not write the two mailboxes, and the
room is neither deleted nor swept meanwhile. `Rendezvous.abs` forgets the sessions and the
server: a publish counts when the server accepts it, which may be before the instance hears of it.
What remains is a run of `Handshake` (`handshake_refines`), so what is shown there holds here.
-/

/-! ## What a mailbox does to the server -/

namespace WebrtcDatachannels.Signaling.Link

variable {s s' : Link} {a : LinkAct}

/-- A step leaves the publisher and the configuration alone. -/
theorem step_frame (hs : s.step a = some s') :
    s'.publisher = s.publisher ∧ s'.config = s.config := by
  cases a with
  | send | done | recv | reply =>
    simp only [step, Link.reply] at hs
    repeat' split at hs
    all_goals cases hs
    all_goals exact ⟨rfl, rfl⟩
  | post now =>
    simp only [step, Link.post] at hs
    repeat' split at hs
    all_goals cases hs
    all_goals exact ⟨rfl, rfl⟩
  | ack =>
    simp only [step, Link.ack] at hs
    repeat' split at hs
    all_goals cases hs
    all_goals exact ⟨rfl, rfl⟩
  | get now =>
    simp only [step, Link.get] at hs
    repeat' split at hs
    all_goals cases hs
    all_goals exact ⟨rfl, rfl⟩
  | take =>
    simp only [step, Link.take] at hs
    repeat' split at hs
    all_goals cases hs
    all_goals exact ⟨rfl, rfl⟩
  | serve a =>
    simp only [step, Option.ite_none_left_eq_some, Option.bind_eq_some_iff,
      Option.ite_none_right_eq_some, Option.some.injEq] at hs
    obtain ⟨-, server, -, -, rfl⟩ := hs
    exact ⟨rfl, rfl⟩

/-- What a step of two sessions makes of the server: nothing, or a request that writes at most their
mailbox and removes no room. -/
def Serves (s : Link) (server : Server) : Prop :=
  server = s.server ∨ ∃ a : ServerAct, s.server.step a = some server ∧
    (∀ room role, a.writes = some (room, role) →
      room = s.publisher.room.name ∧ role = s.publisher.role) ∧
    ∀ room, room ∈ s.server.rooms.map → room ∈ server.rooms.map

theorem Inv.serves (h : s.Inv) (ha : ∀ b, a ≠ .serve b) (hs : s.step a = some s') :
    s.Serves s'.server := by
  cases a with
  | serve b => exact absurd rfl (ha b)
  | send | done | recv | reply =>
    simp only [Link.step, Link.reply] at hs
    repeat' split at hs
    all_goals cases hs
    all_goals exact .inl rfl
  | ack =>
    simp only [Link.step, Link.ack] at hs
    repeat' split at hs
    all_goals cases hs
    all_goals exact .inl rfl
  | take =>
    simp only [Link.step, Link.take] at hs
    repeat' split at hs
    all_goals cases hs
    all_goals exact .inl rfl
  | get now =>
    simp only [Link.step] at hs
    split at hs
    · next seq hf =>
      obtain ⟨wait, wait', hreq, hfetch⟩ := fetch_session s.config s.consumer seq
      simp only [Link.get, hreq, hfetch, Server.step, Option.map_some, Option.some.injEq] at hs
      subst hs
      refine .inr ⟨.fetch now s.consumer.room.name s.consumer.role.peer seq wait', rfl, ?_, ?_⟩
      · intro room role hw
        cases hw
      · exact fun room hroom => hroom
    · cases hs
  | post now =>
    simp only [Link.step] at hs
    split at hs
    · next request hp =>
      obtain rfl | ⟨blob, rfl⟩ := h.asked request hp
      · simp only [Link.post, Session.doneRequest, checkPath_session, Server.step,
          Option.map_some, Option.some.injEq] at hs
        subst hs
        refine .inr ⟨.markDone now s.publisher.room.name s.publisher.role, rfl, ?_, ?_⟩
        · intro room role hw
          cases hw
          exact ⟨rfl, rfl⟩
        · exact (s.server.rooms.call_kept now _ _ .finish).1
      · simp only [Link.post, Session.sendRequest, Config.publish, checkPath_session] at hs
        by_cases hsize : blob.length > s.config.maxBlobBytes
        · rw [if_pos hsize] at hs
          cases hs
          exact .inl rfl
        · rw [if_neg hsize] at hs
          simp only [Server.step, Option.map_some, Option.some.injEq] at hs
          subst hs
          refine .inr ⟨.publish now s.publisher.room.name s.publisher.role blob, rfl, ?_, ?_⟩
          · intro room role hw
            cases hw
            exact ⟨rfl, rfl⟩
          · exact (s.server.rooms.call_kept now _ _ (.append blob)).1
    · cases hs

/-- To another mailbox of the room it is a request of someone else. -/
theorem Inv.of_serves {t : Link} (h : t.Inv) {server : Server}
    (hserver : t.server = s.server) (hs : s.Serves server)
    (hne : t.publisher.role ≠ s.publisher.role) : Inv { t with server } := by
  obtain rfl | ⟨a, ha, hw, hkeep⟩ := hs
  · rw [← hserver]
    exact h
  · refine h.serve (a := a) ?_
    have hno : a.writes ≠ some (t.publisher.room.name, t.publisher.role) :=
      fun hwr => hne (hw _ _ hwr).2
    simp only [Link.step, if_neg hno, hserver, ha, Option.bind_some, if_pos (hkeep _)]

/-- The steps of the peer's call, but its return, leave the rest of the mailbox alone. -/
theorem step_fetch (ha : a = .recv ∨ (∃ now, a = .get now) ∨ a = .reply)
    (hs : s.step a = some s') :
    s'.posting = s.posting ∧ s'.log = s.log ∧ s'.consumer = s.consumer ∧
      (a = .recv ∨ s.fetching ≠ .idle) := by
  obtain rfl | ⟨now, rfl⟩ | rfl := ha
  · simp only [step] at hs
    split at hs
    · cases hs; exact ⟨rfl, rfl, rfl, .inl rfl⟩
    · cases hs
  · simp only [step, Link.get] at hs
    split at hs
    · next hf =>
      refine ⟨?_, ?_, ?_, .inr fun hi => by rw [hf] at hi; cases hi⟩
      all_goals repeat' split at hs
      all_goals cases hs
      all_goals rfl
    · cases hs
  · simp only [step, Link.reply] at hs
    split at hs
    · next hf =>
      refine ⟨?_, ?_, ?_, .inr fun hi => by rw [hf] at hi; cases hi⟩
      all_goals repeat' split at hs
      all_goals cases hs
      all_goals rfl
    · cases hs

/-- A call of the publisher's begins. -/
theorem step_begin {request : Request}
    (ha : (∃ blob, a = .send blob ∧ request = s.publisher.sendRequest blob) ∨
      a = .done ∧ request = s.publisher.doneRequest) (hs : s.step a = some s') :
    s.posting = .idle ∧ s' = { s with posting := .requesting request } := by
  obtain ⟨blob, rfl, rfl⟩ | ⟨rfl, rfl⟩ := ha
  all_goals
    simp only [step] at hs
    split at hs
    · next hp => cases hs; exact ⟨hp, rfl⟩
    · cases hs

/-- The log after a request that the server answered with success. -/
def wrote (q : SealedLog.Log Bytes) : Request → SealedLog.Log Bytes
  | .publish _ _ body => { q with entries := q.entries ++ [body] }
  | .markDone .. => { q with shut := true }
  | .fetch .. => q

/-- The server handles the publisher's request. -/
theorem Inv.step_post (h : s.Inv) {now : Instant} (hs : s.step (.post now) = some s') :
    ∃ request r, s.posting = .requesting request ∧ s'.posting = .answered request r ∧
      s'.fetching = s.fetching ∧ s'.consumer = s.consumer ∧
      s'.log = if r.isSuccess then wrote s.log request else s.log := by
  simp only [Link.step] at hs
  split at hs
  · next request hp =>
    refine ⟨request, ?_⟩
    obtain rfl | ⟨blob, rfl⟩ := h.asked request hp
    · simp only [Link.post, Session.doneRequest, checkPath_session, Server.step, Option.map_some,
        Option.some.injEq] at hs
      subst hs
      exact ⟨.plain 200, hp, rfl, rfl, rfl, rfl⟩
    · simp only [Link.post, Session.sendRequest, Config.publish, checkPath_session] at hs
      by_cases hsize : blob.length > s.config.maxBlobBytes
      · rw [if_pos hsize] at hs
        cases hs
        exact ⟨.failure 413 "too-large", hp, rfl, rfl, rfl, rfl⟩
      · rw [if_neg hsize] at hs
        simp only [Server.step, Option.map_some, Option.some.injEq] at hs
        subst hs
        refine ⟨_, hp, rfl, rfl, rfl, ?_⟩
        simp only [log]
        split <;> rfl
  · cases hs

/-- A call of the publisher's returns. -/
theorem step_ack (hs : s.step .ack = some s') :
    s'.posting = .idle ∧ s'.log = s.log ∧ s'.fetching = s.fetching ∧ s'.consumer = s.consumer := by
  simp only [step] at hs
  split at hs
  · next request r hp =>
    cases hs
    cases request <;> exact ⟨rfl, rfl, rfl, rfl⟩
  · cases hs

/-- The response of the peer's fetch arrives: its call returns the blob at its cursor or the end, or
fetches again. -/
theorem Inv.step_take (h : s.Inv) (hs : s.step .take = some s') :
    ∃ f : Fetch, s.fetching = .answered s.consumer.recvSeq f.response ∧ s'.posting = s.posting ∧
      s'.log = s.log ∧
      ((∃ blob, f = .blob blob ∧ s.log.look s.consumer.recvSeq = .item blob ∧
          s'.fetching = .idle ∧ s'.consumer.recvSeq = s.consumer.recvSeq + 1) ∨
        f = .done ∧ s.log.look s.consumer.recvSeq = .over ∧ s'.fetching = .idle ∧
          s'.consumer.recvSeq = s.consumer.recvSeq ∨
        f = .pending ∧ s'.fetching ≠ .idle ∧ s'.consumer = s.consumer) := by
  simp only [Link.step] at hs
  split at hs
  · next seq r hf =>
    have hsound := h.fetching
    rw [hf] at hsound
    obtain ⟨rfl, f, rfl, hans⟩ := hsound
    cases hs
    refine ⟨f, hf, ?_⟩
    unfold Link.take
    rw [received_response]
    cases f with
    | blob blob =>
      exact ⟨rfl, rfl, .inl ⟨blob, rfl, hans (fun he => by cases he), rfl, rfl⟩⟩
    | done =>
      exact ⟨rfl, rfl, .inr (.inl ⟨rfl, hans (fun he => by cases he), rfl, rfl⟩)⟩
    | pending => exact ⟨rfl, rfl, .inr (.inr ⟨rfl, (fun he => by cases he), rfl⟩)⟩
  · cases hs

end WebrtcDatachannels.Signaling.Link

namespace WebrtcDatachannels.Suite

open Signaling (Role Client RoomId Request Response Config Server ServerAct Link LinkAct Instant)
open SealedLog (Log)

/-! ## An instance between its mailbox calls -/

/-- The signal that the instance publishes at a stage. -/
def Stage.publishes : Stage → Option Signal
  | .publishDescription description => some description
  | .publishCandidates (c :: _) => some (.ofCandidate c)
  | .publishCandidates [] => some .endOfCandidates
  | _ => none

namespace Instance

/-- A `publish` or `done` goes on with what the session returned; the mailboxes are not looked
at. -/
def posted (p : Peers) (role : Role) (s : Instance) (r : Except Error Unit) : Instance :=
  match s.step p role ⟨[], false⟩ ⟨[], false⟩ (.session r) with
  | some q => q.1
  | none => s

/-- What the instance does with the signal that it reads at its stage. -/
def next (codec : Codec) (s : Instance) : Option Signal → Stage :=
  match s.stage with
  | .recvOffer => expectOffer codec
  | _ => consumed

/-- A `recv_signal` goes on with what the session returned. -/
def received (codec : Codec) (s : Instance) (r : Except Error (Option Bytes)) : Instance :=
  match r with
  | .error e => { s with stage := .failed ("mailbox recv: " ++ describe e) }
  | .ok none => { s with stage := s.next codec none }
  | .ok (some blob) =>
    match codec.fromSlice blob with
    | .ok signal => { s with stage := s.next codec (some signal), cursor := s.cursor + 1 }
    | .error e => { s with stage := .failed ("decode signal: " ++ e), cursor := s.cursor + 1 }

end Instance

/-! ## The two instances, their sessions and the server -/

/-- The two instances, their sessions and the server. `link role` is the mailbox that the instance
of `role` writes and its peer reads, with what the two sessions are doing there; all are at the one
server. -/
structure Rendezvous where
  server : Server
  inst : Role → Instance
  link : Role → Link

/-- What can happen: a call of the peer connection or of a stream returns; an instance begins the
mailbox call at which it stands; the server takes its publish or done, and that call returns; the
server takes its fetch, the fetch's response leaves, and it arrives; or the server does anything
else. -/
inductive RendezvousAct where
  | call (role : Role) (e : Event)
  | request (role : Role)
  | post (role : Role) (now : Instant)
  | ack (role : Role)
  | get (role : Role) (now : Instant)
  | reply (role : Role)
  | take (role : Role)
  | serve (a : ServerAct)

/-- What a `send` or `done` returns for a response. -/
def posts (s : Signaling.Session) (request : Request) (r : Response) : Except Error Unit :=
  match request with
  | .publish .. => s.sent r
  | _ => s.marked r

namespace Rendezvous

/-- Two instances that have opened their sessions, in a room of a fresh server. -/
def start (p : Peers) (config : Config) (clients : Role → Client) (room : RoomId) :
    Rendezvous where
  server := .start config.limits
  inst := .start p
  link role := .start config (clients role) (clients role.peer) room role

/-- The mailbox of an instance, at the server. -/
def mailbox (s : Rendezvous) (role : Role) : Link := { s.link role with server := s.server }

/-- Something happens at the mailbox of an instance. -/
def act (s : Rendezvous) (role : Role) (a : LinkAct) : Option Rendezvous :=
  ((s.mailbox role).step a).map fun l =>
    { s with server := l.server, link := Function.update s.link role l }

/-- An instance goes on. -/
def goOn (s : Rendezvous) (role : Role) (i : Instance) : Rendezvous :=
  { s with inst := Function.update s.inst role i }

/-- An instance begins the mailbox call at which it stands. Source: `publish`, `done`,
`recv_signal`. -/
def request (p : Peers) (s : Rendezvous) (role : Role) : Option Rendezvous :=
  match (s.inst role).stage with
  | .recvOffer | .consume => s.act role.peer .recv
  | .done => s.act role .done
  | stage =>
    match stage.publishes with
    | none => none
    | some signal =>
      match p.codec.toVec signal with
      | .ok blob => s.act role (.send blob)
      | .error e =>
        some (s.goOn role { s.inst role with stage := .failed ("encode signal: " ++ e) })

/-- A `send` or `done` returns. -/
def ack (p : Peers) (s : Rendezvous) (role : Role) : Option Rendezvous :=
  match (s.link role).posting with
  | .answered request r =>
    (s.act role .ack).map fun s' =>
      s'.goOn role ((s.inst role).posted p role (posts (s.link role).publisher request r))
  | _ => none

/-- The response to a fetch arrives: the `recv` returns, or fetches again. -/
def take (p : Peers) (s : Rendezvous) (role : Role) : Option Rendezvous :=
  match (s.link role.peer).fetching with
  | .answered seq r =>
    (s.act role.peer .take).map fun s' =>
      match (s.link role.peer).consumer.received seq r with
      | .ret result _ => s'.goOn role ((s.inst role).received p.codec result)
      | .again => s'
  | _ => none

/-- One step. What else the server does writes neither mailbox and does not remove the room. -/
def step (p : Peers) (s : Rendezvous) : RendezvousAct → Option Rendezvous
  | .call _ (.session _) => none
  | .call role e =>
    ((s.inst role).step p role ⟨[], false⟩ ⟨[], false⟩ e).map fun q => s.goOn role q.1
  | .request role => s.request p role
  | .post role now => s.act role (.post now)
  | .ack role => s.ack p role
  | .get role now => s.act role.peer (.get now)
  | .reply role => s.act role.peer .reply
  | .take role => s.take p role
  | .serve a =>
    ((s.mailbox .offerer).step (.serve a)).bind fun l =>
      ((s.mailbox .answerer).step (.serve a)).map fun _ => { s with server := l.server }

/-- The instance as far as its mailbox has heard of it: with a publish or done that the server
accepted, it has gone on. -/
def ahead (p : Peers) (s : Rendezvous) (role : Role) : Instance :=
  match (s.link role).posting with
  | .answered _ r =>
    if r.isSuccess then (s.inst role).posted p role (.ok ()) else s.inst role
  | _ => s.inst role

/-- The handshake that the sessions and the server carry. -/
def abs (p : Peers) (s : Rendezvous) : Handshake where
  inst := s.ahead p
  box role := (s.link role).log

end Rendezvous

/-! ## What an instance's calls do -/

/-- The instance makes a mailbox call at the stage. -/
def Stage.isMailbox : Stage → Bool
  | .recvOffer | .publishDescription _ | .publishCandidates _ | .done | .consume => true
  | _ => false

namespace Instance

variable {p : Peers} {role : Role} {s : Instance} {q : Instance × Log Bytes} {e : Event}
  {r : Except Error Unit} {signal : Signal} {blob : Bytes}

theorem called_frame (s : Instance) (text : String) (r : Except Error Unit) (effect : List Applied)
    (next : Stage) : (s.called text r effect next).cursor = s.cursor := by
  unfold called
  split <;> rfl

theorem read_frame {t : Instance} {out : List IceCandidate} {n : Nat} {ended : Bool}
    (h : s.read out n ended = some t) : t.cursor = s.cursor := by
  unfold read at h
  repeat' split at h
  all_goals cases h
  all_goals rfl

/-- A call that is not of the session does not look at the mailboxes. -/
theorem step_call (he : ∀ r, e ≠ .session r)
    (hs : s.step p role ⟨[], false⟩ ⟨[], false⟩ e = some q) (own peer : Log Bytes) :
    s.step p role own peer e = some (q.1, own) ∧ q.1.cursor = s.cursor ∧
      s.stage.isMailbox = false := by
  cases e with
  | session r => exact absurd rfl (he r)
  | call r =>
    cases hst : s.stage with
    | createDataChannel | createOffer | setRemoteOffer | createAnswer | setLocalDescription
    | setRemoteAnswer | addCandidate | waitConnected =>
      simp only [step, hst, Option.some.injEq] at hs ⊢
      subst hs
      exact ⟨rfl, called_frame .., rfl⟩
    | publishCandidates rest => cases rest <;> simp [step, hst] at hs
    | recvOffer | publishDescription | collect | done | consume | firstIncoming | finished
    | failed => simp [step, hst] at hs
  | read n ended =>
    cases hst : s.stage with
    | collect out =>
      simp only [step, hst, Option.map_eq_some_iff] at hs ⊢
      obtain ⟨t, ht, rfl⟩ := hs
      exact ⟨⟨t, ht, rfl⟩, read_frame ht, rfl⟩
    | publishCandidates rest => cases rest <;> simp [step, hst] at hs
    | createDataChannel | createOffer | recvOffer | setRemoteOffer | createAnswer
    | setLocalDescription | publishDescription | done | consume | setRemoteAnswer | addCandidate
    | waitConnected | firstIncoming | finished | failed => simp [step, hst] at hs
  | incoming found =>
    cases hst : s.stage with
    | firstIncoming =>
      simp only [step, hst, Option.some.injEq] at hs ⊢
      subst hs
      exact ⟨rfl, rfl, rfl⟩
    | publishCandidates rest => cases rest <;> simp [step, hst] at hs
    | createDataChannel | createOffer | recvOffer | setRemoteOffer | createAnswer
    | setLocalDescription | publishDescription | collect | done | consume | setRemoteAnswer
    | addCandidate | waitConnected | finished | failed => simp [step, hst] at hs

theorem isMailbox_of_publishes (h : s.stage.publishes = some signal) :
    s.stage.isMailbox = true := by
  cases hst : s.stage with
  | publishDescription | publishCandidates => rfl
  | createDataChannel | createOffer | recvOffer | setRemoteOffer | createAnswer
  | setLocalDescription | collect | done | consume | setRemoteAnswer | addCandidate
  | waitConnected | firstIncoming | finished | failed => rw [hst] at h; cases h

/-- What a mailbox holds after a publish or done of this result. -/
def wrote (own after : Log Bytes) : Except Error Unit → Log Bytes
  | .ok () => after
  | .error _ => own

/-- A publish returns. -/
theorem step_publish (hst : s.stage.publishes = some signal)
    (hc : p.codec.toVec signal = .ok blob) (own peer : Log Bytes) (r : Except Error Unit) :
    s.step p role own peer (.session r) = some (s.posted p role r,
        wrote own { own with entries := own.entries ++ [blob] } r) ∧
      (s.posted p role r).cursor = s.cursor ∧ (s.posted p role r).applied = s.applied := by
  have hpub : ∀ own next, s.publish p.codec own r signal next =
      ((s.publish p.codec ⟨[], false⟩ r signal next).1,
        wrote own { own with entries := own.entries ++ [blob] } r) ∧
      (s.publish p.codec own r signal next).1.cursor = s.cursor ∧
      (s.publish p.codec own r signal next).1.applied = s.applied := by
    intro own next
    unfold publish
    rw [hc]
    cases r <;> exact ⟨rfl, rfl, rfl⟩
  unfold posted
  cases hs : s.stage with
  | publishDescription description =>
    rw [hs] at hst
    cases hst
    simp only [step, hs, (hpub own (.collect [])).1]
    exact ⟨trivial, (hpub _ _).2⟩
  | publishCandidates rest =>
    rw [hs] at hst
    cases rest with
    | nil =>
      cases hst
      simp only [step, hs, (hpub own .done).1]
      exact ⟨trivial, (hpub _ _).2⟩
    | cons c rest =>
      cases hst
      simp only [step, hs, (hpub own (.publishCandidates rest)).1]
      exact ⟨trivial, (hpub _ _).2⟩
  | createDataChannel | createOffer | recvOffer | setRemoteOffer | createAnswer
  | setLocalDescription | collect | done | consume | setRemoteAnswer | addCandidate
  | waitConnected | firstIncoming | finished | failed => rw [hs] at hst; cases hst

/-- A publish whose signal cannot be encoded fails. -/
theorem step_encode {text : String} (hst : s.stage.publishes = some signal)
    (hc : p.codec.toVec signal = .error text) (own peer : Log Bytes) :
    s.step p role own peer (.session (.ok ())) =
      some ({ s with stage := .failed ("encode signal: " ++ text) }, own) := by
  cases hs : s.stage with
  | publishDescription description =>
    rw [hs] at hst
    cases hst
    simp only [step, hs, publish, hc]
  | publishCandidates rest =>
    rw [hs] at hst
    cases rest with
    | nil | cons =>
      cases hst
      simp only [step, hs, publish, hc]
  | createDataChannel | createOffer | recvOffer | setRemoteOffer | createAnswer
  | setLocalDescription | collect | done | consume | setRemoteAnswer | addCandidate
  | waitConnected | firstIncoming | finished | failed => rw [hs] at hst; cases hst

/-- A done returns. -/
theorem step_done (hst : s.stage = .done) (own peer : Log Bytes) (r : Except Error Unit) :
    s.step p role own peer (.session r) =
        some (s.posted p role r, wrote own { own with shut := true } r) ∧
      (s.posted p role r).cursor = s.cursor ∧ (s.posted p role r).applied = s.applied := by
  unfold posted
  simp only [step, hst]
  cases r <;> exact ⟨rfl, rfl, rfl⟩

/-- The instance reads its peer's mailbox at the stage. -/
def Reading (s : Instance) : Prop := s.stage = .recvOffer ∨ s.stage = .consume

theorem step_recv (h : s.Reading) (own peer : Log Bytes) :
    s.step p role own peer (.session (.ok ())) =
      (s.recv p.codec peer (.ok ()) (s.next p.codec)).map (·, own) := by
  obtain hst | hst := h <;> simp only [step, hst, next]

/-- A `recv` returns the blob at the cursor. -/
theorem step_item (p : Peers) (role : Role) (own : Log Bytes) {peer : Log Bytes} (h : s.Reading)
    (hl : peer.look s.cursor = .item blob) :
    s.step p role own peer (.session (.ok ())) =
        some (s.received p.codec (.ok (some blob)), own) ∧
      (s.received p.codec (.ok (some blob))).cursor = s.cursor + 1 := by
  rw [step_recv h]
  unfold recv received
  simp only [hl]
  cases p.codec.fromSlice blob <;> exact ⟨rfl, rfl⟩

/-- A `recv` returns the end. -/
theorem step_over (p : Peers) (role : Role) (own : Log Bytes) {peer : Log Bytes} (h : s.Reading)
    (hl : peer.look s.cursor = .over) :
    s.step p role own peer (.session (.ok ())) = some (s.received p.codec (.ok none), own) ∧
      (s.received p.codec (.ok none)).cursor = s.cursor := by
  rw [step_recv h]
  unfold recv received
  simp only [hl]
  exact ⟨rfl, trivial⟩

end Instance

/-! ## The sessions are where their instances are -/

theorem peer_ne (role : Role) : role.peer ≠ role := by cases role <;> nofun

theorem eq_or_peer (role role' : Role) : role' = role ∨ role' = role.peer := by
  cases role <;> cases role' <;> simp [Signaling.Role.peer]

/-- The publish or done that is under way at a mailbox is the one at which its instance stands. -/
def Instance.Sends (p : Peers) (s : Instance) (l : Link) : Prop :=
  ∀ request, (l.posting = .requesting request ∨ ∃ r, l.posting = .answered request r) →
    (request = l.publisher.doneRequest ∧ s.stage = .done) ∨
    ∃ signal blob, s.stage.publishes = some signal ∧ p.codec.toVec signal = .ok blob ∧
      request = l.publisher.sendRequest blob

namespace Rendezvous

/-- What every run keeps: each mailbox is sound, between the sessions that were opened, and what is
under way there is a call at which an instance stands. -/
structure Synced (p : Peers) (config : Config) (clients : Role → Client) (room : RoomId)
    (s : Rendezvous) : Prop where
  inv : ∀ role, (s.mailbox role).Inv
  configured : ∀ role, (s.link role).config = config
  publisher : ∀ role, (s.link role).publisher = .open (clients role) room role
  sends : ∀ role, (s.inst role).Sends p (s.link role)
  reads : ∀ role, (s.link role.peer).fetching ≠ .idle → (s.inst role).Reading
  cursor : ∀ role, (s.inst role).cursor = (s.link role.peer).consumer.recvSeq

/-- The calls that a step makes return succeed. -/
def Succeeds (s : Rendezvous) : RendezvousAct → Prop
  | .call _ e => e.Succeeds
  | .ack role => ∀ request r, (s.link role).posting = .answered request r → r.isSuccess = true
  | _ => True

/-- What a step shows in the handshake: nothing, or the return of a call, which succeeds if `ok`. -/
def Shows (p : Peers) (ok : Prop) (s s' : Rendezvous) : Prop :=
  s'.abs p = s.abs p ∨
    ∃ a, (s.abs p).step p a = some (s'.abs p) ∧ (ok → a.2.Succeeds)

section
variable {p : Peers} {config : Config} {clients : Role → Client} {room : RoomId}
  {s s' : Rendezvous} {role : Role} {a : LinkAct} {ok : Prop}

theorem ahead_congr (hp : (s'.link role).posting = (s.link role).posting)
    (hi : s'.inst role = s.inst role) : s'.ahead p role = s.ahead p role := by
  unfold ahead
  rw [hp, hi]

/-- An instance whose session posts nothing is where its mailbox has heard of it. -/
theorem ahead_of_idle (h : ∀ request r, (s.link role).posting ≠ .answered request r) :
    s.ahead p role = s.inst role := by
  unfold ahead
  split
  · next request r hp => exact absurd hp (h request r)
  · rfl

/-- A step of one instance and its mailbox, seen in the handshake. -/
theorem abs_step {e : Event} {b : Log Bytes}
    (hs : (s.ahead p role).step p role (s.link role).log (s.link role.peer).log e =
      some (s'.ahead p role, b))
    (hb : (s'.link role).log = b) (hi : s'.ahead p role.peer = s.ahead p role.peer)
    (hl : (s'.link role.peer).log = (s.link role.peer).log) :
    (s.abs p).step p (role, e) = some (s'.abs p) := by
  refine Option.map_eq_some_iff.2 ⟨_, hs, ?_⟩
  have hinst : Function.update (s.ahead p) role (s'.ahead p role) = s'.ahead p := by
    funext r
    obtain rfl | rfl := eq_or_peer role r
    · rw [Function.update_self]
    · rw [Function.update_of_ne (peer_ne role), hi]
  have hbox : Function.update (fun r => (s.link r).log) role b = fun r => (s'.link r).log := by
    funext r
    obtain rfl | rfl := eq_or_peer role r
    · rw [Function.update_self, hb]
    · rw [Function.update_of_ne (peer_ne role), hl]
  simp only [abs, hinst, hbox]

theorem abs_eq (hi : ∀ role, s'.ahead p role = s.ahead p role)
    (hl : ∀ role, (s'.link role).log = (s.link role).log) : s'.abs p = s.abs p := by
  simp only [abs, funext hi, hl]

/-- Something other than a request of anyone else happens at one mailbox. -/
theorem Synced.act (h : s.Synced p config clients room) (ha : ∀ b, a ≠ .serve b)
    (hs : s.act role a = some s') :
    (∃ l, (s.mailbox role).step a = some l ∧ s'.link role = l) ∧
      s'.inst = s.inst ∧ s'.link role.peer = s.link role.peer ∧
      (∀ r, (s'.mailbox r).Inv) ∧ (∀ r, (s'.link r).config = config) ∧
      ∀ r, (s'.link r).publisher = .open (clients r) room r := by
  obtain ⟨l, hl, rfl⟩ := Option.map_eq_some_iff.1 hs
  have hself : Function.update s.link role l role = l := Function.update_self ..
  have hother : Function.update s.link role l role.peer = s.link role.peer :=
    Function.update_of_ne (peer_ne role) ..
  obtain ⟨hpub, hconf⟩ := Link.step_frame hl
  refine ⟨⟨l, hl, hself⟩, rfl, hother, ?_, ?_, ?_⟩
  · intro r
    obtain rfl | rfl := eq_or_peer role r
    · show Link.Inv { Function.update s.link r l r with server := l.server }
      rw [hself]
      exact (h.inv r).step hl
    · show Link.Inv { Function.update s.link role l role.peer with server := l.server }
      rw [hother]
      refine (h.inv role.peer).of_serves (s := s.mailbox role) rfl ((h.inv role).serves ha hl) ?_
      show (s.link role.peer).publisher.role ≠ (s.link role).publisher.role
      rw [h.publisher, h.publisher]
      exact peer_ne role
  · intro r
    obtain rfl | rfl := eq_or_peer role r
    · exact (congrArg Link.config hself).trans (hconf.trans (h.configured r))
    · exact (congrArg Link.config hother).trans (h.configured role.peer)
  · intro r
    obtain rfl | rfl := eq_or_peer role r
    · exact (congrArg Link.publisher hself).trans (hpub.trans (h.publisher r))
    · exact (congrArg Link.publisher hother).trans (h.publisher role.peer)

/-- What a mailbox is doing, when only the instance's other calls are under way. -/
theorem Synced.idle (h : s.Synced p config clients room)
    (hst : (s.inst role).stage.isMailbox = false) :
    (s.link role).posting = .idle ∧ (s.link role.peer).fetching = .idle := by
  constructor
  · cases hp : (s.link role).posting with
    | idle => rfl
    | requesting request =>
      obtain ⟨-, hd⟩ | ⟨signal, blob, hd, -⟩ := h.sends role request (.inl hp)
      · rw [hd] at hst; cases hst
      · rw [Instance.isMailbox_of_publishes hd] at hst; cases hst
    | answered request r =>
      obtain ⟨-, hd⟩ | ⟨signal, blob, hd, -⟩ := h.sends role request (.inr ⟨r, hp⟩)
      · rw [hd] at hst; cases hst
      · rw [Instance.isMailbox_of_publishes hd] at hst; cases hst
  · by_contra hf
    obtain hd | hd := h.reads role hf <;> rw [hd] at hst <;> cases hst

/-- An instance that reads has no publish or done under way. -/
theorem Synced.idle_of_reading (h : s.Synced p config clients room)
    (hr : (s.inst role).Reading) : (s.link role).posting = .idle := by
  have hno : ∀ request, ¬ ((s.link role).posting = .requesting request ∨
      ∃ r, (s.link role).posting = .answered request r) := by
    intro request hp
    obtain ⟨-, hd⟩ | ⟨signal, blob, hd, -⟩ := h.sends role request hp
    · obtain hst | hst := hr <;> rw [hst] at hd <;> cases hd
    · obtain hst | hst := hr <;> rw [hst] at hd <;> cases hd
  cases hp : (s.link role).posting with
  | idle => rfl
  | requesting request => exact absurd (.inl hp) (hno request)
  | answered request r => exact absurd (.inr ⟨r, hp⟩) (hno request)

/-- An instance with a publish or done under way does not read. -/
theorem Synced.idle_of_posting (h : s.Synced p config clients room)
    (hp : (s.link role).posting ≠ .idle) : (s.link role.peer).fetching = .idle := by
  by_contra hf
  exact hp (h.idle_of_reading (h.reads role hf))

/-- The instances go on while their mailboxes are as they were, or step. -/
theorem Synced.of_act (h : s.Synced p config clients room) (ha : ∀ b, a ≠ .serve b)
    (hs : s.act role a = some s') (inst : Role → Instance)
    (hsends : ∀ r, (inst r).Sends p (s'.link r))
    (hreads : ∀ r, (s'.link r.peer).fetching ≠ .idle → (inst r).Reading)
    (hcursor : ∀ r, (inst r).cursor = (s'.link r.peer).consumer.recvSeq) :
    Synced p config clients room { s' with inst } := by
  obtain ⟨-, -, -, hinv, hconf, hpub⟩ := h.act ha hs
  exact ⟨hinv, hconf, hpub, hsends, hreads, hcursor⟩

theorem sends_congr {l l' : Link} {i : Instance} (hp : l'.posting = l.posting)
    (hpub : l'.publisher = l.publisher) (h : i.Sends p l) : i.Sends p l' := by
  intro request hr
  rw [hp] at hr
  rw [hpub]
  exact h request hr

/-- Nothing is under way at an idle mailbox. -/
theorem sends_of_idle {l : Link} (i : Instance) (hp : l.posting = .idle) : i.Sends p l := by
  rintro request (hr | ⟨r, hr⟩) <;> rw [hp] at hr <;> cases hr

@[simp] theorem goOn_inst (s : Rendezvous) (role : Role) (i : Instance) :
    (s.goOn role i).inst role = i := Function.update_self ..

@[simp] theorem goOn_inst_peer (s : Rendezvous) (role : Role) (i : Instance) :
    (s.goOn role i).inst role.peer = s.inst role.peer := Function.update_of_ne (peer_ne role) ..

/-- An instance whose session does nothing goes on. -/
theorem Synced.goOn (h : s.Synced p config clients room) {i : Instance}
    (hp : (s.link role).posting = .idle) (hf : (s.link role.peer).fetching = .idle)
    (hcur : i.cursor = (s.inst role).cursor) : (s.goOn role i).Synced p config clients room := by
  refine ⟨h.inv, h.configured, h.publisher, fun r => ?_, fun r hne => ?_, fun r => ?_⟩
  all_goals obtain rfl | rfl := eq_or_peer role r
  · exact sends_of_idle _ hp
  · rw [goOn_inst_peer]
    exact h.sends role.peer
  · exact absurd hf hne
  · rw [goOn_inst_peer]
    exact h.reads role.peer hne
  · rw [goOn_inst, hcur]
    exact h.cursor r
  · rw [goOn_inst_peer]
    exact h.cursor role.peer

/-- The step of an instance whose session does nothing, seen in the handshake. -/
theorem shows_goOn {i : Instance} {e : Event} (hp : (s.link role).posting = .idle)
    (hs : (s.inst role).step p role (s.link role).log (s.link role.peer).log e =
      some (i, (s.link role).log)) (he : ok → e.Succeeds) : Shows p ok s (s.goOn role i) := by
  have hno : ∀ request r, (s.link role).posting ≠ .answered request r := by
    intro request r hr
    rw [hp] at hr
    cases hr
  refine .inr ⟨(role, e), abs_step (b := (s.link role).log) ?_ rfl ?_ rfl, he⟩
  · rw [ahead_of_idle hno, ahead_of_idle (s := s.goOn role i) hno, goOn_inst, hs]
  · exact ahead_congr rfl (goOn_inst_peer s role i)

/-- A call of the peer connection or of a stream returns. -/
theorem Synced.step_call (h : s.Synced p config clients room) {e : Event}
    (he : ∀ r, e ≠ .session r)
    (hs : ((s.inst role).step p role ⟨[], false⟩ ⟨[], false⟩ e).map
      (fun q => s.goOn role q.1) = some s') :
    s'.Synced p config clients room ∧ Shows p e.Succeeds s s' := by
  obtain ⟨q, hq, rfl⟩ := Option.map_eq_some_iff.1 hs
  obtain ⟨hstep, hcur, hst⟩ := Instance.step_call he hq (s.link role).log (s.link role.peer).log
  obtain ⟨hp, hf⟩ := h.idle hst
  exact ⟨h.goOn hp hf hcur, shows_goOn hp hstep id⟩

/-- A read of the peer's mailbox begins, or its fetch goes on. -/
theorem Synced.step_fetch (h : s.Synced p config clients room)
    (ha : a = .recv ∨ (∃ now, a = .get now) ∨ a = .reply)
    (hr : a = .recv → (s.inst role.peer).Reading) (hs : s.act role a = some s') :
    s'.Synced p config clients room ∧ Shows p ok s s' := by
  have hserve : ∀ b, a ≠ .serve b := by
    obtain rfl | ⟨now, rfl⟩ | rfl := ha <;> intro b hb <;> cases hb
  obtain ⟨⟨l, hl, hself⟩, hinst, hother, -, -, -⟩ := h.act hserve hs
  obtain ⟨hp, hlog, hcons, hf⟩ := Link.step_fetch ha hl
  obtain ⟨hpub, -⟩ := Link.step_frame hl
  rw [← hself] at hp hlog hcons hpub
  have hreading : (s.inst role.peer).Reading := by
    obtain hf | hf := hf
    · exact hr hf
    · refine h.reads role.peer ?_
      rwa [Signaling.Role.peer_peer]
  constructor
  · refine h.of_act hserve hs s'.inst (fun r => ?_) (fun r hne => ?_) (fun r => ?_)
    all_goals rw [hinst]
    all_goals obtain rfl | rfl := eq_or_peer role r
    · exact sends_congr hp hpub (h.sends r)
    · rw [hother]
      exact h.sends role.peer
    · rw [hother] at hne
      exact h.reads r hne
    · exact hreading
    · rw [hother]
      exact h.cursor r
    · rw [h.cursor role.peer, Signaling.Role.peer_peer, hcons]
      rfl
  · refine .inl (abs_eq (fun r => ?_) fun r => ?_)
    all_goals obtain rfl | rfl := eq_or_peer role r
    · exact ahead_congr hp (by rw [hinst])
    · exact ahead_congr (by rw [hother]) (by rw [hinst])
    · exact hlog
    · rw [hother]

/-- A publish or done begins. -/
theorem Synced.step_begin (h : s.Synced p config clients room) {request : Request}
    (ha : (∃ blob, a = .send blob ∧ request = (s.link role).publisher.sendRequest blob) ∨
      a = .done ∧ request = (s.link role).publisher.doneRequest)
    (hst : (request = (s.link role).publisher.doneRequest ∧ (s.inst role).stage = .done) ∨
      ∃ signal blob, (s.inst role).stage.publishes = some signal ∧
        p.codec.toVec signal = .ok blob ∧ request = (s.link role).publisher.sendRequest blob)
    (hs : s.act role a = some s') :
    s'.Synced p config clients room ∧ Shows p ok s s' := by
  have hserve : ∀ b, a ≠ .serve b := by
    obtain ⟨blob, rfl, -⟩ | ⟨rfl, -⟩ := ha <;> intro b hb <;> cases hb
  obtain ⟨⟨l, hl, hself⟩, hinst, hother, -, -, -⟩ := h.act hserve hs
  obtain ⟨hp, rfl⟩ := Link.step_begin (s := s.mailbox role) ha hl
  have hp' : (s.link role).posting = .idle := hp
  constructor
  · refine h.of_act hserve hs s'.inst (fun r => ?_) (fun r hne => ?_) (fun r => ?_)
    all_goals rw [hinst]
    all_goals obtain rfl | rfl := eq_or_peer role r
    · rintro req (hr | ⟨x, hr⟩)
      · rw [hself] at hr
        cases hr
        rw [hself]
        exact hst
      · rw [hself] at hr
        cases hr
    · rw [hother]
      exact h.sends role.peer
    · rw [hother] at hne
      exact h.reads r hne
    · refine h.reads role.peer fun hi => hne ?_
      rw [Signaling.Role.peer_peer] at hi ⊢
      rw [hself]
      exact hi
    · rw [hother]
      exact h.cursor r
    · rw [h.cursor role.peer, Signaling.Role.peer_peer, hself]
      rfl
  · refine .inl (abs_eq (fun r => ?_) fun r => ?_)
    all_goals obtain rfl | rfl := eq_or_peer role r
    · rw [ahead_of_idle fun req x hr => ?_, ahead_of_idle fun req x hr => ?_, hinst]
      · rw [hp'] at hr
        cases hr
      · rw [hself] at hr
        cases hr
    · exact ahead_congr (by rw [hother]) (by rw [hinst])
    · rw [hself]
      rfl
    · rw [hother]

/-- An instance begins its mailbox call. -/
theorem Synced.step_request (h : s.Synced p config clients room)
    (hs : s.request p role = some s') :
    s'.Synced p config clients room ∧ Shows p True s s' := by
  have hrecv : (s.inst role).Reading → s.act role.peer .recv = some s' →
      s'.Synced p config clients room ∧ Shows p True s s' := by
    intro hr hs
    exact h.step_fetch (.inl rfl) (fun _ => by rwa [Signaling.Role.peer_peer]) hs
  unfold request at hs
  split at hs
  · next hst => exact hrecv (.inl hst) hs
  · next hst => exact hrecv (.inr hst) hs
  · next hst => exact h.step_begin (.inr ⟨rfl, rfl⟩) (.inl ⟨rfl, hst⟩) hs
  · split at hs
    · cases hs
    · next signal hsig =>
      split at hs
      · next blob hc =>
        exact h.step_begin (.inl ⟨blob, rfl, rfl⟩) (.inr ⟨signal, blob, hsig, hc, rfl⟩) hs
      · next text hc =>
        cases hs
        -- the signal of a publish under way was encoded
        have hp : (s.link role).posting = .idle := by
          by_contra hne
          obtain ⟨request, hr⟩ : ∃ request, (s.link role).posting = .requesting request ∨
              ∃ r, (s.link role).posting = .answered request r := by
            cases hp : (s.link role).posting with
            | idle => exact absurd hp hne
            | requesting request => exact ⟨request, .inl rfl⟩
            | answered request r => exact ⟨request, .inr ⟨r, rfl⟩⟩
          obtain ⟨-, hd⟩ | ⟨signal', blob, hsig', hc', -⟩ := h.sends role request hr
          · rw [hd] at hsig; cases hsig
          · cases hsig.symm.trans hsig'
            cases hc.symm.trans hc'
        have hf : (s.link role.peer).fetching = .idle := by
          by_contra hne
          obtain hst | hst := h.reads role hne <;> rw [hst] at hsig <;> cases hsig
        exact ⟨h.goOn hp hf rfl, shows_goOn hp (Instance.step_encode hsig hc _ _) fun _ => rfl⟩

/-- The call of an instance whose request is under way, with the mailbox after it. -/
theorem Synced.step_posted (h : s.Synced p config clients room) {request : Request}
    (hr : (s.link role).posting = .requesting request ∨
      ∃ r, (s.link role).posting = .answered request r) (own peer : Log Bytes)
    (r : Except Error Unit) :
    (s.inst role).step p role own peer (.session r) = some ((s.inst role).posted p role r,
        Instance.wrote own (Link.wrote own request) r) ∧
      ((s.inst role).posted p role r).cursor = (s.inst role).cursor ∧
      ((s.inst role).posted p role r).applied = (s.inst role).applied := by
  obtain ⟨rfl, hst⟩ | ⟨signal, blob, hst, hc, rfl⟩ := h.sends role request hr
  · exact Instance.step_done hst own peer r
  · exact Instance.step_publish hst hc own peer r

/-- The server takes a publish or done: if it accepts it, the handshake goes on. -/
theorem Synced.step_post (h : s.Synced p config clients room) {now : Instant}
    (hs : s.act role (.post now) = some s') :
    s'.Synced p config clients room ∧ ∃ request r,
      (s.link role).posting = .requesting request ∧
      (s'.link role).posting = .answered request r ∧
      (r.isSuccess = true →
        (s.abs p).step p (role, .session (.ok ())) = some (s'.abs p)) ∧
      (r.isSuccess = false → s'.abs p = s.abs p) := by
  have hserve : ∀ b, LinkAct.post now ≠ .serve b := nofun
  obtain ⟨⟨l, hl, hself⟩, hinst, hother, -, -, hpubs⟩ := h.act hserve hs
  obtain ⟨request, r, hp, hp', hfetch, hcons, hlog⟩ := (h.inv role).step_post hl
  have hp : (s.link role).posting = .requesting request := hp
  have hlog : l.log = if r.isSuccess then Link.wrote (s.link role).log request
    else (s.link role).log := hlog
  rw [← hself] at hp' hfetch hcons hlog
  have hbefore : s.ahead p role = s.inst role := ahead_of_idle fun req x hr => by
    rw [hp] at hr
    cases hr
  have hother' : s'.ahead p role.peer = s.ahead p role.peer :=
    ahead_congr (by rw [hother]) (by rw [hinst])
  refine ⟨?_, request, r, hp, hp', fun hsucc => ?_, fun hsucc => ?_⟩
  · refine h.of_act hserve hs s'.inst (fun r => ?_) (fun r hne => ?_) (fun r => ?_)
    all_goals rw [hinst]
    all_goals obtain rfl | rfl := eq_or_peer role r
    · rintro req (hr | ⟨x, hr⟩)
      · rw [hp'] at hr
        cases hr
      · rw [hp'] at hr
        cases hr
        rw [hpubs, ← h.publisher]
        exact h.sends r request (.inl hp)
    · rw [hother]
      exact h.sends role.peer
    · rw [hother] at hne
      exact h.reads r hne
    · refine h.reads role.peer fun hi => hne ?_
      rw [Signaling.Role.peer_peer] at hi ⊢
      rw [hfetch]
      exact hi
    · rw [hother]
      exact h.cursor r
    · rw [h.cursor role.peer, Signaling.Role.peer_peer, hcons]
      rfl
  · have hafter : s'.ahead p role = (s.inst role).posted p role (.ok ()) := by
      unfold ahead
      rw [hp', hinst]
      simp only [hsucc, if_true]
    rw [hsucc, if_pos rfl] at hlog
    refine abs_step ?_ hlog hother' (by rw [hother])
    rw [hbefore, hafter]
    exact (h.step_posted (.inl hp) _ _ _).1
  · have hafter : s'.ahead p role = s.inst role := by
      unfold ahead
      rw [hp', hinst]
      simp only [hsucc, Bool.false_eq_true, if_false]
    rw [hsucc] at hlog
    refine abs_eq (fun r => ?_) fun r => ?_
    all_goals obtain rfl | rfl := eq_or_peer role r
    · rw [hafter, hbefore]
    · exact hother'
    · exact hlog
    · rw [hother]

/-- A `send` or `done` succeeds when the response does. -/
theorem posts_cases (session : Signaling.Session) (request : Request) (r : Response) :
    (r.isSuccess = true ∧ posts session request r = .ok ()) ∨
      r.isSuccess = false ∧ ∃ e, posts session request r = .error e := by
  unfold posts Signaling.Session.sent Signaling.Session.marked Signaling.posted
  cases hr : r.isSuccess with
  | true => cases request <;> cases session.client <;> simp [hr]
  | false => cases request <;> cases session.client <;> simp [hr]

/-- A `send` or `done` returns. -/
theorem Synced.step_ack (h : s.Synced p config clients room) (hs : s.ack p role = some s') :
    s'.Synced p config clients room ∧ Shows p (s.Succeeds (.ack role)) s s' := by
  unfold ack at hs
  split at hs
  swap
  · cases hs
  next request r hp =>
  obtain ⟨s₁, hs₁, rfl⟩ := Option.map_eq_some_iff.1 hs
  have hserve : ∀ b, LinkAct.ack ≠ .serve b := nofun
  obtain ⟨⟨l, hl, hself⟩, hinst, hother, -, -, -⟩ := h.act hserve hs₁
  obtain ⟨hidle, hlog, hfetch, hcons⟩ := Link.step_ack hl
  rw [← hself] at hidle hlog hfetch hcons
  have hf : (s₁.link role.peer).fetching = .idle := by
    rw [hother]
    exact h.idle_of_posting fun hi => by rw [hp] at hi; cases hi
  have h₁ : s₁.Synced p config clients room := by
    refine h.of_act hserve hs₁ s₁.inst (fun r => ?_) (fun r hne => ?_) (fun r => ?_)
    all_goals rw [hinst]
    all_goals obtain rfl | rfl := eq_or_peer role r
    · exact sends_of_idle _ hidle
    · rw [hother]
      exact h.sends role.peer
    · exact absurd hf hne
    · refine h.reads role.peer fun hi => hne ?_
      rw [Signaling.Role.peer_peer] at hi ⊢
      rw [hfetch]
      exact hi
    · rw [hother]
      exact h.cursor r
    · rw [h.cursor role.peer, Signaling.Role.peer_peer, hcons]
      rfl
  have hstep := h.step_posted (.inr ⟨r, hp⟩) (s.link role).log (s.link role.peer).log
    (posts (s.link role).publisher request r)
  refine ⟨h₁.goOn hidle hf (hstep.2.1.trans (by rw [hinst])), ?_⟩
  have hafter : (s₁.goOn role ((s.inst role).posted p role
      (posts (s.link role).publisher request r))).ahead p role =
        (s.inst role).posted p role (posts (s.link role).publisher request r) := by
    rw [ahead_of_idle fun req x hr => ?_, goOn_inst]
    have hr : (s₁.link role).posting = .answered req x := hr
    rw [hidle] at hr
    cases hr
  have hother' : (s₁.goOn role ((s.inst role).posted p role
      (posts (s.link role).publisher request r))).ahead p role.peer = s.ahead p role.peer := by
    refine ahead_congr ?_ ?_
    · show (s₁.link role.peer).posting = _
      rw [hother]
    · rw [goOn_inst_peer, hinst]
  obtain ⟨hsucc, hok⟩ | ⟨hsucc, e, he⟩ := posts_cases (s.link role).publisher request r
  · refine .inl (abs_eq (fun x => ?_) fun x => ?_)
    all_goals obtain rfl | rfl := eq_or_peer role x
    · rw [hafter, hok]
      unfold ahead
      rw [hp]
      simp only [hsucc, if_true]
    · exact hother'
    · exact hlog
    · show (s₁.link role.peer).log = _
      rw [hother]
  · have hbefore : s.ahead p role = s.inst role := by
      unfold ahead
      rw [hp]
      simp only [hsucc, Bool.false_eq_true, if_false]
    refine .inr ⟨(role, .session (posts (s.link role).publisher request r)),
      abs_step (b := (s.link role).log) ?_ hlog hother' ?_, fun hok => ?_⟩
    · rw [hbefore, hafter, hstep.1, he]
      rfl
    · show (s₁.link role.peer).log = _
      rw [hother]
    · rw [hok request r hp] at hsucc
      cases hsucc

/-- A `recv` returns, and its instance goes on. -/
theorem Synced.step_returned (h : s.Synced p config clients room) {i : Instance}
    (hr : (s.inst role).Reading) (hs : s.act role.peer .take = some s')
    (hp : (s'.link role.peer).posting = (s.link role.peer).posting)
    (hlog : (s'.link role.peer).log = (s.link role.peer).log)
    (hf : (s'.link role.peer).fetching = .idle)
    (hcur : i.cursor = (s'.link role.peer).consumer.recvSeq)
    (hstep : (s.inst role).step p role (s.link role).log (s.link role.peer).log
      (.session (.ok ())) = some (i, (s.link role).log)) :
    (s'.goOn role i).Synced p config clients room ∧
      (s.abs p).step p (role, .session (.ok ())) = some ((s'.goOn role i).abs p) := by
  have hserve : ∀ b, LinkAct.take ≠ .serve b := nofun
  obtain ⟨-, hinst, hother, -, -, hpub⟩ := h.act hserve hs
  rw [Signaling.Role.peer_peer] at hother
  have hidle := h.idle_of_reading hr
  constructor
  · refine h.of_act hserve hs (Function.update s'.inst role i) (fun r => ?_)
      (fun r hne => ?_) (fun r => ?_)
    all_goals obtain rfl | rfl := eq_or_peer role r
    · rw [hother]
      exact sends_of_idle _ hidle
    · rw [Function.update_of_ne (peer_ne role), hinst]
      exact sends_congr hp (by rw [hpub, h.publisher]) (h.sends role.peer)
    · exact absurd hf hne
    · rw [Signaling.Role.peer_peer, hother] at hne
      rw [Function.update_of_ne (peer_ne role), hinst]
      exact h.reads role.peer (by rwa [Signaling.Role.peer_peer])
    · rw [Function.update_self, hcur]
    · rw [Function.update_of_ne (peer_ne role), hinst, h.cursor role.peer,
        Signaling.Role.peer_peer, hother]
  · have hno : ∀ request r, (s.link role).posting ≠ .answered request r := by
      intro request r hr
      rw [hidle] at hr
      cases hr
    have hno' : ∀ request r, ((s'.goOn role i).link role).posting ≠ .answered request r := by
      intro request r hr
      have hr : (s'.link role).posting = .answered request r := hr
      rw [hother, hidle] at hr
      cases hr
    refine abs_step (b := (s.link role).log) ?_ ?_ ?_ hlog
    · rw [ahead_of_idle hno, ahead_of_idle hno', goOn_inst, hstep]
    · show (s'.link role).log = _
      rw [hother]
    · exact ahead_congr hp (by rw [goOn_inst_peer, hinst])

/-- The response to a fetch arrives: the `recv` returns and the handshake goes on, or it fetches
again. -/
theorem Synced.step_take (h : s.Synced p config clients room) (hs : s.take p role = some s') :
    s'.Synced p config clients room ∧
      ((s.abs p).step p (role, .session (.ok ())) = some (s'.abs p) ∨
        (s'.link role.peer).fetching ≠ .idle ∧ s'.inst = s.inst ∧
          (∃ l, (s.mailbox role.peer).step .take = some l ∧ s'.link role.peer = l) ∧
          s'.abs p = s.abs p) := by
  unfold take at hs
  split at hs
  swap
  · cases hs
  next seq r hfet =>
  obtain ⟨s₁, hs₁, rfl⟩ := Option.map_eq_some_iff.1 hs
  have hserve : ∀ b, LinkAct.take ≠ .serve b := nofun
  obtain ⟨⟨l, hl, hself⟩, hinst, hother, -, -, hpub⟩ := h.act hserve hs₁
  have hr : (s.inst role).Reading := h.reads role fun hi => by rw [hfet] at hi; cases hi
  obtain ⟨f, hf, hp, hlog, hcases⟩ := (h.inv role.peer).step_take hl
  have hf : (s.link role.peer).fetching =
    .answered (s.link role.peer).consumer.recvSeq f.response := hf
  cases hfet.symm.trans hf
  rw [Signaling.received_response]
  rw [← hself] at hp hlog hcases
  have hcursor := h.cursor role
  obtain ⟨blob, rfl, hlook, hidle, hcons⟩ | ⟨rfl, hlook, hidle, hcons⟩ | ⟨rfl, hbusy, hcons⟩ :=
    hcases
  · have hlook : (s.link role.peer).log.look (s.inst role).cursor = .item blob := by
      rw [hcursor]
      exact hlook
    obtain ⟨hstep, hcur⟩ := Instance.step_item p role (s.link role).log hr hlook
    obtain ⟨h', habs⟩ := h.step_returned hr hs₁ hp hlog hidle
      (hcur.trans ((congrArg (· + 1) hcursor).trans hcons.symm)) hstep
    exact ⟨h', .inl habs⟩
  · have hlook : (s.link role.peer).log.look (s.inst role).cursor = .over := by
      rw [hcursor]
      exact hlook
    obtain ⟨hstep, hcur⟩ := Instance.step_over p role (s.link role).log hr hlook
    obtain ⟨h', habs⟩ := h.step_returned hr hs₁ hp hlog hidle
      (hcur.trans (hcursor.trans hcons.symm)) hstep
    exact ⟨h', .inl habs⟩
  · rw [Signaling.Role.peer_peer] at hother
    refine ⟨?_, .inr ⟨hbusy, hinst, ⟨l, hl, hself⟩, ?_⟩⟩
    · refine h.of_act hserve hs₁ s₁.inst (fun r => ?_) (fun r hne => ?_) (fun r => ?_)
      all_goals rw [hinst]
      all_goals obtain rfl | rfl := eq_or_peer role r
      · rw [hother]
        exact h.sends r
      · exact sends_congr hp (by rw [hpub]; exact (h.publisher role.peer).symm) (h.sends role.peer)
      · exact hr
      · rw [Signaling.Role.peer_peer, hother] at hne
        exact h.reads role.peer (by rwa [Signaling.Role.peer_peer])
      · rw [hcursor, hcons]
        rfl
      · rw [h.cursor role.peer, Signaling.Role.peer_peer, hother]
    · refine abs_eq (fun r => ?_) fun r => ?_
      all_goals obtain rfl | rfl := eq_or_peer role r
      · exact ahead_congr (by rw [hother]) (by rw [hinst])
      · exact ahead_congr hp (by rw [hinst])
      · rw [hother]
      · exact hlog

/-- The server does anything else. -/
theorem Synced.step_serve (h : s.Synced p config clients room) {b : ServerAct}
    (hs : s.step p (.serve b) = some s') :
    s'.Synced p config clients room ∧ Shows p ok s s' := by
  obtain ⟨l, hl, hs⟩ := Option.bind_eq_some_iff.1 hs
  obtain ⟨l', hl', rfl⟩ := Option.map_eq_some_iff.1 hs
  have hserver : ∀ {role : Role} {m : Link}, (s.mailbox role).step (.serve b) = some m →
      ∃ server, s.server.step b = some server ∧ m = { s.link role with server } := by
    intro role m hm
    simp only [Link.step, Option.ite_none_left_eq_some, Option.bind_eq_some_iff,
      Option.ite_none_right_eq_some, Option.some.injEq] at hm
    obtain ⟨-, server, hb, -, rfl⟩ := hm
    exact ⟨server, hb, rfl⟩
  obtain ⟨server, hb, rfl⟩ := hserver hl
  obtain ⟨server', hb', rfl⟩ := hserver hl'
  cases hb.symm.trans hb'
  refine ⟨⟨fun role => ?_, h.configured, h.publisher, h.sends, h.reads, h.cursor⟩, .inl rfl⟩
  cases role with
  | offerer => exact (h.inv .offerer).serve hl
  | answerer => exact (h.inv .answerer).serve hl'

/-- One step shows at most the return of one call in the handshake, and the sessions stay where
their instances are. -/
theorem Synced.step (h : s.Synced p config clients room) {b : RendezvousAct}
    (hs : s.step p b = some s') :
    s'.Synced p config clients room ∧ Shows p (s.Succeeds b) s s' := by
  cases b with
  | call role e =>
    cases e with
    | session r => cases hs
    | call r => exact h.step_call (fun _ he => by cases he) hs
    | read n ended => exact h.step_call (fun _ he => by cases he) hs
    | incoming found => exact h.step_call (fun _ he => by cases he) hs
  | request role => exact h.step_request hs
  | post role now =>
    obtain ⟨h', request, r, -, -, hok, hno⟩ := h.step_post hs
    refine ⟨h', ?_⟩
    cases hsucc : r.isSuccess with
    | true => exact .inr ⟨_, hok hsucc, fun _ => rfl⟩
    | false => exact .inl (hno hsucc)
  | ack role => exact h.step_ack hs
  | get role now => exact h.step_fetch (.inr (.inl ⟨now, rfl⟩)) (fun he => by cases he) hs
  | reply role => exact h.step_fetch (.inr (.inr rfl)) (fun he => by cases he) hs
  | take role =>
    obtain ⟨h', habs | ⟨-, -, -, habs⟩⟩ := h.step_take hs
    · exact ⟨h', .inr ⟨_, habs, fun _ => rfl⟩⟩
    · exact ⟨h', .inl habs⟩
  | serve b => exact h.step_serve hs

theorem synced_start (p : Peers) (config : Config) (clients : Role → Client) (room : RoomId) :
    (start p config clients room).Synced p config clients room where
  inv role := Link.inv_start config (clients role) (clients role.peer) room role
  configured _ := rfl
  publisher _ := rfl
  sends _ := sends_of_idle _ rfl
  reads _ hne := absurd rfl hne
  cursor _ := rfl

end

end Rendezvous

/-- Two instances over their sessions and the server are a handshake: as long as nobody else writes
the two mailboxes and the room is not removed, and whatever else the server does meanwhile, every
run shows a run of `Handshake`. Its mailboxes are those that the server holds, and its instances are
those of the run, but for a publish or done that the server has accepted and whose response is on
its way. -/
theorem handshake_refines (p : Peers) (config : Config) (clients : Role → Client) (room : RoomId)
    {as : List RendezvousAct} {s : Rendezvous}
    (h : Runs.run (Rendezvous.step p) (.start p config clients room) as = some s) :
    (∃ bs, Runs.run (Handshake.step p) (.start p) bs = some (s.abs p)) ∧
      ∀ role, s.server.rooms.contents room.name role = (s.abs p).box role ∧
        ((∀ request r, (s.link role).posting ≠ .answered request r) →
          (s.abs p).inst role = s.inst role) := by
  have hstart := Rendezvous.synced_start p config clients room
  obtain ⟨bs, q, hrun, hi, rfl⟩ : ∃ bs q, Runs.run (Handshake.step p) (.start p) bs = some q ∧
      s.Synced p config clients room ∧ q = s.abs p := by
    refine Runs.simulates (R := fun s q => s.Synced p config clients room ∧ q = s.abs p) ?_
      ⟨hstart, rfl⟩ h
    rintro s q a s' ⟨hi, rfl⟩ hs
    obtain ⟨hi', hsame | ⟨b, hb, -⟩⟩ := hi.step hs
    · exact ⟨[], s.abs p, rfl, hi', hsame.symm⟩
    · exact ⟨[b], s'.abs p, Runs.run_cons_eq_some.2 ⟨_, hb, rfl⟩, hi', rfl⟩
  refine ⟨⟨bs, hrun⟩, fun role => ⟨?_, Rendezvous.ahead_of_idle⟩⟩
  have hholds := (hi.inv role).holds
  have hpub : (s.mailbox role).publisher = .open (clients role) room role := hi.publisher role
  rw [hpub] at hholds
  exact hholds

/-- The answerer has read the offer before the offerer hears that it was published. -/
def offerRead : List RendezvousAct :=
  [.call .offerer (.call (.ok ())), .call .offerer (.call (.ok ())),
    .call .offerer (.call (.ok ())), .request .answerer, .request .offerer, .get .answerer 1,
    .serve (.poll 0 1), .post .offerer 2, .serve (.poll 0 3), .serve (.poll 0 3), .reply .answerer,
    .take .answerer]

theorem handshake_refines_of_offer : ∃ room s,
    Runs.run (Rendezvous.step oneCandidate)
      (.start oneCandidate ⟨5, 100, ⟨300, 0, 0⟩⟩ (fun _ => .native) room) offerRead = some s ∧
    (s.inst .answerer).stage = .setRemoteOffer "o" ∧
    s.server.rooms.contents room.name .offerer = (s.abs oneCandidate).box .offerer := by
  have hrun : ∃ room s, Runs.run (Rendezvous.step oneCandidate)
      (.start oneCandidate ⟨5, 100, ⟨300, 0, 0⟩⟩ (fun _ => .native) room) offerRead = some s ∧
      (s.inst .answerer).stage = .setRemoteOffer "o" :=
    ⟨⟨"r", by decide⟩, _, rfl, rfl⟩
  obtain ⟨room, s, h, hst⟩ := hrun
  exact ⟨room, s, h, hst, ((handshake_refines _ _ _ _ h).2 .offerer).1⟩

end WebrtcDatachannels.Suite
