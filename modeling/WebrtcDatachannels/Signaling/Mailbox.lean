import WebrtcDatachannels.Signaling.Http
import WebrtcDatachannels.Signaling.Log
import WebrtcDatachannels.Signaling.LongPoll

/-!
# The mailbox end to end

One publisher session, the session of its peer, and the server between them. Each session makes one
call at a time; a call sends its request, the server handles it at some later moment, and the
response comes back at another. `Link.step` is one of these moves, or anything else that the server
does meanwhile, for other sessions or for the fetch that the peer waits for. The server's mailbox is
the log of the accepted publishes (`Link.Inv`), and the peer reads that log
(`SealedLog.Delivered`).
-/

namespace WebrtcDatachannels.Signaling

/-- Where the publisher is: between two calls, or with a request or its response on the way. -/
inductive Posting where
  | idle
  | requesting (request : Request)
  | answered (request : Request) (response : Response)

/-- Where the peer is: between two calls, or in the loop of `recv` with a request on the way, a
fetch running at the server, or its response on the way. -/
inductive Fetching where
  | idle
  | requesting (seq : Nat)
  | running (seq : Nat) (k : Nat)
  | answered (seq : Nat) (response : Response)

/-- Two sessions of a room and the server: the blobs of the sends that returned `Ok`, the blobs that
the server accepted, whether it took a `done`, and what the `recv` calls returned, oldest first. -/
structure Link where
  config : Config
  server : Server
  publisher : Session
  posting : Posting
  consumer : Session
  fetching : Fetching
  sent : List Bytes
  published : List Bytes
  marked : Bool
  results : List (Except Error (Option Bytes))

/-- What can happen: the publisher calls `send` or `done`, its request is handled, or its response
arrives; the peer calls `recv`, its fetch starts, the fetch's response leaves, or it arrives; or the
server does anything else. -/
inductive LinkAct where
  | send (blob : Bytes)
  | done
  | post (now : Instant)
  | ack
  | recv
  | get (now : Instant)
  | reply
  | take
  | serve (a : ServerAct)

/-- The mailbox that a request writes. -/
def ServerAct.writes : ServerAct → Option (String × Role)
  | .publish _ room role _ | .markDone _ room role => some (room, role)
  | _ => none

namespace Link

/-- Two sessions that have just been opened. -/
def start (config : Config) (c d : Client) (room : RoomId) (role : Role) : Link :=
  { config, server := .start config.limits, publisher := .open c room role, posting := .idle,
    consumer := .open d room role.peer, fetching := .idle, sent := [], published := [],
    marked := false, results := [] }

/-- The server handles the publisher's request. Source: the handlers `publish` and `mark_done`. -/
def post (s : Link) (now : Instant) (request : Request) : Option Link :=
  match request with
  | .publish room role body =>
    match s.config.publish room role body with
    | .error r => some { s with posting := .answered request r }
    | .ok role =>
      let answer := (s.server.rooms.publish now room role body).1
      (s.server.step (.publish now room role body)).map fun server =>
        { s with
          server
          posting := .answered request answer.response
          published := if answer.response.isSuccess then s.published ++ [body] else s.published }
  | .markDone room role =>
    match checkPath room role with
    | .error r => some { s with posting := .answered request r }
    | .ok role =>
      (s.server.step (.markDone now room role)).map fun server =>
        { s with server, posting := .answered request (.plain 200), marked := true }
  | .fetch .. => none

/-- The publisher's call returns. -/
def ack (s : Link) (request : Request) (r : Response) : Link :=
  match request with
  | .publish _ _ body =>
    { s with
      posting := .idle
      sent := if (s.publisher.sent r).isOk then s.sent ++ [body] else s.sent }
  | _ => { s with posting := .idle }

/-- The server takes the peer's request. Source: the handler `fetch`. -/
def get (s : Link) (now : Instant) (seq : Nat) : Option Link :=
  match s.consumer.fetchRequest seq with
  | .fetch room role n wait =>
    match s.config.fetch room role n wait with
    | .error r => some { s with fetching := .answered seq r }
    | .ok (role, n, wait) =>
      (s.server.step (.fetch now room role n wait)).map fun server =>
        { s with server, fetching := .running seq s.server.fetches.length }
  | _ => none

/-- The response of a fetch that has returned leaves the server. Source: the handler `fetch`. -/
def reply (s : Link) (seq k : Nat) : Option Link :=
  match s.server.fetches[k]? with
  | some t =>
    match t.stage with
    | .returned f => some { s with fetching := .answered seq f.response }
    | _ => none
  | none => none

/-- The peer goes on with the response. Source: the loop of `fetch_next` and of `recv`. -/
def take (s : Link) (seq : Nat) (r : Response) : Link :=
  match s.consumer.received seq r with
  | .ret result recvSeq =>
    { s with
      consumer := { s.consumer with recvSeq }
      fetching := .idle
      results := s.results ++ [result] }
  | .again => { s with fetching := .requesting (s.consumer.again seq) }

/-- One step; a request of anyone else does not write the publisher's mailbox and does not remove
the room. -/
def step (s : Link) : LinkAct → Option Link
  | .send blob =>
    match s.posting with
    | .idle => some { s with posting := .requesting (s.publisher.sendRequest blob) }
    | _ => none
  | .done =>
    match s.posting with
    | .idle => some { s with posting := .requesting s.publisher.doneRequest }
    | _ => none
  | .post now =>
    match s.posting with
    | .requesting request => s.post now request
    | _ => none
  | .ack =>
    match s.posting with
    | .answered request r => some (s.ack request r)
    | _ => none
  | .recv =>
    match s.fetching with
    | .idle => some { s with fetching := .requesting s.consumer.recvSeq }
    | _ => none
  | .get now =>
    match s.fetching with
    | .requesting seq => s.get now seq
    | _ => none
  | .reply =>
    match s.fetching with
    | .running seq k => s.reply seq k
    | _ => none
  | .take =>
    match s.fetching with
    | .answered seq r => some (s.take seq r)
    | _ => none
  | .serve a =>
    if a.writes = some (s.publisher.room.name, s.publisher.role) then none
    else
      (s.server.step a).bind fun server =>
        if s.publisher.room.name ∈ s.server.rooms.map → s.publisher.room.name ∈ server.rooms.map
        then some { s with server }
        else none

end Link

/-! ## What the server does to the mailbox -/

/-- An answer to a fetch is that of the log, if it is not that the blob may still come. -/
def Fetch.Answers (q : SealedLog.Log Bytes) (seq : Nat) (f : Fetch) : Prop :=
  f ≠ .pending → q.look seq = f.reply

section
variable {q : SealedLog.Log Bytes} {seq : Nat} {f : Fetch}

theorem Fetch.reply_ne_pending (h : f ≠ .pending) : f.reply ≠ .pending := by
  cases f with
  | pending => exact absurd rfl h
  | blob | done => nofun

theorem Fetch.Answers.append (h : f.Answers q seq) (hs : q.shut = false) (blob : Bytes) :
    f.Answers { q with entries := q.entries ++ [blob] } seq := by
  intro hf
  have hlook := h hf
  rw [SealedLog.Log.look_append hs, hlook]
  rw [hlook]
  exact f.reply_ne_pending hf

theorem Fetch.Answers.finish (h : f.Answers q seq) : f.Answers { q with shut := true } seq := by
  intro hf
  have hlook := h hf
  rw [SealedLog.Log.look_finish, hlook]
  rw [hlook]
  exact f.reply_ne_pending hf

end

namespace Rooms

variable {s : Rooms} {now : Instant} {room : String} {role : Role} {blob : Bytes}

/-- A publish that is accepted appends its blob to a mailbox that is not marked. -/
theorem contents_publish_ok {n : Nat} (h : (s.publish now room role blob).1 = .seq n) :
    (s.contents room role).shut = false ∧
      (s.publish now room role blob).2.2.contents room role =
        { s.contents room role with entries := (s.contents room role).entries ++ [blob] } := by
  obtain ⟨hno, -⟩ | ⟨m, hm, hd, hp⟩ := s.publish_cases now room role blob
  · exact absurd h (hno n)
  · have hc := s.contents_of_entry now room role
    rw [hm, hd] at hc
    rw [hc, hp]
    refine ⟨rfl, ?_⟩
    rw [(s.contents_write now room role _).1, hd]

/-- A publish that is refused leaves the mailbox's contents alone. -/
theorem contents_publish_refused (h : ∀ n, (s.publish now room role blob).1 ≠ .seq n) :
    (s.publish now room role blob).2.2.contents room role = s.contents room role := by
  obtain ⟨-, -, hs | hs⟩ | ⟨m, -, -, hp⟩ := s.publish_cases now room role blob
  · rw [hs]
  · rw [hs, contents_entry]
  · rw [hp] at h
    exact absurd rfl (h m.blobs.length)

theorem contents_markDone (s : Rooms) (now : Instant) (room : String) (role : Role) :
    (s.markDone now room role).2.2.contents room role =
      { s.contents room role with shut := true } := by
  rw [s.contents_of_entry now room role]
  exact (s.contents_write now room role _).1

/-- A room that is not there has empty mailboxes. -/
theorem contents_of_not_mem (h : room ∉ s.map) : s.contents room role = ⟨[], false⟩ := by
  have hnone : s.map.lookup room = none := AList.lookup_eq_none.2 h
  simp [contents, mailbox?, hnone]

end Rooms

namespace Server

variable {s s' : Server} {a : ServerAct} {room : String} {role : Role}

/-- A removal that leaves the room there, or does not find it, leaves its mailboxes alone. -/
theorem contents_of_lookup
    (hl : room ∈ s'.rooms.map → s'.rooms.map.lookup room = s.rooms.map.lookup room)
    (hkeep : room ∈ s.rooms.map → room ∈ s'.rooms.map) :
    s'.rooms.contents room role = s.rooms.contents room role := by
  by_cases hin : room ∈ s'.rooms.map
  · simp only [Rooms.contents, Rooms.mailbox?, hl hin]
  · rw [Rooms.contents_of_not_mem hin, Rooms.contents_of_not_mem fun h => hin (hkeep h)]

/-- A request that does not write a mailbox and does not remove its room leaves the mailbox's
contents alone. -/
theorem contents_kept (hs : s.step a = some s') (hw : a.writes ≠ some (room, role))
    (hkeep : room ∈ s.rooms.map → room ∈ s'.rooms.map) :
    s'.rooms.contents room role = s.rooms.contents room role := by
  cases a with
  | publish now room' role' blob =>
    cases hs
    have hne : (room, role) ≠ (room', role') := fun he => hw (congrArg some he.symm)
    exact s.rooms.call_other now (.append blob) hne
  | markDone now room' role' =>
    cases hs
    have hne : (room, role) ≠ (room', role') := fun he => hw (congrArg some he.symm)
    exact s.rooms.call_other now .finish hne
  | delete room' => cases hs; exact contents_of_lookup ((s.removeRoom_effect room').1 room) hkeep
  | evictExpired now =>
    cases hs
    exact contents_of_lookup ((foldl_removeRoom_effect (s.rooms.expired now) s).1 room) hkeep
  | fetch now room' role' seq wait => cases hs; rfl
  | poll k now =>
    simp only [step, Option.map_eq_some_iff, Option.bind_eq_some_iff] at hs
    obtain ⟨p, ⟨t, -, hp⟩, rfl⟩ := hs
    obtain ⟨-, hentry⟩ | ⟨-, hsame⟩ := t.poll_cases hp
    · simp only [hentry, Rooms.contents_entry]
    · simp only [hsame]

/-- A fetch that returns from a step answers what its mailbox says after the step. -/
theorem poll_answers {rooms : Rooms} {t : FetchTask} {now : Instant} {p : FetchTask × Rooms}
    (hp : t.poll rooms now = some p) :
    p.1.room = t.room ∧ p.1.role = t.role ∧ p.1.seq = t.seq ∧
      ∀ f, p.1.stage = .returned f → f.Answers (p.2.contents t.room t.role) t.seq := by
  have hlook : ∀ next : NotifyId → Stage, (∀ n f, next n ≠ .returned f) → ∀ f,
      (t.look rooms now next).1.stage = .returned f →
      f.Answers ((t.look rooms now next).2.contents t.room t.role) t.seq := by
    intro next hnext f hst _
    obtain ⟨m, hm, -, hstage⟩ := Watched.look_spec rooms now next t
    have hc : (t.look rooms now next).2.contents t.room t.role = ⟨m.blobs, m.done⟩ := by
      simp only [Rooms.contents, hm]
    rw [hc, ← Rooms.reply_peek]
    rw [hst] at hstage
    cases hpeek : m.peek t.seq with
    | blob b => rw [hpeek] at hstage; cases hstage; rfl
    | done => rw [hpeek] at hstage; cases hstage; rfl
    | pending => rw [hpeek] at hstage; exact absurd hstage.symm (hnext _ f)
  unfold FetchTask.poll at hp
  split at hp
  · cases hp
    obtain ⟨hroom, hrole, hseq, -⟩ := Watched.look_call rooms now .peeked t
    exact ⟨hroom, hrole, hseq, hlook .peeked fun _ _ hf => by cases hf⟩
  · split at hp
    · cases hp
      refine ⟨rfl, rfl, rfl, fun f hf hne => ?_⟩
      cases hf
      exact absurd rfl hne
    · cases hp; exact ⟨rfl, rfl, rfl, fun _ hf => by cases hf⟩
  · next notify remaining notified hst =>
    cases hp
    obtain ⟨hroom, hrole, hseq, -⟩ :=
      Watched.look_call rooms now (fun _ => .parked notify (now + remaining) notified) t
    exact ⟨hroom, hrole, hseq, hlook _ fun _ _ hf => by cases hf⟩
  · split at hp
    · cases hp; exact ⟨rfl, rfl, rfl, fun _ hf => by cases hf⟩
    · split at hp
      · cases hp
        refine ⟨rfl, rfl, rfl, fun f hf hne => ?_⟩
        cases hf
        exact absurd rfl hne
      · cases hp
  · cases hp

/-- A fetch after a step: it is the same call, and if it has returned it had before, or answers what
its mailbox says. -/
theorem fetch_kept {k : Nat} {t : FetchTask} (hs : s.step a = some s')
    (hk : s.fetches[k]? = some t) :
    ∃ t', s'.fetches[k]? = some t' ∧ t'.room = t.room ∧ t'.role = t.role ∧ t'.seq = t.seq ∧
      ∀ f, t'.stage = .returned f → t.stage = .returned f ∨
        f.Answers (s'.rooms.contents t.room t.role) t.seq := by
  by_cases hown : ∃ now, a = .poll k now
  · obtain ⟨now, rfl⟩ := hown
    simp only [step, hk, Option.bind_some, Option.map_eq_some_iff] at hs
    obtain ⟨p, hp, rfl⟩ := hs
    obtain ⟨hroom, hrole, hseq, hans⟩ := poll_answers hp
    exact ⟨p.1, List.getElem?_set_self (List.getElem?_eq_some_iff.1 hk).1, hroom, hrole, hseq,
      fun f hf => .inr (hans f hf)⟩
  · obtain ⟨woken, -, hsig⟩ := step_effect hs
    obtain ⟨t', hk', hsig⟩ := hsig k t hk fun now he => hown ⟨now, he⟩
    refine ⟨t', hk', hsig.room, hsig.role, hsig.seq, fun f hf => .inl ?_⟩
    exact (FetchTask.wake_returned woken t f).1 (hsig.stage.symm.trans hf)

end Server

/-! ## The link -/

/-- Where the peer is agrees with its cursor, and what the server answered it with the log `q` of
the mailbox. -/
def Fetching.Sound (q : SealedLog.Log Bytes) (room : String) (role : Role) (server : Server)
    (recvSeq : Nat) : Fetching → Prop
  | .idle => True
  | .requesting seq => seq = recvSeq
  | .running seq k => seq = recvSeq ∧ ∃ t, server.fetches[k]? = some t ∧ t.room = room ∧
    t.role = role ∧ t.seq = seq ∧ ∀ f, t.stage = .returned f → f.Answers q seq
  | .answered seq r => seq = recvSeq ∧ ∃ f : Fetch, r = f.response ∧ f.Answers q seq

/-- Where the peer is stays sound when the server takes a step. -/
theorem Fetching.Sound.step {F : Fetching} {q q' : SealedLog.Log Bytes} {room : String}
    {role : Role} {server server' : Server} {recvSeq : Nat} {a : ServerAct}
    (h : F.Sound q room role server recvSeq) (hs : server.step a = some server')
    (hq : ∀ (f : Fetch) seq, f.Answers q seq → f.Answers q' seq)
    (hc : server'.rooms.contents room role = q') :
    F.Sound q' room role server' recvSeq := by
  cases F with
  | idle => trivial
  | requesting seq => exact h
  | running seq k =>
    obtain ⟨hseq, t, hk, hroom, hrole, htseq, hans⟩ := h
    obtain ⟨t', hk', hroom', hrole', hseq', hret⟩ := Server.fetch_kept hs hk
    refine ⟨hseq, t', hk', hroom'.trans hroom, hrole'.trans hrole, hseq'.trans htseq, ?_⟩
    intro f hf
    obtain hold | hnew := hret f hf
    · exact hq f seq (hans f hold)
    · rw [hroom, hrole, htseq, hc] at hnew
      exact hnew
  | answered seq r =>
    obtain ⟨hseq, f, hr, hans⟩ := h
    exact ⟨hseq, f, hr, hq f seq hans⟩

namespace Link

/-- The blob of a send that the server accepted and whose response is on its way. -/
def inFlight (s : Link) : List Bytes :=
  match s.posting with
  | .answered (.publish _ _ body) r => if r.isSuccess then [body] else []
  | _ => []

/-- The log of the accepted publishes, finished by a `done`. -/
def log (s : Link) : SealedLog.Log Bytes := ⟨s.published, s.marked⟩

/-- The requests that the publisher makes. -/
def Asked (s : Link) (request : Request) : Prop :=
  request = s.publisher.doneRequest ∨ ∃ blob, request = s.publisher.sendRequest blob

/-- What every run keeps: the sessions are of the two roles of one room; the server's mailbox is the
log; the blobs sent are those accepted, but for the one on its way; the peer was given the log up to
its cursor; and where it is agrees with that. -/
structure Inv (s : Link) : Prop where
  room : s.consumer.room = s.publisher.room
  role : s.consumer.role.peer = s.publisher.role
  holds : s.server.rooms.contents s.publisher.room.name s.publisher.role = s.log
  asked : ∀ request, s.posting = .requesting request → s.Asked request
  sent : s.published = s.sent ++ s.inFlight
  delivered : ∃ rs : List (Option Bytes), s.results = rs.map .ok ∧
    SealedLog.Delivered s.log s.consumer.recvSeq rs
  fetching : s.fetching.Sound s.log s.publisher.room.name s.publisher.role s.server
    s.consumer.recvSeq

variable {s s' : Link} {a : LinkAct} {as : List LinkAct}

theorem inv_start (config : Config) (c d : Client) (room : RoomId) (role : Role) :
    (start config c d room role).Inv where
  room := rfl
  role := role.peer_peer
  holds := rfl
  asked := nofun
  sent := rfl
  delivered := ⟨[], rfl, SealedLog.delivered_nil⟩
  fetching := trivial

/-- The publisher makes a request. -/
theorem Inv.request (h : s.Inv) {request : Request} (hi : s.posting = .idle)
    (hr : s.Asked request) : Inv { s with posting := .requesting request } := by
  refine { h with asked := fun r he => ?_, sent := ?_ }
  · cases he
    exact hr
  · have hsent := h.sent
    simp only [inFlight, hi] at hsent
    exact hsent

/-- A publisher that has its response is asking for nothing. -/
theorem asked_of_answered {asked : Request} {r : Response} (hp : s.posting = .answered asked r) :
    ∀ request, s.posting = .requesting request → s.Asked request := by
  intro request hr
  cases hp.symm.trans hr

/-- The server handles the publisher's request. -/
theorem Inv.post (h : s.Inv) {request : Request} {now : Instant}
    (hp : s.posting = .requesting request) (hs : s.post now request = some s') : s'.Inv := by
  have hsent : s.published = s.sent := by
    have := h.sent
    simpa only [inFlight, hp, List.append_nil] using this
  have hholds := h.holds
  obtain rfl | ⟨blob, rfl⟩ := h.asked request hp
  · -- a `done`
    simp only [Link.post, Session.doneRequest, checkPath_session, Server.step, Option.map_some,
      Option.some.injEq] at hs
    subst hs
    have hc : (s.server.rooms.markDone now s.publisher.room.name
        s.publisher.role).2.2.contents s.publisher.room.name s.publisher.role =
          { s.log with shut := true } := by
      rw [Rooms.contents_markDone, hholds]
    obtain ⟨rs, hrs, hd⟩ := h.delivered
    refine ⟨h.room, h.role, hc, asked_of_answered rfl, ?_, ⟨rs, hrs, hd.finish⟩, ?_⟩
    · simpa only [inFlight, List.append_nil] using hsent
    · exact h.fetching.step (a := .markDone now _ _) rfl (fun f seq hf => hf.finish) hc
  · -- a `send`
    simp only [Link.post, Session.sendRequest, Config.publish, checkPath_session] at hs
    by_cases hsize : blob.length > s.config.maxBlobBytes
    · rw [if_pos hsize] at hs
      cases hs
      refine { h with asked := asked_of_answered rfl, sent := ?_ }
      simpa [inFlight, Response.failure, Response.isSuccess] using hsent
    · rw [if_neg hsize] at hs
      simp only [Server.step, Option.map_some, Option.some.injEq] at hs
      subst hs
      cases hok : (s.server.rooms.publish now s.publisher.room.name s.publisher.role
          blob).1.response.isSuccess with
      | true =>
        obtain ⟨n, hn⟩ := (response_isSuccess _).1 hok
        obtain ⟨hshut, hc⟩ := Rooms.contents_publish_ok hn
        rw [hholds] at hshut hc
        obtain ⟨rs, hrs, hd⟩ := h.delivered
        refine ⟨h.room, h.role, ?_, asked_of_answered rfl, ?_, ⟨rs, hrs, ?_⟩, ?_⟩
        · simpa only [log, hok, if_true] using hc
        · simp only [inFlight, hok, if_true, hsent]
        · simpa only [log, hok, if_true] using hd.append hshut blob
        · simp only [log, if_true]
          exact h.fetching.step (a := .publish now _ _ blob) rfl
            (fun f seq hf => hf.append hshut blob) hc
      | false =>
        have hno : ∀ n, (s.server.rooms.publish now s.publisher.room.name s.publisher.role
            blob).1 ≠ .seq n := by
          intro n hn
          rw [(response_isSuccess _).2 ⟨n, hn⟩] at hok
          cases hok
        have hc := Rooms.contents_publish_refused hno
        rw [hholds] at hc
        refine ⟨h.room, h.role, ?_, asked_of_answered rfl, ?_, ?_, ?_⟩
        · simpa only [log, hok, Bool.false_eq_true, if_false] using hc
        · simpa only [inFlight, hok, Bool.false_eq_true, if_false, List.append_nil] using hsent
        · simpa only [log, hok, Bool.false_eq_true, if_false] using h.delivered
        · simp only [log, Bool.false_eq_true, if_false]
          exact h.fetching.step (a := .publish now _ _ blob) rfl (fun _ _ hf => hf) hc

/-- The publisher's call returns. -/
theorem Inv.ack (h : s.Inv) {request : Request} {r : Response}
    (hp : s.posting = .answered request r) : (s.ack request r).Inv := by
  have hsent := h.sent
  simp only [inFlight, hp] at hsent
  cases request with
  | publish room role body =>
    refine { h with asked := (nofun), sent := ?_ }
    have hok := sent_ok_iff s.publisher r
    replace hsent : s.published = s.sent ++ (if r.isSuccess then [body] else []) := hsent
    simp only [Link.ack, inFlight, List.append_nil]
    cases hr : s.publisher.sent r with
    | ok =>
      rw [hok.1 hr] at hsent
      simpa [Except.isOk, Except.toBool] using hsent
    | error e =>
      have hno : r.isSuccess = false := by
        cases hsucc : r.isSuccess with
        | false => rfl
        | true => rw [hok.2 hsucc] at hr; cases hr
      rw [hno] at hsent
      simpa [Except.isOk, Except.toBool] using hsent
  | markDone room role | fetch room role seq wait =>
    exact { h with asked := (nofun), sent := hsent }

/-- The server takes the peer's request. -/
theorem Inv.get (h : s.Inv) {now : Instant} {seq : Nat} (hf : s.fetching = .requesting seq)
    (hs : s.get now seq = some s') : s'.Inv := by
  obtain ⟨wait, wait', hreq, hfetch⟩ := fetch_session s.config s.consumer seq
  have hsound := h.fetching
  rw [hf] at hsound
  simp only [Link.get, hreq, hfetch, Server.step, Option.map_some, Option.some.injEq] at hs
  subst hs
  refine { h with fetching := ⟨hsound, _, List.getElem?_concat_length, ?_, ?_, rfl, ?_⟩ }
  · exact congrArg RoomId.name h.room
  · exact h.role
  · intro f hst
    cases hst

/-- The response of the peer's fetch leaves the server. -/
theorem Inv.reply (h : s.Inv) {seq k : Nat} (hf : s.fetching = .running seq k)
    (hs : s.reply seq k = some s') : s'.Inv := by
  have hsound := h.fetching
  rw [hf] at hsound
  obtain ⟨hseq, t, hk, -, -, -, hans⟩ := hsound
  simp only [Link.reply, hk] at hs
  split at hs
  · next f hst =>
    cases hs
    exact { h with fetching := ⟨hseq, f, rfl, hans f hst⟩ }
  · cases hs

/-- The peer takes the response: the call returns the item at its cursor, or fetches again. -/
theorem Inv.take (h : s.Inv) {seq : Nat} {r : Response} (hf : s.fetching = .answered seq r) :
    (s.take seq r).Inv := by
  have hsound := h.fetching
  rw [hf] at hsound
  obtain ⟨hseq, f, rfl, hans⟩ := hsound
  obtain ⟨rs, hrs, hd⟩ := h.delivered
  subst hseq
  unfold Link.take
  rw [received_response]
  cases f with
  | blob blob =>
    refine { h with delivered := ⟨rs ++ [some blob], ?_, ?_⟩, fetching := trivial }
    · simp only [hrs, List.map_append, List.map_cons, List.map_nil]
    · exact hd.item (hans nofun)
  | done =>
    refine { h with delivered := ⟨rs ++ [none], ?_, ?_⟩, fetching := trivial }
    · simp only [hrs, List.map_append, List.map_cons, List.map_nil]
    · exact hd.over (hans nofun)
  | pending =>
    refine { h with fetching := ?_ }
    show s.consumer.again s.consumer.recvSeq = s.consumer.recvSeq
    unfold Session.again
    cases s.consumer.client <;> rfl

/-- The server does anything else. -/
theorem Inv.serve (h : s.Inv) {a : ServerAct} (hs : s.step (.serve a) = some s') : s'.Inv := by
  simp only [Link.step, Option.ite_none_left_eq_some, Option.bind_eq_some_iff,
    Option.ite_none_right_eq_some, Option.some.injEq] at hs
  obtain ⟨hw, server, ha, hkeep, rfl⟩ := hs
  have hc := Server.contents_kept ha hw hkeep
  rw [h.holds] at hc
  exact { h with holds := hc, fetching := h.fetching.step ha (fun _ _ hf => hf) hc }

theorem Inv.step (h : s.Inv) (hs : s.step a = some s') : s'.Inv := by
  cases a with
  | send blob =>
    simp only [Link.step] at hs
    split at hs
    · next hi => cases hs; exact h.request hi (.inr ⟨blob, rfl⟩)
    · cases hs
  | done =>
    simp only [Link.step] at hs
    split at hs
    · next hi => cases hs; exact h.request hi (.inl rfl)
    · cases hs
  | post now =>
    simp only [Link.step] at hs
    split at hs
    · next hp => exact h.post hp hs
    · cases hs
  | ack =>
    simp only [Link.step] at hs
    split at hs
    · next hp => cases hs; exact h.ack hp
    · cases hs
  | recv =>
    simp only [Link.step] at hs
    split at hs
    · cases hs; exact { h with fetching := rfl }
    · cases hs
  | get now =>
    simp only [Link.step] at hs
    split at hs
    · next hf => exact h.get hf hs
    · cases hs
  | reply =>
    simp only [Link.step] at hs
    split at hs
    · next hf => exact h.reply hf hs
    · cases hs
  | take =>
    simp only [Link.step] at hs
    split at hs
    · next hf => cases hs; exact h.take hf
    · cases hs
  | serve a => exact h.serve hs

/-! ## The peer's call returns -/

/-- The mailbox has something for the peer: the blob at its cursor, or the end. -/
def Ready (s : Link) : Prop := s.consumer.recvSeq < s.published.length ∨ s.marked = true

/-- The peer's call can return without anything being published meanwhile. -/
def Returns (s : Link) : Prop :=
  ∃ as s' r, Runs.run step s as = some s' ∧ s'.log = s.log ∧ s'.results = s.results ++ [r]

theorem ready_iff : s.Ready ↔ s.log.look s.consumer.recvSeq ≠ .pending := by
  rw [Ne, SealedLog.Log.look_pending_iff, Ready, log]
  cases s.marked <;> simp

theorem Returns.cons (hs : s.step a = some s') (hlog : s'.log = s.log)
    (hres : s'.results = s.results) (h : s'.Returns) : s.Returns := by
  obtain ⟨as, t, r, hrun, hlog', hres'⟩ := h
  refine ⟨a :: as, t, r, Runs.run_cons_eq_some.2 ⟨s', hs, hrun⟩, hlog'.trans hlog, ?_⟩
  rw [hres', hres]

/-- A look at a mailbox that has something for the fetch makes it return. -/
theorem look_returns (rooms : Rooms) (t : FetchTask) (now : Instant) (next : NotifyId → Stage)
    (hr : (rooms.contents t.room t.role).look t.seq ≠ .pending) :
    ∃ f, f ≠ Fetch.pending ∧ (t.look rooms now next).1.stage = .returned f := by
  obtain ⟨m, hm, -, hstage⟩ := Watched.look_spec rooms now next t
  have hc : rooms.contents t.room t.role = ⟨m.blobs, m.done⟩ := by
    rw [← rooms.contents_entry now t.room t.room t.role, ← t.look_rooms rooms now next]
    simp only [Rooms.contents, hm]
  rw [hc, ← Rooms.reply_peek] at hr
  cases hpeek : m.peek t.seq with
  | blob b => rw [hpeek] at hstage; exact ⟨.blob b, (fun h => by cases h), hstage⟩
  | done => rw [hpeek] at hstage; exact ⟨.done, (fun h => by cases h), hstage⟩
  | pending => rw [hpeek] at hr; exact absurd rfl hr

/-- The fetch takes a step at the server. -/
theorem step_poll {k : Nat} {now : Instant} {t : FetchTask} {p : FetchTask × Rooms}
    (hk : s.server.fetches[k]? = some t) (hp : t.poll s.server.rooms now = some p) :
    s.step (.serve (.poll k now)) =
      some { s with server := { rooms := p.2, fetches := s.server.fetches.set k p.1 } } := by
  have hkeep : s.publisher.room.name ∈ s.server.rooms.map →
      s.publisher.room.name ∈ p.2.map := by
    intro hin
    obtain ⟨m, hm⟩ : ∃ m, s.server.rooms.mailbox? s.publisher.room.name .offerer = some m :=
      Rooms.mailbox?_of_mem hin
    exact Rooms.mem_of_mailbox? (Server.poll_mailbox? hp hm)
  simp only [step, ServerAct.writes, Server.step, hk, hp, Option.bind_some, Option.map_some,
    reduceCtorEq, if_false, if_pos hkeep]

/-- The peer gets a response that answers its call. -/
theorem returns_of_response {seq : Nat} {f : Fetch} (hf : s.fetching = .answered seq f.response)
    (hne : f ≠ .pending) : s.Returns := by
  have hstep : s.step .take = some (s.take seq f.response) := by simp only [step, hf]
  have hres : ∃ r, (s.take seq f.response).results = s.results ++ [r] := by
    unfold Link.take
    rw [received_response]
    cases f with
    | blob blob => exact ⟨_, rfl⟩
    | done => exact ⟨_, rfl⟩
    | pending => exact absurd rfl hne
  have hlog : (s.take seq f.response).log = s.log := by
    unfold Link.take
    split <;> rfl
  obtain ⟨r, hr⟩ := hres
  exact ⟨[.take], _, r, Runs.run_cons_eq_some.2 ⟨_, hstep, rfl⟩, hlog, hr⟩

section
variable {seq k : Nat} {t : FetchTask}

theorem step_reply {f : Fetch} (hf : s.fetching = .running seq k)
    (hk : s.server.fetches[k]? = some t) (hst : t.stage = .returned f) :
    s.step .reply = some { s with fetching := .answered seq f.response } := by
  simp only [step, hf, Link.reply, hk, hst]

/-- The peer's fetch looks at the mailbox and returns. -/
theorem returns_of_look (now : Instant) {p : FetchTask × Rooms} {f : Fetch}
    (hf : s.fetching = .running seq k) (hk : s.server.fetches[k]? = some t)
    (hp : t.poll s.server.rooms now = some p) (hst : p.1.stage = .returned f)
    (hne : f ≠ .pending) : s.Returns := by
  refine Returns.cons (step_poll hk hp) rfl rfl ?_
  have hk' : (s.server.fetches.set k p.1)[k]? = some p.1 :=
    List.getElem?_set_self (List.getElem?_eq_some_iff.1 hk).1
  refine Returns.cons (step_reply hf hk' hst) rfl rfl ?_
  exact returns_of_response rfl hne

/-- The peer's fetch is before a look. -/
theorem Inv.returns_of_top (h : s.Inv) (hready : s.Ready) (hf : s.fetching = .running seq k)
    (hk : s.server.fetches[k]? = some t) (hst : t.stage = .top) : s.Returns := by
  have hsound := h.fetching
  rw [hf] at hsound
  obtain ⟨rfl, t', hk', hroom, hrole, hseq, -⟩ := hsound
  cases hk.symm.trans hk'
  obtain ⟨f, hne, hlook⟩ := look_returns s.server.rooms t 0 .peeked (by
    rw [hroom, hrole, hseq, h.holds]
    exact ready_iff.1 hready)
  refine returns_of_look 0 hf hk ?_ hlook hne
  simp only [FetchTask.poll, hst]

/-- The peer's request is on its way. -/
theorem Inv.returns_of_requesting (h : s.Inv) (hready : s.Ready)
    (hf : s.fetching = .requesting seq) : s.Returns := by
  obtain ⟨wait, wait', hreq, hfetch⟩ := fetch_session s.config s.consumer seq
  obtain ⟨s', hget, hlog, hres, hcons, hrun, hk⟩ : ∃ s', s.step (.get 0) = some s' ∧
      s'.log = s.log ∧ s'.results = s.results ∧ s'.consumer = s.consumer ∧
      s'.fetching = .running seq s.server.fetches.length ∧
      s'.server.fetches[s.server.fetches.length]? =
        some (.new s.consumer.room.name s.consumer.role.peer seq (0 + wait')) := by
    simp only [Link.step, hf, Link.get, hreq, hfetch, Server.step, Option.map_some]
    exact ⟨_, rfl, rfl, rfl, rfl, rfl, List.getElem?_concat_length⟩
  refine Returns.cons hget hlog hres ?_
  refine (h.step hget).returns_of_top ?_ hrun hk rfl
  rw [ready_iff, hlog, hcons]
  exact ready_iff.1 hready

/-- A response is on its way. -/
theorem Inv.returns_of_answered (h : s.Inv) (hready : s.Ready) {r : Response}
    (hf : s.fetching = .answered seq r) : s.Returns := by
  have hsound := h.fetching
  rw [hf] at hsound
  obtain ⟨-, f, rfl, -⟩ := hsound
  by_cases hne : f = .pending
  · subst hne
    have hagain : s.step .take =
        some { s with fetching := .requesting (s.consumer.again seq) } := by
      simp only [Link.step, hf, Link.take, received_response]
    exact Returns.cons hagain rfl rfl ((h.step hagain).returns_of_requesting hready rfl)
  · exact returns_of_response hf hne

/-- The peer's fetch has returned. -/
theorem Inv.returns_of_returned (h : s.Inv) (hready : s.Ready) {f : Fetch}
    (hf : s.fetching = .running seq k) (hk : s.server.fetches[k]? = some t)
    (hst : t.stage = .returned f) : s.Returns := by
  have hreply := step_reply hf hk hst
  exact Returns.cons hreply rfl rfl ((h.step hreply).returns_of_answered hready rfl)

/-- The peer's fetch takes a step after which its call can return. -/
theorem Inv.returns_of_poll (h : s.Inv) {now : Instant} {t' : FetchTask}
    (hk : s.server.fetches[k]? = some t)
    (hp : t.poll s.server.rooms now = some (t', s.server.rooms))
    (hnext : ∀ s' : Link, s'.Inv → s'.log = s.log → s'.consumer = s.consumer →
      s'.fetching = s.fetching → s'.server.fetches[k]? = some t' → s'.Returns) : s.Returns := by
  have hpoll := step_poll hk hp
  refine Returns.cons hpoll rfl rfl (hnext _ (h.step hpoll) rfl rfl rfl ?_)
  exact List.getElem?_set_self (List.getElem?_eq_some_iff.1 hk).1

/-- The peer's fetch runs at the server. -/
theorem Inv.returns_of_running (h : s.Inv) (hready : s.Ready)
    (hf : s.fetching = .running seq k) : s.Returns := by
  have hsound := h.fetching
  rw [hf] at hsound
  obtain ⟨hseq, t, hk, hroom, hrole, htseq, -⟩ := hsound
  have hready' : ∀ {s' : Link}, s'.log = s.log → s'.consumer = s.consumer → s'.Ready := by
    intro s' hlog hcons
    rw [ready_iff, hlog, hcons]
    exact ready_iff.1 hready
  cases hst : t.stage with
  | top => exact h.returns_of_top hready hf hk hst
  | peeked notify =>
    -- the time is over
    have hp : t.poll s.server.rooms t.deadline =
        some ({ t with stage := .returned .pending }, s.server.rooms) := by
      simp only [FetchTask.poll, hst]
      rw [if_pos (Nat.sub_self t.deadline)]
    refine h.returns_of_poll hk hp fun s' h' hlog hcons hf' hk' => ?_
    exact h'.returns_of_returned (hready' hlog hcons) (hf'.trans hf) hk' rfl
  | armed notify remaining notified =>
    obtain ⟨f, hne, hlook⟩ := look_returns s.server.rooms t 0
      (fun _ => .parked notify (0 + remaining) notified) (by
        rw [hroom, hrole, htseq, hseq, h.holds]
        exact ready_iff.1 hready)
    refine returns_of_look 0 (p := t.recheck s.server.rooms 0 notify remaining notified)
      hf hk ?_ hlook hne
    simp only [FetchTask.poll, hst]
  | parked notify expires notified =>
    cases notified with
    | true =>
      have hp : t.poll s.server.rooms 0 = some ({ t with stage := .top }, s.server.rooms) := by
        simp only [FetchTask.poll, hst, if_true]
      refine h.returns_of_poll hk hp fun s' h' hlog hcons hf' hk' => ?_
      exact h'.returns_of_top (hready' hlog hcons) (hf'.trans hf) hk' rfl
    | false =>
      have hp : t.poll s.server.rooms expires =
          some ({ t with stage := .returned .pending }, s.server.rooms) := by
        simp only [FetchTask.poll, hst, Bool.false_eq_true, if_false]
        rw [if_pos (Nat.le_refl expires)]
      refine h.returns_of_poll hk hp fun s' h' hlog hcons hf' hk' => ?_
      exact h'.returns_of_returned (hready' hlog hcons) (hf'.trans hf) hk' rfl
  | returned f => exact h.returns_of_returned hready hf hk hst

end

/-- A call that the mailbox has something for can return. -/
theorem Inv.returns (h : s.Inv) (hready : s.Ready) (hf : s.fetching ≠ .idle) : s.Returns := by
  cases hst : s.fetching with
  | idle => exact absurd hst hf
  | requesting seq => exact h.returns_of_requesting hready hst
  | running seq k => exact h.returns_of_running hready hst
  | answered seq r => exact h.returns_of_answered hready hst

/-! ## What a call returns -/

/-- Only the peer's own response makes its call return. -/
theorem results_of_step (hs : s.step a = some s') :
    s'.results = s.results ∨ ∃ seq r, s.fetching = .answered seq r ∧ s' = s.take seq r := by
  cases a with
  | take =>
    simp only [Link.step] at hs
    split at hs
    · next seq r hf => cases hs; exact .inr ⟨seq, r, hf, rfl⟩
    · cases hs
  | post now =>
    simp only [Link.step, Link.post] at hs
    left
    repeat' split at hs
    all_goals cases hs
    all_goals rfl
  | get now =>
    simp only [Link.step, Link.get] at hs
    left
    repeat' split at hs
    all_goals cases hs
    all_goals rfl
  | ack =>
    simp only [Link.step, Link.ack] at hs
    left
    repeat' split at hs
    all_goals cases hs
    all_goals rfl
  | serve a =>
    simp only [Link.step, Option.ite_none_left_eq_some, Option.bind_eq_some_iff,
      Option.ite_none_right_eq_some, Option.some.injEq] at hs
    obtain ⟨-, server, -, -, rfl⟩ := hs
    exact .inl rfl
  | send blob | done | recv | reply =>
    simp only [Link.step, Link.reply] at hs
    left
    repeat' split at hs
    all_goals cases hs
    all_goals rfl

/-- A call returns none exactly when the log is finished and everything in it was returned. -/
theorem Inv.take_none (h : s.Inv) {seq : Nat} {r : Response} {result : Except Error (Option Bytes)}
    (hf : s.fetching = .answered seq r) (hres : (s.take seq r).results = s.results ++ [result]) :
    result = .ok none ↔ s.marked = true ∧ s.consumer.recvSeq = s.published.length := by
  have hsound := h.fetching
  rw [hf] at hsound
  obtain ⟨rfl, f, rfl, hans⟩ := hsound
  obtain ⟨_, -, hd⟩ := h.delivered
  unfold Link.take at hres
  rw [received_response] at hres
  cases f with
  | blob blob =>
    have hx := SealedLog.Log.look_item_iff.1 (hans nofun)
    have hlt : s.consumer.recvSeq < s.published.length := (List.getElem?_eq_some_iff.1 hx).1
    have hr : Except.ok (some blob) = result := by simpa using hres
    subst hr
    simp only [Except.ok.injEq, reduceCtorEq, false_iff, not_and]
    exact fun _ he => absurd he (Nat.ne_of_lt hlt)
  | done =>
    obtain ⟨hle, hshut⟩ := SealedLog.Log.look_over_iff.1 (hans nofun)
    have hr : Except.ok none = result := by simpa using hres
    exact ⟨fun _ => ⟨hshut, Nat.le_antisymm hd.within hle⟩, fun _ => hr.symm⟩
  | pending => simp at hres

/-- The publisher's `done` is with the server, or on its way there. -/
def Finishing (s : Link) : Prop :=
  s.marked = true ∨ s.posting = .requesting s.publisher.doneRequest

/-- Only a call of `done` makes the publisher finish, and it does so for good. -/
theorem Inv.finishing (h : s.Inv) (hs : s.step a = some s') :
    s'.Finishing ↔ s.Finishing ∨ a = .done := by
  cases a with
  | done =>
    simp only [Link.step] at hs
    split at hs
    · cases hs; exact ⟨fun _ => .inr rfl, fun _ => .inr rfl⟩
    · cases hs
  | send blob =>
    simp only [Link.step] at hs
    split at hs
    · next hi => cases hs; simp [Finishing, hi, Session.sendRequest, Session.doneRequest]
    · cases hs
  | post now =>
    simp only [Link.step] at hs
    split at hs
    · next request hp =>
      obtain rfl | ⟨blob, rfl⟩ := h.asked request hp
      · simp only [Link.post, Session.doneRequest, checkPath_session, Server.step, Option.map_some,
          Option.some.injEq] at hs
        subst hs
        simp [Finishing, hp, Session.doneRequest]
      · simp only [Link.post, Session.sendRequest, Config.publish, checkPath_session] at hs
        by_cases hsize : blob.length > s.config.maxBlobBytes
        · rw [if_pos hsize] at hs
          cases hs
          simp [Finishing, hp, Session.sendRequest, Session.doneRequest]
        · rw [if_neg hsize] at hs
          simp only [Server.step, Option.map_some, Option.some.injEq] at hs
          subst hs
          simp [Finishing, hp, Session.sendRequest, Session.doneRequest]
    · cases hs
  | ack =>
    simp only [Link.step] at hs
    split at hs
    · next request r hp =>
      cases hs
      cases request <;> simp [Finishing, Link.ack, hp]
    · cases hs
  | serve a =>
    simp only [Link.step, Option.ite_none_left_eq_some, Option.bind_eq_some_iff,
      Option.ite_none_right_eq_some, Option.some.injEq] at hs
    obtain ⟨-, server, -, -, rfl⟩ := hs
    simp [Finishing]
  | get now =>
    simp only [Link.step, Link.get] at hs
    repeat' split at hs
    all_goals cases hs
    all_goals simp [Finishing]
  | recv | reply | take =>
    simp only [Link.step, Link.reply, Link.take] at hs
    repeat' split at hs
    all_goals cases hs
    all_goals simp [Finishing]

end Link

/-- A publisher session and its peer's, each of any of the three clients, and everything that the
server does meanwhile: the blobs published are those of the sends that returned `Ok`, but for the
one whose response is on its way; the mailbox is marked by the publisher's `done` alone; the `recv`
calls have returned the published blobs up to the peer's cursor, in order and each once, and then
only the end; a call returns the end exactly when the mailbox is marked and every published blob was
returned; and a call that has one of the two to return can return. -/
theorem mailbox_end_to_end (config : Config) (c d : Client) (room : RoomId) (role : Role)
    {as : List LinkAct} {s : Link}
    (h : Runs.run Link.step (.start config c d room role) as = some s) :
    (∃ inFlight, s.published = s.sent ++ inFlight ∧ (s.posting = .idle → inFlight = [])) ∧
    (LinkAct.done ∈ as ↔ s.marked = true ∨ s.posting = .requesting s.publisher.doneRequest) ∧
    (∃ rs : List (Option Bytes), s.results = rs.map .ok ∧
      SealedLog.Delivered s.log s.consumer.recvSeq rs) ∧
    (∀ a s' result, s.step a = some s' → s'.results = s.results ++ [result] →
      (result = .ok none ↔ s.marked = true ∧ s.consumer.recvSeq = s.published.length)) ∧
    (s.Ready → s.fetching ≠ .idle → s.Returns) := by
  have hstart := Link.inv_start config c d room role
  have hi : s.Inv := Runs.invariant (fun _ _ _ hi hs => Link.Inv.step hi hs) hstart h
  refine ⟨⟨s.inFlight, hi.sent, fun hidle => ?_⟩, ?_, hi.delivered, ?_, hi.returns⟩
  · unfold Link.inFlight
    rw [hidle]
  · have hdone := Runs.happened (P := Link.Finishing) (Q := fun a => a = .done)
      (fun _ _ _ hi hs => ⟨Link.Inv.step hi hs, Link.Inv.finishing hi hs⟩) hstart h
    rw [show (s.marked = true ∨ _) ↔ s.Finishing from Iff.rfl, hdone]
    simp [Link.Finishing, Link.start]
  · intro a s' result hs hres
    obtain hsame | ⟨seq, r, hf, rfl⟩ := Link.results_of_step hs
    · rw [hsame] at hres
      simp at hres
    · exact hi.take_none hf hres

/-- The peer's first poll expires; then it gets the blob and the end. -/
theorem mailbox_end_to_end_of_expired :
    ∃ room s, Runs.run Link.step (.start ⟨5, 8, ⟨300, 4, 9⟩⟩ .native .inGuest room .offerer)
        [.recv, .get 0, .serve (.poll 0 0), .serve (.poll 0 5), .reply, .take, .send [7], .post 6,
          .get 7, .serve (.poll 1 7), .ack, .done, .reply, .post 8, .take, .recv, .get 9,
          .serve (.poll 2 9), .reply, .take, .ack] = some s ∧
      s.results = [.ok (some [7]), .ok none] ∧ s.published = s.sent ∧ s.marked = true := by
  have hrun : ∃ room s, Runs.run Link.step
        (.start ⟨5, 8, ⟨300, 4, 9⟩⟩ .native .inGuest room .offerer)
        [.recv, .get 0, .serve (.poll 0 0), .serve (.poll 0 5), .reply, .take, .send [7], .post 6,
          .get 7, .serve (.poll 1 7), .ack, .done, .reply, .post 8, .take, .recv, .get 9,
          .serve (.poll 2 9), .reply, .take, .ack] = some s ∧
      s.results = [.ok (some [7]), .ok none] ∧ s.posting = .idle :=
    ⟨⟨"r", by decide⟩, _, rfl, rfl, rfl⟩
  obtain ⟨room, s, h, hres, hidle⟩ := hrun
  obtain ⟨⟨inFlight, hpub, hnone⟩, hdone, -⟩ :=
    mailbox_end_to_end ⟨5, 8, ⟨300, 4, 9⟩⟩ .native .inGuest room .offerer h
  refine ⟨room, s, h, hres, ?_, ?_⟩
  · rw [hpub, hnone hidle, List.append_nil]
  · obtain hm | hp := hdone.1 (by simp)
    · exact hm
    · rw [hidle] at hp
      cases hp

end WebrtcDatachannels.Signaling
