import WebrtcDatachannels.Signaling.Isolation
import WebrtcDatachannels.Suite.Rendezvous

/-!
# The handshake completes over the mailbox server

A server whose limits are off, as they are by default, and that takes the signals of the handshake,
accepts every publish that the two instances make: none is over the size, and a mailbox is not
marked before its instance has published its script. So the calls of a mailbox session succeed, and
with `Suite/Rendezvous` the results of `Suite/Handshake` hold of the instances, their sessions and
the server (`rendezvous_in_order`). From every state that is reached both instances can consume the
signaling (`rendezvous_completes`): an instance that waits has its response within a bounded number
of steps of its own fetch as soon as its peer's mailbox has something for it.
-/

namespace WebrtcDatachannels.Signaling

/-- The store has no limit on the rooms or on the blobs of a mailbox. -/
def Limits.Off (l : Limits) : Prop := l.maxRooms = 0 ∧ l.maxBlobsPerMailbox = 0

/-- A store without limits accepts a publish to a mailbox that is not marked. -/
theorem Rooms.publish_accepted {s : Rooms} {room : String} {role : Role} (hoff : s.limits.Off)
    (hopen : (s.contents room role).shut = false) (now : Instant) (blob : Bytes) :
    ∃ n, (s.publish now room role blob).1 = .seq n := by
  have hfull : s.full room = false := by simp [full, hoff.1]
  have hcrowded : ∀ n, s.crowded n = false := fun n => by simp [crowded, hoff.2]
  have hd : ((s.entry now room).1.mailbox role).done = false := by
    rw [s.contents_of_entry now room role] at hopen
    exact hopen
  simp only [publish, hfull, hd, hcrowded, Bool.false_eq_true, if_false]
  exact ⟨_, rfl⟩

namespace Link

variable {s s' : Link} {a : LinkAct}

theorem Inv.step_limits (h : s.Inv) (hs : s.step a = some s') :
    s'.server.rooms.limits = s.server.rooms.limits := by
  by_cases ha : ∃ b, a = .serve b
  · obtain ⟨b, rfl⟩ := ha
    simp only [Link.step, Option.ite_none_left_eq_some, Option.bind_eq_some_iff,
      Option.ite_none_right_eq_some, Option.some.injEq] at hs
    obtain ⟨-, server, hb, -, rfl⟩ := hs
    exact Server.step_limits hb
  · obtain hsame | ⟨b, hb, -⟩ := h.serves (fun b hb => ha ⟨b, hb⟩) hs
    · rw [hsame]
    · exact Server.step_limits hb

/-- Only the server's handling of a request makes its response. -/
theorem step_answered {request : Request} {r : Response} (hs : s.step a = some s')
    (hp : s'.posting = .answered request r) :
    s.posting = .answered request r ∨ ∃ now, a = .post now := by
  cases a with
  | post now => exact .inr ⟨now, rfl⟩
  | send | done =>
    simp only [step] at hs
    split at hs
    · cases hs; cases hp
    · cases hs
  | ack =>
    rw [(step_ack hs).1] at hp
    cases hp
  | recv => rw [(step_fetch (.inl rfl) hs).1] at hp; exact .inl hp
  | get now => rw [(step_fetch (.inr (.inl ⟨now, rfl⟩)) hs).1] at hp; exact .inl hp
  | reply => rw [(step_fetch (.inr (.inr rfl)) hs).1] at hp; exact .inl hp
  | take =>
    simp only [step, Link.take] at hs
    repeat' split at hs
    all_goals cases hs
    all_goals exact .inl hp
  | serve b =>
    simp only [step, Option.ite_none_left_eq_some, Option.bind_eq_some_iff,
      Option.ite_none_right_eq_some, Option.some.injEq] at hs
    obtain ⟨-, server, -, -, rfl⟩ := hs
    exact .inl hp

/-- A publisher's request that is not over the size is accepted, while the mailbox is not marked. -/
theorem Inv.post_accepted (h : s.Inv) {now : Instant} {request : Request}
    (hoff : s.server.rooms.limits.Off) (hp : s.posting = .requesting request)
    (hblob : ∀ blob, request = s.publisher.sendRequest blob →
      blob.length ≤ s.config.maxBlobBytes ∧ s.log.shut = false)
    (hs : s.step (.post now) = some s') :
    ∃ r, s'.posting = .answered request r ∧ r.isSuccess = true := by
  simp only [Link.step, hp] at hs
  obtain rfl | ⟨blob, rfl⟩ := h.asked request hp
  · simp only [Link.post, Session.doneRequest, checkPath_session, Server.step, Option.map_some,
      Option.some.injEq] at hs
    subst hs
    exact ⟨.plain 200, rfl, rfl⟩
  · obtain ⟨hsize, hopen⟩ := hblob blob rfl
    rw [← h.holds] at hopen
    obtain ⟨n, hn⟩ := Rooms.publish_accepted hoff hopen now blob
    simp only [Link.post, Session.sendRequest, Config.publish, checkPath_session,
      if_neg (Nat.not_lt.2 hsize), gt_iff_lt, Server.step, Option.map_some,
      Option.some.injEq] at hs
    subst hs
    exact ⟨_, rfl, (response_isSuccess _).2 ⟨n, hn⟩⟩

/-- The server can always handle a request. -/
theorem Inv.post_enabled (h : s.Inv) {request : Request} (now : Instant)
    (hp : s.posting = .requesting request) : ∃ s', s.step (.post now) = some s' := by
  simp only [Link.step, hp]
  obtain rfl | ⟨blob, rfl⟩ := h.asked request hp
  · simp only [Link.post, Session.doneRequest, checkPath_session, Server.step, Option.map_some]
    exact ⟨_, rfl⟩
  · simp only [Link.post, Session.sendRequest, Config.publish, checkPath_session]
    by_cases hsize : blob.length > s.config.maxBlobBytes
    · rw [if_pos hsize]
      exact ⟨_, rfl⟩
    · rw [if_neg hsize]
      simp only [Server.step, Option.map_some]
      exact ⟨_, rfl⟩

end Link

/-! ## A fetch that has something to return -/

/-- How far a fetch at the server is from an answer, once its mailbox has something for it. -/
def Stage.rank : Stage → Nat
  | .returned .pending => 5
  | .returned _ => 1
  | .top | .armed .. => 2
  | .parked _ _ true => 3
  | .peeked _ | .parked _ _ false => 6

/-- A step of the peer's own fetch, at the server or at the client. -/
def LinkAct.isFetch : LinkAct → Bool
  | .get _ | .reply | .take | .serve (.poll ..) => true
  | _ => false

namespace Link

/-- How far the peer's call is from its return, once the mailbox has something for it. -/
def rank (s : Link) : Nat :=
  match s.fetching with
  | .idle => 0
  | .requesting _ => 3
  | .running _ k => ((s.server.fetches[k]?).map (·.stage.rank)).getD 0
  | .answered seq r =>
    match s.consumer.received seq r with
    | .again => 4
    | .ret .. => 0

/-- The peer's call can go on: it returns, or it is nearer to its return. -/
def Goes (s : Link) : Prop :=
  ∃ a s', a.isFetch = true ∧ s.step a = some s' ∧
    (a = .take ∧ s'.fetching = .idle ∨ s'.fetching ≠ .idle ∧ s'.rank < s.rank)

section
variable {s : Link} {seq k : Nat} {t : FetchTask}

theorem rank_running (hf : s.fetching = .running seq k) (hk : s.server.fetches[k]? = some t) :
    s.rank = t.stage.rank := by
  simp only [rank, hf, hk, Option.map_some, Option.getD_some]

theorem goes_of_requesting (hf : s.fetching = .requesting seq) : s.Goes := by
  obtain ⟨wait, wait', hreq, hfetch⟩ := fetch_session s.config s.consumer seq
  obtain ⟨s', hget, hrun, hk⟩ : ∃ s', s.step (.get 0) = some s' ∧
      s'.fetching = .running seq s.server.fetches.length ∧
      s'.server.fetches[s.server.fetches.length]? =
        some (.new s.consumer.room.name s.consumer.role.peer seq (0 + wait')) := by
    simp only [Link.step, hf, Link.get, hreq, hfetch, Server.step, Option.map_some]
    exact ⟨_, rfl, rfl, List.getElem?_concat_length⟩
  refine ⟨.get 0, s', rfl, hget, .inr ⟨?_, ?_⟩⟩
  · rw [hrun]
    intro he
    cases he
  · rw [rank_running hrun hk]
    simp [rank, hf, FetchTask.new, Stage.rank]

theorem Inv.goes_of_answered (h : s.Inv) {r : Response} (hf : s.fetching = .answered seq r) :
    s.Goes := by
  have hsound := h.fetching
  rw [hf] at hsound
  obtain ⟨-, f, rfl, -⟩ := hsound
  have htake : s.step .take = some (s.take seq f.response) := by simp only [Link.step, hf]
  refine ⟨.take, _, rfl, htake, ?_⟩
  unfold Link.take
  rw [received_response]
  cases f with
  | blob | done => exact .inl ⟨rfl, rfl⟩
  | pending =>
    refine .inr ⟨(fun he => by cases he), ?_⟩
    simp [rank, hf, received_response]

/-- The fetch takes a step at the server. -/
theorem goes_of_poll (now : Instant) {p : FetchTask × Rooms} (hf : s.fetching = .running seq k)
    (hk : s.server.fetches[k]? = some t) (hp : t.poll s.server.rooms now = some p)
    (hlt : p.1.stage.rank < t.stage.rank) : s.Goes := by
  refine ⟨.serve (.poll k now), _, rfl, step_poll hk hp, .inr ⟨?_, ?_⟩⟩
  · rw [hf]
    intro he
    cases he
  · have hk' : (s.server.fetches.set k p.1)[k]? = some p.1 :=
      List.getElem?_set_self (List.getElem?_eq_some_iff.1 hk).1
    rw [rank_running hf hk, rank_running (s := { s with server := ⟨p.2, _⟩ }) hf hk']
    exact hlt

/-- A fetch that looks at a mailbox that has something for it has its answer. -/
theorem rank_look (rooms : Rooms) (t : FetchTask) (now : Instant) (next : NotifyId → Stage)
    (hr : (rooms.contents t.room t.role).look t.seq ≠ .pending) :
    (t.look rooms now next).1.stage.rank = 1 := by
  obtain ⟨f, hne, hst⟩ := look_returns rooms t now next hr
  rw [hst]
  cases f with
  | blob | done => rfl
  | pending => exact absurd rfl hne

theorem Inv.goes_of_running (h : s.Inv) (hready : s.Ready) (hf : s.fetching = .running seq k) :
    s.Goes := by
  have hsound := h.fetching
  rw [hf] at hsound
  obtain ⟨hseq, t, hk, hroom, hrole, htseq, -⟩ := hsound
  have hlook : (s.server.rooms.contents t.room t.role).look t.seq ≠ .pending := by
    rw [hroom, hrole, htseq, hseq, h.holds]
    exact ready_iff.1 hready
  cases hst : t.stage with
  | top =>
    refine goes_of_poll 0 (p := t.look s.server.rooms 0 .peeked) hf hk ?_ ?_
    · simp only [FetchTask.poll, hst]
    · rw [rank_look _ _ _ _ hlook, hst]
      exact Nat.lt_succ_self 1
  | peeked notify =>
    -- the time is over
    refine goes_of_poll t.deadline
      (p := ({ t with stage := .returned .pending }, s.server.rooms)) hf hk ?_ ?_
    · simp only [FetchTask.poll, hst]
      rw [if_pos (Nat.sub_self t.deadline)]
    · rw [hst]
      exact Nat.lt_succ_self 5
  | armed notify remaining notified =>
    refine goes_of_poll 0 (p := t.recheck s.server.rooms 0 notify remaining notified)
      hf hk (by simp only [FetchTask.poll, hst]) ?_
    have hrank := rank_look s.server.rooms t 0 (fun _ => .parked notify (0 + remaining) notified)
      hlook
    show (t.look s.server.rooms 0 _).1.stage.rank < _
    rw [hrank, hst]
    exact Nat.lt_succ_self 1
  | parked notify expires notified =>
    cases notified with
    | true =>
      refine goes_of_poll 0 (p := ({ t with stage := .top }, s.server.rooms)) hf hk ?_ ?_
      · simp only [FetchTask.poll, hst, if_true]
      · rw [hst]
        exact Nat.lt_succ_self 2
    | false =>
      refine goes_of_poll expires
        (p := ({ t with stage := .returned .pending }, s.server.rooms)) hf hk ?_ ?_
      · simp only [FetchTask.poll, hst, Bool.false_eq_true, if_false]
        rw [if_pos (Nat.le_refl expires)]
      · rw [hst]
        exact Nat.lt_succ_self 5
  | returned f =>
    refine ⟨.reply, _, rfl, step_reply hf hk hst, .inr ⟨?_, ?_⟩⟩
    · intro he
      cases he
    · rw [rank_running hf hk, hst]
      simp only [rank, received_response]
      cases f with
      | blob | done => exact Nat.zero_lt_one
      | pending => exact Nat.lt_succ_self 4

/-- A call that the mailbox has something for can go on. -/
theorem Inv.goes (h : s.Inv) (hready : s.Ready) (hf : s.fetching ≠ .idle) : s.Goes := by
  cases hst : s.fetching with
  | idle => exact absurd hst hf
  | requesting seq => exact goes_of_requesting hst
  | running seq k => exact h.goes_of_running hready hst
  | answered seq r => exact h.goes_of_answered hst

end

end Link

end WebrtcDatachannels.Signaling

namespace WebrtcDatachannels.Suite

open Signaling (Role Client RoomId Request Response Config Server ServerAct Link LinkAct Instant)
open SealedLog (Log)

/-- The server takes every signal of the two instances: its limits are off, and each signal is
encoded within its bound on a blob, and decoded again. -/
structure Fits (p : Peers) (config : Config) : Prop where
  off : config.limits.Off
  codec : ∀ role, ∀ signal ∈ p.script role, ∃ blob, p.codec.toVec signal = .ok blob ∧
    p.codec.fromSlice blob = .ok signal ∧ blob.length ≤ config.maxBlobBytes

theorem Fits.lossless {p : Peers} {config : Config} (h : Fits p config) :
    ∀ role, ∀ signal ∈ p.script role, p.codec.Lossless signal := by
  intro role signal hsignal
  obtain ⟨blob, hto, hfrom, -⟩ := h.codec role signal hsignal
  exact ⟨blob, hto, hfrom⟩

/-- An instance that is about to publish has not marked its mailbox, and publishes its script. -/
theorem Posts.publishes {p : Peers} {role : Role} {stream : List IceCandidate} {log : Log Bytes}
    {stage : Stage} {signal : Signal} (h : Posts p role stream log stage)
    (hst : stage.publishes = some signal) : log.shut = false ∧ signal ∈ p.script role := by
  cases stage with
  | publishDescription description =>
    cases hst
    obtain ⟨hh, -, rfl⟩ := h
    exact ⟨hh.shut, .head _⟩
  | publishCandidates rest =>
    obtain ⟨sent, hall, hh⟩ := h
    refine ⟨hh.shut, ?_⟩
    cases rest with
    | nil => cases hst; simp [Peers.script]
    | cons c rest => cases hst; simp [Peers.script, ← hall]
  | createDataChannel | createOffer | recvOffer | setRemoteOffer | createAnswer
  | setLocalDescription | collect | done | consume | setRemoteAnswer | addCandidate
  | waitConnected | firstIncoming | finished | failed => cases hst

theorem Stage.isMailbox_of_isConsumed {stage : Stage} (h : stage.isConsumed = true) :
    stage.isMailbox = false := by
  cases stage <;> first | rfl | cases h

namespace Rendezvous

/-- What a run keeps when the server takes every signal and the other calls succeed: the sessions
are where their instances are, the handshake is as it should be, and no response refuses. -/
structure Good (p : Peers) (config : Config) (clients : Role → Client) (room : RoomId)
    (s : Rendezvous) : Prop extends Synced p config clients room s where
  hand : (s.abs p).Inv p
  limits : s.server.rooms.limits = config.limits
  accepted : ∀ role request r, (s.link role).posting = .answered request r → r.isSuccess = true

section
variable {p : Peers} {config : Config} {clients : Role → Client} {room : RoomId}
  {s s' : Rendezvous} {role : Role} {a : LinkAct} {b : RendezvousAct}

/-- What a step makes of one mailbox: nothing, or a step of its own. -/
theorem act_link (hs : s.act role a = some s') (r : Role) :
    s'.link r = s.link r ∨ r = role ∧ (s.mailbox r).step a = some (s'.link r) := by
  obtain ⟨l, hl, rfl⟩ := Option.map_eq_some_iff.1 hs
  by_cases hr : r = role
  · subst hr
    exact .inr ⟨rfl, by simp only [Function.update_self, hl]⟩
  · exact .inl (Function.update_of_ne hr ..)

/-- A response comes from the server's handling of the instance's own request. -/
theorem step_answered {request : Request} {r : Response} (hs : s.step p b = some s')
    (hp : (s'.link role).posting = .answered request r) :
    (s.link role).posting = .answered request r ∨ ∃ now, b = .post role now := by
  have hact : ∀ {role' : Role} {a : LinkAct} {t : Rendezvous}, s.act role' a = some t →
      (∀ now, a ≠ .post now) → (t.link role).posting = .answered request r →
      (s.link role).posting = .answered request r := by
    intro role' a t ht hno hp
    obtain hsame | ⟨-, hl⟩ := act_link ht role
    · rwa [hsame] at hp
    · obtain hold | ⟨now, hnow⟩ := Link.step_answered hl hp
      · exact hold
      · exact absurd hnow (hno now)
  cases b with
  | call role' e =>
    refine .inl ?_
    cases e with
    | session x => cases hs
    | call | read | incoming =>
      obtain ⟨q, -, rfl⟩ := Option.map_eq_some_iff.1 hs
      exact hp
  | request role' =>
    refine .inl ?_
    simp only [step, Rendezvous.request] at hs
    split at hs
    · exact hact hs (fun _ hn => by cases hn) hp
    · exact hact hs (fun _ hn => by cases hn) hp
    · exact hact hs (fun _ hn => by cases hn) hp
    · split at hs
      · cases hs
      · split at hs
        · exact hact hs (fun _ hn => by cases hn) hp
        · cases hs; exact hp
  | post role' now =>
    obtain hsame | ⟨rfl, hl⟩ := act_link hs role
    · rw [hsame] at hp
      exact .inl hp
    · exact .inr ⟨now, rfl⟩
  | ack role' =>
    refine .inl ?_
    simp only [step, ack] at hs
    split at hs
    · obtain ⟨t, ht, rfl⟩ := Option.map_eq_some_iff.1 hs
      exact hact ht (fun _ hn => by cases hn) hp
    · cases hs
  | get role' now => exact .inl (hact hs (fun _ hn => by cases hn) hp)
  | reply role' => exact .inl (hact hs (fun _ hn => by cases hn) hp)
  | take role' =>
    refine .inl ?_
    simp only [step, take] at hs
    split at hs
    · obtain ⟨t, ht, rfl⟩ := Option.map_eq_some_iff.1 hs
      refine hact ht (fun _ hn => by cases hn) ?_
      split at hp <;> exact hp
    · cases hs
  | serve c =>
    refine .inl ?_
    obtain ⟨l, -, hs⟩ := Option.bind_eq_some_iff.1 hs
    obtain ⟨l', -, rfl⟩ := Option.map_eq_some_iff.1 hs
    exact hp

/-- No step changes the limits of the store. -/
theorem Synced.step_limits (h : s.Synced p config clients room) (hs : s.step p b = some s') :
    s'.server.rooms.limits = s.server.rooms.limits := by
  have hact : ∀ {role' : Role} {a : LinkAct} {t : Rendezvous}, s.act role' a = some t →
      t.server.rooms.limits = s.server.rooms.limits := by
    intro role' a t ht
    obtain ⟨l, hl, rfl⟩ := Option.map_eq_some_iff.1 ht
    exact (h.inv role').step_limits hl
  cases b with
  | call role e =>
    cases e with
    | session r => cases hs
    | call | read | incoming =>
      obtain ⟨q, -, rfl⟩ := Option.map_eq_some_iff.1 hs
      rfl
  | request role =>
    simp only [Rendezvous.step, Rendezvous.request] at hs
    split at hs
    · exact hact hs
    · exact hact hs
    · exact hact hs
    · split at hs
      · cases hs
      · split at hs
        · exact hact hs
        · cases hs; rfl
  | post role now => exact hact hs
  | ack role =>
    simp only [Rendezvous.step, ack] at hs
    split at hs
    · obtain ⟨t, ht, rfl⟩ := Option.map_eq_some_iff.1 hs
      have hlimits := hact ht
      exact hlimits
    · cases hs
  | get role now => exact hact hs
  | reply role => exact hact hs
  | take role =>
    simp only [Rendezvous.step, take] at hs
    split at hs
    · obtain ⟨t, ht, rfl⟩ := Option.map_eq_some_iff.1 hs
      have hlimits := hact ht
      split <;> exact hlimits
    · cases hs
  | serve c =>
    obtain ⟨l, hl, hs⟩ := Option.bind_eq_some_iff.1 hs
    obtain ⟨l', -, rfl⟩ := Option.map_eq_some_iff.1 hs
    exact (h.inv .offerer).step_limits hl

/-- A publish or done that is under way is one that the server accepts. -/
theorem Good.post_accepted (hfits : Fits p config) (h : s.Good p config clients room)
    {now : Instant} {request : Request} (hp : (s.link role).posting = .requesting request)
    {l : Link} (hl : (s.mailbox role).step (.post now) = some l) :
    ∃ r, l.posting = .answered request r ∧ r.isSuccess = true := by
  have hlimits : (s.mailbox role).server.rooms.limits.Off := by
    show s.server.rooms.limits.Off
    rw [h.limits]
    exact hfits.off
  refine (h.inv role).post_accepted hlimits hp ?_ hl
  rintro blob rfl
  show blob.length ≤ (s.link role).config.maxBlobBytes ∧ (s.link role).log.shut = false
  have hahead : s.ahead p role = s.inst role := ahead_of_idle fun request r hr => by
    rw [hp] at hr
    cases hr
  have hposts : Posts p role (s.inst role).stream (s.link role).log (s.inst role).stage := by
    have hposts := (h.hand role).posts
    show Posts p role (s.inst role).stream ((s.abs p).box role) (s.inst role).stage
    rw [← hahead]
    exact hposts
  obtain ⟨hd, -⟩ | ⟨signal, blob', hst, hc, heq⟩ := h.sends role _ (.inl hp)
  · cases hd
  · obtain ⟨hopen, hmem⟩ := hposts.publishes hst
    obtain ⟨blob₀, hto, -, hsize⟩ := hfits.codec role signal hmem
    cases hc.symm.trans hto
    cases heq
    rw [h.configured role]
    exact ⟨hsize, hopen⟩

/-- One step keeps the run good, and brings the handshake nearer to its end when it shows there. -/
theorem Good.step (hfits : Fits p config) (h : s.Good p config clients room)
    (hok : ∀ role e, b = .call role e → e.Succeeds) (hs : s.step p b = some s') :
    s'.Good p config clients room ∧
      (s'.abs p = s.abs p ∨ (s'.abs p).work p < (s.abs p).work p) := by
  obtain ⟨hsync, hshow⟩ := h.toSynced.step hs
  have hsucc : s.Succeeds b := by
    cases b with
    | call role e => exact hok role e rfl
    | ack role => exact fun request r hp => h.accepted role request r hp
    | request | post | get | reply | take | serve => trivial
  have haccepted : ∀ role request r, (s'.link role).posting = .answered request r →
      r.isSuccess = true := by
    intro role request r hp
    obtain hold | ⟨now, rfl⟩ := step_answered hs hp
    · exact h.accepted role request r hold
    · obtain ⟨-, request', r', hreq, hans, -⟩ := h.toSynced.step_post hs
      obtain ⟨l, hl, rfl⟩ := Option.map_eq_some_iff.1 hs
      obtain ⟨r'', hr'', hsucc⟩ := h.post_accepted hfits hreq hl
      have hl' : (Function.update s.link role l role).posting = .answered request r := hp
      rw [Function.update_self, hr''] at hl'
      cases hl'
      exact hsucc
  have hlimits := (h.toSynced.step_limits hs).trans h.limits
  obtain hsame | ⟨a, ha, hcall⟩ := hshow
  · refine ⟨{ hsync with hand := ?_, limits := hlimits, accepted := haccepted }, .inl hsame⟩
    rw [hsame]
    exact h.hand
  · obtain ⟨hinv, hwork⟩ := h.hand.step hfits.lossless (hcall hsucc) ha
    exact ⟨{ hsync with hand := hinv, limits := hlimits, accepted := haccepted }, .inr hwork⟩

theorem good_start (p : Peers) (config : Config) (clients : Role → Client) (room : RoomId) :
    (start p config clients room).Good p config clients room where
  toSynced := synced_start p config clients room
  hand := Handshake.inv_start p
  limits := rfl
  accepted := nofun

/-- An instance is where the handshake has it, or is about to hear of its publish or done. -/
theorem Good.inst (h : s.Good p config clients room) (role : Role) :
    (s.ahead p role).applied = (s.inst role).applied ∧
      ((s.inst role).stage.isConsumed = true → s.ahead p role = s.inst role) ∧
      ∀ detail, (s.inst role).stage ≠ .failed detail := by
  cases hp : (s.link role).posting with
  | idle | requesting request =>
    have hahead : s.ahead p role = s.inst role := ahead_of_idle fun request r hr => by
      rw [hp] at hr
      cases hr
    refine ⟨by rw [hahead], fun _ => hahead, fun detail hst => ?_⟩
    have hposts := (h.hand role).posts
    have hinst : (s.abs p).inst role = s.inst role := hahead
    rw [hinst, hst] at hposts
    exact hposts
  | answered request r =>
    have hsucc := h.accepted role request r hp
    have happ := (h.toSynced.step_posted (.inr ⟨r, hp⟩) ⟨[], false⟩ ⟨[], false⟩
      (.ok ())).2.2
    have hahead : s.ahead p role = (s.inst role).posted p role (.ok ()) := by
      unfold ahead
      rw [hp]
      simp only [hsucc, if_true]
    refine ⟨by rw [hahead, happ], fun hc => ?_, fun detail hst => ?_⟩
    all_goals
      obtain ⟨-, hd⟩ | ⟨signal, blob, hd, -⟩ := h.sends role request (.inr ⟨r, hp⟩)
    · rw [hd] at hc; cases hc
    · have hno := Stage.isMailbox_of_isConsumed hc
      rw [Instance.isMailbox_of_publishes hd] at hno
      cases hno
    · rw [hst] at hd; cases hd
    · rw [hst] at hd; cases hd

end

end Rendezvous

section
variable {p : Peers} {config : Config} {clients : Role → Client} {room : RoomId}
  {as : List RendezvousAct} {s : Rendezvous}

theorem Rendezvous.good_run (hfits : Fits p config)
    (h : Runs.run (Rendezvous.step p) (.start p config clients room) as = some s)
    (hok : ∀ role e, RendezvousAct.call role e ∈ as → e.Succeeds) :
    Rendezvous.Good p config clients room s := by
  refine Runs.invariant_of (I := Rendezvous.Good p config clients room)
    (C := fun a => ∀ role e, a = RendezvousAct.call role e → e.Succeeds)
    (fun _ _ _ hgood hok hs => (Rendezvous.Good.step hfits hgood hok hs).1)
    (Rendezvous.good_start p config clients room) ?_ h
  rintro a ha role e rfl
  exact hok role e ha

/-- Two instances over their sessions and a server whose limits are off and that takes their
signals, where the calls of the peer connections succeed, in any order of all steps and whatever
else the server does that neither writes their mailboxes nor removes the room: neither instance
fails, each applies its peer's description and then its peer's candidates, in order and each once,
and all of them before it waits for the connection. -/
theorem rendezvous_in_order (hfits : Fits p config)
    (h : Runs.run (Rendezvous.step p) (.start p config clients room) as = some s)
    (hok : ∀ role e, RendezvousAct.call role e ∈ as → e.Succeeds) (role : Role) :
    (∀ detail, (s.inst role).stage ≠ .failed detail) ∧
      (s.inst role).applied <+: p.expected role ∧
      ((s.inst role).stage.isConsumed = true → (s.inst role).applied = p.expected role) := by
  have hgood := Rendezvous.good_run hfits h hok
  obtain ⟨happ, hcons, hfail⟩ := hgood.inst role
  obtain ⟨hpre, hall⟩ := (hgood.hand role).inOrder
  refine ⟨hfail, happ ▸ hpre, fun hc => happ ▸ hall ?_⟩
  show (s.ahead p role).stage.isConsumed = true
  rw [hcons hc]
  exact hc

end

/-- A server whose limits are off takes the signals of one candidate. -/
theorem fits_oneCandidate : Fits oneCandidate ⟨5, 100, ⟨300, 0, 0⟩⟩ where
  off := ⟨rfl, rfl⟩
  codec role signal hsignal := by
    refine ⟨_, rfl, ?_⟩
    cases role with
    | offerer =>
      obtain rfl | rfl | rfl : signal = .offer "o" ∨ signal = .candidate "c" (some "0") (some 0) ∨
          signal = .endOfCandidates := by
        simpa [Peers.script, Peers.description, oneCandidate, Signal.ofCandidate] using hsignal
      all_goals exact ⟨rfl, by decide⟩
    | answerer =>
      obtain rfl | rfl : signal = .answer "a" ∨ signal = .endOfCandidates := by
        simpa [Peers.script, Peers.description, oneCandidate] using hsignal
      all_goals exact ⟨rfl, by decide⟩

theorem offerRead_succeeds (role : Role) (e : Event)
    (h : RendezvousAct.call role e ∈ offerRead) : e.Succeeds := by
  simp only [offerRead, List.mem_cons, RendezvousAct.call.injEq, reduceCtorEq, List.not_mem_nil,
    or_false] at h
  obtain ⟨-, rfl⟩ | ⟨-, rfl⟩ | ⟨-, rfl⟩ := h <;> rfl

theorem rendezvous_in_order_of_offer : ∃ room s,
    Runs.run (Rendezvous.step oneCandidate)
      (.start oneCandidate ⟨5, 100, ⟨300, 0, 0⟩⟩ (fun _ => .native) room) offerRead = some s ∧
    (s.inst .answerer).applied <+: [.offer "o", .candidate ⟨"c", some "0", some 0⟩] := by
  have hrun : ∃ room s, Runs.run (Rendezvous.step oneCandidate)
      (.start oneCandidate ⟨5, 100, ⟨300, 0, 0⟩⟩ (fun _ => .native) room) offerRead = some s :=
    ⟨⟨"r", by decide⟩, _, rfl⟩
  obtain ⟨room, s, h⟩ := hrun
  exact ⟨room, s, h, (rendezvous_in_order fits_oneCandidate h offerRead_succeeds .answerer).2.1⟩

/-! ## Neither is stuck -/

/-- A step of the two instances, of their sessions or of their fetches, whose call succeeds. -/
def RendezvousAct.Own : RendezvousAct → Prop
  | .call _ e => e.Succeeds
  | .serve (.poll ..) => True
  | .serve _ => False
  | _ => True

/-- A call that returns does so without the mailboxes, if it is not the session's. -/
theorem Instance.step_alone {p : Peers} {role : Role} {s : Instance} {q : Instance × Log Bytes}
    {e : Event} {own peer : Log Bytes} (hst : s.stage.isMailbox = false)
    (hs : s.step p role own peer e = some q) :
    (∀ r, e ≠ .session r) ∧ q.2 = own ∧
      s.step p role ⟨[], false⟩ ⟨[], false⟩ e = some (q.1, ⟨[], false⟩) := by
  cases e with
  | session r =>
    cases hstage : s.stage with
    | recvOffer | publishDescription | publishCandidates | done | consume =>
      rw [hstage] at hst
      cases hst
    | createDataChannel | createOffer | setRemoteOffer | createAnswer | setLocalDescription
    | collect | setRemoteAnswer | addCandidate | waitConnected | firstIncoming | finished
    | failed => simp [step, hstage] at hs
  | call r =>
    refine ⟨fun _ he => (by cases he), ?_⟩
    cases hstage : s.stage with
    | createDataChannel | createOffer | setRemoteOffer | createAnswer | setLocalDescription
    | setRemoteAnswer | addCandidate | waitConnected =>
      simp only [step, hstage, Option.some.injEq] at hs ⊢
      subst hs
      exact ⟨rfl, rfl⟩
    | publishCandidates rest => cases rest <;> simp [step, hstage] at hs
    | recvOffer | publishDescription | collect | done | consume | firstIncoming | finished
    | failed => simp [step, hstage] at hs
  | read n ended =>
    refine ⟨fun _ he => (by cases he), ?_⟩
    cases hstage : s.stage with
    | collect out =>
      simp only [step, hstage, Option.map_eq_some_iff] at hs ⊢
      obtain ⟨t, ht, rfl⟩ := hs
      exact ⟨rfl, t, ht, rfl⟩
    | publishCandidates rest => cases rest <;> simp [step, hstage] at hs
    | createDataChannel | createOffer | recvOffer | setRemoteOffer | createAnswer
    | setLocalDescription | publishDescription | done | consume | setRemoteAnswer | addCandidate
    | waitConnected | firstIncoming | finished | failed => simp [step, hstage] at hs
  | incoming found =>
    refine ⟨fun _ he => (by cases he), ?_⟩
    cases hstage : s.stage with
    | firstIncoming =>
      simp only [step, hstage, Option.some.injEq] at hs ⊢
      subst hs
      exact ⟨rfl, rfl⟩
    | publishCandidates rest => cases rest <;> simp [step, hstage] at hs
    | createDataChannel | createOffer | recvOffer | setRemoteOffer | createAnswer
    | setLocalDescription | publishDescription | collect | done | consume | setRemoteAnswer
    | addCandidate | waitConnected | finished | failed => simp [step, hstage] at hs

/-- An instance that has just published has not consumed the signaling. -/
theorem Instance.posted_isConsumed {p : Peers} {role : Role} {s : Instance}
    (hst : s.stage = .done ∨ ∃ signal blob, s.stage.publishes = some signal ∧
      p.codec.toVec signal = .ok blob) :
    (s.posted p role (.ok ())).stage.isConsumed = false := by
  obtain hst | ⟨signal, blob, hst, hc⟩ := hst
  · simp only [posted, step, hst, finish]
    rfl
  · cases hs : s.stage with
    | publishDescription description =>
      rw [hs] at hst
      cases hst
      simp only [posted, step, hs, publish, hc]
      rfl
    | publishCandidates rest =>
      rw [hs] at hst
      cases rest with
      | nil | cons =>
        cases hst
        simp only [posted, step, hs, publish, hc]
        rfl
    | createDataChannel | createOffer | recvOffer | setRemoteOffer | createAnswer
    | setLocalDescription | collect | done | consume | setRemoteAnswer | addCandidate
    | waitConnected | firstIncoming | finished | failed => rw [hs] at hst; cases hst

namespace Rendezvous

/-- The two can bring the handshake nearer to its end by steps of their own. -/
def Nears (p : Peers) (config : Config) (clients : Role → Client) (room : RoomId)
    (s : Rendezvous) : Prop :=
  ∃ bs t, (∀ b ∈ bs, RendezvousAct.Own b) ∧ Runs.run (step p) s bs = some t ∧
    t.Good p config clients room ∧ (t.abs p).work p < (s.abs p).work p

section
variable {p : Peers} {config : Config} {clients : Role → Client} {room : RoomId}
  {s s' : Rendezvous} {role : Role} {a : LinkAct} {b : RendezvousAct}

/-- A step of the two's own that changes nothing in the handshake may go before. -/
theorem Good.nears_cons (hfits : Fits p config) (h : s.Good p config clients room)
    (hown : b.Own) (hs : s.step p b = some s')
    (hnext : s'.Good p config clients room → s'.abs p = s.abs p →
      s'.Nears p config clients room) : s.Nears p config clients room := by
  have hok : ∀ role e, b = .call role e → e.Succeeds := by
    rintro role e rfl
    exact hown
  obtain ⟨h', hsame | hlt⟩ := h.step hfits hok hs
  · obtain ⟨bs, t, hbs, hrun, ht, hlt⟩ := hnext h' hsame
    refine ⟨b :: bs, t, List.forall_mem_cons.2 ⟨hown, hbs⟩,
      Runs.run_cons_eq_some.2 ⟨s', hs, hrun⟩, ht, ?_⟩
    rwa [← hsame]
  · exact ⟨[b], s', by simpa using hown, Runs.run_cons_eq_some.2 ⟨s', hs, rfl⟩, h', hlt⟩

/-- A step of the two's own that the handshake makes as well. -/
theorem Good.nears_of_step (hfits : Fits p config) (h : s.Good p config clients room)
    (hown : b.Own) (hs : s.step p b = some s') {e : Event} (he : e.Succeeds)
    (habs : (s.abs p).step p (role, e) = some (s'.abs p)) : s.Nears p config clients room := by
  have hlt := (h.hand.step hfits.lossless he habs).2
  exact h.nears_cons hfits hown hs fun _ hsame =>
    absurd hlt (by rw [hsame]; exact Nat.lt_irrefl _)

/-- The server takes the publish or done that is on its way. -/
theorem Good.nears_of_requesting (hfits : Fits p config) (h : s.Good p config clients room)
    {request : Request} (hp : (s.link role).posting = .requesting request) :
    s.Nears p config clients room := by
  obtain ⟨l, hl⟩ := (h.inv role).post_enabled 0 hp
  have hs : s.step p (.post role 0) = some
      { s with server := l.server, link := Function.update s.link role l } :=
    Option.map_eq_some_iff.2 ⟨l, hl, rfl⟩
  obtain ⟨-, request', r, hp', hans, hsucc, -⟩ := h.toSynced.step_post hs
  obtain ⟨r', hans', hr'⟩ := h.post_accepted hfits hp hl
  have hl' : (Function.update s.link role l role).posting = .answered request' r := hans
  rw [Function.update_self, hans'] at hl'
  cases hl'
  exact h.nears_of_step hfits (b := .post role 0) (e := .session (.ok ())) trivial hs rfl
    (hsucc hr')

/-- A step at a mailbox can be made by the two as well. -/
theorem act_of_mailbox {l : Link} (hl : (s.mailbox role).step a = some l) :
    ∃ s', s.act role a = some s' ∧ s'.mailbox role = l ∧ s'.inst = s.inst := by
  refine ⟨_, Option.map_eq_some_iff.2 ⟨l, hl, rfl⟩, ?_, rfl⟩
  simp only [mailbox, Function.update_self]

/-- An instance that is about to publish, or is done, begins its call. -/
theorem Good.nears_of_idle (hfits : Fits p config) (h : s.Good p config clients room)
    (hp : (s.link role).posting = .idle)
    (hst : (s.inst role).stage = .done ∨ ∃ signal, (s.inst role).stage.publishes = some signal) :
    s.Nears p config clients room := by
  have hbegin : ∀ (a : LinkAct) (request : Request), s.request p role = s.act role a →
      (s.mailbox role).step a = some { s.mailbox role with posting := .requesting request } →
      s.Nears p config clients room := by
    intro a request hreq hl
    obtain ⟨s', hs', hmail, -⟩ := act_of_mailbox hl
    refine h.nears_cons hfits (b := .request role) trivial (hreq.trans hs') fun h' _ => ?_
    have hp' : (s'.link role).posting = .requesting request := congrArg (·.posting) hmail
    exact h'.nears_of_requesting hfits hp'
  have hidle : (s.mailbox role).posting = .idle := hp
  obtain hst | ⟨signal, hst⟩ := hst
  · refine hbegin .done (s.mailbox role).publisher.doneRequest ?_ ?_
    · simp only [request, hst]
    · simp only [Link.step, hidle]
  · have hahead : (s.abs p).inst role = s.inst role := ahead_of_idle fun request r hr => by
      rw [hp] at hr
      cases hr
    have hposts := (h.hand role).posts
    rw [hahead] at hposts
    obtain ⟨blob, hto, -⟩ := hfits.codec role signal (hposts.publishes hst).2
    refine hbegin (.send blob) ((s.mailbox role).publisher.sendRequest blob) ?_ ?_
    · unfold request
      cases hs : (s.inst role).stage with
      | publishDescription | publishCandidates =>
        rw [hs] at hst
        simp only [hst, hto]
      | createDataChannel | createOffer | recvOffer | setRemoteOffer | createAnswer
      | setLocalDescription | collect | done | consume | setRemoteAnswer | addCandidate
      | waitConnected | firstIncoming | finished | failed => rw [hs] at hst; cases hst
    · simp only [Link.step, hidle]

/-- The mailbox has something for its reader when the handshake's has. -/
theorem Synced.ready (h : s.Synced p config clients room)
    (hidle : (s.link role).posting = .idle)
    (hlook : ((s.abs p).box role.peer).look ((s.abs p).inst role).cursor ≠ .pending) :
    (s.mailbox role.peer).Ready := by
  have hahead : (s.abs p).inst role = s.inst role := ahead_of_idle fun request r hr => by
    rw [hidle] at hr
    cases hr
  rw [hahead, h.cursor role] at hlook
  exact Link.ready_iff.2 hlook

/-- The step of a fetch is one of the two's own. -/
theorem Synced.step_isFetch (h : s.Synced p config clients room) {l : Link}
    (ha : a.isFetch = true) (hl : (s.mailbox role.peer).step a = some l) :
    ∃ b s', b.Own ∧ s.step p b = some s' ∧ s'.mailbox role.peer = l ∧
      (a = .take → b = .take role) := by
  cases a with
  | get now =>
    obtain ⟨s', hs', hmail, -⟩ := act_of_mailbox hl
    exact ⟨.get role now, s', trivial, hs', hmail, fun he => (by cases he)⟩
  | reply =>
    obtain ⟨s', hs', hmail, -⟩ := act_of_mailbox hl
    exact ⟨.reply role, s', trivial, hs', hmail, fun he => (by cases he)⟩
  | take =>
    obtain ⟨s', hs', hmail, -⟩ := act_of_mailbox hl
    have hf : ∃ seq r, (s.link role.peer).fetching = .answered seq r := by
      simp only [Link.step] at hl
      split at hl
      · next seq r hf => exact ⟨seq, r, hf⟩
      · cases hl
    obtain ⟨seq, r, hf⟩ := hf
    have htake : ∃ s₁, s.step p (.take role) = some s₁ ∧ s₁.mailbox role.peer = l := by
      simp only [Rendezvous.step, take, hf, hs', Option.map_some, Option.some.injEq,
        exists_eq_left']
      split <;> exact hmail
    obtain ⟨s₁, hs₁, hmail₁⟩ := htake
    exact ⟨.take role, s₁, trivial, hs₁, hmail₁, fun _ => rfl⟩
  | serve c =>
    cases c with
    | poll k now =>
      have hpoll : ∀ r, (s.mailbox r).step (.serve (.poll k now)) =
          some { s.mailbox r with server := l.server } := by
        intro r
        simp only [Link.step, ServerAct.writes, reduceCtorEq, if_false,
          Option.bind_eq_some_iff, Option.ite_none_right_eq_some, Option.some.injEq] at hl ⊢
        obtain ⟨server, hserver, hkeep, rfl⟩ := hl
        refine ⟨server, hserver, ?_, rfl⟩
        have hroom : ∀ r, (s.mailbox r).publisher.room = room :=
          fun r => congrArg Signaling.Session.room (h.publisher r)
        rw [hroom] at hkeep ⊢
        exact hkeep
      have hl' : l = { s.mailbox role.peer with server := l.server } :=
        Option.some.inj (hl.symm.trans (hpoll role.peer))
      refine ⟨.serve (.poll k now), { s with server := l.server }, trivial, ?_, hl'.symm,
        fun he => (by cases he)⟩
      simp only [Rendezvous.step, hpoll, Option.bind_some, Option.map_some]
    | publish | markDone | delete | evictExpired | fetch => cases ha
  | send | done | post | ack | recv => cases ha

/-- A read that the peer's mailbox has something for returns. -/
theorem Good.nears_of_fetching (hfits : Fits p config) (h : s.Good p config clients room)
    (hf : (s.link role.peer).fetching ≠ .idle)
    (hlook : ((s.abs p).box role.peer).look ((s.abs p).inst role).cursor ≠ .pending) :
    s.Nears p config clients room := by
  induction hn : (s.mailbox role.peer).rank using Nat.strong_induction_on generalizing s with
  | _ n ih =>
    subst hn
    have hready := h.toSynced.ready (h.idle_of_reading (h.reads role hf)) hlook
    obtain ⟨a, l, ha, hl, hgoes⟩ := (h.inv role.peer).goes hready hf
    obtain ⟨b, s', hown, hs, rfl, htake⟩ := h.toSynced.step_isFetch ha hl
    obtain ⟨hret, hidle⟩ | ⟨hbusy, hlt⟩ := hgoes
    · cases htake hret
      obtain ⟨-, habs | ⟨hbusy, -⟩⟩ := h.toSynced.step_take hs
      · exact h.nears_of_step hfits (b := .take role) (e := .session (.ok ())) trivial hs rfl habs
      · exact absurd hidle hbusy
    · refine h.nears_cons hfits hown hs fun h' hsame => ?_
      exact ih _ hlt h' hbusy (by rwa [hsame]) rfl

/-- An instance whose session does nothing goes on when the handshake does. -/
theorem Good.nears_of_quiet (hfits : Fits p config) (h : s.Good p config clients room)
    (hidle : (s.link role).posting = .idle) {e : Event} (he : e.Succeeds) {q : Handshake}
    (hs : (s.abs p).step p (role, e) = some q) : s.Nears p config clients room := by
  have hno : ∀ request r, (s.link role).posting ≠ .answered request r := by
    intro request r hr
    rw [hidle] at hr
    cases hr
  have hahead : (s.abs p).inst role = s.inst role := ahead_of_idle hno
  obtain ⟨i, hi, rfl⟩ := Option.map_eq_some_iff.1 hs
  rw [hahead] at hi
  cases hst : (s.inst role).stage.isMailbox with
  | false =>
    obtain ⟨hsess, hown, halone⟩ := Instance.step_alone hst hi
    have hcall : s.step p (.call role e) = some (s.goOn role i.1) := by
      cases e with
      | session r => exact absurd rfl (hsess r)
      | call | read | incoming => simp only [Rendezvous.step, halone, Option.map_some]
    refine h.nears_of_step hfits (b := .call role e) he hcall he (abs_step ?_ hown.symm ?_ rfl)
    · rw [ahead_of_idle hno, ahead_of_idle (s := s.goOn role i.1) hno, goOn_inst]
      exact hi
    · exact ahead_congr rfl (goOn_inst_peer s role i.1)
  | true =>
    by_cases hr : (s.inst role).Reading
    · have hlook : ((s.abs p).box role.peer).look ((s.abs p).inst role).cursor ≠ .pending := by
        intro hpend
        rw [hahead] at hpend
        obtain hst' | hst' := hr
        all_goals
          cases e with
          | session r =>
            cases he
            simp [Instance.step, hst', Instance.recv, hpend] at hi
          | call | read | incoming => simp [Instance.step, hst'] at hi
      cases hf : (s.link role.peer).fetching with
      | idle =>
        have hl : (s.mailbox role.peer).step .recv = some { s.mailbox role.peer with
            fetching := .requesting (s.mailbox role.peer).consumer.recvSeq } := by
          have hf : (s.mailbox role.peer).fetching = .idle := hf
          simp only [Link.step, hf]
        obtain ⟨s', hs', hmail, -⟩ := act_of_mailbox hl
        have hreq : s.step p (.request role) = some s' := by
          obtain hst' | hst' := hr <;> simp only [Rendezvous.step, request, hst', hs']
        refine h.nears_cons hfits (b := .request role) trivial hreq fun h' hsame => ?_
        have hf' : (s'.link role.peer).fetching =
            .requesting (s.mailbox role.peer).consumer.recvSeq := congrArg (·.fetching) hmail
        refine h'.nears_of_fetching hfits ?_ (by rwa [hsame])
        rw [hf']
        intro hi
        cases hi
      | requesting | running | answered =>
        refine h.nears_of_fetching hfits ?_ hlook
        rw [hf]
        intro hi
        cases hi
    · refine h.nears_of_idle hfits hidle ?_
      cases hs : (s.inst role).stage with
      | recvOffer => exact absurd (.inl hs) hr
      | consume => exact absurd (.inr hs) hr
      | done => exact .inl rfl
      | publishDescription description => exact .inr ⟨description, rfl⟩
      | publishCandidates rest =>
        cases rest with
        | nil | cons => exact .inr ⟨_, rfl⟩
      | createDataChannel | createOffer | setRemoteOffer | createAnswer | setLocalDescription
      | collect | setRemoteAnswer | addCandidate | waitConnected | firstIncoming | finished
      | failed => rw [hs] at hst; cases hst

/-- An instance goes on when the handshake does. -/
theorem Good.nears (hfits : Fits p config) (h : s.Good p config clients room) {e : Event}
    (he : e.Succeeds) {q : Handshake} (hs : (s.abs p).step p (role, e) = some q) :
    s.Nears p config clients room := by
  cases hp : (s.link role).posting with
  | idle => exact h.nears_of_quiet hfits hp he hs
  | requesting request => exact h.nears_of_requesting hfits hp
  | answered request r =>
    have hl : (s.mailbox role).step .ack = some ((s.mailbox role).ack request r) := by
      have hp : (s.mailbox role).posting = .answered request r := hp
      simp only [Link.step, hp]
    obtain ⟨s', hs', hmail, -⟩ := act_of_mailbox hl
    have hack : s.step p (.ack role) = some (s'.goOn role ((s.inst role).posted p role
        (posts (s.link role).publisher request r))) := by
      simp only [Rendezvous.step, ack, hp, hs', Option.map_some]
    refine h.nears_cons hfits (b := .ack role) trivial hack fun h' hsame => ?_
    have hp' : (s'.link role).posting = .idle :=
      (congrArg (·.posting) hmail).trans (Link.step_ack hl).1
    exact h'.nears_of_quiet hfits hp' he (q := q) (by rwa [hsame])

/-- An instance has consumed the signaling when the handshake has it so. -/
theorem Good.isConsumed (h : s.Good p config clients room)
    (hc : ((s.abs p).inst role).stage.isConsumed = true) :
    (s.inst role).stage.isConsumed = true := by
  have hc : (s.ahead p role).stage.isConsumed = true := hc
  cases hp : (s.link role).posting with
  | idle | requesting request =>
    rwa [ahead_of_idle fun request r hr => by rw [hp] at hr; cases hr] at hc
  | answered request r =>
    unfold ahead at hc
    rw [hp] at hc
    simp only [h.accepted role request r hp, if_true] at hc
    rw [Instance.posted_isConsumed ?_] at hc
    · cases hc
    · obtain ⟨-, hd⟩ | ⟨signal, blob, hd, hto, -⟩ := h.sends role request (.inr ⟨r, hp⟩)
      · exact .inl hd
      · exact .inr ⟨signal, blob, hd, hto⟩

/-- The two can consume the signaling. -/
theorem Good.completes (hfits : Fits p config) (h : s.Good p config clients room) :
    ∃ bs t, (∀ b ∈ bs, RendezvousAct.Own b) ∧ Runs.run (Rendezvous.step p) s bs = some t ∧
      t.Good p config clients room ∧ ∀ role, (t.inst role).stage.isConsumed = true := by
  induction hn : (s.abs p).work p using Nat.strong_induction_on generalizing s with
  | _ n ih =>
    subst hn
    by_cases hall : ∀ role, ((s.abs p).inst role).stage.isConsumed = true
    · exact ⟨[], s, nofun, rfl, h, fun role => h.isConsumed (hall role)⟩
    · obtain ⟨role, hrole⟩ := not_forall.1 hall
      obtain ⟨⟨role, e⟩, q, he, -, hs⟩ :=
        h.hand.not_stuck ⟨role, eq_false_of_ne_true hrole⟩
      obtain ⟨bs, t, hbs, hrun, ht, hlt⟩ := h.nears hfits he hs
      obtain ⟨bs', t', hbs', hrun', ht', hdone⟩ := ih _ hlt ht rfl
      refine ⟨bs ++ bs', t', ?_, Runs.run_append_eq_some.2 ⟨t, hrun, hrun'⟩, ht', hdone⟩
      exact List.forall_mem_append.2 ⟨hbs, hbs'⟩

end

end Rendezvous

/-- From every state that the two reach so, steps of their own bring both behind the signaling, each
with all that its peer published applied. -/
theorem rendezvous_completes {p : Peers} {config : Config} {clients : Role → Client}
    {room : RoomId} {as : List RendezvousAct} {s : Rendezvous} (hfits : Fits p config)
    (h : Runs.run (Rendezvous.step p) (.start p config clients room) as = some s)
    (hok : ∀ role e, RendezvousAct.call role e ∈ as → e.Succeeds) :
    ∃ bs t, (∀ b ∈ bs, RendezvousAct.Own b) ∧ Runs.run (Rendezvous.step p) s bs = some t ∧
      ∀ role, (t.inst role).stage.isConsumed = true ∧
        (t.inst role).applied = p.expected role := by
  obtain ⟨bs, t, hbs, hrun, ht, hdone⟩ := (Rendezvous.good_run hfits h hok).completes hfits
  refine ⟨bs, t, hbs, hrun, fun role => ⟨hdone role, ?_⟩⟩
  obtain ⟨happ, hcons, -⟩ := ht.inst role
  rw [← happ]
  refine (ht.hand role).inOrder.2 ?_
  show (t.ahead p role).stage.isConsumed = true
  rw [hcons (hdone role)]
  exact hdone role

theorem rendezvous_completes_of_offer : ∃ room s bs t,
    Runs.run (Rendezvous.step oneCandidate)
      (.start oneCandidate ⟨5, 100, ⟨300, 0, 0⟩⟩ (fun _ => .native) room) offerRead = some s ∧
    Runs.run (Rendezvous.step oneCandidate) s bs = some t ∧
    (t.inst .offerer).applied = [.answer "a"] ∧
    (t.inst .answerer).applied = [.offer "o", .candidate ⟨"c", some "0", some 0⟩] := by
  have hrun : ∃ room s, Runs.run (Rendezvous.step oneCandidate)
      (.start oneCandidate ⟨5, 100, ⟨300, 0, 0⟩⟩ (fun _ => .native) room) offerRead = some s :=
    ⟨⟨"r", by decide⟩, _, rfl⟩
  obtain ⟨room, s, h⟩ := hrun
  obtain ⟨bs, t, -, hrun', hdone⟩ :=
    rendezvous_completes fits_oneCandidate h offerRead_succeeds
  exact ⟨room, s, bs, t, h, hrun', (hdone .offerer).2, (hdone .answerer).2⟩

end WebrtcDatachannels.Suite
