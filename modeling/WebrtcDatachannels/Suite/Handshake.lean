import Mathlib.Logic.Function.Basic
import WebrtcDatachannels.Lib.Runs
import WebrtcDatachannels.Lib.SealedLog
import WebrtcDatachannels.Signaling.Http

/-!
# The handshake of the conformance guest

`handshake_offerer` and `handshake_answerer` of `conformance/guest/src/lib.rs`, the one instance
beside the other, with a mailbox each. An instance is a sequential program: its `Stage` is the call
at which it stands, and an `Event` is that call's return. The mailboxes are logs, which is what a
`recv` makes of them (`Signaling/Mailbox`). `Instance.Inv` says for one instance how much of its
script it has published and what it has applied of its peer's, and speaks of no other instance; so
an instance waits only for a mailbox whose owner can go on.
-/

namespace WebrtcDatachannels.Suite

open Signaling (Role)
open SealedLog (Log)

/-! ## Signals -/

/-- The signaling blobs of the guest. Source: `Signal`. -/
inductive Signal where
  | offer (sdp : String)
  | answer (sdp : String)
  | candidate (candidate : String) (sdpMid : Option String) (sdpMlineIndex : Option Nat)
  | endOfCandidates
deriving DecidableEq, Repr

/-- What the guest takes from `serde_json` and from the derived `Debug`. -/
structure Codec where
  toVec : Signal → Except String Bytes
  fromSlice : Bytes → Except String Signal
  debug : Option Signal → String

/-- The signal is encoded, and decoded again. -/
def Codec.Lossless (codec : Codec) (signal : Signal) : Prop :=
  ∃ blob, codec.toVec signal = .ok blob ∧ codec.fromSlice blob = .ok signal

/-- The signal of a local candidate. Source: `publish_candidates`. -/
def Signal.ofCandidate (c : IceCandidate) : Signal :=
  .candidate c.candidate c.sdpMid c.sdpMlineIndex

/-- What an instance applies to its peer connection: a remote description, or a remote
candidate. -/
inductive Applied where
  | offer (sdp : String)
  | answer (sdp : String)
  | candidate (c : IceCandidate)
deriving DecidableEq, Repr

/-- What is applied for a signal. -/
def Signal.effect : Signal → Option Applied
  | .offer sdp => some (.offer sdp)
  | .answer sdp => some (.answer sdp)
  | .candidate c mid index => some (.candidate ⟨c, mid, index⟩)
  | .endOfCandidates => none

/-- Source: `describe`. -/
def describe : Error → String
  | .closed => "closed"
  | .timedOut => "timed-out"
  | .invalidSignaling detail => "invalid-signaling: " ++ detail
  | .receivingViaStream => "receiving-via-stream"
  | .receiveBufferOverflow => "receive-buffer-overflow"
  | .other detail => "other: " ++ detail

/-! ## One instance -/

/-- The call at which an instance stands. The remote description is that of the offer that the
answerer reads first, or that of an answer; `rest` are the candidates that are not published. -/
inductive Stage where
  | createDataChannel
  | createOffer
  | recvOffer
  | setRemoteOffer (sdp : String)
  | createAnswer
  | setLocalDescription (description : Signal)
  | publishDescription (description : Signal)
  | collect (out : List IceCandidate)
  | publishCandidates (rest : List IceCandidate)
  | done
  | consume
  | setRemoteAnswer (sdp : String)
  | addCandidate (c : IceCandidate)
  | waitConnected
  | firstIncoming
  | finished
  | failed (detail : String)
deriving DecidableEq, Repr

/-- An instance: its stage, what its local candidate stream has not delivered, the number of signals
it has read, and what it has applied. -/
structure Instance where
  stage : Stage
  stream : List IceCandidate
  cursor : Nat
  applied : List Applied
deriving DecidableEq, Repr

/-- What the two instances find: the codec, the descriptions that their peer connections create, and
the candidates that these gather. -/
structure Peers where
  codec : Codec
  offer : String
  answer : String
  candidates : Role → List IceCandidate

/-- What an instance's call returns: a peer-connection call, a read of at most four candidates, with
the end of the stream or not, a mailbox call, or the read of an incoming channel. -/
inductive Event where
  | call (r : Except Error Unit)
  | read (n : Nat) (ended : Bool)
  | session (r : Except Error Unit)
  | incoming (found : Bool)

/-- The call did what it is for. -/
def Event.Succeeds : Event → Prop
  | .call r | .session r => r = .ok ()
  | .read _ _ => True
  | .incoming found => found = true

namespace Instance

/-- An instance as `run_two_peer` starts it. -/
def start (p : Peers) (role : Role) : Instance :=
  { stage := match role with
      | .offerer => .createDataChannel
      | .answerer => .recvOffer
    stream := p.candidates role
    cursor := 0
    applied := [] }

/-- A peer-connection call, with the text that goes before its error, and what it applies. -/
def called (s : Instance) (text : String) (r : Except Error Unit) (effect : List Applied)
    (next : Stage) : Instance :=
  match r with
  | .ok () => { s with stage := next, applied := s.applied ++ effect }
  | .error e => { s with stage := .failed (text ++ ": " ++ describe e) }

/-- Source: `publish`. -/
def publish (s : Instance) (codec : Codec) (own : Log Bytes) (r : Except Error Unit)
    (signal : Signal) (next : Stage) : Instance × Log Bytes :=
  match codec.toVec signal with
  | .error e => ({ s with stage := .failed ("encode signal: " ++ e) }, own)
  | .ok blob =>
    match r with
    | .ok () => ({ s with stage := next }, { own with entries := own.entries ++ [blob] })
    | .error e => ({ s with stage := .failed ("mailbox send: " ++ describe e) }, own)

/-- Source: `done`. -/
def finish (s : Instance) (own : Log Bytes) (r : Except Error Unit) (next : Stage) :
    Instance × Log Bytes :=
  match r with
  | .ok () => ({ s with stage := next }, { own with shut := true })
  | .error e => ({ s with stage := .failed ("mailbox done: " ++ describe e) }, own)

/-- Source: `recv_signal`; it does not return while the next signal may still come. -/
def recv (s : Instance) (codec : Codec) (peer : Log Bytes) (r : Except Error Unit)
    (next : Option Signal → Stage) : Option Instance :=
  match r with
  | .error e => some { s with stage := .failed ("mailbox recv: " ++ describe e) }
  | .ok () =>
    match peer.look s.cursor with
    | .item blob =>
      match codec.fromSlice blob with
      | .ok signal => some { s with stage := next (some signal), cursor := s.cursor + 1 }
      | .error e =>
        some { s with stage := .failed ("decode signal: " ++ e), cursor := s.cursor + 1 }
    | .over => some { s with stage := next none }
    | _ => none

/-- A read of the local candidate stream. Source: the loop of `collect_candidates`. -/
def read (s : Instance) (out : List IceCandidate) (n : Nat) (ended : Bool) : Option Instance :=
  if n ≤ 4 ∧ n ≤ s.stream.length then
    if ended then
      if n = s.stream.length then
        some { s with stage := .publishCandidates (out ++ s.stream), stream := [] }
      else none
    else if 0 < n then
      some { s with stage := .collect (out ++ s.stream.take n), stream := s.stream.drop n }
    else none
  else none

/-- What `handshake_answerer` does with its first signal. -/
def expectOffer (codec : Codec) : Option Signal → Stage
  | some (.offer sdp) => .setRemoteOffer sdp
  | other => .failed ("expected offer, got " ++ codec.debug other)

/-- What `consume_signaling` does with a signal. -/
def consumed : Option Signal → Stage
  | none => .waitConnected
  | some (.answer sdp) => .setRemoteAnswer sdp
  | some (.offer _) => .failed "unexpected second offer"
  | some (.candidate candidate sdpMid sdpMlineIndex) =>
    .addCandidate { candidate, sdpMid, sdpMlineIndex }
  | some .endOfCandidates => .consume

/-- The call at which the instance stands returns. Source: `handshake_offerer`,
`handshake_answerer`, `publish_candidates` and `consume_signaling`. -/
def step (p : Peers) (role : Role) (own peer : Log Bytes) (s : Instance) (e : Event) :
    Option (Instance × Log Bytes) :=
  match s.stage, e with
  | .createDataChannel, .call r => some (s.called "create-data-channel" r [] .createOffer, own)
  | .createOffer, .call r =>
    some (s.called "create-offer" r [] (.setLocalDescription (.offer p.offer)), own)
  | .recvOffer, .session r => (s.recv p.codec peer r (expectOffer p.codec)).map (·, own)
  | .setRemoteOffer sdp, .call r =>
    some (s.called "set-remote-description offer" r [.offer sdp] .createAnswer, own)
  | .createAnswer, .call r =>
    some (s.called "create-answer" r [] (.setLocalDescription (.answer p.answer)), own)
  | .setLocalDescription description, .call r =>
    some (s.called "set-local-description" r [] (.publishDescription description), own)
  | .publishDescription description, .session r =>
    some (s.publish p.codec own r description (.collect []))
  | .collect out, .read n ended => (s.read out n ended).map (·, own)
  | .publishCandidates (c :: rest), .session r =>
    some (s.publish p.codec own r (.ofCandidate c) (.publishCandidates rest))
  | .publishCandidates [], .session r => some (s.publish p.codec own r .endOfCandidates .done)
  | .done, .session r => some (s.finish own r .consume)
  | .consume, .session r => (s.recv p.codec peer r consumed).map (·, own)
  | .setRemoteAnswer sdp, .call r =>
    some (s.called "set-remote-description answer" r [.answer sdp] .consume, own)
  | .addCandidate c, .call r =>
    some (s.called "add-ice-candidate" r [.candidate c] .consume, own)
  | .waitConnected, .call r =>
    some (s.called "wait-connected" r []
      (match role with
      | .offerer => .finished
      | .answerer => .firstIncoming), own)
  | .firstIncoming, .incoming found =>
    some ({ s with stage := if found then .finished else .failed "no incoming data channel" }, own)
  | _, _ => none

end Instance

/-! ## The two instances -/

/-- The two instances with their mailboxes. -/
structure Handshake where
  inst : Role → Instance
  box : Role → Log Bytes

namespace Handshake

/-- Two instances before their first call, and two empty mailboxes. -/
def start (p : Peers) : Handshake := { inst := Instance.start p, box := fun _ => ⟨[], false⟩ }

/-- The call of one of the two returns. -/
def step (p : Peers) (s : Handshake) (a : Role × Event) : Option Handshake :=
  ((s.inst a.1).step p a.1 (s.box a.1) (s.box a.1.peer) a.2).map fun q =>
    { inst := Function.update s.inst a.1 q.1, box := Function.update s.box a.1 q.2 }

end Handshake

/-! ## What an instance has published, and what it has read -/

/-- What an instance publishes first. -/
def Peers.description (p : Peers) : Role → Signal
  | .offerer => .offer p.offer
  | .answerer => .answer p.answer

/-- What an instance publishes. -/
def Peers.script (p : Peers) (role : Role) : List Signal :=
  p.description role :: ((p.candidates role).map .ofCandidate ++ [.endOfCandidates])

/-- What an instance is to apply: its peer's description, and then its peer's candidates. -/
def Peers.expected (p : Peers) : Role → List Applied
  | .offerer => .answer p.answer :: (p.candidates .answerer).map .candidate
  | .answerer => .offer p.offer :: (p.candidates .offerer).map .candidate

/-- The number of signals that an instance reads before `consume_signaling`. -/
def first : Role → Nat
  | .offerer => 0
  | .answerer => 1

/-- The log holds these signals. -/
structure Holds (codec : Codec) (log : Log Bytes) (signals : List Signal) (shut : Bool) :
    Prop where
  entries : log.entries.map codec.fromSlice = signals.map .ok
  shut : log.shut = shut

/-- What an instance at a stage has published, and where the rest of its candidates is. -/
def Posts (p : Peers) (role : Role) (stream : List IceCandidate) (log : Log Bytes) : Stage → Prop
  | .createDataChannel | .createOffer | .recvOffer | .setRemoteOffer _ | .createAnswer =>
    Holds p.codec log [] false ∧ stream = p.candidates role
  | .setLocalDescription description | .publishDescription description =>
    Holds p.codec log [] false ∧ stream = p.candidates role ∧ description = p.description role
  | .collect out =>
    Holds p.codec log [p.description role] false ∧ out ++ stream = p.candidates role
  | .publishCandidates rest => ∃ sent, sent ++ rest = p.candidates role ∧
    Holds p.codec log (p.description role :: sent.map .ofCandidate) false
  | .done => Holds p.codec log (p.script role) false
  | .consume | .setRemoteAnswer _ | .addCandidate _ | .waitConnected | .firstIncoming
  | .finished => Holds p.codec log (p.script role) true
  | .failed _ => False

/-- What the instance is about to apply. -/
def Stage.pending : Stage → List Applied
  | .setRemoteOffer sdp => [.offer sdp]
  | .setRemoteAnswer sdp => [.answer sdp]
  | .addCandidate c => [.candidate c]
  | _ => []

/-- How many signals an instance at a stage has read, of as many as its peer publishes. -/
def Stage.Reads (role : Role) (total cursor : Nat) : Stage → Prop
  | .createDataChannel | .createOffer => role = .offerer ∧ cursor = 0
  | .recvOffer => role = .answerer ∧ cursor = 0
  | .setRemoteOffer _ | .createAnswer => role = .answerer ∧ cursor = 1
  | .setLocalDescription _ | .publishDescription _ | .collect _ | .publishCandidates _ | .done =>
    cursor = first role
  | .consume | .setRemoteAnswer _ | .addCandidate _ => first role ≤ cursor ∧ cursor ≤ total
  | .waitConnected | .firstIncoming | .finished => cursor = total
  | .failed _ => False

namespace Instance

/-- What holds of an instance with its mailbox. -/
structure Inv (p : Peers) (role : Role) (own : Log Bytes) (s : Instance) : Prop where
  posts : Posts p role s.stream own s.stage
  reads : s.stage.Reads role (p.script role.peer).length s.cursor
  applied : s.applied ++ s.stage.pending =
    ((p.script role.peer).take s.cursor).filterMap Signal.effect

/-- An upper bound on the steps that an instance still takes. -/
def work (p : Peers) (role : Role) (s : Instance) : Nat :=
  2 * ((p.script role.peer).length - s.cursor) +
    match s.stage with
    | .createDataChannel | .setRemoteOffer _ => 10 + 2 * s.stream.length
    | .createOffer | .recvOffer | .createAnswer => 9 + 2 * s.stream.length
    | .setLocalDescription _ => 8 + 2 * s.stream.length
    | .publishDescription _ => 7 + 2 * s.stream.length
    | .collect out => 6 + out.length + 2 * s.stream.length
    | .publishCandidates rest => 5 + rest.length
    | .done | .setRemoteAnswer _ | .addCandidate _ => 4
    | .consume => 3
    | .waitConnected => 2
    | .firstIncoming => 1
    | .finished | .failed _ => 0

end Instance

section
variable {p : Peers} {role : Role} {stream : List IceCandidate} {log own : Log Bytes}
  {stage : Stage} {signals : List Signal} {signal : Signal} {shut : Bool}

/-! ## Mailboxes -/

theorem Holds.append (h : Holds p.codec log signals false) {blob : Bytes}
    (hb : p.codec.fromSlice blob = .ok signal) :
    Holds p.codec { log with entries := log.entries ++ [blob] } (signals ++ [signal]) false where
  entries := by simp only [List.map_append, h.entries, List.map_cons, List.map_nil, hb]
  shut := h.shut

theorem Holds.finish (h : Holds p.codec log signals shut) :
    Holds p.codec { log with shut := true } signals true where
  entries := h.entries
  shut := rfl

/-- An entry of the log is the signal of its number. -/
theorem Holds.item (h : Holds p.codec log signals shut) {n : Nat} {blob : Bytes}
    (hl : log.look n = .item blob) :
    ∃ signal, p.codec.fromSlice blob = .ok signal ∧ signals[n]? = some signal := by
  have hx := SealedLog.Log.look_item_iff.1 hl
  have hmap := congrArg (·[n]?) h.entries
  simp only [List.getElem?_map, hx, Option.map_some] at hmap
  obtain ⟨signal, hsignal, heq⟩ := Option.map_eq_some_iff.1 hmap.symm
  exact ⟨signal, heq.symm, hsignal⟩

theorem Holds.length (h : Holds p.codec log signals shut) :
    log.entries.length = signals.length := by
  have hlen := congrArg List.length h.entries
  simpa only [List.length_map] using hlen

/-- A mailbox holds the script of its instance as far as it goes, and is finished at its end. -/
theorem Posts.view (h : Posts p role stream log stage) :
    ∃ signals shut, Holds p.codec log signals shut ∧ signals <+: p.script role ∧
      (shut = true → signals = p.script role) := by
  cases stage with
  | createDataChannel | createOffer | recvOffer | setRemoteOffer | createAnswer
  | setLocalDescription | publishDescription =>
    exact ⟨_, _, h.1, List.nil_prefix, nofun⟩
  | collect => exact ⟨_, _, h.1, List.prefix_append [_] _, nofun⟩
  | publishCandidates rest =>
    obtain ⟨sent, hsent, hh⟩ := h
    refine ⟨_, _, hh, ?_, nofun⟩
    rw [Peers.script, ← hsent, List.map_append, List.append_assoc]
    exact List.prefix_append (p.description role :: sent.map .ofCandidate) _
  | done => exact ⟨_, _, h, List.prefix_rfl, nofun⟩
  | consume | setRemoteAnswer | addCandidate | waitConnected | firstIncoming | finished =>
    exact ⟨_, _, h, List.prefix_rfl, fun _ => rfl⟩
  | failed => exact h.elim

/-- A signal that is read from a mailbox is that of the script. -/
theorem Posts.item (h : Posts p role stream log stage) {n : Nat} {blob : Bytes}
    (hl : log.look n = .item blob) :
    ∃ signal, p.codec.fromSlice blob = .ok signal ∧ (p.script role)[n]? = some signal := by
  obtain ⟨signals, shut, hh, ⟨rest, hrest⟩, -⟩ := h.view
  obtain ⟨signal, hb, hx⟩ := hh.item hl
  refine ⟨signal, hb, ?_⟩
  rw [← hrest]
  exact (List.getElem?_append_left (List.getElem?_eq_some_iff.1 hx).1).trans hx

/-- A reader that is told that a mailbox is over has read the script. -/
theorem Posts.over (h : Posts p role stream log stage) {n : Nat} (hl : log.look n = .over) :
    (p.script role).length ≤ n := by
  obtain ⟨signals, shut, hh, -, hall⟩ := h.view
  obtain ⟨hle, hshut⟩ := SealedLog.Log.look_over_iff.1 hl
  rw [hh.length, hall (hh.shut.symm.trans hshut)] at hle
  exact hle

/-! ## The script -/

/-- Only the answerer's peer publishes an offer, as its first signal. -/
theorem script_offer {n : Nat} {sdp : String} (h : (p.script role.peer)[n]? = some (.offer sdp)) :
    role = .answerer ∧ n = 0 ∧ sdp = p.offer := by
  cases n with
  | zero =>
    cases role with
    | offerer => cases h
    | answerer => cases h; exact ⟨rfl, rfl, rfl⟩
  | succ n =>
    simp only [Peers.script, List.getElem?_cons_succ] at h
    have hmem := List.mem_of_getElem? h
    simp [Signal.ofCandidate] at hmem

/-- The answerer's peer publishes its offer first. -/
theorem script_zero {signal : Signal} (h : (p.script Role.answerer.peer)[0]? = some signal) :
    signal = .offer p.offer := by
  cases h
  rfl

/-- What is applied for the first signals grows by what the next one has. -/
theorem effects_succ {script : List Signal} {n : Nat} (h : script[n]? = some signal) :
    (script.take (n + 1)).filterMap Signal.effect =
      (script.take n).filterMap Signal.effect ++ signal.effect.toList := by
  rw [List.take_add_one, h, List.filterMap_append]
  cases he : signal.effect with
  | none => simp [he]
  | some x => simp [he]

theorem script_effects : (p.script role.peer).filterMap Signal.effect = p.expected role := by
  have hcands : ∀ cs : List IceCandidate,
      (cs.map Signal.ofCandidate).filterMap Signal.effect = cs.map .candidate := by
    intro cs
    rw [List.filterMap_map]
    exact congrFun List.filterMap_eq_map' cs
  cases role with
  | offerer | answerer =>
    simp only [Peers.script, Peers.expected, Role.peer, Peers.description, List.filterMap_cons,
      List.filterMap_append, hcands]
    simp [Signal.effect]

end

/-! ## A step of an instance -/

namespace Instance

section
variable {p : Peers} {role : Role} {s s' : Instance} {own own' peer : Log Bytes}

/-- The step to `s'` keeps the invariant and comes nearer to the end. -/
def Advances (p : Peers) (role : Role) (s s' : Instance) (own' : Log Bytes) : Prop :=
  s'.Inv p role own' ∧ s'.work p role < s.work p role

/-- A peer-connection call returns. -/
theorem Inv.step_call (h : s.Inv p role own)
    (hs : s.step p role own peer (.call (.ok ())) = some (s', own')) :
    Advances p role s s' own' := by
  obtain ⟨hposts, hreads, happ⟩ := h
  cases hst : s.stage with
  | createDataChannel | setRemoteOffer | setLocalDescription | setRemoteAnswer | addCandidate =>
    simp only [step, hst, called, Option.some.injEq, Prod.mk.injEq] at hs
    obtain ⟨rfl, rfl⟩ := hs
    rw [hst] at hposts hreads happ
    exact ⟨⟨hposts, hreads, by simpa [Stage.pending] using happ⟩, by simp [work, hst]⟩
  | createOffer | createAnswer =>
    simp only [step, hst, called, Option.some.injEq, Prod.mk.injEq] at hs
    obtain ⟨rfl, rfl⟩ := hs
    rw [hst] at hposts hreads happ
    obtain ⟨rfl, hcursor⟩ := hreads
    refine ⟨⟨⟨hposts.1, hposts.2, rfl⟩, hcursor, by simpa [Stage.pending] using happ⟩, ?_⟩
    simp [work, hst]
  | waitConnected =>
    simp only [step, hst, called, Option.some.injEq, Prod.mk.injEq] at hs
    obtain ⟨rfl, rfl⟩ := hs
    rw [hst] at hposts hreads happ
    cases role with
    | offerer | answerer =>
      exact ⟨⟨hposts, hreads, by simpa [Stage.pending] using happ⟩, by simp [work, hst]⟩
  | publishCandidates rest => cases rest <;> simp [step, hst] at hs
  | recvOffer | publishDescription | collect | done | consume | firstIncoming | finished
  | failed => simp [step, hst] at hs

/-- The candidate stream delivers candidates, or ends. -/
theorem Inv.step_read (h : s.Inv p role own) {n : Nat} {ended : Bool}
    (hs : s.step p role own peer (.read n ended) = some (s', own')) :
    Advances p role s s' own' := by
  obtain ⟨hposts, hreads, happ⟩ := h
  cases hst : s.stage with
  | collect out =>
    rw [hst] at hposts hreads happ
    obtain ⟨hholds, hall⟩ := hposts
    simp only [step, hst, read, Option.map_eq_some_iff] at hs
    obtain ⟨t, ht, heq⟩ := hs
    split at ht
    · next hn =>
      split at ht
      · obtain ⟨-, hsome⟩ := Option.ite_none_right_eq_some.1 ht
        cases hsome
        cases heq
        refine ⟨⟨⟨[], hall, hholds⟩, hreads, happ⟩, ?_⟩
        simp only [work, hst, List.length_append]
        omega
      · obtain ⟨hpos, hsome⟩ := Option.ite_none_right_eq_some.1 ht
        cases hsome
        cases heq
        refine ⟨⟨⟨hholds, ?_⟩, hreads, happ⟩, ?_⟩
        · simp only [List.append_assoc, List.take_append_drop, hall]
        · simp only [work, hst, List.length_append, List.length_take, List.length_drop]
          omega
    · cases ht
  | publishCandidates rest => cases rest <;> simp [step, hst] at hs
  | createDataChannel | createOffer | recvOffer | setRemoteOffer | createAnswer
  | setLocalDescription | publishDescription | done | consume | setRemoteAnswer | addCandidate
  | waitConnected | firstIncoming | finished | failed => simp [step, hst] at hs

/-- The incoming channel arrives. -/
theorem Inv.step_incoming (h : s.Inv p role own)
    (hs : s.step p role own peer (.incoming true) = some (s', own')) :
    Advances p role s s' own' := by
  obtain ⟨hposts, hreads, happ⟩ := h
  cases hst : s.stage with
  | firstIncoming =>
    simp only [step, hst, if_true, Option.some.injEq, Prod.mk.injEq] at hs
    obtain ⟨rfl, rfl⟩ := hs
    rw [hst] at hposts hreads happ
    exact ⟨⟨hposts, hreads, happ⟩, by simp [work, hst]⟩
  | publishCandidates rest => cases rest <;> simp [step, hst] at hs
  | createDataChannel | createOffer | recvOffer | setRemoteOffer | createAnswer
  | setLocalDescription | publishDescription | collect | done | consume | setRemoteAnswer
  | addCandidate | waitConnected | finished | failed => simp [step, hst] at hs

/-- A signal that its codec keeps is published. -/
theorem publish_ok (s : Instance) (own : Log Bytes) (next : Stage) {signal : Signal}
    (hc : p.codec.Lossless signal) :
    ∃ blob, p.codec.fromSlice blob = .ok signal ∧
      s.publish p.codec own (.ok ()) signal next =
        ({ s with stage := next }, { own with entries := own.entries ++ [blob] }) := by
  obtain ⟨blob, hto, hfrom⟩ := hc
  refine ⟨blob, hfrom, ?_⟩
  simp only [publish, hto]

/-- A `recv` returns a signal of the peer's script or, behind it, the end. -/
theorem recv_ok {next : Option Signal → Stage} {t : Instance} {stream' : List IceCandidate}
    {stage' : Stage} (hpeer : Posts p role.peer stream' peer stage')
    (hs : s.recv p.codec peer (.ok ()) next = some t) :
    (∃ signal, (p.script role.peer)[s.cursor]? = some signal ∧
      t = { s with stage := next (some signal), cursor := s.cursor + 1 }) ∨
    (p.script role.peer).length ≤ s.cursor ∧ t = { s with stage := next none } := by
  unfold recv at hs
  cases hl : peer.look s.cursor with
  | item blob =>
    obtain ⟨signal, hb, hx⟩ := hpeer.item hl
    simp only [hl, hb, Option.some.injEq] at hs
    exact .inl ⟨signal, hx, hs.symm⟩
  | «over» =>
    simp only [hl, Option.some.injEq] at hs
    exact .inr ⟨hpeer.over hl, hs.symm⟩
  | appended | full | refused | length | pending => simp [hl] at hs

/-- A mailbox call returns. -/
theorem Inv.step_session (h : s.Inv p role own) {stream' : List IceCandidate} {stage' : Stage}
    (hcodec : ∀ signal ∈ p.script role, p.codec.Lossless signal)
    (hpeer : Posts p role.peer stream' peer stage')
    (hs : s.step p role own peer (.session (.ok ())) = some (s', own')) :
    Advances p role s s' own' := by
  obtain ⟨hposts, hreads, happ⟩ := h
  cases hst : s.stage with
  | recvOffer =>
    rw [hst] at hposts hreads happ
    obtain ⟨rfl, hcursor⟩ := hreads
    simp only [step, hst, Option.map_eq_some_iff] at hs
    obtain ⟨t, ht, heq⟩ := hs
    cases heq
    obtain ⟨signal, hx, rfl⟩ | ⟨hlen, -⟩ := recv_ok hpeer ht
    · have happ' := effects_succ hx
      rw [hcursor] at hx
      cases script_zero hx
      refine ⟨⟨hposts, ⟨rfl, by rw [hcursor]⟩, ?_⟩, ?_⟩
      · rw [happ', ← happ]
        simp [expectOffer, Stage.pending, Signal.effect]
      · have hpos := (List.getElem?_eq_some_iff.1 hx).1
        simp only [work, hst, expectOffer, hcursor]
        omega
    · simp [hcursor, Peers.script] at hlen
  | publishDescription description =>
    rw [hst] at hposts hreads happ
    obtain ⟨hholds, hstream, rfl⟩ := hposts
    obtain ⟨blob, hb, hp⟩ := publish_ok s own (.collect [])
      (hcodec (p.description role) (by simp [Peers.script]))
    simp only [step, hst, hp, Option.some.injEq, Prod.mk.injEq] at hs
    obtain ⟨rfl, rfl⟩ := hs
    refine ⟨⟨⟨hholds.append hb, hstream⟩, hreads, happ⟩, ?_⟩
    simp [work, hst]
  | publishCandidates rest =>
    rw [hst] at hposts hreads happ
    obtain ⟨sent, hall, hholds⟩ := hposts
    cases rest with
    | nil =>
      obtain ⟨blob, hb, hp⟩ := publish_ok s own .done
        (hcodec .endOfCandidates (by simp [Peers.script]))
      simp only [step, hst, hp, Option.some.injEq, Prod.mk.injEq] at hs
      obtain ⟨rfl, rfl⟩ := hs
      refine ⟨⟨?_, hreads, happ⟩, by simp [work, hst]⟩
      have hend := hholds.append hb
      rw [List.append_nil] at hall
      rwa [hall] at hend
    | cons c rest =>
      obtain ⟨blob, hb, hp⟩ := publish_ok s own (.publishCandidates rest)
        (hcodec (.ofCandidate c) (by simp [Peers.script, ← hall]))
      simp only [step, hst, hp, Option.some.injEq, Prod.mk.injEq] at hs
      obtain ⟨rfl, rfl⟩ := hs
      refine ⟨⟨⟨sent ++ [c], by simpa using hall, ?_⟩, hreads, happ⟩, by simp [work, hst]⟩
      have hnext := hholds.append hb
      simpa only [List.map_append, List.map_cons, List.map_nil, List.cons_append] using hnext
  | done =>
    rw [hst] at hposts hreads happ
    simp only [step, hst, finish, Option.some.injEq, Prod.mk.injEq] at hs
    obtain ⟨rfl, rfl⟩ := hs
    refine ⟨⟨hposts.finish, ⟨Nat.le_of_eq hreads.symm, ?_⟩, happ⟩, by simp [work, hst]⟩
    rw [hreads]
    cases role <;> simp [first, Peers.script]
  | consume =>
    rw [hst] at hposts hreads happ
    obtain ⟨hfirst, hle⟩ := hreads
    simp only [step, hst, Option.map_eq_some_iff] at hs
    obtain ⟨t, ht, heq⟩ := hs
    cases heq
    obtain ⟨signal, hx, rfl⟩ | ⟨hlen, rfl⟩ := recv_ok hpeer ht
    · have happ' := effects_succ hx
      have hlt := (List.getElem?_eq_some_iff.1 hx).1
      rw [← happ] at happ'
      cases signal with
      | offer sdp =>
        -- the answerer has read the only offer
        obtain ⟨rfl, hzero, -⟩ := script_offer hx
        simp [hzero, first] at hfirst
      | answer sdp | candidate c mid index | endOfCandidates =>
        refine ⟨⟨hposts, ⟨Nat.le_succ_of_le hfirst, hlt⟩, ?_⟩, ?_⟩
        · rw [happ']
          simp [consumed, Stage.pending, Signal.effect]
        · simp only [work, hst, consumed]
          omega
    · refine ⟨⟨hposts, Nat.le_antisymm hle hlen, happ⟩, ?_⟩
      simp only [work, hst, consumed]
      omega
  | createDataChannel | createOffer | setRemoteOffer | createAnswer | setLocalDescription | collect
  | setRemoteAnswer | addCandidate | waitConnected | firstIncoming | finished | failed =>
    simp [step, hst] at hs

/-- A step that succeeds keeps the invariant and comes nearer to the end. -/
theorem Inv.step (h : s.Inv p role own) {e : Event} {stream' : List IceCandidate} {stage' : Stage}
    (hcodec : ∀ signal ∈ p.script role, p.codec.Lossless signal)
    (hpeer : Posts p role.peer stream' peer stage') (he : e.Succeeds)
    (hs : s.step p role own peer e = some (s', own')) : Advances p role s s' own' := by
  cases e with
  | call r => cases he; exact h.step_call hs
  | read n ended => exact h.step_read hs
  | session r => cases he; exact h.step_session hcodec hpeer hs
  | incoming found => cases he; exact h.step_incoming hs

end

end Instance

/-! ## Neither instance is stuck -/

/-- The instance is behind `consume_signaling`. -/
def Stage.isConsumed : Stage → Bool
  | .waitConnected | .firstIncoming | .finished => true
  | _ => false

namespace Instance

section
variable {p : Peers} {role : Role} {s : Instance} {own peer : Log Bytes}

/-- The instance waits for its peer's mailbox. -/
def Waits (peer : Log Bytes) (s : Instance) : Prop :=
  (s.stage = .recvOffer ∨ s.stage = .consume) ∧ peer.look s.cursor = .pending

/-- A `recv` returns when it need not wait. -/
theorem recv_enabled (codec : Codec) (next : Option Signal → Stage)
    (h : peer.look s.cursor ≠ .pending) :
    ∃ t, s.recv codec peer (.ok ()) next = some t := by
  unfold recv
  obtain ⟨blob, hl⟩ | hl := SealedLog.Log.look_cases h
  · simp only [hl]
    cases codec.fromSlice blob with
    | ok signal | error e => exact ⟨_, rfl⟩
  · simp only [hl]
    exact ⟨_, rfl⟩

/-- An instance that does not wait for its peer's mailbox can go on. -/
theorem Inv.enabled (h : s.Inv p role own) (hnot : s.stage.isConsumed = false)
    (hwaits : ¬ s.Waits peer) :
    ∃ e, Event.Succeeds e ∧ (s.step p role own peer e).isSome := by
  cases hst : s.stage with
  | createDataChannel | createOffer | setRemoteOffer | createAnswer | setLocalDescription
  | setRemoteAnswer | addCandidate =>
    exact ⟨.call (.ok ()), rfl, by simp only [Instance.step, hst, Option.isSome_some]⟩
  | publishDescription | done =>
    exact ⟨.session (.ok ()), rfl, by simp only [Instance.step, hst, Option.isSome_some]⟩
  | publishCandidates rest =>
    cases rest with
    | nil | cons =>
      exact ⟨.session (.ok ()), rfl, by simp only [Instance.step, hst, Option.isSome_some]⟩
  | recvOffer =>
    obtain ⟨t, ht⟩ := recv_enabled p.codec (expectOffer p.codec)
      fun hl => hwaits ⟨.inl hst, hl⟩
    refine ⟨.session (.ok ()), rfl, ?_⟩
    simp only [Instance.step, hst, ht, Option.map_some, Option.isSome_some]
  | consume =>
    obtain ⟨t, ht⟩ := recv_enabled p.codec consumed fun hl => hwaits ⟨.inr hst, hl⟩
    refine ⟨.session (.ok ()), rfl, ?_⟩
    simp only [Instance.step, hst, ht, Option.map_some, Option.isSome_some]
  | collect out =>
    by_cases hlen : s.stream.length ≤ 4
    · refine ⟨.read s.stream.length true, trivial, ?_⟩
      simp only [Instance.step, hst, read, hlen, Nat.le_refl, and_self, if_true, Option.map_some,
        Option.isSome_some]
    · refine ⟨.read 4 false, trivial, ?_⟩
      have hfour : 4 ≤ s.stream.length := Nat.le_of_lt (Nat.lt_of_not_le hlen)
      simp [Instance.step, hst, read, hfour]
  | waitConnected | firstIncoming | finished => rw [hst] at hnot; cases hnot
  | failed => exact absurd h.posts (by rw [hst]; exact id)

/-- An instance that waits for a mailbox that is not finished has finished its own, or is the
answerer before the offer. -/
theorem Inv.waits (h : s.Inv p role own) (hw : s.Waits peer) :
    own.shut = true ∨ s.stage = .recvOffer ∧ role = .answerer := by
  obtain ⟨hst | hst, -⟩ := hw
  · have hreads := h.reads
    rw [hst] at hreads
    exact .inr ⟨hst, hreads.1⟩
  · have hposts := h.posts
    rw [hst] at hposts
    exact .inl hposts.shut

/-- An instance that has read all its peer's signals has finished its own mailbox. -/
theorem Inv.shut_of_consumed (h : s.Inv p role own) (hc : s.stage.isConsumed = true) :
    own.shut = true := by
  have hposts := h.posts
  cases hst : s.stage with
  | waitConnected | firstIncoming | finished => rw [hst] at hposts; exact hposts.shut
  | createDataChannel | createOffer | recvOffer | setRemoteOffer | createAnswer
  | setLocalDescription | publishDescription | collect | publishCandidates | done | consume
  | setRemoteAnswer | addCandidate | failed => rw [hst] at hc; cases hc

/-- An instance has applied a part of what it is to apply, in order, and in the end all of it. -/
theorem Inv.inOrder (h : s.Inv p role own) :
    s.applied <+: p.expected role ∧
      (s.stage.isConsumed = true → s.applied = p.expected role) := by
  have happ := h.applied
  constructor
  · rw [← script_effects]
    refine List.IsPrefix.trans ⟨s.stage.pending, happ⟩ ?_
    exact (List.take_prefix _ _).filterMap _
  · intro hc
    have hreads := h.reads
    cases hst : s.stage with
    | waitConnected | firstIncoming | finished =>
      rw [hst] at hreads happ
      rw [hreads, List.take_length, script_effects] at happ
      simpa [Stage.pending] using happ
    | createDataChannel | createOffer | recvOffer | setRemoteOffer | createAnswer
    | setLocalDescription | publishDescription | collect | publishCandidates | done | consume
    | setRemoteAnswer | addCandidate | failed => rw [hst] at hc; cases hc

end

end Instance

namespace Handshake

section
variable {p : Peers} {s s' : Handshake} {a : Role × Event}

/-- Each instance with its mailbox is as it should be. -/
def Inv (p : Peers) (s : Handshake) : Prop := ∀ role, (s.inst role).Inv p role (s.box role)

/-- An upper bound on the steps that the two still take. -/
def work (p : Peers) (s : Handshake) : Nat :=
  (s.inst .offerer).work p .offerer + (s.inst .answerer).work p .answerer

theorem inv_start (p : Peers) : (start p).Inv p := by
  intro role
  cases role with
  | offerer | answerer => exact ⟨⟨⟨rfl, rfl⟩, rfl⟩, ⟨rfl, rfl⟩, rfl⟩

/-- A step of one instance leaves the other and its mailbox alone. -/
theorem Inv.step (h : s.Inv p)
    (hcodec : ∀ role, ∀ signal ∈ p.script role, p.codec.Lossless signal) (he : a.2.Succeeds)
    (hs : s.step p a = some s') : s'.Inv p ∧ s'.work p < s.work p := by
  obtain ⟨role, e⟩ := a
  obtain ⟨q, hq, rfl⟩ := Option.map_eq_some_iff.1 hs
  obtain ⟨hinv, hwork⟩ := (h role).step (hcodec role) (h role.peer).posts he hq
  refine ⟨fun role' => ?_, ?_⟩
  · by_cases hr : role' = role
    · subst hr
      simpa only [Function.update_self] using hinv
    · simpa only [Function.update_of_ne hr] using h role'
  · cases role with
    | offerer => simpa [work] using hwork
    | answerer => simpa [work] using hwork

/-- Unless both have consumed the signaling, one that has not can go on. -/
theorem Inv.not_stuck (h : s.Inv p) (hnot : ∃ role, (s.inst role).stage.isConsumed = false) :
    ∃ a s', a.2.Succeeds ∧ (s.inst a.1).stage.isConsumed = false ∧ s.step p a = some s' := by
  have hgo : ∀ role, (s.inst role).stage.isConsumed = false →
      ¬ (s.inst role).Waits (s.box role.peer) →
      ∃ a s', a.2.Succeeds ∧ (s.inst a.1).stage.isConsumed = false ∧ s.step p a = some s' := by
    intro role hn hw
    obtain ⟨e, he, hsome⟩ := (h role).enabled hn hw
    obtain ⟨q, hq⟩ := Option.isSome_iff_exists.1 hsome
    exact ⟨(role, e), _, he, hn, Option.map_eq_some_iff.2 ⟨q, hq, rfl⟩⟩
  by_contra hstuck
  have hwaits : ∀ role, (s.inst role).stage.isConsumed = false →
      (s.inst role).Waits (s.box role.peer) :=
    fun role hn => not_not.1 fun hw => hstuck (hgo role hn hw)
  obtain ⟨role, hn⟩ := hnot
  have hopen := (SealedLog.Log.look_pending_iff.1 (hwaits role hn).2).2
  -- the peer's mailbox is not finished, so the peer waits as well: it is the answerer
  have hn' : (s.inst role.peer).stage.isConsumed = false := by
    cases hc : (s.inst role.peer).stage.isConsumed with
    | false => rfl
    | true => rw [(h role.peer).shut_of_consumed hc] at hopen; cases hopen
  have hw' := hwaits role.peer hn'
  obtain hshut | ⟨-, hrole'⟩ := (h role.peer).waits hw'
  · rw [hshut] at hopen
    cases hopen
  have hrole : role = .offerer := by rw [← Role.peer_peer role, hrole']; rfl
  -- and this one is the offerer, which waits only when its own mailbox is finished
  obtain hshut | ⟨-, hrole⟩ := (h role).waits (hwaits role hn)
  · have hopen' := (SealedLog.Log.look_pending_iff.1 hw'.2).2
    rw [Role.peer_peer, hshut] at hopen'
    cases hopen'
  · subst hrole
    cases hrole'

end

end Handshake

/-- The two handshakes, in any order of their steps, where every call succeeds and every candidate
stream ends: unless both instances have consumed the signaling, one that has not can go on, and no
run is longer than a bound by the numbers of candidates; neither fails, on an unexpected signal or
otherwise; each publishes its script; and each applies its peer's description and then its peer's
candidates, in the order in which they are published, each once. -/
theorem handshake_in_order (p : Peers)
    (hcodec : ∀ role, ∀ signal ∈ p.script role, p.codec.Lossless signal)
    {as : List (Role × Event)} {s : Handshake}
    (h : Runs.run (Handshake.step p) (.start p) as = some s) (hok : ∀ a ∈ as, a.2.Succeeds) :
    ((∃ role, (s.inst role).stage.isConsumed = false) →
      ∃ a s', a.2.Succeeds ∧ (s.inst a.1).stage.isConsumed = false ∧ s.step p a = some s') ∧
    as.length ≤ 4 * (p.candidates .offerer).length + 4 * (p.candidates .answerer).length + 27 ∧
    ∀ role, (∀ detail, (s.inst role).stage ≠ .failed detail) ∧
      (∃ signals, (s.box role).entries.map p.codec.fromSlice = signals.map .ok ∧
        signals <+: p.script role) ∧
      (s.inst role).applied <+: p.expected role ∧
      ((s.inst role).stage.isConsumed = true → (s.inst role).applied = p.expected role) := by
  obtain ⟨hinv, hlen⟩ := Runs.descends (Handshake.Inv p) (fun a => a.2.Succeeds)
    (Handshake.work p) (fun _ _ _ hi he hs => Handshake.Inv.step hi hcodec he hs)
    (Handshake.inv_start p) hok h
  refine ⟨hinv.not_stuck, ?_, fun role => ⟨fun detail hst => ?_, ?_, (hinv role).inOrder⟩⟩
  · have hwork : (Handshake.start p).work p =
        4 * (p.candidates .offerer).length + 4 * (p.candidates .answerer).length + 27 := by
      simp only [Handshake.work, Handshake.start, Instance.start, Instance.work, Peers.script,
        Role.peer, List.length_cons, List.length_append, List.length_map, List.length_nil]
      omega
    omega
  · have hposts := (hinv role).posts
    rw [hst] at hposts
    exact hposts
  · obtain ⟨signals, shut, hh, hpre, -⟩ := (hinv role).posts.view
    exact ⟨signals, hh.entries, hpre⟩

/-- The JSON text of a signal whose strings need no escape. -/
def Signal.json : Signal → String
  | .offer sdp => "\x7b\"type\":\"offer\",\"sdp\":\"" ++ sdp ++ "\"\x7d"
  | .answer sdp => "\x7b\"type\":\"answer\",\"sdp\":\"" ++ sdp ++ "\"\x7d"
  | .candidate c mid index =>
    "\x7b\"type\":\"candidate\",\"candidate\":\"" ++ c ++ "\",\"sdp_mid\":" ++
      (mid.map fun m => "\"" ++ m ++ "\"").getD "null" ++ ",\"sdp_mline_index\":" ++
      (index.map toString).getD "null" ++ "\x7d"
  | .endOfCandidates => "\x7b\"type\":\"end-of-candidates\"\x7d"

/-- A codec of ASCII signals that need no escape, which decodes those of a list. -/
def plainCodec (signals : List Signal) : Codec where
  toVec signal := .ok (signal.json.toList.map fun c => UInt8.ofNat c.toNat)
  fromSlice blob :=
    match signals.find? fun signal =>
      (signal.json.toList.map fun c => UInt8.ofNat c.toNat) == blob with
    | some signal => .ok signal
    | none => .error "expected value at line 1 column 1"
  debug _ := "None"

/-- An offerer with one candidate and an answerer with none. -/
def oneCandidate : Peers where
  codec := plainCodec [.offer "o", .candidate "c" (some "0") (some 0), .answer "a",
    .endOfCandidates]
  offer := "o"
  answer := "a"
  candidates
    | .offerer => [⟨"c", some "0", some 0⟩]
    | .answerer => []

/-- The offerer publishes all, then the answerer handshakes, and the offerer reads. -/
def oneCandidateRun : List (Role × Event) :=
  [.call (.ok ()), .call (.ok ()), .call (.ok ()), .session (.ok ()), .read 1 true,
    .session (.ok ()), .session (.ok ()), .session (.ok ())].map (Role.offerer, ·) ++
  [.session (.ok ()), .call (.ok ()), .call (.ok ()), .call (.ok ()), .session (.ok ()),
    .read 0 true, .session (.ok ()), .session (.ok ()), .session (.ok ()), .call (.ok ()),
    .session (.ok ()), .session (.ok ())].map (Role.answerer, ·) ++
  [.session (.ok ()), .call (.ok ()), .session (.ok ()), .session (.ok ())].map (Role.offerer, ·)

/-- Both instances have applied all when they have consumed the signaling. -/
theorem handshake_in_order_of_candidate :
    ∃ s, Runs.run (Handshake.step oneCandidate) (.start oneCandidate) oneCandidateRun = some s ∧
      (s.inst .offerer).applied = [.answer "a"] ∧
      (s.inst .answerer).applied = [.offer "o", .candidate ⟨"c", some "0", some 0⟩] := by
  have hcodec : ∀ role, ∀ signal ∈ oneCandidate.script role,
      oneCandidate.codec.Lossless signal := by
    intro role signal hsignal
    refine ⟨_, rfl, ?_⟩
    cases role with
    | offerer =>
      obtain rfl | rfl | rfl : signal = .offer "o" ∨ signal = .candidate "c" (some "0") (some 0) ∨
          signal = .endOfCandidates := by
        simpa [Peers.script, Peers.description, oneCandidate, Signal.ofCandidate] using hsignal
      all_goals rfl
    | answerer =>
      obtain rfl | rfl : signal = .answer "a" ∨ signal = .endOfCandidates := by
        simpa [Peers.script, Peers.description, oneCandidate] using hsignal
      all_goals rfl
  have hrun : ∃ s, Runs.run (Handshake.step oneCandidate) (.start oneCandidate) oneCandidateRun =
      some s ∧ ∀ role, (s.inst role).stage.isConsumed = true :=
    ⟨_, rfl, fun role => by cases role <;> rfl⟩
  obtain ⟨s, h, hdone⟩ := hrun
  obtain ⟨-, -, hrole⟩ := handshake_in_order oneCandidate hcodec h
    (by simp [oneCandidateRun, Event.Succeeds])
  exact ⟨s, h, (hrole .offerer).2.2.2 (hdone _), (hrole .answerer).2.2.2 (hdone _)⟩

end WebrtcDatachannels.Suite
