import WebrtcDatachannels.Lib.Decimal
import WebrtcDatachannels.Lib.Entries
import WebrtcDatachannels.Signaling.Caps
import WebrtcDatachannels.Signaling.Http

/-!
# The HTTP server

The router of `conformance/signaling/server/src/lib.rs` over the room store, with the sweeps that
`spawn` adds. A request whose path, query or body the extractors cannot read is refused before its
handler runs; a handler refuses its request by itself, or hands it to the store; a fetch answers
when its task returns. So every room of the store has a name that `valid_room` takes, no blob is
over `max_blob_bytes`, every response to a request that was read is one of the protocol's, and a
request that is answered with an error changed no mailbox (`server_wellFormed`).
-/

namespace WebrtcDatachannels.Signaling

/-- A request on one of the server's routes: the segments of its path, which are not there when they
are no text once decoded, the decoded parameters of its query, and its body. -/
inductive HttpRequest where
  | healthz
  | undecodable
  | publish (room role : String) (body : Bytes)
  | fetch (room role : String) (query : List (String × String))
  | markDone (room role : String) (body : Bytes)
  | deleteRoom (room : String)
deriving DecidableEq, Repr

/-- Source: `u64::from_str`, and `usize::from_str` on a 64-bit target. -/
def parseU64 (s : String) : Option Nat := Decimal.parse UInt64.size s

/-- Source: `FetchQuery`. -/
structure FetchQuery where
  seq : Option String
  wait : Option Nat

/-- A parameter of the query: one that comes twice and a `wait` that is no number are errors, and
the others are ignored. Source: `Deserialize` as `FetchQuery` derives it. -/
def FetchQuery.read (q : FetchQuery) (p : String × String) : Option FetchQuery :=
  if p.1 = "seq" then if q.seq.isSome then none else some { q with seq := some p.2 }
  else if p.1 = "wait" then
    if q.wait.isSome then none else (parseU64 p.2).map fun n => { q with wait := some n }
  else some q

/-- The query of a fetch. Source: the extractor `Query<FetchQuery>`. -/
def FetchQuery.extract (query : List (String × String)) : Option FetchQuery :=
  query.foldlM FetchQuery.read { seq := none, wait := none }

/-- What a request comes to: a response without the store, or a request to the store. The extractors
come first, and refuse with a text: `Path` segments that are no text, `Query` what does not
deserialize, `Bytes` a body over `bodyLimit`. Source: `healthz`, `publish`, `fetch`, `mark_done`,
`delete_room`. -/
def Config.handle (config : Config) (bodyLimit : Nat) (now : Instant) :
    HttpRequest → Except Response ServerAct
  | .healthz => .error (.plain 200)
  | .undecodable => .error (.plain 400)
  | .publish room role body =>
    if body.length > bodyLimit then .error (.plain 413)
    else (config.publish room role body).map fun role => .publish now room role body
  | .fetch room role query =>
    match FetchQuery.extract query with
    | none => .error (.plain 400)
    | some q =>
      (config.fetch room role (q.seq.bind parseU64) q.wait).map fun q =>
        .fetch now room q.1 q.2.1 q.2.2
  | .markDone room role body =>
    if body.length > bodyLimit then .error (.plain 413)
    else (checkPath room role).map fun role => .markDone now room role
  | .deleteRoom room =>
    if validRoom room then .ok (.delete room) else .error (.failure 400 "bad-room")

/-- The response to a request that the store has taken, unless its fetch goes on. -/
def Server.answer (s : Server) : ServerAct → Option Response
  | .publish now room role blob => some (s.rooms.publish now room role blob).1.response
  | .markDone .. | .delete _ => some (.plain 200)
  | .evictExpired _ | .fetch .. | .poll .. => none

/-- The response that a fetch gives when it returns. -/
def FetchTask.answer (t : FetchTask) : Option Response :=
  match t.stage with
  | .returned f => some f.response
  | _ => none

/-- The server with the responses it has given, oldest first. -/
structure App where
  server : Server
  responses : List Response

/-- What can happen: a request arrives, a fetch goes on, or the store is swept. -/
inductive AppAct where
  | request (now : Instant) (r : HttpRequest)
  | poll (k : Nat) (now : Instant)
  | sweep (now : Instant)

namespace App

/-- A server with a fresh store. Source: `router`. -/
def start (config : Config) : App := { server := .start config.limits, responses := [] }

/-- One step. -/
def step (config : Config) (bodyLimit : Nat) (s : App) : AppAct → Option App
  | .request now r =>
    match config.handle bodyLimit now r with
    | .error response => some { s with responses := s.responses ++ [response] }
    | .ok a =>
      (s.server.step a).map fun server =>
        { server, responses := s.responses ++ (s.server.answer a).toList }
  | .poll k now =>
    (s.server.step (.poll k now)).map fun server =>
      { server, responses := s.responses ++ ((server.fetches[k]?).bind (·.answer)).toList }
  | .sweep now => (s.server.step (.evictExpired now)).map fun server => { s with server }

end App

/-! ## What the extractors read -/

/-- The request is read. -/
def HttpRequest.readable (bodyLimit : Nat) : HttpRequest → Bool
  | .healthz | .deleteRoom _ => true
  | .undecodable => false
  | .publish _ _ body | .markDone _ _ body => body.length ≤ bodyLimit
  | .fetch _ _ query => (FetchQuery.extract query).isSome

/-- The response with which a request that is not read is refused. -/
def Response.Refusal (r : Response) : Prop := r = .plain 400 ∨ r = .plain 413

/-- The request that arrives, if one does, is read. -/
def AppAct.readable (bodyLimit : Nat) : AppAct → Bool
  | .request _ r => r.readable bodyLimit
  | .poll .. | .sweep _ => true

/-- A client's request as it arrives. -/
def Request.http : Request → HttpRequest
  | .publish room role body => .publish room role body
  | .markDone room role => .markDone room role []
  | .fetch room role seq wait =>
    .fetch room role
      ((seq.map fun n => ("seq", toString n)).toList ++
        (wait.map fun ms => ("wait", toString ms)).toList)

/-- The body of a client's request is within the limit, and its numbers are 64-bit ones. -/
structure Request.Fits (bodyLimit : Nat) (r : Request) : Prop where
  body : ∀ room role body, r = .publish room role body → body.length ≤ bodyLimit
  seq : ∀ room role seq wait, r = .fetch room role seq wait → ∀ n ∈ seq, n < UInt64.size
  wait : ∀ room role seq wait, r = .fetch room role seq wait → ∀ ms ∈ wait, ms < UInt64.size

section
variable {config : Config} {bodyLimit : Nat} {now : Instant}

/-- What is not read is refused before its handler runs. -/
theorem handle_unreadable (config : Config) (now : Instant) {r : HttpRequest}
    (h : r.readable bodyLimit = false) :
    ∃ refusal, config.handle bodyLimit now r = .error refusal ∧ refusal.Refusal := by
  cases r with
  | healthz | deleteRoom => cases h
  | undecodable => exact ⟨_, rfl, .inl rfl⟩
  | publish room role body | markDone room role body =>
    have hlimit : body.length > bodyLimit := by simpa [HttpRequest.readable] using h
    exact ⟨.plain 413, if_pos hlimit, .inr rfl⟩
  | fetch room role query =>
    have hnone : FetchQuery.extract query = none := by simpa [HttpRequest.readable] using h
    exact ⟨.plain 400, by simp [Config.handle, hnone], .inl rfl⟩

/-- The query of a client's fetch is read back. -/
theorem extract_http {seq wait : Option Nat} (hwait : ∀ ms ∈ wait, ms < UInt64.size) :
    FetchQuery.extract
        ((seq.map fun n => ("seq", toString n)).toList ++
          (wait.map fun ms => ("wait", toString ms)).toList) =
      some { seq := seq.map toString, wait } := by
  cases wait with
  | none => cases seq <;> simp [FetchQuery.extract, FetchQuery.read]
  | some ms =>
    have hms : parseU64 ms.repr = some ms := Decimal.parse_toString (hwait ms rfl)
    cases seq <;> simp [FetchQuery.extract, FetchQuery.read, hms]

/-- A client's request is handled as its session has it. -/
theorem handle_http {r : Request} (hr : r.Fits bodyLimit) :
    config.handle bodyLimit now r.http =
      match r with
      | .publish room role body =>
        (config.publish room role body).map fun role => .publish now room role body
      | .markDone room role => (checkPath room role).map fun role => .markDone now room role
      | .fetch room role seq wait =>
        (config.fetch room role seq wait).map fun q => .fetch now room q.1 q.2.1 q.2.2 := by
  cases r with
  | publish room role body =>
    have hlimit := hr.body room role body rfl
    exact if_neg (Nat.not_lt.2 hlimit)
  | markDone => simp [Request.http, Config.handle]
  | fetch room role seq wait =>
    have hseq : (seq.map toString).bind parseU64 = seq := by
      cases hs : seq with
      | none => rfl
      | some n => exact Decimal.parse_toString (hr.seq room role seq wait rfl n hs)
    simp only [Request.http, Config.handle, extract_http (hr.wait room role seq wait rfl), hseq]

end

/-! ## What the server holds and answers -/

/-- The rooms have names that the protocol takes, and the blobs are within the limit. -/
structure Rooms.Valid (config : Config) (s : Rooms) : Prop where
  rooms : ∀ room ∈ s.map, validRoom room = true
  blobs : ∀ room role m, s.mailbox? room role = some m →
    ∀ blob ∈ m.blobs, blob.length ≤ config.maxBlobBytes

/-- The fetch is from such a room, and returns no larger blob. -/
def FetchTask.Valid (config : Config) (t : FetchTask) : Prop :=
  validRoom t.room = true ∧
    ∀ blob, t.stage = .returned (.blob blob) → blob.length ≤ config.maxBlobBytes

/-- The rooms and the fetches are valid. -/
structure Server.Valid (config : Config) (s : Server) : Prop where
  rooms : s.rooms.Valid config
  fetches : ∀ t ∈ s.fetches, t.Valid config

/-- A response of the protocol: a 200 with at most a blob, the 204 of the end, a 304, or an error
with its code. -/
def Response.Valid (config : Config) (r : Response) : Prop :=
  r.status = 200 ∧ r.error = none ∧ r.xDone = none ∧ r.body.length ≤ config.maxBlobBytes ∨
  r = .mk 204 (some "true") none [] ∨ r = .plain 304 ∨
  r ∈ [.failure 400 "bad-room", .failure 400 "bad-role", .failure 400 "bad-seq",
    .failure 409 "done", .failure 413 "too-large", .failure 429 "capacity"]

/-- A request to the store names a room that the protocol takes, and no blob over the limit. -/
def ServerAct.Valid (config : Config) : ServerAct → Prop
  | .publish _ room _ blob => validRoom room = true ∧ blob.length ≤ config.maxBlobBytes
  | .markDone _ room _ | .fetch _ room _ _ _ => validRoom room = true
  | .delete _ | .evictExpired _ | .poll .. => True

section
variable {config : Config} {bodyLimit : Nat} {now : Instant} {room : String} {role : Role}

theorem Response.valid_plain (config : Config) : (Response.plain 200).Valid config :=
  .inl ⟨rfl, rfl, rfl, Nat.zero_le _⟩

theorem Response.valid_failure {r : Response}
    (h : r ∈ [Response.failure 400 "bad-room", .failure 400 "bad-role", .failure 400 "bad-seq",
      .failure 409 "done", .failure 413 "too-large", .failure 429 "capacity"]) :
    r.Valid config :=
  .inr (.inr (.inr h))

/-- The first checks of a handler refuse as the protocol does, or the room has a valid name. -/
theorem checkPath_valid (config : Config) (room role : String) :
    match checkPath room role with
    | .error response => response.Valid config
    | .ok _ => validRoom room = true := by
  unfold checkPath
  by_cases hroom : validRoom room = true
  · rw [if_pos hroom]
    cases Role.parse role with
    | some r => exact hroom
    | none => exact Response.valid_failure (by simp)
  · rw [if_neg hroom]
    exact Response.valid_failure (by simp)

/-- A handler answers with a response of the protocol, or hands a valid request to the store. -/
theorem handle_valid (config : Config) (now : Instant) {r : HttpRequest}
    (hr : r.readable bodyLimit = true) :
    match config.handle bodyLimit now r with
    | .error response => response.Valid config
    | .ok a => a.Valid config := by
  cases r with
  | healthz => exact Response.valid_plain config
  | undecodable => cases hr
  | deleteRoom room =>
    simp only [Config.handle]
    split
    · next a h =>
      split at h
      · cases h
      · cases h; exact Response.valid_failure (by simp)
    · next a h =>
      split at h
      · cases h; trivial
      · cases h
  | publish room role body =>
    have hlimit : ¬ body.length > bodyLimit := by simpa [HttpRequest.readable] using hr
    have hpath := checkPath_valid config room role
    simp only [Config.handle, Config.publish, if_neg hlimit]
    cases hc : checkPath room role with
    | error response => rw [hc] at hpath; exact hpath
    | ok r =>
      rw [hc] at hpath
      by_cases hsize : body.length > config.maxBlobBytes
      · simp only [if_pos hsize]
        exact Response.valid_failure (by simp)
      · simp only [if_neg hsize]
        exact ⟨hpath, Nat.not_lt.1 hsize⟩
  | markDone room role body =>
    have hlimit : ¬ body.length > bodyLimit := by simpa [HttpRequest.readable] using hr
    have hpath := checkPath_valid config room role
    simp only [Config.handle, if_neg hlimit]
    cases hc : checkPath room role with
    | error response | ok r => rw [hc] at hpath; exact hpath
  | fetch room role query =>
    obtain ⟨q, hq⟩ := Option.isSome_iff_exists.1 hr
    have hpath := checkPath_valid config room role
    simp only [Config.handle, hq, Config.fetch]
    cases hc : checkPath room role with
    | error response => rw [hc] at hpath; exact hpath
    | ok r =>
      rw [hc] at hpath
      cases q.seq.bind parseU64 with
      | some n => exact hpath
      | none => exact Response.valid_failure (by simp)

/-- A room is looked up. -/
theorem Rooms.Valid.entry {s : Rooms} (h : s.Valid config) (hroom : validRoom room = true)
    (now : Instant) : (s.entry now room).2.Valid config := by
  refine ⟨fun key hkey => ?_, fun key role m hm => ?_⟩
  · by_cases he : key = room
    · rw [he]
      exact hroom
    · rw [mem_iff_lookup, lookup_entry, if_neg he, ← mem_iff_lookup] at hkey
      exact h.rooms key hkey
  · obtain hm | ⟨hnil, -⟩ := mailbox?_of_entry hm
    · exact h.blobs key role m hm
    · rw [hnil]
      exact fun _ hb => absurd hb List.not_mem_nil

/-- A mailbox is written. -/
theorem Rooms.Valid.write {s : Rooms} {m : Mailbox} (h : (s.entry now room).2.Valid config)
    (hm : ∀ blob ∈ m.blobs, blob.length ≤ config.maxBlobBytes) :
    ((s.entry now room).2.write room (s.entry now room).1 role m).Valid config := by
  refine ⟨fun key hkey => h.rooms key ?_, fun key role' m' hm' => ?_⟩
  · rw [mem_iff_lookup, lookup_write] at hkey
    rw [mem_iff_lookup, lookup_entry]
    split at hkey
    · next he => rw [if_pos he]; exact ⟨_, rfl⟩
    · next he =>
      rw [lookup_entry, if_neg he] at hkey
      rw [if_neg he]
      exact hkey
  · rw [mailbox?_write] at hm'
    split at hm'
    · cases hm'
      exact hm
    · exact h.blobs key role' m' hm'

/-- The blobs of an entry's mailbox. -/
theorem Rooms.Valid.entry_blobs {s : Rooms} (h : (s.entry now room).2.Valid config)
    (role : Role) : ∀ blob ∈ ((s.entry now room).1.mailbox role).blobs,
      blob.length ≤ config.maxBlobBytes :=
  h.blobs room role _ (s.mailbox?_entry now room role)

theorem Rooms.Valid.remove {s : Rooms} (h : s.Valid config) (room : String) :
    (s.remove room).2.Valid config := by
  refine ⟨fun key hkey => h.rooms key ?_, fun key role m hm => h.blobs key role m ?_⟩
  · rw [mem_iff_lookup, lookup_remove] at hkey
    split at hkey
    · obtain ⟨r, hr⟩ := hkey
      cases hr
    · exact mem_iff_lookup.2 hkey
  · rw [mailbox?, lookup_remove] at hm
    split at hm
    · cases hm
    · exact hm

theorem FetchTask.Valid.wake {t : FetchTask} (h : t.Valid config) (woken : List NotifyId) :
    (t.wake woken).Valid config := by
  refine ⟨(t.wake_kept woken).1 ▸ h.1, fun blob hst => h.2 blob ?_⟩
  exact (wake_returned woken t _).1 hst

theorem FetchTask.Valid.orphan {t : FetchTask} (h : t.Valid config) (room : String) :
    (t.orphan room).Valid config := by
  unfold FetchTask.orphan
  split <;> exact h

/-- A fetch takes a step. -/
theorem FetchTask.Valid.poll {t : FetchTask} {rooms : Rooms} {p : FetchTask × Rooms}
    (h : t.Valid config) (hrooms : rooms.Valid config) (hp : t.poll rooms now = some p) :
    p.1.Valid config ∧ p.2.Valid config := by
  have hentry := hrooms.entry h.1 now
  have hlook : ∀ next : NotifyId → Stage, (∀ n f, next n ≠ .returned f) →
      (t.look rooms now next).1.Valid config ∧ (t.look rooms now next).2.Valid config := by
    intro next hnext
    obtain ⟨m, hm, -, hstage⟩ := Watched.look_spec rooms now next t
    rw [t.look_rooms rooms now next] at hm ⊢
    refine ⟨⟨(Watched.look_call rooms now next t).1 ▸ h.1, fun blob hst => ?_⟩, hentry⟩
    rw [hstage] at hst
    cases hpeek : m.peek t.seq with
    | blob b =>
      rw [hpeek] at hst
      cases hst
      unfold Mailbox.peek at hpeek
      split at hpeek
      · next hb => cases hpeek; exact hentry.blobs _ _ _ hm _ (List.mem_of_getElem? hb)
      · split at hpeek <;> cases hpeek
    | done => rw [hpeek] at hst; cases hst
    | pending => rw [hpeek] at hst; exact absurd hst (hnext _ _)
  unfold FetchTask.poll at hp
  cases hst : t.stage with
  | top =>
    simp only [hst, Option.some.injEq] at hp
    subst hp
    refine hlook _ fun n f hn => ?_
    cases hn
  | peeked n =>
    simp only [hst] at hp
    split at hp <;> cases hp
    all_goals exact ⟨⟨h.1, (fun blob hb => by cases hb)⟩, hrooms⟩
  | armed n remaining notified =>
    simp only [hst, FetchTask.recheck, Option.some.injEq] at hp
    subst hp
    refine hlook _ fun n f hn => ?_
    cases hn
  | parked n expires notified =>
    simp only [hst] at hp
    split at hp
    · cases hp
      exact ⟨⟨h.1, (fun blob hb => by cases hb)⟩, hrooms⟩
    · split at hp
      · cases hp
        exact ⟨⟨h.1, (fun blob hb => by cases hb)⟩, hrooms⟩
      · cases hp
  | returned f => simp only [hst] at hp; cases hp

namespace Server

variable {s s' : Server} {a : ServerAct}

theorem Valid.removeRoom (h : s.Valid config) (room : String) :
    (s.removeRoom room).Valid config := by
  unfold Server.removeRoom
  split
  · refine ⟨h.rooms.remove room, fun t' ht' => ?_⟩
    obtain ⟨t, ht, rfl⟩ := List.mem_map.1 ht'
    exact ((h.fetches t ht).orphan room).wake _
  · exact h

theorem Valid.foldl_removeRoom (h : s.Valid config) (keys : List String) :
    (keys.foldl Server.removeRoom s).Valid config := by
  induction keys generalizing s with
  | nil => exact h
  | cons key keys ih => exact ih (h.removeRoom key)

/-- The mailbox writes of a request keep the store valid, and wake fetches. -/
theorem Valid.woken {rooms : Rooms} (h : s.Valid config) (hrooms : rooms.Valid config)
    (woken : List NotifyId) :
    Valid config { rooms, fetches := s.fetches.map (·.wake woken) } := by
  refine ⟨hrooms, fun t' ht' => ?_⟩
  obtain ⟨t, ht, rfl⟩ := List.mem_map.1 ht'
  exact (h.fetches t ht).wake woken

/-- A valid request keeps the server valid. -/
theorem Valid.step (h : s.Valid config) (ha : a.Valid config) (hs : s.step a = some s') :
    s'.Valid config := by
  cases a with
  | publish now room role blob =>
    cases hs
    obtain ⟨hroom, hsize⟩ := ha
    refine h.woken ?_ _
    have hentry := h.rooms.entry hroom now
    obtain ⟨-, -, he | he⟩ | ⟨m, rfl, -, he⟩ := s.rooms.publish_cases now room role blob
    · rw [he]
      exact h.rooms
    · rw [he]
      exact hentry
    · rw [he]
      refine hentry.write fun b hb => ?_
      rcases List.mem_append.1 hb with hb | hb
      · exact hentry.entry_blobs role b hb
      · cases List.mem_singleton.1 hb
        exact hsize
  | markDone now room role =>
    cases hs
    have hentry := h.rooms.entry ha now
    have hwrite : (s.rooms.markDone now room role).2.2.Valid config :=
      hentry.write (hentry.entry_blobs role)
    exact h.woken hwrite _
  | delete room => cases hs; exact h.removeRoom room
  | evictExpired now => cases hs; exact h.foldl_removeRoom _
  | fetch now room role seq wait =>
    cases hs
    refine ⟨h.rooms, fun t ht => ?_⟩
    rcases List.mem_append.1 ht with ht | ht
    · exact h.fetches t ht
    · cases List.mem_singleton.1 ht
      refine ⟨ha, fun blob hst => ?_⟩
      cases hst
  | poll k now =>
    simp only [Server.step, Option.map_eq_some_iff, Option.bind_eq_some_iff] at hs
    obtain ⟨p, ⟨t, hk, hp⟩, rfl⟩ := hs
    obtain ⟨ht, hrooms⟩ := (h.fetches t (List.mem_of_getElem? hk)).poll h.rooms hp
    exact ⟨hrooms, Entries.forall_mem_set h.fetches ht⟩

/-- The store's answer is one of the protocol's. -/
theorem answer_valid {r : Response} (h : s.answer a = some r) : r.Valid config := by
  cases a with
  | publish now room role blob =>
    cases h
    cases (s.rooms.publish now room role blob).1 with
    | seq n => exact Response.valid_plain config
    | done | capacity => exact Response.valid_failure (by simp [Publish.response])
  | markDone | delete => cases h; exact Response.valid_plain config
  | evictExpired | fetch | poll => cases h

end Server

/-! ## Runs -/

namespace App

variable {s s' : App} {a : AppAct}

/-- What a step answers. -/
structure Answered (config : Config) (bodyLimit : Nat) (s s' : App) (a : AppAct) : Prop where
  read : a.readable bodyLimit = true →
    ∃ rs, s'.responses = s.responses ++ rs ∧ ∀ r ∈ rs, r.Valid config
  unread : a.readable bodyLimit = false →
    ∃ r, r.Refusal ∧ s' = { s with responses := s.responses ++ [r] }

/-- A step keeps the server valid and answers what was read with a response of the protocol. -/
theorem step_answered (h : s.server.Valid config) (hs : s.step config bodyLimit a = some s') :
    s'.server.Valid config ∧ Answered config bodyLimit s s' a := by
  cases a with
  | request now r =>
    simp only [App.step] at hs
    cases hread : r.readable bodyLimit with
    | false =>
      obtain ⟨refusal, hh, hrefusal⟩ := handle_unreadable config now hread
      simp only [hh, Option.some.injEq] at hs
      subst hs
      exact ⟨h, fun hr => absurd (hread.symm.trans hr) Bool.false_ne_true,
        fun _ => ⟨refusal, hrefusal, rfl⟩⟩
    | true =>
      have hvalid := handle_valid config now hread
      have hno : r.readable bodyLimit ≠ false := fun hf => absurd (hread.symm.trans hf) (by simp)
      cases hh : config.handle bodyLimit now r with
      | error response =>
        rw [hh] at hvalid
        simp only [hh, Option.some.injEq] at hs
        subst hs
        refine ⟨h, fun _ => ⟨[response], rfl, fun r hr => ?_⟩, fun hf => absurd hf hno⟩
        rw [List.mem_singleton.1 hr]
        exact hvalid
      | ok a =>
        rw [hh] at hvalid
        simp only [hh, Option.map_eq_some_iff] at hs
        obtain ⟨server, hserver, rfl⟩ := hs
        exact ⟨h.step hvalid hserver,
          fun _ => ⟨_, rfl, fun r hr => Server.answer_valid (Option.mem_toList.1 hr)⟩,
          fun hf => absurd hf hno⟩
  | poll k now =>
    simp only [App.step, Option.map_eq_some_iff] at hs
    obtain ⟨server, hserver, rfl⟩ := hs
    have hvalid := h.step (a := .poll k now) trivial hserver
    refine ⟨hvalid, fun _ => ⟨_, rfl, fun r hr => ?_⟩, fun hf => by cases hf⟩
    obtain ⟨t, hk, ht⟩ := Option.bind_eq_some_iff.1 (Option.mem_toList.1 hr)
    have hblob := (hvalid.fetches t (List.mem_of_getElem? hk)).2
    unfold FetchTask.answer at ht
    split at ht
    · next f hst =>
      cases ht
      cases f with
      | blob blob => exact .inl ⟨rfl, rfl, rfl, hblob blob hst⟩
      | done => exact .inr (.inl rfl)
      | pending => exact .inr (.inr (.inl rfl))
    · cases ht
  | sweep now =>
    simp only [App.step, Option.map_eq_some_iff] at hs
    obtain ⟨server, hserver, rfl⟩ := hs
    exact ⟨h.step (a := .evictExpired now) trivial hserver,
      fun _ => ⟨[], (List.append_nil _).symm, nofun⟩, fun hf => by cases hf⟩

/-- What every run keeps. -/
structure Inv (config : Config) (s : App) : Prop where
  server : s.server.Valid config
  responses : ∀ r ∈ s.responses, r.Valid config ∨ r.Refusal

theorem inv_start (config : Config) : (start config).Inv config where
  server := by
    refine ⟨⟨fun room hroom => ?_, fun room role m hm => ?_⟩, nofun⟩
    · obtain ⟨r, hr⟩ := Rooms.mem_iff_lookup.1 hroom
      cases hr
    · cases hm
  responses := nofun

theorem Inv.step (h : s.Inv config) (hs : s.step config bodyLimit a = some s') :
    s'.Inv config := by
  obtain ⟨hserver, hread, hunread⟩ := step_answered h.server hs
  refine ⟨hserver, fun r hr => ?_⟩
  cases ha : a.readable bodyLimit with
  | true =>
    obtain ⟨rs, hrs, hvalid⟩ := hread ha
    rw [hrs] at hr
    obtain hr | hr := List.mem_append.1 hr
    · exact h.responses r hr
    · exact .inl (hvalid r hr)
  | false =>
    obtain ⟨refusal, hrefusal, rfl⟩ := hunread ha
    obtain hr | hr := List.mem_append.1 hr
    · exact h.responses r hr
    · exact .inr (List.mem_singleton.1 hr ▸ hrefusal)

end App

end

end WebrtcDatachannels.Signaling
