import WebrtcDatachannels.Signaling.Fetch

/-!
# The mailbox protocol: the server's handlers and its three clients

`conformance/signaling/server/src/lib.rs` on the one side; on the other the native client of
`conformance/adapters/wasmtime`, the in-guest one of `conformance/adapters/wasip3/mailbox` and the
`fetch`-based one of `conformance/adapters/jco/signaling.js`. A request is what its URL names; a
response is its status, the `x-done` header, the `error` code of a JSON body, and the blob it
carries.
-/

namespace WebrtcDatachannels.Signaling

/-- Server configuration. Source: `Config`. -/
structure Config where
  longPoll : Nat
  maxBlobBytes : Nat
  limits : Limits

/-- A request that a client makes; `seq` and `wait` are the numbers that its URL carries. -/
inductive Request where
  | publish (room role : String) (body : Bytes)
  | markDone (room role : String)
  | fetch (room role : String) (seq : Option Nat) (wait : Option Nat)
deriving DecidableEq, Repr

/-- A response. -/
structure Response where
  status : Nat
  xDone : Option String
  error : Option String
  body : Bytes
deriving DecidableEq, Repr

namespace Response

/-- A response with nothing that a client reads. -/
def plain (status : Nat) : Response := { status, xDone := none, error := none, body := [] }

/-- Source: `error`. -/
def failure (status : Nat) (code : String) : Response :=
  { status, xDone := none, error := some code, body := [] }

/-- `status.is_success()`, `resp.ok`. -/
def isSuccess (r : Response) : Bool := 200 ≤ r.status && r.status < 300

end Response

/-! ## The handlers -/

/-- Source: `Role::parse`. -/
def Role.parse (s : String) : Option Role :=
  if s = "offerer" then some .offerer else if s = "answerer" then some .answerer else none

/-- A character of a room's name. -/
def roomChar (c : Char) : Bool := c.isAlphanum || c == '.' || c == '_' || c == '-'

/-- Source: `valid_room`. -/
def validRoom (room : String) : Bool :=
  room ≠ "" && room.utf8ByteSize ≤ 128 && room.toList.all roomChar

/-- The room and the role of a request's path. Source: the first checks of the handlers. -/
def checkPath (room role : String) : Except Response Role :=
  if validRoom room then
    match Role.parse role with
    | some r => .ok r
    | none => .error (.failure 400 "bad-role")
  else .error (.failure 400 "bad-room")

/-- The response to a publish. Source: the `match` in `publish`. -/
def Publish.response : Publish → Response
  | .seq _ => .plain 200
  | .done => .failure 409 "done"
  | .capacity => .failure 429 "capacity"

/-- The response to a fetch. Source: the `match` in `fetch`. -/
def Fetch.response : Fetch → Response
  | .blob bytes => { Response.plain 200 with body := bytes }
  | .done => { Response.plain 204 with xDone := some "true" }
  | .pending => .plain 304

/-- The role whose mailbox a publish goes to. Source: the handler `publish`. -/
def Config.publish (config : Config) (room role : String) (body : Bytes) : Except Response Role :=
  match checkPath room role with
  | .error r => .error r
  | .ok role =>
    if body.length > config.maxBlobBytes then .error (.failure 413 "too-large") else .ok role

/-- The role, the number and the wait of a fetch whose query has been read: `seq` is its number if
that is there and parses. Source: the handler `fetch`. -/
def Config.fetch (config : Config) (room role : String) (seq wait : Option Nat) :
    Except Response (Role × Nat × Nat) :=
  match checkPath room role with
  | .error r => .error r
  | .ok role =>
    match seq with
    | some n => .ok (role, n, wait.getD config.longPoll)
    | none => .error (.failure 400 "bad-seq")

/-! ## The clients -/

/-- The three mailbox clients: the native one, the in-guest one, and the one of the jco adapters. -/
inductive Client where
  | native
  | inGuest
  | jco
deriving DecidableEq, Repr

/-- The name of a room that the protocol takes. -/
structure RoomId where
  name : String
  valid : validRoom name = true

/-- The path segment for a role. Source: `role_str`. -/
def Role.segment : Role → String
  | .offerer => "offerer"
  | .answerer => "answerer"

/-- The other role. -/
def Role.peer : Role → Role
  | .offerer => .answerer
  | .answerer => .offerer

/-- A joined mailbox session. Source: `MailboxSession`, `Session`. -/
structure Session where
  client : Client
  room : RoomId
  role : Role
  recvSeq : Nat

/-- The reason phrase that `StatusCode` displays behind a number, for those that the server
answers. -/
def reason (status : Nat) : String :=
  if status = 200 then " OK"
  else if status = 204 then " No Content"
  else if status = 304 then " Not Modified"
  else if status = 400 then " Bad Request"
  else if status = 409 then " Conflict"
  else if status = 413 then " Payload Too Large"
  else if status = 429 then " Too Many Requests"
  else " <unknown status code>"

/-- Source: `mailbox_error`, `mailboxError`. -/
def mailboxError (detail : String) : Error := .other ("mailbox: " ++ detail)

/-- What a turn of a `recv` comes to: the call returns and leaves the cursor at `recvSeq`, or it
fetches again. -/
inductive Turn where
  | ret (result : Except Error (Option Bytes)) (recvSeq : Nat)
  | again

/-- What a `recv` that fetched `seq` does with the response; `ended` says which 204 it takes for the
end, `text` comes before the status of any other response. -/
def fetched (ended : Response → Bool) (text : String) (seq : Nat) (r : Response) : Turn :=
  if r.status = 200 then .ret (.ok (some r.body)) (seq + 1)
  else if r.status = 204 ∧ ended r = true then .ret (.ok none) seq
  else if r.status = 304 then .again
  else .ret (.error (mailboxError (text ++ toString r.status))) seq

/-- What a `send` or `done` does with the response. -/
def posted (text : String) (status : Nat → String) (r : Response) : Except Error Unit :=
  if r.isSuccess then .ok () else .error (mailboxError (text ++ status r.status))

/-- The status as `StatusCode` displays it. -/
def displayStatus (status : Nat) : String := toString status ++ reason status

namespace Session

/-- A session as `open` returns it. -/
def «open» (client : Client) (room : RoomId) (role : Role) : Session :=
  { client, room, role, recvSeq := 0 }

/-- The request of a `send`. -/
def sendRequest (s : Session) (blob : Bytes) : Request :=
  .publish s.room.name s.role.segment blob

/-- The request of a `done`. -/
def doneRequest (s : Session) : Request := .markDone s.room.name s.role.segment

/-- The request of a turn of `recv`. Source: the URL of `fetch_next` and of `recv`. -/
def fetchRequest (s : Session) (seq : Nat) : Request :=
  match s.client with
  | .native | .jco => .fetch s.room.name s.role.peer.segment (some seq) (some 10000)
  | .inGuest => .fetch s.room.name s.role.peer.segment (some seq) none

/-- What `send` returns. -/
def sent (s : Session) : Response → Except Error Unit :=
  match s.client with
  | .native => posted "publish status " displayStatus
  | .inGuest => posted "publish returned " displayStatus
  | .jco => posted "send status " toString

/-- What `done` returns. -/
def marked (s : Session) : Response → Except Error Unit :=
  match s.client with
  | .native => posted "done status " displayStatus
  | .inGuest => posted "done returned " displayStatus
  | .jco => posted "done status " toString

/-- What a turn of `recv` does with the response. -/
def received (s : Session) : Nat → Response → Turn :=
  match s.client with
  | .native => fetched (fun _ => true) "fetch status "
  | .inGuest => fetched (fun r => r.xDone == some "true") "fetch returned "
  | .jco => fetched (fun _ => true) "recv status "

/-- The number that the next turn fetches: the cursor, or, where the URL is made before the loop,
the number of the turn before. -/
def again (s : Session) (seq : Nat) : Nat :=
  match s.client with
  | .native | .jco => s.recvSeq
  | .inGuest => seq

end Session

/-! ## What a client makes of the server's answers -/

@[simp] theorem Role.peer_peer (role : Role) : role.peer.peer = role := by cases role <;> rfl

@[simp] theorem Role.parse_segment (role : Role) : Role.parse role.segment = some role := by
  cases role <;> decide

theorem checkPath_session (room : RoomId) (role : Role) :
    checkPath room.name role.segment = .ok role := by
  simp [checkPath, room.valid]

/-- A session's fetch is one of its peer's mailbox. -/
theorem fetch_session (config : Config) (s : Session) (seq : Nat) :
    ∃ wait wait', s.fetchRequest seq = .fetch s.room.name s.role.peer.segment (some seq) wait ∧
      config.fetch s.room.name s.role.peer.segment (some seq) wait =
        .ok (s.role.peer, seq, wait') := by
  unfold Session.fetchRequest Config.fetch
  rw [checkPath_session]
  cases s.client <;> exact ⟨_, _, rfl, rfl⟩

/-- Each of the three clients reads the three answers to a fetch the same way. -/
theorem received_response (s : Session) (seq : Nat) (f : Fetch) :
    s.received seq f.response =
      match f with
      | .blob blob => .ret (.ok (some blob)) (seq + 1)
      | .done => .ret (.ok none) seq
      | .pending => .again := by
  unfold Session.received
  cases s.client <;> cases f <;> rfl

/-- A publish is reported as successful exactly when the server accepted it. -/
theorem sent_ok_iff (s : Session) (r : Response) : s.sent r = .ok () ↔ r.isSuccess = true := by
  unfold Session.sent posted
  cases s.client <;> cases hr : r.isSuccess <;> simp [hr]

theorem response_isSuccess (p : Publish) : p.response.isSuccess = true ↔ ∃ n, p = .seq n := by
  cases p with
  | seq n => exact ⟨fun _ => ⟨n, rfl⟩, fun _ => rfl⟩
  | done | capacity => exact ⟨nofun, fun ⟨n, hn⟩ => by cases hn⟩

end WebrtcDatachannels.Signaling
