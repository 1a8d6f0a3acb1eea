import WebrtcDatachannels.Suite.Payload

/-!
# The exchanges of the two-peer tests

`exchange` of `conformance/guest/src/lib.rs`. Every test sends a list of messages, and receives some
messages and judges them; the two go one after the other, or beside each other in a `join!`. What
receives is a tree (`Receiver`), and `Receiver.feed` gives it the messages that arrive. No test
sends the sentinel of the barrier, and none accepts it (`exchange_refuses`).
-/

namespace WebrtcDatachannels.Suite

/-- A task that receives messages and then returns. -/
inductive Receiver where
  | ret (r : Except String Unit)
  | receive (next : Message → Receiver)

/-- What the task returns when these messages arrive; `none` when it waits for more. -/
def Receiver.feed : Receiver → List Message → Option (Except String Unit)
  | .ret r, _ => some r
  | .receive _, [] => none
  | .receive next, m :: ms => (next m).feed ms

/-- An exchange: whether the messages are received while they are sent, and the two tasks. -/
structure Exchange where
  concurrent : Bool
  sends : List Message
  receiver : Receiver

/-- Source: `CHANNEL_LABEL`. -/
def channelLabel : String := "conformance"

/-- The bytes of a message. -/
def messageBytes : Message → Bytes
  | .binary bytes => bytes
  | .string text => intoBytes text

/-- The test of one binary message. -/
def expectBinary (payload : Bytes) (mismatch other : String) : Receiver :=
  .receive fun
    | .binary bytes => .ret (if bytes = payload then .ok () else .error mismatch)
    | .string _ => .ret (.error other)

/-- The test of one text message. -/
def expectText (text mismatch other : String) : Receiver :=
  .receive fun
    | .string got => .ret (if got = text then .ok () else .error mismatch)
    | .binary _ => .ret (.error other)

/-- The test of an empty binary and an empty text message. -/
def expectEmpty : Receiver :=
  .receive fun
    | .binary [] => .receive fun
      | .string text => .ret (if text = "" then .ok () else .error "expected empty text message")
      | .binary _ => .ret (.error "expected empty text message")
    | _ => .ret (.error "expected empty binary message")

/-- Receive `count` messages, and judge their bytes behind those of `out`. Source:
`recv_sequence`. -/
def recvSequence (verify : List Bytes → Except String Unit) : Nat → List Bytes → Receiver
  | 0, out => .ret (verify out)
  | count + 1, out => .receive fun m => recvSequence verify count (out ++ [messageBytes m])

/-- The exchange of a count-parameterized test. -/
def sequences (messageCount messageSize : UInt32)
    (verify : List Bytes → UInt32 → Except String Unit) : Exchange :=
  let count := max messageCount 1
  { concurrent := true
    sends := (sentPayloads count (max messageSize 16)).map .binary
    receiver := recvSequence (verify · count) count.toNat [] }

/-- The exchange of a test over a channel with this label. Strings are quoted as `{:?}` quotes plain
ones. Source: `exchange`. -/
def exchange (testId label : String) (messageCount messageSize : UInt32) : Exchange :=
  match testId with
  | "label-round-trip" =>
    ⟨false, [], .ret (if label = channelLabel then .ok ()
      else .error ("label was " ++ label.quote ++ ", expected " ++ channelLabel.quote))⟩
  | "binary-message" =>
    ⟨false, [.binary [0, 1, 2, 3, 4, 5]],
      expectBinary [0, 1, 2, 3, 4, 5] "binary payload mismatch" "binary message arrived as text"⟩
  | "text-message" =>
    ⟨false, [.string "conformance text message"],
      expectText "conformance text message" "text payload mismatch"
        "text message arrived as binary"⟩
  | "zero-length-message" => ⟨false, [.binary [], .string ""], expectEmpty⟩
  | "large-message" =>
    ⟨false, [.binary (makePayload 0 (max messageSize 1024))],
      expectBinary (makePayload 0 (max messageSize 1024)) "large payload mismatch"
        "large payload mismatch"⟩
  | "max-retransmits-accepted" =>
    ⟨false, [.binary [9, 8, 7, 6]],
      expectBinary [9, 8, 7, 6] "unreliable channel payload mismatch"
        "unreliable channel payload mismatch"⟩
  | "concurrent-send-receive" | "message-boundaries" | "payload-integrity"
  | "interop-handshake" => sequences messageCount messageSize verifyAll
  | "ordering" => sequences messageCount messageSize verifyOrdered
  | other => ⟨false, [], .ret (.error ("unhandled test id " ++ other.quote))⟩

/-- The bytes of the barrier's message. Source: `SENTINEL` in `barrier`. -/
def sentinel : Bytes := "__conformance_barrier__".toList.map fun c => UInt8.ofNat c.toNat

/-- A task that returns leaves the messages behind alone. -/
theorem Receiver.feed_append {receiver : Receiver} {ms : List Message} {r : Except String Unit}
    (h : receiver.feed ms = some r) (ms' : List Message) : receiver.feed (ms ++ ms') = some r := by
  induction receiver generalizing ms with
  | ret r => exact h
  | receive next ih =>
    cases ms with
    | nil => cases h
    | cons m ms => exact ih m h

/-! ## The sentinel is no message of a test -/

theorem verifyPayload_sentinel : verifyPayload sentinel = false := by decide

theorem makePayload_ne_sentinel (index size : UInt32) : makePayload index size ≠ sentinel := by
  intro h
  have hv : verifyPayload (makePayload index size) = true := verifyPayload_iff.2 ⟨index, _, rfl⟩
  rw [h, verifyPayload_sentinel] at hv
  cases hv

/-- No exchange sends the sentinel. -/
theorem sentinel_not_mem_sends (testId label : String) (messageCount messageSize : UInt32) :
    Message.binary sentinel ∉ (exchange testId label messageCount messageSize).sends := by
  have hseq : ∀ count size : UInt32,
      Message.binary sentinel ∉ (sentPayloads count size).map .binary := by
    intro count size hmem
    obtain ⟨b, hb, heq⟩ := List.mem_map.1 hmem
    cases heq
    obtain ⟨i, -, hi⟩ := List.mem_map.1 hb
    exact makePayload_ne_sentinel _ _ hi
  unfold exchange
  split
  case h_1 | h_12 => exact List.not_mem_nil
  case h_2 | h_3 | h_4 | h_6 => decide
  case h_5 => simpa using (makePayload_ne_sentinel 0 (max messageSize 1024)).symm
  case h_7 | h_8 | h_9 | h_10 | h_11 => exact hseq _ _

/-! ## The sentinel is not accepted -/

/-- The task does not accept the sentinel at the end of the messages: it succeeds without it. -/
def Receiver.Refuses (receiver : Receiver) : Prop :=
  ∀ ms, receiver.feed (ms ++ [.binary sentinel]) = some (.ok ()) →
    receiver.feed ms = some (.ok ())

theorem refuses_ret (r : Except String Unit) : (Receiver.ret r).Refuses := fun _ h => h

/-- A task refuses the sentinel that does not accept it as its first message, and refuses it after
any other first message. -/
theorem refuses_receive {next : Message → Receiver}
    (hfirst : (next (.binary sentinel)).feed [] ≠ some (.ok ())) (hnext : ∀ m, (next m).Refuses) :
    (Receiver.receive next).Refuses := by
  intro ms h
  cases ms with
  | nil => exact absurd h hfirst
  | cons m ms => exact hnext m ms h

theorem refuses_expectBinary {payload : Bytes} {mismatch other : String}
    (hp : payload ≠ sentinel) : (expectBinary payload mismatch other).Refuses := by
  refine refuses_receive ?_ fun m => ?_
  · simp [Receiver.feed, Ne.symm hp]
  · cases m with
    | binary | string => exact refuses_ret _

theorem refuses_expectText (text mismatch other : String) :
    (expectText text mismatch other).Refuses := by
  refine refuses_receive ?_ fun m => ?_
  · simp [Receiver.feed]
  · cases m with
    | binary | string => exact refuses_ret _

theorem refuses_expectEmpty : expectEmpty.Refuses := by
  refine refuses_receive nofun fun m => ?_
  split
  · refine refuses_receive nofun fun m => ?_
    cases m with
    | binary | string => exact refuses_ret _
  · exact refuses_ret _

section
variable {verify : List Bytes → Except String Unit}

theorem feed_recvSequence (n : Nat) (out : List Bytes) (ms : List Message) :
    (recvSequence verify n out).feed ms =
      if n ≤ ms.length then some (verify (out ++ (ms.take n).map messageBytes)) else none := by
  induction n generalizing out ms with
  | zero => simp [recvSequence, Receiver.feed]
  | succ n ih =>
    cases ms with
    | nil => simp [recvSequence, Receiver.feed]
    | cons m ms => simp [recvSequence, Receiver.feed, ih]

/-- A task that judges payloads does not accept the sentinel among them. -/
theorem refuses_recvSequence
    (hv : ∀ received, verify received = .ok () → ∀ b ∈ received, verifyPayload b = true) (n : Nat) :
    (recvSequence verify n []).Refuses := by
  intro ms h
  rw [feed_recvSequence] at h ⊢
  split at h
  · by_cases hn : n ≤ ms.length
    · rw [List.take_append_of_le_length hn] at h
      rw [if_pos hn]
      exact h
    · -- the sentinel is the last message
      have hbad := hv _ (Option.some.inj h) sentinel (by
        rw [List.take_of_length_le (by simp; omega)]
        simp [messageBytes])
      rw [verifyPayload_sentinel] at hbad
      cases hbad
  · cases h

end

/-- No exchange accepts the sentinel. -/
theorem exchange_refuses (testId label : String) (messageCount messageSize : UInt32) :
    (exchange testId label messageCount messageSize).receiver.Refuses := by
  unfold exchange
  split
  case h_1 | h_12 => exact refuses_ret _
  case h_2 | h_6 => exact refuses_expectBinary (by decide)
  case h_3 => exact refuses_expectText _ _ _
  case h_4 => exact refuses_expectEmpty
  case h_5 => exact refuses_expectBinary (makePayload_ne_sentinel _ _)
  case h_7 | h_8 | h_9 | h_10 =>
    exact refuses_recvSequence (fun _ h => (verifyAll_iff.1 h).2) _
  case h_11 =>
    exact refuses_recvSequence (fun _ h => (verifyAll_iff.1 (verifyAll_of_verifyOrdered h)).2) _

/-! ## The two sides of a test -/

/-- The two-peer tests of the corpus. -/
def twoPeerTests : List String :=
  ["label-round-trip", "binary-message", "text-message", "message-boundaries",
    "zero-length-message", "large-message", "ordering", "payload-integrity",
    "concurrent-send-receive", "max-retransmits-accepted", "interop-handshake"]

/-- Two peers that run a test with the same knobs accept what the other sends. -/
theorem exchange_accepts {testId : String} (ht : testId ∈ twoPeerTests)
    (messageCount messageSize : UInt32) :
    (exchange testId channelLabel messageCount messageSize).receiver.feed
      (exchange testId channelLabel messageCount messageSize).sends = some (.ok ()) := by
  have hseq : ∀ verify : List Bytes → UInt32 → Except String Unit,
      (∀ count size, verify (sentPayloads count size) count = .ok ()) →
      (sequences messageCount messageSize verify).receiver.feed
        (sequences messageCount messageSize verify).sends = some (.ok ()) := by
    intro verify hv
    have hbytes : ∀ payloads : List Bytes,
        (payloads.map Message.binary).map messageBytes = payloads := by
      intro payloads
      rw [List.map_map]
      exact List.map_id payloads
    have hlen : ((sentPayloads (max messageCount 1) (max messageSize 16)).map
        Message.binary).length = (max messageCount 1).toNat := by simp [sentPayloads]
    simp only [sequences]
    rw [feed_recvSequence, if_pos (Nat.le_of_eq hlen.symm),
      List.take_of_length_le (Nat.le_of_eq hlen), hbytes, List.nil_append, hv]
  have hall := hseq verifyAll fun count size =>
    verifyAll_of_verifyOrdered (verifyOrdered_sentPayloads count size)
  have hordered := hseq verifyOrdered verifyOrdered_sentPayloads
  simp only [twoPeerTests, List.mem_cons, List.not_mem_nil, or_false] at ht
  obtain rfl | rfl | rfl | rfl | rfl | rfl | rfl | rfl | rfl | rfl | rfl := ht
  · rfl
  · rfl
  · rfl
  · exact hall
  · rfl
  · simp [exchange, expectBinary, Receiver.feed]
  · exact hordered
  · exact hall
  · exact hall
  · rfl
  · exact hall

end WebrtcDatachannels.Suite
