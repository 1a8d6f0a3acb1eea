import WebrtcDatachannels.Host.Streams

/-!
# The order of incoming channels

`wasmtime-impl/src/peer_connection.rs` and `host.rs`. For each channel that the remote peer opens,
`on_data_channel` spawns a task that awaits the channel's label and then sends it on the queue that
the incoming stream reads. The queue keeps the order in which the tasks get to their sends, and the
tasks get there in any order. `Opens` is one connection's incoming side with the channels numbered
in the order they are reported; every run of a connection's streams is one of `Opens` on that side
(`Opens.shows_run`). The first stream yields them in that order, each once, exactly when no task
sends while an older one still awaits its label (`Opens.in_order_iff`).
-/

namespace WebrtcDatachannels.Host

open Mpsc (Chan Poll)

/-! ## The incoming side -/

/-- A channel opened by the remote peer: its place in the order of the reports, and the label that
its task got. -/
structure OpenedChannel where
  number : Nat
  channel : RemoteChannel
deriving DecidableEq, Repr

/-- The item that a poll delivers. -/
def Yielded.items {β : Type} : Yielded β → List β
  | .completed x => [x]
  | .pending | .cancelled | .dropped => []

/-- The incoming side of a connection: whether `Inner` and the event handler are alive, the number
of channels reported, those whose tasks await the label, the queue with its producers, and what the
producers have yielded. -/
structure Opens where
  inner : Bool
  handler : Bool
  reported : Nat
  adopting : List Nat
  incoming : Source OpenedChannel
  yielded : List (Nat × OpenedChannel)

/-- What can happen: the stack reports a channel; the task of a channel has its label and sends; the
handler or `Inner` is dropped; the guest takes a stream, reads it, or drops its reader. -/
inductive OpenAct where
  | dataChannel
  | adopted (number : Nat) (label : Option String)
  | dropHandler
  | dropInner
  | incomingDataChannels
  | pollIncoming (i : Nat) (finish : Bool)
  | dropIncoming (i : Nat)

namespace Opens

/-- `PeerConnection::new_with`: without a runtime the senders are dropped at once. -/
def start (runtime : Bool) : Opens :=
  { inner := true
    handler := runtime
    reported := 0
    adopting := []
    incoming := .new runtime.toNat
    yielded := [] }

/-- The end of the task that `on_data_channel` spawned. Source: `connection_handler`. -/
def adopted (s : Opens) (number : Nat) (label : Option String) : Opens :=
  let sent := s.incoming.send { number, channel := { label := label.getD "" } }
  { s with
    adopting := s.adopting.erase number
    incoming := { sent with chan := sent.chan.drop } }

/-- One step. -/
def step (s : Opens) : OpenAct → Option Opens
  | .dataChannel =>
    if s.handler then
      some
        { s with
          reported := s.reported + 1
          adopting := s.adopting ++ [s.reported]
          incoming := { s.incoming with chan := s.incoming.chan.clone } }
    else none
  | .adopted number label => if number ∈ s.adopting then some (s.adopted number label) else none
  | .dropHandler =>
    if s.handler then
      some
        { s with
          handler := false
          incoming := { s.incoming with chan := s.incoming.chan.drop } }
    else none
  | .dropInner =>
    if s.inner then
      some { s with inner := false, incoming := { s.incoming with inner := false } }
    else none
  | .incomingDataChannels => if s.inner then some { s with incoming := s.incoming.take } else none
  | .pollIncoming i finish =>
    (s.incoming.pollProduce i finish).map fun p =>
      { s with incoming := p.2, yielded := s.yielded ++ p.1.items.map (i, ·) }
  | .dropIncoming i => some { s with incoming := s.incoming.dropReader i }

/-- The channels yielded, and then those queued for the stream. -/
def surfaced (s : Opens) : List Nat :=
  s.yielded.map (·.2.number) ++ s.incoming.chan.queue.map (·.number)

/-- The receiver is in `Inner` or with a producer. -/
def Reads (s : Opens) : Prop := s.incoming.inner = true ∨ s.incoming.Claimed

/-- A report spawns a task, which sends its channel once to a queue that is read; the first stream
is given the queue. Only it has yielded, and every poll of a later one reports the end; what is
yielded comes in the order of the reports, with nothing left out in between; when no task awaits a
label, every channel is yielded or queued for the reader; polls of the first stream yield the queued
channels, and then the end when none is to come; and once it has ended it has yielded every
channel. -/
structure InOrder (s : Opens) : Prop where
  reports : s.handler = true → ∃ s', s.step .dataChannel = some s' ∧
    s'.reported = s.reported + 1 ∧ s'.adopting = s.adopting ++ [s.reported]
  sends : s.Reads → ∀ number ∈ s.adopting, ∀ label, ∃ s',
    s.step (.adopted number label) = some s' ∧ s'.surfaced = s.surfaced ++ [number] ∧
      s'.adopting = s.adopting.erase number
  taken : s.inner = true → s.incoming.producers = [] → ∃ s',
    s.step .incomingDataChannels = some s' ∧ s'.incoming.producers = [.some]
  first : ∀ p ∈ s.yielded, p.1 = 0
  later : ∀ i rx finish, 0 < i → s.incoming.producers[i]? = some rx → rx ≠ .gone →
    ∃ src, s.incoming.pollProduce i finish = some (.dropped, src)
  order : s.surfaced <+: List.range s.reported
  settled : s.Reads → s.adopting = [] → s.surfaced = List.range s.reported
  served : ∀ i flags, s.incoming.producers[i]? = some .some →
    flags.length = s.incoming.chan.queue.length →
    Source.polls i flags s.incoming = s.incoming.chan.queue.map .completed
  ends : s.handler = false → s.adopting = [] → s.incoming.Ends
  complete : s.incoming.producers[0]? = some .none →
    s.yielded.map (·.2.number) = List.range s.reported

/-- No task sends on a queue that is read while an older one awaits its label. -/
def Oldest (s : Opens) : OpenAct → Prop
  | .adopted number _ => s.Reads → s.adopting.head? = some number
  | _ => True

/-! ## The invariant -/

/-- What holds in every state of a run whose tasks send oldest first. -/
structure Inv (s : Opens) : Prop where
  senders : s.incoming.chan.senders = s.handler.toNat + s.adopting.length
  source : s.incoming.inner = true ↔ s.inner = true ∧ s.incoming.producers = []
  claimed : ∀ i : Nat, s.incoming.producers[i]? = some .some → i = 0
  first : ∀ p ∈ s.yielded, p.1 = 0
  order : s.surfaced <+: List.range s.reported
  pending : s.Reads → s.surfaced ++ s.adopting = List.range s.reported
  ended : s.incoming.producers[0]? = some .none → s.handler = false ∧ s.adopting = [] ∧
    s.yielded.map (·.2.number) = List.range s.reported

variable {s s' t : Opens} {a : OpenAct} {as : List OpenAct}

theorem inv_start (runtime : Bool) : (start runtime).Inv := by
  refine ⟨?_, ⟨fun _ => ⟨rfl, rfl⟩, fun _ => rfl⟩, nofun, nofun, List.nil_prefix, fun _ => rfl,
    nofun⟩
  cases runtime <;> rfl

/-- A channel whose task is not the oldest does not come next. -/
theorem not_prefix_of_younger {xs pending : List Nat} {m n : Nat}
    (h : xs ++ pending = List.range n) (hm : pending.head? ≠ some m) :
    ¬ xs ++ [m] <+: List.range n := by
  intro hp
  rw [← h, List.prefix_append_right_inj] at hp
  obtain ⟨rest, rfl⟩ := hp
  exact hm rfl

/-- The task of a channel sends on a queue that is read. -/
theorem adopted_reads (hr : s.Reads) (number : Nat) (label : Option String) :
    (s.adopted number label).surfaced = s.surfaced ++ [number] := by
  have hsent : s.incoming.send { number, channel := { label := label.getD "" } } =
      { s.incoming with
        chan := s.incoming.chan.send { number, channel := { label := label.getD "" } } } :=
    if_pos hr
  simp only [adopted, hsent, surfaced, Chan.drop, Chan.send, List.map_append, List.map_cons,
    List.map_nil, List.append_assoc]

/-- The task of a channel sends on a queue that nobody reads. -/
theorem adopted_unread (hr : ¬ s.Reads) (number : Nat) (label : Option String) :
    (s.adopted number label).surfaced = s.surfaced := by
  have hsent : s.incoming.send { number, channel := { label := label.getD "" } } = s.incoming :=
    if_neg hr
  simp only [adopted, hsent, surfaced, Chan.drop]

/-- What a task's end leaves alone. -/
theorem adopted_frame (s : Opens) (number : Nat) (label : Option String) :
    (s.adopted number label).incoming.producers = s.incoming.producers ∧
      (s.adopted number label).incoming.inner = s.incoming.inner ∧
      (s.adopted number label).incoming.chan.senders = s.incoming.chan.senders - 1 := by
  simp only [adopted, Source.send]
  split <;> exact ⟨rfl, rfl, rfl⟩

theorem Inv.inOrder (h : s.Inv) : s.InOrder where
  reports hh := ⟨_, if_pos hh, rfl, rfl⟩
  sends hr number hmem label := ⟨_, if_pos hmem, adopted_reads hr number label, rfl⟩
  taken hin hnil := by
    refine ⟨_, if_pos hin, ?_⟩
    simp only [Source.take, hnil, h.source.2 ⟨hin, hnil⟩, if_true, List.nil_append]
  first := h.first
  later i rx finish hi hrx hgone := by
    cases rx with
    | some => rw [h.claimed i hrx] at hi; cases hi
    | none => exact ⟨s.incoming, by simp only [Source.pollProduce, hrx]⟩
    | gone => exact absurd rfl hgone
  order := h.order
  settled hr hnil := by
    rw [← h.pending hr, hnil, List.append_nil]
  served _ _ hsome hlen := Source.polls_queued hsome hlen
  ends hh hnil := by
    refine Source.ends_iff.2 fun _ => ?_
    rw [h.senders, hh, hnil]
    rfl
  complete he := (h.ended he).2.2

/-! ## Steps -/

theorem Inv.report (h : s.Inv) (hs : s.step .dataChannel = some s') : s'.Inv := by
  simp only [step] at hs
  split at hs
  · next hh =>
    cases hs
    refine ⟨?_, h.source, h.claimed, h.first, ?_, fun hr => ?_, fun he => ?_⟩
    · simp only [Chan.clone, h.senders, List.length_append, List.length_singleton]
      omega
    · rw [List.range_succ]
      exact h.order.trans (List.prefix_append _ _)
    · rw [List.range_succ, ← h.pending hr, List.append_assoc]
      rfl
    · rw [(h.ended he).1] at hh
      cases hh
  · cases hs

theorem Inv.adopt {number : Nat} {label : Option String} (h : s.Inv)
    (hC : s.Oldest (.adopted number label)) (hs : s.step (.adopted number label) = some s') :
    s'.Inv := by
  simp only [step] at hs
  split at hs
  · next hmem =>
    cases hs
    obtain ⟨hprod, hinner, hsend⟩ := s.adopted_frame number label
    have hreads : (s.adopted number label).Reads ↔ s.Reads := by
      simp only [Reads, Source.Claimed, hprod, hinner]
    have hlen : s.adopting.length = (s.adopting.erase number).length + 1 := by
      have hpos := List.length_pos_of_mem hmem
      rw [List.length_erase_of_mem hmem]
      omega
    refine ⟨?_, by rw [hprod, hinner]; exact h.source, by rw [hprod]; exact h.claimed, h.first,
      ?_, fun hr => ?_, fun he => ?_⟩
    · rw [hsend, h.senders, hlen]
      rfl
    · by_cases hr : s.Reads
      · obtain ⟨rest, hrest⟩ := List.head?_eq_some_iff.1 (hC hr)
        rw [adopted_reads hr]
        refine ⟨rest, ?_⟩
        show s.surfaced ++ [number] ++ rest = List.range s.reported
        rw [← h.pending hr, hrest, List.append_assoc]
        rfl
      · rw [adopted_unread hr]
        exact h.order
    · have hr := hreads.1 hr
      obtain ⟨rest, hrest⟩ := List.head?_eq_some_iff.1 (hC hr)
      rw [adopted_reads hr]
      show s.surfaced ++ [number] ++ s.adopting.erase number = List.range s.reported
      rw [← h.pending hr, hrest, List.erase_cons_head, List.append_assoc]
      rfl
    · rw [hprod] at he
      rw [(h.ended he).2.1] at hmem
      cases hmem
  · cases hs

theorem Inv.handlerDropped (h : s.Inv) (hs : s.step .dropHandler = some s') : s'.Inv := by
  simp only [step] at hs
  split at hs
  · next hh =>
    cases hs
    refine ⟨?_, h.source, h.claimed, h.first, h.order, h.pending, fun he => ?_⟩
    · rw [Chan.drop_senders, h.senders, hh]
      simp
    · exact ⟨rfl, (h.ended he).2⟩
  · cases hs

theorem Inv.innerDropped (h : s.Inv) (hs : s.step .dropInner = some s') : s'.Inv := by
  simp only [step] at hs
  split at hs
  · cases hs
    refine ⟨h.senders, by simp, h.claimed, h.first, h.order, fun hr => ?_, h.ended⟩
    exact h.pending (.inr (hr.resolve_left nofun))
  · cases hs

theorem Inv.taken (h : s.Inv) (hs : s.step .incomingDataChannels = some s') : s'.Inv := by
  simp only [step] at hs
  split at hs
  · next hin =>
    cases hs
    refine ⟨h.senders, ?_, fun i hi => ?_, h.first, h.order, fun hr => ?_, fun he => ?_⟩
    · simp [Source.take]
    · simp only [Source.take, List.getElem?_append] at hi
      split at hi
      · exact h.claimed i hi
      · next hge =>
        rw [List.getElem?_singleton] at hi
        split at hi
        · next hlast =>
          cases hinn : s.incoming.inner with
          | true =>
            rw [(h.source.1 hinn).2, List.length_nil, Nat.sub_zero] at hlast
            exact hlast
          | false => rw [hinn] at hi; cases hi
        · cases hi
    · refine h.pending ?_
      rcases hr with hr | hr
      · cases hr
      · exact (Source.claimed_take.1 hr).symm
    · simp only [Source.take] at he
      cases hp : s.incoming.producers with
      | nil =>
        rw [hp, h.source.2 ⟨hin, hp⟩] at he
        cases he
      | cons p ps =>
        rw [hp] at he
        exact h.ended (by rw [hp]; exact he)
  · cases hs

theorem Inv.readerDropped {i : Nat} (h : s.Inv) (hs : s.step (.dropIncoming i) = some s') :
    s'.Inv := by
  cases hs
  have hset : ∀ {j : Nat} {rx : Rx}, rx ≠ .gone →
      (s.incoming.producers.set i .gone)[j]? = some rx → s.incoming.producers[j]? = some rx := by
    intro j rx hrx hj
    rw [List.getElem?_set] at hj
    split at hj
    · split at hj
      · cases hj; exact absurd rfl hrx
      · cases hj
    · exact hj
  refine ⟨h.senders, ?_, fun j hj => h.claimed j (hset nofun hj), h.first, h.order, fun hr => ?_,
    fun he => h.ended (hset nofun he)⟩
  · simp only [Source.dropReader, List.set_eq_nil_iff]
    exact h.source
  · exact h.pending (hr.imp_right Source.claimed_of_dropReader)

/-- The outcomes of a poll of a producer: it has no receiver; or it takes the oldest item, waits,
or ends. -/
theorem poll_cases {i : Nat} {finish : Bool} (hs : s.step (.pollIncoming i finish) = some s') :
    (s' = s) ∨
    (s.incoming.producers[i]? = some .some ∧ ∃ x queue, s.incoming.chan.queue = x :: queue ∧
      s' =
        { s with
          incoming := { s.incoming with chan := { s.incoming.chan with queue } }
          yielded := s.yielded ++ [(i, x)] }) ∨
    (s.incoming.producers[i]? = some .some ∧ s.incoming.chan.queue = [] ∧
      s.incoming.chan.senders = 0 ∧
      s' =
        { s with
          incoming := { s.incoming with producers := s.incoming.producers.set i .none } }) := by
  obtain ⟨⟨r, src⟩, hp, rfl⟩ := Option.map_eq_some_iff.1 hs
  unfold Source.pollProduce at hp
  split at hp
  · cases hp
    exact .inl (by simp [Yielded.items])
  · next hi =>
    cases hp
    cases hq : s.incoming.chan.queue with
    | cons x queue =>
      refine .inr (.inl ⟨hi, x, queue, rfl, ?_⟩)
      simp [Chan.poll, hq, Yielded.ofPoll, Yielded.items]
    | nil =>
      by_cases hsend : s.incoming.chan.senders = 0
      · refine .inr (.inr ⟨hi, rfl, hsend, ?_⟩)
        simp [Chan.poll, hq, hsend, Yielded.ofPoll, Yielded.items]
      · refine .inl ?_
        cases finish <;> simp [Chan.poll, hq, hsend, Yielded.ofPoll, Yielded.items]
  · cases hp

theorem Inv.polled {i : Nat} {finish : Bool} (h : s.Inv)
    (hs : s.step (.pollIncoming i finish) = some s') : s'.Inv := by
  rcases poll_cases hs with rfl | ⟨hi, x, queue, hq, rfl⟩ | ⟨hi, hq, hsend, rfl⟩
  · exact h
  · have hsurf : s.yielded.map (·.2.number) ++ [x.number] ++ queue.map (·.number) = s.surfaced := by
      simp [surfaced, hq]
    obtain rfl := h.claimed i hi
    refine ⟨h.senders, h.source, h.claimed, ?_, ?_, fun hr => ?_, fun he => ?_⟩
    · exact List.forall_mem_append.2 ⟨h.first, by simp⟩
    · simp only [surfaced, List.map_append, List.map_cons, List.map_nil, hsurf]
      exact h.order
    · simp only [surfaced, List.map_append, List.map_cons, List.map_nil, hsurf]
      exact h.pending hr
    · rw [hi] at he
      cases he
  · obtain rfl := h.claimed i hi
    have hreads : s.Reads := .inr (List.mem_of_getElem? hi)
    have hnone : s.handler = false ∧ s.adopting = [] := by
      have hzero := h.senders.symm.trans hsend
      rw [Nat.add_eq_zero_iff] at hzero
      exact ⟨by simpa using hzero.1, List.eq_nil_of_length_eq_zero hzero.2⟩
    have hall := h.pending hreads
    rw [hnone.2, List.append_nil] at hall
    refine ⟨h.senders, ?_, fun j hj => ?_, h.first, h.order, fun _ => ?_, fun _ => ?_⟩
    · simp only [List.set_eq_nil_iff]
      exact h.source
    · rw [List.getElem?_set] at hj
      split at hj
      · split at hj <;> cases hj
      · exact h.claimed j hj
    · rw [hnone.2, List.append_nil]
      exact hall
    · refine ⟨hnone.1, hnone.2, ?_⟩
      simpa [surfaced, hq] using hall

/-- Every step whose task is the oldest keeps the invariant. -/
theorem Inv.step (h : s.Inv) (hC : s.Oldest a) (hs : s.step a = some s') : s'.Inv := by
  cases a with
  | dataChannel => exact h.report hs
  | adopted number label => exact h.adopt hC hs
  | dropHandler => exact h.handlerDropped hs
  | dropInner => exact h.innerDropped hs
  | incomingDataChannels => exact h.taken hs
  | pollIncoming i finish => exact h.polled hs
  | dropIncoming i => exact h.readerDropped hs

/-- After a younger task's send the channels are out of order. -/
theorem Inv.not_inOrder (h : s.Inv) (hC : ¬ s.Oldest a) (hs : s.step a = some s') :
    ¬ s'.InOrder := by
  unfold Oldest at hC
  split at hC
  · next number label =>
    obtain ⟨hr, hhead⟩ := Classical.not_imp.1 hC
    simp only [Opens.step] at hs
    split at hs
    · cases hs
      intro ho
      have hord := ho.order
      rw [adopted_reads hr] at hord
      exact not_prefix_of_younger (h.pending hr) hhead hord
    · cases hs
  · exact absurd trivial hC

/-- **The incoming stream keeps the order of the opens as long as the tasks do.** Along a run, the
first stream yields the channels in the order they were reported, each once, at every poll that
finds one queued, and, when it ends, all of them, and later streams end without yielding, exactly
when no task sends on a queue that is read while an older one still awaits its channel's label. -/
theorem in_order_iff (runtime : Bool) {s : Opens} {as : List OpenAct}
    (h : Runs.run step (start runtime) as = some s) :
    Runs.Along step InOrder (start runtime) as ↔ Runs.Meets step Oldest (start runtime) as :=
  Runs.along_iff_meets (fun _ hi => hi.inOrder) (fun _ _ _ hi hC hs => hi.step hC hs)
    (fun _ _ _ hi hC hs => hi.not_inOrder hC hs) (inv_start runtime) h

/-- Two channels whose labels come in the order of the opens. -/
theorem in_order_iff_of_two :
    Runs.Along step InOrder (start true)
      [.dataChannel, .dataChannel, .incomingDataChannels, .adopted 0 (some "a"),
        .adopted 1 (some "b"), .pollIncoming 0 false, .pollIncoming 0 false] := by
  refine (in_order_iff true rfl).2 ?_
  refine (Runs.meets_cons rfl).2 ⟨trivial, (Runs.meets_cons rfl).2 ⟨trivial, ?_⟩⟩
  refine (Runs.meets_cons rfl).2 ⟨trivial, (Runs.meets_cons rfl).2 ⟨fun _ => rfl, ?_⟩⟩
  refine (Runs.meets_cons rfl).2 ⟨fun _ => rfl, (Runs.meets_cons rfl).2 ⟨trivial, ?_⟩⟩
  exact (Runs.meets_cons rfl).2 ⟨trivial, trivial⟩

/-- The label of the second channel comes before that of the first: the stream yields the second
channel first. -/
theorem incoming_out_of_order :
    ∃ s, Runs.run step (start true)
      [.dataChannel, .dataChannel, .incomingDataChannels, .adopted 1 (some "b"),
        .adopted 0 (some "a"), .pollIncoming 0 false, .pollIncoming 0 false] = some s ∧
      s.yielded = [(0, ⟨1, ⟨"b"⟩⟩), (0, ⟨0, ⟨"a"⟩⟩)] ∧ ¬ s.InOrder := by
  refine ⟨_, rfl, rfl, fun h => ?_⟩
  have hord : [1, 0] <+: [0, 1] := h.order
  revert hord
  decide

end Opens

/-! ## The incoming side of a connection -/

/-- The queue of the images of the items, with the same producers. -/
def Source.map {α β : Type} (f : α → β) (s : Source α) : Source β :=
  { chan := s.chan.map f, inner := s.inner, producers := s.producers }

theorem Yielded.ofPoll_map {α β : Type} (f : α → β) (finish : Bool) (p : Poll α) :
    Yielded.ofPoll finish (p.map f) = (Yielded.ofPoll finish p).map f := by
  cases p with
  | pending => cases finish <;> rfl
  | ended | item => rfl

theorem Source.map_send {α β : Type} (f : α → β) (s : Source α) (x : α) :
    (s.map f).send (f x) = (s.send x).map f := by
  have hmap : (s.chan.map f).send (f x) = (s.chan.send x).map f := by
    simp [Chan.send, Chan.map]
  by_cases hr : s.inner = true ∨ s.Claimed
  · rw [send, send, if_pos hr]
    exact (if_pos hr).trans (by rw [map, map, hmap])
  · rw [send, send, if_neg hr]
    exact if_neg hr

theorem Source.map_pollProduce {α β : Type} (f : α → β) (s : Source α) (i : Nat) (finish : Bool) :
    (s.map f).pollProduce i finish =
      (s.pollProduce i finish).map fun p => (p.1.map f, p.2.map f) := by
  have hprod : (s.map f).producers = s.producers := rfl
  rw [pollProduce, pollProduce, hprod]
  cases s.producers[i]? with
  | none => rfl
  | some rx =>
    cases rx with
    | none | gone => rfl
    | some =>
      have hpoll := s.chan.map_poll f
      simp only [map, hpoll, Yielded.ofPoll_map, Option.map_some]
      cases s.chan.poll.1 <;> rfl

namespace Opens

/-- `o` is the incoming side of the connection `s`, with its channels numbered; what the streams
have yielded is in the resource table. -/
structure Shows (o : Opens) (s : Streams) : Prop where
  inner : o.inner = s.inner
  handler : o.handler = s.handler
  adopting : o.adopting.length = s.adopting
  incoming : s.incoming = o.incoming.map OpenedChannel.channel
  table : s.table = o.yielded.map (·.2.channel)

variable {o : Opens} {s s' : Streams} {x : StreamAct}

theorem shows_start (runtime : Bool) : (start runtime).Shows (.start runtime) := by
  refine ⟨rfl, rfl, rfl, ?_, rfl⟩
  cases runtime <;> rfl

/-- A task that ends may be that of any channel whose label is awaited. -/
theorem Shows.adopted {number : Nat} (h : o.Shows s) (hmem : number ∈ o.adopting)
    (label : Option String) : (o.adopted number label).Shows (s.adopted label) := by
  refine ⟨h.inner, h.handler, ?_, ?_, h.table⟩
  · show (o.adopting.erase number).length = s.adopting - 1
    rw [List.length_erase_of_mem hmem, h.adopting]
  · have hsend := Source.map_send OpenedChannel.channel o.incoming
      { number, channel := { label := label.getD "" } }
    simp only [Streams.adopted, Opens.adopted, h.incoming, hsend]
    rfl

theorem Shows.dropHandler (h : o.Shows s) (hh : s.handler = true) :
    ∃ o', o.step .dropHandler = some o' ∧ o'.Shows s.dropHandler := by
  refine ⟨_, if_pos (h.handler.trans hh), h.inner, rfl, h.adopting, ?_, h.table⟩
  simp only [Streams.dropHandler, h.incoming]
  rfl

theorem Shows.polled {i : Nat} {finish : Bool} (h : o.Shows s)
    (hs : s.step (.pollIncoming i finish) = some s') :
    ∃ o', o.step (.pollIncoming i finish) = some o' ∧ o'.Shows s' := by
  obtain ⟨p, hp, rfl⟩ := Option.map_eq_some_iff.1 hs
  obtain ⟨q, hq, rfl⟩ := Option.map_eq_some_iff.1 hp
  rw [h.incoming, Source.map_pollProduce] at hq
  obtain ⟨⟨r, src⟩, hr, rfl⟩ := Option.map_eq_some_iff.1 hq
  have ho : o.step (.pollIncoming i finish) =
      some { o with incoming := src, yielded := o.yielded ++ r.items.map (i, ·) } := by
    simp only [Opens.step, hr, Option.map_some]
  refine ⟨_, ho, h.inner, h.handler, h.adopting, ?_, ?_⟩
  · cases r <;> rfl
  · cases r with
    | pending | cancelled | dropped => simpa [Yielded.map, Yielded.items] using h.table
    | completed c => simp [Yielded.map, Yielded.items, h.table]

/-- A step of the connection is at most one of its incoming side. -/
theorem Shows.step (h : o.Shows s) (ha : s.Accounted) (hs : s.step x = some s') :
    o.Shows s' ∨ ∃ a o', o.step a = some o' ∧ o'.Shows s' := by
  have hsame : ∀ {s' : Streams}, s'.inner = s.inner → s'.handler = s.handler →
      s'.adopting = s.adopting → s'.incoming = s.incoming → s'.table = s.table → o.Shows s' :=
    fun h₁ h₂ h₃ h₄ h₅ =>
      ⟨h.inner.trans h₁.symm, h.handler.trans h₂.symm, h.adopting.trans h₃.symm,
        h₄.trans h.incoming, h₅.trans h.table⟩
  cases x with
  | built ok =>
    simp only [Streams.step] at hs
    split at hs
    · next hb =>
      split at hs
      · cases hs; exact .inl (hsame rfl rfl rfl rfl rfl)
      · cases hs
        obtain ⟨o', ho, hshow⟩ := h.dropHandler (ha.building hb)
        exact .inr ⟨_, o', ho, hshow.inner, hshow.handler, hshow.adopting, hshow.incoming,
          hshow.table⟩
    · cases hs
  | borrow | release | connectionState | close | localIceCandidates =>
    simp only [Streams.step] at hs
    split at hs
    · cases hs; exact .inl (hsame rfl rfl rfl rfl rfl)
    · cases hs
  | iceCandidate init =>
    simp only [Streams.step] at hs
    split at hs
    · cases init with
      | none => cases hs; exact .inl h
      | some candidate =>
        cases hs
        split
        · exact .inl (hsame rfl rfl rfl rfl rfl)
        · exact .inl h
    · cases hs
  | gatheringComplete =>
    simp only [Streams.step, Streams.gatheringComplete] at hs
    split at hs
    · cases hs
      split
      · exact .inl (hsame rfl rfl rfl rfl rfl)
      · exact .inl h
    · cases hs
  | dropInner =>
    simp only [Streams.step] at hs
    split at hs
    · next hi =>
      cases hs
      refine .inr ⟨.dropInner, _, if_pos (h.inner.trans hi), rfl, h.handler, h.adopting, ?_,
        h.table⟩
      simp only [h.incoming]
      rfl
    · cases hs
  | dropHandler =>
    simp only [Streams.step] at hs
    split at hs
    · next hg => cases hs; exact .inr ⟨_, h.dropHandler hg.1⟩
    · cases hs
  | dataChannel =>
    simp only [Streams.step] at hs
    split at hs
    · next hh =>
      cases hs
      refine .inr ⟨.dataChannel, _, if_pos (h.handler.trans hh), h.inner, h.handler, ?_, ?_,
        h.table⟩
      · rw [List.length_append, h.adopting]
        rfl
      · simp only [h.incoming]
        rfl
    · cases hs
  | adopted label =>
    simp only [Streams.step] at hs
    split at hs
    · next hpos =>
      cases hs
      obtain ⟨number, hmem⟩ := List.exists_mem_of_length_pos (h.adopting ▸ hpos)
      exact .inr ⟨.adopted number label, _, if_pos hmem, h.adopted hmem label⟩
    · cases hs
  | incomingDataChannels =>
    simp only [Streams.step] at hs
    split at hs
    · next hi =>
      cases hs
      refine .inr ⟨.incomingDataChannels, _, if_pos (h.inner.trans hi), h.inner, h.handler,
        h.adopting, ?_, h.table⟩
      simp only [h.incoming]
      rfl
    · cases hs
  | pollCandidates i finish =>
    obtain ⟨p, -, rfl⟩ := Option.map_eq_some_iff.1 hs
    exact .inl (hsame rfl rfl rfl rfl rfl)
  | pollIncoming i finish => exact .inr ⟨_, h.polled hs⟩
  | dropCandidates i => cases hs; exact .inl (hsame rfl rfl rfl rfl rfl)
  | dropIncoming i =>
    cases hs
    refine .inr ⟨.dropIncoming i, _, rfl, h.inner, h.handler, h.adopting, ?_, h.table⟩
    simp only [h.incoming]
    rfl

/-- Every run of a connection is, on its incoming side, a run of `Opens`. -/
theorem shows_run (runtime : Bool) {xs : List StreamAct}
    (h : Runs.run Streams.step (.start runtime) xs = some s) :
    ∃ as o, Runs.run step (start runtime) as = some o ∧ o.Shows s := by
  have hstep : ∀ (s : Streams) (o : Opens) (x : StreamAct) (s' : Streams),
      o.Shows s ∧ s.Accounted → s.step x = some s' →
      ∃ as o', Runs.run step o as = some o' ∧ o'.Shows s' ∧ s'.Accounted := by
    intro s o x s' hi hs
    obtain ⟨hshow, hacc⟩ := hi
    obtain hsame | ⟨a, o', ho, hnext⟩ := hshow.step hacc hs
    · exact ⟨[], o, rfl, hsame, hacc.step hs⟩
    · exact ⟨[a], o', Runs.run_cons_eq_some.2 ⟨o', ho, rfl⟩, hnext, hacc.step hs⟩
  obtain ⟨as, o, hrun, hshow, -⟩ :=
    Runs.simulates hstep ⟨shows_start runtime, Streams.accounted_start runtime⟩ h
  exact ⟨as, o, hrun, hshow⟩

end Opens

end WebrtcDatachannels.Host
