import Mathlib.Data.List.Chain
import WebrtcDatachannels.Guest.Drain
import WebrtcDatachannels.Guest.Wakeup

/-!
# Flushing before the close

`Runtime::pump` is suspended at each `socket.send` of its two flushes and at its select; from one
suspension to the next it runs alone. A `Driver` is a connection whose pump is cut there and nowhere
else, with the log of what was asked of the core and the socket. Between two suspensions the core
answers `poll_transmit` as it likes; what it answers is an argument of the step. A local close sets
a flag at any time, and the pump acts on it in the block that follows the `None` of its first flush,
so in the log the core's `close` comes right after a `None` (`Before`), and once (`Driver.Inv`). The
log has a `close` for each call of it that a step makes, whoever makes it (`closings`).
-/

namespace WebrtcDatachannels.Guest

variable {Datagram : Type}

/-- What is asked of the core or the socket: a message is handed over, with the answer; a datagram
is polled; it is passed to `socket.send`; the core is closed. `beginClose` marks a local close. -/
inductive Request (Datagram : Type) where
  | handed (send : CoreSend) (answer : Except String Unit)
  | polled (transmit : Option Datagram)
  | passed (datagram : Datagram)
  | beginClose
  | closed

/-- Where the pump is suspended: not polled yet, at a `socket.send` of the first or the second flush
of a round, at the select, or returned. -/
inductive Suspended (Datagram : Type) where
  | start
  | first (datagram : Datagram)
  | second (datagram : Datagram)
  | parked
  | exited

/-- A connection whose pump stands at a suspension point, with the log of requests. -/
structure Driver (Datagram : Type) where
  conn : Conn
  pump : Suspended Datagram
  log : List (Request Datagram)

/-- The executor polls the pump, whose flushes get these answers from `poll_transmit`, or anything
else happens. -/
inductive DriverAct (Datagram : Type) where
  | pump (now : Instant) (first second : Option Datagram)
  | act (a : Act)

/-- The requests of a step that is not the pump's: the message it hands to the core, or its local
close. -/
def requests (c c' : Conn) : Act → List (Request Datagram)
  | .poll _ _ answer =>
    (c'.shared.peer.sends.drop c.shared.peer.sends.length).map (.handed · answer)
  | .close _ => if c.shared.dead then [] else [.beginClose]
  | _ => []

/-- The calls of the core's `close` in a step. -/
def closings (c c' : Conn) : List (Request Datagram) :=
  List.replicate (c'.shared.peer.closes - c.shared.peer.closes) .closed

/-- The act is a block of the pump. -/
def Act.ofPump : Act → Bool
  | .turn _ | .finish => true
  | _ => false

namespace Driver

/-- A connection with its pump, or one that failed to bind and has none. -/
def Start (v : Driver Datagram) : Prop :=
  v.log = [] ∧ (v.conn = .bound ∧ v.pump = .start ∨ v.conn = .unbound ∧ v.pump = .exited)

/-- The pump goes on in its second flush: it is suspended at a send, or the flush is over and it
returns or parks. Source: `flush`, `Runtime::pump`. -/
def flushSecond (v : Driver Datagram) : Option Datagram → Driver Datagram
  | some d => { v with pump := .second d, log := v.log ++ [.polled (some d), .passed d] }
  | none =>
    if v.conn.pump = .finishing then
      let conn := { v.conn.setShared v.conn.shared.finish with pump := .exited }
      { conn, pump := .exited, log := v.log ++ .polled none :: closings v.conn conn }
    else { v with pump := .parked, log := v.log ++ [.polled none] }

/-- The pump goes on in its first flush: it is suspended at a send, or the flush is over and its
block and its second flush follow. Source: `flush`, `Runtime::pump`. -/
def flushFirst (limit : Nat) (v : Driver Datagram) (now : Instant) (second : Option Datagram) :
    Option Datagram → Driver Datagram
  | some d => { v with pump := .first d, log := v.log ++ [.polled (some d), .passed d] }
  | none =>
    flushSecond
      { v with
        conn := v.conn.turn limit now
        log := v.log ++ .polled none :: closings v.conn (v.conn.turn limit now) }
      second

/-- One step. -/
def step (limit : Nat) (v : Driver Datagram) : DriverAct Datagram → Option (Driver Datagram)
  | .pump now first second =>
    match v.pump with
    | .start | .first _ | .parked => some (v.flushFirst limit now second first)
    | .second _ => some (v.flushSecond second)
    | .exited => none
  | .act a =>
    if a.ofPump then none
    else
      (v.conn.step limit a).map fun c =>
        { v with conn := c, log := v.log ++ (requests v.conn c a ++ closings v.conn c) }

/-! ## The driver runs the connection -/

/-- The pump's suspension and the connection's record of where the pump stands. -/
def Stands (v : Driver Datagram) : Prop :=
  match v.pump with
  | .start | .first _ | .parked => v.conn.pump = .running
  | .second _ => v.conn.pump ≠ .exited
  | .exited => True

variable {limit : Nat} {v v' : Driver Datagram} {x : DriverAct Datagram}
  {xs : List (DriverAct Datagram)}

/-- Only the pump's blocks move the pump. -/
theorem step_pump {c c' : Conn} {a : Act} (ha : a.ofPump = false)
    (h : c.step limit a = some c') : c'.pump = c.pump := by
  cases a with
  | turn | finish => cases ha
  | core | close | incomingDataChannels | waitConnected => cases h; rfl
  | createDataChannel label answer =>
    cases answer with
    | error e => cases h; rfl
    | ok id =>
      simp only [Conn.step, Conn.createDataChannel] at h
      split at h
      · cases h; rfl
      · cases h
  | send | sendViaStream | receive =>
    simp only [Conn.step] at h
    split at h
    · cases h; rfl
    · cases h
  | receiveViaStream hd =>
    simp only [Conn.step] at h
    split at h
    · cases h
      unfold Conn.receiveViaStream
      dsimp only
      split <;> rfl
    · cases h
  | poll k now answer =>
    simp only [Conn.step, Option.map_eq_some_iff] at h
    obtain ⟨p, -, rfl⟩ := h
    rfl
  | io k io =>
    simp only [Conn.step, Option.bind_eq_some_iff, Option.map_eq_some_iff] at h
    obtain ⟨t, -, t', -, rfl⟩ := h
    rfl

/-- The second flush of a round ends in at most the connection's exit. -/
theorem flushSecond_conn (hs : v.conn.pump ≠ .exited) (o : Option Datagram) :
    (∃ as, Runs.run (Conn.step limit) v.conn as = some (v.flushSecond o).conn) ∧
      (v.flushSecond o).Stands := by
  cases o with
  | some d => exact ⟨⟨[], rfl⟩, hs⟩
  | none =>
    simp only [flushSecond]
    split
    · next hf => exact ⟨⟨[.finish], by simp [Runs.run_cons, Conn.step, hf]⟩, trivial⟩
    · next hf =>
      refine ⟨⟨[], rfl⟩, ?_⟩
      show v.conn.pump = .running
      cases hp : v.conn.pump with
      | running => rfl
      | finishing => exact absurd hp hf
      | exited => exact absurd hp hs

/-- A round's first flush ends in the connection's block. -/
theorem flushFirst_conn (hs : v.conn.pump = .running) (now : Instant) (o o' : Option Datagram) :
    (∃ as, Runs.run (Conn.step limit) v.conn as = some (v.flushFirst limit now o' o).conn) ∧
      (v.flushFirst limit now o' o).Stands := by
  cases o with
  | some d => exact ⟨⟨[], rfl⟩, hs⟩
  | none =>
    have hturn : v.conn.step limit (.turn now) = some (v.conn.turn limit now) := by
      simp [Conn.step, hs]
    have hne : (v.conn.turn limit now).pump ≠ .exited := by
      unfold Conn.turn
      dsimp only
      split
      · intro hp; cases hp
      · intro hp; cases hp
    obtain ⟨⟨as, has⟩, hst⟩ := @flushSecond_conn Datagram limit
      { v with
        conn := v.conn.turn limit now
        log := v.log ++ .polled none :: closings v.conn (v.conn.turn limit now) }
      hne o'
    exact ⟨⟨.turn now :: as, Runs.run_cons_eq_some.2 ⟨_, hturn, has⟩⟩, hst⟩

/-- A step is a run of the connection. -/
theorem step_conn (hs : v.Stands) (h : v.step limit x = some v') :
    (∃ as, Runs.run (Conn.step limit) v.conn as = some v'.conn) ∧ v'.Stands := by
  cases x with
  | pump now first second =>
    simp only [step] at h
    split at h
    · next hp => cases h; exact flushFirst_conn (by simpa [Stands, hp] using hs) now first second
    · next hp => cases h; exact flushFirst_conn (by simpa [Stands, hp] using hs) now first second
    · next hp => cases h; exact flushFirst_conn (by simpa [Stands, hp] using hs) now first second
    · next hp => cases h; exact flushSecond_conn (by simpa [Stands, hp] using hs) second
    · cases h
  | act a =>
    simp only [step] at h
    split at h
    · cases h
    · next ha =>
      obtain ⟨c, hc, rfl⟩ := Option.map_eq_some_iff.1 h
      refine ⟨⟨[a], Runs.run_cons_eq_some.2 ⟨c, hc, rfl⟩⟩, ?_⟩
      have hp := step_pump (eq_false_of_ne_true ha) hc
      unfold Stands at hs ⊢
      simp only [hp]
      exact hs

theorem Start.stands (h : v.Start) : v.Stands := by
  rcases h.2 with ⟨hc, hp⟩ | ⟨hc, hp⟩
  · simp [Stands, hc, hp, Conn.bound]
  · simp [Stands, hp]

/-- Every run of a driver is a run of its connection. -/
theorem run_conn (hs : v.Start) (h : Runs.run (step limit) v xs = some v') :
    ∃ as, Runs.run (Conn.step limit) v.conn as = some v'.conn := by
  have hstep : ∀ (v : Driver Datagram) c x v', (v.Stands ∧ v.conn = c) → step limit v x = some v' →
      ∃ as c', Runs.run (Conn.step limit) c as = some c' ∧ (v'.Stands ∧ v'.conn = c') := by
    rintro v _ x v' ⟨hs, rfl⟩ h
    obtain ⟨⟨as, has⟩, hs'⟩ := step_conn hs h
    exact ⟨as, _, has, hs', rfl⟩
  obtain ⟨as, _, has, -, rfl⟩ := Runs.simulates hstep ⟨hs.stands, rfl⟩ h
  exact ⟨as, has⟩

end Driver

/-! ## The log -/

/-- The request is the core's close. -/
def Request.isClosed : Request Datagram → Bool
  | .closed => true
  | _ => false

/-- Of two requests next to each other, a close comes after an empty poll, and a datagram that was
polled is passed to the socket. -/
def Before (a b : Request Datagram) : Prop :=
  (b = .closed → a = .polled none) ∧ ∀ d, a = .polled (some d) → b = .passed d

/-- A log with its neighbours in order that does not start with a close or end with a datagram in
hand. -/
structure Ordered (l : List (Request Datagram)) : Prop where
  chain : l.IsChain Before
  head : l.head? ≠ some .closed
  last : ∀ d, l.getLast? ≠ some (.polled (some d))

section
variable {l l' : List (Request Datagram)}

theorem Ordered.append (h : Ordered l) (h' : Ordered l') : Ordered (l ++ l') := by
  refine ⟨h.chain.append h'.chain fun x hx y hy => ⟨?_, ?_⟩, ?_, fun d => ?_⟩
  · rintro rfl
    exact absurd hy h'.head
  · rintro d rfl
    exact absurd hx (h.last d)
  · rw [List.head?_append]
    cases hl : l.head? with
    | none => exact h'.head
    | some r => rw [← hl]; simpa [hl] using h.head
  · rw [List.getLast?_append]
    cases hl : l'.getLast? with
    | none => exact h.last d
    | some r => rw [← hl]; simpa [hl] using h'.last d

/-- Requests that are neither polls nor closes are in order. -/
theorem ordered_of_plain (h : ∀ r ∈ l, r ≠ .closed ∧ ∀ t, r ≠ .polled t) : Ordered l := by
  induction l with
  | nil => exact ⟨.nil, nofun, nofun⟩
  | cons r l ih =>
    obtain ⟨hr, hl⟩ := List.forall_mem_cons.1 h
    have hone : Ordered [r] := ⟨.singleton r, by simpa using hr.1, by simpa using fun d => hr.2 _⟩
    exact hone.append (ih hl)

theorem ordered_flush (d : Datagram) :
    Ordered [Request.polled (some d), .passed d] := by
  refine ⟨?_, by simp, by simp⟩
  simp [Before]

theorem ordered_block (closes : Bool) :
    Ordered (.polled none :: if closes then [.closed] else [] : List (Request Datagram)) := by
  cases closes <;> refine ⟨?_, by simp, by simp⟩ <;> simp [Before]

/-- Before a close in an ordered log stands an empty poll. -/
theorem Ordered.polled_before (h : Ordered (l ++ .closed :: l')) :
    ∃ flushed, l = flushed ++ [.polled none] := by
  obtain ⟨-, -, hlink⟩ := List.isChain_append.1 h.chain
  rcases List.eq_nil_or_concat l with rfl | ⟨flushed, r, rfl⟩
  · exact absurd rfl h.head
  · have hr : Before r .closed := hlink r (by simp) .closed rfl
    rw [hr.1 rfl]
    exact ⟨flushed, by simp⟩

/-- After a polled datagram in an ordered log it is passed to the socket. -/
theorem Ordered.passed_after {d : Datagram} (h : Ordered (l ++ .polled (some d) :: l')) :
    ∃ rest, l' = .passed d :: rest := by
  obtain ⟨-, hchain, -⟩ := List.isChain_append.1 h.chain
  cases l' with
  | nil => exact absurd (by simp) (h.last d)
  | cons r rest =>
    have hr : Before (.polled (some d)) r := (List.isChain_cons_cons.1 hchain).1
    rw [hr.2 d rfl]
    exact ⟨rest, rfl⟩

/-- What stands in an ordered log between a send and a close ends with an empty poll, and each
datagram that is polled there is passed to the socket. -/
theorem Ordered.flushed {rest post : List (Request Datagram)} {m : CoreSend}
    (h : Ordered (l ++ [.handed m (.ok ())] ++ rest ++ .closed :: post)) :
    ∃ flushed, rest = flushed ++ [.polled none] ∧
      ∀ l' d after, flushed = l' ++ .polled (some d) :: after → ∃ r, after = .passed d :: r := by
  obtain ⟨flushed, rfl⟩ : ∃ flushed, rest = flushed ++ [.polled none] := by
    obtain ⟨before, hbefore⟩ := h.polled_before
    rcases List.eq_nil_or_concat rest with rfl | ⟨flushed, r, rfl⟩
    · rw [List.append_nil] at hbefore
      exact absurd (List.append_inj_right' hbefore rfl) (by simp)
    · rw [List.concat_eq_append, ← List.append_assoc] at hbefore
      rw [(List.cons.inj (List.append_inj_right' hbefore rfl)).1]
      exact ⟨flushed, List.concat_eq_append ..⟩
  refine ⟨flushed, rfl, ?_⟩
  rintro l' d after rfl
  have hmid : Ordered ((l ++ .handed m (.ok ()) :: l') ++
      .polled (some d) :: (after ++ .polled none :: .closed :: post)) := by
    simpa using h
  obtain ⟨r, hr⟩ := hmid.passed_after
  cases after with
  | nil => cases hr
  | cons y after => exact ⟨after, by rw [(List.cons.inj hr).1]⟩

/-- A request of a log in two parts stands in the first part, or after it in the second. -/
theorem split_cases {pre post : List (Request Datagram)} {r : Request Datagram}
    (h : l ++ l' = pre ++ r :: post) :
    (∃ post', l = pre ++ r :: post') ∨ ∃ rest, pre = l ++ rest ∧ l' = rest ++ r :: post := by
  rcases List.append_eq_append_iff.1 h with ⟨m, hpre, hl'⟩ | ⟨m, hl, hm⟩
  · exact .inr ⟨m, hpre, hl'⟩
  · cases m with
    | nil => exact .inr ⟨[], by rw [hl, List.append_nil, List.append_nil], hm.symm⟩
    | cons r' m =>
      obtain ⟨rfl, -⟩ := List.cons.inj hm
      exact .inl ⟨m, hl⟩

/-- What is appended to a log without a close leaves what stands before its closes. -/
theorem split_append {pre post : List (Request Datagram)} (hl' : .closed ∉ l')
    (h : l ++ l' = pre ++ .closed :: post) : ∃ post', l = pre ++ .closed :: post' := by
  rcases split_cases h with hl | ⟨rest, -, hrest⟩
  · exact hl
  · exact absurd (by simp [hrest]) hl'

/-- A part of a log without a close stands before its closes. -/
theorem prefix_of_split {pre post : List (Request Datagram)} (hl : .closed ∉ l)
    (h : l ++ l' = pre ++ .closed :: post) : ∃ rest, pre = l ++ rest := by
  rcases split_cases h with ⟨post', hpost⟩ | ⟨rest, hrest, -⟩
  · exact absurd (by simp [hpost]) hl
  · exact ⟨rest, hrest⟩

end

/-! ## The invariant -/

section
variable {limit : Nat} {c c' : Conn} {a : Act}

/-- The pump's block performs the close that is requested, and no other. -/
theorem turn_close (limit : Nat) (s : Shared) :
    (s.turn limit).closeRequested = false ∧
      (s.turn limit).peer.closes = s.peer.closes + if s.closeRequested then 1 else 0 := by
  have hdrain : s.drain.closeRequested = false ∧
      s.drain.peer.closes = s.peer.closes + if s.closeRequested then 1 else 0 := by
    cases h : s.closeRequested <;>
      simp [Shared.drain, Shared.performClose, h, SansIoPeer.close, SansIoPeer.drainEvents]
  obtain ⟨-, -, hreq, hcloses⟩ := applyEvents_queues limit s.drain s.drained
  rcases turn_eq limit s with he | he <;> rw [he]
  · exact ⟨hreq.trans hdrain.1, hcloses.trans hdrain.2⟩
  · exact ⟨hreq.trans hdrain.1, hcloses.trans hdrain.2⟩

/-- A step that is neither the pump's nor a local close leaves the core open and the request as it
was. -/
theorem step_open (ha : a.ofPump = false) (hclose : ∀ now, a ≠ .close now)
    (h : c.step limit a = some c') :
    c'.shared.peer.closes = c.shared.peer.closes ∧
      c'.shared.closeRequested = c.shared.closeRequested := by
  cases a with
  | turn | finish => cases ha
  | close now => exact absurd rfl (hclose now)
  | core | incomingDataChannels | waitConnected => cases h; exact ⟨rfl, rfl⟩
  | createDataChannel label answer =>
    cases answer with
    | error e => cases h; exact ⟨rfl, rfl⟩
    | ok id =>
      obtain ⟨-, h⟩ := Option.ite_none_right_eq_some.1 h
      cases h
      exact ⟨rfl, rfl⟩
  | send | sendViaStream | receive =>
    obtain ⟨-, h⟩ := Option.ite_none_right_eq_some.1 h
    cases h
    exact ⟨rfl, rfl⟩
  | receiveViaStream hd =>
    obtain ⟨-, h⟩ := Option.ite_none_right_eq_some.1 h
    cases h
    unfold Conn.receiveViaStream
    rcases receiveViaStream_cases c.shared hd.id with ⟨e, hr⟩ | ⟨ch, -, -, -, hr⟩ | ⟨-, -, hr⟩
    all_goals simp only [hr]; exact ⟨rfl, rfl⟩
  | poll k now answer =>
    obtain ⟨p, hp, rfl⟩ := Option.map_eq_some_iff.1 h
    obtain ⟨t, -, hp⟩ := Option.bind_eq_some_iff.1 hp
    obtain ⟨hreq, hcloses, -⟩ := (t.poll_frame hp).core
    exact ⟨hcloses, hreq⟩
  | io k io =>
    obtain ⟨t, -, h⟩ := Option.bind_eq_some_iff.1 h
    obtain ⟨t', -, rfl⟩ := Option.map_eq_some_iff.1 h
    exact ⟨rfl, rfl⟩

/-- A local close requests the close of the core, unless the connection is dead. -/
theorem beginClose_close (s : Shared) (now : Instant) :
    (s.beginClose now).peer.closes = s.peer.closes ∧
      (s.dead = true ∧ (s.beginClose now).closeRequested = s.closeRequested ∨
        s.dead = false ∧ (s.beginClose now).dead = true ∧
          (s.beginClose now).closeRequested = true) := by
  by_cases hd : s.dead = true
  · have hd' : (s.closed || s.failed) = true := hd
    rw [Shared.beginClose, if_pos hd']
    exact ⟨rfl, .inl ⟨hd, rfl⟩⟩
  · have hd' : ¬ (s.closed || s.failed) = true := hd
    rw [Shared.beginClose, if_neg hd']
    exact ⟨rfl, .inr ⟨eq_false_of_ne_true hd, rfl, rfl⟩⟩

/-- A step that is not the pump's does not close the core, and requests it only as a local close
that takes effect. -/
theorem step_close (ha : a.ofPump = false) (h : c.step limit a = some c') :
    c'.shared.peer.closes = c.shared.peer.closes ∧
      ((∀ now, a = .close now → c.shared.dead = true) ∧
          c'.shared.closeRequested = c.shared.closeRequested ∨
        (∃ now, a = .close now) ∧ c.shared.dead = false ∧ c'.shared.dead = true ∧
          c'.shared.closeRequested = true) := by
  by_cases hclose : ∃ now, a = .close now
  · obtain ⟨now, rfl⟩ := hclose
    cases h
    obtain ⟨hcloses, ⟨hd, hreq⟩ | ⟨hlive, hd, hreq⟩⟩ := beginClose_close c.shared now
    · exact ⟨hcloses, .inl ⟨fun _ _ => hd, hreq⟩⟩
    · exact ⟨hcloses, .inr ⟨⟨now, rfl⟩, hlive, hd, hreq⟩⟩
  · have hne : ∀ now, a ≠ .close now := fun now he => hclose ⟨now, he⟩
    obtain ⟨hcloses, hreq⟩ := step_open ha hne h
    exact ⟨hcloses, .inl ⟨fun now he => absurd he (hne now), hreq⟩⟩

/-- A step that does not close the core adds no close to the log. -/
theorem closings_of_same (h : c'.shared.peer.closes = c.shared.peer.closes) :
    (closings c c' : List (Request Datagram)) = [] := by
  rw [closings, h, Nat.sub_self]
  rfl

/-- The pump's block adds a close to the log when one is requested. -/
theorem closings_turn (c : Conn) (now : Instant) :
    (closings c (c.turn limit now) : List (Request Datagram)) =
      if c.shared.closeRequested then [.closed] else [] := by
  have hcloses : (c.turn limit now).shared.peer.closes =
      c.shared.peer.closes + if c.shared.closeRequested then 1 else 0 :=
    (turn_close limit c.shared).2
  rw [closings, hcloses, Nat.add_sub_cancel_left]
  split <;> rfl

/-- No step brings a dead connection back. -/
theorem step_dead (h : c.step limit a = some c') (hd : c.shared.dead = true) :
    c'.shared.dead = true :=
  (Conn.step_effect h).flagsKept.dead hd

/-- The requests of a step that is not the pump's are messages and local closes. -/
theorem requests_plain (c c' : Conn) (a : Act) :
    ∀ r ∈ (requests c c' a : List (Request Datagram)), r ≠ .closed ∧ ∀ t, r ≠ .polled t := by
  intro r hr
  cases a with
  | poll k now answer =>
    obtain ⟨send, -, rfl⟩ := List.mem_map.1 hr
    exact ⟨nofun, nofun⟩
  | close now =>
    simp only [requests] at hr
    split at hr
    · cases hr
    · obtain rfl := List.mem_singleton.1 hr
      exact ⟨nofun, nofun⟩
  | _ => cases hr

end

/-! ## Accepted messages -/

/-- The poll that took a task from `t` to `t'` returned `Ok` for the message `m`. -/
def Task.SentOk (m : CoreSend) : Task → Task → Prop
  | .send h message (.pending _), .send _ _ (.returned (.ok ())) => m = ⟨h.id, message⟩
  | .sendViaStream h sent (.opening _ message _), .sendViaStream _ sent' _ =>
    sent' = sent + 1 ∧ m = ⟨h.id, message⟩
  | _, _ => False

theorem Task.not_sentOk_self (m : CoreSend) (t : Task) : ¬ t.SentOk m t := by
  intro h
  cases t with
  | send hd message call => cases call <;> exact h
  | sendViaStream hd sent stage =>
    cases stage with
    | opening status message seen => exact absurd h.1 (Nat.ne_of_lt (Nat.lt_succ_self sent))
    | _ => exact h
  | _ => exact h

/-- A pass of `when_open` that handed its message over with success. -/
theorem whenOpen_succeeded {s : Shared} {id : RTCDataChannelId} {message : Message}
    {answer : Except String Unit}
    (h : (whenOpen s id (handOver id message answer)).1 = .ret (.ok ())) :
    channelState s id = .open ∧ answer = .ok () ∧
      (whenOpen s id (handOver id message answer)).2.peer.sends =
        s.peer.sends ++ [⟨id, message⟩] := by
  unfold whenOpen at h ⊢
  cases hc : channelState s id with
  | «open» =>
    simp only [hc] at h ⊢
    cases answer with
    | ok u => exact ⟨trivial, rfl, rfl⟩
    | error e => cases h
  | opening => simp only [hc] at h; cases h
  | closed => simp only [hc] at h; cases h

/-- A poll that returned `Ok` for a message handed it to the core on an open channel. -/
theorem Task.poll_sentOk {s : Shared} {t : Task} {k : TaskId} {now : Instant}
    {answer : Except String Unit} {p : Polled} {m : CoreSend}
    (h : t.poll s k now answer = some p) (hm : t.SentOk m p.task) :
    channelState s m.id = .open ∧ answer = .ok () ∧
      p.shared.peer.sends = s.peer.sends ++ [m] := by
  unfold Task.poll at h
  split at h
  · next hd message seen =>
    split at h
    · cases h
      cases hv : (whenOpen s hd.id (handOver hd.id message answer)).1 with
      | wait seen' => simp only [hv, Verdict.call, SentOk] at hm
      | ret r =>
        cases r with
        | error e => simp only [hv, Verdict.call, SentOk] at hm
        | ok u =>
          simp only [hv, Verdict.call, SentOk] at hm
          subst hm
          exact whenOpen_succeeded hv
    · cases h
  · next hd sent status message seen =>
    split at h
    · cases h
      obtain ⟨hsent, rfl⟩ := hm
      cases hv : (whenOpen s hd.id (handOver hd.id message answer)).1 with
      | wait seen' => simp [hv, Verdict.succeeded] at hsent
      | ret r =>
        cases r with
        | error e => simp [hv, Verdict.succeeded] at hsent
        | ok u => exact whenOpen_succeeded hv
    · cases h
  · split at h
    · cases h; cases hm
    · cases h
  · split at h
    · simp only at h
      split at h <;> cases h <;> cases hm
    · cases h
  · split at h
    · simp only at h
      split at h
      · cases h; cases hm
      · split at h <;> cases h <;> cases hm
    · cases h
  · split at h
    · cases h; cases hm
    · cases h
  · cases h

/-- A stream operation sends nothing. -/
theorem Task.advance_not_sentOk {t t' : Task} {io : Io} {m : CoreSend}
    (h : t.advance io = some t') : ¬ t.SentOk m t' := by
  intro hm
  unfold SentOk at hm
  split at hm
  · cases h
  · cases h
  · exact hm

/-- Only a poll of a task makes it succeed. -/
theorem step_sentOk {limit : Nat} {c c' : Conn} {a : Act} {k : TaskId} {t t' : Task}
    {m : CoreSend} (h : c.step limit a = some c') (hk : c.tasks[k]? = some t)
    (hk' : c'.tasks[k]? = some t') (hm : t.SentOk m t') :
    channelState c.shared m.id = .open ∧ ∃ now, a = .poll k now (.ok ()) ∧
      c'.shared.peer.sends = c.shared.peer.sends ++ [m] := by
  have hmoved : (∀ now answer, a ≠ .poll k now answer) → (∀ io, a ≠ .io k io) → False := by
    intro hpoll hio
    obtain rfl : t = t' :=
      Option.some.inj ((Conn.step_keeps h hk hpoll hio).symm.trans hk')
    exact Task.not_sentOk_self m t hm
  cases a with
  | poll k₀ now answer =>
    by_cases he : k₀ = k
    · subst he
      simp only [Conn.step, hk, Option.bind_some, Option.map_eq_some_iff] at h
      obtain ⟨p, hp, rfl⟩ := h
      rw [List.getElem?_set_self (List.getElem?_eq_some_iff.1 hk).1] at hk'
      cases hk'
      obtain ⟨hopen, rfl, hsends⟩ := Task.poll_sentOk hp hm
      exact ⟨hopen, now, rfl, hsends⟩
    · refine (hmoved (fun _ _ h => he (Act.poll.inj h).1) ?_).elim
      intro _ h
      cases h
  | io k₀ io =>
    by_cases he : k₀ = k
    · subst he
      simp only [Conn.step, hk, Option.bind_some, Option.map_eq_some_iff] at h
      obtain ⟨t₁, hadv, rfl⟩ := h
      rw [List.getElem?_set_self (List.getElem?_eq_some_iff.1 hk).1] at hk'
      cases hk'
      exact absurd hm (Task.advance_not_sentOk hadv)
    · refine (hmoved ?_ (fun _ h => he (Act.io.inj h).1)).elim
      intro _ _ h
      cases h
  | core | turn | finish | createDataChannel | incomingDataChannels | close | send
  | sendViaStream | receive | receiveViaStream | waitConnected =>
    refine (hmoved ?_ ?_).elim
    · intro _ _ h
      cases h
    · intro _ h
      cases h

namespace Driver

/-- What every run keeps: the log is in order, the core is closed once, after a local close and
while none is requested, and only on a connection that is over; the log has each call of its
`close`; and a local close is requested until it is performed. -/
structure Inv (v : Driver Datagram) : Prop where
  ordered : Ordered v.log
  marked : ∀ pre post, v.log = pre ++ .closed :: post → .beginClose ∈ pre
  counted : v.log.countP Request.isClosed = v.conn.shared.peer.closes
  once : v.conn.shared.peer.closes ≤ 1
  requested : v.conn.shared.closeRequested = true →
    v.conn.shared.dead = true ∧ .beginClose ∈ v.log ∧ .closed ∉ v.log
  dead : .closed ∈ v.log → v.conn.shared.dead = true
  performed : .beginClose ∈ v.log → .closed ∈ v.log ∨ v.conn.shared.closeRequested = true

variable {limit : Nat} {v v' : Driver Datagram} {x : DriverAct Datagram}

theorem Start.inv (h : v.Start) : v.Inv := by
  obtain ⟨hlog, hc⟩ := h
  have hshared : v.conn.shared.closeRequested = false ∧ v.conn.shared.peer.closes = 0 := by
    rcases hc with ⟨hc, -⟩ | ⟨hc, -⟩ <;> rw [hc] <;> exact ⟨rfl, rfl⟩
  obtain ⟨hreq, hcloses⟩ := hshared
  refine ⟨?_, ?_, ?_, ?_, ?_, ?_, ?_⟩
  · rw [hlog]; exact ordered_of_plain nofun
  · intro pre post he
    simp [hlog] at he
  · rw [hlog, hcloses]; rfl
  · rw [hcloses]; exact Nat.zero_le 1
  · rw [hreq]; nofun
  · rw [hlog]; nofun
  · rw [hlog]; nofun

/-- A part of the log without a close counts none. -/
theorem countP_of_not_closed {l : List (Request Datagram)} (hc : .closed ∉ l) :
    l.countP Request.isClosed = 0 := by
  refine List.countP_eq_zero.2 fun r hr hcl => ?_
  cases r with
  | closed => exact hc hr
  | _ => cases hcl

/-- Requests other than closes keep the invariant, as long as the connection's flags allow. -/
theorem Inv.log (h : v.Inv) {l : List (Request Datagram)} (hl : Ordered l) (hc : .closed ∉ l)
    {conn : Conn} {pump : Suspended Datagram}
    (hcloses : conn.shared.peer.closes = v.conn.shared.peer.closes)
    (hdead : v.conn.shared.dead = true → conn.shared.dead = true)
    (hreq : (conn.shared.closeRequested = v.conn.shared.closeRequested ∧ .beginClose ∉ l) ∨
      (.closed ∉ v.log ∧ conn.shared.dead = true ∧ .beginClose ∈ l ∧
        conn.shared.closeRequested = true)) :
    Inv { conn, pump, log := v.log ++ l } := by
  refine ⟨h.ordered.append hl, ?_, ?_, ?_, ?_, ?_, ?_⟩
  · intro pre post he
    obtain ⟨post', he⟩ := split_append hc he
    exact h.marked pre post' he
  · show (v.log ++ l).countP _ = conn.shared.peer.closes
    rw [List.countP_append, countP_of_not_closed hc, hcloses]
    exact h.counted
  · exact hcloses ▸ h.once
  · intro hr
    obtain ⟨hsame, -⟩ | ⟨hno, hd, hb, -⟩ := hreq
    · obtain ⟨hd, hb, hno⟩ := h.requested (hsame ▸ hr)
      exact ⟨hdead hd, List.mem_append_left _ hb, by simp [hno, hc]⟩
    · exact ⟨hd, List.mem_append_right _ hb, by simp [hno, hc]⟩
  · intro hm
    rcases List.mem_append.1 hm with hm | hm
    · exact hdead (h.dead hm)
    · exact absurd hm hc
  · intro hm
    obtain ⟨hsame, hnot⟩ | ⟨-, -, -, hr⟩ := hreq
    · have hm := (List.mem_append.1 hm).resolve_right hnot
      exact (h.performed hm).imp (List.mem_append_left _) fun hr => hsame.trans hr
    · exact .inr hr

/-- The block that follows the `None` of the first flush closes the core when it is asked to. -/
theorem Inv.block (h : v.Inv) (now : Instant) :
    Inv { v with
      conn := v.conn.turn limit now
      log := v.log ++ .polled none :: closings v.conn (v.conn.turn limit now) } := by
  obtain ⟨hreq, hcloses⟩ : (v.conn.turn limit now).shared.closeRequested = false ∧
      (v.conn.turn limit now).shared.peer.closes =
        v.conn.shared.peer.closes + if v.conn.shared.closeRequested then 1 else 0 :=
    turn_close limit v.conn.shared
  have hdead : v.conn.shared.dead = true → (v.conn.turn limit now).shared.dead = true :=
    fun hd => (turn_flagsKept v.conn.shared).dead hd
  rw [closings_turn]
  cases hr : v.conn.shared.closeRequested with
  | false =>
    rw [hr] at hcloses
    exact h.log (l := [.polled none]) (ordered_block false) (by simp) hcloses hdead
      (.inl ⟨hreq.trans hr.symm, by simp⟩)
  | true =>
    rw [hr] at hcloses
    obtain ⟨hd, hb, hno⟩ := h.requested hr
    have hzero : v.conn.shared.peer.closes = 0 := h.counted.symm.trans (countP_of_not_closed hno)
    refine ⟨h.ordered.append (ordered_block true), ?_, ?_, ?_, ?_, fun _ => hdead hd, ?_⟩
    · intro pre post he
      -- the only close is the one that is appended
      have he : (v.log ++ [.polled none]) ++ [.closed] = pre ++ .closed :: post := by
        simpa using he
      rcases List.append_eq_append_iff.1 he with ⟨m, hm, -⟩ | ⟨m, hl, hm⟩
      · rw [hm]; simp [hb]
      · cases m with
        | nil => rw [List.append_nil] at hl; rw [← hl]; simp [hb]
        | cons r m =>
          obtain ⟨rfl, -⟩ := List.cons.inj hm
          exact absurd (by simp [hl] : Request.closed ∈ v.log ++ [.polled none]) (by simp [hno])
    · show (v.log ++ [Request.polled none, .closed]).countP _ = _
      rw [List.countP_append, countP_of_not_closed hno, hcloses, hzero]
      rfl
    · show (v.conn.turn limit now).shared.peer.closes ≤ 1
      rw [hcloses, hzero]
      exact Nat.le_refl 1
    · rw [hreq]; nofun
    · exact fun _ => .inl (by simp)

theorem Inv.flushSecond (h : v.Inv) (o : Option Datagram) : (v.flushSecond o).Inv := by
  cases o with
  | some d =>
    exact h.log (ordered_flush d) (by simp) rfl id (.inl ⟨rfl, by simp⟩)
  | none =>
    simp only [Driver.flushSecond]
    split
    · have hnone : (closings v.conn
          { v.conn.setShared v.conn.shared.finish with pump := .exited } :
            List (Request Datagram)) = [] := closings_of_same rfl
      rw [hnone]
      exact h.log (ordered_block false) (by simp) rfl (fun _ => rfl) (.inl ⟨rfl, by simp⟩)
    · exact h.log (ordered_block false) (by simp) rfl id (.inl ⟨rfl, by simp⟩)

theorem Inv.flushFirst (h : v.Inv) (now : Instant) (o o' : Option Datagram) :
    (v.flushFirst limit now o' o).Inv := by
  cases o with
  | some d => exact h.log (ordered_flush d) (by simp) rfl id (.inl ⟨rfl, by simp⟩)
  | none => exact (h.block now).flushSecond o'

/-- Only a local close that takes effect is marked in the log. -/
theorem not_beginClose {c c' : Conn} {a : Act}
    (h : ∀ now, a = .close now → c.shared.dead = true) :
    .beginClose ∉ (requests c c' a : List (Request Datagram)) := by
  intro hm
  cases a with
  | poll k now answer =>
    obtain ⟨send, -, hs⟩ := List.mem_map.1 hm
    cases hs
  | close now =>
    simp only [requests, h now rfl, if_true] at hm
    cases hm
  | _ => cases hm

theorem Inv.step (h : v.Inv) (hs : v.step limit x = some v') : v'.Inv := by
  cases x with
  | pump now first second =>
    simp only [Driver.step] at hs
    split at hs
    · cases hs; exact h.flushFirst now first second
    · cases hs; exact h.flushFirst now first second
    · cases hs; exact h.flushFirst now first second
    · cases hs; exact h.flushSecond second
    · cases hs
  | act a =>
    simp only [Driver.step] at hs
    split at hs
    · cases hs
    · next ha =>
      obtain ⟨c, hc, rfl⟩ := Option.map_eq_some_iff.1 hs
      have hplain : ∀ r ∈ (requests v.conn c a : List (Request Datagram)),
          r ≠ .closed ∧ ∀ t, r ≠ .polled t := requests_plain v.conn c a
      obtain ⟨hcloses, hreq⟩ := step_close (eq_false_of_ne_true ha) hc
      rw [closings_of_same hcloses, List.append_nil]
      refine h.log (ordered_of_plain hplain) (fun hm => (hplain _ hm).1 rfl) hcloses
        (step_dead hc) ?_
      obtain ⟨hno, hsame⟩ | ⟨⟨now, rfl⟩, hd, hd', hreq⟩ := hreq
      · exact .inl ⟨hsame, not_beginClose hno⟩
      · refine .inr ⟨fun hm => ?_, hd', by simp [requests, hd], hreq⟩
        exact absurd (h.dead hm) (by simp [hd])

/-! ## Whole runs -/

theorem flushSecond_kept (v : Driver Datagram) (o : Option Datagram) :
    (v.flushSecond o).conn.tasks = v.conn.tasks ∧ v.log <+: (v.flushSecond o).log := by
  cases o with
  | some d => exact ⟨rfl, List.prefix_append _ _⟩
  | none =>
    simp only [Driver.flushSecond]
    split <;> exact ⟨rfl, List.prefix_append _ _⟩

theorem flushFirst_kept (v : Driver Datagram) (now : Instant) (o o' : Option Datagram) :
    (v.flushFirst limit now o' o).conn.tasks = v.conn.tasks ∧
      v.log <+: (v.flushFirst limit now o' o).log := by
  cases o with
  | some d => exact ⟨rfl, List.prefix_append _ _⟩
  | none =>
    obtain ⟨htasks, hlog⟩ := flushSecond_kept
      { v with
        conn := v.conn.turn limit now
        log := v.log ++ .polled none :: closings v.conn (v.conn.turn limit now) } o'
    exact ⟨htasks, (List.prefix_append _ _).trans hlog⟩

/-- The pump leaves the tasks alone. -/
theorem pump_kept {now : Instant} {first second : Option Datagram}
    (h : v.step limit (.pump now first second) = some v') :
    v'.conn.tasks = v.conn.tasks ∧ v.log <+: v'.log := by
  simp only [Driver.step] at h
  split at h
  · cases h; exact flushFirst_kept v now first second
  · cases h; exact flushFirst_kept v now first second
  · cases h; exact flushFirst_kept v now first second
  · cases h; exact flushSecond_kept v second
  · cases h

/-- The log grows. -/
theorem log_prefix {xs : List (DriverAct Datagram)}
    (h : Runs.run (Driver.step limit) v xs = some v') : v.log <+: v'.log := by
  refine Runs.relates (R := fun v v' : Driver Datagram => v.log <+: v'.log)
    (fun _ => List.prefix_rfl) (fun _ _ _ => List.IsPrefix.trans) ?_ h
  intro v x v' h
  cases x with
  | pump now first second => exact (pump_kept h).2
  | act a =>
    simp only [Driver.step] at h
    split at h
    · cases h
    · obtain ⟨c, -, rfl⟩ := Option.map_eq_some_iff.1 h
      exact List.prefix_append _ _

/-- A send that returned `Ok` handed its message to the core in the step in which it returned. -/
theorem step_handed {k : TaskId} {t t' : Task} {m : CoreSend} (h : v.step limit x = some v')
    (hk : v.conn.tasks[k]? = some t) (hk' : v'.conn.tasks[k]? = some t') (hm : t.SentOk m t') :
    channelState v.conn.shared m.id = .open ∧ v'.log = v.log ++ [.handed m (.ok ())] := by
  cases x with
  | pump now first second =>
    rw [(pump_kept h).1, hk] at hk'
    cases hk'
    exact absurd hm (Task.not_sentOk_self m t)
  | act a =>
    simp only [Driver.step] at h
    split at h
    · cases h
    · obtain ⟨c, hc, rfl⟩ := Option.map_eq_some_iff.1 h
      obtain ⟨hopen, now, rfl, hsends⟩ := step_sentOk hc hk hk' hm
      refine ⟨hopen, ?_⟩
      show v.log ++ (requests v.conn c (.poll k now (.ok ())) ++ closings v.conn c) = _
      rw [closings_of_same (step_close rfl hc).1]
      simp [requests, hsends]

theorem Start.conn (h : v.Start) : v.conn.Start := by
  rcases h.2 with ⟨hc, -⟩ | ⟨hc, -⟩
  · exact .inl hc
  · exact .inr hc

end Driver

/-- In every run, the core's `close` is called at most once: each call of it is in the log, after a
local close, and a local close is performed or still requested of the pump. When it is called after
a send has returned `Ok`, the core has answered `None` to `poll_transmit` since, every datagram it
returned until then was passed to the socket, and the close comes right after that `None`. -/
theorem sends_flushed_before_close {limit : Nat} {v₀ v : Driver Datagram}
    {xs : List (DriverAct Datagram)} (h₀ : v₀.Start)
    (h : Runs.run (Driver.step limit) v₀ xs = some v) :
    v.conn.shared.peer.closes ≤ 1 ∧
    v.log.countP Request.isClosed = v.conn.shared.peer.closes ∧
    (.beginClose ∈ v.log → .closed ∈ v.log ∨ v.conn.shared.closeRequested = true) ∧
    ∀ pre post, v.log = pre ++ .closed :: post →
      .beginClose ∈ pre ∧
      ∀ xs₁ x xs₂ (v₁ v₂ : Driver Datagram) (k : TaskId) (t t' : Task) (m : CoreSend),
        xs = xs₁ ++ x :: xs₂ →
        Runs.run (Driver.step limit) v₀ xs₁ = some v₁ → v₁.step limit x = some v₂ →
        v₁.conn.tasks[k]? = some t → v₂.conn.tasks[k]? = some t' → t.SentOk m t' →
        ∃ flushed, pre = v₁.log ++ .handed m (.ok ()) :: (flushed ++ [.polled none]) ∧
          ∀ l d rest, flushed = l ++ .polled (some d) :: rest → ∃ r, rest = .passed d :: r := by
  have hinv : ∀ {xs v}, Runs.run (Driver.step limit) v₀ xs = some v → v.Inv := fun hr =>
    Runs.invariant (I := Driver.Inv) (fun _ _ _ hi hs => hi.step hs) h₀.inv hr
  have hi := hinv h
  refine ⟨hi.once, hi.counted, hi.performed, fun pre post hlog => ⟨hi.marked pre post hlog, ?_⟩⟩
  intro xs₁ x xs₂ v₁ v₂ k t t' m hxs h₁ hx hk hk' hm
  obtain ⟨hopen, hhanded⟩ := Driver.step_handed hx hk hk' hm
  -- an open channel: the connection is not over yet, so the core was not closed before
  have hno : .closed ∉ v₁.log := by
    intro hcl
    obtain ⟨as, has⟩ := Driver.run_conn h₀ h₁
    have hterm := Conn.terminal_run h₀.conn has
    rw [hterm.channelState ((hinv h₁).dead hcl)] at hopen
    cases hopen
  have hord : Ordered (pre ++ .closed :: post) := hlog ▸ (hinv h).ordered
  have hrest : Runs.run (Driver.step limit) v₂ xs₂ = some v := by
    rw [hxs] at h
    obtain ⟨w₁, hw₁, hrun⟩ := Runs.run_append_eq_some.1 h
    obtain rfl := Option.some.inj (h₁.symm.trans hw₁)
    rw [Runs.run_cons, hx, Option.bind_some] at hrun
    exact hrun
  obtain ⟨later, hlater⟩ := Driver.log_prefix hrest
  rw [hhanded, hlog] at hlater
  obtain ⟨rest, hpre⟩ := prefix_of_split (by simpa using hno) hlater
  rw [hpre] at hord
  obtain ⟨flushed, rfl, hpassed⟩ := Ordered.flushed hord
  exact ⟨flushed, by simpa using hpre, hpassed⟩

/-- A message is sent and the connection closed while the pump is suspended at a send of its second
flush; the first flush of the next round takes the message to the socket. -/
theorem sends_flushed_before_close_of_suspended :
    ∃ v, Runs.run (Driver.step 8) (⟨.bound, .start, []⟩ : Driver Nat)
        [.act (.createDataChannel "a" (.ok 0)), .act (.core [.onDataChannel (.onOpen 0)] [] []),
          .pump 0 none (some 7), .act (.send ⟨.pump, 0, "a"⟩ (.binary [1])),
          .act (.poll 0 0 (.ok ())), .act (.close 0), .pump 0 none none, .pump 0 (some 8) none,
          .pump 0 none none] = some v ∧
      v.conn.shared.peer.closes = 1 ∧ v.log.countP Request.isClosed = 1 := by
  refine ⟨_, rfl, rfl, ?_⟩
  have h := @sends_flushed_before_close Nat 8 ⟨.bound, .start, []⟩ _
    [.act (.createDataChannel "a" (.ok 0)), .act (.core [.onDataChannel (.onOpen 0)] [] []),
      .pump 0 none (some 7), .act (.send ⟨.pump, 0, "a"⟩ (.binary [1])),
      .act (.poll 0 0 (.ok ())), .act (.close 0), .pump 0 none none, .pump 0 (some 8) none,
      .pump 0 none none] ⟨rfl, .inl ⟨rfl, rfl⟩⟩ rfl
  exact h.2.1

end WebrtcDatachannels.Guest
