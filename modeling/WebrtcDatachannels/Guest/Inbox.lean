import WebrtcDatachannels.Guest.Runtime
import WebrtcDatachannels.Lib.BoundedLog
import WebrtcDatachannels.Lib.Runs

/-!
# The bounded inbound queue of the in-guest provider

Everything that touches `Shared::channels`: the folded core events (`apply_event`), the readers'
`Channel::pop`, the local close, the pump's exit and the `receive-via-stream` claim, in any order.
A `Ledger` is the shared state with the history of the messages applied to it and popped from it.
Every step is, on each tracked channel, a run of operations of a bounded log
(`Ledger.next_tracks`), so the accounting of the inbox is the library's
(`Ledger.Inv.entry`), and it holds over every run (`inbox_accounting`).
-/

namespace WebrtcDatachannels.Guest

open BoundedLog

/-- Pop through the reference that `channel_mut` returns. -/
def Shared.popChannel (s : Shared) (id : RTCDataChannelId) : Option InboundMessage × Shared :=
  match s.channel? id with
  | some c => (c.pop.1, s.modifyChannel id fun c => c.pop.2)
  | none => (none, s)

/-- The message of an event that finds its channel tracked, neither closed nor overflowed, and fits
the limit next to the channel's buffered bytes. -/
def admitted (limit : Nat) (s : Shared) :
    PeerEvent → List (RTCDataChannelId × InboundMessage)
  | .message id text data =>
    match s.channel? id with
    | some c =>
      if c.closed = false ∧ c.overflowed = false ∧ c.inboxBytes + data.length ≤ limit then
        [(id, ⟨text, data⟩)]
      else []
    | none => []
  | _ => []

/-- The messages of one channel in a history. -/
def ofChannel (id : RTCDataChannelId) (l : List (RTCDataChannelId × InboundMessage)) :
    List InboundMessage :=
  l.filterMap fun p => if p.1 = id then some p.2 else none

@[simp] theorem ofChannel_nil (id : RTCDataChannelId) : ofChannel id [] = [] := rfl

@[simp] theorem ofChannel_append (id : RTCDataChannelId)
    (l l' : List (RTCDataChannelId × InboundMessage)) :
    ofChannel id (l ++ l') = ofChannel id l ++ ofChannel id l' :=
  List.filterMap_append

theorem ofChannel_self (id : RTCDataChannelId) (m : InboundMessage) :
    ofChannel id [(id, m)] = [m] := by
  simp [ofChannel]

theorem ofChannel_ne {id id' : RTCDataChannelId} (h : id' ≠ id) (m : InboundMessage) :
    ofChannel id [(id', m)] = [] := by
  simp [ofChannel, h]

/-! ## The system -/

/-- The shared state, with the messages applied to it and popped from it so far. -/
structure Ledger where
  shared : Shared
  applied : List (RTCDataChannelId × InboundMessage)
  popped : List (RTCDataChannelId × InboundMessage)
deriving DecidableEq, Repr

/-- What can happen to the shared state. `rest` is any change outside `channels`, `closed` and
`failed`: calls into the core, the pump consuming a close request, notifications. -/
inductive LedgerAct where
  | event (e : PeerEvent)
  | pop (id : RTCDataChannelId)
  | beginClose (now : Instant)
  | finish
  | claim (id : RTCDataChannelId)
  | rest (peer : SansIoPeer) (closeRequested : Bool) (watch : StateWatch)
deriving DecidableEq, Repr

namespace Ledger

/-- A freshly bound connection. -/
def init (peer : SansIoPeer) : Ledger := { shared := .bind peer, applied := [], popped := [] }

/-- One step. -/
def next (limit : Nat) (L : Ledger) : LedgerAct → Ledger
  | .event e =>
    { L with
      shared := L.shared.applyEvent limit e
      applied := L.applied ++ admitted limit L.shared e }
  | .pop id =>
    { L with
      shared := (L.shared.popChannel id).2
      popped := L.popped ++ ((L.shared.popChannel id).1.map (id, ·)).toList }
  | .beginClose now => { L with shared := L.shared.beginClose now }
  | .finish => { L with shared := L.shared.finish }
  | .claim id => { L with shared := L.shared.modifyChannel id Channel.claim }
  | .rest peer closeRequested watch =>
    { L with shared := { L.shared with peer, closeRequested, watch } }

/-- The step function of the system; every act is enabled. -/
def step (limit : Nat) (L : Ledger) (a : LedgerAct) : Option Ledger := some (L.next limit a)

/-- The ids of the tracked channels, in open order. -/
def ids (L : Ledger) : List RTCDataChannelId := L.shared.channels.map Channel.id

end Ledger

/-! ## One channel as a bounded log -/

/-- A channel record with its history is the bounded log `q`: the popped messages are the taken
ones, the inbox is what is held, `closed` is `shut`. -/
structure Tracks (limit : Nat) (applied popped : List InboundMessage) (c : Channel)
    (q : Log InboundMessage.len limit) : Prop where
  held : c.inbox = q.held
  bytes : c.inboxBytes = load InboundMessage.len q.held
  taken : popped = q.taken
  applied : applied = q.accepted
  shut : c.closed = q.shut
  overflow : c.overflowed = true → c.closed = true

section
variable {limit : Nat} {applied popped : List InboundMessage} {c : Channel}
  {q : Log InboundMessage.len limit}

/-- A new channel is an empty log, shut when the connection has ended. -/
theorem Tracks.new (id : RTCDataChannelId) (label : String) (closed : Bool) :
    Tracks limit [] [] { Channel.new id label with closed } ⟨[], [], closed, Nat.zero_le _⟩ :=
  ⟨rfl, rfl, rfl, rfl, rfl, nofun⟩

/-- Closing a channel closes its log. -/
theorem Tracks.close (h : Tracks limit applied popped c q) :
    Tracks limit applied popped c.close q.close :=
  ⟨h.held, h.bytes, h.taken, h.applied, rfl, fun _ => rfl⟩

/-- The claim leaves the log alone. -/
theorem Tracks.claim (h : Tracks limit applied popped c q) :
    Tracks limit applied popped c.claim q :=
  ⟨h.held, h.bytes, h.taken, h.applied, h.shut, h.overflow⟩

/-- An overflow is an offer that the log refuses. -/
theorem Tracks.overflow' (h : Tracks limit applied popped c q) :
    Tracks limit applied popped c.overflow q.close :=
  ⟨h.held, h.bytes, h.taken, h.applied, rfl, fun _ => rfl⟩

/-- Popping takes from the log, and never more bytes than are counted. -/
theorem Tracks.pop (h : Tracks limit applied popped c q) :
    Tracks limit applied (popped ++ c.pop.1.toList) c.pop.2 q.take := by
  cases hi : c.inbox with
  | nil =>
    have hq : q.held = [] := h.held ▸ hi
    rw [Log.take_nil hq]
    simpa [Channel.pop, hi] using h
  | cons m rest =>
    have hq : q.held = m :: rest := h.held ▸ hi
    obtain ⟨ht, hh, hs⟩ := Log.take_cons hq
    have hb := h.bytes
    rw [hq, load_cons] at hb
    refine ⟨?_, ?_, ?_, ?_, ?_, ?_⟩
    · simp [Channel.pop, hi, hh]
    · simp only [Channel.pop, hi, hh]
      omega
    · simp [Channel.pop, hi, ht, h.taken]
    · rw [Log.accepted_take, h.applied]
    · simpa [Channel.pop, hi, hs] using h.shut
    · simpa [Channel.pop, hi] using h.overflow

/-- A delivered message is an offer that the log admits. -/
theorem Tracks.push (h : Tracks limit applied popped c q) {m : InboundMessage}
    (hc : c.closed = false) (hfit : c.inboxBytes + m.len ≤ limit) :
    Tracks limit (applied ++ [m]) popped (c.push m) (q.offer m) := by
  have hq : q.Admits m := ⟨h.shut ▸ hc, h.bytes ▸ hfit⟩
  obtain ⟨ht, hh, hs⟩ := Log.offer_of_admits hq
  refine ⟨?_, ?_, ?_, ?_, ?_, ?_⟩
  · rw [hh, ← h.held]; rfl
  · rw [hh, load_append, ← h.bytes]; simp [Channel.push]
  · rw [ht, h.taken]
  · rw [Log.accepted_offer_of_admits hq, h.applied]
  · rw [hs]; exact hc
  · exact h.overflow

end

/-! ## Steps -/

namespace Ledger

variable {limit : Nat} {L : Ledger} {id : RTCDataChannelId} {c : Channel}

/-- What a step does to a tracked channel is a run of operations of its log. -/
def Steps (limit : Nat) (L L' : Ledger) (id : RTCDataChannelId) (c : Channel) : Prop :=
  ∃ c' ops, L'.shared.channel? id = some c' ∧
    ∀ q, Tracks limit (ofChannel id L.applied) (ofChannel id L.popped) c q →
      Tracks limit (ofChannel id L'.applied) (ofChannel id L'.popped) c' (q.applyAll ops)

/-- A step that changes neither the channel nor its history. -/
theorem Steps.same {L' : Ledger} (hc : L'.shared.channel? id = some c)
    (ha : ofChannel id L'.applied = ofChannel id L.applied)
    (hp : ofChannel id L'.popped = ofChannel id L.popped) : Steps limit L L' id c :=
  ⟨c, [], hc, fun q hq => by rw [ha, hp]; exact hq⟩

/-- A step that closes the channel. -/
theorem Steps.closed {L' : Ledger} (hc : L'.shared.channel? id = some c.close)
    (ha : ofChannel id L'.applied = ofChannel id L.applied)
    (hp : ofChannel id L'.popped = ofChannel id L.popped) : Steps limit L L' id c :=
  ⟨c.close, [.close], hc, fun q hq => by rw [ha, hp]; exact hq.close⟩

theorem steps_message (hc : L.shared.channel? id = some c) (id' : RTCDataChannelId) (text : Bool)
    (data : Bytes) : Steps limit L (L.next limit (.event (.message id' text data))) id c := by
  by_cases hid : id = id'
  · subst hid
    by_cases hcl : (c.overflowed || c.closed) = true
    · refine .same ?_ ?_ rfl
      · simp [next, Shared.applyEvent, hc, hcl]
      · rw [Bool.or_eq_true] at hcl
        have : ¬ (c.closed = false ∧ c.overflowed = false ∧
            c.inboxBytes + data.length ≤ limit) := by
          rintro ⟨h1, h2, -⟩
          rcases hcl with h | h
          · rw [h] at h2; cases h2
          · rw [h] at h1; cases h1
        simp [next, admitted, hc, this]
    · have hcl' : c.overflowed = false ∧ c.closed = false := by simpa using hcl
      by_cases hfit : c.inboxBytes + data.length ≤ limit
      · refine ⟨c.push ⟨text, data⟩, [.offer ⟨text, data⟩], ?_, ?_⟩
        · have hle : ¬ c.inboxBytes + data.length > limit := by omega
          simp only [next, Shared.applyEvent, hc, if_neg hcl, if_neg hle]
          have h := L.shared.channel?_modifyChannel_self id (Channel.push_id · ⟨text, data⟩)
          rw [hc] at h
          exact h
        · intro q hq
          have hadm : admitted limit L.shared (.message id text data) = [(id, ⟨text, data⟩)] := by
            simp [admitted, hc, hcl', hfit]
          simp only [next, hadm, ofChannel_append, ofChannel_self]
          exact hq.push hcl'.2 hfit
      · refine ⟨c.overflow, [.close], ?_, ?_⟩
        · have hgt : c.inboxBytes + data.length > limit := by omega
          simp only [next, Shared.applyEvent, hc, if_neg hcl, if_pos hgt]
          have h := Shared.channel?_modifyChannel_self L.shared id Channel.overflow_id
          rw [hc] at h
          exact h
        · intro q hq
          have hadm : admitted limit L.shared (.message id text data) = [] := by
            simp [admitted, hc, hfit]
          simp only [next, hadm, List.append_nil]
          exact hq.overflow'
  · have hadm : ofChannel id (admitted limit L.shared (.message id' text data)) = [] := by
      simp only [admitted]
      split
      · split
        · exact ofChannel_ne (Ne.symm hid) _
        · rfl
      · rfl
    refine .same ?_ (by simp [next, hadm]) rfl
    simp only [next, Shared.applyEvent]
    split
    · split
      · exact hc
      · split
        · exact (Shared.channel?_modifyChannel_ne _ Channel.overflow_id hid).trans hc
        · exact (Shared.channel?_modifyChannel_ne _ (Channel.push_id · ⟨text, data⟩) hid).trans hc
    · exact hc

theorem steps_event (hc : L.shared.channel? id = some c) (e : PeerEvent) :
    Steps limit L (L.next limit (.event e)) id c := by
  have happ : ofChannel id (L.applied ++ []) = ofChannel id L.applied := by rw [List.append_nil]
  cases e with
  | connected => exact .same hc happ rfl
  | failed | closed =>
    refine .closed ?_ happ rfl
    have h := L.shared.channel?_closeChannels id
    rw [hc] at h
    exact h
  | channelOpen id' label =>
    refine .same ?_ happ rfl
    simp only [next, Shared.applyEvent]
    split
    · exact hc
    · rw [Shared.channel?] at hc ⊢
      rw [Keyed.find?_concat, hc]
      rfl
  | channelClosed id' =>
    by_cases hid : id = id'
    · subst hid
      refine .closed ?_ happ rfl
      have h := L.shared.channel?_modifyChannel_self id Channel.close_id
      rw [hc] at h
      exact h
    · exact .same ((L.shared.channel?_modifyChannel_ne Channel.close_id hid).trans hc) happ rfl
  | message id' text data => exact steps_message hc id' text data

theorem steps_pop (hc : L.shared.channel? id = some c) (id' : RTCDataChannelId) :
    Steps limit L (L.next limit (.pop id')) id c := by
  by_cases hid : id = id'
  · subst hid
    refine ⟨c.pop.2, [.take], ?_, ?_⟩
    · simp only [next, Shared.popChannel, hc]
      rw [Shared.channel?_modifyChannel_self _ _ Channel.pop_id, hc]
      rfl
    · intro q hq
      have hp : ofChannel id ((c.pop.1.map (id, ·)).toList) = c.pop.1.toList := by
        cases c.pop.1 with
        | none => rfl
        | some m => exact ofChannel_self id m
      simp only [next, Shared.popChannel, hc, ofChannel_append, hp]
      exact hq.pop
  · refine .same ?_ rfl ?_
    · simp only [next, Shared.popChannel]
      split
      · rw [Shared.channel?_modifyChannel_ne _ Channel.pop_id hid, hc]
      · exact hc
    · simp only [next, ofChannel_append]
      cases (L.shared.popChannel id').1 with
      | none => simp
      | some m => simp [ofChannel_ne (Ne.symm hid)]

/-- Every step is, on a tracked channel, a run of operations of its log. -/
theorem next_tracks (limit : Nat) (hc : L.shared.channel? id = some c) (a : LedgerAct) :
    Steps limit L (L.next limit a) id c := by
  cases a with
  | event e => exact steps_event hc e
  | pop id' => exact steps_pop hc id'
  | beginClose now =>
    by_cases hd : (L.shared.closed || L.shared.failed) = true
    · refine .same ?_ rfl rfl
      simp [next, Shared.beginClose, hd, hc]
    · refine .closed ?_ rfl rfl
      have h := L.shared.channel?_closeChannels id
      rw [hc] at h
      simp only [next, Shared.beginClose, if_neg hd]
      exact h
  | finish =>
    refine .closed ?_ rfl rfl
    have h := L.shared.channel?_closeChannels id
    rw [hc] at h
    exact h
  | claim id' =>
    by_cases hid : id = id'
    · subst hid
      refine ⟨c.claim, [], ?_, fun q hq => hq.claim⟩
      have h := L.shared.channel?_modifyChannel_self id Channel.claim_id
      rw [hc] at h
      exact h
    · exact .same ((L.shared.channel?_modifyChannel_ne Channel.claim_id hid).trans hc) rfl rfl
  | rest peer closeRequested watch => exact .same hc rfl rfl

/-- A step tracks a new channel only by an open. -/
theorem next_channel?_none (limit : Nat) (hc : L.shared.channel? id = none) (a : LedgerAct) :
    (L.next limit a).shared.channel? id = none ∨ ∃ label,
      (L.next limit a).shared.channel? id =
        some { Channel.new id label with closed := L.shared.closed || L.shared.failed } := by
  have hmod : ∀ (id' : RTCDataChannelId) (f : Channel → Channel), (∀ c, (f c).id = c.id) →
      (L.shared.modifyChannel id' f).channel? id = none := by
    intro id' f hf
    by_cases hid : id = id'
    · subst hid; rw [Shared.channel?_modifyChannel_self _ _ hf, hc]; rfl
    · rw [Shared.channel?_modifyChannel_ne _ hf hid, hc]
  have hclose : L.shared.closeChannels.channel? id = none := by
    rw [Shared.channel?_closeChannels, hc]; rfl
  cases a with
  | event e =>
    cases e with
    | connected => exact .inl hc
    | failed | closed => exact .inl hclose
    | channelOpen id' label =>
      simp only [next, Shared.applyEvent]
      split
      · exact .inl hc
      · by_cases hid : id' = id
        · subst hid
          refine .inr ⟨label, ?_⟩
          rw [Shared.channel?] at hc ⊢
          rw [Keyed.find?_concat, hc]
          simp [Channel.new]
        · refine .inl ?_
          rw [Shared.channel?] at hc ⊢
          rw [Keyed.find?_concat, hc]
          simp [Channel.new, hid]
    | channelClosed id' => exact .inl (hmod id' _ Channel.close_id)
    | message id' text data =>
      refine .inl ?_
      simp only [next, Shared.applyEvent]
      split
      · split
        · exact hc
        · split
          · exact hmod id' _ Channel.overflow_id
          · exact hmod id' _ (Channel.push_id · ⟨text, data⟩)
      · exact hc
  | pop id' =>
    refine .inl ?_
    simp only [next, Shared.popChannel]
    split
    · exact hmod id' _ Channel.pop_id
    · exact hc
  | beginClose now =>
    refine .inl ?_
    simp only [next, Shared.beginClose]
    split
    · exact hc
    · exact hclose
  | finish => exact .inl hclose
  | claim id' => exact .inl (hmod id' _ Channel.claim_id)
  | rest peer closeRequested watch => exact .inl hc

/-- A step applies and pops no message of an untracked channel. -/
theorem next_history (limit : Nat) (hc : L.shared.channel? id = none)
    (ha : ofChannel id L.applied = []) (hp : ofChannel id L.popped = []) (a : LedgerAct) :
    ofChannel id (L.next limit a).applied = [] ∧ ofChannel id (L.next limit a).popped = [] := by
  have hne : ∀ {id' c'}, L.shared.channel? id' = some c' → id' ≠ id := by
    rintro id' c' hc' rfl
    rw [hc] at hc'
    cases hc'
  cases a with
  | event e =>
    cases e with
    | connected | failed | closed | channelOpen | channelClosed =>
      exact ⟨by simpa [next, admitted] using ha, hp⟩
    | message id' text data =>
      refine ⟨?_, hp⟩
      simp only [next, ofChannel_append, ha, List.nil_append, admitted]
      split
      · next c' hc' =>
        split
        · exact ofChannel_ne (hne hc') _
        · rfl
      · rfl
  | pop id' =>
    refine ⟨ha, ?_⟩
    simp only [next, ofChannel_append, hp, List.nil_append, Shared.popChannel]
    split
    · next c' hc' =>
      cases c'.pop.1 with
      | none => rfl
      | some m => exact ofChannel_ne (hne hc') m
    · rfl
  | beginClose | finish | claim | rest => exact ⟨ha, hp⟩

/-! ## The list of channels -/

theorem ids_modify (s : Shared) (id : RTCDataChannelId) {f : Channel → Channel}
    (hf : ∀ c, (f c).id = c.id) :
    (s.modifyChannel id f).channels.map Channel.id = s.channels.map Channel.id :=
  Keyed.map_key_modify hf

theorem ids_closeChannels (s : Shared) :
    s.closeChannels.channels.map Channel.id = s.channels.map Channel.id := by
  simp [Shared.closeChannels]

/-- An event adds at most one id, at the end, and only the id of an open of an untracked channel. -/
theorem ids_applyEvent (limit : Nat) (s : Shared) (e : PeerEvent) :
    (s.applyEvent limit e).channels.map Channel.id = s.channels.map Channel.id ∨
      ∃ id label, e = .channelOpen id label ∧ s.channel? id = none ∧
        (s.applyEvent limit e).channels.map Channel.id = s.channels.map Channel.id ++ [id] := by
  cases e with
  | connected => exact .inl rfl
  | failed | closed => exact .inl (ids_closeChannels s)
  | channelOpen id label =>
    cases hc : s.channel? id with
    | some c => exact .inl (by simp [Shared.applyEvent, hc])
    | none => exact .inr ⟨id, label, rfl, hc, by simp [Shared.applyEvent, hc, Channel.new]⟩
  | channelClosed id => exact .inl (ids_modify s id Channel.close_id)
  | message id text data =>
    refine .inl ?_
    simp only [Shared.applyEvent]
    split
    · split
      · rfl
      · split
        · exact ids_modify s id Channel.overflow_id
        · exact ids_modify s id (Channel.push_id · ⟨text, data⟩)
    · rfl

/-- A step adds at most one id, at the end, and only an id that is not tracked. -/
theorem ids_next (limit : Nat) (L : Ledger) (a : LedgerAct) :
    (L.next limit a).ids = L.ids ∨
      ∃ id, L.shared.channel? id = none ∧ (L.next limit a).ids = L.ids ++ [id] := by
  cases a with
  | event e =>
    rcases ids_applyEvent limit L.shared e with h | ⟨id, label, -, hc, h⟩
    · exact .inl h
    · exact .inr ⟨id, hc, h⟩
  | pop id =>
    refine .inl ?_
    simp only [ids, next, Shared.popChannel]
    split
    · exact ids_modify _ id Channel.pop_id
    · rfl
  | beginClose now =>
    refine .inl ?_
    simp only [ids, next, Shared.beginClose]
    split
    · rfl
    · exact ids_closeChannels _
  | finish => exact .inl (ids_closeChannels _)
  | claim id => exact .inl (ids_modify _ id Channel.claim_id)
  | rest peer closeRequested watch => exact .inl rfl

/-! ## The invariant -/

/-- The entry of one id in the ledger: a tracked channel is a bounded log with its history, an
untracked one has no history. -/
def Entry (limit : Nat) (L : Ledger) (id : RTCDataChannelId) : Prop :=
  (∀ c, L.shared.channel? id = some c → ∃ q : Log InboundMessage.len limit,
    Tracks limit (ofChannel id L.applied) (ofChannel id L.popped) c q) ∧
  (L.shared.channel? id = none → ofChannel id L.applied = [] ∧ ofChannel id L.popped = [])

/-- The invariant of the ledger: distinct ids, and an entry for every id. -/
structure Inv (limit : Nat) (L : Ledger) : Prop where
  nodup : L.ids.Nodup
  entry : ∀ id, Entry limit L id

theorem inv_init (peer : SansIoPeer) : Inv limit (init peer) :=
  ⟨List.nodup_nil, fun _ => ⟨nofun, fun _ => ⟨rfl, rfl⟩⟩⟩

/-- Every step keeps the invariant. -/
theorem Inv.next (h : Inv limit L) (a : LedgerAct) : Inv limit (L.next limit a) := by
  refine ⟨?_, ?_⟩
  · rcases ids_next limit L a with he | ⟨id, hc, he⟩
    · rw [he]; exact h.nodup
    · rw [he, List.nodup_append]
      refine ⟨h.nodup, by simp, fun x hx y hy hxy => ?_⟩
      obtain ⟨c, hcm, rfl⟩ := List.mem_map.1 hx
      rw [List.mem_singleton] at hy
      exact Keyed.find?_eq_none.1 hc c hcm (hxy.trans hy)
  · intro id
    cases hc : L.shared.channel? id with
    | some c =>
      obtain ⟨q, hq⟩ := (h.entry id).1 c hc
      obtain ⟨c', ops, hc', hops⟩ := next_tracks limit hc a
      refine ⟨?_, ?_⟩
      · intro c'' h''
        rw [hc'] at h''; cases h''; exact ⟨_, hops q hq⟩
      · intro h''
        rw [hc'] at h''; cases h''
    | none =>
      obtain ⟨ha, hp⟩ := (h.entry id).2 hc
      obtain ⟨ha', hp'⟩ := next_history limit hc ha hp a
      obtain hn | ⟨label, hs⟩ := next_channel?_none limit hc a
      · refine ⟨?_, fun _ => ⟨ha', hp'⟩⟩
        intro c h''
        rw [hn] at h''; cases h''
      · refine ⟨?_, ?_⟩
        · intro c h''
          rw [hs] at h''
          cases h''
          rw [ha', hp']
          exact ⟨_, .new id label _⟩
        · intro h''
          rw [hs] at h''; cases h''

/-- The invariant over a run. -/
theorem Inv.run {M : Ledger} {as : List LedgerAct} (h : Inv limit L)
    (hr : Runs.run (step limit) L as = some M) : Inv limit M :=
  Runs.invariant (I := Inv limit) (fun L a L' hi hs => by cases hs; exact hi.next a) h hr

/-- Over a run the list of ids grows at its end only. -/
theorem ids_prefix_run {M : Ledger} {as : List LedgerAct}
    (hr : Runs.run (step limit) L as = some M) : L.ids <+: M.ids := by
  refine Runs.relates (R := fun L M : Ledger => L.ids <+: M.ids) (fun _ => List.prefix_rfl)
    (fun _ _ _ => List.IsPrefix.trans) ?_ hr
  intro L a L' hs
  cases hs
  rcases ids_next limit L a with he | ⟨id, -, he⟩
  · exact he ▸ List.prefix_rfl
  · exact he ▸ List.prefix_append _ _

/-- Channel `id` is tracked, and its log is `q`. -/
def HasLog (L : Ledger) (limit : Nat) (id : RTCDataChannelId) (q : Log InboundMessage.len limit) :
    Prop :=
  ∃ c, L.shared.channel? id = some c ∧
    Tracks limit (ofChannel id L.applied) (ofChannel id L.popped) c q

/-- Over a run a tracked channel stays tracked, and its log makes a run of operations. -/
theorem HasLog.run {M : Ledger} {as : List LedgerAct} {q : Log InboundMessage.len limit}
    (h : L.HasLog limit id q) (hr : Runs.run (step limit) L as = some M) :
    ∃ ops, M.HasLog limit id (q.applyAll ops) := by
  refine Runs.follows (R := fun L => L.HasLog limit id) (f := Log.apply) ?_ h hr
  intro L q a L' h hs
  cases hs
  obtain ⟨c, hc, hq⟩ := h
  obtain ⟨c', ops, hc', hops⟩ := next_tracks limit hc a
  exact ⟨ops, c', hc', hops q hq⟩

end Ledger

/-! ## The accounting -/

/-- The accounting of the inbound queues in one state: the ids are distinct, every
channel's byte count is the size of its inbox, is within the limit and never underflows on a pop,
and the popped messages followed by the inbox are the applied ones. -/
structure Accounted (limit : Nat) (L : Ledger) : Prop where
  nodup : L.ids.Nodup
  bytes : ∀ c ∈ L.shared.channels, c.inboxBytes = (c.inbox.map InboundMessage.len).sum
  bound : ∀ c ∈ L.shared.channels, c.inboxBytes ≤ limit
  pop : ∀ c ∈ L.shared.channels, ∀ m, c.pop.1 = some m → m.len ≤ c.inboxBytes
  fifo : ∀ c ∈ L.shared.channels, ofChannel c.id L.popped ++ c.inbox = ofChannel c.id L.applied

theorem Ledger.Inv.accounted {limit : Nat} {L : Ledger} (h : L.Inv limit) : Accounted limit L := by
  have hlog : ∀ c ∈ L.shared.channels, ∃ q : Log InboundMessage.len limit,
      Tracks limit (ofChannel c.id L.applied) (ofChannel c.id L.popped) c q := fun c hc =>
    (h.entry c.id).1 c (Keyed.find?_of_mem h.nodup hc)
  refine ⟨h.nodup, ?_, ?_, ?_, ?_⟩
  · intro c hc
    obtain ⟨q, hq⟩ := hlog c hc
    rw [hq.bytes, hq.held]; rfl
  · intro c hc
    obtain ⟨q, hq⟩ := hlog c hc
    rw [hq.bytes]; exact q.bound
  · intro c hc m hm
    obtain ⟨q, hq⟩ := hlog c hc
    cases hi : c.inbox with
    | nil => simp [Channel.pop, hi] at hm
    | cons m' rest =>
      simp only [Channel.pop, hi, Option.some.injEq] at hm
      subst hm
      rw [hq.bytes, ← hq.held, hi, load_cons]
      omega
  · intro c hc
    obtain ⟨q, hq⟩ := hlog c hc
    rw [hq.taken, hq.held, hq.applied]; rfl

/-- The channel an event is about, `none` for the connection-wide ones. -/
def PeerEvent.subject : PeerEvent → Option RTCDataChannelId
  | .connected | .failed | .closed => none
  | .channelOpen id _ | .channelClosed id | .message id _ _ => some id

/-- An event about one channel changes no other record; a connection-wide event changes at most
the `closed` flags. -/
theorem applyEvent_frame (limit : Nat) (s : Shared) (e : PeerEvent) :
    (∀ id id', e.subject = some id → id' ≠ id →
      (s.applyEvent limit e).channel? id' = s.channel? id') ∧
    (e.subject = none → (s.applyEvent limit e).channels = s.channels ∨
      (s.applyEvent limit e).channels = s.channels.map fun c => { c with closed := true }) := by
  refine ⟨?_, ?_⟩
  · intro id id' hs hne
    cases e with
    | connected | failed | closed => cases hs
    | channelOpen i label =>
      cases hs
      simp only [Shared.applyEvent]
      split
      · rfl
      · rw [Shared.channel?, Shared.channel?, Keyed.find?_concat]
        simp [Channel.new, Ne.symm hne]
    | channelClosed i =>
      cases hs
      exact s.channel?_modifyChannel_ne Channel.close_id hne
    | message i text data =>
      cases hs
      simp only [Shared.applyEvent]
      split
      · split
        · rfl
        · split
          · exact s.channel?_modifyChannel_ne Channel.overflow_id hne
          · exact s.channel?_modifyChannel_ne (Channel.push_id · ⟨text, data⟩) hne
      · rfl
  · intro hs
    cases e with
    | connected => exact .inl rfl
    | failed | closed => exact .inr rfl
    | channelOpen | channelClosed | message => cases hs

/-- The channel a step is about, `none` for the connection-wide ones. -/
def LedgerAct.subject : LedgerAct → Option RTCDataChannelId
  | .event e => e.subject
  | .pop id | .claim id => some id
  | .beginClose _ | .finish | .rest .. => none

/-- A step about one channel changes no other record; a connection-wide step, be it an event, the
local close or the pump's exit, changes at most the `closed` flags. -/
theorem Ledger.next_frame (limit : Nat) (L : Ledger) (a : LedgerAct) :
    (∀ id id', a.subject = some id → id' ≠ id →
      (L.next limit a).shared.channel? id' = L.shared.channel? id') ∧
    (a.subject = none → (L.next limit a).shared.channels = L.shared.channels ∨
      (L.next limit a).shared.channels =
        L.shared.channels.map fun c => { c with closed := true }) := by
  cases a with
  | event e => exact applyEvent_frame limit L.shared e
  | pop i =>
    refine ⟨fun id id' hs hne => ?_, nofun⟩
    cases hs
    simp only [next, Shared.popChannel]
    split
    · exact L.shared.channel?_modifyChannel_ne Channel.pop_id hne
    · rfl
  | claim i =>
    refine ⟨fun id id' hs hne => ?_, nofun⟩
    cases hs
    exact L.shared.channel?_modifyChannel_ne Channel.claim_id hne
  | beginClose now =>
    refine ⟨nofun, fun _ => ?_⟩
    simp only [next, Shared.beginClose]
    split
    · exact .inl rfl
    · exact .inr rfl
  | finish => exact ⟨nofun, fun _ => .inr rfl⟩
  | rest => exact ⟨nofun, fun _ => .inl rfl⟩

/-- **The inbound queue is bounded and exact over every run.** In every state `L` a run from a
fresh connection reaches the accounting holds; whatever happens after it up to `M`, the list of
channels has only grown at its end, and a channel that was closed or overflowed has had nothing
appended. A step about one channel changes no other channel's record, and a connection-wide one (a
core event, the local close, the pump's exit) changes at most the `closed` flags. -/
theorem inbox_accounting (limit : Nat) (peer : SansIoPeer) {as bs : List LedgerAct}
    {L M : Ledger} (hL : Runs.run (Ledger.step limit) (.init peer) as = some L)
    (hM : Runs.run (Ledger.step limit) L bs = some M) :
    Accounted limit L ∧ L.ids <+: M.ids ∧
      (∀ c ∈ L.shared.channels, c.closed = true ∨ c.overflowed = true →
        ofChannel c.id M.applied = ofChannel c.id L.applied) ∧
      ∀ a L', L.step limit a = some L' →
        (∀ id id', a.subject = some id → id' ≠ id →
          L'.shared.channel? id' = L.shared.channel? id') ∧
        (a.subject = none → L'.shared.channels = L.shared.channels ∨
          L'.shared.channels = L.shared.channels.map fun c => { c with closed := true }) := by
  have hinv : L.Inv limit := (Ledger.inv_init peer).run hL
  refine ⟨hinv.accounted, Ledger.ids_prefix_run hM, ?_, ?_⟩
  · intro c hc hdead
    have hfind := Keyed.find?_of_mem hinv.nodup hc
    obtain ⟨q, hq⟩ := (hinv.entry c.id).1 c hfind
    have hshut : q.shut = true := by
      rw [← hq.shut]
      exact hdead.elim id hq.overflow
    obtain ⟨ops, c', -, hq'⟩ := Ledger.HasLog.run ⟨c, hfind, hq⟩ hM
    rw [hq'.applied, (Log.applyAll_of_shut hshut ops).2, hq.applied]
  · intro a L' hs
    cases hs
    exact L.next_frame limit a

/-- A run that overflows at limit 3 and is popped afterwards: the two bytes buffered before the
overflow are popped, and the byte that would fit then is not appended. -/
theorem inbox_accounting_of_overflow :
    ∃ L M, Runs.run (Ledger.step 3) (.init .answerer)
        [.event (.channelOpen 1 "a"), .event (.message 1 true [104, 105]),
          .event (.message 1 false [1, 2])] = some L ∧
      Runs.run (Ledger.step 3) L [.pop 1, .event (.message 1 false [7])] = some M ∧
      Accounted 3 L ∧ L.ids <+: M.ids ∧
      ofChannel 1 M.applied = ofChannel 1 L.applied ∧
      ofChannel 1 M.popped = [⟨true, [104, 105]⟩] := by
  refine ⟨_, _, rfl, rfl, ?_⟩
  have h := @inbox_accounting 3 .answerer
    [.event (.channelOpen 1 "a"), .event (.message 1 true [104, 105]),
      .event (.message 1 false [1, 2])]
    [.pop 1, .event (.message 1 false [7])] _ _ rfl rfl
  exact ⟨h.1, h.2.1, h.2.2.1 _ (List.mem_singleton_self _) (.inl rfl), rfl⟩

end WebrtcDatachannels.Guest
