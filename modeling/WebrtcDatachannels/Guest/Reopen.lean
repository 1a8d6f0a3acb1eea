import WebrtcDatachannels.Guest.Incoming

/-!
# An id that is opened again

A channel is known by its id alone: the record in `Shared::channels`, the handles, the feeders and
the dedup of opens in `apply_event` all go by it, and a record is never removed. When the core opens
an id again whose channel has closed, `apply_event` finds the closed record and ignores the open.
The system is a connection whose core may also give a channel that the guest creates an id used
before (`Conn.reuse`). After such an open on a live connection the second channel gets nothing: no
stream has a handle for it, every send on the id is refused and no message of it comes in, while the
handles go on with the first channel's backlog (`Conn.reopened_never_served`).
-/

namespace WebrtcDatachannels.Guest

/-! ## The records' ids and labels -/

/-- The ids and labels of the tracked channels, in open order. -/
def Shared.entries (s : Shared) : List (RTCDataChannelId × String) :=
  s.channels.map fun c => (c.id, c.label)

/-- A handle's id and label. -/
def DataChannel.entry (h : DataChannel) : RTCDataChannelId × String := (h.id, h.label)

section
variable {limit : Nat} {s : Shared}

theorem entries_modify (s : Shared) (id : RTCDataChannelId) {f : Channel → Channel}
    (hf : ∀ c, ((f c).id, (f c).label) = (c.id, c.label)) :
    (s.modifyChannel id f).entries = s.entries :=
  labels_modify hf s.channels

theorem entries_closeChannels (s : Shared) : s.closeChannels.entries = s.entries := by
  simp only [Shared.entries, Shared.closeChannels, List.map_map]
  rfl

/-- An event changes no record's id or label. -/
theorem applyEvent_entries (limit : Nat) (s : Shared) (e : PeerEvent) :
    s.entries <+: (s.applyEvent limit e).entries := by
  have hsame : ∀ s' : Shared, s'.entries = s.entries → s.entries <+: s'.entries :=
    fun s' he => he ▸ List.prefix_rfl
  cases e with
  | connected => exact List.prefix_rfl
  | failed | closed => exact hsame _ (entries_closeChannels s)
  | channelOpen id label =>
    simp only [Shared.applyEvent]
    split
    · exact List.prefix_rfl
    · simp only [Shared.entries, List.map_append]
      exact List.prefix_append _ _
  | channelClosed id => exact hsame _ (entries_modify s id fun _ => rfl)
  | message id text data =>
    simp only [Shared.applyEvent]
    split
    · split
      · exact List.prefix_rfl
      · split
        · exact hsame _ (entries_modify s id fun _ => rfl)
        · exact hsame _ (entries_modify s id fun _ => rfl)
    · exact List.prefix_rfl

theorem applyEvents_entries (limit : Nat) (s : Shared) (es : List PeerEvent) :
    s.entries <+: (s.applyEvents limit es).entries := by
  induction es generalizing s with
  | nil => exact List.prefix_rfl
  | cons e es ih => exact (applyEvent_entries limit s e).trans (ih _)

theorem turn_entries (limit : Nat) (s : Shared) :
    (s.turn limit).entries = (s.drain.applyEvents limit s.drained).entries := by
  simp only [Shared.entries, turn_channels]

/-- No step changes a record's id or label. -/
theorem Effect.entries {pumps : Prop} {L L' : Ledger} (h : Effect limit pumps L L') :
    L.shared.entries <+: L'.shared.entries := by
  have hsame : ∀ s' : Shared, s'.entries = L.shared.entries → L.shared.entries <+: s'.entries :=
    fun s' he => he ▸ List.prefix_rfl
  cases h with
  | watch | peer | sent => exact List.prefix_rfl
  | popped id m c hc hm => exact hsame _ (entries_modify _ id Channel.pop_label)
  | turn _ es hes =>
    have hturn := applyEvents_entries limit L.shared.drain L.shared.drained
    rw [Shared.entries, L.shared.drain_frame.1, ← turn_entries] at hturn
    exact hturn
  | finish => exact hsame _ (entries_closeChannels _)
  | beginClose now =>
    simp only [Shared.beginClose]
    split
    · exact List.prefix_rfl
    · exact hsame _ (entries_closeChannels _)
  | claim id c hc hs hcl => exact hsame _ (entries_modify L.shared id fun _ => rfl)

/-- A scan that finds a channel stands behind it. -/
theorem scanIncoming_entry {l : Option RTCDataChannelId} {cs : List Channel} {n n' : Nat}
    {id : RTCDataChannelId} {label : String} (h : scanIncoming l cs n = (some (id, label), n')) :
    ∃ skipped c rest, cs = skipped ++ c :: rest ∧ (c.id, c.label) = (id, label) ∧
      n' = n + (skipped.length + 1) := by
  induction cs generalizing n with
  | nil => cases h
  | cons c cs ih =>
    rw [scanIncoming] at h
    split at h
    · cases h
      exact ⟨[], c, cs, rfl, rfl, rfl⟩
    · obtain ⟨skipped, c', rest, hcs, hc, hn⟩ := ih h
      refine ⟨c :: skipped, c', rest, by rw [hcs]; rfl, hc, ?_⟩
      rw [hn, List.length_cons]
      omega

/-- A step on a connection hands the core no message for a channel that is closed. -/
theorem Effect.sends_of_closed {pumps : Prop} {L L' : Ledger} {id : RTCDataChannelId}
    (h : Effect limit pumps L L') (hc : channelState L.shared id = .closed) :
    L'.shared.peer.sends.filter (·.id = id) = L.shared.peer.sends.filter (·.id = id) := by
  cases h with
  | watch | popped | finish | claim => rfl
  | peer p hp => exact congrArg _ hp
  | sent id' message answer hopen =>
    have hne : id' ≠ id := by
      rintro rfl
      rw [hc] at hopen
      cases hopen
    simp [SansIoPeer.send, hne]
  | turn _ es hes => exact congrArg _ (turn_sends limit L.shared)
  | beginClose now => simp only [Shared.beginClose]; split <;> rfl

end

/-! ## Ids used again -/

/-- What can happen on a connection whose core may give a channel that the guest creates an id that
the connection has used before. -/
inductive ReuseAct where
  | act (a : Act)
  | createAgain (label : String) (id : RTCDataChannelId)

namespace Conn

/-- One step. -/
def reuse (limit : Nat) (c : Conn) : ReuseAct → Option Conn
  | .act a => c.step limit a
  | .createAgain label id =>
    some
      { c.setShared { c.shared with peer := c.shared.peer.createDataChannel id label } with
        localChannel := some id
        handles := c.handles ++ [⟨c.waker, id, label⟩]
        created := c.created ++ [id] }

/-- The ledger of the pump's next block when it has folded the events `es`. -/
def folded (limit : Nat) (c : Conn) (es : List PeerEvent) : Ledger :=
  es.foldl (fun L e => L.next limit (.event e)) { c.ledger with shared := c.shared.drain }

/-- The pump's next block drains an open of an id on a live connection that has a closed record of
it, that of the `first` channel; `L` is the ledger that the open finds. -/
structure Reopens (limit : Nat) (c : Conn) (first : Channel) (label : String) (L : Ledger) :
    Prop where
  drained : ∃ pre post, c.shared.drained = pre ++ .channelOpen first.id label :: post ∧
    L = c.folded limit pre
  live : L.shared.dead = false
  record : L.shared.channel? first.id = some first
  closed : first.closed = true

/-- A stream has a handle for the second channel: one beside that of the first, or one with a label
that the first does not have. -/
def SurfacesAgain (c : Conn) (first : Channel) : Prop :=
  ∃ (k : TaskId) (l : Option RTCDataChannelId) (cursor : Nat) (yielded : List DataChannel)
    (feed : Feed DataChannel), c.tasks[k]? = some (.pumpIncoming l cursor yielded feed) ∧
      (2 ≤ (given yielded feed).count first.id ∨
        ∃ h ∈ yielded ++ feed.inHand, h.id = first.id ∧ h.label ≠ first.label)

/-- A send on the id is not refused, or one has reached the core since `L`. -/
def SendsReach (L : Ledger) (c : Conn) (id : RTCDataChannelId) : Prop :=
  (∃ message answer,
    whenOpen c.shared id (handOver id message answer) ≠ (.ret (.error .closed), c.shared)) ∨
  c.shared.peer.sends.filter (·.id = id) ≠ L.shared.peer.sends.filter (·.id = id)

/-- A message for the id has come in since `L`. -/
def ReceivesAgain (L : Ledger) (c : Conn) (id : RTCDataChannelId) : Prop :=
  ofChannel id c.ledger.applied ≠ ofChannel id L.applied

/-- The handles on the id have the first channel's messages, what is left of them is its backlog,
and after it they find the channel closed. -/
def KeepsFirst (L : Ledger) (c : Conn) (id : RTCDataChannelId) : Prop :=
  ∃ ch, c.shared.channel? id = some ch ∧ ch.closed = true ∧
    ofChannel id c.ledger.popped ++ ch.inbox = ofChannel id L.applied

/-- What each stream has yielded or holds stands among the records it has passed, in their order. -/
def Scans (c : Conn) : Prop :=
  ∀ (k : TaskId) (l : Option RTCDataChannelId) (cursor : Nat) (yielded : List DataChannel)
    (feed : Feed DataChannel), c.tasks[k]? = some (.pumpIncoming l cursor yielded feed) →
    ((yielded ++ feed.inHand).map DataChannel.entry).Sublist (c.shared.entries.take cursor)

section
variable {limit : Nat} {c c' : Conn} {x : ReuseAct} {xs : List ReuseAct} {id : RTCDataChannelId}

/-- What a step does to the ledger. -/
theorem reuse_effect (h : c.reuse limit x = some c') :
    ∃ pumps, Effect limit pumps c.ledger c'.ledger := by
  cases x with
  | act a => exact ⟨_, step_effect h⟩
  | createAgain label id => cases h; exact ⟨False, .peer _ rfl⟩

/-- A run is a run of the ledger. -/
theorem reuse_ledger (h : Runs.run (reuse limit) c xs = some c') :
    ∃ bs, Runs.run (Ledger.step limit) c.ledger bs = some c'.ledger := by
  have hstep : ∀ c L x c', c.ledger = L → reuse limit c x = some c' →
      ∃ bs L', Runs.run (Ledger.step limit) L bs = some L' ∧ c'.ledger = L' := by
    rintro c _ x c' rfl hs
    obtain ⟨pumps, he⟩ := reuse_effect hs
    obtain ⟨bs, hbs⟩ := he.run
    exact ⟨bs, _, hbs, rfl⟩
  obtain ⟨bs, L, hbs, rfl⟩ := Runs.simulates hstep rfl h
  exact ⟨bs, hbs⟩

theorem reuse_entries (h : Runs.run (reuse limit) c xs = some c') :
    c.shared.entries <+: c'.shared.entries := by
  refine Runs.relates (R := fun c c' : Conn => c.shared.entries <+: c'.shared.entries)
    (fun _ => List.prefix_rfl) (fun _ _ _ => List.IsPrefix.trans) ?_ h
  intro c x c' hs
  obtain ⟨pumps, he⟩ := reuse_effect hs
  exact he.entries

theorem Start.scans (h : c.Start) : c.Scans := by
  rcases h with rfl | rfl <;> nofun

/-- Records that are added leave what a stream has passed. -/
theorem sublist_take_of_prefix {α : Type} {l l' ys : List α} {n : Nat}
    (h : ys.Sublist (l.take n)) (hl : l <+: l') : ys.Sublist (l'.take n) := by
  obtain ⟨rest, rfl⟩ := hl
  rw [List.take_append]
  exact h.trans (List.sublist_append_left _ _)

/-- A poll of a stream takes at most the record that it finds. -/
theorem Scans.poll {t : Task} {k : TaskId} {now : Instant} {answer : Except String Unit}
    {p : Polled} (hi : c.Scans) (hk : c.tasks[k]? = some t)
    (hp : t.poll c.shared k now answer = some p) {l : Option RTCDataChannelId} {cursor : Nat}
    {yielded : List DataChannel} {feed : Feed DataChannel}
    (ht : p.task = .pumpIncoming l cursor yielded feed) :
    ((yielded ++ feed.inHand).map DataChannel.entry).Sublist (c.shared.entries.take cursor) := by
  obtain ⟨cursor₀, seen, rfl, hfeed⟩ := Task.poll_incoming hp ht
  have hold := hi k l cursor₀ yielded _ hk
  rw [Feed.inHand, List.append_nil] at hold
  have hnone : ∀ n, (yielded.map DataChannel.entry).Sublist
      (c.shared.entries.take (cursor₀ + n)) := by
    intro n
    rw [List.take_add]
    exact hold.trans (List.sublist_append_left _ _)
  rcases hfeed with ⟨id, label, rfl, hscan⟩ | ⟨hscan, rfl, hend⟩
  · obtain ⟨skipped, ch, rest, hdrop, hch, rfl⟩ := scanIncoming_entry hscan
    have hpassed : (c.shared.entries.drop cursor₀).take (skipped.length + 1) =
        skipped.map (fun c => (c.id, c.label)) ++ [(id, label)] := by
      rw [Shared.entries, ← List.map_drop, hdrop, ← hch, List.append_cons, List.map_append,
        List.map_append, List.map_singleton]
      exact List.take_left' (by rw [List.length_append, List.length_map]; rfl)
    rw [List.take_add, hpassed, List.map_append]
    exact hold.append (List.sublist_append_right _ _)
  · have hcursor := (scanIncoming_skips hscan).2
    rw [hcursor]
    rcases hend with ⟨rfl, -⟩ | ⟨rfl, -⟩
    · rw [Feed.inHand, List.append_nil]; exact hnone _
    · rw [Feed.inHand, List.append_nil]; exact hnone _

/-- Every step keeps it. -/
theorem Scans.step (hi : c.Scans) (h : c.reuse limit x = some c') : c'.Scans := by
  obtain ⟨pumps, he⟩ := reuse_effect h
  cases x with
  | createAgain label id => cases h; exact hi
  | act a =>
    intro k l cursor yielded feed hk
    refine sublist_take_of_prefix ?_ he.entries
    cases step_task h hk with
    | kept hk | other _ _ _ _ _ hk => exact hi k l cursor yielded feed hk
    | spawned _ ht =>
      obtain ⟨-, -, rfl, rfl, -⟩ := ht
      exact List.nil_sublist _
    | polled t now answer p hk hp ht => exact hi.poll hk hp ht
    | advanced t io hk hadv =>
      obtain ⟨yielded', handle, rfl, hy, -⟩ := Task.advance_yields hadv
      rw [hy]
      exact hi k l cursor yielded' _ hk

theorem Scans.run (hi : c.Scans) (h : Runs.run (reuse limit) c xs = some c') : c'.Scans :=
  Runs.invariant (I := Scans) (fun _ _ _ hi hs => hi.step hs) hi h

/-- No stream has two handles for one record, or a label that no record has. -/
theorem Scans.not_surfaces {first : Channel} (hi : c.Scans) (hnodup : c.ids.Nodup)
    (hfirst : (first.id, first.label) ∈ c.shared.entries) : ¬ c.SurfacesAgain first := by
  have hids : c.shared.entries.map Prod.fst = c.ids := by
    simp only [Shared.entries, List.map_map]
    rfl
  rintro ⟨k, l, cursor, yielded, feed, hk, hsurf⟩
  have hsub := (hi k l cursor yielded feed hk).trans (List.take_sublist _ _)
  rcases hsurf with htwo | ⟨h, hmem, hid, hlabel⟩
  · have hgiven : (given yielded feed).Sublist c.ids := by
      have hfst := hsub.map Prod.fst
      rw [hids, List.map_map] at hfst
      exact hfst
    have hone := List.nodup_iff_count_le_one.1 (hnodup.sublist hgiven) first.id
    omega
  · have hentry : h.entry ∈ c.shared.entries := hsub.subset (List.mem_map_of_mem hmem)
    have heq := List.inj_on_of_nodup_map (hids ▸ hnodup) hentry hfirst hid
    exact hlabel (congrArg Prod.snd heq)

end

/-! ## After the second open -/

section
variable {limit : Nat} {c c₁ c' : Conn} {xs : List ReuseAct} {first : Channel} {label : String}
  {L : Ledger} {now : Instant} {id : RTCDataChannelId}

theorem folded_run (limit : Nat) (c : Conn) (es : List PeerEvent) :
    ∃ bs, Runs.run (Ledger.step limit) c.ledger bs = some (c.folded limit es) := by
  refine ⟨.rest c.shared.drain.peer c.shared.drain.closeRequested c.shared.drain.watch ::
    es.map .event, Runs.run_cons_eq_some.2 ⟨_, rfl, ?_⟩⟩
  rw [next_drain]
  exact run_events es

theorem turn_ledger (h : c.step limit (.turn now) = some c₁) :
    c₁.ledger = { c.folded limit c.shared.drained with shared := c.shared.turn limit } := by
  simp only [Conn.step] at h
  split at h
  · cases h; rfl
  · cases h

/-- The rest of the block is a run from the ledger that the open finds, and keeps its records. -/
theorem Reopens.turn (hre : c.Reopens limit first label L)
    (h : c.step limit (.turn now) = some c₁) :
    (∃ bs, Runs.run (Ledger.step limit) L bs = some c₁.ledger) ∧
      L.shared.entries <+: c₁.shared.entries := by
  obtain ⟨pre, post, hdrained, rfl⟩ := hre.drained
  have hshared : (c.folded limit pre).shared = c.shared.drain.applyEvents limit pre :=
    foldl_event_shared limit _ pre
  have hfold : c.folded limit c.shared.drained =
      (.channelOpen first.id label :: post).foldl (fun L e => L.next limit (.event e))
        (c.folded limit pre) := by
    rw [hdrained, folded, List.foldl_append]
    rfl
  rw [Conn.shared, turn_ledger h]
  constructor
  · refine ⟨(.channelOpen first.id label :: post).map .event ++
      [.rest (c.shared.turn limit).peer (c.shared.turn limit).closeRequested
        (c.shared.turn limit).watch],
      Runs.run_append_eq_some.2 ⟨_, run_events _, Runs.run_cons_eq_some.2 ⟨_, rfl, ?_⟩⟩⟩
    rw [← hfold, next_turn (foldl_event_shared limit _ _)]
    rfl
  · have happ := applyEvents_entries limit (c.shared.drain.applyEvents limit pre)
      (.channelOpen first.id label :: post)
    rw [← Shared.applyEvents_append, ← hdrained] at happ
    rw [hshared]
    show _ <+: (c.shared.turn limit).entries
    rw [turn_entries]
    exact happ

/-- No message is handed to the core in a block. -/
theorem Reopens.turn_sends (hre : c.Reopens limit first label L)
    (h : c.step limit (.turn now) = some c₁) : c₁.shared.peer.sends = L.shared.peer.sends := by
  obtain ⟨pre, post, -, rfl⟩ := hre.drained
  have hfolded : (c.folded limit pre).shared = c.shared.drain.applyEvents limit pre :=
    foldl_event_shared limit _ pre
  rw [Conn.shared, turn_ledger h, hfolded, applyEvents_sends, c.shared.drain_frame.2.2.2.2.2]
  exact turn_sends limit c.shared

/-- On a connection whose record of an id is closed no message reaches the core on it. -/
theorem reuse_sends {ch : Channel} (hch : c.shared.channel? id = some ch) (hcl : ch.closed = true)
    (h : Runs.run (reuse limit) c xs = some c') :
    c'.shared.peer.sends.filter (·.id = id) = c.shared.peer.sends.filter (·.id = id) := by
  have hstate : ∀ {c : Conn}, (∃ ch, c.shared.channel? id = some ch ∧ ch.closed = true) →
      channelState c.shared id = .closed := by
    rintro c ⟨ch, hch, hcl⟩
    simp [channelState, hch, hcl]
  refine (Runs.invariant (I := fun c' : Conn =>
    (∃ ch, c'.shared.channel? id = some ch ∧ ch.closed = true) ∧
      c'.shared.peer.sends.filter (·.id = id) = c.shared.peer.sends.filter (·.id = id))
    ?_ ⟨⟨ch, hch, hcl⟩, rfl⟩ h).2
  rintro c x c' ⟨hclosed, hsends⟩ hs
  obtain ⟨pumps, he⟩ := reuse_effect hs
  refine ⟨?_, (he.sends_of_closed (hstate hclosed)).trans hsends⟩
  obtain ⟨ch, hch, hcl⟩ := hclosed
  obtain ⟨ch', hch', hkept⟩ := he.flagsKept.channel id ch hch
  exact ⟨ch', hch', hkept.closed hcl⟩

/-- The first channel's log goes on, shut, in every later state. -/
theorem Reopens.log {M : Ledger} {bs : List LedgerAct} (hre : c.Reopens limit first label L)
    (hinv : c.ledger.Inv limit) (h : Runs.run (Ledger.step limit) L bs = some M) :
    ∃ ch, M.shared.channel? first.id = some ch ∧ ch.closed = true ∧
      ofChannel first.id M.applied = ofChannel first.id L.applied ∧
      ofChannel first.id M.popped ++ ch.inbox = ofChannel first.id L.applied := by
  obtain ⟨pre, post, -, hL⟩ := hre.drained
  obtain ⟨ds, hds⟩ := folded_run limit c pre
  obtain ⟨q, hq⟩ := ((hinv.run hds).entry first.id).1 first (hL ▸ hre.record)
  rw [← hL] at hq
  have hshut : q.shut = true := hq.shut ▸ hre.closed
  obtain ⟨ops, ch, hch, hq'⟩ := Ledger.HasLog.run ⟨first, hre.record, hq⟩ h
  obtain ⟨hshut', hacc⟩ := BoundedLog.Log.applyAll_of_shut hshut ops
  have happ : ofChannel first.id M.applied = ofChannel first.id L.applied := by
    rw [hq'.applied, hacc, hq.applied]
  refine ⟨ch, hch, hq'.shut.trans hshut', happ, ?_⟩
  rw [← happ, hq'.applied, hq'.taken, hq'.held]
  rfl

end

/-- **An id that is opened again stays with its first channel.** When an open of an id is drained on
a live connection whose record of it is closed, then in every later state no stream has a handle for
the second channel, no send on the id is let through or has reached the core since, and no message
of the second channel has come in; the handles on the id find what is left of the first channel's
messages, and then a closed channel. -/
theorem reopened_never_served (limit : Nat) {c₀ c c₁ c' : Conn} {as bs : List ReuseAct}
    {now : Instant} {first : Channel} {label : String} {L : Ledger} (h₀ : c₀.Start)
    (hc : Runs.run (reuse limit) c₀ as = some c) (hre : c.Reopens limit first label L)
    (hturn : c.step limit (.turn now) = some c₁) (hc' : Runs.run (reuse limit) c₁ bs = some c') :
    ¬ c'.SurfacesAgain first ∧ ¬ SendsReach L c' first.id ∧ ¬ ReceivesAgain L c' first.id ∧
      KeepsFirst L c' first.id := by
  obtain ⟨ds, hds⟩ := reuse_ledger hc
  have hinv : c.ledger.Inv limit := h₀.inv.run hds
  obtain ⟨⟨es, hes⟩, hentries⟩ := hre.turn hturn
  obtain ⟨fs, hfs⟩ := reuse_ledger hc'
  obtain ⟨ch₁, hch₁, hcl₁, -, -⟩ := hre.log hinv hes
  obtain ⟨ch, hch, hcl, happ, hkept⟩ := hre.log hinv (Runs.run_append_eq_some.2 ⟨_, hes, hfs⟩)
  have hfirst : (first.id, first.label) ∈ L.shared.entries :=
    List.mem_map_of_mem (Keyed.mem_of_find? hre.record).1
  have hrun : Runs.run (reuse limit) c₀ (as ++ .act (.turn now) :: bs) = some c' :=
    Runs.run_append_eq_some.2 ⟨c, hc, Runs.run_cons_eq_some.2 ⟨c₁, hturn, hc'⟩⟩
  obtain ⟨gs, hgs⟩ := reuse_ledger hrun
  refine ⟨?_, ?_, fun hr => hr happ, ch, hch, hcl, hkept⟩
  · exact (h₀.scans.run hrun).not_surfaces (h₀.inv.run hgs).nodup
      ((reuse_entries hc').subset (hentries.subset hfirst))
  · have hclosed : channelState c'.shared first.id = .closed := by simp [channelState, hch, hcl]
    rintro (⟨message, answer, hne⟩ | hsends)
    · exact hne (whenOpen_closed hclosed _)
    · refine hsends ((reuse_sends hch₁ hcl₁ hc').trans ?_)
      exact congrArg _ (hre.turn_sends hturn)

/-- The remote's channel closes, its id is opened again with another label, and a message comes in
on it; the guest creates a channel for which the core picks the id too. -/
theorem reopened_never_served_of_remote :
    ∃ c c₁ c' first L, Runs.run (reuse 8) .bound
        [.act (.core [.onDataChannel (.onOpen 7)] [] [(7, "a")]), .act (.turn 0),
          .act (.core [.onDataChannel (.onClose 7), .onDataChannel (.onOpen 7)]
            [.dataChannelMessage 7 true [104]] [(7, "b")])] = some c ∧
      c.Reopens 8 first "b" L ∧ c.step 8 (.turn 1) = some c₁ ∧
      Runs.run (reuse 8) c₁ [.createAgain "c" 7] = some c' ∧
      ¬ c'.SurfacesAgain first ∧ ¬ SendsReach L c' 7 ∧ ¬ ReceivesAgain L c' 7 ∧
      KeepsFirst L c' 7 := by
  refine ⟨_, _, _, ⟨7, "a", [], 0, false, false, true⟩, _, rfl,
    ⟨⟨[.channelClosed 7], [.message 7 true [104]], rfl, rfl⟩, rfl, rfl, rfl⟩, rfl, rfl, ?_⟩
  exact @reopened_never_served 8 .bound _ _ _
    [.act (.core [.onDataChannel (.onOpen 7)] [] [(7, "a")]), .act (.turn 0),
      .act (.core [.onDataChannel (.onClose 7), .onDataChannel (.onOpen 7)]
        [.dataChannelMessage 7 true [104]] [(7, "b")])]
    [.createAgain "c" 7] 1 _ "b" _ (.inl rfl) rfl
    ⟨⟨[.channelClosed 7], [.message 7 true [104]], rfl, rfl⟩, rfl, rfl, rfl⟩ rfl rfl

/-- On a live connection the guest has adopted the channel that the remote opened; it closes, and
the id is opened again with a message on the way. The stream waits without a second handle, a send
and a `receive` on the handle return `closed`, and nothing has reached the core or the guest. -/
theorem second_channel_lost :
    ∃ c, Runs.run (reuse 8) .bound
      [.act (.core [.onDataChannel (.onOpen 7)] [] [(7, "a")]), .act (.turn 0),
        .act .incomingDataChannels, .act (.poll 0 1 (.ok ())), .act (.io 0 .accepted),
        .act (.core [.onDataChannel (.onClose 7)] [] []), .act (.turn 2),
        .act (.core [.onDataChannel (.onOpen 7)] [.dataChannelMessage 7 true [104]] [(7, "b")]),
        .act (.turn 3), .act (.poll 0 4 (.ok ())),
        .act (.send ⟨.detached, 7, "a"⟩ (.string "x")), .act (.poll 1 5 (.ok ())),
        .act (.receive ⟨.detached, 7, "a"⟩), .act (.poll 2 6 (.ok ()))] = some c ∧
      c.shared.dead = false ∧ c.ids = [7] ∧ c.shared.peer.sends = [] ∧ c.ledger.applied = [] ∧
      c.tasks =
        [.pumpIncoming none 1 [⟨.detached, 7, "a"⟩] (.looping (some 3)),
          .send ⟨.detached, 7, "a"⟩ (.string "x") (.returned (.error .closed)),
          .receive ⟨.detached, 7, "a"⟩ (.returned (.error .closed))] :=
  ⟨_, rfl, rfl, rfl, rfl, rfl, rfl⟩

end Conn

end WebrtcDatachannels.Guest
