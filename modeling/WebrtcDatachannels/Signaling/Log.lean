import WebrtcDatachannels.Lib.Runs
import WebrtcDatachannels.Lib.SealedLog
import WebrtcDatachannels.Signaling.Rooms

/-!
# Each mailbox is an append-only log

A client of the store calls `publish`, `mark_done` and `fetch_now` on the mailboxes, and rooms are
deleted and evicted between the calls. `Rooms.call` reads the three operations as those of a
`SealedLog` of blobs, and `contents` a mailbox as such a log; from a room's creation to its removal
the replies on each of its mailboxes are those of that log (`call_self`), whatever is called on the
others (`call_other`).
-/

namespace WebrtcDatachannels.Signaling

/-- The answer to a publish, as a reply of a log. -/
def Publish.reply : Publish → SealedLog.Reply Bytes
  | .seq n => .appended n
  | .done => .refused
  | .capacity => .full

/-- The answer to a fetch, as a reply of a log. -/
def Fetch.reply : Fetch → SealedLog.Reply Bytes
  | .blob bytes => .item bytes
  | .done => .over
  | .pending => .pending

namespace Rooms

/-- Call `publish`, `mark_done` or `fetch_now` on a mailbox. -/
def call (s : Rooms) (now : Instant) (room : String) (role : Role) :
    SealedLog.Op Bytes → SealedLog.Reply Bytes × Rooms
  | .append blob => ((s.publish now room role blob).1.reply, (s.publish now room role blob).2.2)
  | .finish => (.length (s.markDone now room role).1, (s.markDone now room role).2.2)
  | .read seq => ((s.fetchNow now room role seq).1.1.reply, (s.fetchNow now room role seq).2)

/-- A mailbox as a log; one of a room that is not there is empty. -/
def contents (s : Rooms) (room : String) (role : Role) : SealedLog.Log Bytes :=
  match s.mailbox? room role with
  | some m => ⟨m.blobs, m.done⟩
  | none => ⟨[], false⟩

/-- The lengths at which a mailbox takes a further blob. -/
def takes (s : Rooms) (length : Nat) : Bool := !s.crowded length

end Rooms

/-- A store with the calls made on it and their replies, oldest first. -/
structure Store where
  rooms : Rooms
  history : List ((String × Role) × SealedLog.Event Bytes)

/-- What can happen on a store. -/
inductive Act where
  | call (now : Instant) (room : String) (role : Role) (op : SealedLog.Op Bytes)
  | delete (room : String)
  | evictExpired (now : Instant)

namespace Store

/-- One step. -/
def step (s : Store) : Act → Store
  | .call now room role op =>
    { rooms := (s.rooms.call now room role op).2
      history := s.history ++ [((room, role), (op, (s.rooms.call now room role op).1))] }
  | .delete room => { s with rooms := (s.rooms.delete room).2.2 }
  | .evictExpired now => { s with rooms := (s.rooms.evictExpired now).2.2 }

/-- One step after which the room `r` is there. A run of such steps from a store without `r` starts
with the call that creates it and ends before it is removed. -/
def stepKeeping (r : String) (s : Store) (a : Act) : Option Store :=
  if r ∈ (s.step a).rooms.map then some (s.step a) else none

/-- The calls on one mailbox with their replies. -/
def own (s : Store) (room : String) (role : Role) : List (SealedLog.Event Bytes) :=
  s.history.filterMap fun e => if e.1 = (room, role) then some e.2 else none

end Store

/-! ## One call -/

namespace Rooms

section
variable {s : Rooms} {now : Instant} {room room' : String} {role role' : Role}

theorem contents_of_entry (s : Rooms) (now : Instant) (room : String) (role : Role) :
    s.contents room role =
      ⟨((s.entry now room).1.mailbox role).blobs, ((s.entry now room).1.mailbox role).done⟩ := by
  obtain ⟨hb, hd⟩ := s.entry_mailbox now room role
  rw [hb, hd]
  unfold contents
  cases s.mailbox? room role <;> rfl

/-- `entry` leaves every mailbox's contents alone. -/
theorem contents_entry (s : Rooms) (now : Instant) (room room' : String) (role : Role) :
    (s.entry now room).2.contents room' role = s.contents room' role := by
  by_cases h : room' = room
  · subst h
    rw [s.contents_of_entry now room' role]
    simp [contents, mailbox?, lookup_entry]
  · simp [contents, mailbox?, lookup_entry, h]

/-- A write changes the contents of its mailbox only. -/
theorem contents_write (s : Rooms) (now : Instant) (room : String) (role : Role) (m : Mailbox) :
    ((s.entry now room).2.write room (s.entry now room).1 role m).contents room role =
        ⟨m.blobs, m.done⟩ ∧
      ∀ room' role', (room', role') ≠ (room, role) →
        ((s.entry now room).2.write room (s.entry now room).1 role m).contents room' role' =
          s.contents room' role' := by
  refine ⟨by simp [contents, mailbox?, lookup_write], fun room' role' hne => ?_⟩
  by_cases h : room' = room
  · subst h
    have hrole : role' ≠ role := fun he => hne (by rw [he])
    rw [s.contents_of_entry now room' role']
    simp [contents, mailbox?, lookup_write, Room.mailbox_setMailbox_ne _ _ hrole]
  · rw [← s.contents_entry now room room' role']
    simp [contents, mailbox?, lookup_write, h]

theorem reply_peek (m : Mailbox) (seq : Nat) :
    (m.peek seq).reply = SealedLog.Log.look ⟨m.blobs, m.done⟩ seq := by
  unfold Mailbox.peek SealedLog.Log.look
  cases m.blobs[seq]? with
  | some blob => rfl
  | none => cases m.done <;> rfl

/-- No call on a room that is there is refused for want of a room. -/
theorem full_of_mem (h : room ∈ s.map) : s.full room = false := by
  simp [full, h]

/-- The call `op` on a mailbox, in a store in which its room is there after it, does what it does on
a log. -/
theorem call_self {op : SealedLog.Op Bytes} (h : room ∈ (s.call now room role op).2.map) :
    (s.call now room role op).1 = ((s.contents room role).apply s.takes op).1 ∧
      (s.call now room role op).2.contents room role =
        ((s.contents room role).apply s.takes op).2 := by
  have hcontents := s.contents_of_entry now room role
  cases op with
  | append blob =>
    have hfull : s.full room = false := by
      cases hf : s.full room with
      | false => rfl
      | true =>
        -- a refused publish does not create the room
        have habs : room ∉ s.map := by
          simp only [full, Bool.and_eq_true, decide_eq_true_eq] at hf
          exact hf.1.1
        simp only [call, publish, hf, if_true] at h
        exact absurd h habs
    simp only [call, publish, hfull, Bool.false_eq_true, if_false, SealedLog.Log.apply, hcontents,
      takes]
    cases hd : ((s.entry now room).1.mailbox role).done with
    | true =>
      refine ⟨by simp [Publish.reply], ?_⟩
      simp only [if_true]
      rw [contents_entry, hcontents, hd]
    | false =>
      cases hc : s.crowded ((s.entry now room).1.mailbox role).blobs.length with
      | true =>
        refine ⟨by simp [Publish.reply], ?_⟩
        simp only [Bool.false_eq_true, if_false, if_true, Bool.not_true]
        rw [contents_entry, hcontents, hd]
      | false =>
        refine ⟨by simp [Publish.reply], ?_⟩
        simp only [Bool.false_eq_true, if_false, Bool.not_false, if_true]
        rw [(s.contents_write now room role _).1]
  | finish =>
    simp only [call, markDone, SealedLog.Log.apply, hcontents]
    exact ⟨trivial, (s.contents_write now room role _).1⟩
  | read seq =>
    simp only [call, fetchNow, SealedLog.Log.apply, hcontents]
    exact ⟨reply_peek _ seq, by rw [contents_entry, hcontents]⟩

/-- A call on one mailbox leaves the contents of the others alone. -/
theorem call_other (s : Rooms) (now : Instant) (op : SealedLog.Op Bytes)
    (hne : (room', role') ≠ (room, role)) :
    (s.call now room role op).2.contents room' role' = s.contents room' role' := by
  cases op with
  | append blob =>
    simp only [call, publish]
    split
    · rfl
    · split
      · exact s.contents_entry now room room' role'
      · split
        · exact s.contents_entry now room room' role'
        · exact (s.contents_write now room role _).2 room' role' hne
  | finish => exact (s.contents_write now room role _).2 room' role' hne
  | read seq => exact s.contents_entry now room room' role'

theorem mem_entry (now : Instant) (room : String) (h : room' ∈ s.map) :
    room' ∈ (s.entry now room).2.map := by
  rw [mem_iff_lookup, lookup_entry]
  split
  · exact ⟨_, rfl⟩
  · exact mem_iff_lookup.1 h

theorem mem_write (r : Room) (role : Role) (m : Mailbox) (h : room' ∈ s.map) :
    room' ∈ (s.write room r role m).map := by
  rw [mem_iff_lookup, lookup_write]
  split
  · exact ⟨_, rfl⟩
  · exact mem_iff_lookup.1 h

/-- A call removes no room and leaves the limits alone. -/
theorem call_kept (s : Rooms) (now : Instant) (room : String) (role : Role)
    (op : SealedLog.Op Bytes) :
    (∀ room', room' ∈ s.map → room' ∈ (s.call now room role op).2.map) ∧
      (s.call now room role op).2.limits = s.limits := by
  cases op with
  | append blob =>
    simp only [call, publish]
    split
    · exact ⟨fun _ h => h, rfl⟩
    · split
      · exact ⟨fun _ h => mem_entry now room h, entry_limits s now room⟩
      · split
        · exact ⟨fun _ h => mem_entry now room h, entry_limits s now room⟩
        · exact ⟨fun _ h => mem_write _ _ _ (mem_entry now room h), entry_limits s now room⟩
  | finish =>
    exact ⟨fun _ h => mem_write _ _ _ (mem_entry now room h), entry_limits s now room⟩
  | read seq => exact ⟨fun _ h => mem_entry now room h, entry_limits s now room⟩

theorem takes_congr {s' : Rooms} (h : s'.limits = s.limits) : s'.takes = s.takes := by
  funext n
  simp [takes, crowded, h]

end

/-! ## Removals -/

theorem remove_limits (s : Rooms) (room : String) : (s.remove room).2.limits = s.limits := by
  unfold remove
  cases s.map.lookup room <;> rfl

/-- Rooms that are removed one after another; a room that is still there was left alone. -/
theorem foldl_remove (keys : List String) (woken : List NotifyId) (s : Rooms) :
    (keys.foldl (fun (p : List NotifyId × Rooms) room =>
        (p.1 ++ (p.2.remove room).1, (p.2.remove room).2)) (woken, s)).2.limits = s.limits ∧
      ∀ room r, (keys.foldl (fun (p : List NotifyId × Rooms) room =>
        (p.1 ++ (p.2.remove room).1, (p.2.remove room).2)) (woken, s)).2.map.lookup room =
          some r → s.map.lookup room = some r := by
  induction keys generalizing woken s with
  | nil => exact ⟨rfl, fun _ _ h => h⟩
  | cons key keys ih =>
    obtain ⟨hl, hm⟩ := ih (woken ++ (s.remove key).1) (s.remove key).2
    refine ⟨hl.trans (s.remove_limits key), fun room r h => ?_⟩
    have hr := hm room r h
    rw [lookup_remove] at hr
    split at hr
    · cases hr
    · exact hr

end Rooms

/-! ## From a room's creation to its removal -/

namespace Store

/-- What a run keeps from the creation of the room `r` to its removal, under the limits of the store
it started in: the replies on each mailbox of `r` are those of the log which the calls before
stand for, and the mailbox holds that log. -/
structure Inv (r : String) (s₀ s : Store) : Prop where
  limits : s.rooms.limits = s₀.rooms.limits
  there : r ∈ s.rooms.map ∨ s.history = []
  explained : ∀ role, SealedLog.Explained s₀.rooms.takes (s.own r role)
  holds : ∀ role, s.rooms.contents r role = SealedLog.ofHistory (s.own r role)

variable {r : String} {s₀ s s' : Store} {a : Act} {as : List Act}

theorem inv_start (hs : s₀.history = []) (hr : r ∉ s₀.rooms.map) : Inv r s₀ s₀ := by
  have hown : ∀ role, s₀.own r role = [] := fun role => by simp [own, hs]
  refine ⟨rfl, .inr hs, fun role => ?_, fun role => ?_⟩
  · rw [hown]; exact SealedLog.explained_nil
  · rw [hown]
    have hnone : s₀.rooms.map.lookup r = none := AList.lookup_eq_none.2 hr
    simp [Rooms.contents, Rooms.mailbox?, hnone, SealedLog.ofHistory, SealedLog.accepted,
      SealedLog.marked]

/-- A step that leaves the history and the contents of the room's mailboxes alone. -/
theorem Inv.of_lookup (h : Inv r s₀ s) {rooms : Rooms} (hl : rooms.limits = s.rooms.limits)
    (hin : r ∈ rooms.map)
    (hm : ∀ room, rooms.map.lookup r = some room → s.rooms.map.lookup r = some room) :
    Inv r s₀ { s with rooms } := by
  obtain ⟨room, hroom⟩ := Rooms.mem_iff_lookup.1 hin
  refine ⟨hl.trans h.limits, .inl hin, h.explained, fun role => ?_⟩
  refine Eq.trans ?_ (h.holds role)
  simp [Rooms.contents, Rooms.mailbox?, hroom, hm room hroom]

theorem Inv.step (h : Inv r s₀ s) (hs : s.stepKeeping r a = some s') : Inv r s₀ s' := by
  simp only [stepKeeping] at hs
  split at hs
  swap
  · cases hs
  next hin =>
  cases hs
  cases a with
  | delete room =>
    refine h.of_lookup (s.rooms.remove_limits room) hin fun x hx => ?_
    rw [Rooms.delete, Rooms.lookup_remove] at hx
    split at hx
    · cases hx
    · exact hx
  | evictExpired now =>
    obtain ⟨hl, hm⟩ := Rooms.foldl_remove (s.rooms.expired now) [] s.rooms
    exact h.of_lookup hl hin (hm r)
  | call now room role op =>
    obtain ⟨-, hl⟩ := s.rooms.call_kept now room role op
    have htakes : s.rooms.takes = s₀.rooms.takes := Rooms.takes_congr h.limits
    have hown : ∀ role', (s.step (.call now room role op)).own r role' = s.own r role' ++
        if (room, role) = (r, role') then [(op, (s.rooms.call now room role op).1)] else [] := by
      intro role'
      simp only [own, step, List.filterMap_append]
      split
      · next he => rw [List.filterMap_cons, if_pos he]; rfl
      · next he => rw [List.filterMap_cons, if_neg he]; rfl
    have hboth : ∀ role', SealedLog.Explained s₀.rooms.takes
          ((s.step (.call now room role op)).own r role') ∧
        (s.step (.call now room role op)).rooms.contents r role' =
          SealedLog.ofHistory ((s.step (.call now room role op)).own r role') := by
      intro role'
      rw [hown]
      split
      · next he =>
        cases he
        obtain ⟨hreply, hafter⟩ := Rooms.call_self hin
        rw [htakes, h.holds role] at hreply hafter
        have hsnoc := SealedLog.ofHistory_snoc (h := s.own r role)
          (e := (op, (s.rooms.call now r role op).1)) hreply
        exact ⟨(h.explained role).snoc hreply, hafter.trans hsnoc.symm⟩
      · next he =>
        rw [List.append_nil]
        exact ⟨h.explained role', (s.rooms.call_other now op (Ne.symm he)).trans (h.holds role')⟩
    exact ⟨hl.trans h.limits, .inl hin, fun role' => (hboth role').1, fun role' => (hboth role').2⟩

end Store

/-- From the creation of a room to its removal, whatever is called on the store: the accepted
publishes on a mailbox of the room get the numbers 0, 1, 2, …; a fetch answers by the number of
accepted publishes and the mark, and a blob that was fetched is the one published under its number
and is fetched for good; after the mark a publish is refused and changes no mailbox, and marking
again answers the same length; and no call on another mailbox changes an answer. -/
theorem mailbox_append_only {r : String} {s₀ s : Store} {as : List Act} (hs : s₀.history = [])
    (hr : r ∉ s₀.rooms.map) (h : Runs.run (Store.stepKeeping r) s₀ as = some s) (role : Role) :
    SealedLog.numbers (s.own r role) = List.range (SealedLog.accepted (s.own r role)).length ∧
    (∀ pre seq reply post, s.own r role = pre ++ (.read seq, reply) :: post →
      reply = match (SealedLog.accepted pre)[seq]? with
        | some blob => .item blob
        | none => if SealedLog.marked pre then .over else .pending) ∧
    (∀ pre seq blob mid reply post,
      s.own r role = pre ++ (.read seq, .item blob) :: (mid ++ (.read seq, reply) :: post) →
      reply = .item blob ∧ (.append blob, .appended seq) ∈ pre) ∧
    (SealedLog.marked (s.own r role) = true → ∀ now blob,
      (s.rooms.publish now r role blob).1 = .done ∧ ∀ room role',
        (s.rooms.publish now r role blob).2.2.mailbox? room role' =
          s.rooms.mailbox? room role') ∧
    (∀ pre n mid n' post, s.own r role =
      pre ++ (.finish, .length n) :: (mid ++ (.finish, .length n') :: post) → n' = n) ∧
    (r ∈ s.rooms.map → ∀ now room role' op, (room, role') ≠ (r, role) → ∀ now' op',
      ((s.rooms.call now room role' op).2.call now' r role op').1 =
        (s.rooms.call now' r role op').1) := by
  have hi : Store.Inv r s₀ s :=
    Runs.invariant (fun _ _ _ hi hstep => hi.step hstep) (Store.inv_start hs hr) h
  have hh := hi.explained role
  refine ⟨hh.numbers, fun pre seq reply post hs => (hh.read hs).trans ?_,
    fun pre seq blob mid reply post => hh.read_again, ?_,
    fun pre n mid n' post => hh.length_again, ?_⟩
  · unfold SealedLog.Log.look SealedLog.ofHistory
    cases (SealedLog.accepted pre)[seq]? <;> rfl
  · intro hm now blob
    have hin : r ∈ s.rooms.map := by
      rcases hi.there with hin | hno
      · exact hin
      · simp [Store.own, hno, SealedLog.marked] at hm
    have hdone : ((s.rooms.entry now r).1.mailbox role).done = true := by
      have hc := hi.holds role
      rw [s.rooms.contents_of_entry now r role] at hc
      exact (congrArg SealedLog.Log.shut hc).trans hm
    have hpub : s.rooms.publish now r role blob = (.done, [], (s.rooms.entry now r).2) := by
      simp [Rooms.publish, Rooms.full_of_mem hin, hdone]
    rw [hpub]
    refine ⟨rfl, fun room role' => ?_⟩
    by_cases hroom : room = r
    · subst hroom
      rw [@Rooms.entry_of_mem s.rooms now room hin]
      simp [Rooms.mailbox?, Rooms.lookup_entry]
    · simp [Rooms.mailbox?, Rooms.lookup_entry, hroom]
  · intro hin now room role' op hne now' op'
    obtain ⟨hmem, hl⟩ := s.rooms.call_kept now room role' op
    have hin' := ((s.rooms.call now room role' op).2.call_kept now' r role op').1 r (hmem r hin)
    rw [(Rooms.call_self hin').1,
      (Rooms.call_self ((s.rooms.call_kept now' r role op').1 r hin)).1,
      s.rooms.call_other now op (Ne.symm hne), Rooms.takes_congr hl]

/-- A blob is published, fetched, and the mailbox marked, while another room comes and goes. -/
theorem mailbox_append_only_of_two_rooms :
    ∃ s, Runs.run (Store.stepKeeping "r") ⟨.new ⟨300, 2, 0⟩, []⟩
        [.call 0 "r" .offerer (.append [1]), .call 1 "q" .answerer (.append [2]),
          .call 2 "r" .offerer (.read 0), .delete "q", .call 3 "r" .offerer .finish,
          .call 4 "r" .offerer (.read 0), .evictExpired 5] = some s ∧
      SealedLog.numbers (s.own "r" .offerer) = [0] := by
  refine ⟨_, rfl, ?_⟩
  have h := @mailbox_append_only "r" ⟨.new ⟨300, 2, 0⟩, []⟩ _
    [.call 0 "r" .offerer (.append [1]), .call 1 "q" .answerer (.append [2]),
      .call 2 "r" .offerer (.read 0), .delete "q", .call 3 "r" .offerer .finish,
      .call 4 "r" .offerer (.read 0), .evictExpired 5] rfl (by decide) rfl .offerer
  exact h.1.trans rfl

end WebrtcDatachannels.Signaling
