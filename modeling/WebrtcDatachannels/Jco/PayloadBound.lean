import WebrtcDatachannels.Jco.IncomingQueue

/-!
# The inbound bound of the browser-first host

The bound is on payload bytes, and a text counts as its UTF-8 encoding: so `webrtc.wit` says, and so
the other implementations count. `incomingQueue` counts a text as its UTF-16 code units, which are
fewer when it is not ASCII. The bound holds in a run, and every message that would exceed it
overflows the channel, exactly when no message slips between the two counts (`Fits`). They agree on
binary messages and on texts that are ASCII, and on no others (`size_eq_iff`), so a run of such
messages meets the condition (`meets_fits_of_ascii`).
-/

namespace WebrtcDatachannels.Jco

/-- The payload bytes of a message: those of the UTF-8 encoding of a text. -/
def payloadBytes : Message → Nat
  | .binary data => data.length
  | .string text => text.utf8ByteSize

namespace DataChannel

/-- The payload bytes of the queued messages. -/
def held (s : DataChannel) : Nat := (s.messages.map fun entry => payloadBytes entry.1).sum

/-- The queued payload does not exceed the limit. -/
def Within (s : DataChannel) : Prop := s.limit.exceededBy s.held = false

/-- A message that would make the queued payload exceed the limit while nobody waits overflows the
channel. -/
def Overflows (s : DataChannel) (a : Act) : Prop :=
  ∀ data s', a = .message data → s.waiters = [] →
    s.limit.exceededBy (s.held + payloadBytes data.message) = true → s.step a = some s' →
    s'.overflowed = true

/-- A message that fits by the code's count, when nobody waits and before an overflow, fits by its
payload bytes. -/
def Fits (s : DataChannel) (a : Act) : Prop :=
  ∀ data, a = .message data → s.overflowed = false → s.waiters = [] →
    s.limit.exceededBy (s.buffered + data.size) = false →
    s.limit.exceededBy (s.held + payloadBytes data.message) = false

end DataChannel

open DataChannel

/-! ## The two counts -/

/-- The message is binary, or a text that is ASCII. -/
def Data.Ascii : Data → Prop
  | .text value => ∀ c ∈ value.toList, c.val ≤ 127
  | .buffer _ => True

theorem utf8ByteSize_ofList (cs : List Char) :
    (String.ofList cs).utf8ByteSize = (cs.map Char.utf8Size).sum := by
  induction cs with
  | nil => rfl
  | cons c cs ih =>
    rw [String.ofList_cons, String.utf8ByteSize_append, String.utf8ByteSize_singleton, ih,
      List.map_cons, List.sum_cons]

/-- A character has no more UTF-16 code units than UTF-8 bytes, and as many only if it is ASCII. -/
theorem utf16Size_utf8Size (c : Char) :
    utf16Size c ≤ c.utf8Size ∧ (utf16Size c = c.utf8Size ↔ c.val ≤ 127) := by
  have hle : ∀ m n : UInt32, m ≤ n ↔ m.toNat ≤ n.toNat := fun _ _ => UInt32.le_iff_toNat_le
  simp only [utf16Size, Char.utf8Size, hle]
  repeat' split
  all_goals simp_all
  all_goals omega

theorem stringLength_utf8ByteSize (text : String) : stringLength text ≤ text.utf8ByteSize ∧
    (stringLength text = text.utf8ByteSize ↔ ∀ c ∈ text.toList, c.val ≤ 127) := by
  have hbytes : text.utf8ByteSize = (text.toList.map Char.utf8Size).sum := by
    rw [← utf8ByteSize_ofList, String.ofList_toList]
  rw [hbytes, stringLength]
  induction text.toList with
  | nil => simp
  | cons c cs ih =>
    obtain ⟨hle, heq⟩ := utf16Size_utf8Size c
    obtain ⟨hles, heqs⟩ := ih
    simp only [List.map_cons, List.sum_cons, List.forall_mem_cons, ← heq, ← heqs]
    omega

/-- The code's count of a message is no more than its payload bytes. -/
theorem size_le_payloadBytes (data : Data) : data.size ≤ payloadBytes data.message := by
  cases data with
  | text value => exact (stringLength_utf8ByteSize value).1
  | buffer bytes => exact Nat.le_refl _

/-- The two counts agree on binary messages and ASCII texts, and on no others. -/
theorem size_eq_iff (data : Data) : data.size = payloadBytes data.message ↔ data.Ascii := by
  cases data with
  | text value => exact (stringLength_utf8ByteSize value).2
  | buffer bytes => exact iff_of_true rfl trivial

section
variable {s s' : DataChannel} {a : Act}

theorem mem_next {consumer : Consumer} {entry : Message × Nat}
    (he : entry ∈ (s.next consumer).messages) : entry ∈ s.messages := by
  unfold DataChannel.next at he
  cases hm : s.messages with
  | cons first rest =>
    rw [hm] at he
    exact List.mem_cons_of_mem _ he
  | nil =>
    simp only [hm] at he
    split at he
    · exact hm ▸ he
    · split at he
      · exact hm ▸ he
      · exact he

/-- A queued message is one that was queued before, or the one that arrives, with its count. -/
theorem step_messages (h : s.step a = some s') {entry : Message × Nat}
    (he : entry ∈ s'.messages) :
    entry ∈ s.messages ∨ ∃ data, a = .message data ∧ entry = (data.message, data.size) := by
  cases a with
  | message data =>
    simp only [DataChannel.step] at h
    split at h
    · cases h
    · cases h
      unfold DataChannel.onMessage at he
      split at he
      · exact .inl he
      · split at he
        · exact .inl he
        · cases hw : s.waiters with
          | nil =>
            rw [push_of_idle hw] at he
            exact (List.mem_append.1 he).imp_right fun he => ⟨data, rfl, List.mem_singleton.1 he⟩
          | cons waiter rest => rw [push_of_waiting hw] at he; exact .inl he
  | close | error =>
    cases h
    unfold DataChannel.onEnd at he
    split at he <;> exact .inl he
  | receive =>
    cases h
    unfold DataChannel.receive at he
    split at he
    · exact .inl he
    · exact .inl (mem_next he)
  | receiveViaStream =>
    cases h
    unfold DataChannel.receiveViaStream at he
    split at he <;> exact .inl he
  | pull =>
    simp only [DataChannel.step] at h
    split at h
    · cases h; exact .inl (mem_next he)
    · cases h

/-- If each queued message is counted by its payload bytes, so is the queue. -/
theorem Inv.held (hi : Inv s) (h : ∀ entry ∈ s.messages, payloadBytes entry.1 = entry.2) :
    s.held = s.buffered := by
  rw [hi.counted, DataChannel.held, List.map_congr_left h]

/-- A run of binary messages and ASCII texts meets the condition. -/
theorem meets_fits_of_ascii (configured : Number) {as : List Act}
    (h : ∀ a ∈ as, ∀ data, a = .message data → data.Ascii) :
    Runs.Meets DataChannel.step Fits (.start (maxInboundBuffered configured)) as := by
  refine Runs.meets_of
    (I := fun s => Inv s ∧ ∀ entry ∈ s.messages, payloadBytes entry.1 = entry.2)
    (Q := fun a => ∀ data, a = .message data → data.Ascii)
    ?_ ?_ ⟨inv_start _, nofun⟩ h
  · rintro s a s' ⟨hi, hsize⟩ ha hs
    refine ⟨hi.step hs, fun entry he => ?_⟩
    obtain he | ⟨data, hdata, rfl⟩ := step_messages hs he
    · exact hsize entry he
    · exact ((size_eq_iff data).2 (ha data hdata)).symm
  · rintro s a ⟨hi, hsize⟩ ha data hdata - - hfit
    rw [hi.held hsize, ← (size_eq_iff data).2 (ha data hdata)]
    exact hfit

/-- What does not exceed a number, less does not exceed. -/
theorem exceededBy_mono {limit : Number} {m n : Nat} (hle : m ≤ n)
    (h : limit.exceededBy n = false) : limit.exceededBy m = false := by
  cases limit with
  | nan => rfl
  | infinite negative => exact h
  | finite value =>
    simp only [Number.exceededBy, decide_eq_false_iff_not, Rat.not_lt] at h ⊢
    exact Rat.le_trans (Rat.natCast_le_natCast.2 hle) h

theorem exceededBy_zero (configured : Number) :
    (maxInboundBuffered configured).exceededBy 0 = false := by
  unfold maxInboundBuffered
  split
  · next hp =>
    cases configured with
    | nan => rfl
    | infinite negative => simpa [Number.positive, Number.exceededBy] using hp
    | finite value =>
      simp only [Number.positive, decide_eq_true_eq] at hp
      simp only [Number.exceededBy, decide_eq_false_iff_not, Rat.not_lt]
      exact Rat.le_of_lt hp
  · rfl

theorem within_start (configured : Number) :
    (DataChannel.start (maxInboundBuffered configured)).Within :=
  exceededBy_zero configured

/-- A message that nobody waits for and that fits by the code's count is queued. -/
theorem step_queued {data : Data} (ho : s.overflowed = false) (hw : s.waiters = [])
    (hfit : s.limit.exceededBy (s.buffered + data.size) = false)
    (h : s.step (.message data) = some s') :
    s'.limit = s.limit ∧ s'.overflowed = false ∧
      s'.held = s.held + payloadBytes data.message := by
  simp only [DataChannel.step] at h
  split at h
  · cases h
  · cases h
    have hno : s.overflows data = false := by simp [DataChannel.overflows, hfit]
    simp only [DataChannel.onMessage, ho, hno, push_of_idle hw]
    refine ⟨rfl, rfl, ?_⟩
    simp [DataChannel.held]

theorem held_next (s : DataChannel) (consumer : Consumer) :
    (s.next consumer).limit = s.limit ∧ (s.next consumer).held ≤ s.held := by
  unfold DataChannel.next
  cases hm : s.messages with
  | cons entry rest =>
    refine ⟨rfl, ?_⟩
    show (rest.map fun entry => payloadBytes entry.1).sum ≤ s.held
    rw [DataChannel.held, hm, List.map_cons, List.sum_cons]
    exact Nat.le_add_left _ _
  | nil =>
    dsimp only
    split
    · exact ⟨rfl, Nat.le_refl _⟩
    · split
      · exact ⟨rfl, Nat.le_refl _⟩
      · refine ⟨rfl, ?_⟩
        show (([] : List (Message × Nat)).map fun entry => payloadBytes entry.1).sum ≤ s.held
        exact Nat.zero_le _

/-- The queued payload grows only when a message that nobody waits for is queued. -/
theorem step_held (h : s.step a = some s') :
    (s'.limit = s.limit ∧ s'.held ≤ s.held) ∨
      ∃ data, a = .message data ∧ s.overflowed = false ∧ s.waiters = [] ∧
        s.limit.exceededBy (s.buffered + data.size) = false := by
  cases a with
  | message data =>
    simp only [DataChannel.step] at h
    split at h
    · cases h
    · cases h
      unfold DataChannel.onMessage
      split
      · exact .inl ⟨rfl, Nat.le_refl _⟩
      · next ho =>
        split
        · exact .inl ⟨rfl, Nat.le_refl _⟩
        · next hover =>
          cases hw : s.waiters with
          | nil =>
            refine .inr ⟨data, rfl, eq_false_of_ne_true ho, rfl, ?_⟩
            simpa [DataChannel.overflows, hw] using hover
          | cons waiter rest =>
            rw [push_of_waiting hw]
            exact .inl ⟨rfl, Nat.le_refl _⟩
  | close | error =>
    cases h
    unfold DataChannel.onEnd
    split <;> exact .inl ⟨rfl, Nat.le_refl _⟩
  | receive =>
    cases h
    unfold DataChannel.receive
    split
    · exact .inl ⟨rfl, Nat.le_refl _⟩
    · exact .inl (held_next s .receive)
  | receiveViaStream =>
    cases h
    unfold DataChannel.receiveViaStream
    split <;> exact .inl ⟨rfl, Nat.le_refl _⟩
  | pull =>
    simp only [DataChannel.step] at h
    split at h
    · cases h; exact .inl (held_next s .stream)
    · cases h

/-- A step that meets the condition keeps the bound. -/
theorem within_step (hw : s.Within) (hf : s.Fits a) (h : s.step a = some s') : s'.Within := by
  rcases step_held h with ⟨hl, hle⟩ | ⟨data, rfl, ho, hidle, hfit⟩
  · rw [Within, hl]
    exact exceededBy_mono hle hw
  · obtain ⟨hl, -, hheld⟩ := step_queued ho hidle hfit h
    rw [Within, hl, hheld]
    exact hf data rfl ho hidle hfit

/-- A step that does not meet the condition breaks the bound. -/
theorem not_within_of_not_fits (hf : ¬ s.Fits a) (h : s.step a = some s') : ¬ s'.Within := by
  intro hw
  refine hf fun data ha ho hidle hfit => ?_
  subst ha
  obtain ⟨hl, -, hheld⟩ := step_queued ho hidle hfit h
  rw [Within, hl, hheld] at hw
  exact hw

/-- The condition on a step, and that a message which exceeds the limit overflows the channel. -/
theorem overflows_iff_fits (h : s.step a = some s') : s.Overflows a ↔ s.Fits a := by
  constructor
  · intro hover data ha ho hidle hfit
    subst ha
    obtain ⟨-, hno, -⟩ := step_queued ho hidle hfit h
    cases hx : s.limit.exceededBy (s.held + payloadBytes data.message) with
    | false => rfl
    | true => rw [hover data s' rfl hidle hx h] at hno; cases hno
  · intro hf data t ha hidle hx ht
    subst ha
    simp only [DataChannel.step] at ht
    split at ht
    · cases ht
    · cases ht
      unfold DataChannel.onMessage
      split
      · next ho => exact ho
      · next ho =>
        split
        · rfl
        · next hno =>
          have hfit : s.limit.exceededBy (s.buffered + data.size) = false := by
            simpa [DataChannel.overflows, hidle] using hno
          rw [hf data rfl (eq_false_of_ne_true ho) hidle hfit] at hx
          cases hx

end

/-- In a run of a channel, the queued payload never exceeds the configured limit and every message
that would make it exceed the limit while nobody waits overflows the channel, exactly when no
message that fits by its UTF-16 length exceeds the limit by its payload bytes. -/
theorem inbound_bounded_iff (configured : Number) {as : List Act} {s : DataChannel}
    (h : Runs.run DataChannel.step (.start (maxInboundBuffered configured)) as = some s) :
    (Runs.Along DataChannel.step Within (.start (maxInboundBuffered configured)) as ∧
      Runs.Meets DataChannel.step Overflows (.start (maxInboundBuffered configured)) as) ↔
    Runs.Meets DataChannel.step Fits (.start (maxInboundBuffered configured)) as := by
  have hbound : Runs.Along DataChannel.step Within (.start (maxInboundBuffered configured)) as ↔
      Runs.Meets DataChannel.step Fits (.start (maxInboundBuffered configured)) as :=
    Runs.along_iff_meets (fun _ hw => hw) (fun _ _ _ => within_step)
      (fun _ _ _ _ => not_within_of_not_fits) (within_start configured) h
  rw [hbound, Runs.meets_congr (fun _ _ _ => overflows_iff_fits) h, and_self]

/-- Two ASCII messages, binary and text, under a limit that the third one reaches exactly. -/
theorem inbound_bounded_iff_of_ascii :
    ∃ s, Runs.run DataChannel.step (.start (maxInboundBuffered (.finite 3)))
        [.message (.buffer [1, 2]), .message (.text "a"), .message (.text "b")] = some s ∧
      s.overflowed = true ∧
      Runs.Along DataChannel.step Within (.start (maxInboundBuffered (.finite 3)))
        [.message (.buffer [1, 2]), .message (.text "a"), .message (.text "b")] := by
  refine ⟨_, rfl, rfl, ?_⟩
  refine ((@inbound_bounded_iff (.finite 3)
    [.message (.buffer [1, 2]), .message (.text "a"), .message (.text "b")] _ rfl).2 ?_).1
  refine meets_fits_of_ascii _ fun a ha data hdata => ?_
  subst hdata
  simp only [List.mem_cons, Act.message.injEq, List.not_mem_nil, or_false] at ha
  obtain rfl | rfl | rfl := ha
  · trivial
  · simp [Data.Ascii]
  · simp [Data.Ascii]

/-- A text of one UTF-16 code unit and two UTF-8 bytes is queued under a limit of one byte. -/
theorem inbound_bound_exceeded :
    ¬ (Runs.Along DataChannel.step Within (.start (maxInboundBuffered (.finite 1)))
        [.message (.text "é")] ∧
      Runs.Meets DataChannel.step Overflows (.start (maxInboundBuffered (.finite 1)))
        [.message (.text "é")]) := by
  rintro ⟨hwithin, -⟩
  have h := hwithin [.message (.text "é")] List.prefix_rfl _ rfl
  revert h
  unfold Within
  decide

end WebrtcDatachannels.Jco
