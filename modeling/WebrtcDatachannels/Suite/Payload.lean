import Mathlib.Data.List.Nodup
import Mathlib.Data.List.Perm.Subperm
import Mathlib.Data.List.Range
import WebrtcDatachannels.Lib.LittleEndian
import WebrtcDatachannels.Wit

/-!
# The payloads of the conformance guest

`make_payload` and the checks `verify_all` and `verify_ordered` of `conformance/guest/src/lib.rs`,
on a target where `usize` has 32 bits and sums wrap. A check reads the index and the length of a
payload from the payload itself (`verifyPayload_iff`), so it cannot see that a payload has another
length than was sent, and `verify_all` not that an index comes twice or was not sent.
`payload_checks_iff` says that these are all that the checks miss.
-/

namespace WebrtcDatachannels.Suite

open LittleEndian

/-- The byte at an offset behind the index. -/
def patternByte (index : UInt32) (offset : Nat) : UInt8 :=
  ((index + UInt32.ofNat offset) % 251).toUInt8

/-- The payload with this index and this many bytes behind it. -/
def payloadOf (index : UInt32) (n : Nat) : Bytes :=
  toLe 4 index.toNat ++ (List.range n).map (patternByte index)

/-- Build an indexed, verifiable payload of `size` bytes (minimum 4). Source: `make_payload`. -/
def makePayload (index size : UInt32) : Bytes := payloadOf index ((max size 4).toNat - 4)

/-- The index stored in a payload's first four bytes, if present. Source: `payload_index`. -/
def payloadIndex (bytes : Bytes) : Option UInt32 :=
  if 4 ≤ bytes.length then some (UInt32.ofNat (ofLe (bytes.take 4))) else none

/-- Whether a payload matches the pattern. Source: `verify_payload`. -/
def verifyPayload (bytes : Bytes) : Bool :=
  match payloadIndex bytes with
  | none => false
  | some index => (bytes.drop 4).zipIdx.all fun q => q.1 == patternByte index q.2

/-- Source: `verify_all`. -/
def verifyAll (received : List Bytes) (count : UInt32) : Except String Unit :=
  if received.length ≠ count.toNat then
    .error ("received " ++ toString received.length ++ " messages, expected " ++ toString count)
  else if received.all verifyPayload then .ok ()
  else .error "payload failed integrity check"

/-- The loop of `verify_ordered`, from a position on. -/
def checkOrder (position : Nat) : List Bytes → Except String Unit
  | [] => .ok ()
  | bytes :: rest =>
    match payloadIndex bytes with
    | some index =>
      if index.toNat = position then checkOrder (position + 1) rest
      else .error ("message " ++ toString position ++ " carried index " ++ toString index)
    | none => .error "payload too short to carry an index"

/-- Source: `verify_ordered`. -/
def verifyOrdered (received : List Bytes) (count : UInt32) : Except String Unit :=
  match verifyAll received count with
  | .ok () => checkOrder 0 received
  | .error e => .error e

/-- The payloads that are sent. Source: `send_sequence`. -/
def sentPayloads (count size : UInt32) : List Bytes :=
  (List.range count.toNat).map fun index => makePayload (UInt32.ofNat index) size

/-! ## What a check sees of a payload -/

section
variable {bytes : Bytes} {index count size : UInt32} {n position : Nat} {received : List Bytes}

@[simp] theorem length_payloadOf (index : UInt32) (n : Nat) :
    (payloadOf index n).length = n + 4 := by
  simp [payloadOf, Nat.add_comm]

/-- A list of values of a function at the positions. -/
theorem zipIdx_all_iff {α : Type} [BEq α] [LawfulBEq α] (f : Nat → α) (l : List α) :
    (l.zipIdx.all fun q => q.1 == f q.2) = true ↔ l = (List.range l.length).map f := by
  rw [List.all_eq_true]
  constructor
  · intro h
    refine List.ext_getElem (by simp) fun i hi _ => ?_
    have hq := h (l[i], i) (List.mk_mem_zipIdx_iff_getElem?.2 (List.getElem?_eq_getElem hi))
    rw [List.getElem_map, List.getElem_range]
    exact eq_of_beq hq
  · intro h q hq
    have hx := List.mk_mem_zipIdx_iff_getElem?.1 (show (q.1, q.2) ∈ l.zipIdx from hq)
    rw [h, List.getElem?_map, Option.map_eq_some_iff] at hx
    obtain ⟨i, hi, heq⟩ := hx
    obtain ⟨_, hval⟩ := List.getElem?_eq_some_iff.1 hi
    rw [List.getElem_range] at hval
    rw [← heq, ← hval]
    exact beq_self_eq_true _

theorem payloadIndex_payloadOf (index : UInt32) (n : Nat) :
    payloadIndex (payloadOf index n) = some index := by
  have htake : (payloadOf index n).take 4 = toLe 4 index.toNat :=
    List.take_left' (length_toLe 4 _)
  rw [payloadIndex, if_pos (by rw [length_payloadOf]; omega), htake, ofLe_toLe index.toNat_lt,
    UInt32.ofNat_toNat]

/-- A payload is well-formed when it is that of its index for its length. -/
theorem verifyPayload_iff : verifyPayload bytes = true ↔ ∃ index n, bytes = payloadOf index n := by
  constructor
  · intro h
    unfold verifyPayload payloadIndex at h
    split at h
    · cases h
    · next index hi =>
      obtain ⟨hlen, hi⟩ := Option.ite_none_right_eq_some.1 hi
      refine ⟨index, (bytes.drop 4).length, ?_⟩
      have hhead : toLe 4 index.toNat = bytes.take 4 := by
        have hlt := ofLe_lt (bytes.take 4)
        have hfour : (bytes.take 4).length = 4 := List.length_take_of_le hlen
        rw [hfour] at hlt
        rw [← Option.some.inj hi, UInt32.toNat_ofNat_of_lt' hlt]
        exact (congrArg (toLe · _) hfour).symm.trans (toLe_ofLe _)
      rw [payloadOf, hhead, ← (zipIdx_all_iff _ _).1 h, List.take_append_drop]
  · rintro ⟨index, n, rfl⟩
    unfold verifyPayload
    rw [payloadIndex_payloadOf]
    have hdrop : (payloadOf index n).drop 4 = (List.range n).map (patternByte index) :=
      List.drop_left' (length_toLe 4 _)
    rw [hdrop]
    exact (zipIdx_all_iff _ _).2 (by simp)

/-! ## What the checks accept -/

theorem verifyAll_iff : verifyAll received count = .ok () ↔
    received.length = count.toNat ∧ ∀ bytes ∈ received, verifyPayload bytes = true := by
  unfold verifyAll
  split
  · next hlen => simp [hlen]
  · next hlen =>
    split
    · next hall =>
      exact ⟨fun _ => ⟨not_not.1 hlen, List.all_eq_true.1 hall⟩, fun _ => rfl⟩
    · next hall =>
      rw [List.all_eq_true] at hall
      simp [hall]

/-- `verify_all` accepts lists of as many payloads as it expects, of any index and length. -/
theorem verifyAll_iff_payloads : verifyAll received count = .ok () ↔
    ∃ ps : List (UInt32 × Nat), ps.length = count.toNat ∧
      received = ps.map fun p => payloadOf p.1 p.2 := by
  rw [verifyAll_iff]
  constructor
  · rintro ⟨hlen, hall⟩
    have hps : ∃ ps : List (UInt32 × Nat), received = ps.map fun p => payloadOf p.1 p.2 := by
      clear hlen
      induction received with
      | nil => exact ⟨[], rfl⟩
      | cons bytes received ih =>
        obtain ⟨index, n, hb⟩ := verifyPayload_iff.1 (hall bytes (List.mem_cons_self ..))
        obtain ⟨ps, hps⟩ := ih fun b hb => hall b (List.mem_cons_of_mem bytes hb)
        exact ⟨(index, n) :: ps, by rw [List.map_cons, ← hps, hb]⟩
    obtain ⟨ps, rfl⟩ := hps
    exact ⟨ps, by simpa using hlen, rfl⟩
  · rintro ⟨ps, hlen, rfl⟩
    refine ⟨by simpa using hlen, fun bytes hb => ?_⟩
    obtain ⟨p, -, rfl⟩ := List.mem_map.1 hb
    exact verifyPayload_iff.2 ⟨p.1, p.2, rfl⟩

/-- The loop of `verify_ordered` accepts payloads that carry the positions. -/
theorem checkOrder_iff (ps : List (UInt32 × Nat)) :
    checkOrder position (ps.map fun p => payloadOf p.1 p.2) = .ok () ↔
      ps.map (fun p => p.1.toNat) = List.range' position ps.length := by
  induction ps generalizing position with
  | nil => simp [checkOrder]
  | cons p ps ih =>
    rw [List.map_cons, List.map_cons, List.length_cons, List.range'_succ, List.cons.injEq, ← ih]
    simp only [checkOrder, payloadIndex_payloadOf]
    split
    · next hp => simp [hp]
    · next hp => simp [hp]

/-- `verify_ordered` accepts those that carry their positions as index, of any length. -/
theorem verifyOrdered_iff (ps : List (UInt32 × Nat)) (hlen : ps.length = count.toNat) :
    verifyOrdered (ps.map fun p => payloadOf p.1 p.2) count = .ok () ↔
      ps.map (fun p => p.1) = (List.range count.toNat).map UInt32.ofNat := by
  rw [verifyOrdered, verifyAll_iff_payloads.2 ⟨ps, hlen, rfl⟩, checkOrder_iff, hlen,
    ← List.range_eq_range']
  constructor
  · intro h
    rw [← h, List.map_map]
    exact List.map_congr_left fun p _ => (UInt32.ofNat_toNat (x := p.1)).symm
  · intro h
    have hmap := congrArg (List.map UInt32.toNat) h
    rw [List.map_map, List.map_map] at hmap
    refine hmap.trans ((List.map_congr_left fun i hi => ?_).trans (List.map_id _))
    exact UInt32.toNat_ofNat_of_lt' ((List.mem_range.1 hi).trans count.toNat_lt)

/-! ## The payloads that are sent -/

/-- The indices of the payloads that are sent. -/
def sentIndices (count : UInt32) : List UInt32 := (List.range count.toNat).map UInt32.ofNat

theorem sentPayloads_eq (hsize : 4 ≤ size) : sentPayloads count size =
    (sentIndices count).map fun index => payloadOf index (size.toNat - 4) := by
  have hmax : max size 4 = size := by
    show (if size ≤ 4 then 4 else size) = size
    split
    · next hle => exact UInt32.le_antisymm hsize hle
    · rfl
  rw [sentPayloads, sentIndices, List.map_map]
  refine List.map_congr_left fun i _ => ?_
  rw [makePayload, hmax]
  rfl

/-- The sent payloads are accepted in order, -/
theorem verifyOrdered_sentPayloads (count size : UInt32) :
    verifyOrdered (sentPayloads count size) count = .ok () := by
  have hpairs : sentPayloads count size =
      ((sentIndices count).map fun index => (index, (max size 4).toNat - 4)).map
        fun p => payloadOf p.1 p.2 := by
    rw [sentPayloads, sentIndices, List.map_map, List.map_map]
    rfl
  rw [hpairs]
  refine (verifyOrdered_iff _ (by simp [sentIndices])).2 ?_
  rw [List.map_map]
  exact List.map_id _

/-- and so without their order. -/
theorem verifyAll_of_verifyOrdered (h : verifyOrdered received count = .ok ()) :
    verifyAll received count = .ok () := by
  unfold verifyOrdered at h
  split at h
  · next hall => exact hall
  · cases h

theorem mem_sentIndices : index ∈ sentIndices count ↔ index < count := by
  rw [sentIndices, List.mem_map]
  constructor
  · rintro ⟨i, hi, rfl⟩
    have hi := List.mem_range.1 hi
    rw [UInt32.lt_iff_toNat_lt, UInt32.toNat_ofNat_of_lt' (hi.trans count.toNat_lt)]
    exact hi
  · intro h
    exact ⟨index.toNat, List.mem_range.2 (UInt32.lt_iff_toNat_lt.1 h), UInt32.ofNat_toNat⟩

theorem nodup_sentIndices (count : UInt32) : (sentIndices count).Nodup := by
  refine List.Nodup.map_on (fun i hi j hj heq => ?_) List.nodup_range
  have hi := (List.mem_range.1 hi).trans count.toNat_lt
  have hj := (List.mem_range.1 hj).trans count.toNat_lt
  have hnat := congrArg UInt32.toNat heq
  rwa [UInt32.toNat_ofNat_of_lt' hi, UInt32.toNat_ofNat_of_lt' hj] at hnat

/-- As many indices as are sent are a permutation of those when they are distinct and below the
count. -/
theorem perm_sentIndices {indices : List UInt32} (hlen : indices.length = count.toNat) :
    indices.Perm (sentIndices count) ↔ indices.Nodup ∧ ∀ index ∈ indices, index < count := by
  constructor
  · intro h
    exact ⟨h.nodup_iff.2 (nodup_sentIndices count), fun i hi => mem_sentIndices.1 (h.mem_iff.1 hi)⟩
  · rintro ⟨hnodup, hlt⟩
    have hsub : indices ⊆ sentIndices count := fun i hi => mem_sentIndices.2 (hlt i hi)
    refine (hnodup.subperm hsub).perm_of_length_le ?_
    simp [sentIndices, hlen]

/-- Payloads of the sent length with a permutation of the sent indices are a permutation of the sent
payloads, and only these are. -/
theorem perm_sentPayloads {ps : List (UInt32 × Nat)} (hsize : 4 ≤ size)
    (hlen : ps.length = count.toNat) :
    (ps.map fun p => payloadOf p.1 p.2).Perm (sentPayloads count size) ↔
      (∀ p ∈ ps, p.2 + 4 = size.toNat) ∧ (ps.map fun p => p.1).Nodup ∧ ∀ p ∈ ps, p.1 < count := by
  have hfour : 4 ≤ size.toNat := UInt32.le_iff_toNat_le.1 hsize
  have hidx : (ps.map fun p => p.1).length = count.toNat := by rw [List.length_map, hlen]
  rw [sentPayloads_eq hsize]
  constructor
  · intro h
    have hindices := h.map payloadIndex
    simp only [List.map_map, Function.comp_def, payloadIndex_payloadOf] at hindices
    have hperm : (ps.map fun p => p.1).Perm (sentIndices count) := by
      have hsome : ((ps.map fun p => p.1).map some).Perm ((sentIndices count).map some) := by
        simpa only [List.map_map, Function.comp_def] using hindices
      exact (List.map_perm_map_iff fun _ _ h => Option.some.inj h).1 hsome
    obtain ⟨hnodup, hlt⟩ := (perm_sentIndices hidx).1 hperm
    refine ⟨fun p hp => ?_, hnodup, fun p hp => hlt p.1 (List.mem_map_of_mem hp)⟩
    have hmem := h.mem_iff.1 (List.mem_map_of_mem (f := fun p => payloadOf p.1 p.2) hp)
    obtain ⟨index, -, heq⟩ := List.mem_map.1 hmem
    have hl := congrArg List.length heq
    rw [length_payloadOf, length_payloadOf] at hl
    omega
  · rintro ⟨hsizes, hnodup, hlt⟩
    have hall : ∀ index ∈ ps.map fun p => p.1, index < count := by
      intro index hi
      obtain ⟨p, hp, rfl⟩ := List.mem_map.1 hi
      exact hlt p hp
    have hperm := ((perm_sentIndices hidx).2 ⟨hnodup, hall⟩).map
      fun index => payloadOf index (size.toNat - 4)
    refine (List.Perm.of_eq ?_).trans hperm
    rw [List.map_map]
    refine List.map_congr_left fun p hp => ?_
    have hn : p.2 = size.toNat - 4 := by have := hsizes p hp; omega
    rw [Function.comp_apply, hn]

end

/-- The two checks accept exactly what was sent, whatever was received, unless that is a list of as
many payloads as are expected of which one has another length than was sent, or an index that is
repeated or was not sent. -/
theorem payload_checks_iff (count size : UInt32) (hsize : 4 ≤ size) (received : List Bytes) :
    ((verifyAll received count = .ok () ↔ received.Perm (sentPayloads count size)) ∧
      (verifyOrdered received count = .ok () ↔ received = sentPayloads count size)) ↔
    ∀ ps : List (UInt32 × Nat), ps.length = count.toNat →
      received = (ps.map fun p => payloadOf p.1 p.2) →
      (∀ p ∈ ps, p.2 + 4 = size.toNat) ∧ (ps.map fun p => p.1).Nodup ∧
        ∀ p ∈ ps, p.1 < count := by
  have hsent := verifyAll_of_verifyOrdered (verifyOrdered_sentPayloads count size)
  constructor
  · rintro ⟨hall, -⟩ ps hlen rfl
    exact (perm_sentPayloads hsize hlen).1 (hall.1 (verifyAll_iff_payloads.2 ⟨ps, hlen, rfl⟩))
  · intro hcond
    refine ⟨⟨fun hok => ?_, fun hperm => ?_⟩, fun hok => ?_, fun heq => ?_⟩
    · obtain ⟨ps, hlen, rfl⟩ := verifyAll_iff_payloads.1 hok
      exact (perm_sentPayloads hsize hlen).2 (hcond ps hlen rfl)
    · obtain ⟨hlen, hwf⟩ := verifyAll_iff.1 hsent
      exact verifyAll_iff.2 ⟨hperm.length_eq.trans hlen, fun b hb => hwf b (hperm.mem_iff.1 hb)⟩
    · have hall := verifyAll_of_verifyOrdered hok
      obtain ⟨ps, hlen, rfl⟩ := verifyAll_iff_payloads.1 hall
      obtain ⟨hsizes, -⟩ := hcond ps hlen rfl
      have hidx := (verifyOrdered_iff ps hlen).1 hok
      rw [sentPayloads_eq hsize, sentIndices, ← hidx, List.map_map]
      refine List.map_congr_left fun p hp => ?_
      have hn : p.2 = size.toNat - 4 := by have := hsizes p hp; omega
      rw [Function.comp_apply, hn]
    · rw [heq]
      exact verifyOrdered_sentPayloads count size

/-- Two payloads that are sent arrive in the other order. -/
theorem payload_checks_of_swapped :
    (4 : UInt32) ≤ 16 ∧ verifyAll [makePayload 1 16, makePayload 0 16] 2 = .ok () := by
  have hcond : ∀ ps : List (UInt32 × Nat), ps.length = 2 →
      [makePayload 1 16, makePayload 0 16] = (ps.map fun p => payloadOf p.1 p.2) →
      (∀ p ∈ ps, p.2 + 4 = 16) ∧ (ps.map fun p => p.1).Nodup ∧ ∀ p ∈ ps, p.1 < 2 := by
    intro ps hlen heq
    obtain ⟨p, q, rfl⟩ := List.length_eq_two.1 hlen
    simp only [List.map_cons, List.map_nil, List.cons.injEq, and_true] at heq
    obtain ⟨hp, hq⟩ := heq
    have hpi := congrArg payloadIndex hp
    have hqi := congrArg payloadIndex hq
    have hpl := congrArg List.length hp
    have hql := congrArg List.length hq
    simp only [makePayload, payloadIndex_payloadOf, Option.some.injEq] at hpi hqi
    have hsixteen : (max 16 4 : UInt32).toNat - 4 + 4 = 16 := by decide
    simp only [makePayload, length_payloadOf, hsixteen] at hpl hql
    have hpn : p.2 = 12 := by omega
    have hqn : q.2 = 12 := by omega
    simp [← hpi, ← hqi, hpn, hqn]
  obtain ⟨hall, -⟩ :=
    (payload_checks_iff 2 16 (by decide) [makePayload 1 16, makePayload 0 16]).2 hcond
  exact ⟨by decide, hall.2 (List.Perm.swap ..)⟩

/-- `verify_all` accepts one payload twice, and `verify_ordered` a payload that lost its end. -/
theorem payload_checks_accept_damage :
    (verifyAll [makePayload 0 16, makePayload 0 16] 2 = .ok () ∧
      ¬ [makePayload 0 16, makePayload 0 16].Perm (sentPayloads 2 16)) ∧
    verifyOrdered [(makePayload 0 16).take 4] 1 = .ok () ∧
      [(makePayload 0 16).take 4] ≠ sentPayloads 1 16 := by
  decide

end WebrtcDatachannels.Suite
