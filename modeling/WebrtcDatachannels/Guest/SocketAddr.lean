import WebrtcDatachannels.Lib.Runs
import WebrtcDatachannels.Wit

/-!
# Socket addresses of the in-guest driver

`wasip3-impl/src/runtime.rs`. The core speaks of `std` socket addresses, the socket of those of
`wasi:sockets`; the pump converts the origin of each datagram that it receives and the destination
of each that it sends. `to_wasi_addr` carries every field over. `from_wasi_addr` ends in
`SocketAddr::new`, which has no flow info and no scope id, so an address survives the crossing
exactly when it is `Bare`, and a reply goes back to where the datagram came from exactly then
(`addresses_survive_iff`).
-/

namespace WebrtcDatachannels.Guest

/-! ## The two kinds of addresses -/

/-- `std::net::Ipv4Addr`. -/
structure Ipv4Addr where
  octets : UInt8 × UInt8 × UInt8 × UInt8

/-- `std::net::Ipv6Addr`, by its segments. -/
structure Ipv6Addr where
  segments : UInt16 × UInt16 × UInt16 × UInt16 × UInt16 × UInt16 × UInt16 × UInt16

/-- `std::net::IpAddr`. -/
inductive IpAddr where
  | v4 (ip : Ipv4Addr)
  | v6 (ip : Ipv6Addr)

/-- `std::net::SocketAddrV4`. -/
structure SocketAddrV4 where
  ip : Ipv4Addr
  port : UInt16

/-- `std::net::SocketAddrV6`. -/
structure SocketAddrV6 where
  ip : Ipv6Addr
  port : UInt16
  flowinfo : UInt32
  scopeId : UInt32

/-- `std::net::SocketAddr`. -/
inductive SocketAddr where
  | v4 (addr : SocketAddrV4)
  | v6 (addr : SocketAddrV6)

/-- `SocketAddr::new`, which leaves the flow info and the scope id of an IPv6 address zero. -/
def SocketAddr.new (ip : IpAddr) (port : UInt16) : SocketAddr :=
  match ip with
  | .v4 ip => .v4 { ip, port }
  | .v6 ip => .v6 { ip, port, flowinfo := 0, scopeId := 0 }

/-- `wasi:sockets/types.ipv4-socket-address`. -/
structure Ipv4SocketAddress where
  port : UInt16
  address : UInt8 × UInt8 × UInt8 × UInt8

/-- `wasi:sockets/types.ipv6-socket-address`. -/
structure Ipv6SocketAddress where
  port : UInt16
  flowInfo : UInt32
  address : UInt16 × UInt16 × UInt16 × UInt16 × UInt16 × UInt16 × UInt16 × UInt16
  scopeId : UInt32

/-- `wasi:sockets/types.ip-socket-address`. -/
inductive IpSocketAddress where
  | ipv4 (addr : Ipv4SocketAddress)
  | ipv6 (addr : Ipv6SocketAddress)

/-! ## The conversions -/

/-- Source: `to_wasi_addr`. -/
def toWasiAddr : SocketAddr → IpSocketAddress
  | .v4 v4 => .ipv4 { port := v4.port, address := v4.ip.octets }
  | .v6 v6 =>
    .ipv6
      { port := v6.port
        flowInfo := v6.flowinfo
        address := v6.ip.segments
        scopeId := v6.scopeId }

/-- Source: `from_wasi_addr`. -/
def fromWasiAddr : IpSocketAddress → SocketAddr
  | .ipv4 v4 => .new (.v4 ⟨v4.address⟩) v4.port
  | .ipv6 v6 => .new (.v6 ⟨v6.address⟩) v6.port

/-- Without flow info and scope id. -/
def SocketAddr.Bare : SocketAddr → Prop
  | .v4 _ => True
  | .v6 addr => addr.flowinfo = 0 ∧ addr.scopeId = 0

/-- Without flow info and scope id. -/
def IpSocketAddress.Bare : IpSocketAddress → Prop
  | .ipv4 _ => True
  | .ipv6 addr => addr.flowInfo = 0 ∧ addr.scopeId = 0

/-- An address survives the way to the socket and back exactly when it is bare. -/
theorem fromWasiAddr_toWasiAddr_iff (a : SocketAddr) :
    fromWasiAddr (toWasiAddr a) = a ↔ a.Bare := by
  cases a with
  | v4 v4 => exact ⟨fun _ => trivial, fun _ => rfl⟩
  | v6 v6 =>
    obtain ⟨ip, port, flowinfo, scopeId⟩ := v6
    constructor
    · intro h
      injection h with h
      injection h with _ _ hflow hscope
      exact ⟨hflow.symm, hscope.symm⟩
    · rintro ⟨rfl, rfl⟩
      rfl

/-- An address survives the way to the core and back exactly when it is bare. -/
theorem toWasiAddr_fromWasiAddr_iff (w : IpSocketAddress) :
    toWasiAddr (fromWasiAddr w) = w ↔ w.Bare := by
  cases w with
  | ipv4 v4 => exact ⟨fun _ => trivial, fun _ => rfl⟩
  | ipv6 v6 =>
    obtain ⟨port, flowInfo, address, scopeId⟩ := v6
    constructor
    · intro h
      injection h with h
      injection h with _ hflow _ hscope
      exact ⟨hflow.symm, hscope.symm⟩
    · rintro ⟨rfl, rfl⟩
      rfl

/-! ## Replies -/

/-- One outbound datagram that the core wants sent. Source: `Transmit`. -/
structure Transmit where
  payload : Bytes
  destination : SocketAddr

/-- The datagrams that passed between the socket and the core: those that the socket received, the
same as the core got them, and those sent on the core's behalf in reply to one, by its number. -/
structure Datagrams where
  received : List (Bytes × IpSocketAddress)
  inputs : List (Bytes × SocketAddr)
  replies : List (Nat × Bytes × IpSocketAddress)

/-- The socket receives a datagram, or the core addresses one back to the `from` of an input. -/
inductive DatagramAct where
  | receive (data : Bytes) (origin : IpSocketAddress)
  | reply (i : Nat) (payload : Bytes)

namespace Datagrams

/-- No datagram has passed. -/
def start : Datagrams := { received := [], inputs := [], replies := [] }

/-- What `flush` passes to `socket.send`. -/
def flush (transmit : Transmit) : Bytes × IpSocketAddress :=
  (transmit.payload, toWasiAddr transmit.destination)

/-- One step. Source: the `recv` arm and `flush` of `Runtime::pump`. -/
def step (s : Datagrams) : DatagramAct → Option Datagrams
  | .receive data origin =>
    some
      { s with
        received := s.received ++ [(data, origin)]
        inputs := s.inputs ++ [(data, fromWasiAddr origin)] }
  | .reply i payload =>
    (s.inputs[i]?).map fun input =>
      { s with replies := s.replies ++ [(i, flush { payload, destination := input.2 })] }

/-- Every reply was sent to exactly the address that its datagram came from. -/
def Returned (s : Datagrams) : Prop :=
  ∀ r ∈ s.replies, ∃ d, s.received[r.1]? = some d ∧ r.2.2 = d.2

/-- A datagram that is replied to came from a bare address. -/
def FromBare (s : Datagrams) : DatagramAct → Prop
  | .receive _ _ => True
  | .reply i _ => ∀ d, s.received[i]? = some d → d.2.Bare

/-- The core gets what the socket received, under the converted address. -/
def Inv (s : Datagrams) : Prop :=
  s.inputs = s.received.map fun d => (d.1, fromWasiAddr d.2)

variable {s s' : Datagrams} {a : DatagramAct}

/-- A reply is sent to the origin of its datagram, converted twice. -/
theorem Inv.reply (hi : s.Inv) {i : Nat} {payload : Bytes}
    (h : s.step (.reply i payload) = some s') : ∃ d, s.received[i]? = some d ∧
      s' = { s with replies := s.replies ++ [(i, payload, toWasiAddr (fromWasiAddr d.2))] } := by
  simp only [step, Option.map_eq_some_iff] at h
  obtain ⟨input, hinput, rfl⟩ := h
  rw [hi, List.getElem?_map, Option.map_eq_some_iff] at hinput
  obtain ⟨d, hd, rfl⟩ := hinput
  exact ⟨d, hd, rfl⟩

theorem Inv.step (hi : s.Inv) (h : s.step a = some s') : s'.Inv := by
  cases a with
  | receive data origin =>
    cases h
    show s.inputs ++ [_] = (s.received ++ [_]).map _
    rw [hi, List.map_append]
    rfl
  | reply i payload =>
    obtain ⟨d, -, rfl⟩ := hi.reply h
    exact hi

/-- A reply to a bare address goes back to it. -/
theorem Returned.step (hr : s.Returned) (hi : s.Inv) (hC : s.FromBare a)
    (h : s.step a = some s') : s'.Returned := by
  cases a with
  | receive data origin =>
    cases h
    intro r hmem
    obtain ⟨d, hd, heq⟩ := hr r hmem
    have hlt : r.1 < s.received.length := (List.getElem?_eq_some_iff.1 hd).1
    exact ⟨d, by rw [← hd]; exact List.getElem?_append_left hlt, heq⟩
  | reply i payload =>
    obtain ⟨d, hd, rfl⟩ := hi.reply h
    intro r hmem
    rcases List.mem_append.1 hmem with hmem | hmem
    · exact hr r hmem
    · cases List.mem_singleton.1 hmem
      exact ⟨d, hd, (toWasiAddr_fromWasiAddr_iff d.2).2 (hC d hd)⟩

/-- A reply to an address that is not bare goes elsewhere. -/
theorem not_returned_step (hi : s.Inv) (hC : ¬ s.FromBare a) (h : s.step a = some s') :
    ¬ s'.Returned := by
  intro hr
  cases a with
  | receive data origin => exact hC trivial
  | reply i payload =>
    obtain ⟨d, hd, rfl⟩ := hi.reply h
    refine hC fun d' hd' => ?_
    obtain ⟨d'', hd'', heq⟩ := hr _ (List.mem_append_right _ (List.mem_singleton_self _))
    obtain rfl : d' = d := Option.some.inj (hd'.symm.trans hd)
    obtain rfl : d'' = d' := Option.some.inj (hd''.symm.trans hd)
    exact (toWasiAddr_fromWasiAddr_iff d''.2).1 heq

end Datagrams

open Datagrams in
/-- A socket address survives the crossing in either direction exactly when it is bare, and every
reply of a run is sent to exactly the address that its datagram came from exactly when every
datagram replied to came from a bare address. -/
theorem addresses_survive_iff (a : SocketAddr) (w : IpSocketAddress) {as : List DatagramAct}
    {s : Datagrams} (h : Runs.run step start as = some s) :
    (fromWasiAddr (toWasiAddr a) = a ↔ a.Bare) ∧ (toWasiAddr (fromWasiAddr w) = w ↔ w.Bare) ∧
      (Runs.Along step Returned start as ↔ Runs.Meets step FromBare start as) := by
  refine ⟨fromWasiAddr_toWasiAddr_iff a, toWasiAddr_fromWasiAddr_iff w, ?_⟩
  refine Runs.along_iff_meets (I := fun s => s.Inv ∧ s.Returned) (fun _ hi => hi.2) ?_ ?_
    ⟨rfl, nofun⟩ h
  · intro s a s' hi hC hs
    exact ⟨hi.1.step hs, hi.2.step hi.1 hC hs⟩
  · intro s a s' hi hC hs
    exact not_returned_step hi.1 hC hs

open Datagrams in
/-- A datagram from an IPv4 address and one from a global IPv6 address are replied to. -/
theorem addresses_survive_iff_of_bare :
    Runs.Along step Returned start
      [.receive [1] (.ipv4 ⟨4000, 192, 0, 2, 1⟩),
        .receive [2] (.ipv6 ⟨4001, 0, (0x2001, 0xdb8, 0, 0, 0, 0, 0, 1), 0⟩), .reply 1 [3],
        .reply 0 [4]] := by
  refine (addresses_survive_iff (.v4 ⟨⟨192, 0, 2, 1⟩, 4000⟩) (.ipv4 ⟨4000, 192, 0, 2, 1⟩)
    rfl).2.2.2 ?_
  refine (Runs.meets_cons rfl).2 ⟨trivial, (Runs.meets_cons rfl).2 ⟨trivial, ?_⟩⟩
  refine (Runs.meets_cons rfl).2 ⟨?_, (Runs.meets_cons rfl).2 ⟨?_, trivial⟩⟩
  · rintro _ ⟨⟩
    exact ⟨rfl, rfl⟩
  · rintro _ ⟨⟩
    trivial

open Datagrams in
/-- A link-local address with a scope id loses it in both directions, and a reply to it is sent to
an address without. -/
theorem scope_id_dropped :
    (∃ a : SocketAddr, fromWasiAddr (toWasiAddr a) ≠ a) ∧
    (∃ w : IpSocketAddress, toWasiAddr (fromWasiAddr w) ≠ w) ∧
    ∃ s, Runs.run step start
        [.receive [1] (.ipv6 ⟨4000, 0, (0xfe80, 0, 0, 0, 0, 0, 0, 1), 2⟩), .reply 0 [2]] = some s ∧
      s.replies = [(0, [2], .ipv6 ⟨4000, 0, (0xfe80, 0, 0, 0, 0, 0, 0, 1), 0⟩)] ∧ ¬ s.Returned := by
  have hscope : ¬ (2 : UInt32) = 0 := by decide
  refine ⟨⟨.v6 ⟨⟨0xfe80, 0, 0, 0, 0, 0, 0, 1⟩, 4000, 0, 2⟩, fun h => ?_⟩,
    ⟨.ipv6 ⟨4000, 0, (0xfe80, 0, 0, 0, 0, 0, 0, 1), 2⟩, fun h => ?_⟩, _, rfl, rfl, fun hr => ?_⟩
  · exact hscope ((fromWasiAddr_toWasiAddr_iff _).1 h).2
  · exact hscope ((toWasiAddr_fromWasiAddr_iff _).1 h).2
  · obtain ⟨d, hd, heq⟩ := hr _ (List.mem_singleton_self _)
    cases hd
    have hback := toWasiAddr_fromWasiAddr_iff (.ipv6 ⟨4000, 0, (0xfe80, 0, 0, 0, 0, 0, 0, 1), 2⟩)
    exact hscope (hback.1 heq).2

end WebrtcDatachannels.Guest
