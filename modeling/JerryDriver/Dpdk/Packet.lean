import JerryDriver.Hrzr.HeaderParser

/-! Received frames as the DPDK path sees them: a packet length and the bytes of the
buffer from the frame's start. Bytes from the packet length on are whatever the
buffer held before. The packed header structure is read where it lies, each field
in host byte order. -/
namespace JerryDriver
open ByteMemory Definitions HrzrHeaderParser

/-- `rte_mbuf` with the data that `rte_pktmbuf_mtod` points to. -/
structure Mbuf where
  pktLen : Nat
  data : Memory

structure HrzrPacketAllHeaders where
  etherType : UInt16
  nextProtoId : UInt8
  dstPort : UInt16
  hrzr : UInt64

namespace HrzrPacketAllHeaders

def etherHdrSize : Nat := 14
def ipv4HdrSize : Nat := 20
def udpHdrSize : Nat := 8
def hrzrOffset : Nat := etherHdrSize + ipv4HdrSize + udpHdrSize
def size : Nat := hrzrOffset + 8

end HrzrPacketAllHeaders

open HrzrPacketAllHeaders

namespace Mbuf

def headers (m : Mbuf) : HrzrPacketAllHeaders where
  etherType := load16 m.data 12
  nextProtoId := m.data (etherHdrSize + 9)
  dstPort := load16 m.data (etherHdrSize + ipv4HdrSize + 2)
  hrzr := load64 m.data hrzrOffset

/-- Ethernet, IPv4 and UDP headers of a frame to a port, cleared where nothing reads. -/
def udpHeaders (port : UInt16) : List UInt8 :=
  [0, 0, 0, 0, 0, 0, 0, 0, 0, 0, 0, 0, 0x08, 0x00,
    0, 0, 0, 0, 0, 0, 0, 0, 0, 17, 0, 0, 0, 0, 0, 0, 0, 0, 0, 0,
    0, 0, (port >>> 8).toUInt8, port.toUInt8, 0, 0, 0, 0]

def ofUdp (port : UInt16) (payload : List UInt8) : Mbuf where
  pktLen := hrzrOffset + payload.length
  data := ofBytes (udpHeaders port ++ payload)

end Mbuf

def ipprotoUdp : UInt8 := 17
def rteEtherTypeIpv4 : UInt16 := 0x0800
def htons (value : UInt16) : UInt16 := swap16 value

def isValidPacketType (type : PacketType) : Bool :=
  type = .data ∨ type = .dataEndOfBurst

/-- The condition under which `RXThread` keeps a frame. The control field is
decoded only when the other tests have passed, so only then can it throw. -/
def accepts (udpRxPort : UInt16) (m : Mbuf) : Except Thrown Bool :=
  let packet := m.headers
  if packet.nextProtoId = ipprotoUdp ∧ packet.etherType = htons rteEtherTypeIpv4 ∧
      packet.dstPort = htons udpRxPort ∧ m.pktLen = payloadSize + size then
    (getControlFromHeader packet.hrzr).map isValidPacketType
  else .ok false

/-- The frame passes the acceptance test; a test that throws does not pass. -/
def Accepted (udpRxPort : UInt16) (m : Mbuf) : Prop := accepts udpRxPort m = .ok true

instance (udpRxPort : UInt16) (m : Mbuf) : Decidable (Accepted udpRxPort m) :=
  inferInstanceAs (Decidable (_ = _))

theorem not_accepted {udpRxPort : UInt16} {m : Mbuf} {result : Except Thrown Bool}
    (known : accepts udpRxPort m = result) (other : result ≠ .ok true) : ¬ Accepted udpRxPort m :=
  fun accepted => other (known.symm.trans accepted)

theorem isValidPacketType_iff (type : PacketType) :
    isValidPacketType type = true ↔ type = .data ∨ type = .dataEndOfBurst := by
  simp [isValidPacketType]

theorem accepted_iff (udpRxPort : UInt16) (m : Mbuf) : Accepted udpRxPort m ↔
    m.headers.nextProtoId = ipprotoUdp ∧ m.headers.etherType = htons rteEtherTypeIpv4 ∧
      m.headers.dstPort = htons udpRxPort ∧ m.pktLen = payloadSize + size ∧
      (getControlFromHeader m.headers.hrzr = .ok .data ∨
        getControlFromHeader m.headers.hrzr = .ok .dataEndOfBurst) := by
  simp only [Accepted, accepts]
  split
  · rename_i headers
    simp only [headers, true_and]
    cases getControlFromHeader m.headers.hrzr with
    | error thrown => simp [Except.map]
    | ok type => simp [Except.map, isValidPacketType_iff]
  · rename_i headers
    simp only [Except.ok.injEq, Bool.false_eq_true, false_iff]
    exact fun held => headers ⟨held.1, held.2.1, held.2.2.1, held.2.2.2.1⟩

/-- The frame is the one in which `payload` travels to `port` over UDP and IPv4, unfragmented:
the whole datagram is in it. Frames below the minimal Ethernet length may arrive padded. -/
structure Carries (m : Mbuf) (port : UInt16) (payload : List UInt8) : Prop where
  etherType : m.headers.etherType = htons rteEtherTypeIpv4
  nextProtoId : m.headers.nextProtoId = ipprotoUdp
  dstPort : m.headers.dstPort = htons port
  pktLen : m.pktLen = hrzrOffset + payload.length ∨
    (m.pktLen = 60 ∧ hrzrOffset + payload.length ≤ 60)
  bytes : ∀ i (bound : i < payload.length), m.data (hrzrOffset + i) = payload[i]

theorem Carries.accepted_iff {m : Mbuf} {port : UInt16} {payload : List UInt8}
    (carried : Carries m port payload) : Accepted port m ↔
      payload.length = packetSize ∧ (getControlFromHeader m.headers.hrzr = .ok .data ∨
        getControlFromHeader m.headers.hrzr = .ok .dataEndOfBurst) := by
  have length : m.pktLen = payloadSize + size ↔ payload.length = packetSize := by
    have cases_ := carried.pktLen
    simp only [hrzrOffset, etherHdrSize, ipv4HdrSize, udpHdrSize, payloadSize, size,
      packetSize] at cases_ ⊢
    omega
  rw [JerryDriver.accepted_iff, length]
  simp only [carried.nextProtoId, carried.etherType, carried.dstPort, true_and]

theorem Mbuf.ofUdp_data (port : UInt16) (payload : List UInt8) (i : Nat) :
    (ofUdp port payload).data (hrzrOffset + i) = payload.getD i 0 := by
  have length : (udpHeaders port).length = hrzrOffset := rfl
  change (udpHeaders port ++ payload).getD (hrzrOffset + i) 0 = payload.getD i 0
  rw [List.getD_append_right _ _ _ _ (by omega), length, Nat.add_sub_cancel_left]

theorem Mbuf.carries_ofUdp (port : UInt16) (payload : List UInt8) :
    Carries (ofUdp port payload) port payload where
  etherType := rfl
  nextProtoId := rfl
  dstPort := by
    apply UInt16.toNat_inj.mp
    have high : (port >>> 8).toUInt8.toNat = port.toNat / 256 := by
      have bound := port.toNat_lt
      simp [UInt16.toNat_shiftRight, Nat.shiftRight_eq_div_pow]
      omega
    have low : port.toUInt8.toNat = port.toNat % 256 := by simp
    rw [headers, load16_toNat, htons, swap16_toNat]
    change (port >>> 8).toUInt8.toNat + 256 * port.toUInt8.toNat = _
    omega
  pktLen := .inl rfl
  bytes i bound := by
    rw [ofUdp_data, List.getD_eq_getElem _ _ bound]

end JerryDriver
