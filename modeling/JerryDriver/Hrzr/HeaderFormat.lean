import JerryDriver.Hrzr.HeaderParser

/-! The HRZR header as it is laid out on the wire: the control nibble, the 12-bit
sequence number, the total packet length and the receiver address, each with the
most significant bit first. The decoder reads a little-endian load of these bytes
and is the exact inverse of the layout for the two fields it extracts. -/
namespace JerryDriver.HrzrHeaderParser
open ByteMemory

/-- The fields of a header. The control nibble's bit of value 2 belongs to no type. -/
structure WireHeader where
  type : PacketType
  ignored : Bool
  sequenceNumber : Nat
  sequenceNumber_lt : sequenceNumber < 4096
  totalPacketLength : UInt16
  receiverAddress : UInt32

def WireHeader.nibble (header : WireHeader) : Nat :=
  header.type.control + 2 * header.ignored.toNat

def WireHeader.bytes (header : WireHeader) : List UInt8 :=
  UInt8.ofNat (16 * header.nibble + header.sequenceNumber / 256) ::
    UInt8.ofNat header.sequenceNumber ::
    ((bytesOf 2 header.totalPacketLength.toNat).reverse ++
      (bytesOf 4 header.receiverAddress.toNat).reverse)

/-- The word a receiver loads from the first eight bytes of a packet. -/
def headerWord (bytes : List UInt8) : UInt64 := load64 (ofBytes bytes) 0

theorem headerWord_low (b0 b1 : UInt8) (rest : List UInt8) :
    (headerWord (b0 :: b1 :: rest)).toNat % 65536 = b0.toNat + 256 * b1.toNat := load64_low

theorem headerWord_first (b0 b1 : UInt8) (rest : List UInt8) :
    (headerWord (b0 :: b1 :: rest)).toNat % 256 = b0.toNat := by
  have low := headerWord_low b0 b1 rest
  have byte := b0.toNat_lt
  omega

theorem headerWord_sequenceNumber (b0 b1 : UInt8) (rest : List UInt8) :
    (getSequenceNumberFromHeader (headerWord (b0 :: b1 :: rest))).toNat =
      b0.toNat % 16 * 256 + b1.toNat := by
  have low := headerWord_low b0 b1 rest
  have first := b0.toNat_lt
  have second := b1.toNat_lt
  rw [getSequenceNumberFromHeader_toNat]
  omega

theorem headerWord_control (b0 b1 : UInt8) (rest : List UInt8) (type : PacketType) :
    getControlFromHeader (headerWord (b0 :: b1 :: rest)) = .ok type ↔
      controlNibble b0.toNat = type.control := by
  rw [getControlFromHeader_ok_iff, headerWord_first]

/-- With the ignored bit clear, 1001 is the only nibble that is no type's. -/
theorem controlNibble_cases {byte : Nat} (bound : byte < 256) :
    (controlNibble byte = 9 ∧ ∀ type : PacketType, controlNibble byte ≠ type.control) ∨
      (controlNibble byte ≠ 9 ∧ ∃ type : PacketType, controlNibble byte = type.control) := by
  have values : controlNibble byte ∈ [0, 1, 4, 5, 8, 9, 12, 13] := by
    simp only [controlNibble, List.mem_cons, List.not_mem_nil, or_false]
    omega
  simp only [List.mem_cons, List.not_mem_nil, or_false] at values
  rcases values with zero | one | four | five | eight | nine | twelve | thirteen
  · exact .inr ⟨by omega, .data, zero⟩
  · exact .inr ⟨by omega, .dataEndOfBurst, one⟩
  · exact .inr ⟨by omega, .flowControl, four⟩
  · exact .inr ⟨by omega, .metadata, five⟩
  · exact .inr ⟨by omega, .command, eight⟩
  · refine .inl ⟨nine, fun type same => ?_⟩
    cases type <;> simp only [PacketType.control] at same <;> omega
  · exact .inr ⟨by omega, .commandResponse, twelve⟩
  · exact .inr ⟨by omega, .commandResponseError, thirteen⟩

/-- Of the nibbles only 1001 belongs to no type. -/
theorem recognised_iff (hrzr : UInt64) :
    Recognised hrzr ↔ controlNibble (hrzr.toNat % 256) ≠ 9 := by
  have bound : hrzr.toNat % 256 < 256 := Nat.mod_lt _ (by decide)
  simp only [Recognised, getControlFromHeader_ok_iff]
  rcases controlNibble_cases bound with ⟨nine, none⟩ | ⟨other, known⟩
  · refine iff_of_false ?_ (not_not.mpr nine)
    rintro ⟨type, same⟩
    exact none type same
  · exact iff_of_true known other

/-- What the control decoder throws is always the same exception. -/
theorem getControlFromHeader_thrown {hrzr : UInt64} {thrown : Thrown}
    (failed : getControlFromHeader hrzr = .error thrown) :
    thrown = .invalidHrzrHeader "Could not match control." := by
  simp only [getControlFromHeader] at failed
  split at failed <;> cases failed
  rfl

theorem headerWord_refused (b0 b1 : UInt8) (rest : List UInt8) :
    (∃ message, getControlFromHeader (headerWord (b0 :: b1 :: rest)) =
      .error (.invalidHrzrHeader message)) ↔ controlNibble b0.toNat = 9 := by
  have types := headerWord_control b0 b1 rest
  constructor
  · rintro ⟨message, failed⟩
    obtain ⟨nine, -⟩ | ⟨-, type, known⟩ := controlNibble_cases b0.toNat_lt
    · exact nine
    · have found := (types type).mpr known
      rw [failed] at found
      contradiction
  · intro nine
    cases found : getControlFromHeader (headerWord (b0 :: b1 :: rest)) with
    | error thrown => exact ⟨_, congrArg Except.error (getControlFromHeader_thrown found)⟩
    | ok type =>
      obtain ⟨-, none⟩ | ⟨other, -⟩ := controlNibble_cases b0.toNat_lt
      · exact absurd ((types type).mp found) (none type)
      · exact absurd nine other

/-! ## Decoding what was laid out -/

theorem PacketType.control_lt (type : PacketType) :
    type.control < 16 ∧ type.control / 2 % 2 = 0 := by
  cases type <;> decide

theorem WireHeader.first_toNat (header : WireHeader) :
    (UInt8.ofNat (16 * header.nibble + header.sequenceNumber / 256)).toNat =
      16 * header.nibble + header.sequenceNumber / 256 := by
  have number := header.sequenceNumber_lt
  have control := header.type.control_lt
  have bit : header.ignored.toNat ≤ 1 := Bool.toNat_le _
  rw [UInt8.toNat_ofNat', nibble, Nat.mod_eq_of_lt (by omega)]

theorem WireHeader.decoded_type (header : WireHeader) :
    getControlFromHeader (headerWord header.bytes) = .ok header.type := by
  have number := header.sequenceNumber_lt
  have control := header.type.control_lt
  have bit : header.ignored.toNat ≤ 1 := Bool.toNat_le _
  rw [bytes, headerWord_control, first_toNat, controlNibble, nibble]
  omega

theorem WireHeader.decoded_sequenceNumber (header : WireHeader) :
    (getSequenceNumberFromHeader (headerWord header.bytes)).toNat = header.sequenceNumber := by
  have number := header.sequenceNumber_lt
  rw [bytes, headerWord_sequenceNumber, first_toNat, UInt8.toNat_ofNat']
  omega

/-- The decoder accepts exactly the header format, and inverts its layout. -/
theorem decoder_accepts_header_format :
    (∀ b0 b1 b2 b3 b4 b5 b6 b7 : UInt8,
      let hrzr := headerWord [b0, b1, b2, b3, b4, b5, b6, b7]
      (getSequenceNumberFromHeader hrzr).toNat = b0.toNat % 16 * 256 + b1.toNat ∧
        (getSequenceNumberFromHeader hrzr).toNat < 4096 ∧
        ((∃ message, getControlFromHeader hrzr = .error (.invalidHrzrHeader message)) ↔
          controlNibble b0.toNat = 9) ∧
        (controlNibble b0.toNat ≠ 9 → ∃! type : PacketType,
          type.control = controlNibble b0.toNat ∧ getControlFromHeader hrzr = .ok type) ∧
        ∀ c2 c3 c4 c5 c6 c7 : UInt8,
          let other := headerWord [b0, b1, c2, c3, c4, c5, c6, c7]
          getControlFromHeader other = getControlFromHeader hrzr ∧
            getSequenceNumberFromHeader other = getSequenceNumberFromHeader hrzr) ∧
    ∀ header : WireHeader,
      getControlFromHeader (headerWord header.bytes) = .ok header.type ∧
        (getSequenceNumberFromHeader (headerWord header.bytes)).toNat =
          header.sequenceNumber := by
  refine ⟨?_, fun header => ⟨header.decoded_type, header.decoded_sequenceNumber⟩⟩
  intro b0 b1 b2 b3 b4 b5 b6 b7
  refine ⟨headerWord_sequenceNumber .., getSequenceNumberFromHeader_lt _,
    headerWord_refused .., ?_, ?_⟩
  · intro typed
    obtain ⟨nine, -⟩ | ⟨-, type, known⟩ := controlNibble_cases b0.toNat_lt
    · contradiction
    · refine ⟨type, ⟨known.symm, (headerWord_control ..).mpr known⟩, ?_⟩
      rintro other ⟨same, -⟩
      exact PacketType.control_injective (same.trans known)
  · intro c2 c3 c4 c5 c6 c7
    constructor
    · apply getControlFromHeader_congr
      rw [headerWord_first, headerWord_first]
    · apply UInt16.toNat_inj.mp
      rw [headerWord_sequenceNumber, headerWord_sequenceNumber]

/-- The last number of a burst, with the ignored bit set. -/
example :
    let header : WireHeader := ⟨.dataEndOfBurst, true, 4095, by decide, 1472, 0x7F000001⟩
    getControlFromHeader (headerWord header.bytes) = .ok .dataEndOfBurst ∧
      getSequenceNumberFromHeader (headerWord header.bytes) = 4095 := by
  decide

end JerryDriver.HrzrHeaderParser
