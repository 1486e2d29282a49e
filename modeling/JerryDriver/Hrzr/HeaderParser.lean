import JerryDriver.Common
import JerryDriver.Library.ByteMemory

/-! The HRZR header decoder. The receivers load the eight header bytes as one
64-bit word of the little-endian host; control and sequence number sit in the two
bytes that are lowest in memory, so both decoders see only the low 16 bits. -/
namespace JerryDriver.HrzrHeaderParser
open ByteMemory

inductive PacketType where
  | data
  | dataEndOfBurst
  | flowControl
  | command
  | commandResponse
  | commandResponseError
  | metadata
  deriving DecidableEq

def getControlFromHeader (hrzr : UInt64) : Except Thrown PacketType :=
  -- The mask leaves out the nibble's bit of value 2.
  let control := (hrzr.toUInt8 &&& 0xD0) >>> 4
  match control with
  | 0x00 => .ok .data
  | 0x01 => .ok .dataEndOfBurst
  | 0x04 => .ok .flowControl
  | 0x08 => .ok .command
  | 0x0C => .ok .commandResponse
  | 0x0D => .ok .commandResponseError
  | 0x05 => .ok .metadata
  | _ => .error (.invalidHrzrHeader "Could not match control.")

def getSequenceNumberFromHeader (hrzr : UInt64) : UInt16 :=
  let squNrRaw := hrzr.toUInt16 &&& 0xFF0F
  swap16 squNrRaw

/-- The control field is one of the packet types. -/
def Recognised (hrzr : UInt64) : Prop := ∃ type, getControlFromHeader hrzr = .ok type

instance (hrzr : UInt64) : Decidable (Recognised hrzr) :=
  match found : getControlFromHeader hrzr with
  | .ok type => .isTrue ⟨type, found⟩
  | .error _ => .isFalse fun ⟨_, known⟩ => by rw [found] at known; contradiction

theorem not_recognised_iff (hrzr : UInt64) :
    ¬ Recognised hrzr ↔ ∃ thrown, getControlFromHeader hrzr = .error thrown := by
  unfold Recognised
  cases getControlFromHeader hrzr with
  | ok type => simp
  | error thrown => simp

/-- The control field is read from the first header byte alone. -/
theorem getControlFromHeader_congr {a b : UInt64} (same : a.toNat % 256 = b.toNat % 256) :
    getControlFromHeader a = getControlFromHeader b := by
  have byte : a.toUInt8 = b.toUInt8 := UInt8.toNat_inj.mp (by simpa using same)
  simp only [getControlFromHeader, byte]

/-- The control nibble of a packet type, with the ignored bit clear. -/
def PacketType.control : PacketType → Nat
  | .data => 0
  | .dataEndOfBurst => 1
  | .flowControl => 4
  | .metadata => 5
  | .command => 8
  | .commandResponse => 12
  | .commandResponseError => 13

/-- The high nibble of a byte without the nibble's bit of value 2. -/
def controlNibble (byte : Nat) : Nat := byte / 64 * 4 + byte / 16 % 2

theorem PacketType.control_injective : Function.Injective PacketType.control := by
  intro first second same
  cases first <;> cases second <;> first | rfl | cases same

private theorem masked_control : ∀ b : Fin 256,
    ((UInt8.ofNat b.val &&& 0xD0) >>> 4).toNat = controlNibble b.val := by
  decide +kernel

theorem control_toNat (hrzr : UInt64) :
    ((hrzr.toUInt8 &&& 0xD0) >>> 4).toNat = controlNibble (hrzr.toNat % 256) := by
  have byte : hrzr.toUInt8 = UInt8.ofNat (hrzr.toNat % 256) := UInt8.toNat_inj.mp (by simp)
  rw [byte]
  exact masked_control ⟨hrzr.toNat % 256, Nat.mod_lt _ (by decide)⟩

/-- The decoder returns the type whose nibble the first byte has. -/
theorem getControlFromHeader_ok_iff (hrzr : UInt64) (type : PacketType) :
    getControlFromHeader hrzr = .ok type ↔ controlNibble (hrzr.toNat % 256) = type.control := by
  rw [← control_toNat, getControlFromHeader]
  generalize (hrzr.toUInt8 &&& 0xD0) >>> 4 = control
  split
  case h_8 =>
    simp only [reduceCtorEq, false_iff]
    intro same
    cases type <;> simp_all [PacketType.control, ← UInt8.toNat_inj]
  all_goals cases type <;> simp [PacketType.control]

/-- No type has the nibble 1001. -/
example : getControlFromHeader 0x90 = .error (.invalidHrzrHeader "Could not match control.") := by
  decide

/-- DATA is the nibble 0000, and 0010 with the ignored bit set. -/
theorem getControlFromHeader_data_iff (hrzr : UInt64) : getControlFromHeader hrzr = .ok .data ↔
    hrzr.toNat % 256 / 16 = 0 ∨ hrzr.toNat % 256 / 16 = 2 := by
  rw [getControlFromHeader_ok_iff, PacketType.control, controlNibble]
  omega

private theorem masked_word {word : Nat} (bound : word < 65536) :
    word &&& 0xFF0F = word / 256 * 256 + word % 16 := by
  have high : word / 256 &&& 255 = word / 256 := by
    rw [Nat.and_two_pow_sub_one_eq_mod _ 8]
    exact Nat.mod_eq_of_lt (by omega)
  have low : word % 256 &&& 15 = word % 16 := by
    rw [Nat.and_two_pow_sub_one_eq_mod _ 4]
    omega
  have parts : (2 ^ 8 * (word / 256) + word % 256) &&& (2 ^ 8 * 255 + 15) =
      2 ^ 8 * (word / 256 &&& 255) + (word % 256 &&& 15) :=
    land_parts 8 (word / 256) 255 (by omega) (by decide)
  rw [high, low] at parts
  calc word &&& 0xFF0F = (2 ^ 8 * (word / 256) + word % 256) &&& (2 ^ 8 * 255 + 15) := by
        congr 1
        omega
    _ = word / 256 * 256 + word % 16 := by
        rw [parts]
        omega

/-- The low nibble of the first header byte is the high part of the sequence
number, the second header byte its low part. -/
theorem getSequenceNumberFromHeader_toNat (hrzr : UInt64) :
    (getSequenceNumberFromHeader hrzr).toNat =
      hrzr.toNat % 16 * 256 + hrzr.toNat / 256 % 256 := by
  have masked := masked_word (Nat.mod_lt hrzr.toNat (show 65536 > 0 by decide))
  have raw : (hrzr.toUInt16 &&& 0xFF0F).toNat = hrzr.toNat % 65536 &&& 0xFF0F := by
    simp [UInt16.toNat_and]
  rw [getSequenceNumberFromHeader, swap16_toNat, raw, masked]
  omega

theorem getSequenceNumberFromHeader_lt (hrzr : UInt64) :
    (getSequenceNumberFromHeader hrzr).toNat < 4096 := by
  rw [getSequenceNumberFromHeader_toNat]
  omega

end JerryDriver.HrzrHeaderParser
