import JerryDriver.Hrzr.HeaderFormat

/-! The decoder of the first metadata word, and the layout it reads: version, time sync
source and clock sync source, each with the most significant bit first. As with the header
the word is a little-endian load, so all three sit in the two bytes lowest in memory. -/
namespace JerryDriver.HrzrMetadataParser
open ByteMemory HrzrHeaderParser

inductive TimeSyncSourceType where
  | noTimeSync
  | gps
  | gpsNoSync
  | network
  | networkNoSync
  | unknownTime
  deriving DecidableEq

inductive ClockSyncSourceType where
  | internalClock
  | externalClock
  | unknownClock
  deriving DecidableEq

def getVersion (metadata : UInt64) : UInt8 := metadata.toUInt8 >>> 4

def getTimeSyncSource (metadata : UInt64) : TimeSyncSourceType :=
  let timeSyncSourceRaw := metadata.toUInt8 &&& 0xD
  match timeSyncSourceRaw with
  | 0x0 => .noTimeSync
  | 0x9 => .gps
  | 0x8 => .gpsNoSync
  | 0x5 => .network
  | 0x4 => .networkNoSync
  | _ => .unknownTime

def getClockSyncSource (metadata : UInt64) : ClockSyncSourceType :=
  let clockSyncSourceRaw := (metadata.toUInt16 >>> 14).toUInt8
  match clockSyncSourceRaw with
  | 0x0 => .internalClock
  | 0x2 => .externalClock
  | _ => .unknownClock

/-- What a reader makes of a metadata word. -/
structure Metadata where
  version : Nat
  timeSyncSource : TimeSyncSourceType
  clockSyncSource : ClockSyncSourceType
  deriving DecidableEq

def decode (metadata : UInt64) : Metadata where
  version := (getVersion metadata).toNat
  timeSyncSource := getTimeSyncSource metadata
  clockSyncSource := getClockSyncSource metadata

/-! ## The layout -/

/-- The table of time sync sources, by the bits 0, 1 and 3. -/
def timeSyncRow : (bit0 bit1 synced : Bool) → TimeSyncSourceType
  | false, false, false => .noTimeSync
  | true, false, true => .gps
  | true, false, false => .gpsNoSync
  | false, true, true => .network
  | false, true, false => .networkNoSync
  | _, _, _ => .unknownTime

def clockSyncRow : (bit0 bit1 : Bool) → ClockSyncSourceType
  | false, false => .internalClock
  | true, false => .externalClock
  | _, true => .unknownClock

/-- The fields of a metadata record that the decoder is for. -/
structure WireMetadata where
  version : Nat
  version_lt : version < 16
  timeBit0 : Bool
  timeBit1 : Bool
  ignored : Bool
  synced : Bool
  clockBit0 : Bool
  clockBit1 : Bool

namespace WireMetadata

def timeNibble (record : WireMetadata) : Nat :=
  8 * record.timeBit0.toNat + 4 * record.timeBit1.toNat + 2 * record.ignored.toNat +
    record.synced.toNat

/-- The first two bytes; the rest of the word is zero. -/
def bytes (record : WireMetadata) : List UInt8 :=
  [UInt8.ofNat (16 * record.version + record.timeNibble),
    UInt8.ofNat (128 * record.clockBit0.toNat + 64 * record.clockBit1.toNat), 0, 0, 0, 0, 0, 0]

def meaning (record : WireMetadata) : Metadata where
  version := record.version
  timeSyncSource := timeSyncRow record.timeBit0 record.timeBit1 record.synced
  clockSyncSource := clockSyncRow record.clockBit0 record.clockBit1

end WireMetadata

/-! ## Decoding -/

private theorem time_table : ∀ b : Fin 256, getTimeSyncSource (UInt64.ofNat b.val) =
    timeSyncRow (b.val.testBit 3) (b.val.testBit 2) (b.val.testBit 0) := by
  decide +kernel

theorem getTimeSyncSource_row (metadata : UInt64) : getTimeSyncSource metadata =
    timeSyncRow ((metadata.toNat % 256).testBit 3) ((metadata.toNat % 256).testBit 2)
      ((metadata.toNat % 256).testBit 0) := by
  have byte : metadata.toUInt8 = (UInt64.ofNat (metadata.toNat % 256)).toUInt8 :=
    UInt8.toNat_inj.mp (by simp)
  have table := time_table ⟨metadata.toNat % 256, Nat.mod_lt _ (by decide)⟩
  rw [← table]
  simp only [getTimeSyncSource, byte]

private theorem clock_table : ∀ b : Fin 256, (match UInt8.ofNat (b.val / 64) with
      | 0x0 => ClockSyncSourceType.internalClock
      | 0x2 => .externalClock
      | _ => .unknownClock) = clockSyncRow (b.val.testBit 7) (b.val.testBit 6) := by
  decide +kernel

theorem getClockSyncSource_row (metadata : UInt64) : getClockSyncSource metadata =
    clockSyncRow ((metadata.toNat / 256 % 256).testBit 7)
      ((metadata.toNat / 256 % 256).testBit 6) := by
  have bits : (metadata.toUInt16 >>> 14).toUInt8 =
      UInt8.ofNat (metadata.toNat / 256 % 256 / 64) := by
    have places : 2 ^ (UInt16.toNat 14 % 16) = 16384 := rfl
    apply UInt8.toNat_inj.mp
    rw [UInt16.toNat_toUInt8, UInt16.toNat_shiftRight, UInt64.toNat_toUInt16, UInt8.toNat_ofNat']
    rw [Nat.shiftRight_eq_div_pow, places]
    omega
  have table := clock_table ⟨metadata.toNat / 256 % 256, Nat.mod_lt _ (by decide)⟩
  rw [← table]
  simp only [getClockSyncSource, bits]

theorem getVersion_toNat (metadata : UInt64) :
    (getVersion metadata).toNat = metadata.toNat % 256 / 16 := by
  rw [getVersion, UInt8.toNat_shiftRight, UInt64.toNat_toUInt8, Nat.shiftRight_eq_div_pow]
  rfl

/-- The word of a record's bytes, and any word that begins with two bytes. -/
theorem headerWord_second (b0 b1 : UInt8) (rest : List UInt8) :
    (headerWord (b0 :: b1 :: rest)).toNat / 256 % 256 = b1.toNat := by
  have low := headerWord_low b0 b1 rest
  have first := b0.toNat_lt
  have second := b1.toNat_lt
  omega

theorem decode_bytes (b0 b1 : UInt8) (rest : List UInt8) :
    decode (headerWord (b0 :: b1 :: rest)) =
      ⟨b0.toNat / 16, timeSyncRow (b0.toNat.testBit 3) (b0.toNat.testBit 2) (b0.toNat.testBit 0),
        clockSyncRow (b1.toNat.testBit 7) (b1.toNat.testBit 6)⟩ := by
  rw [decode, getVersion_toNat, getTimeSyncSource_row, getClockSyncSource_row, headerWord_first,
    headerWord_second]

private theorem nibble_bits : ∀ (version : Fin 16) (bit0 bit1 ignored synced : Bool),
    let byte := UInt8.ofNat (16 * version.val +
      (8 * bit0.toNat + 4 * bit1.toNat + 2 * ignored.toNat + synced.toNat))
    byte.toNat / 16 = version.val ∧ byte.toNat.testBit 3 = bit0 ∧ byte.toNat.testBit 2 = bit1 ∧
      byte.toNat.testBit 0 = synced := by
  decide +kernel

private theorem clock_bits : ∀ bit0 bit1 : Bool,
    let byte := UInt8.ofNat (128 * bit0.toNat + 64 * bit1.toNat)
    byte.toNat.testBit 7 = bit0 ∧ byte.toNat.testBit 6 = bit1 := by
  decide

theorem WireMetadata.decoded (record : WireMetadata) :
    decode (headerWord record.bytes) = record.meaning := by
  obtain ⟨version, bit0, bit1, synced⟩ := nibble_bits ⟨record.version, record.version_lt⟩
    record.timeBit0 record.timeBit1 record.ignored record.synced
  obtain ⟨clock0, clock1⟩ := clock_bits record.clockBit0 record.clockBit1
  rw [bytes, decode_bytes, timeNibble, version, bit0, bit1, synced, clock0, clock1, meaning]

/-- The decoder answers every word by the tables, from its first two bytes alone, and gives
back the fields of every record laid out. -/
theorem decoder_inverts_metadata_layout :
    (∀ b0 b1 b2 b3 b4 b5 b6 b7 : UInt8, decode (headerWord [b0, b1, b2, b3, b4, b5, b6, b7]) =
      ⟨b0.toNat / 16,
        timeSyncRow (b0.toNat.testBit 3) (b0.toNat.testBit 2) (b0.toNat.testBit 0),
        clockSyncRow (b1.toNat.testBit 7) (b1.toNat.testBit 6)⟩) ∧
    ∀ record : WireMetadata, decode (headerWord record.bytes) = record.meaning :=
  ⟨fun _ _ _ _ _ _ _ _ => decode_bytes _ _ _, WireMetadata.decoded⟩

example :
    let record : WireMetadata := ⟨15, by decide, true, false, true, true, true, false⟩
    decode (headerWord record.bytes) = ⟨15, .gps, .externalClock⟩ := by
  decide

end JerryDriver.HrzrMetadataParser
