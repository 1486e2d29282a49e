import Mathlib.Data.Rat.Init

/-! Constants of `definitions.h` and the exceptions of `exceptions.h`. -/
namespace JerryDriver

namespace Definitions

def ringSize : Nat := 4096
def packetSize : Nat := 1472
/-- 1472 is the maximal standard UDP payload, less the 8 bytes of HRZR header. -/
def payloadSize : Nat := 1464
def sampleSizeInByte : Nat := 4
def samplesPerPacket : Nat := payloadSize / sampleSizeInByte

theorem samplesPerPacket_eq : samplesPerPacket = 366 := rfl

theorem samplesPerPacket_pos : 0 < samplesPerPacket := by decide

end Definitions

/-- What the library throws, with the message the exception carries. The last
case is an exception that leaves the JSON library. -/
inductive Thrown where
  | notImplementedException (message : String)
  | invalidValueError (message : String)
  | invalidHrzrHeader (message : String)
  | jsonException (message : String)
  deriving DecidableEq

/-- Undefined behaviour: an access outside the object it is meant for. -/
inductive MemoryFault where
  | writeOutsideArray
  | readOutsideObject
  | accessToEmptyList
  deriving DecidableEq

end JerryDriver
