import JerryDriver.IqClient.SetterContract

/-! The fields that setters write and getters read one by one, and the message that
each of them travels in. What a setter sends is made from what it has read before. -/
namespace JerryDriver
open Interaction Program

/-- The messages that are read and written as a whole. -/
inductive Message where
  | udpSetting
  | rfSetting
  deriving DecidableEq

inductive Field where
  | port
  | destinationAddress
  | protocol
  | streamingStatus
  | satFrequencyHz
  | downFrequencyHz
  deriving DecidableEq

namespace Field

abbrev Value : Field → Type
  | .port => Int
  | .destinationAddress => String
  | .protocol => Protocols
  | .streamingStatus => Bool
  | .satFrequencyHz | .downFrequencyHz => ℚ

def message : Field → Message
  | .port | .destinationAddress | .protocol | .streamingStatus => .udpSetting
  | .satFrequencyHz | .downFrequencyHz => .rfSetting

def read (state : ChannelState) : (field : Field) → field.Value
  | .port => state.udp.port
  | .destinationAddress => state.udp.destinationAddress
  | .protocol => state.udp.protocol
  | .streamingStatus => state.udp.isStreaming
  | .satFrequencyHz => state.channel.rf.satFrequencyHz
  | .downFrequencyHz => state.channel.rf.downFrequencyHz

/-- The client's getter of a field. -/
def get (client : IqClient) : (field : Field) → Calls field.Value
  | .port => client.getPort
  | .destinationAddress => client.getDestinationAddress
  | .protocol => client.getProtocol
  | .streamingStatus => client.getStreamingStatus
  | .satFrequencyHz => client.getSatFrequencyHz
  | .downFrequencyHz => client.getDownFrequencyHz

theorem run_get (firmware : Firmware) {outcomes : Outcomes} (device : Device) {calls : Nat}
    (client : IqClient) (field : Field) {answer : ErrorMessage}
    (delivered : outcomes calls = .delivered answer) :
    run (firmware.serve outcomes) ⟨device, calls⟩ (field.get client) =
      (.ok (field.read (device client.msr4Channel)), ⟨device, calls + 1⟩) := by
  have udp {α : Type} (part : UdpSetting → α) :=
    IqClient.run_readUdpSetting firmware outcomes device calls client part
  have channel {α : Type} (part : ChannelSetting → α) :=
    IqClient.run_readChannelSetting firmware outcomes device calls client part
  simp only [delivered, Reply.read] at udp channel
  cases field with
  | port => exact udp _
  | destinationAddress => exact udp _
  | protocol => exact udp _
  | streamingStatus => exact udp _
  | satFrequencyHz => exact channel _
  | downFrequencyHz => exact channel _

end Field

namespace ReadModifyWrite

def message : ReadModifyWrite → Message
  | .udp _ => .udpSetting
  | .rf _ => .rfSetting

/-- What the setter sends after it has read the channel's state as `snapshot`. -/
def setting (snapshot : ChannelState) : ReadModifyWrite → Setting
  | .udp edit => .setUDPSetting (edit.edit snapshot.udp)
  | .rf edit => .setRFSetting (edit.edit snapshot.channel.rf)

/-- The value that a setter gives to a field; the protocol refused sets none. -/
def sets : ReadModifyWrite → (field : Field) → Option field.Value
  | .udp (.port value), .port => some value
  | .udp (.destinationAddress value), .destinationAddress => some value
  | .udp (.protocol .HRZR), .protocol => some .HRZR
  | .udp (.streamingStatus value), .streamingStatus => some value
  | .rf (.satFrequencyHz value), .satFrequencyHz => some value
  | .rf (.downFrequencyHz value), .downFrequencyHz => some value
  | _, _ => none

variable (firmware : Firmware) (state snapshot : ChannelState) {setter : ReadModifyWrite}
  (field : Field)

theorem written_delivered (setter : ReadModifyWrite) (answer : ErrorMessage) :
    setter.written firmware state (.delivered answer) =
      firmware.apply state (setter.setting state) := by
  cases setter <;> rfl

theorem sets_ammos : (ReadModifyWrite.udp (.protocol .AMMOS)).sets field = none := by
  cases field <;> rfl

theorem message_of_sets {value : field.Value} (assigned : setter.sets field = some value) :
    setter.message = field.message := by
  cases setter with
  | rf edit => cases edit <;> cases field <;> first | rfl | contradiction
  | udp edit =>
    cases edit with
    | port value => cases field <;> first | rfl | contradiction
    | destinationAddress value => cases field <;> first | rfl | contradiction
    | streamingStatus value => cases field <;> first | rfl | contradiction
    | protocol value => cases value <;> cases field <;> first | rfl | contradiction

/-- A write brings the fields of its message as they were read, but for the one it sets;
the other message keeps its own. -/
theorem read_apply (implemented : setter ≠ .udp (.protocol .AMMOS)) :
    field.read (firmware.apply state (setter.setting snapshot)) =
      if setter.message = field.message then (setter.sets field).getD (field.read snapshot)
      else field.read state := by
  cases setter with
  | rf edit => cases edit <;> cases field <;> rfl
  | udp edit =>
    cases edit with
    | port value => cases field <;> rfl
    | destinationAddress value => cases field <;> rfl
    | streamingStatus value => cases field <;> rfl
    | protocol value =>
      cases value with
      | AMMOS => exact absurd rfl implemented
      | HRZR => cases field <;> rfl

theorem sfpInterface_apply (setter : ReadModifyWrite) :
    (firmware.apply state (setter.setting state)).udp.sfpInterface = state.udp.sfpInterface := by
  cases setter with
  | rf edit => rfl
  | udp edit =>
    have kept := firmware.sfpInterface_self state.udp.sfpInterface
    cases edit <;> exact kept

end ReadModifyWrite
end JerryDriver
