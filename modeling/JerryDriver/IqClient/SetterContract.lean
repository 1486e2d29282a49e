import JerryDriver.IqClient.Setters

/-! What a caller can rely on after a setter returned. The client drops every status, so
a write that failed reads as success, and a read that failed reads as default values,
which the write then sends to the device. -/
namespace JerryDriver
open Interaction Program

inductive UdpEdit where
  | port (value : Int)
  | destinationAddress (value : String)
  | protocol (value : Protocols)
  | streamingStatus (value : Bool)

inductive RfEdit where
  | satFrequencyHz (value : ℚ)
  | downFrequencyHz (value : ℚ)

/-- The setters that write back a message they have read. -/
inductive ReadModifyWrite where
  | udp (edit : UdpEdit)
  | rf (edit : RfEdit)

inductive Setter where
  | modify (setter : ReadModifyWrite)
  | bandwidthBySampleRate (value : ℚ)
  | bandwidthByAnalysisBandwidth (value : ℚ)

namespace UdpEdit

def call (client : IqClient) : UdpEdit → Calls ErrorMessage
  | .port value => client.setPort value
  | .destinationAddress value => client.setDestinationAddress value
  | .protocol value => client.setProtocol value
  | .streamingStatus value => client.setStreamingStatus value

def edit (setting : UdpSetting) : UdpEdit → UdpSetting
  | .port value => { setting with port := value }
  | .destinationAddress value => { setting with destinationAddress := value }
  | .protocol value => { setting with protocol := value }
  | .streamingStatus value => { setting with base := some ⟨value⟩ }

def Holds (setting : UdpSetting) : UdpEdit → Prop
  | .port value => setting.port = value
  | .destinationAddress value => setting.destinationAddress = value
  | .protocol value => setting.protocol = value
  | .streamingStatus value => setting.isStreaming = value

/-- Two settings agree in the fields that the setter does not set. -/
def SameOthers (a b : UdpSetting) : UdpEdit → Prop
  | .port _ => a.destinationAddress = b.destinationAddress ∧ a.protocol = b.protocol ∧
    a.sfpInterface = b.sfpInterface ∧ a.isStreaming = b.isStreaming
  | .destinationAddress _ => a.port = b.port ∧ a.protocol = b.protocol ∧
    a.sfpInterface = b.sfpInterface ∧ a.isStreaming = b.isStreaming
  | .protocol _ => a.port = b.port ∧ a.destinationAddress = b.destinationAddress ∧
    a.sfpInterface = b.sfpInterface ∧ a.isStreaming = b.isStreaming
  | .streamingStatus _ => a.port = b.port ∧ a.destinationAddress = b.destinationAddress ∧
    a.protocol = b.protocol ∧ a.sfpInterface = b.sfpInterface

variable (firmware : Firmware) (setting : UdpSetting) (edit : UdpEdit)

theorem call_eq (client : IqClient) {edit : UdpEdit} (implemented : edit ≠ .protocol .AMMOS) :
    edit.call client = client.modifyUdpSetting fun setting => edit.edit setting := by
  cases edit with
  | protocol value =>
    refine if_neg fun ammos => implemented ?_
    rw [ammos]
  | port value => rfl
  | destinationAddress value => rfl
  | streamingStatus value => rfl

theorem holds_written (read : UdpSetting) :
    edit.Holds (firmware.applyUdp setting (edit.edit read)) := by
  cases edit <;> rfl

theorem sameOthers_refl : edit.SameOthers setting setting := by
  cases edit <;> exact ⟨rfl, rfl, rfl, rfl⟩

/-- Writing back what was read disturbs nothing else. -/
theorem sameOthers_written :
    edit.SameOthers setting (firmware.applyUdp setting (edit.edit setting)) := by
  have kept := firmware.sfpInterface_self setting.sfpInterface
  cases edit with
  | port value => exact ⟨rfl, rfl, kept.symm, rfl⟩
  | destinationAddress value => exact ⟨rfl, rfl, kept.symm, rfl⟩
  | protocol value => exact ⟨rfl, rfl, kept.symm, rfl⟩
  | streamingStatus value => exact ⟨rfl, rfl, rfl, kept.symm⟩

theorem sameOthers_edit (read : UdpSetting) :
    edit.SameOthers setting (firmware.applyUdp setting (edit.edit read)) ↔
      edit.SameOthers setting (firmware.applyUdp setting read) := by
  cases edit <;> rfl

end UdpEdit

namespace RfEdit

def call (client : IqClient) : RfEdit → Calls ErrorMessage
  | .satFrequencyHz value => client.setSatFrequencyHz value
  | .downFrequencyHz value => client.setDownFrequencyHz value

def edit (setting : RFSetting) : RfEdit → RFSetting
  | .satFrequencyHz value => { setting with satFrequencyHz := value }
  | .downFrequencyHz value => { setting with downFrequencyHz := value }

def Holds (setting : RFSetting) : RfEdit → Prop
  | .satFrequencyHz value => setting.satFrequencyHz = value
  | .downFrequencyHz value => setting.downFrequencyHz = value

def SameOthers (a b : RFSetting) : RfEdit → Prop
  | .satFrequencyHz _ => a.downFrequencyHz = b.downFrequencyHz
  | .downFrequencyHz _ => a.satFrequencyHz = b.satFrequencyHz

variable (setting : RFSetting) (edit : RfEdit)

theorem call_eq (client : IqClient) :
    edit.call client = client.modifyRfSetting fun setting => edit.edit setting := by
  cases edit <;> rfl

theorem holds_edit : edit.Holds (edit.edit setting) := by
  cases edit <;> rfl

theorem sameOthers_edit (read : RFSetting) :
    edit.SameOthers setting (edit.edit read) ↔ edit.SameOthers setting read := by
  cases edit <;> rfl

theorem sameOthers_refl : edit.SameOthers setting setting := by
  cases edit <;> rfl

end RfEdit

namespace ReadModifyWrite

def call (client : IqClient) : ReadModifyWrite → Calls ErrorMessage
  | .udp edit => edit.call client
  | .rf edit => edit.call client

def Holds (state : ChannelState) : ReadModifyWrite → Prop
  | .udp edit => edit.Holds state.udp
  | .rf edit => edit.Holds state.channel.rf

def SameOthers (a b : ChannelState) : ReadModifyWrite → Prop
  | .udp edit => edit.SameOthers a.udp b.udp
  | .rf edit => edit.SameOthers a.channel.rf b.channel.rf

def written (firmware : Firmware) (state : ChannelState) (read : Reply ErrorMessage) :
    ReadModifyWrite → ChannelState
  | .udp edit => firmware.apply state (.setUDPSetting (edit.edit (read.read state.udp)))
  | .rf edit => firmware.apply state (.setRFSetting (edit.edit (read.read state.channel).rf))

/-- In the fields that the setter does not set, a write of default values changes nothing. -/
def OthersDefault (firmware : Firmware) (state : ChannelState) : ReadModifyWrite → Prop
  | .udp edit => edit.SameOthers state.udp (firmware.applyUdp state.udp default)
  | .rf edit => edit.SameOthers state.channel.rf default

variable (firmware : Firmware) (outcomes : Outcomes) (device : Device) (calls : Nat)
  (client : IqClient) {setter : ReadModifyWrite}

theorem run_call (implemented : setter ≠ .udp (.protocol .AMMOS)) :
    run (firmware.serve outcomes) ⟨device, calls⟩ (setter.call client) =
      (.ok (outcomes (calls + 1)).message, ⟨client.after device (outcomes (calls + 1))
        (setter.written firmware (device client.msr4Channel) (outcomes calls)), calls + 2⟩) := by
  cases setter with
  | udp edit =>
    have other : edit ≠ .protocol .AMMOS := fun same => implemented (by rw [same])
    rw [call, edit.call_eq client other, IqClient.run_modifyUdpSetting]
    rfl
  | rf edit =>
    rw [call, edit.call_eq, IqClient.run_modifyRfSetting]
    rfl

theorem run_ammos : run (firmware.serve outcomes) ⟨device, calls⟩
    ((ReadModifyWrite.udp (.protocol .AMMOS)).call client) =
      (.error (.notImplementedException "AMMOS Protocol not yet implemented."),
        ⟨device, calls⟩) := rfl

theorem call_spares {client : IqClient} {other : MSR4Channel}
    (elsewhere : client.msr4Channel ≠ other) (setter : ReadModifyWrite) :
    (setter.call client).Requests (Request.Spares other) := by
  cases setter with
  | rf edit =>
    rw [call, edit.call_eq]
    exact IqClient.modifyRfSetting_spares elsewhere _
  | udp edit =>
    by_cases ammos : edit = .protocol .AMMOS
    · subst ammos
      trivial
    · rw [call, edit.call_eq client ammos]
      exact IqClient.modifyUdpSetting_spares elsewhere _

theorem holds_written (setter : ReadModifyWrite) (state : ChannelState)
    (read : Reply ErrorMessage) : setter.Holds (setter.written firmware state read) := by
  cases setter with
  | udp edit => exact edit.holds_written ..
  | rf edit => exact edit.holds_edit ..

theorem sameOthers_refl (setter : ReadModifyWrite) (state : ChannelState) :
    setter.SameOthers state state := by
  cases setter with
  | udp edit => exact edit.sameOthers_refl _
  | rf edit => exact edit.sameOthers_refl _

/-- The write keeps the other fields when the read was delivered; else it sends defaults. -/
theorem sameOthers_written_iff (setter : ReadModifyWrite) (state : ChannelState)
    (read : Reply ErrorMessage) :
    setter.SameOthers state (setter.written firmware state read) ↔
      (∃ answer, read = .delivered answer) ∨ setter.OthersDefault firmware state := by
  cases read with
  | delivered answer =>
    refine iff_of_true ?_ (.inl ⟨answer, rfl⟩)
    cases setter with
    | udp edit => exact edit.sameOthers_written firmware state.udp
    | rf edit => exact (edit.sameOthers_edit _ _).mpr (edit.sameOthers_refl _)
  | failed failure =>
    rw [or_iff_right (by rintro ⟨answer, delivered⟩; contradiction)]
    cases setter with
    | udp edit => exact edit.sameOthers_edit firmware state.udp default
    | rf edit => exact edit.sameOthers_edit state.channel.rf default

end ReadModifyWrite

/-- A read-modify-write setter leaves the channel's other fields as they were if and only
if it refuses to start, its read is delivered, its write is not applied, or the other
fields had the values that a failed read stands for. -/
theorem setter_frame_iff (firmware : Firmware) (outcomes : Outcomes) (device : Device)
    (calls : Nat) (client : IqClient) (setter : ReadModifyWrite) :
    setter.SameOthers (device client.msr4Channel)
      ((run (firmware.serve outcomes) ⟨device, calls⟩ (setter.call client)).2.device
        client.msr4Channel) ↔
    setter = .udp (.protocol .AMMOS) ∨ (∃ answer, outcomes calls = .delivered answer) ∨
      ¬ (outcomes (calls + 1)).Applied ∨
      setter.OthersDefault firmware (device client.msr4Channel) := by
  by_cases ammos : setter = .udp (.protocol .AMMOS)
  · subst ammos
    rw [ReadModifyWrite.run_ammos]
    exact iff_of_true (ReadModifyWrite.sameOthers_refl _ _) (.inl rfl)
  · rw [ReadModifyWrite.run_call firmware outcomes device calls client ammos, or_iff_right ammos]
    simp only [IqClient.after]
    split
    · rename_i applied
      rw [Function.update_self, ReadModifyWrite.sameOthers_written_iff,
        or_iff_right (not_not.mpr applied)]
    · rename_i refused
      exact iff_of_true (ReadModifyWrite.sameOthers_refl _ _) (.inr (.inl refused))

/-- The read for `setPort` is lost and its write applied: the address is gone. -/
theorem failed_read_erases :
    ¬ (ReadModifyWrite.udp (.port 5002)).SameOthers
      (streamingDevice (IqClient.create).msr4Channel)
      ((run (storingFirmware.serve fun i => if i = 0 then .failed unavailable else
          .delivered default) ⟨streamingDevice, 0⟩
        ((ReadModifyWrite.udp (.port 5002)).call .create)).2.device
          (IqClient.create).msr4Channel) := by
  rintro ⟨address, -⟩
  exact absurd address (by decide)

namespace Setter

def call (client : IqClient) : Setter → Calls ErrorMessage
  | .modify setter => setter.call client
  | .bandwidthBySampleRate value => client.setBandwidthBySampleRate value
  | .bandwidthByAnalysisBandwidth value => client.setBandwidthByAnalysisBandwidth value

def Holds (state : ChannelState) : Setter → Prop
  | .modify setter => setter.Holds state
  | .bandwidthBySampleRate value => state.channel.bandwidth.sampleRateHz = value
  | .bandwidthByAnalysisBandwidth value => state.channel.bandwidth.analysisBandwidthHz = value

def reads : Setter → Nat
  | .modify _ => 1
  | .bandwidthBySampleRate _ | .bandwidthByAnalysisBandwidth _ => 0

/-- A setter's last call decides what it returns and whether the channel gets the value. -/
theorem run_call (firmware : Firmware) (outcomes : Outcomes) (device : Device) (calls : Nat)
    (client : IqClient) {setter : Setter}
    (implemented : setter ≠ .modify (.udp (.protocol .AMMOS))) :
    ∃ written, setter.Holds written ∧
      run (firmware.serve outcomes) ⟨device, calls⟩ (setter.call client) =
        (.ok (outcomes (calls + setter.reads)).message,
          ⟨client.after device (outcomes (calls + setter.reads)) written,
            calls + setter.reads + 1⟩) := by
  cases setter with
  | modify setter =>
    have other : setter ≠ .udp (.protocol .AMMOS) := fun same => implemented (by rw [same])
    exact ⟨_, setter.holds_written firmware _ _,
      ReadModifyWrite.run_call firmware outcomes device calls client other⟩
  | bandwidthBySampleRate value =>
    exact ⟨firmware.apply (device client.msr4Channel) (.setBandwidthSettingBySampleRate ⟨value⟩),
      rfl, GrpcClient.run_callSetter ..⟩
  | bandwidthByAnalysisBandwidth value =>
    exact ⟨firmware.apply (device client.msr4Channel)
      (.setBandwidthSettingByAnalysisBandwidth ⟨value⟩), rfl, GrpcClient.run_callSetter ..⟩

/-- Whatever calls fail, the channels not selected stay as they were. -/
theorem run_call_spared (firmware : Firmware) (outcomes : Outcomes) (world : World)
    {client : IqClient} {other : MSR4Channel} (elsewhere : client.msr4Channel ≠ other)
    (setter : Setter) : (run (firmware.serve outcomes) world (setter.call client)).2.device other =
      world.device other := by
  apply run_spared
  cases setter with
  | modify setter => exact setter.call_spares elsewhere
  | bandwidthBySampleRate value => exact GrpcClient.callSetter_spares _ _ _ elsewhere
  | bandwidthByAnalysisBandwidth value => exact GrpcClient.callSetter_spares _ _ _ elsewhere

end Setter

/-- A setter that returns error code 0 has set the requested value, if and only if it
throws instead, its write is delivered, or the value was set before. -/
theorem setter_success_iff (firmware : Firmware) (outcomes : Outcomes) (device : Device)
    (calls : Nat) (client : IqClient) (setter : Setter) :
    (∀ err, (run (firmware.serve outcomes) ⟨device, calls⟩ (setter.call client)).1 = .ok err →
      err.errorCode = 0 → setter.Holds
        ((run (firmware.serve outcomes) ⟨device, calls⟩ (setter.call client)).2.device
          client.msr4Channel)) ↔
    setter = .modify (.udp (.protocol .AMMOS)) ∨
      (∃ answer, outcomes (calls + setter.reads) = .delivered answer) ∨
      setter.Holds (device client.msr4Channel) := by
  by_cases ammos : setter = .modify (.udp (.protocol .AMMOS))
  · subst ammos
    refine iff_of_true (fun err returned => ?_) (.inl rfl)
    cases returned
  · obtain ⟨written, holds, ran⟩ := Setter.run_call firmware outcomes device calls client ammos
    rw [ran, or_iff_right ammos]
    simp only [IqClient.after, Except.ok.injEq, forall_eq']
    cases outcomes (calls + setter.reads) with
    | delivered answer =>
      refine iff_of_true (fun success => ?_) (.inl ⟨answer, rfl⟩)
      have applied : (Reply.delivered answer).Applied := success
      rw [if_pos applied, Function.update_self]
      exact holds
    | failed failure =>
      have lost : ¬ (Reply.failed failure).Applied := id
      rw [or_iff_right (by rintro ⟨answer, delivered⟩; contradiction), if_neg lost]
      exact ⟨fun success => success rfl, fun before _ => before⟩

/-- With the device out of reach `setPort` returns error code 0 and sets nothing. -/
theorem lost_write_succeeds :
    ¬ ∀ err, (run (storingFirmware.serve fun _ => .failed unavailable) ⟨streamingDevice, 0⟩
        ((Setter.modify (.udp (.port 5002))).call .create)).1 = .ok err →
      err.errorCode = 0 → (Setter.modify (.udp (.port 5002))).Holds
        ((run (storingFirmware.serve fun _ => .failed unavailable) ⟨streamingDevice, 0⟩
          ((Setter.modify (.udp (.port 5002))).call .create)).2.device
            (IqClient.create).msr4Channel) := by
  intro success
  have port := success default rfl rfl
  exact absurd (show (5001 : Int) = 5002 from port) (by decide)

end JerryDriver
