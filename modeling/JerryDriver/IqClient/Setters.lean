import JerryDriver.Grpc.Client

/-! The setters and getters of `IqClient`. Most setters read a whole message, edit one
field and write the message back; the two for the bandwidth only write. -/
namespace JerryDriver
open Interaction

structure IqClient where
  msr4Channel : MSR4Channel
  grpcClient : GrpcClient

namespace IqClient

def create : IqClient := ⟨.Rx1, .create⟩

def setMSR4Credentials (client : IqClient) (name password : String) : IqClient :=
  { client with grpcClient := client.grpcClient.setCredentials name password }

def setMSR4Ip (client : IqClient) (ip : String) : IqClient :=
  { client with grpcClient := client.grpcClient.setIp ip }

def setRxChannel (client : IqClient) (rx : MSR4Channel) : IqClient :=
  { client with msr4Channel := rx }

def msr4Login (client : IqClient) : Calls (Status × IqClient) := do
  let (status, grpcClient) ← client.grpcClient.msr4Login
  return (status, { client with grpcClient })

/-- The setters of the UDP setting differ in the field they edit. -/
def modifyUdpSetting (client : IqClient) (edit : UdpSetting → UdpSetting) :
    Calls ErrorMessage := do
  let mySetting ← client.grpcClient.getUDPSetting client.msr4Channel
  client.grpcClient.setUDPSetting client.msr4Channel (edit mySetting)

def setPort (client : IqClient) (port : Int) : Calls ErrorMessage :=
  client.modifyUdpSetting fun mySetting => { mySetting with port }

def setDestinationAddress (client : IqClient) (destinationAddress : String) :
    Calls ErrorMessage :=
  client.modifyUdpSetting fun mySetting => { mySetting with destinationAddress }

def setProtocol (client : IqClient) (myProtocol : Protocols) : Calls ErrorMessage :=
  if myProtocol = .AMMOS then
    .throws (.notImplementedException "AMMOS Protocol not yet implemented.")
  else client.modifyUdpSetting fun mySetting => { mySetting with protocol := myProtocol }

def setStreamingStatus (client : IqClient) (status : Bool) : Calls ErrorMessage :=
  client.modifyUdpSetting fun mySetting => { mySetting with base := some ⟨status⟩ }

/-- The setters of the RF setting differ in the frequency they replace. -/
def modifyRfSetting (client : IqClient) (edit : RFSetting → RFSetting) :
    Calls ErrorMessage := do
  let mySetting ← client.grpcClient.getChannelSettings client.msr4Channel
  client.grpcClient.setRfSetting client.msr4Channel (edit mySetting.rf)

def setSatFrequencyHz (client : IqClient) (satFrequencyHz : ℚ) : Calls ErrorMessage :=
  client.modifyRfSetting fun rf => { satFrequencyHz, downFrequencyHz := rf.downFrequencyHz }

def setDownFrequencyHz (client : IqClient) (downFrequencyHz : ℚ) : Calls ErrorMessage :=
  client.modifyRfSetting fun rf => { satFrequencyHz := rf.satFrequencyHz, downFrequencyHz }

def setBandwidthBySampleRate (client : IqClient) (sampleRateHz : ℚ) : Calls ErrorMessage :=
  client.grpcClient.setBandwidthSettingBySampleRate client.msr4Channel ⟨sampleRateHz⟩

def setBandwidthByAnalysisBandwidth (client : IqClient) (analysisBandwidthHz : ℚ) :
    Calls ErrorMessage :=
  client.grpcClient.setBandwidthSettingByAnalysisBandwidth client.msr4Channel
    ⟨analysisBandwidthHz⟩

/-- The getters differ in the message they read and the field they return. -/
def readUdpSetting {α : Type} (client : IqClient) (field : UdpSetting → α) : Calls α := do
  let mySetting ← client.grpcClient.getUDPSetting client.msr4Channel
  return field mySetting

def readChannelSetting {α : Type} (client : IqClient) (field : ChannelSetting → α) :
    Calls α := do
  let mySetting ← client.grpcClient.getChannelSettings client.msr4Channel
  return field mySetting

def getPort (client : IqClient) : Calls Int := client.readUdpSetting (·.port)

def getDestinationAddress (client : IqClient) : Calls String :=
  client.readUdpSetting (·.destinationAddress)

def getProtocol (client : IqClient) : Calls Protocols := client.readUdpSetting (·.protocol)

def getStreamingStatus (client : IqClient) : Calls Bool := do
  let mySetting ← client.grpcClient.getUDPSetting client.msr4Channel
  return mySetting.isStreaming

def getSatFrequencyHz (client : IqClient) : Calls ℚ :=
  client.readChannelSetting (·.rf.satFrequencyHz)

def getDownFrequencyHz (client : IqClient) : Calls ℚ :=
  client.readChannelSetting (·.rf.downFrequencyHz)

def getSampleRate (client : IqClient) : Calls ℚ :=
  client.readChannelSetting (·.bandwidth.sampleRateHz)

def getAnalysisBandwidth (client : IqClient) : Calls ℚ :=
  client.readChannelSetting (·.bandwidth.analysisBandwidthHz)

end IqClient

namespace IqClient
open Program

variable (firmware : Firmware) (outcomes : Outcomes) (device : Device) (calls : Nat)
  (client : IqClient)

/-- The device after a call on the selected channel, when the channel's state would
become `written`. -/
def after (reply : Reply ErrorMessage) (written : ChannelState) : Device :=
  if reply.Applied then Function.update device client.msr4Channel written else device

theorem run_modifyUdpSetting (edit : UdpSetting → UdpSetting) :
    run (firmware.serve outcomes) ⟨device, calls⟩ (client.modifyUdpSetting edit) =
      (.ok (outcomes (calls + 1)).message, ⟨after device client (outcomes (calls + 1))
        (firmware.apply (device client.msr4Channel) (.setUDPSetting
          (edit ((outcomes calls).read (device client.msr4Channel).udp)))), calls + 2⟩) := by
  rw [modifyUdpSetting, run_bind, GrpcClient.run_getUDPSetting]
  exact GrpcClient.run_callSetter ..

theorem run_modifyRfSetting (edit : RFSetting → RFSetting) :
    run (firmware.serve outcomes) ⟨device, calls⟩ (client.modifyRfSetting edit) =
      (.ok (outcomes (calls + 1)).message, ⟨after device client (outcomes (calls + 1))
        (firmware.apply (device client.msr4Channel) (.setRFSetting
          (edit ((outcomes calls).read (device client.msr4Channel).channel).rf))),
        calls + 2⟩) := by
  rw [modifyRfSetting, run_bind, GrpcClient.run_getChannelSettings]
  exact GrpcClient.run_callSetter ..

theorem run_readUdpSetting {α : Type} (field : UdpSetting → α) :
    run (firmware.serve outcomes) ⟨device, calls⟩ (client.readUdpSetting field) =
      (.ok (field ((outcomes calls).read (device client.msr4Channel).udp)),
        ⟨device, calls + 1⟩) := by
  rw [readUdpSetting, run_bind, GrpcClient.run_getUDPSetting]
  rfl

theorem run_readChannelSetting {α : Type} (field : ChannelSetting → α) :
    run (firmware.serve outcomes) ⟨device, calls⟩ (client.readChannelSetting field) =
      (.ok (field ((outcomes calls).read (device client.msr4Channel).channel)),
        ⟨device, calls + 1⟩) := by
  rw [readChannelSetting, run_bind, GrpcClient.run_getChannelSettings]
  rfl

variable {client} {other : MSR4Channel}

theorem modifyUdpSetting_spares (elsewhere : client.msr4Channel ≠ other)
    (edit : UdpSetting → UdpSetting) :
    (client.modifyUdpSetting edit).Requests (Request.Spares other) :=
  requests_bind (GrpcClient.getUDPSetting_spares ..)
    fun _ => GrpcClient.callSetter_spares _ _ _ elsewhere

theorem modifyRfSetting_spares (elsewhere : client.msr4Channel ≠ other)
    (edit : RFSetting → RFSetting) :
    (client.modifyRfSetting edit).Requests (Request.Spares other) :=
  requests_bind (GrpcClient.getChannelSettings_spares ..)
    fun _ => GrpcClient.callSetter_spares _ _ _ elsewhere

end IqClient

end JerryDriver
