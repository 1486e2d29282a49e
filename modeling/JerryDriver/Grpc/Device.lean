import JerryDriver.Common
import Mathlib.Logic.Function.Basic

/-! The messages of the MSR4 services and the device behind them. Messages carry proto3
defaults, an unset message field reads as its default. What a delivered setter answers
is up to the device; it applies the request exactly when it answers error code 0. A
remote call that is not delivered ends with a status other than OK. -/
namespace JerryDriver

inductive Protocols where
  | AMMOS
  | HRZR
  deriving DecidableEq

inductive NetworkStreamingInterface where
  | SFP3
  | SFP4
  | SFP5
  | SFP6
  deriving DecidableEq

inductive ERRORMSG where
  | NONE
  | TimeOut
  | SettingGPUAddressFailed
  | SettingClockSourceFailed
  | SettingChannelSettingsFailed
  | AutoLevelFailed
  | SettingStreamingNetworkSettingsFailed
  | SettingUDPSettingFailed
  | SatmonResetFailed
  | SatmonStartFailed
  | RebootFailed
  deriving DecidableEq

structure ErrorMessage where
  errorCode : UInt32
  errorType : ERRORMSG
  errorMessage : String
  deriving DecidableEq

structure StreamBase where
  isStreaming : Bool
  deriving DecidableEq

structure UdpSetting where
  port : Int
  destinationAddress : String
  protocol : Protocols
  sfpInterface : NetworkStreamingInterface
  base : Option StreamBase
  deriving DecidableEq

structure RFSetting where
  satFrequencyHz : ℚ
  downFrequencyHz : ℚ
  deriving DecidableEq

structure SampleRateSetting where
  sampleRateHz : ℚ

structure AnalysisBandwidthSetting where
  analysisBandwidthHz : ℚ

structure BandwidthSetting where
  sampleRateHz : ℚ
  analysisBandwidthHz : ℚ
  deriving DecidableEq

structure ChannelSetting where
  rfSetting : Option RFSetting
  bandwidthSetting : Option BandwidthSetting
  deriving DecidableEq

structure Credentials where
  name : String
  password : String

structure JsonWebToken where
  token : String

instance : Inhabited ErrorMessage := ⟨⟨0, .NONE, ""⟩⟩
instance : Inhabited StreamBase := ⟨⟨false⟩⟩
instance : Inhabited UdpSetting := ⟨⟨0, "", .AMMOS, .SFP3, none⟩⟩
instance : Inhabited RFSetting := ⟨⟨0, 0⟩⟩
instance : Inhabited BandwidthSetting := ⟨⟨0, 0⟩⟩
instance : Inhabited ChannelSetting := ⟨⟨none, none⟩⟩

/-- `base().isstreaming()` -/
def UdpSetting.isStreaming (setting : UdpSetting) : Bool := (setting.base.getD default).isStreaming

def ChannelSetting.rf (setting : ChannelSetting) : RFSetting := setting.rfSetting.getD default

def ChannelSetting.bandwidth (setting : ChannelSetting) : BandwidthSetting :=
  setting.bandwidthSetting.getD default

inductive MSR4Channel where
  | Rx1
  | Rx2
  | Rx3
  | Rx4
  deriving DecidableEq

def MSR4Channel.port : MSR4Channel → Nat
  | .Rx1 => 50055
  | .Rx2 => 50056
  | .Rx3 => 50057
  | .Rx4 => 50058

structure Stub where
  ip : String
  msr4Channel : MSR4Channel
  token : JsonWebToken

inductive Setting where
  | setRFSetting (setting : RFSetting)
  | setBandwidthSettingBySampleRate (setting : SampleRateSetting)
  | setBandwidthSettingByAnalysisBandwidth (setting : AnalysisBandwidthSetting)
  | setUDPSetting (setting : UdpSetting)

inductive Request where
  | login (address : String) (creds : Credentials)
  | getChannelSetting (stub : Stub)
  | getUDPSetting (stub : Stub)
  | set (stub : Stub) (setting : Setting)

abbrev Request.Message : Request → Type
  | .login _ _ => JsonWebToken
  | .getChannelSetting _ => ChannelSetting
  | .getUDPSetting _ => UdpSetting
  | .set _ _ => ErrorMessage

structure Status where
  errorCode : Nat
  errorMessage : String

def Status.ok (status : Status) : Prop := status.errorCode = 0

instance (status : Status) : Decidable status.ok := inferInstanceAs (Decidable (_ = _))

structure Failure where
  status : Status
  notOk : ¬ status.ok

inductive Reply (α : Type) where
  | delivered (message : α)
  | failed (failure : Failure)

def Reply.status {α : Type} : Reply α → Status
  | .delivered _ => ⟨0, ""⟩
  | .failed failure => failure.status

/-- The response object after the call: still the default it was created with, unless
a message was delivered into it. -/
def Reply.message {α : Type} [Inhabited α] : Reply α → α
  | .delivered message => message
  | .failed _ => default

structure ChannelState where
  udp : UdpSetting
  channel : ChannelSetting

abbrev Device := MSR4Channel → ChannelState

/-- What only the device knows: the token it issues, which interface a channel has after
one is requested (changing it has no effect at the moment, but that is the device's
choice), and the bandwidth quantity that goes with the one requested. -/
structure Firmware where
  issue : Credentials → JsonWebToken
  sfpInterface : (current requested : NetworkStreamingInterface) → NetworkStreamingInterface
  sfpInterface_self : ∀ current, sfpInterface current current = current
  analysisBandwidthHzOf : (sampleRateHz : ℚ) → ℚ
  sampleRateHzOf : (analysisBandwidthHz : ℚ) → ℚ

namespace Firmware

def applyUdp (firmware : Firmware) (current requested : UdpSetting) : UdpSetting :=
  { requested with
    sfpInterface := firmware.sfpInterface current.sfpInterface requested.sfpInterface }

def apply (firmware : Firmware) (state : ChannelState) : Setting → ChannelState
  | .setRFSetting setting =>
    { state with channel := { state.channel with rfSetting := some setting } }
  | .setBandwidthSettingBySampleRate ⟨sampleRateHz⟩ =>
    let bandwidth := ⟨sampleRateHz, firmware.analysisBandwidthHzOf sampleRateHz⟩
    { state with channel := { state.channel with bandwidthSetting := some bandwidth } }
  | .setBandwidthSettingByAnalysisBandwidth ⟨analysisBandwidthHz⟩ =>
    let bandwidth := ⟨firmware.sampleRateHzOf analysisBandwidthHz, analysisBandwidthHz⟩
    { state with channel := { state.channel with bandwidthSetting := some bandwidth } }
  | .setUDPSetting setting => { state with udp := firmware.applyUdp state.udp setting }

/-- The message of a delivered call; setters answer what the device chooses. -/
def message (firmware : Firmware) (device : Device) (answer : ErrorMessage) :
    (request : Request) → request.Message
  | .login _ creds => firmware.issue creds
  | .getChannelSetting stub => (device stub.msr4Channel).channel
  | .getUDPSetting stub => (device stub.msr4Channel).udp
  | .set _ _ => answer

def effect (firmware : Firmware) (device : Device) (answer : ErrorMessage) : Request → Device
  | .set stub setting =>
    if answer.errorCode = 0 then
      Function.update device stub.msr4Channel (firmware.apply (device stub.msr4Channel) setting)
    else device
  | .login _ _ | .getChannelSetting _ | .getUDPSetting _ => device

end Firmware

/-- The device with the number of calls made so far. -/
structure World where
  device : Device
  calls : Nat

/-- The `i`-th call is delivered, with the answer a setter gets, or it fails. -/
abbrev Outcomes := Nat → Reply ErrorMessage

def Firmware.serve (firmware : Firmware) (outcomes : Outcomes) (world : World)
    (request : Request) : Reply request.Message × World :=
  match outcomes world.calls with
  | .failed failure => (.failed failure, ⟨world.device, world.calls + 1⟩)
  | .delivered answer =>
    (.delivered (firmware.message world.device answer request),
      ⟨firmware.effect world.device answer request, world.calls + 1⟩)

/-- A device that stores what it is sent and couples both bandwidths one to one. -/
def storingFirmware : Firmware where
  issue := fun _ => ⟨"token"⟩
  sfpInterface := fun _ requested => requested
  sfpInterface_self := fun _ => rfl
  analysisBandwidthHzOf := id
  sampleRateHzOf := id

def streamingDevice : Device := fun _ =>
  ⟨⟨5001, "127.0.0.1", .HRZR, .SFP3, some ⟨true⟩⟩, ⟨some ⟨1500000000, 0⟩, none⟩⟩

def unavailable : Failure := ⟨⟨14, "failed to connect"⟩, by decide⟩

end JerryDriver
