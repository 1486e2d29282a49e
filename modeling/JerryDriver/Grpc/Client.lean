import JerryDriver.Grpc.Device
import JerryDriver.Library.Interaction

/-! The gRPC client. Every call but the login drops its status and hands on the response
object, so a call that failed looks like one that delivered default values. -/
namespace JerryDriver
open Interaction

structure GrpcClient where
  creds : Credentials
  ip : String
  token : JsonWebToken

/-- Programs of the driver: calls to the device's services, and exceptions. -/
abbrev Calls (α : Type) := Program Request (fun request => Reply request.Message) Thrown α

namespace GrpcClient

def create : GrpcClient := ⟨⟨"", ""⟩, "", ⟨""⟩⟩

def setCredentials (client : GrpcClient) (name password : String) : GrpcClient :=
  { client with creds := ⟨name, password⟩ }

def setIp (client : GrpcClient) (ip : String) : GrpcClient := { client with ip }

def generateStub (client : GrpcClient) (msr4Channel : MSR4Channel) : Stub :=
  ⟨client.ip, msr4Channel, client.token⟩

/-- The token is the member that the response goes to; a failed login leaves it alone. -/
def msr4Login (client : GrpcClient) : Calls (Status × GrpcClient) := do
  let reply ← Program.request (.login (client.ip ++ ":50060") client.creds)
  match reply with
  | .delivered token => return (reply.status, { client with token })
  | .failed _ => return (reply.status, client)

def getChannelSettings (client : GrpcClient) (msr4Channel : MSR4Channel) :
    Calls ChannelSetting := do
  let reply ← Program.request (.getChannelSetting (client.generateStub msr4Channel))
  return reply.message

def getUDPSetting (client : GrpcClient) (msr4Channel : MSR4Channel) : Calls UdpSetting := do
  let reply ← Program.request (.getUDPSetting (client.generateStub msr4Channel))
  return reply.message

/-- The setters differ in the service they call and the setting they send. -/
def callSetter (client : GrpcClient) (msr4Channel : MSR4Channel) (setting : Setting) :
    Calls ErrorMessage := do
  let reply ← Program.request (.set (client.generateStub msr4Channel) setting)
  return reply.message

def setRfSetting (client : GrpcClient) (msr4Channel : MSR4Channel) (rfSetting : RFSetting) :
    Calls ErrorMessage := client.callSetter msr4Channel (.setRFSetting rfSetting)

def setBandwidthSettingBySampleRate (client : GrpcClient) (msr4Channel : MSR4Channel)
    (sampleRateSetting : SampleRateSetting) : Calls ErrorMessage :=
  client.callSetter msr4Channel (.setBandwidthSettingBySampleRate sampleRateSetting)

def setBandwidthSettingByAnalysisBandwidth (client : GrpcClient) (msr4Channel : MSR4Channel)
    (analysisBandwidthSetting : AnalysisBandwidthSetting) : Calls ErrorMessage :=
  client.callSetter msr4Channel
    (.setBandwidthSettingByAnalysisBandwidth analysisBandwidthSetting)

def setUDPSetting (client : GrpcClient) (msr4Channel : MSR4Channel) (udpSetting : UdpSetting) :
    Calls ErrorMessage := client.callSetter msr4Channel (.setUDPSetting udpSetting)

end GrpcClient

def Request.Spares (other : MSR4Channel) : Request → Prop
  | .set stub _ => stub.msr4Channel ≠ other
  | .login _ _ | .getChannelSetting _ | .getUDPSetting _ => True

theorem Firmware.serve_spared (firmware : Firmware) (outcomes : Outcomes) (world : World)
    {request : Request} {other : MSR4Channel} (spares : request.Spares other) :
    (firmware.serve outcomes world request).2.device other = world.device other := by
  unfold Firmware.serve
  cases outcomes world.calls with
  | failed failure => rfl
  | delivered answer =>
    cases request with
    | login address creds => rfl
    | getChannelSetting stub => rfl
    | getUDPSetting stub => rfl
    | set stub setting =>
      simp only [Firmware.effect]
      split
      · exact Function.update_of_ne (Ne.symm spares) _ _
      · rfl

/-- A program whose requests all spare a channel leaves it as it was, however its calls
end and even if it throws. -/
theorem run_spared (firmware : Firmware) (outcomes : Outcomes) (world : World) {α : Type}
    {program : Calls α} {other : MSR4Channel} (spares : program.Requests (Request.Spares other)) :
    (Program.run (firmware.serve outcomes) world program).2.device other = world.device other := by
  let Kept (before after : World) : Prop := after.device other = before.device other
  have trans {a b c : World} (first : Kept a b) (second : Kept b c) : Kept a c :=
    second.trans first
  have respects (world : World) (request : Request) (spares : request.Spares other) :
      Kept world (firmware.serve outcomes world request).2 :=
    firmware.serve_spared outcomes world spares
  exact Program.run_relation (R := Kept) (fun _ => rfl) trans respects spares

def Reply.Applied : Reply ErrorMessage → Prop
  | .delivered answer => answer.errorCode = 0
  | .failed _ => False

instance (reply : Reply ErrorMessage) : Decidable reply.Applied :=
  match reply with
  | .delivered answer => inferInstanceAs (Decidable (answer.errorCode = 0))
  | .failed _ => .isFalse id

/-- What a getter's response object holds: the device's message, or the default one. -/
def Reply.read {α : Type} [Inhabited α] (reply : Reply ErrorMessage) (stored : α) : α :=
  match reply with
  | .delivered _ => stored
  | .failed _ => default

namespace GrpcClient
open Program

variable (firmware : Firmware) (outcomes : Outcomes) (device : Device) (calls : Nat)
  (client : GrpcClient) (msr4Channel : MSR4Channel)

theorem run_getUDPSetting :
    run (firmware.serve outcomes) ⟨device, calls⟩ (client.getUDPSetting msr4Channel) =
      (.ok ((outcomes calls).read (device msr4Channel).udp), ⟨device, calls + 1⟩) := by
  rw [getUDPSetting, run_bind, run_request]
  simp only [Firmware.serve, run_pure]
  cases outcomes calls <;> rfl

theorem run_getChannelSettings :
    run (firmware.serve outcomes) ⟨device, calls⟩ (client.getChannelSettings msr4Channel) =
      (.ok ((outcomes calls).read (device msr4Channel).channel), ⟨device, calls + 1⟩) := by
  rw [getChannelSettings, run_bind, run_request]
  simp only [Firmware.serve, run_pure]
  cases outcomes calls <;> rfl

theorem getUDPSetting_spares (other : MSR4Channel) :
    (client.getUDPSetting msr4Channel).Requests (Request.Spares other) :=
  requests_bind (requests_request trivial) fun _ => trivial

theorem getChannelSettings_spares (other : MSR4Channel) :
    (client.getChannelSettings msr4Channel).Requests (Request.Spares other) :=
  requests_bind (requests_request trivial) fun _ => trivial

theorem callSetter_spares (setting : Setting) {other : MSR4Channel}
    (elsewhere : msr4Channel ≠ other) :
    (client.callSetter msr4Channel setting).Requests (Request.Spares other) :=
  requests_bind (requests_request elsewhere) fun _ => trivial

theorem run_callSetter (setting : Setting) :
    run (firmware.serve outcomes) ⟨device, calls⟩ (client.callSetter msr4Channel setting) =
      (.ok (outcomes calls).message,
        ⟨if (outcomes calls).Applied then
          Function.update device msr4Channel (firmware.apply (device msr4Channel) setting)
        else device, calls + 1⟩) := by
  rw [callSetter, run_bind, run_request]
  simp only [Firmware.serve, run_pure]
  cases outcomes calls <;> rfl

end GrpcClient
end JerryDriver
