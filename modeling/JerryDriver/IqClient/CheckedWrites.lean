import JerryDriver.IqClient.Json

/-! Setters called one after the other on a device that every call reaches. Each is
checked, so the first refused write ends the sequence by an exception; without one the
channel is what the writes make of it in their order. -/
namespace JerryDriver
open Interaction Program

namespace IqClient

/-- Every call is delivered; the device chooses what setters answer. -/
def delivering (answers : Nat → ErrorMessage) : Outcomes := fun i => .delivered (answers i)

section Stages

variable (firmware : Firmware) (answers : Nat → ErrorMessage) (device : Device) (calls : Nat)
  (client : IqClient)

theorem run_checked {server : World → (request : Request) → Reply request.Message × World}
    {before after : World} {setter : Calls ErrorMessage} {err : ErrorMessage}
    (ran : run server before setter = (.ok err, after)) :
    run server before (checked setter) =
      if err.errorCode = 0 then (.ok (), after)
      else (.error (.invalidValueError err.errorMessage), after) := by
  rw [checked, run_bind_ok _ ran]
  by_cases zero : err.errorCode = 0
  · rw [if_neg (not_not.mpr zero), if_pos zero, run_pure]
  · rw [if_pos zero, if_neg zero, run_throws]

theorem run_unchecked {server : World → (request : Request) → Reply request.Message × World}
    {before after : World} {setter : Calls ErrorMessage} {err : ErrorMessage}
    (ran : run server before setter = (.ok err, after)) :
    run server before (unchecked setter) = (.ok (), after) := by
  rw [unchecked, run_bind_ok _ ran, run_pure]

def answered (answer : ErrorMessage) (setting : Setting) : Device :=
  if answer.errorCode = 0 then
    Function.update device client.msr4Channel
      (firmware.apply (device client.msr4Channel) setting)
  else device

theorem run_modifyUdpSetting_delivering (edit : UdpSetting → UdpSetting) :
    run (firmware.serve (delivering answers)) ⟨device, calls⟩ (client.modifyUdpSetting edit) =
      (.ok (answers (calls + 1)), ⟨answered firmware device client (answers (calls + 1))
        (.setUDPSetting (edit (device client.msr4Channel).udp)), calls + 2⟩) :=
  run_modifyUdpSetting ..

theorem run_modifyRfSetting_delivering (edit : RFSetting → RFSetting) :
    run (firmware.serve (delivering answers)) ⟨device, calls⟩ (client.modifyRfSetting edit) =
      (.ok (answers (calls + 1)), ⟨answered firmware device client (answers (calls + 1))
        (.setRFSetting (edit (device client.msr4Channel).channel.rf)), calls + 2⟩) :=
  run_modifyRfSetting ..

/-- A message is read and written back with an edit, or it is written without reading. -/
inductive Writing where
  | udp (edit : UdpSetting → UdpSetting)
  | rf (edit : RFSetting → RFSetting)
  | direct (setting : Setting)

namespace Writing

def setter : Writing → Calls ErrorMessage
  | .udp edit => client.modifyUdpSetting edit
  | .rf edit => client.modifyRfSetting edit
  | .direct setting => client.grpcClient.callSetter client.msr4Channel setting

/-- The calls that come before the write. -/
def reads : Writing → Nat
  | .udp _ | .rf _ => 1
  | .direct _ => 0

/-- What is written to a channel in some state. -/
def setting : Writing → ChannelState → Setting
  | .udp edit, state => .setUDPSetting (edit state.udp)
  | .rf edit, state => .setRFSetting (edit state.channel.rf)
  | .direct setting, _ => setting

/-- Delivered calls change the device by the write alone. -/
theorem run_setter (writing : Writing) :
    run (firmware.serve (delivering answers)) ⟨device, calls⟩ (writing.setter client) =
      (.ok (answers (calls + writing.reads)),
        ⟨answered firmware device client (answers (calls + writing.reads))
          (writing.setting (device client.msr4Channel)), calls + writing.reads + 1⟩) := by
  cases writing with
  | udp edit => exact run_modifyUdpSetting_delivering firmware answers device calls client edit
  | rf edit => exact run_modifyRfSetting_delivering firmware answers device calls client edit
  | direct setting => exact GrpcClient.run_callSetter ..

def checkAll : List Writing → Calls Unit
  | [] => return ()
  | writing :: rest => do
    checked (writing.setter client)
    checkAll rest

/-- The calls by which the writes are requested, and the one that follows. -/
def writingCalls (calls : Nat) : List Writing → List Nat
  | [] => []
  | writing :: rest => (calls + writing.reads) :: writingCalls (calls + writing.reads + 1) rest

def nextCall (calls : Nat) (writings : List Writing) : Nat :=
  writings.foldl (fun calls writing => calls + writing.reads + 1) calls

def applyAll (state : ChannelState) (writings : List Writing) : ChannelState :=
  writings.foldl (fun state writing => firmware.apply state (writing.setting state)) state

/-- Either every write is accepted and applied, or the first one refused throws. -/
theorem run_checkAll (writings : List Writing) :
    (∃ after, run (firmware.serve (delivering answers)) ⟨device, calls⟩
        (checkAll client writings) = (.ok (), ⟨after, nextCall calls writings⟩) ∧
      (∀ k ∈ writingCalls calls writings, (answers k).errorCode = 0) ∧
      after client.msr4Channel = applyAll firmware (device client.msr4Channel) writings) ∨
    (∃ thrown after, run (firmware.serve (delivering answers)) ⟨device, calls⟩
        (checkAll client writings) = (.error thrown, after) ∧
      ∃ k ∈ writingCalls calls writings, (answers k).errorCode ≠ 0) := by
  induction writings generalizing device calls with
  | nil =>
    left
    exact ⟨device, rfl, List.forall_mem_nil _, rfl⟩
  | cons writing rest ih =>
    have ran := run_checked (writing.run_setter firmware answers device calls client)
    by_cases accepted : (answers (calls + writing.reads)).errorCode = 0
    · rw [if_pos accepted] at ran
      rw [checkAll, run_bind_ok _ ran]
      have applied : answered firmware device client (answers (calls + writing.reads))
          (writing.setting (device client.msr4Channel)) client.msr4Channel =
          firmware.apply (device client.msr4Channel)
            (writing.setting (device client.msr4Channel)) := by
        rw [answered, if_pos accepted, Function.update_self]
      rcases ih _ (calls + writing.reads + 1) with
        ⟨after, finished, others, state⟩ | ⟨thrown, after, threw, k, later, refused⟩
      · refine .inl ⟨after, finished, List.forall_mem_cons.mpr ⟨accepted, others⟩, ?_⟩
        rw [state, applied]
        rfl
      · exact .inr ⟨thrown, after, threw, k, List.mem_cons_of_mem _ later, refused⟩
    · rw [if_neg accepted] at ran
      right
      exact ⟨_, _, run_bind_error _ ran, _, List.mem_cons_self, accepted⟩

end Writing

end Stages

end IqClient
end JerryDriver
