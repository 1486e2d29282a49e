import JerryDriver.IqClient.Fields
import JerryDriver.Library.Registers

/-! What a single client makes of the device: a table of registers, one for each channel
and field. Every setter reads and writes a whole message, yet it has the effect of one
write to one register of the channel that is selected at the time. -/
namespace JerryDriver
open Interaction Program Registers

/-- A caller's view: the client, and the device with it. Whatever a setter returns or
throws, the caller goes on with its next operation. -/
structure Session where
  client : IqClient
  world : World

inductive Operation where
  | setRxChannel (rx : MSR4Channel)
  | modify (setter : ReadModifyWrite)

namespace Session

def perform (firmware : Firmware) (outcomes : Outcomes) (session : Session) :
    Operation → Session
  | .setRxChannel rx => { session with client := session.client.setRxChannel rx }
  | .modify setter =>
    { session with world :=
        (run (firmware.serve outcomes) session.world (setter.call session.client)).2 }

def performAll (firmware : Firmware) (outcomes : Outcomes) (session : Session)
    (operations : List Operation) : Session :=
  operations.foldl (perform firmware outcomes) session

end Session

/-! ## The table of registers -/

abbrev Register := MSR4Channel × Field

abbrev Register.Value (r : Register) : Type := r.2.Value

/-- The registers that a device holds. -/
def Device.registers (device : Device) (r : Register) : r.Value := r.2.read (device r.1)

/-- A setter on a channel, as a command to the registers. -/
def assigns (command : MSR4Channel × ReadModifyWrite) (r : Register) : Option r.Value :=
  if command.1 = r.1 then command.2.sets r.2 else none

def selected : MSR4Channel → List Operation → MSR4Channel
  | rx, [] => rx
  | _, .setRxChannel rx :: rest => selected rx rest
  | rx, .modify _ :: rest => selected rx rest

/-- The setters of a sequence, each with the channel selected when it is called. -/
def commands : MSR4Channel → List Operation → List (MSR4Channel × ReadModifyWrite)
  | _, [] => []
  | _, .setRxChannel rx :: rest => commands rx rest
  | rx, .modify setter :: rest => (rx, setter) :: commands rx rest

section Refinement

variable (firmware : Firmware) {outcomes : Outcomes}

/-- With every call applied a setter writes what it has read, edited. -/
theorem run_modify_device (succeeds : ∀ i, (outcomes i).Applied) (world : World)
    (client : IqClient) {setter : ReadModifyWrite}
    (implemented : setter ≠ .udp (.protocol .AMMOS)) :
    (run (firmware.serve outcomes) world (setter.call client)).2.device =
      Function.update world.device client.msr4Channel
        (firmware.apply (world.device client.msr4Channel)
          (setter.setting (world.device client.msr4Channel))) := by
  obtain ⟨device, calls⟩ := world
  have applied := succeeds (calls + 1)
  have read := succeeds calls
  rw [ReadModifyWrite.run_call firmware outcomes device calls client implemented,
    IqClient.after, if_pos applied]
  cases reply : outcomes calls with
  | delivered answer => rw [ReadModifyWrite.written_delivered]
  | failed failure =>
    rw [reply] at read
    exact read.elim

theorem run_ammos_device (world : World) (client : IqClient) :
    (run (firmware.serve outcomes) world
      ((ReadModifyWrite.udp (.protocol .AMMOS)).call client)).2.device = world.device := rfl

/-- A write of what the channel holds, edited, is one command to the registers. -/
theorem registers_update (device : Device) (rx : MSR4Channel) {setter : ReadModifyWrite}
    (implemented : setter ≠ .udp (.protocol .AMMOS)) :
    Device.registers (Function.update device rx (firmware.apply (device rx)
      (setter.setting (device rx)))) = store assigns device.registers (rx, setter) := by
  funext ⟨other, field⟩
  simp only [Device.registers, store, assigns]
  by_cases here : rx = other
  · subst here
    rw [if_pos rfl, Function.update_self, ReadModifyWrite.read_apply firmware _ _ field implemented]
    split
    · rfl
    · rename_i apart
      cases assigned : setter.sets field with
      | none => rfl
      | some value => exact absurd (ReadModifyWrite.message_of_sets field assigned) apart
  · rw [if_neg here, Function.update_of_ne (Ne.symm here)]
    rfl

theorem run_modify_registers (succeeds : ∀ i, (outcomes i).Applied) (world : World)
    (client : IqClient) (setter : ReadModifyWrite) :
    (run (firmware.serve outcomes) world (setter.call client)).2.device.registers =
      store assigns world.device.registers (client.msr4Channel, setter) := by
  by_cases implemented : setter = .udp (.protocol .AMMOS)
  · subst implemented
    rw [run_ammos_device]
    funext r
    rw [store, assigns, ReadModifyWrite.sets_ammos, ite_self]
    rfl
  · rw [run_modify_device firmware succeeds world client implemented,
      registers_update firmware _ _ implemented]

theorem run_modify_sfpInterface (succeeds : ∀ i, (outcomes i).Applied) (world : World)
    (client : IqClient) (setter : ReadModifyWrite) (rx : MSR4Channel) :
    ((run (firmware.serve outcomes) world (setter.call client)).2.device rx).udp.sfpInterface =
      (world.device rx).udp.sfpInterface := by
  by_cases implemented : setter = .udp (.protocol .AMMOS)
  · subst implemented
    rw [run_ammos_device]
  · rw [run_modify_device firmware succeeds world client implemented]
    by_cases here : rx = client.msr4Channel
    · subst here
      rw [Function.update_self, ReadModifyWrite.sfpInterface_apply]
    · rw [Function.update_of_ne here]

namespace Session

theorem performAll_client (session : Session) (operations : List Operation) :
    (performAll firmware outcomes session operations).client =
      session.client.setRxChannel (selected session.client.msr4Channel operations) := by
  induction operations generalizing session with
  | nil => rfl
  | cons operation rest ih =>
    rw [performAll, List.foldl_cons, ← performAll, ih]
    cases operation <;> rfl

/-- The simulation, over whole sequences: the device's registers are those that the
commands leave in the table. -/
theorem performAll_registers (succeeds : ∀ i, (outcomes i).Applied) (session : Session)
    (operations : List Operation) :
    (performAll firmware outcomes session operations).world.device.registers =
      (commands session.client.msr4Channel operations).foldl (store assigns)
        session.world.device.registers := by
  induction operations generalizing session with
  | nil => rfl
  | cons operation rest ih =>
    rw [performAll, List.foldl_cons, ← performAll, ih]
    cases operation with
    | setRxChannel rx => rfl
    | modify setter =>
      simp only [perform, commands, List.foldl_cons]
      rw [run_modify_registers firmware succeeds]

theorem performAll_sfpInterface (succeeds : ∀ i, (outcomes i).Applied) (session : Session)
    (operations : List Operation) (rx : MSR4Channel) :
    ((performAll firmware outcomes session operations).world.device rx).udp.sfpInterface =
      (session.world.device rx).udp.sfpInterface := by
  induction operations generalizing session with
  | nil => rfl
  | cons operation rest ih =>
    rw [performAll, List.foldl_cons, ← performAll, ih]
    cases operation with
    | setRxChannel rx => rfl
    | modify setter => exact run_modify_sfpInterface firmware succeeds _ _ _ _

end Session
end Refinement

/-- After any sequence of operations, every field of every channel holds the last value
set for it while the channel was selected, or the one it had; the interface is kept; and
the getters return the values of the channel selected last. -/
theorem registers_refined (firmware : Firmware) (outcomes : Outcomes)
    (succeeds : ∀ i, (outcomes i).Applied) (client : IqClient) (world : World)
    (operations : List Operation) :
    let session := Session.performAll firmware outcomes ⟨client, world⟩ operations
    let rx := selected client.msr4Channel operations
    let value (r : Register) : r.Value :=
      (lastSet assigns r (commands client.msr4Channel operations)).getD (world.device.registers r)
    (∀ r : Register, session.world.device.registers r = value r) ∧
    (∀ other, (session.world.device other).udp.sfpInterface =
      (world.device other).udp.sfpInterface) ∧
    ∀ field : Field, run (firmware.serve outcomes) session.world (field.get session.client) =
      (.ok (value (rx, field)), { session.world with calls := session.world.calls + 1 }) := by
  intro session rx value
  have held (r : Register) : session.world.device.registers r = value r := by
    rw [Session.performAll_registers firmware succeeds, foldl_store]
  refine ⟨held, Session.performAll_sfpInterface firmware succeeds _ _, fun field => ?_⟩
  have here : session.client.msr4Channel = rx := by
    rw [Session.performAll_client]
    rfl
  have read := succeeds session.world.calls
  cases reply : outcomes session.world.calls with
  | delivered answer =>
    rw [field.run_get firmware session.world.device session.client reply, ← held, here]
    rfl
  | failed failure =>
    rw [reply] at read
    exact read.elim

theorem registers_refined_switching :
    let session := Session.performAll storingFirmware (fun _ => .delivered default)
      ⟨.create, ⟨streamingDevice, 0⟩⟩ [.modify (.udp (.port 6000)), .setRxChannel .Rx2,
        .modify (.rf (.satFrequencyHz 7)), .modify (.udp (.protocol .AMMOS))]
    session.world.device.registers (.Rx1, .port) = (6000 : Int) ∧
      session.world.device.registers (.Rx2, .port) = (5001 : Int) ∧
      (run (storingFirmware.serve fun _ => .delivered default) session.world
        session.client.getSatFrequencyHz).1 = .ok 7 :=
  let ⟨held, _, getters⟩ := registers_refined storingFirmware (fun _ => .delivered default)
    (fun _ => rfl) .create ⟨streamingDevice, 0⟩ [.modify (.udp (.port 6000)), .setRxChannel .Rx2,
      .modify (.rf (.satFrequencyHz 7)), .modify (.udp (.protocol .AMMOS))]
  ⟨held (.Rx1, .port), held (.Rx2, .port), congrArg Prod.fst (getters .satFrequencyHz)⟩

end JerryDriver
