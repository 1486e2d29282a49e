import JerryDriver.IqClient.Session

/-! The calls of `SetMSR4ByJson` in their order. The device may answer every call as it likes
and may refuse it, and a call may fail on the way. In each phase at most one request can come
next, and what it holds comes from the document and from the replies before it. -/
namespace JerryDriver.IqClient
open Interaction Program

/-- The answers to the stop and to the protocol are dropped. -/
def Item.Checked : Item → Prop
  | .isStreaming | .protocol => False
  | .satFrequency | .downFrequency | .bandwidth | .port | .destinationAddress => True

instance (item : Item) : Decidable item.Checked :=
  match item with
  | .isStreaming | .protocol => .isFalse id
  | .satFrequency | .downFrequency | .bandwidth | .port | .destinationAddress => .isTrue trivial

inductive Phase where
  | login
  | looks
  | readsUdp (item : Item) (edit : UdpSetting → UdpSetting)
  | readsRf (item : Item) (edit : RFSetting → RFSetting)
  | writes (item : Item) (setting : Setting)
  | ended (outcome : Except Thrown Unit)

structure Progress where
  phase : Phase
  client : IqClient

def Progress.stub (progress : Progress) : Stub :=
  progress.client.grpcClient.generateStub progress.client.msr4Channel

/-- The request that comes next. -/
def Progress.expects (progress : Progress) : Option Request :=
  match progress.phase with
  | .login => some (loginRequest progress.client)
  | .looks | .readsUdp _ _ => some (.getUDPSetting progress.stub)
  | .readsRf _ _ => some (.getChannelSetting progress.stub)
  | .writes _ setting => some (.set progress.stub setting)
  | .ended _ => none

namespace Item

def start (sections : Sections) (item : Item) : Phase :=
  match item.writing sections.stream sections.channel with
  | .udp edit => .readsUdp item edit
  | .rf edit => .readsRf item edit
  | .direct setting => .writes item setting

/-- Where a configuration goes on behind an item. -/
def done (sections : Sections) : Item → Phase
  | .isStreaming => satFrequency.start sections
  | .satFrequency => downFrequency.start sections
  | .downFrequency => bandwidth.start sections
  | .bandwidth => port.start sections
  | .port => destinationAddress.start sections
  | .destinationAddress =>
    if sections.channel.protocol = "HRZR" then protocol.start sections
    else .ended (.error (.notImplementedException "AMMOS Protocol not yet implemented."))
  | .protocol => .ended (.ok ())

def answered (sections : Sections) (item : Item) (err : ErrorMessage) : Phase :=
  if item.Checked ∧ err.errorCode ≠ 0 then .ended (.error (.invalidValueError err.errorMessage))
  else item.done sections

end Item

/-- Behind the login the channel is selected. -/
def entered (sections : Sections) (client : IqClient) : Progress :=
  match selected sections.rxChannel.rxChannel with
  | some msr4Channel => ⟨.looks, client.setRxChannel msr4Channel⟩
  | none => ⟨.ended (.error (.notImplementedException
      "Invalid channel. RxChannel only accepts \"[1-4]\"")), client⟩

def answeredLogin (sections : Sections) (client : IqClient) (reply : Reply JsonWebToken) :
    Progress :=
  if reply.status.ok then entered sections (loggedIn client reply)
  else ⟨.ended (.error (.invalidValueError "Invalid login.")), client⟩

/-- Only a channel that streams is stopped. -/
def looked (sections : Sections) (streaming : Bool) : Phase :=
  if streaming then Item.isStreaming.start sections else Item.satFrequency.start sections

def procedure (sections : Sections) :
    Monitor Progress Request fun request => Reply request.Message where
  Allows progress request := progress.expects = some request
  next progress request reply :=
    match progress.phase, request, reply with
    | .login, .login _ _, reply => answeredLogin sections progress.client reply
    | .looks, .getUDPSetting _, reply =>
      { progress with phase := looked sections reply.message.isStreaming }
    | .readsUdp item edit, .getUDPSetting _, reply =>
      { progress with phase := .writes item (.setUDPSetting (edit reply.message)) }
    | .readsRf item edit, .getChannelSetting _, reply =>
      { progress with phase := .writes item (.setRFSetting (edit reply.message.rf)) }
    | .writes item _, .set _ _, reply =>
      { progress with phase := item.answered sections reply.message }
    | _, _, _ => progress

def first (sections : Sections) (client : IqClient) : Progress :=
  ⟨.login, (client.setMSR4Credentials sections.login.user sections.login.password).setMSR4Ip
    sections.login.ip⟩

/-- Behind a return the phase is the end, and behind a throw the one for what was thrown. -/
def Returned (client : IqClient) (progress : Progress) : Prop :=
  progress = ⟨.ended (.ok ()), client⟩

def Threw (thrown : Thrown) (progress : Progress) : Prop :=
  progress.phase = .ended (.error thrown)

variable {sections : Sections} {client : IqClient} {item : Item} {α : Type}

/-! ## The setters -/

/-- A program that leads from one phase to another, or ends by throwing. -/
abbrev Leads (sections : Sections) (client : IqClient) (before after : Phase)
    (program : Calls α) : Prop :=
  program.Keeps (procedure sections) (fun _ progress => progress = ⟨after, client⟩) Threw
    ⟨before, client⟩

/-- A setter that leads to what its answer says. -/
abbrev Sets (sections : Sections) (client : IqClient) (before : Phase) (item : Item)
    (setter : Calls ErrorMessage) : Prop :=
  setter.Keeps (procedure sections)
    (fun err progress => progress = ⟨item.answered sections err, client⟩) Threw ⟨before, client⟩

theorem sets_direct (setting : Setting) :
    Sets sections client (.writes item setting) item
      (client.grpcClient.callSetter client.msr4Channel setting) :=
  keeps_request_bind rfl fun _ => rfl

theorem sets_udp (edit : UdpSetting → UdpSetting) :
    Sets sections client (.readsUdp item edit) item (client.modifyUdpSetting edit) :=
  keeps_bind (keeps_request_bind rfl fun _ => sets_direct _)

theorem sets_rf (edit : RFSetting → RFSetting) :
    Sets sections client (.readsRf item edit) item (client.modifyRfSetting edit) :=
  keeps_bind (keeps_request_bind rfl fun _ => sets_direct _)

theorem Leads.bind {before between after : Phase} {program : Calls α} {f : α → Calls Unit}
    (leads : Leads sections client before between program)
    (goesOn : ∀ value, Leads sections client between after (f value)) :
    Leads sections client before after (program >>= f) := by
  refine keeps_bind (keeps_mono leads (fun {value progress} here => ?_) id)
  rw [here]
  exact goesOn value

theorem leads_checked (item : Item) {before : Phase} {setter : Calls ErrorMessage}
    (sees : item.Checked)
    (sets : Sets sections client before item setter) :
    Leads sections client before (item.done sections) (checked setter) := by
  refine keeps_bind (keeps_mono sets (fun {err progress} here => ?_) id)
  rw [here, Item.answered]
  by_cases zero : err.errorCode = 0
  · rw [if_neg (fun both => both.2 zero), if_neg (not_not.mpr zero)]
    exact keeps_pure rfl
  · rw [if_pos ⟨sees, zero⟩, if_pos zero]
    exact keeps_throws rfl

theorem leads_unchecked (item : Item) {before : Phase} {setter : Calls ErrorMessage}
    (drops : ¬ item.Checked)
    (sets : Sets sections client before item setter) :
    Leads sections client before (item.done sections) (unchecked setter) := by
  refine keeps_bind (keeps_mono sets (fun {err progress} here => ?_) id)
  rw [here, Item.answered, if_neg (fun both => drops both.1)]
  exact keeps_pure rfl

/-! ## The configuration -/

theorem leads_stop (streaming : Bool) :
    Leads sections client (looked sections streaming) (Item.satFrequency.start sections)
      (if streaming then unchecked (client.setStreamingStatus false) else return ()) := by
  cases streaming with
  | true => exact leads_unchecked .isStreaming id (sets_udp _)
  | false => exact keeps_pure rfl

theorem leads_stopStreaming :
    Leads sections client .looks (Item.satFrequency.start sections) client.stopStreaming :=
  keeps_bind (keeps_bind (keeps_request_bind rfl fun reply =>
    keeps_pure (leads_stop reply.message.isStreaming)))

theorem leads_setSettings :
    Leads sections client (Item.satFrequency.start sections)
      (Item.destinationAddress.done sections)
      (client.setSettings sections.stream sections.channel) := by
  refine (leads_checked .satFrequency trivial (sets_rf _)).bind fun _ => ?_
  refine (leads_checked .downFrequency trivial (sets_rf _)).bind fun _ => ?_
  refine (leads_checked .bandwidth trivial (sets_direct _)).bind fun _ => ?_
  refine (leads_checked .port trivial (sets_udp _)).bind fun _ => ?_
  exact leads_checked .destinationAddress trivial (sets_udp _)

theorem leads_setProtocolByName :
    Leads sections client (Item.destinationAddress.done sections) (.ended (.ok ()))
      (client.setProtocolByName sections.channel.protocol) := by
  rw [setProtocolByName, Item.done]
  split
  · exact leads_unchecked .protocol id (sets_udp _)
  · exact keeps_throws rfl

/-- The configuration from the login on. -/
def configure (sections : Sections) (client : IqClient) : Calls IqClient := do
  let client ← client.login sections.login
  let client ← client.selectRxChannel sections.rxChannel.rxChannel
  client.configureChannel sections.stream sections.channel

theorem keeps_configureChannel :
    (client.configureChannel sections.stream sections.channel).Keeps (procedure sections)
      Returned Threw ⟨.looks, client⟩ := by
  refine keeps_bind (keeps_mono leads_stopStreaming (fun here => ?_) id)
  rw [here]
  refine keeps_bind (keeps_mono leads_setSettings (fun here => ?_) id)
  rw [here]
  refine keeps_bind (keeps_mono leads_setProtocolByName (fun here => ?_) id)
  exact keeps_pure here

theorem keeps_entered :
    (do
      let client ← client.selectRxChannel sections.rxChannel.rxChannel
      client.configureChannel sections.stream sections.channel).Keeps (procedure sections)
      Returned Threw (entered sections client) := by
  rw [selectRxChannel_eq, entered]
  cases selected sections.rxChannel.rxChannel with
  | some msr4Channel => exact keeps_configureChannel
  | none => exact keeps_throws rfl

theorem keeps_login :
    (client.login sections.login).Keeps (procedure sections)
      (fun client progress => progress = entered sections client) Threw
      (first sections client) := by
  refine keeps_bind (keeps_bind (keeps_bind (keeps_request_bind rfl fun reply => ?_)))
  change Keeps _ _ _ (answeredLogin sections (first sections client).client reply) _
  cases reply with
  | delivered token => exact keeps_pure rfl
  | failed failure =>
    refine keeps_pure (keeps_pure (keeps_pure ?_))
    simp only [answeredLogin, Reply.status, failure.notOk, if_false]
    exact keeps_throws rfl

theorem keeps_configure :
    (configure sections client).Keeps (procedure sections) Returned Threw
      (first sections client) := by
  refine keeps_bind (keeps_mono keeps_login (fun here => ?_) id)
  rw [here]
  exact keeps_entered

/-! ## The number of calls -/

/-- How many calls may still come from an item's write on. -/
def Item.remaining : Item → Nat
  | .isStreaming => 12
  | .satFrequency => 10
  | .downFrequency => 8
  | .bandwidth => 7
  | .port => 5
  | .destinationAddress => 3
  | .protocol => 1

def Phase.remaining : Phase → Nat
  | .login => 15
  | .looks => 14
  | .readsUdp item _ | .readsRf item _ => item.remaining + 1
  | .writes item _ => item.remaining
  | .ended _ => 0

theorem done_remaining (sections : Sections) (item : Item) :
    (item.done sections).remaining < item.remaining := by
  cases item with
  | destinationAddress =>
    rw [Item.done]
    split <;> simp [Item.start, Item.writing, Phase.remaining, Item.remaining]
  | isStreaming | satFrequency | downFrequency | bandwidth | port | protocol =>
    simp [Item.done, Item.start, Item.writing, Phase.remaining, Item.remaining]

theorem answered_remaining (sections : Sections) (item : Item) (err : ErrorMessage) :
    (item.answered sections err).remaining < item.remaining := by
  rw [Item.answered]
  split
  · exact Nat.zero_lt_of_lt (done_remaining sections item)
  · exact done_remaining sections item

theorem answeredLogin_remaining (sections : Sections) (client : IqClient)
    (reply : Reply JsonWebToken) : (answeredLogin sections client reply).phase.remaining < 15 := by
  rw [answeredLogin, entered]
  split
  · split <;> simp [Phase.remaining]
  · exact Nat.zero_lt_succ _

theorem looked_remaining (sections : Sections) (streaming : Bool) :
    (looked sections streaming).remaining < 14 := by
  cases streaming <;> simp [looked, Item.start, Item.writing, Phase.remaining, Item.remaining]

theorem procedure_falls (progress : Progress) (request : Request) (reply : Reply request.Message)
    (allowed : (procedure sections).Allows progress request) :
    ((procedure sections).next progress request reply).phase.remaining <
      progress.phase.remaining := by
  obtain ⟨phase, client⟩ := progress
  cases phase with
  | login =>
    cases Option.some.inj allowed
    exact answeredLogin_remaining sections client reply
  | looks =>
    cases Option.some.inj allowed
    exact looked_remaining sections reply.message.isStreaming
  | readsUdp item edit =>
    cases Option.some.inj allowed
    exact Nat.lt_succ_self _
  | readsRf item edit =>
    cases Option.some.inj allowed
    exact Nat.lt_succ_self _
  | writes item setting =>
    cases Option.some.inj allowed
    exact answered_remaining sections item reply.message
  | ended outcome => contradiction

/-- A document that cannot be read makes no call. Otherwise the calls are at most fifteen, each
of them is the one that the phase expects, and the phase that they lead to is the end that the
configuration comes to. -/
theorem configuration_in_order (json : JsonLibrary) (files : String → Option String)
    (answers : Answers) (client : IqClient) (path : String) (record : History) :
    let execution := run (recording answers) record (client.setMSR4ByJson json files path)
    match readSections json (JsonParser.getRoot json files path) with
    | .error thrown => execution = (.error thrown, record)
    | .ok sections =>
      ∃ history, execution.2 = record ++ history ∧ history.length ≤ 15 ∧
        (∀ earlier event later, history = earlier ++ event :: later →
          ((procedure sections).follow (first sections client) earlier).expects =
            some event.1) ∧
        Ended Returned Threw ((procedure sections).follow (first sections client) history)
          execution.1 := by
  intro execution
  cases read : readSections json (JsonParser.getRoot json files path) with
  | error thrown =>
    simp only [execution, setMSR4ByJson_eq, read]
    rfl
  | ok sections =>
    have program : client.setMSR4ByJson json files path = configure sections client := by
      rw [setMSR4ByJson_eq, read, ofExcept_ok_bind, configure]
    obtain ⟨history, recorded, accepts, ended⟩ :=
      (@keeps_configure sections client).run answers record
    simp only [execution, program]
    refine ⟨history, recorded, ?_, ?_, ended⟩
    · exact Nat.le_of_add_right_le (@Monitor.Accepts.length_le _ _ _ _ _
        (fun progress => progress.phase.remaining) _
        (fun request reply allowed => procedure_falls _ request reply allowed) accepts)
    · rintro earlier event later rfl
      exact accepts.allows

end JerryDriver.IqClient
