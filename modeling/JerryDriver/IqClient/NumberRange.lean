import JerryDriver.IqClient.SucceedingCalls

/-! Documents that are valid under `configFiles/schema.json` and have all keys. Their
numbers are integers of any size, the fields that receive them are of type `int`, and the
conversion between the two throws for a number that an `int` does not have. -/
namespace JerryDriver.IqClient
open Interaction Program

def InInt (n : Int) : Prop := -2147483648 ≤ n ∧ n ≤ 2147483647

instance (n : Int) : Decidable (InInt n) := inferInstanceAs (Decidable (_ ∧ _))

/-- Which values of the library are integers and texts, and how it converts them. -/
structure Conversions (json : JsonLibrary) where
  isInteger : json.Value → Int → Prop
  isText : json.Value → String → Prop
  asInt_inside : ∀ value n, isInteger value n → InInt n → json.asInt value = .ok n
  asInt_outside : ∀ value n, isInteger value n → ¬ InInt n →
    ∃ thrown, json.asInt value = .error thrown
  asString_text : ∀ value text, isText value text → json.asString value = .ok text

structure HasSection (json : JsonLibrary) (root : json.Value) (section_ : String)
    (settings : json.Value) : Prop where
  isMember : json.isMember root section_ = .ok true
  get : json.get root section_ json.null = .ok settings

variable {json : JsonLibrary} {root settings : json.Value} {conversions : Conversions json}
  {section_ key : String}

def HasInteger (conversions : Conversions json) (settings : json.Value) (key : String) (n : Int) :
    Prop := ∃ value, json.get settings key json.null = .ok value ∧ conversions.isInteger value n

def HasText (conversions : Conversions json) (settings : json.Value) (key text : String) : Prop :=
  ∃ value, json.get settings key json.null = .ok value ∧ conversions.isText value text

/-- The document is valid under the schema and has all of its keys, with these values. -/
structure SchemaValid (conversions : Conversions json) (root : json.Value) (sections : Sections) :
    Prop where
  login : ∃ settings, HasSection json root "LoginSettings" settings ∧
    HasText conversions settings "Ip" sections.login.ip ∧
    HasText conversions settings "User" sections.login.user ∧
    HasText conversions settings "Password" sections.login.password
  rxChannel : ∃ settings, HasSection json root "RxChannelSettings" settings ∧
    HasInteger conversions settings "RxChannel" sections.rxChannel.rxChannel
  stream : ∃ settings, HasSection json root "StreamingSettings" settings ∧
    HasInteger conversions settings "SatFrequency" sections.stream.satFrequency ∧
    HasInteger conversions settings "DownFrequency" sections.stream.downFrequency ∧
    HasInteger conversions settings "BandwidthByAnalysisBandwidth"
      sections.stream.bandwithByAnalysisBandwidth
  channel : ∃ settings, HasSection json root "ChannelSettings" settings ∧
    HasInteger conversions settings "Port" sections.channel.port ∧
    HasText conversions settings "DestinationAddress" sections.channel.destinationAddress ∧
    HasText conversions settings "Protocol" sections.channel.protocol
  rxChannel_range : 0 ≤ sections.rxChannel.rxChannel ∧ sections.rxChannel.rxChannel ≤ 4
  bandwidth_range : sections.stream.bandwithByAnalysisBandwidth ≤ 200000000

/-- The numbers that the configuration converts, the channel's apart. -/
structure NumbersInInt (sections : Sections) : Prop where
  satFrequency : InInt sections.stream.satFrequency
  downFrequency : InInt sections.stream.downFrequency
  bandwidth : InInt sections.stream.bandwithByAnalysisBandwidth
  port : InInt sections.channel.port

theorem HasSection.getStruct {α : Type} (has : HasSection json root section_ settings) (initial : α)
    (values : json.Value → Except Thrown α) :
    JsonParser.getStruct json root section_ initial values = values settings := by
  rw [JsonParser.getStruct, has.isMember, has.get]
  rfl

theorem HasText.getString {text : String} (has : HasText conversions settings key text) :
    JsonParser.getString json settings key = .ok text := by
  obtain ⟨value, found, isText⟩ := has
  rw [JsonParser.getString, found]
  exact conversions.asString_text value text isText

/-- An integer is read if and only if it is an `int`. -/
theorem HasInteger.getInt_iff {n result : Int} (has : HasInteger conversions settings key n) :
    JsonParser.getInt json settings key = .ok result ↔ result = n ∧ InInt n := by
  obtain ⟨value, found, isInteger⟩ := has
  have reads : JsonParser.getInt json settings key = json.asInt value := by
    rw [JsonParser.getInt, found]
    rfl
  rw [reads]
  by_cases inside : InInt n
  · rw [conversions.asInt_inside value n isInteger inside, and_iff_left inside]
    exact ⟨fun same => (Except.ok.inj same).symm, fun same => congrArg _ same.symm⟩
  · obtain ⟨thrown, outside⟩ := conversions.asInt_outside value n isInteger inside
    rw [outside]
    simp only [reduceCtorEq, inside, and_false]

theorem SchemaValid.login_read {sections : Sections}
    (valid : SchemaValid conversions root sections) :
    JsonParser.getLoginStruct json root = .ok sections.login := by
  obtain ⟨settings, has, ip, user, password⟩ := valid.login
  rw [JsonParser.getLoginStruct, has.getStruct, ip.getString, user.getString, password.getString]
  rfl

theorem SchemaValid.rxChannel_read {sections : Sections}
    (valid : SchemaValid conversions root sections) :
    JsonParser.getRxChannelStruct json root = .ok sections.rxChannel := by
  obtain ⟨settings, has, rxChannel⟩ := valid.rxChannel
  have inside : InInt sections.rxChannel.rxChannel := by
    have range := valid.rxChannel_range
    constructor <;> omega
  rw [JsonParser.getRxChannelStruct, has.getStruct, rxChannel.getInt_iff.mpr ⟨rfl, inside⟩]
  rfl

theorem SchemaValid.stream_read {sections : Sections} {stream : JsonParser.StreamingStruct}
    (valid : SchemaValid conversions root sections) :
    JsonParser.getStreamStruct json root = .ok stream ↔ stream = sections.stream ∧
      InInt sections.stream.satFrequency ∧ InInt sections.stream.downFrequency ∧
      InInt sections.stream.bandwithByAnalysisBandwidth := by
  obtain ⟨settings, has, sat, down, bandwidth⟩ := valid.stream
  rw [JsonParser.getStreamStruct, has.getStruct]
  simp only [except_bind_eq_ok, sat.getInt_iff, down.getInt_iff, bandwidth.getInt_iff]
  constructor
  · rintro ⟨_, ⟨rfl, first⟩, _, ⟨rfl, second⟩, _, ⟨rfl, third⟩, read⟩
    cases read
    exact ⟨rfl, first, second, third⟩
  · rintro ⟨rfl, first, second, third⟩
    exact ⟨_, ⟨rfl, first⟩, _, ⟨rfl, second⟩, _, ⟨rfl, third⟩, rfl⟩

theorem SchemaValid.channel_read {sections : Sections} {channel : JsonParser.ChannelStruct}
    (valid : SchemaValid conversions root sections) :
    JsonParser.getChannelStruct json root = .ok channel ↔ channel = sections.channel ∧
      InInt sections.channel.port := by
  obtain ⟨settings, has, port, address, protocol⟩ := valid.channel
  rw [JsonParser.getChannelStruct, has.getStruct]
  simp only [except_bind_eq_ok, port.getInt_iff, address.getString, protocol.getString,
    Except.ok.injEq]
  constructor
  · rintro ⟨_, ⟨rfl, inside⟩, _, rfl, _, rfl, read⟩
    cases read
    exact ⟨rfl, inside⟩
  · rintro ⟨rfl, inside⟩
    exact ⟨_, ⟨rfl, inside⟩, _, rfl, _, rfl, rfl⟩

/-- A valid document is read, and then as it is, if and only if its numbers are `int`s. -/
theorem SchemaValid.readSections_iff {sections result : Sections}
    (valid : SchemaValid conversions root sections) :
    readSections json root = .ok result ↔ result = sections ∧ NumbersInInt sections := by
  rw [readSections_ok_iff, valid.login_read, valid.rxChannel_read, valid.stream_read,
    valid.channel_read]
  constructor
  · rintro ⟨login, rxChannel, ⟨stream, sat, down, bandwidth⟩, channel, port⟩
    refine ⟨?_, sat, down, bandwidth, port⟩
    cases result
    cases sections
    simp_all
  · rintro ⟨rfl, inside⟩
    exact ⟨rfl, rfl, ⟨rfl, inside.satFrequency, inside.downFrequency, inside.bandwidth⟩, rfl,
      inside.port⟩

/-! ## What reaches the device -/

def Setting.rfSetting : Setting → Option RFSetting
  | .setRFSetting setting => some setting
  | _ => none

def Setting.analysisBandwidth : Setting → Option ℚ
  | .setBandwidthSettingByAnalysisBandwidth setting => some setting.analysisBandwidthHz
  | _ => none

def Setting.udpPort : Setting → Option Int
  | .setUDPSetting setting => some setting.port
  | _ => none

/-- The call returns, and its setters are passed the document's numbers: each frequency
replaces its own, the bandwidth is sent once, and every UDP setting after the stop has
the port. -/
structure PassedUnchanged (sections : Sections) (state : ChannelState)
    (result : Except Thrown IqClient) (settings : List Setting) : Prop where
  returns : ∃ configured, result = .ok configured
  rf : settings.filterMap Setting.rfSetting =
    [⟨sections.stream.satFrequency, state.channel.rf.downFrequencyHz⟩,
      ⟨sections.stream.satFrequency, sections.stream.downFrequency⟩]
  bandwidth : settings.filterMap Setting.analysisBandwidth =
    [(sections.stream.bandwithByAnalysisBandwidth : ℚ)]
  port : settings.filterMap Setting.udpPort =
    (if state.udp.isStreaming then [state.udp.port] else []) ++
      [sections.channel.port, sections.channel.port, sections.channel.port]

variable {firmware : Firmware} {answers : Nat → ErrorMessage} {device : Device}
  {client : IqClient} {files : String → Option String} {path : String}
  {sections : Sections} {msr4Channel : MSR4Channel}

theorem passedUnchanged_of_named (named : sections.channel.protocol = "HRZR")
    (configured : IqClient) (state : ChannelState) :
    PassedUnchanged sections state (ending configured sections.channel.protocol)
      ((storing firmware state
        (configurationEdits sections.stream sections.channel state)).map Sent.setting) where
  returns := ⟨configured, if_pos named⟩
  rf := by
    rw [configurationEdits, stopEdits, protocolEdits, if_pos named]
    cases state.udp.isStreaming <;> rfl
  bandwidth := by
    rw [configurationEdits, stopEdits, protocolEdits, if_pos named]
    cases state.udp.isStreaming <;> rfl
  port := by
    rw [configurationEdits, stopEdits, protocolEdits, if_pos named]
    cases state.udp.isStreaming <;> rfl

/-- A configuration that returns has read its document. -/
theorem selects_of_returned {configured : IqClient}
    (returned : (run (firmware.serve (delivering answers)) ⟨device, 0⟩
      (client.setMSR4ByJson json files path)).1 = .ok configured) :
    ∃ sections msr4Channel,
      Selects json (JsonParser.getRoot json files path) sections msr4Channel := by
  by_contra none
  obtain ⟨thrown, performs⟩ := @performs_nothing firmware answers device client json files path
    fun sections msr4Channel selects => none ⟨sections, msr4Channel, selects⟩
  obtain ⟨calls, ran⟩ := (performs .Rx1).ran
  rw [ran] at returned
  cases returned

/-- Numbers that reach the device are `int`s. -/
theorem numbersInInt_of_returned {configured : IqClient}
    (valid : SchemaValid conversions (JsonParser.getRoot json files path) sections)
    (returned : (run (firmware.serve (delivering answers)) ⟨device, 0⟩
      (client.setMSR4ByJson json files path)).1 = .ok configured) : NumbersInInt sections := by
  obtain ⟨read, _, selects⟩ := selects_of_returned returned
  exact (valid.readSections_iff.mp selects.read).2

/-- Of a valid document for HRZR the numbers reach the device unchanged exactly when all
of them are `int`s. -/
theorem numbers_reach_device_iff (conversions : Conversions json) (files : String → Option String)
    (path : String) (firmware : Firmware) (answers : Nat → ErrorMessage) (device : Device)
    (client : IqClient) (succeed : Succeeding answers)
    (valid : SchemaValid conversions (JsonParser.getRoot json files path) sections)
    (selects : selected sections.rxChannel.rxChannel = some msr4Channel)
    (named : sections.channel.protocol = "HRZR") :
    PassedUnchanged sections (device msr4Channel)
      (run (firmware.serve (delivering answers)) ⟨device, 0⟩
        (client.setMSR4ByJson json files path)).1
      ((sent (firmware.serve (delivering answers)) ⟨device, 0⟩
        (client.setMSR4ByJson json files path)).map Sent.setting) ↔
      NumbersInInt sections := by
  constructor
  · intro passed
    obtain ⟨configured, returned⟩ := passed.returns
    exact numbersInInt_of_returned valid returned
  · intro inside
    have reads := valid.readSections_iff.mpr ⟨rfl, inside⟩
    obtain ⟨configured, -, ⟨calls, ran⟩, sends⟩ :=
      @performs_configuration firmware answers device client msr4Channel json files path sections
        succeed ⟨reads, selects⟩
    rw [ran, sends]
    exact passedUnchanged_of_named named configured (device msr4Channel)

/-! ## Documents with all keys -/

/-- The library for documents, with an `asInt` that throws where the number is no `int`. -/
def rangedLibrary (text : String) (document : Document) : JsonLibrary :=
  { Document.library text document with
    asInt := fun value => do
      let n ← Document.asInt value
      if InInt n then return n else .error (.jsonException "LargestInt out of Int range") }

def rangedConversions (text : String) (document : Document) :
    Conversions (rangedLibrary text document) where
  isInteger := fun value n => value = Document.int n
  isText := fun value text => value = Document.string text
  asInt_inside := by
    rintro _ n rfl inside
    exact if_pos inside
  asInt_outside := by
    rintro _ n rfl outside
    exact ⟨_, if_neg outside⟩
  asString_text := by
    rintro _ text rfl
    rfl

theorem schemaValid_fullDocument (text : String) {sections : Sections}
    (rxChannel : 0 ≤ sections.rxChannel.rxChannel ∧ sections.rxChannel.rxChannel ≤ 4)
    (bandwidth : sections.stream.bandwithByAnalysisBandwidth ≤ 200000000) :
    SchemaValid (rangedConversions text (fullDocument sections)) (fullDocument sections)
      sections where
  login := ⟨_, ⟨rfl, rfl⟩, ⟨_, rfl, rfl⟩, ⟨_, rfl, rfl⟩, ⟨_, rfl, rfl⟩⟩
  rxChannel := ⟨_, ⟨rfl, rfl⟩, ⟨_, rfl, rfl⟩⟩
  stream := ⟨_, ⟨rfl, rfl⟩, ⟨_, rfl, rfl⟩, ⟨_, rfl, rfl⟩, ⟨_, rfl, rfl⟩⟩
  channel := ⟨_, ⟨rfl, rfl⟩, ⟨_, rfl, rfl⟩, ⟨_, rfl, rfl⟩, ⟨_, rfl, rfl⟩⟩
  rxChannel_range := rxChannel
  bandwidth_range := bandwidth

theorem getRoot_rangedLibrary (text path : String) (document : Document) :
    JsonParser.getRoot (rangedLibrary text document) (fun _ => some text) path = document :=
  getRoot_library text path document

theorem example_numbers_reach_device :
    PassedUnchanged (exampleSections 1 "HRZR") (streamingDevice .Rx1)
      (run (storingFirmware.serve (delivering fun _ => default)) ⟨streamingDevice, 0⟩
        (IqClient.create.setMSR4ByJson (rangedLibrary "" (fullDocument (exampleSections 1 "HRZR")))
          (fun _ => some "") "example.json")).1
      ((sent (storingFirmware.serve (delivering fun _ => default)) ⟨streamingDevice, 0⟩
        (IqClient.create.setMSR4ByJson (rangedLibrary "" (fullDocument (exampleSections 1 "HRZR")))
          (fun _ => some "") "example.json")).map Sent.setting) := by
  refine (numbers_reach_device_iff (rangedConversions "" _) (fun _ => some "") "example.json"
    storingFirmware (fun _ => default) streamingDevice .create (fun _ => rfl) ?_ rfl rfl).mpr ?_
  · rw [getRoot_rangedLibrary]
    exact schemaValid_fullDocument "" (by decide) (by decide)
  · exact ⟨by decide, by decide, by decide, by decide⟩

/-- A carrier at 12 GHz, as a satellite may have it. -/
def carrierSections : Sections :=
  { exampleSections 1 "HRZR" with stream := ⟨12000000000, 0, 194100000⟩ }

theorem carrier_above_int_throws :
    SchemaValid (rangedConversions "" (fullDocument carrierSections)) (fullDocument carrierSections)
      carrierSections ∧
    ¬ ∃ configured, (run (storingFirmware.serve (delivering fun _ => default)) ⟨streamingDevice, 0⟩
      (IqClient.create.setMSR4ByJson (rangedLibrary "" (fullDocument carrierSections))
        (fun _ => some "") "carrier.json")).1 = .ok configured := by
  have valid := @schemaValid_fullDocument "" carrierSections (by decide) (by decide)
  refine ⟨valid, ?_⟩
  rintro ⟨configured, returned⟩
  rw [← getRoot_rangedLibrary "" "carrier.json" (fullDocument carrierSections)] at valid
  exact absurd (numbersInInt_of_returned valid returned).satFrequency (by decide)

end JerryDriver.IqClient
