import JerryDriver.IqClient.NumberRange

/-! Documents with keys left out, and values that are not what a setting takes. The parser
turns an absent section into the initial values of a structure, an absent key into a
converted null, and any other value into whatever the library's conversion makes of it. None
of these is told from a value that the document has, and the setters then send it. -/
namespace JerryDriver.IqClient
open Interaction Program

variable {json : JsonLibrary} {root settings : json.Value} {section_ key : String} {α : Type}

/-- The document has the key in the section, and the value there is this one. An absent key
is read as null. -/
def Contains (json : JsonLibrary) (root : json.Value) (section_ key : String)
    (is : json.Value → α → Prop) (value : α) : Prop :=
  ∃ settings member, HasSection json root section_ settings ∧
    json.get settings key json.null = .ok member ∧ member ≠ json.null ∧ is member value

def ContainsNumber (conversions : Conversions json) (root : json.Value) (section_ key : String)
    (number : ℚ) : Prop :=
  ∃ n : Int, Contains json root section_ key conversions.isInteger n ∧ number = n

/-- Every field of a setting is as the channel has it, or as the document has it. -/
def FromDocument (conversions : Conversions json) (root : json.Value) (current : ChannelState) :
    Setting → Prop
  | .setRFSetting rf =>
    (rf.satFrequencyHz = current.channel.rf.satFrequencyHz ∨
      ContainsNumber conversions root "StreamingSettings" "SatFrequency" rf.satFrequencyHz) ∧
    (rf.downFrequencyHz = current.channel.rf.downFrequencyHz ∨
      ContainsNumber conversions root "StreamingSettings" "DownFrequency" rf.downFrequencyHz)
  | .setBandwidthSettingByAnalysisBandwidth bandwidth =>
    ContainsNumber conversions root "StreamingSettings" "BandwidthByAnalysisBandwidth"
      bandwidth.analysisBandwidthHz
  | .setBandwidthSettingBySampleRate _ => False
  | .setUDPSetting udp =>
    (udp.port = current.udp.port ∨
      Contains json root "ChannelSettings" "Port" conversions.isInteger udp.port) ∧
    (udp.destinationAddress = current.udp.destinationAddress ∨
      Contains json root "ChannelSettings" "DestinationAddress" conversions.isText
        udp.destinationAddress)

/-- All keys are there whose values are sent, four with an integer and one with a text. -/
structure Complete (conversions : Conversions json) (root : json.Value) : Prop where
  satFrequency : ∃ n,
    Contains json root "StreamingSettings" "SatFrequency" conversions.isInteger n
  downFrequency : ∃ n,
    Contains json root "StreamingSettings" "DownFrequency" conversions.isInteger n
  bandwidth : ∃ n,
    Contains json root "StreamingSettings" "BandwidthByAnalysisBandwidth" conversions.isInteger n
  port : ∃ n, Contains json root "ChannelSettings" "Port" conversions.isInteger n
  destinationAddress : ∃ text,
    Contains json root "ChannelSettings" "DestinationAddress" conversions.isText text

variable {conversions : Conversions json}

/-! ## What is read -/

theorem HasSection.unique {other : json.Value} (has : HasSection json root section_ settings)
    (again : HasSection json root section_ other) : other = settings :=
  Except.ok.inj (again.get.symm.trans has.get)

/-- An integer that the document has is read as it is, if it is read at all. -/
theorem contains_of_getInt {n : Int} (has : HasSection json root section_ settings)
    (present : ∃ n, Contains json root section_ key conversions.isInteger n)
    (read : JsonParser.getInt json settings key = .ok n) :
    Contains json root section_ key conversions.isInteger n := by
  obtain ⟨m, other, member, again, found, present, isInteger⟩ := present
  cases has.unique again
  have integer : HasInteger conversions settings key m := ⟨member, found, isInteger⟩
  obtain ⟨rfl, -⟩ := integer.getInt_iff.mp read
  exact ⟨settings, member, has, found, present, isInteger⟩

theorem contains_of_getString {text : String} (has : HasSection json root section_ settings)
    (present : ∃ text, Contains json root section_ key conversions.isText text)
    (read : JsonParser.getString json settings key = .ok text) :
    Contains json root section_ key conversions.isText text := by
  obtain ⟨written, other, member, again, found, present, isText⟩ := present
  cases has.unique again
  have hasText : HasText conversions settings key written := ⟨member, found, isText⟩
  cases hasText.getString.symm.trans read
  exact ⟨settings, member, has, found, present, isText⟩

variable {stream : JsonParser.StreamingStruct} {channel : JsonParser.ChannelStruct}

/-- Of a complete document the streaming settings are read as it has them. -/
theorem Complete.stream_contained (complete : Complete conversions root)
    (read : JsonParser.getStreamStruct json root = .ok stream) :
    Contains json root "StreamingSettings" "SatFrequency" conversions.isInteger
        stream.satFrequency ∧
      Contains json root "StreamingSettings" "DownFrequency" conversions.isInteger
        stream.downFrequency ∧
      Contains json root "StreamingSettings" "BandwidthByAnalysisBandwidth" conversions.isInteger
        stream.bandwithByAnalysisBandwidth := by
  obtain ⟨-, settings, -, has, -⟩ := complete.satFrequency
  rw [JsonParser.getStreamStruct, has.getStruct] at read
  simp only [except_bind_eq_ok] at read
  obtain ⟨sat, first, down, second, bandwidth, third, made⟩ := read
  cases made
  exact ⟨contains_of_getInt has complete.satFrequency first,
    contains_of_getInt has complete.downFrequency second,
    contains_of_getInt has complete.bandwidth third⟩

theorem Complete.channel_contained (complete : Complete conversions root)
    (read : JsonParser.getChannelStruct json root = .ok channel) :
    Contains json root "ChannelSettings" "Port" conversions.isInteger channel.port ∧
      Contains json root "ChannelSettings" "DestinationAddress" conversions.isText
        channel.destinationAddress := by
  obtain ⟨-, settings, -, has, -⟩ := complete.port
  rw [JsonParser.getChannelStruct, has.getStruct] at read
  simp only [except_bind_eq_ok] at read
  obtain ⟨port, first, address, second, protocol, -, made⟩ := read
  cases made
  exact ⟨contains_of_getInt has complete.port first,
    contains_of_getString has complete.destinationAddress second⟩

/-! ## What is sent -/

variable {firmware : Firmware} {answers : Nat → ErrorMessage} {device : Device}
  {client : IqClient} {files : String → Option String} {path : String} {sections : Sections}
  {msr4Channel : MSR4Channel}

theorem storing_forall {P : ChannelState → Setting → Prop} {edits : List Edit}
    (state : ChannelState) (each : ∀ edit ∈ edits, ∀ current, P current (edit current)) :
    ∀ sent ∈ storing firmware state edits, P sent.current sent.setting := by
  induction edits generalizing state with
  | nil =>
    intro sent member
    cases member
  | cons edit rest ih =>
    refine List.forall_mem_cons.mpr ⟨each edit List.mem_cons_self state, ih _ ?_⟩
    exact fun other member => each other (List.mem_cons_of_mem _ member)

/-- The edits of a configuration whose values are all in the document. -/
theorem Complete.edits_fromDocument (complete : Complete conversions root)
    (streamRead : JsonParser.getStreamStruct json root = .ok stream)
    (channelRead : JsonParser.getChannelStruct json root = .ok channel) (state : ChannelState) :
    ∀ edit ∈ configurationEdits stream channel state,
      ∀ current, FromDocument conversions root current (edit current) := by
  obtain ⟨sat, down, bandwidth⟩ := complete.stream_contained streamRead
  obtain ⟨port, address⟩ := complete.channel_contained channelRead
  intro edit member current
  rcases List.mem_append.mp member with stop | later
  · rw [stopEdits] at stop
    split at stop
    · obtain rfl := List.mem_singleton.mp stop
      exact ⟨.inl rfl, .inl rfl⟩
    · cases stop
  rcases List.mem_append.mp later with setting | protocol
  · simp only [settingsEdits, IqClient.settings, List.map_cons, List.map_nil, List.mem_cons,
      List.not_mem_nil, or_false] at setting
    rcases setting with rfl | rfl | rfl | rfl | rfl
    · exact ⟨.inr ⟨_, sat, rfl⟩, .inl rfl⟩
    · exact ⟨.inl rfl, .inr ⟨_, down, rfl⟩⟩
    · exact ⟨_, bandwidth, rfl⟩
    · exact ⟨.inr port, .inl rfl⟩
    · exact ⟨.inl rfl, .inr address⟩
  · rw [protocolEdits] at protocol
    split at protocol
    · obtain rfl := List.mem_singleton.mp protocol
      exact ⟨.inl rfl, .inl rfl⟩
    · cases protocol

/-- A channel that does not stream and has none of the values that were read. -/
def otherState (stream : JsonParser.StreamingStruct) (channel : JsonParser.ChannelStruct) :
    ChannelState where
  udp := ⟨channel.port + 1, channel.destinationAddress ++ ".", .HRZR, .SFP3, none⟩
  channel := ⟨some ⟨stream.satFrequency + 1, stream.downFrequency + 1⟩, some ⟨1, 1⟩⟩

theorem ContainsNumber.contains {n : Int}
    (number : ContainsNumber conversions root section_ key (n : ℚ)) :
    Contains json root section_ key conversions.isInteger n := by
  obtain ⟨m, contains, same⟩ := number
  rwa [Rat.intCast_inj.mp same]

/-- There no value that was read can be taken for one that the channel has already. -/
theorem complete_of_otherState
    (faithful : ∀ sent ∈ storing storingFirmware (otherState stream channel)
      (configurationEdits stream channel (otherState stream channel)),
      FromDocument conversions root sent.current sent.setting) : Complete conversions root := by
  have idle : stopEdits stream channel (otherState stream channel) = [] := rfl
  rw [configurationEdits, idle, List.nil_append, storing_append, List.forall_mem_append] at faithful
  have sent := faithful.1
  simp only [settingsEdits, IqClient.settings, List.map_cons, List.map_nil, storing,
    List.forall_mem_cons] at sent
  obtain ⟨⟨satSent, -⟩, ⟨-, downSent⟩, bandwidthSent, ⟨portSent, -⟩, ⟨-, addressSent⟩, -⟩ := sent
  have frequency {n : Int} {key : String}
      (sent : (n : ℚ) = n + 1 ∨ ContainsNumber conversions root "StreamingSettings" key n) :
      Contains json root "StreamingSettings" key conversions.isInteger n := by
    have other : (n : ℚ) ≠ n + 1 := by grind
    exact (sent.resolve_left other).contains
  have port : channel.port ≠ channel.port + 1 := by omega
  have text : channel.destinationAddress ≠ channel.destinationAddress ++ "." := by
    intro same
    have length := congrArg String.length same
    rw [String.length_append] at length
    exact absurd length (Nat.ne_of_lt (Nat.lt_succ_self _))
  exact {
    satFrequency := ⟨_, frequency satSent⟩
    downFrequency := ⟨_, frequency downSent⟩
    bandwidth := ⟨_, ContainsNumber.contains bandwidthSent⟩
    port := ⟨_, portSent.resolve_left port⟩
    destinationAddress := ⟨_, addressSent.resolve_left text⟩ }

/-- A document that is sent faithfully to every device has all the keys. -/
theorem complete_of_faithful
    (selects : Selects json (JsonParser.getRoot json files path) sections msr4Channel)
    (faithful : ∀ sending ∈ sent (storingFirmware.serve (delivering fun _ => default))
        ⟨fun _ => otherState sections.stream sections.channel, 0⟩
        (IqClient.create.setMSR4ByJson json files path),
      FromDocument conversions (JsonParser.getRoot json files path) sending.current
        sending.setting) :
    Complete conversions (JsonParser.getRoot json files path) := by
  obtain ⟨configured, -, -, sends⟩ := @performs_configuration storingFirmware
    (fun _ => default) (fun _ => otherState sections.stream sections.channel) .create msr4Channel
    json files path sections (fun _ => rfl) selects
  rw [sends] at faithful
  exact complete_of_otherState faithful

/-- For every device a configuration sends only what the document contains, or leaves
fields as they are, exactly when the document cannot be read or selects no channel, or
has integers and a text at all the keys whose values are sent. -/
theorem sends_fromDocument_iff (conversions : Conversions json) (files : String → Option String)
    (path : String) :
    (∀ (firmware : Firmware) (answers : Nat → ErrorMessage) (device : Device) (client : IqClient),
      Succeeding answers → ∀ sending ∈ sent (firmware.serve (delivering answers)) ⟨device, 0⟩
        (client.setMSR4ByJson json files path),
      FromDocument conversions (JsonParser.getRoot json files path) sending.current
        sending.setting) ↔
    ((∃ sections msr4Channel,
        Selects json (JsonParser.getRoot json files path) sections msr4Channel) →
      Complete conversions (JsonParser.getRoot json files path)) := by
  constructor
  · rintro faithful ⟨sections, msr4Channel, selects⟩
    exact complete_of_faithful selects (faithful storingFirmware (fun _ => default)
      (fun _ => otherState sections.stream sections.channel) .create fun _ => rfl)
  · intro complete firmware answers device client succeed
    by_cases selecting : ∃ sections msr4Channel,
      Selects json (JsonParser.getRoot json files path) sections msr4Channel
    · have keys := complete selecting
      obtain ⟨sections, msr4Channel, selects⟩ := selecting
      obtain ⟨-, -, streamRead, channelRead⟩ := readSections_ok_iff.mp selects.read
      obtain ⟨configured, -, -, sends⟩ := @performs_configuration firmware answers device client
        msr4Channel json files path sections succeed selects
      rw [sends]
      exact storing_forall _ (keys.edits_fromDocument streamRead channelRead _)
    · obtain ⟨thrown, performs⟩ := @performs_nothing firmware answers device client json files
        path fun sections msr4Channel selects => selecting ⟨sections, msr4Channel, selects⟩
      rw [(performs .Rx1).sends]
      intro sending member
      cases member

theorem complete_fullDocument (text : String) (sections : Sections) :
    Complete (rangedConversions text (fullDocument sections)) (fullDocument sections) := by
  constructor
  all_goals
    refine ⟨_, _, _, ⟨rfl, rfl⟩, rfl, ?_, rfl⟩
    intro absent
    cases absent

theorem example_sends_fromDocument :
    Complete (rangedConversions "" exampleDocument) exampleDocument ∧
    ∀ sending ∈ sent (storingFirmware.serve (delivering fun _ => default)) ⟨streamingDevice, 0⟩
        (IqClient.create.setMSR4ByJson (rangedLibrary "" exampleDocument) (fun _ => some "")
          "configFiles/example.json"),
      FromDocument (rangedConversions "" exampleDocument) exampleDocument sending.current
        sending.setting := by
  have complete : Complete (rangedConversions "" exampleDocument) exampleDocument :=
    complete_fullDocument "" (exampleSections 1 "HRZR")
  have faithful := (sends_fromDocument_iff (rangedConversions "" exampleDocument)
    (fun _ => some "") "configFiles/example.json").mpr
  rw [getRoot_rangedLibrary] at faithful
  exact ⟨complete, faithful (fun _ => complete) storingFirmware (fun _ => default)
    streamingDevice .create fun _ => rfl⟩

/-- `configFiles/example.json` without the carrier's frequency, which the schema does not
require. -/
def carrierlessDocument : Document := .object [
  ("LoginSettings", .object [
    ("Ip", .string "some.device.net"), ("User", .string "user"),
    ("Password", .string "password")]),
  ("RxChannelSettings", .object [("RxChannel", .int 1)]),
  ("StreamingSettings", .object [
    ("DownFrequency", .int 0), ("BandwidthByAnalysisBandwidth", .int 194100000)]),
  ("ChannelSettings", .object [
    ("Port", .int 5001), ("DestinationAddress", .string "127.0.0.1"),
    ("Protocol", .string "HRZR")])]

/-- On a device with other settings the absent frequency is set to 0. -/
theorem absent_frequency_sent_as_zero :
    ¬ ∀ sending ∈ sent (storingFirmware.serve (delivering fun _ => default))
        ⟨fun _ => otherState ⟨0, 0, 194100000⟩ ⟨5001, "127.0.0.1", "HRZR"⟩, 0⟩
        (IqClient.create.setMSR4ByJson (rangedLibrary "" carrierlessDocument)
          (fun _ => some "") "carrierless.json"),
      FromDocument (rangedConversions "" carrierlessDocument)
        (JsonParser.getRoot (rangedLibrary "" carrierlessDocument) (fun _ => some "")
          "carrierless.json") sending.current sending.setting := by
  intro faithful
  have selects : Selects (rangedLibrary "" carrierlessDocument)
      (JsonParser.getRoot (rangedLibrary "" carrierlessDocument) (fun _ => some "")
        "carrierless.json") ⟨⟨"some.device.net", "user", "password"⟩, ⟨1⟩, ⟨0, 0, 194100000⟩,
        ⟨5001, "127.0.0.1", "HRZR"⟩⟩ .Rx1 := by
    rw [getRoot_rangedLibrary]
    exact ⟨rfl, rfl⟩
  have complete := complete_of_faithful selects faithful
  rw [getRoot_rangedLibrary] at complete
  obtain ⟨n, settings, member, has, found, present, -⟩ := complete.satFrequency
  have streaming : settings = .object [("DownFrequency", .int 0),
      ("BandwidthByAnalysisBandwidth", .int 194100000)] := Except.ok.inj has.get.symm
  rw [streaming] at found
  exact present (Except.ok.inj found.symm)

end JerryDriver.IqClient
