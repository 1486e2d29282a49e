import JerryDriver.IqClient.SucceedingCalls

/-! Configurations that the driver does not support: a channel outside the four, or a
protocol other than HRZR. The channel is looked at before the first setter, the protocol
only behind the last one, so an unsupported protocol is refused after everything else
has been written. -/
namespace JerryDriver.IqClient
open Interaction Program

/-- What can be read back from every channel is as it was. -/
structure Unchanged (before after : Device) : Prop where
  udp : ∀ msr4Channel, (after msr4Channel).udp = (before msr4Channel).udp
  rf : ∀ msr4Channel, (after msr4Channel).channel.rf = (before msr4Channel).channel.rf
  bandwidth : ∀ msr4Channel,
    (after msr4Channel).channel.bandwidth = (before msr4Channel).channel.bandwidth

/-- The channel does not stream and has the document's settings, so that writing them
makes no difference. -/
structure AlreadySet (firmware : Firmware) (stream : JsonParser.StreamingStruct)
    (channel : JsonParser.ChannelStruct) (state : ChannelState) : Prop where
  isStreaming : state.udp.isStreaming = false
  port : state.udp.port = channel.port
  destinationAddress : state.udp.destinationAddress = channel.destinationAddress
  rf : state.channel.rf = ⟨stream.satFrequency, stream.downFrequency⟩
  bandwidth : state.channel.bandwidth =
    ⟨firmware.sampleRateHzOf stream.bandwithByAnalysisBandwidth,
      stream.bandwithByAnalysisBandwidth⟩

variable {firmware : Firmware} {answers : Nat → ErrorMessage} {device : Device}
  {client : IqClient} {json : JsonLibrary} {files : String → Option String} {path : String}
  {sections : Sections} {msr4Channel : MSR4Channel} {stream : JsonParser.StreamingStruct}
  {channel : JsonParser.ChannelStruct}

theorem Unchanged.refl (device : Device) : Unchanged device device :=
  ⟨fun _ => rfl, fun _ => rfl, fun _ => rfl⟩

theorem unchanged_update_iff (state : ChannelState) :
    Unchanged device (Function.update device msr4Channel state) ↔
      state.udp = (device msr4Channel).udp ∧
      state.channel.rf = (device msr4Channel).channel.rf ∧
      state.channel.bandwidth = (device msr4Channel).channel.bandwidth := by
  constructor
  · intro unchanged
    have udp := unchanged.udp msr4Channel
    have rf := unchanged.rf msr4Channel
    have bandwidth := unchanged.bandwidth msr4Channel
    rw [Function.update_self] at udp rf bandwidth
    exact ⟨udp, rf, bandwidth⟩
  · rintro ⟨udp, rf, bandwidth⟩
    have same (other : MSR4Channel) (elsewhere : other ≠ msr4Channel) :
        Function.update device msr4Channel state other = device other :=
      Function.update_of_ne elsewhere ..
    constructor <;> intro other <;> by_cases here : other = msr4Channel
    · rw [here, Function.update_self, udp]
    · rw [same other here]
    · rw [here, Function.update_self, rf]
    · rw [same other here]
    · rw [here, Function.update_self, bandwidth]
    · rw [same other here]

/-- Writing a configuration of another protocol is without effect only where all of it
is set already. -/
theorem written_same_iff (other : channel.protocol ≠ "HRZR") (state : ChannelState) :
    ((written firmware stream channel state).udp = state.udp ∧
      (written firmware stream channel state).channel.rf = state.channel.rf ∧
      (written firmware stream channel state).channel.bandwidth = state.channel.bandwidth) ↔
      AlreadySet firmware stream channel state := by
  constructor
  · rintro ⟨udp, rf, bandwidth⟩
    exact {
      isStreaming := by rw [← udp, written_isStreaming]
      port := congrArg UdpSetting.port udp.symm
      destinationAddress := congrArg UdpSetting.destinationAddress udp.symm
      rf := rf.symm
      bandwidth := bandwidth.symm }
  · intro already
    refine ⟨?_, already.rf.symm, already.bandwidth.symm⟩
    simp only [written, other, already.isStreaming, ← already.port,
      ← already.destinationAddress, if_false, Bool.false_eq_true]

/-- Asked for by itself the protocol is refused before the first call. -/
theorem setProtocol_ammos {W : Type} (server : W → (request : Request) → Reply request.Message × W)
    (before : W) (client : IqClient) :
    (∃ thrown, run server before (client.setProtocol .AMMOS) = (.error thrown, before)) ∧
      trace server before (client.setProtocol .AMMOS) = [] :=
  ⟨⟨_, rfl⟩, rfl⟩

/-- How an unsupported configuration ends and what it leaves behind. -/
theorem run_unsupported (succeed : Succeeding answers)
    (selects : Selects json (JsonParser.getRoot json files path) sections msr4Channel)
    (other : sections.channel.protocol ≠ "HRZR") :
    ∃ thrown calls, run (firmware.serve (delivering answers)) ⟨device, 0⟩
        (client.setMSR4ByJson json files path) =
      (.error thrown, ⟨Function.update device msr4Channel
        (written firmware sections.stream sections.channel (device msr4Channel)), calls⟩) := by
  obtain ⟨configured, -, ⟨calls, ran⟩, -⟩ := performs_configuration succeed selects
  rw [store_configurationEdits, ending, if_neg other] at ran
  exact ⟨_, calls, ran⟩

/-- On a channel that the document selects the device is left unchanged only where it has
all of the settings. -/
theorem unchanged_iff_alreadySet (succeed : Succeeding answers)
    (selects : Selects json (JsonParser.getRoot json files path) sections msr4Channel)
    (other : sections.channel.protocol ≠ "HRZR") :
    Unchanged device (run (firmware.serve (delivering answers)) ⟨device, 0⟩
        (client.setMSR4ByJson json files path)).2.device ↔
      AlreadySet firmware sections.stream sections.channel (device msr4Channel) := by
  obtain ⟨thrown, calls, ran⟩ := @run_unsupported firmware answers device client json files path
    sections msr4Channel succeed selects other
  rw [ran, unchanged_update_iff, written_same_iff other]

/-- A configuration that is not supported throws. It leaves the device unchanged exactly
when it selects no channel, or one on which all of its settings are set already. -/
theorem unsupported_refused_iff (json : JsonLibrary) (files : String → Option String)
    (path : String) (firmware : Firmware) (answers : Nat → ErrorMessage) (device : Device)
    (client : IqClient) (succeed : Succeeding answers)
    (unsupported : ∀ sections, readSections json (JsonParser.getRoot json files path) =
      .ok sections → selected sections.rxChannel.rxChannel = none ∨
        sections.channel.protocol ≠ "HRZR") :
    ((∃ thrown, (run (firmware.serve (delivering answers)) ⟨device, 0⟩
        (client.setMSR4ByJson json files path)).1 = .error thrown) ∧
      Unchanged device (run (firmware.serve (delivering answers)) ⟨device, 0⟩
        (client.setMSR4ByJson json files path)).2.device ↔
      ∀ sections msr4Channel,
        Selects json (JsonParser.getRoot json files path) sections msr4Channel →
        AlreadySet firmware sections.stream sections.channel (device msr4Channel)) ∧
    (∃ thrown, run (firmware.serve (delivering answers)) ⟨device, 0⟩
        (client.setProtocol .AMMOS) = (.error thrown, ⟨device, 0⟩)) ∧
      trace (firmware.serve (delivering answers)) ⟨device, 0⟩ (client.setProtocol .AMMOS) = [] := by
  refine ⟨?_, setProtocol_ammos _ _ client⟩
  by_cases selecting : ∃ sections msr4Channel,
    Selects json (JsonParser.getRoot json files path) sections msr4Channel
  · obtain ⟨sections, msr4Channel, selects⟩ := selecting
    have other : sections.channel.protocol ≠ "HRZR" := by
      rcases unsupported sections selects.read with none | other
      · rw [selects.selected] at none
        contradiction
      · exact other
    rw [unchanged_iff_alreadySet succeed selects other]
    constructor
    · rintro ⟨-, already⟩ again otherChannel same
      cases Except.ok.inj (selects.read.symm.trans same.read)
      cases Option.some.inj (selects.selected.symm.trans same.selected)
      exact already
    · intro already
      obtain ⟨thrown, calls, ran⟩ := run_unsupported succeed selects other
      exact ⟨⟨thrown, congrArg Prod.fst ran⟩, already sections msr4Channel selects⟩
  · have unselected : ∀ sections msr4Channel,
        ¬ Selects json (JsonParser.getRoot json files path) sections msr4Channel :=
      fun sections msr4Channel selects => selecting ⟨sections, msr4Channel, selects⟩
    obtain ⟨thrown, performs⟩ := performs_nothing unselected
    obtain ⟨calls, ran⟩ := (performs .Rx1).ran
    rw [store, List.foldl_nil, Function.update_eq_self] at ran
    rw [ran]
    exact iff_of_true ⟨⟨thrown, rfl⟩, .refl device⟩
      fun sections msr4Channel selects => absurd selects (unselected sections msr4Channel)

theorem channel_zero_refused :
    (∃ thrown, (run (storingFirmware.serve (delivering fun _ => default)) ⟨streamingDevice, 0⟩
      (IqClient.create.setMSR4ByJson
        (Document.library "" (fullDocument (exampleSections 0 "HRZR"))) (fun _ => some "")
        "zero.json")).1 = .error thrown) ∧
    Unchanged streamingDevice (run (storingFirmware.serve (delivering fun _ => default))
      ⟨streamingDevice, 0⟩ (IqClient.create.setMSR4ByJson
        (Document.library "" (fullDocument (exampleSections 0 "HRZR"))) (fun _ => some "")
        "zero.json")).2.device := by
  have reads : ∀ sections,
      readSections (Document.library "" (fullDocument (exampleSections 0 "HRZR")))
      (JsonParser.getRoot (Document.library "" (fullDocument (exampleSections 0 "HRZR")))
        (fun _ => some "") "zero.json") = .ok sections → sections = exampleSections 0 "HRZR" := by
    intro sections read
    rw [getRoot_library, readSections_fullDocument] at read
    exact (Except.ok.inj read).symm
  refine (unsupported_refused_iff _ _ _ storingFirmware (fun _ => default) streamingDevice .create
    (fun _ => rfl) ?_).1.mpr ?_
  · intro sections read
    rw [reads sections read]
    exact .inl rfl
  · rintro sections msr4Channel ⟨read, selects⟩
    rw [reads sections read] at selects
    cases selects

/-- A document for AMMOS stops a stream before it is refused. -/
theorem ammos_refused_after_stop :
    ¬ Unchanged streamingDevice (run (storingFirmware.serve (delivering fun _ => default))
      ⟨streamingDevice, 0⟩ (IqClient.create.setMSR4ByJson
        (Document.library "" (fullDocument (exampleSections 1 "AMMOS"))) (fun _ => some "")
        "ammos.json")).2.device := by
  have selects : Selects (Document.library "" (fullDocument (exampleSections 1 "AMMOS")))
      (JsonParser.getRoot (Document.library "" (fullDocument (exampleSections 1 "AMMOS")))
        (fun _ => some "") "ammos.json") (exampleSections 1 "AMMOS") .Rx1 := by
    rw [getRoot_library]
    exact ⟨rfl, rfl⟩
  rw [unchanged_iff_alreadySet (fun _ => rfl) selects (by decide)]
  intro already
  exact absurd already.isStreaming (by decide)

end JerryDriver.IqClient
