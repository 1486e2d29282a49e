import JerryDriver.IqClient.JsonContract
import JerryDriver.Library.Monitor

/-! A session of an `IqClient`: any of its methods in any order, with a device that answers
as it likes. The object keeps its address, credentials and token from call to call, and a
configuration that throws leaves behind what it had set until then. -/
namespace JerryDriver.IqClient
open Interaction Program

/-- The methods that make calls and leave the object as it is. -/
inductive Method where
  | setPort (port : Int)
  | setDestinationAddress (destinationAddress : String)
  | setProtocol (protocol : Protocols)
  | setStreamingStatus (status : Bool)
  | setSatFrequencyHz (satFrequencyHz : ℚ)
  | setDownFrequencyHz (downFrequencyHz : ℚ)
  | setBandwidthBySampleRate (sampleRateHz : ℚ)
  | setBandwidthByAnalysisBandwidth (analysisBandwidthHz : ℚ)
  | getPort
  | getDestinationAddress
  | getProtocol
  | getStreamingStatus
  | getSatFrequencyHz
  | getDownFrequencyHz
  | getSampleRate
  | getAnalysisBandwidth

def dropped {α : Type} (calls : Calls α) : Calls Unit := do
  let _ ← calls
  return ()

def Method.calls (client : IqClient) : Method → Calls Unit
  | .setPort port => dropped (client.setPort port)
  | .setDestinationAddress address => dropped (client.setDestinationAddress address)
  | .setProtocol protocol => dropped (client.setProtocol protocol)
  | .setStreamingStatus status => dropped (client.setStreamingStatus status)
  | .setSatFrequencyHz frequency => dropped (client.setSatFrequencyHz frequency)
  | .setDownFrequencyHz frequency => dropped (client.setDownFrequencyHz frequency)
  | .setBandwidthBySampleRate rate => dropped (client.setBandwidthBySampleRate rate)
  | .setBandwidthByAnalysisBandwidth bandwidth =>
    dropped (client.setBandwidthByAnalysisBandwidth bandwidth)
  | .getPort => dropped client.getPort
  | .getDestinationAddress => dropped client.getDestinationAddress
  | .getProtocol => dropped client.getProtocol
  | .getStreamingStatus => dropped client.getStreamingStatus
  | .getSatFrequencyHz => dropped client.getSatFrequencyHz
  | .getDownFrequencyHz => dropped client.getDownFrequencyHz
  | .getSampleRate => dropped client.getSampleRate
  | .getAnalysisBandwidth => dropped client.getAnalysisBandwidth

inductive Command where
  | setMSR4Credentials (name password : String)
  | setMSR4Ip (ip : String)
  | setRxChannel (rx : MSR4Channel)
  | msr4Login
  | method (method : Method)
  | setMSR4ByJson (path : String)

abbrev History := List (Event Request fun request => Reply request.Message)

abbrev Answers := History → (request : Request) → Reply request.Message

structure Session where
  client : IqClient
  history : History

variable (json : JsonLibrary) (files : String → Option String) (answers : Answers)

def setToken (client : IqClient) (token : JsonWebToken) : IqClient :=
  { client with grpcClient := { client.grpcClient with token } }

def loginRequest (client : IqClient) : Request :=
  .login (client.grpcClient.ip ++ ":50060") client.grpcClient.creds

/-- A failed login leaves the token as it was. -/
def loggedIn (client : IqClient) : Reply JsonWebToken → IqClient
  | .delivered token => client.setToken token
  | .failed _ => client

/-- The object after `SetMSR4ByJson`, whether it returned or threw. -/
def objectAfter (client : IqClient) (path : String) (history : History) : IqClient :=
  match readSections json (JsonParser.getRoot json files path) with
  | .error _ => client
  | .ok sections =>
    let client := client.setMSR4Credentials sections.login.user sections.login.password
    let client := client.setMSR4Ip sections.login.ip
    let reply := answers history (loginRequest client)
    let client := loggedIn client reply
    if reply.status.ok then
      (selected sections.rxChannel.rxChannel).elim client client.setRxChannel
    else client

def Session.perform (session : Session) : Command → Session
  | .setMSR4Credentials name password =>
    { session with client := session.client.setMSR4Credentials name password }
  | .setMSR4Ip ip => { session with client := session.client.setMSR4Ip ip }
  | .setRxChannel rx => { session with client := session.client.setRxChannel rx }
  | .msr4Login =>
    match run (recording answers) session.history session.client.msr4Login with
    | (.ok (_, client), history) => ⟨client, history⟩
    | (.error _, history) => { session with history }
  | .method method =>
    { session with
        history := (run (recording answers) session.history (method.calls session.client)).2 }
  | .setMSR4ByJson path =>
    ⟨objectAfter json files answers session.client path session.history,
      (run (recording answers) session.history
        (session.client.setMSR4ByJson json files path)).2⟩

def Session.after (commands : List Command) : Session :=
  commands.foldl (Session.perform json files answers) ⟨.create, []⟩

/-! ## What a session goes by -/

/-- The token that a reply delivers. -/
def issued : (request : Request) → Reply request.Message → Option JsonWebToken
  | .login _ _, .delivered token => some token
  | .login _ _, .failed _ => none
  | .getChannelSetting _, _ | .getUDPSetting _, _ | .set _ _, _ => none

/-- The token of the last login that was delivered; none has been at first. -/
def lastToken (history : History) : JsonWebToken :=
  history.foldl (fun token event => (issued event.1 event.2).getD token) ⟨""⟩

/-- The address that a document gives, or a call of `SetMSR4Ip`. -/
def Command.ip (ip : String) : Command → String
  | .setMSR4Ip ip => ip
  | .setMSR4ByJson path =>
    match readSections json (JsonParser.getRoot json files path) with
    | .error _ => ip
    | .ok sections => sections.login.ip
  | _ => ip

def Command.creds (creds : Credentials) : Command → Credentials
  | .setMSR4Credentials name password => ⟨name, password⟩
  | .setMSR4ByJson path =>
    match readSections json (JsonParser.getRoot json files path) with
    | .error _ => creds
    | .ok sections => ⟨sections.login.user, sections.login.password⟩
  | _ => creds

/-- The login goes to its port with the credentials; every other call goes to the selected
channel with the token. -/
def Addressed (client : IqClient) (token : JsonWebToken) : Request → Prop
  | .login address creds =>
    address = client.grpcClient.ip ++ ":50060" ∧ creds = client.grpcClient.creds
  | .getChannelSetting stub | .getUDPSetting stub | .set stub _ =>
    stub = ⟨client.grpcClient.ip, client.msr4Channel, token⟩

def addressing (client : IqClient) :
    Monitor JsonWebToken Request fun request => Reply request.Message where
  Allows token request := Addressed client token request
  next token request reply := (issued request reply).getD token

theorem follow_lastToken (client : IqClient) (history events : History) :
    (addressing client).follow (lastToken history) events = lastToken (history ++ events) :=
  List.foldl_append.symm

/-! ## The methods -/

/-- A call to the selected channel. -/
def From (client : IqClient) : Request → Prop
  | .login _ _ => False
  | .getChannelSetting stub | .getUDPSetting stub | .set stub _ =>
    stub = client.grpcClient.generateStub client.msr4Channel

variable {client : IqClient} {json : JsonLibrary} {files : String → Option String}
  {answers : Answers} {α : Type}

theorem callSetter_from (setting : Setting) :
    (client.grpcClient.callSetter client.msr4Channel setting).Requests (From client) :=
  requests_bind (requests_request rfl) fun _ => trivial

theorem modifyUdpSetting_from (edit : UdpSetting → UdpSetting) :
    (client.modifyUdpSetting edit).Requests (From client) :=
  requests_bind (requests_bind (requests_request rfl) fun _ => trivial) fun _ => callSetter_from _

theorem modifyRfSetting_from (edit : RFSetting → RFSetting) :
    (client.modifyRfSetting edit).Requests (From client) :=
  requests_bind (requests_bind (requests_request rfl) fun _ => trivial) fun _ => callSetter_from _

theorem readUdpSetting_from (field : UdpSetting → α) :
    (client.readUdpSetting field).Requests (From client) :=
  requests_bind (requests_bind (requests_request rfl) fun _ => trivial) fun _ => trivial

theorem readChannelSetting_from (field : ChannelSetting → α) :
    (client.readChannelSetting field).Requests (From client) :=
  requests_bind (requests_bind (requests_request rfl) fun _ => trivial) fun _ => trivial

theorem dropped_requests {P : Request → Prop} {calls : Calls α} (permitted : calls.Requests P) :
    (dropped calls).Requests P :=
  requests_bind permitted fun _ => trivial

theorem method_from (method : Method) : (method.calls client).Requests (From client) := by
  cases method with
  | setProtocol protocol =>
    refine dropped_requests ?_
    unfold setProtocol
    split
    · trivial
    · exact modifyUdpSetting_from _
  | setPort _ | setDestinationAddress _ | setStreamingStatus _ =>
    exact dropped_requests (modifyUdpSetting_from _)
  | setSatFrequencyHz _ | setDownFrequencyHz _ => exact dropped_requests (modifyRfSetting_from _)
  | setBandwidthBySampleRate _ | setBandwidthByAnalysisBandwidth _ =>
    exact dropped_requests (callSetter_from _)
  | getPort | getDestinationAddress | getProtocol | getStreamingStatus =>
    exact dropped_requests (readUdpSetting_from _)
  | getSatFrequencyHz | getDownFrequencyHz | getSampleRate | getAnalysisBandwidth =>
    exact dropped_requests (readChannelSetting_from _)

theorem configureChannel_from (stream : JsonParser.StreamingStruct)
    (channel : JsonParser.ChannelStruct) :
    (client.configureChannel stream channel).Requests (From client) := by
  have stops : client.stopStreaming.Requests (From client) := by
    refine requests_bind (readUdpSetting_from _) fun streaming => ?_
    split
    · exact unchecked_requests (modifyUdpSetting_from _)
    · trivial
  have sets : (client.setSettings stream channel).Requests (From client) :=
    requests_bind (checked_requests (modifyRfSetting_from _)) fun _ =>
      requests_bind (checked_requests (modifyRfSetting_from _)) fun _ =>
      requests_bind (checked_requests (callSetter_from _)) fun _ =>
      requests_bind (checked_requests (modifyUdpSetting_from _)) fun _ =>
      checked_requests (modifyUdpSetting_from _)
  have names : (client.setProtocolByName channel.protocol).Requests (From client) := by
    unfold setProtocolByName
    split
    · exact unchecked_requests (modifyUdpSetting_from _)
    · trivial
  exact requests_bind stops fun _ => requests_bind sets fun _ => requests_bind names
    fun _ => trivial

/-- Calls to the selected channel extend the history by requests that are addressed well,
and leave the token. -/
theorem run_from {program : Calls α} (permitted : program.Requests (From client))
    {history : History} (token : client.grpcClient.token = lastToken history) :
    ∃ events, (run (recording answers) history program).2 = history ++ events ∧
      (addressing client).Accepts (lastToken history) events ∧
      lastToken (history ++ events) = lastToken history := by
  have allowed (request : Request) (from_ : From client request) :
      (addressing client).Allows (lastToken history) request := by
    cases request with
    | login address creds => exact from_.elim
    | getChannelSetting stub | getUDPSetting stub | set stub setting =>
      change stub = client.grpcClient.generateStub client.msr4Channel at from_
      change stub = ⟨client.grpcClient.ip, client.msr4Channel, lastToken history⟩
      rw [from_, ← token, GrpcClient.generateStub]
  have stays (request : Request) (reply : Reply request.Message) (from_ : From client request) :
      (addressing client).next (lastToken history) request reply = lastToken history := by
    cases request with
    | login address creds => exact from_.elim
    | getChannelSetting stub | getUDPSetting stub | set stub setting => rfl
  obtain ⟨events, extended, accepts, ended⟩ :=
    (keeps_of_requests permitted allowed stays).run answers history
  refine ⟨events, extended, accepts, ?_⟩
  rw [← follow_lastToken client]
  cases result : (run (recording answers) history program).1 with
  | ok value => rwa [result] at ended
  | error thrown => rwa [result] at ended

/-! ## The login -/

theorem run_msr4Login (history : History) :
    run (recording answers) history client.msr4Login =
      (.ok ((answers history (loginRequest client)).status,
          loggedIn client (answers history (loginRequest client))),
        history ++ [⟨loginRequest client, answers history (loginRequest client)⟩]) := by
  rw [msr4Login, GrpcClient.msr4Login, run_bind, run_bind, run_request]
  simp only [recording, loginRequest]
  cases answers history (.login (client.grpcClient.ip ++ ":50060") client.grpcClient.creds) <;> rfl

theorem loggedIn_token {history : History} (token : client.grpcClient.token = lastToken history)
    (reply : Reply JsonWebToken) : (loggedIn client reply).grpcClient.token =
      lastToken (history ++ [⟨loginRequest client, reply⟩]) := by
  have last : lastToken (history ++ [⟨loginRequest client, reply⟩]) =
      (issued (loginRequest client) reply).getD (lastToken history) := by
    rw [lastToken, List.foldl_append]
    rfl
  rw [last]
  cases reply with
  | delivered issued => rfl
  | failed failure => exact token

/-- What one command leaves behind: the last token, and requests addressed as the object
is then. -/
structure Goes (history : History) (after : Session) : Prop where
  token : after.client.grpcClient.token = lastToken after.history
  events : ∃ events, after.history = history ++ events ∧
    (addressing after.client).Accepts (lastToken history) events

theorem addressed_login (reply : Reply JsonWebToken) (token : JsonWebToken) :
    Addressed (loggedIn client reply) token (loginRequest client) := by
  cases reply <;> exact ⟨rfl, rfl⟩

/-- A login alone, in whatever object it leaves with the same address and credentials. -/
theorem goes_login {history : History} (token : client.grpcClient.token = lastToken history)
    (reply : Reply JsonWebToken) :
    Goes history ⟨loggedIn client reply, history ++ [⟨loginRequest client, reply⟩]⟩ := by
  exact ⟨loggedIn_token token reply, [⟨loginRequest client, reply⟩], rfl,
    addressed_login reply (lastToken history), trivial⟩

theorem run_jsonLogin (login : JsonParser.LoginStruct) (history : History) {user : IqClient}
    (named : (client.setMSR4Credentials login.user login.password).setMSR4Ip login.ip = user) :
    run (recording answers) history (client.login login) =
      (if (answers history (loginRequest user)).status.ok then
          .ok (loggedIn user (answers history (loginRequest user)))
        else .error (.invalidValueError "Invalid login."),
        history ++ [⟨loginRequest user, answers history (loginRequest user)⟩]) := by
  rw [IqClient.login]
  simp only [named]
  rw [run_bind, run_msr4Login]
  simp only
  split <;> rfl

theorem goes_json (path : String) {history : History}
    (token : client.grpcClient.token = lastToken history) :
    Goes history ⟨objectAfter json files answers client path history,
      (run (recording answers) history (client.setMSR4ByJson json files path)).2⟩ := by
  rw [setMSR4ByJson_eq, objectAfter]
  cases readSections json (JsonParser.getRoot json files path) with
  | error thrown => exact ⟨token, [], (List.append_nil history).symm, trivial⟩
  | ok sections =>
    simp only [ofExcept_ok_bind]
    generalize named : (client.setMSR4Credentials sections.login.user
      sections.login.password).setMSR4Ip sections.login.ip = user
    have kept : user.grpcClient.token = lastToken history := by
      rw [← named]
      exact token
    have login := @run_jsonLogin client answers sections.login history user named
    have goes := goes_login kept (answers history (loginRequest user))
    generalize answers history (loginRequest user) = reply at login goes ⊢
    by_cases accepted : reply.status.ok
    · rw [if_pos accepted] at login ⊢
      rw [run_bind_ok _ login, selectRxChannel_eq]
      cases selected sections.rxChannel.rxChannel with
      | none => exact goes
      | some msr4Channel =>
        have last : ((loggedIn user reply).setRxChannel msr4Channel).grpcClient.token =
            lastToken (history ++ [⟨loginRequest user, reply⟩]) := goes.token
        obtain ⟨events, extended, accepts, same⟩ := @run_from _ answers _ _
          (configureChannel_from sections.stream sections.channel) _ last
        have begins : (addressing ((loggedIn user reply).setRxChannel msr4Channel)).Accepts
            (lastToken history) [⟨loginRequest user, reply⟩] :=
          ⟨addressed_login reply (lastToken history), trivial⟩
        have all : (addressing ((loggedIn user reply).setRxChannel msr4Channel)).Accepts
            (lastToken history) ([⟨loginRequest user, reply⟩] ++ events) := by
          refine begins.append ?_
          rw [follow_lastToken]
          exact accepts
        rw [List.append_assoc] at extended
        rw [List.append_assoc, ← extended] at same
        exact ⟨last.trans same.symm, _, extended, all⟩
    · rw [if_neg accepted] at login ⊢
      rw [run_bind_error _ login]
      exact goes

theorem run_bind_returned {program : Calls α} {β : Type} {f : α → Calls β} {history : History}
    {result : β} (returned : (run (recording answers) history (program >>= f)).1 = .ok result) :
    ∃ value after, (run (recording answers) after (f value)).1 = .ok result := by
  rw [run_bind] at returned
  cases first : run (recording answers) history program with
  | mk ended after =>
    cases ended with
    | ok value =>
      rw [first] at returned
      exact ⟨value, after, returned⟩
    | error thrown =>
      rw [first] at returned
      contradiction

theorem configureChannel_returned {stream : JsonParser.StreamingStruct}
    {channel : JsonParser.ChannelStruct} {history : History} {after : IqClient}
    (returned : (run (recording answers) history (client.configureChannel stream channel)).1 =
      .ok after) : client = after := by
  rw [configureChannel] at returned
  obtain ⟨_, _, settings⟩ := run_bind_returned returned
  obtain ⟨_, _, protocol⟩ := run_bind_returned settings
  obtain ⟨_, _, ends⟩ := run_bind_returned protocol
  exact Except.ok.inj ends

/-- Where `SetMSR4ByJson` returns, the object it leaves is the one it returns. -/
theorem objectAfter_returned {path : String} {history : History} {after : IqClient}
    (returned : (run (recording answers) history (client.setMSR4ByJson json files path)).1 =
      .ok after) : objectAfter json files answers client path history = after := by
  rw [setMSR4ByJson_eq] at returned
  rw [objectAfter]
  cases read : readSections json (JsonParser.getRoot json files path) with
  | error thrown =>
    rw [read] at returned
    contradiction
  | ok sections =>
    rw [read, ofExcept_ok_bind] at returned
    simp only
    generalize named : (client.setMSR4Credentials sections.login.user
      sections.login.password).setMSR4Ip sections.login.ip = user
    have login := @run_jsonLogin client answers sections.login history user named
    generalize answers history (loginRequest user) = reply at login ⊢
    by_cases accepted : reply.status.ok
    · rw [if_pos accepted] at login ⊢
      rw [run_bind_ok _ login, selectRxChannel_eq] at returned
      cases chosen : selected sections.rxChannel.rxChannel with
      | none =>
        rw [chosen] at returned
        contradiction
      | some msr4Channel =>
        rw [chosen] at returned
        exact configureChannel_returned returned
    · rw [if_neg accepted] at login
      rw [run_bind_error _ login] at returned
      contradiction

/-! ## Sessions -/

theorem perform_goes {session : Session}
    (token : session.client.grpcClient.token = lastToken session.history) (command : Command) :
    Goes session.history (session.perform json files answers command) := by
  cases command with
  | setMSR4Credentials _ _ | setMSR4Ip _ | setRxChannel _ =>
    exact ⟨token, [], (List.append_nil _).symm, trivial⟩
  | msr4Login =>
    simp only [Session.perform, run_msr4Login]
    exact goes_login token _
  | method method =>
    obtain ⟨events, extended, accepts, same⟩ :=
      @run_from session.client answers _ _ (method_from method) _ token
    exact ⟨token.trans (same.symm.trans (congrArg lastToken extended.symm)), events, extended,
      accepts⟩
  | setMSR4ByJson path => exact goes_json path token

/-- What a command makes of the address and the credentials, whatever is answered. -/
theorem perform_settings (session : Session) (command : Command) :
    (session.perform json files answers command).client.grpcClient.ip =
        command.ip json files session.client.grpcClient.ip ∧
      (session.perform json files answers command).client.grpcClient.creds =
        command.creds json files session.client.grpcClient.creds := by
  have kept (client : IqClient) (reply : Reply JsonWebToken) :
      (loggedIn client reply).grpcClient.ip = client.grpcClient.ip ∧
        (loggedIn client reply).grpcClient.creds = client.grpcClient.creds := by
    cases reply <;> exact ⟨rfl, rfl⟩
  cases command with
  | setMSR4Credentials _ _ | setMSR4Ip _ | setRxChannel _ | method _ => exact ⟨rfl, rfl⟩
  | msr4Login =>
    simp only [Session.perform, run_msr4Login]
    exact kept _ _
  | setMSR4ByJson path =>
    simp only [Session.perform, objectAfter, Command.ip, Command.creds]
    cases readSections json (JsonParser.getRoot json files path) with
    | error thrown => exact ⟨rfl, rfl⟩
    | ok sections =>
      simp only
      split
      · cases selected sections.rxChannel.rxChannel <;> exact kept _ _
      · exact kept _ _

theorem foldl_settings (session : Session) (commands : List Command) :
    (commands.foldl (Session.perform json files answers) session).client.grpcClient.ip =
        commands.foldl (Command.ip json files) session.client.grpcClient.ip ∧
      (commands.foldl (Session.perform json files answers) session).client.grpcClient.creds =
        commands.foldl (Command.creds json files) session.client.grpcClient.creds := by
  induction commands generalizing session with
  | nil => exact ⟨rfl, rfl⟩
  | cons command rest ih =>
    obtain ⟨ip, creds⟩ := @perform_settings json files answers session command
    obtain ⟨laterIp, laterCreds⟩ := ih (session.perform json files answers command)
    rw [ip] at laterIp
    rw [creds] at laterCreds
    exact ⟨laterIp, laterCreds⟩

theorem foldl_token {session : Session}
    (token : session.client.grpcClient.token = lastToken session.history)
    (commands : List Command) :
    (commands.foldl (Session.perform json files answers) session).client.grpcClient.token =
      lastToken (commands.foldl (Session.perform json files answers) session).history := by
  induction commands generalizing session with
  | nil => exact token
  | cons command rest ih => exact ih (perform_goes token command).token

variable (json files answers) in
/-- In every session, and whatever the device answers, the object's address and credentials
are the ones last given, by a call or by a document that could be read, and its token is the
last one issued. Each request of a command is addressed by them as they are after it. -/
theorem session_addressed (before : List Command) (command : Command) :
    let session := Session.after json files answers before
    let after := Session.after json files answers (before ++ [command])
    after.client.grpcClient.ip =
        (before ++ [command]).foldl (Command.ip json files) "" ∧
      after.client.grpcClient.creds =
        (before ++ [command]).foldl (Command.creds json files) ⟨"", ""⟩ ∧
      after.client.grpcClient.token = lastToken after.history ∧
      ∃ events, after.history = session.history ++ events ∧
        ∀ earlier event later, events = earlier ++ event :: later →
          Addressed after.client (lastToken (session.history ++ earlier)) event.1 := by
  obtain ⟨ip, creds⟩ := @foldl_settings json files answers ⟨.create, []⟩ (before ++ [command])
  have token : (Session.after json files answers before).client.grpcClient.token =
      lastToken (Session.after json files answers before).history :=
    @foldl_token json files answers ⟨.create, []⟩ rfl before
  have step : Session.after json files answers (before ++ [command]) =
      (Session.after json files answers before).perform json files answers command := by
    rw [Session.after, List.foldl_append]
    rfl
  have goes := @perform_goes json files answers _ token command
  rw [← step] at goes
  obtain ⟨events, extended, accepts⟩ := goes.events
  refine ⟨ip, creds, goes.token, events, extended, ?_⟩
  rintro earlier event later rfl
  have allowed := accepts.allows
  rwa [follow_lastToken] at allowed

end JerryDriver.IqClient
