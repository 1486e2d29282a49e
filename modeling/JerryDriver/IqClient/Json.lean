import JerryDriver.IqClient.Setters

/-! Configuration by a JSON document. Reading the document is pure and may throw; the
JSON library is given by what the parser asks of it. A missing section leaves the values
the structures are initialized with. -/
namespace JerryDriver
open Interaction

/-- The JSON library as far as it is used. `parseFromStream` tells whether it succeeded
and what the root value holds then. -/
structure JsonLibrary where
  Value : Type
  null : Value
  parseFromStream : String → Bool × Value
  isMember : Value → String → Except Thrown Bool
  get : Value → String → Value → Except Thrown Value
  asInt : Value → Except Thrown Int
  asString : Value → Except Thrown String

inductive Document where
  | null
  | int (value : Int)
  | string (value : String)
  | object (members : List (String × Document))

namespace Document

def isMember (key : String) : Document → Except Thrown Bool
  | .null => .ok false
  | .object members => .ok (members.lookup key).isSome
  | _ => .error (.jsonException "requires objectValue or nullValue")

def get (key : String) (defaultValue : Document) : Document → Except Thrown Document
  | .null => .ok defaultValue
  | .object members => .ok ((members.lookup key).getD defaultValue)
  | _ => .error (.jsonException "requires objectValue or nullValue")

def asInt : Document → Except Thrown Int
  | .null => .ok 0
  | .int value => .ok value
  | _ => .error (.jsonException "Value is not convertible to Int.")

def asString : Document → Except Thrown String
  | .null => .ok ""
  | .int value => .ok (toString value)
  | .string value => .ok value
  | .object _ => .error (.jsonException "Type is not convertible to string")

/-- The library in front of one text; any other it rejects. -/
def library (text : String) (document : Document) : JsonLibrary where
  Value := Document
  null := .null
  parseFromStream := fun content => if content = text then (true, document) else (false, .null)
  isMember := fun value key => isMember key value
  get := fun value key defaultValue => get key defaultValue value
  asInt := asInt
  asString := asString

end Document

namespace JsonParser

structure LoginStruct where
  ip : String
  user : String
  password : String

structure RxChannelStruct where
  rxChannel : Int

structure StreamingStruct where
  satFrequency : Int
  downFrequency : Int
  bandwithByAnalysisBandwidth : Int

structure ChannelStruct where
  port : Int
  destinationAddress : String
  protocol : String

variable (json : JsonLibrary)

/-- The messages about an unreadable file go to the console only. -/
def getRoot (files : String → Option String) (path : String) : json.Value :=
  match files path with
  | none => json.null
  | some content => (json.parseFromStream content).2

/-- A section's values, or the initial ones where the document has no such section. -/
def getStruct {α : Type} (root : json.Value) (section_ : String) (initial : α)
    (values : json.Value → Except Thrown α) : Except Thrown α := do
  if ← json.isMember root section_ then values (← json.get root section_ json.null)
  else return initial

def getInt (value : json.Value) (key : String) : Except Thrown Int := do
  json.asInt (← json.get value key json.null)

def getString (value : json.Value) (key : String) : Except Thrown String := do
  json.asString (← json.get value key json.null)

def getLoginStruct (root : json.Value) : Except Thrown LoginStruct :=
  getStruct json root "LoginSettings" ⟨"", "", ""⟩ fun loginSettings => do
    let ip ← getString json loginSettings "Ip"
    let user ← getString json loginSettings "User"
    let password ← getString json loginSettings "Password"
    return ⟨ip, user, password⟩

def getRxChannelStruct (root : json.Value) : Except Thrown RxChannelStruct :=
  getStruct json root "RxChannelSettings" ⟨-1⟩ fun rxChannelSettings => do
    let rxChannel ← getInt json rxChannelSettings "RxChannel"
    return ⟨rxChannel⟩

def getStreamStruct (root : json.Value) : Except Thrown StreamingStruct :=
  getStruct json root "StreamingSettings" ⟨-1, -1, -1⟩ fun streamingSettings => do
    let satFrequency ← getInt json streamingSettings "SatFrequency"
    let downFrequency ← getInt json streamingSettings "DownFrequency"
    let bandwith ← getInt json streamingSettings "BandwidthByAnalysisBandwidth"
    return ⟨satFrequency, downFrequency, bandwith⟩

def getChannelStruct (root : json.Value) : Except Thrown ChannelStruct :=
  getStruct json root "ChannelSettings" ⟨-1, "", ""⟩ fun channelSettings => do
    let port ← getInt json channelSettings "Port"
    let destinationAddress ← getString json channelSettings "DestinationAddress"
    let protocol ← getString json channelSettings "Protocol"
    return ⟨port, destinationAddress, protocol⟩

end JsonParser

namespace IqClient

/-- `err = ...; if (err.errorcode() != 0) throw InvalidValueError(err.errormessage());` -/
def checked (setter : Calls ErrorMessage) : Calls Unit := do
  let err ← setter
  if err.errorCode ≠ 0 then .throws (.invalidValueError err.errorMessage) else return ()

def unchecked (setter : Calls ErrorMessage) : Calls Unit := do
  let _ ← setter
  return ()

def selectRxChannel (client : IqClient) (rxChannel : Int) : Calls IqClient :=
  match rxChannel with
  | 1 => return client.setRxChannel .Rx1
  | 2 => return client.setRxChannel .Rx2
  | 3 => return client.setRxChannel .Rx3
  | 4 => return client.setRxChannel .Rx4
  | _ => .throws (.notImplementedException "Invalid channel. RxChannel only accepts \"[1-4]\"")

def login (client : IqClient) (login : JsonParser.LoginStruct) : Calls IqClient := do
  let client := client.setMSR4Credentials login.user login.password
  let client := client.setMSR4Ip login.ip
  let (status, client) ← client.msr4Login
  if status.ok then return client else .throws (.invalidValueError "Invalid login.")

def stopStreaming (client : IqClient) : Calls Unit := do
  if ← client.getStreamingStatus then unchecked (client.setStreamingStatus false)
  else return ()

def setSettings (client : IqClient) (stream : JsonParser.StreamingStruct)
    (channel : JsonParser.ChannelStruct) : Calls Unit := do
  checked (client.setSatFrequencyHz stream.satFrequency)
  checked (client.setDownFrequencyHz stream.downFrequency)
  checked (client.setBandwidthByAnalysisBandwidth stream.bandwithByAnalysisBandwidth)
  checked (client.setPort channel.port)
  checked (client.setDestinationAddress channel.destinationAddress)

def setProtocolByName (client : IqClient) (protocol : String) : Calls Unit :=
  if protocol = "HRZR" then unchecked (client.setProtocol .HRZR)
  else .throws (.notImplementedException "AMMOS Protocol not yet implemented.")

def configureChannel (client : IqClient) (stream : JsonParser.StreamingStruct)
    (channel : JsonParser.ChannelStruct) : Calls IqClient := do
  client.stopStreaming
  client.setSettings stream channel
  client.setProtocolByName channel.protocol
  return client

/-- The client that is returned is the object after the call. -/
def setMSR4ByJson (json : JsonLibrary) (files : String → Option String) (client : IqClient)
    (path : String) : Calls IqClient := do
  let root := JsonParser.getRoot json files path
  let login ← Program.ofExcept (JsonParser.getLoginStruct json root)
  let rxChannel ← Program.ofExcept (JsonParser.getRxChannelStruct json root)
  let stream ← Program.ofExcept (JsonParser.getStreamStruct json root)
  let channel ← Program.ofExcept (JsonParser.getChannelStruct json root)
  let client ← client.login login
  let client ← client.selectRxChannel rxChannel.rxChannel
  client.configureChannel stream channel

end IqClient
end JerryDriver
