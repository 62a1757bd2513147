import QuickplayServer.Configuration
import QuickplayServer.Net.RawPacket

/-!
# QuickplayServer.Net.Connectionless

The packets outside of any channel: the handshake and the server queries
(`src/net/connectionless.rs`).

Whether `send_to` works out is up to the socket, so a handler is a `Method`
over the datagrams sent so far.
-/

namespace QuickplayServer

def PROTOCOL_VERSION : Nat := 24
def AUTH_PROTOCOL_HASHEDCDKEY : Nat := 2

/-- `b"Source Engine Query\0"` -/
def A2S_INFO_QUERY_STRING : List UInt8 :=
  [83, 111, 117, 114, 99, 101, 32, 69, 110, 103, 105, 110, 101, 32, 81, 117, 101, 114, 121, 0]

/-- `b'9'` -/
def S2C_CONNREJECT : Nat := 0x39
/-- `b'A'` -/
def S2C_CHALLENGE : Nat := 0x41
/-- `b'B'` -/
def S2C_CONNECTION : Nat := 0x42
/-- `b'I'` -/
def S2A_INFO_SRC : Nat := 0x49
/-- `b'q'` -/
@[match_pattern] def A2S_GETCHALLENGE : Nat := 0x71
/-- `b'k'` -/
@[match_pattern] def C2S_CONNECT : Nat := 0x6b
/-- `b'T'` -/
@[match_pattern] def A2S_INFO : Nat := 0x54
/-- `b'U'` -/
@[match_pattern] def A2S_PLAYER : Nat := 0x55

def S2C_MAGICVERSION : Nat := 0x5a4f4933

/-- The `anyhow` errors of this file, with the values their texts print. -/
inductive ConnectionlessError where
  /-- `std::io::Error` of a bit reader or writer, or of the socket. -/
  | io
  /-- "mismatched server challenge: {} != {}" -/
  | mismatchedServerChallenge (serverChallenge expected : Nat)
  /-- "unexpected protocl version: {protocol_version}" -/
  | unexpectedProtocolVersion (protocolVersion : Nat)
  /-- "unexpected authentication protocol: {}" -/
  | unexpectedAuthenticationProtocol (authProtocol : Nat)
  /-- "query string isn't correct" -/
  | incorrectQueryString
  /-- "couldn't read challenge value" -/
  | noChallengeValue
  /-- "unexpected challenge" -/
  | unexpectedChallenge
  /-- "connectionless packet doesn't have any data" -/
  | noData
  /-- "unhandled connectionless packet type: {} ({:?})" -/
  | unhandledPacketType (command : Nat)
  deriving DecidableEq, Repr

instance : FromIo ConnectionlessError := ⟨.io⟩

/-- What `DefaultHasher` makes of an address. -/
class AddressHasher (Addr : Type) where
  finish : Addr → BitVec 64

/-- `UdpSocket`, as far as it is used: whether `send_to` succeeds. -/
structure UdpSocket (Addr : Type) where
  accepts : Addr → List UInt8 → Bool

/-- The datagrams that were sent, in order. -/
abbrev Sent (Addr : Type) : Type := List (Addr × List UInt8)

abbrev Handler (Addr α : Type) : Type := Method (Sent Addr) ConnectionlessError α

namespace Connectionless

variable {Addr : Type}

/-- Create an opaque challenge number for an address, which will be consistent
for this address -/
def getChallengeForAddress [AddressHasher Addr] (addr : Addr) : BitVec 32 :=
  (AddressHasher.finish addr).setWidth 32

/-- `socket.send_to(data, target).await?`. -/
def sendTo (socket : UdpSocket Addr) (data : List UInt8) (target : Addr) : Handler Addr Unit :=
  if socket.accepts target data then modify (· ++ [(target, data)]) else .fail .io

/-- `?` on a `std::io::Result`. -/
def ofIo {α : Type} : Result α → Outcome ConnectionlessError α
  | .ok a => .ok a
  | .err _ => .err .io
  | .panic => .panic

variable [BitstreamIo]

/-! ## The handlers -/

def writeText (string : String) (writer : BitWriter) : Outcome ConnectionlessError BitWriter :=
  ofIo (writeString string writer)

def rejectConnection (socket : UdpSocket Addr) (source : Addr) (clientChallenge : Nat)
    (message : String) : Handler Addr Unit := do
  let response : BitWriter := { bits := [] }
  let response ← (response.writeOut 32 CONNECTIONLESS_HEADER : Outcome ConnectionlessError _)
  let response ← (response.writeOut 8 S2C_CONNREJECT : Outcome ConnectionlessError _)
  let response ← (response.writeOut 32 clientChallenge : Outcome ConnectionlessError _)
  let response ← writeText message response
  sendTo socket response.buffer source

variable [AddressHasher Addr]

def handleA2sGetChallenge (socket : UdpSocket Addr) (source : Addr) (reader : BitReader) :
    Handler Addr Unit := do
  let (clientChallenge, _) ← (reader.readIn 32 : Outcome ConnectionlessError _)
  let serverChallenge := getChallengeForAddress source
  let response : BitWriter := { bits := [] }
  let response ← (response.writeOut 32 CONNECTIONLESS_HEADER : Outcome ConnectionlessError _)
  let response ← (response.writeOut 8 S2C_CHALLENGE : Outcome ConnectionlessError _)
  let response ← (response.writeOut 32 S2C_MAGICVERSION : Outcome ConnectionlessError _)
  let response ← (response.writeOut 32 serverChallenge.toNat : Outcome ConnectionlessError _)
  let response ← (response.writeOut 32 clientChallenge : Outcome ConnectionlessError _)
  let response ← (response.writeOut 32 AUTH_PROTOCOL_HASHEDCDKEY : Outcome ConnectionlessError _)
  sendTo socket response.buffer source

def handleC2sConnect (socket : UdpSocket Addr) (source : Addr) (reader : BitReader) :
    Handler Addr (BitVec 32) := do
  let (protocolVersion, reader) ← (reader.readIn 32 : Outcome ConnectionlessError _)
  let (authProtocol, reader) ← (reader.readIn 32 : Outcome ConnectionlessError _)
  let (serverChallenge, reader) ← (reader.readIn 32 : Outcome ConnectionlessError _)
  let (clientChallenge, _) ← (reader.readIn 32 : Outcome ConnectionlessError _)
  if serverChallenge ≠ (getChallengeForAddress source).toNat then do
    rejectConnection socket source clientChallenge "#GameUI_ServerRejectBadChallenge"
    .fail (.mismatchedServerChallenge serverChallenge (getChallengeForAddress source).toNat)
  else if protocolVersion ≠ PROTOCOL_VERSION then do
    rejectConnection socket source clientChallenge "Unexpected protocol version"
    .fail (.unexpectedProtocolVersion protocolVersion)
  else if authProtocol ≠ AUTH_PROTOCOL_HASHEDCDKEY then do
    rejectConnection socket source clientChallenge "unexpected authentication protocol"
    .fail (.unexpectedAuthenticationProtocol authProtocol)
  else do
    -- Everything is correct, tell the client to switch over to netchannels
    let response : BitWriter := { bits := [] }
    let response ← (response.writeOut 32 CONNECTIONLESS_HEADER : Outcome ConnectionlessError _)
    let response ← (response.writeOut 8 S2C_CONNECTION : Outcome ConnectionlessError _)
    let response ← (response.writeOut 32 clientChallenge : Outcome ConnectionlessError _)
    -- padding
    let response ← writeText "0000000000" response
    sendTo socket response.buffer source
    pure (BitVec.ofNat 32 serverChallenge)

omit [AddressHasher Addr] in
def sendS2aInfoResponse (socket : UdpSocket Addr) (source : Addr) (configuration : Configuration) :
    Handler Addr Unit := do
  let response : BitWriter := { bits := [] }
  let response ← (response.writeOut 32 CONNECTIONLESS_HEADER : Outcome ConnectionlessError _)
  let response ← (response.writeOut 8 S2A_INFO_SRC : Outcome ConnectionlessError _)
  let response ← (response.writeOut 8 PROTOCOL_VERSION : Outcome ConnectionlessError _)
  -- server name
  let response ← writeText configuration.server.serverName response
  -- map name
  let response ← writeText "" response
  -- game dir
  let response ← writeText "" response
  -- game description
  let response ← writeText configuration.server.appDesc response
  -- app id
  let response ← (response.writeOut 16 configuration.server.appId : Outcome ConnectionlessError _)
  -- player count
  let response ← (response.writeOut 8 0 : Outcome ConnectionlessError _)
  -- max players
  let response ← (response.writeOut 8 0 : Outcome ConnectionlessError _)
  -- bot count
  let response ← (response.writeOut 8 0 : Outcome ConnectionlessError _)
  -- server type, p is hltv relay/proxy
  let response ← (response.writeOut 8 0x70 : Outcome ConnectionlessError _)
  -- OS, hardcoded to linux
  let response ← (response.writeOut 8 0x6c : Outcome ConnectionlessError _)
  -- visibility, 0 for public
  let response ← (response.writeOut 8 0 : Outcome ConnectionlessError _)
  -- VAC, 0 for insecure
  let response ← (response.writeOut 8 0 : Outcome ConnectionlessError _)
  -- app version
  let response ← writeText configuration.server.appVersion response
  sendTo socket response.buffer source

def handleA2sInfo (socket : UdpSocket Addr) (source : Addr) (data : List UInt8)
    (configuration : Configuration) : Handler Addr Unit := do
  -- The packet always has the query string, but won't have a challenge value
  -- unless we send one back.
  if data = A2S_INFO_QUERY_STRING then do
    let response : BitWriter := { bits := [] }
    let response ← (response.writeOut 32 CONNECTIONLESS_HEADER : Outcome ConnectionlessError _)
    let response ← (response.writeOut 8 S2C_CHALLENGE : Outcome ConnectionlessError _)
    let response ← (response.writeOut 32 (getChallengeForAddress source).toNat :
      Outcome ConnectionlessError _)
    sendTo socket response.buffer source
  else if getSlice data 0 A2S_INFO_QUERY_STRING.length ≠ some A2S_INFO_QUERY_STRING then
    .fail .incorrectQueryString
  else
    let challenge ← (Outcome.ofOption .noChallengeValue
      (getSlice data A2S_INFO_QUERY_STRING.length 4) : Outcome ConnectionlessError _)
    let challenge := BitList.toNat (BitList.ofBytes challenge)
    if challenge ≠ (getChallengeForAddress source).toNat then
      .fail .unexpectedChallenge
    else
      sendS2aInfoResponse socket source configuration

/-- Handle a connectionless packet. Returns a challenge number when the
connection handshake has completed, which should be provided to the
netchannel -/
def processConnectionlessPacket (socket : UdpSocket Addr) (source : Addr) (data : List UInt8)
    (configuration : Configuration) : Handler Addr (Option (BitVec 32)) := do
  -- Cut off connectionless header
  let data ← (Outcome.ofOption .noData (getSlice data 4 (data.length - 4)) :
    Outcome ConnectionlessError _)
  let reader : BitReader := { data, pos := 0 }
  let (command, reader) ← (reader.readIn 8 : Outcome ConnectionlessError _)
  match command with
  | A2S_GETCHALLENGE => do
      handleA2sGetChallenge socket source reader
      pure none
  | C2S_CONNECT => do
      let challenge ← handleC2sConnect socket source reader
      pure (some challenge)
  | A2S_INFO => do
      handleA2sInfo socket source (data.drop 1) configuration
      pure none
  -- silently drop
  | A2S_PLAYER => pure none
  | command => .fail (.unhandledPacketType command)

end Connectionless

end QuickplayServer
