import QuickplayServer.Net.Connectionless

/-!
# QuickplayServer.Net.Answers

What a connectionless packet is answered with.

`respond` says on the bytes themselves which datagram a packet is answered
with and what comes of it, and `processConnectionlessPacket_eq` that the
handlers do just that, whatever the socket does.  So what the handlers accept
and how much they send is read off `respond`.
-/

namespace QuickplayServer

namespace Connectionless

/-! ## Bytes -/

/-- A `u32`, least significant byte first. -/
def u32Bytes (value : BitVec 32) : List UInt8 := BitList.leBytes 4 value.toNat

/-- The `u32` in the first four bytes, and the bytes behind it. -/
def takeU32 (data : List UInt8) : Option (BitVec 32 × List UInt8) :=
  (BitList.takeLe 4 data).map fun x => (BitVec.ofNat 32 x.1, x.2)

/-- A 32-bit field has four bytes. -/
@[simp] theorem length_u32Bytes (value : BitVec 32) : (u32Bytes value).length = 4 :=
  BitList.length_leBytes 4 _

/-- A 32-bit field can be taken off the front exactly if its four bytes are there,
and then nothing else is lost. -/
theorem takeU32_eq_some_iff {data rest : List UInt8} {value : BitVec 32} :
    takeU32 data = some (value, rest) ↔ data = u32Bytes value ++ rest := by
  unfold takeU32
  rw [Option.map_eq_some_iff]
  constructor
  · rintro ⟨⟨n, rest'⟩, htake, heq⟩
    obtain ⟨rfl, rfl⟩ := Prod.mk.inj heq
    obtain ⟨hn, rfl⟩ := BitList.takeLe_eq_some_iff.mp htake
    rw [u32Bytes, BitVec.toNat_ofNat, Nat.mod_eq_of_lt hn]
  · rintro rfl
    exact ⟨_, BitList.takeLe_leBytes value.isLt rest, by simp⟩

/-- A field that was put in front is taken off again. -/
@[simp] theorem takeU32_u32Bytes (value : BitVec 32) (rest : List UInt8) :
    takeU32 (u32Bytes value ++ rest) = some (value, rest) := takeU32_eq_some_iff.mpr rfl

/-- Only data of less than four bytes has no field in front. -/
theorem takeU32_eq_none_iff {data : List UInt8} : takeU32 data = none ↔ data.length < 4 := by
  rw [takeU32, Option.map_eq_none_iff, BitList.takeLe_eq_none_iff]

/-- A text with its terminator. -/
def textBytes (string : String) : List UInt8 := asBytes string ++ [0]

/-! ## Replies -/

/-- The front of every reply. -/
def replyHeader (command : Nat) : List UInt8 :=
  BitList.leBytes 4 CONNECTIONLESS_HEADER ++ BitList.leBytes 1 command

def rejectReply (clientChallenge : BitVec 32) (message : String) : List UInt8 :=
  replyHeader S2C_CONNREJECT ++ u32Bytes clientChallenge ++ textBytes message

def challengeReply (serverChallenge clientChallenge : BitVec 32) : List UInt8 :=
  replyHeader S2C_CHALLENGE ++ BitList.leBytes 4 S2C_MAGICVERSION ++ u32Bytes serverChallenge ++
    u32Bytes clientChallenge ++ BitList.leBytes 4 AUTH_PROTOCOL_HASHEDCDKEY

def connectionReply (clientChallenge : BitVec 32) : List UInt8 :=
  replyHeader S2C_CONNECTION ++ u32Bytes clientChallenge ++ textBytes "0000000000"

def queryChallengeReply (serverChallenge : BitVec 32) : List UInt8 :=
  replyHeader S2C_CHALLENGE ++ u32Bytes serverChallenge

def infoReply (configuration : Configuration) : List UInt8 :=
  replyHeader S2A_INFO_SRC ++ BitList.leBytes 1 PROTOCOL_VERSION ++
    textBytes configuration.server.serverName ++ textBytes "" ++ textBytes "" ++
    textBytes configuration.server.appDesc ++ BitList.leBytes 2 configuration.server.appId ++
    [0, 0, 0, 0x70, 0x6c, 0, 0] ++ textBytes configuration.server.appVersion

/-! ## Answers -/

/-- The datagram that a packet is answered with, and what comes of the packet
once it is sent. -/
structure Answer where
  reply : Option (List UInt8)
  result : Except ConnectionlessError (Option (BitVec 32))
  deriving DecidableEq

def Answer.error (e : ConnectionlessError) : Answer := { reply := none, result := .error e }

/-- The fields of C2S_CONNECT that are read. -/
structure ConnectRequest where
  protocolVersion : BitVec 32
  authProtocol : BitVec 32
  serverChallenge : BitVec 32
  clientChallenge : BitVec 32
  deriving DecidableEq

namespace ConnectRequest

def parse (data : List UInt8) : Option ConnectRequest := do
  let (protocolVersion, data) ← takeU32 data
  let (authProtocol, data) ← takeU32 data
  let (serverChallenge, data) ← takeU32 data
  let (clientChallenge, _) ← takeU32 data
  some { protocolVersion, authProtocol, serverChallenge, clientChallenge }

/-- The first field that is wrong is the one that is reported. -/
def answer (challenge : BitVec 32) (self : ConnectRequest) : Answer :=
  if self.serverChallenge ≠ challenge then
    { reply := some (rejectReply self.clientChallenge "#GameUI_ServerRejectBadChallenge")
      result := .error
        (.mismatchedServerChallenge self.serverChallenge.toNat challenge.toNat) }
  else if self.protocolVersion.toNat ≠ PROTOCOL_VERSION then
    { reply := some (rejectReply self.clientChallenge "Unexpected protocol version")
      result := .error (.unexpectedProtocolVersion self.protocolVersion.toNat) }
  else if self.authProtocol.toNat ≠ AUTH_PROTOCOL_HASHEDCDKEY then
    { reply := some (rejectReply self.clientChallenge "unexpected authentication protocol")
      result := .error (.unexpectedAuthenticationProtocol self.authProtocol.toNat) }
  else { reply := some (connectionReply self.clientChallenge), result := .ok (some challenge) }

end ConnectRequest

def challengeAnswer (challenge : BitVec 32) (data : List UInt8) : Answer :=
  match takeU32 data with
  | none => .error .io
  | some (clientChallenge, _) =>
      { reply := some (challengeReply challenge clientChallenge), result := .ok none }

def connectAnswer (challenge : BitVec 32) (data : List UInt8) : Answer :=
  match ConnectRequest.parse data with
  | none => .error .io
  | some request => request.answer challenge

/-- A query without a challenge is answered with one. -/
def infoAnswer (challenge : BitVec 32) (configuration : Configuration) (data : List UInt8) :
    Answer :=
  if data = A2S_INFO_QUERY_STRING then
    { reply := some (queryChallengeReply challenge), result := .ok none }
  else if data.take A2S_INFO_QUERY_STRING.length ≠ A2S_INFO_QUERY_STRING then
    .error .incorrectQueryString
  else
    match takeU32 (data.drop A2S_INFO_QUERY_STRING.length) with
    | none => .error .noChallengeValue
    | some (value, _) =>
        if value ≠ challenge then .error .unexpectedChallenge
        else if configuration.server.appId < 2 ^ 16 then
          { reply := some (infoReply configuration), result := .ok none }
        else .error .io

/-- The answer to a packet whose type has been read. -/
def answerTo (challenge : BitVec 32) (configuration : Configuration) (command : Nat)
    (data : List UInt8) : Answer :=
  match command with
  | A2S_GETCHALLENGE => challengeAnswer challenge data
  | C2S_CONNECT => connectAnswer challenge data
  | A2S_INFO => infoAnswer challenge configuration data
  | A2S_PLAYER => { reply := none, result := .ok none }
  | command => .error (.unhandledPacketType command)

/-- The answer to a packet from an address with this challenge. -/
def respond (challenge : BitVec 32) (configuration : Configuration) (data : List UInt8) : Answer :=
  if data.length < 4 then .error .noData
  else
    match BitList.takeLe 1 (data.drop 4) with
    | none => .error .io
    | some (command, data) => answerTo challenge configuration command data

variable {Addr : Type}

def finish : Except ConnectionlessError (Option (BitVec 32)) → Handler Addr (Option (BitVec 32))
  | .ok challenge => pure challenge
  | .error e => .fail e

/-- Sends the reply, and goes on if that works out. -/
def deliver (socket : UdpSocket Addr) (source : Addr) (answer : Answer) :
    Handler Addr (Option (BitVec 32)) := do
  match answer.reply with
  | some reply => sendTo socket reply source
  | none => pure ()
  finish answer.result

/-- A handler goes on after `send_to` if the socket takes the packet, which is then
the last one sent; else it fails there. -/
theorem sendTo_bind {β : Type} (socket : UdpSocket Addr) (data : List UInt8) (target : Addr)
    (k : Unit → Handler Addr β) (sent : Sent Addr) :
    (sendTo socket data target >>= k) sent =
      if socket.accepts target data then k () (sent ++ [(target, data)]) else (.err .io, sent) := by
  unfold sendTo
  split <;> rfl

/-- An answer with a reply sends it first, and has its result only if it could be
sent. -/
theorem deliver_reply (socket : UdpSocket Addr) (source : Addr) (reply : List UInt8)
    (result : Except ConnectionlessError (Option (BitVec 32))) :
    deliver socket source { reply := some reply, result } =
      (sendTo socket reply source >>= fun _ => finish result) := rfl

/-! ## The handlers answer -/

/-- The bits of a text are those of its bytes with the NUL behind them. -/
theorem stringBits_eq (string : String) :
    stringBits string = BitList.ofBytes (textBytes string) := by
  simp [stringBits, textBytes]

/-- A new writer has written no bytes. -/
theorem start_eq : ({ bits := [] } : BitWriter) = ⟨BitList.ofBytes []⟩ := rfl

section Writing

variable [BitstreamIo]

/-- A writer of whole bytes has all of them in its buffer. -/
theorem buffer_ofBytes (bytes : List UInt8) : BitWriter.buffer ⟨BitList.ofBytes bytes⟩ = bytes := by
  rw [BitWriter.buffer_eq, BitList.toBytes_ofBytes]

/-- A field of whole bytes behind whole bytes. -/
theorem writeOut_bind {β : Type} {k w n : Nat} (hw : w = 8 * k) (h : n < 2 ^ w)
    (bytes : List UInt8) (f : BitWriter → Handler Addr β) (sent : Sent Addr) :
    ((liftM (BitWriter.writeOut w n ⟨BitList.ofBytes bytes⟩ : Outcome ConnectionlessError _) :
        Handler Addr BitWriter) >>= f) sent =
      f ⟨BitList.ofBytes (bytes ++ BitList.leBytes k n)⟩ sent := by
  rw [BitWriter.writeOut_of_lt h, Method.lift_bind_ok, BitList.ofBytes_append,
    BitList.ofBytes_leBytes, hw]

/-- Writing a 32-bit field after whole bytes appends its four bytes. -/
theorem writeU32_bind {β : Type} (value : BitVec 32) (bytes : List UInt8)
    (f : BitWriter → Handler Addr β) (sent : Sent Addr) :
    ((liftM (BitWriter.writeOut 32 value.toNat ⟨BitList.ofBytes bytes⟩ :
        Outcome ConnectionlessError _) : Handler Addr BitWriter) >>= f) sent =
      f ⟨BitList.ofBytes (bytes ++ u32Bytes value)⟩ sent :=
  writeOut_bind (k := 4) rfl value.isLt bytes f sent

/-- Writing a text after whole bytes appends its bytes and the NUL. -/
theorem writeText_bind {β : Type} (string : String) (bytes : List UInt8)
    (f : BitWriter → Handler Addr β) (sent : Sent Addr) :
    ((liftM (writeText string ⟨BitList.ofBytes bytes⟩) : Handler Addr BitWriter) >>= f) sent =
      f ⟨BitList.ofBytes (bytes ++ textBytes string)⟩ sent := by
  have hwrite : writeText string ⟨BitList.ofBytes bytes⟩ =
      .ok ⟨BitList.ofBytes (bytes ++ textBytes string)⟩ := by
    rw [writeText, writeString_eq, stringBits_eq, BitList.ofBytes_append]
    rfl
  rw [hwrite, Method.lift_bind_ok]

/-- Reading a 32-bit field at a byte boundary either takes the field off the front
of the data, or fails because the data is too short. -/
theorem readU32 {data : List UInt8} {r : BitReader} (hr : r.rest = BitList.ofBytes data) :
    (∃ value rest, takeU32 data = some (value, rest) ∧
      (r.readIn 32 : Outcome ConnectionlessError _) = .ok (value.toNat, r.skip 32) ∧
      (r.skip 32).rest = BitList.ofBytes rest) ∨
    takeU32 data = none ∧ (r.readIn 32 : Outcome ConnectionlessError _) = .err .io := by
  obtain ⟨n, rest, htake, hread, hrest⟩ | ⟨htake, hread⟩ :=
    BitReader.readIn_of_rest (ε := ConnectionlessError) hr 4
  · have hn := (BitList.takeLe_eq_some_iff.mp htake).1
    refine .inl ⟨BitVec.ofNat 32 n, rest, by rw [takeU32, htake, Option.map_some], ?_, hrest⟩
    rw [BitVec.toNat_ofNat, Nat.mod_eq_of_lt hn]
    exact hread
  · exact .inr ⟨by rw [takeU32, htake, Option.map_none], hread⟩

variable (socket : UdpSocket Addr) (source : Addr)

/-- `reject_connection` sends one packet, with the challenge of the client and the
text. -/
theorem rejectConnection_eq (clientChallenge : BitVec 32) (message : String) :
    rejectConnection socket source clientChallenge.toNat message =
      sendTo socket (rejectReply clientChallenge message) source := by
  funext sent
  unfold rejectConnection
  rw [start_eq, writeOut_bind (k := 4) rfl (by decide), writeOut_bind (k := 1) rfl (by decide),
    writeU32_bind, writeText_bind, buffer_ofBytes]
  rfl

/-- With an application id that fits its field, an info response is always the same
packet. -/
theorem sendS2aInfoResponse_eq {configuration : Configuration}
    (h : configuration.server.appId < 2 ^ 16) :
    sendS2aInfoResponse socket source configuration =
      sendTo socket (infoReply configuration) source := by
  funext sent
  unfold sendS2aInfoResponse
  rw [start_eq, writeOut_bind (k := 4) rfl (by decide), writeOut_bind (k := 1) rfl (by decide),
    writeOut_bind (k := 1) rfl (by decide), writeText_bind, writeText_bind, writeText_bind,
    writeText_bind, writeOut_bind (k := 2) rfl h, writeOut_bind (k := 1) rfl (by decide),
    writeOut_bind (k := 1) rfl (by decide), writeOut_bind (k := 1) rfl (by decide),
    writeOut_bind (k := 1) rfl (by decide), writeOut_bind (k := 1) rfl (by decide),
    writeOut_bind (k := 1) rfl (by decide), writeOut_bind (k := 1) rfl (by decide),
    writeText_bind, buffer_ofBytes]
  refine congrArg (sendTo socket · source sent) ?_
  simp only [infoReply, replyHeader, List.nil_append, List.append_assoc]
  rfl

/-- An application id that does not fit its 16 bits makes the response fail before
anything is sent. -/
theorem sendS2aInfoResponse_of_le {configuration : Configuration}
    (h : 2 ^ 16 ≤ configuration.server.appId) :
    sendS2aInfoResponse socket source configuration = .fail .io := by
  funext sent
  unfold sendS2aInfoResponse
  rw [start_eq, writeOut_bind (k := 4) rfl (by decide), writeOut_bind (k := 1) rfl (by decide),
    writeOut_bind (k := 1) rfl (by decide), writeText_bind, writeText_bind, writeText_bind,
    writeText_bind, BitWriter.writeOut_of_le h, Method.lift_bind_err]
  rfl

variable [AddressHasher Addr] {configuration : Configuration} {data : List UInt8} {r : BitReader}

/-- The handler of challenge requests sends what `challengeAnswer` says, for all
data. -/
theorem handleA2sGetChallenge_eq (hr : r.rest = BitList.ofBytes data) :
    (do handleA2sGetChallenge socket source r; pure none) =
      deliver socket source (challengeAnswer (getChallengeForAddress source) data) := by
  funext sent
  unfold handleA2sGetChallenge challengeAnswer
  rw [Method.bind_assoc]
  obtain ⟨clientChallenge, rest, htake, hread, -⟩ | ⟨htake, hread⟩ := readU32 hr
  · rw [hread, htake, Method.lift_bind_ok]
    dsimp only
    rw [start_eq, Method.bind_assoc, writeOut_bind (k := 4) rfl (by decide), Method.bind_assoc,
      writeOut_bind (k := 1) rfl (by decide), Method.bind_assoc,
      writeOut_bind (k := 4) rfl (by decide), Method.bind_assoc, writeU32_bind, Method.bind_assoc,
      writeU32_bind, Method.bind_assoc, writeOut_bind (k := 4) rfl (by decide), buffer_ofBytes]
    rfl
  · rw [hread, htake]
    rfl

/-- The handler of connects sends what `connectAnswer` says: it refuses wrong
protocols and wrong challenges by a reply of their own, and data that is cut off
without one. -/
theorem handleC2sConnect_eq (hr : r.rest = BitList.ofBytes data) :
    (do let challenge ← handleC2sConnect socket source r; pure (some challenge)) =
      deliver socket source (connectAnswer (getChallengeForAddress source) data) := by
  funext sent
  unfold handleC2sConnect connectAnswer
  rw [Method.bind_assoc]
  obtain ⟨protocolVersion, data₁, htake₁, hread₁, hr₁⟩ | ⟨htake₁, hread₁⟩ := readU32 hr
  swap
  · rw [hread₁, show ConnectRequest.parse data = none by simp [ConnectRequest.parse, htake₁]]
    rfl
  rw [hread₁, Method.lift_bind_ok, Method.bind_assoc]
  obtain ⟨authProtocol, data₂, htake₂, hread₂, hr₂⟩ | ⟨htake₂, hread₂⟩ := readU32 hr₁
  swap
  · have hnone : ConnectRequest.parse data = none := by
      simp [ConnectRequest.parse, htake₁, htake₂]
    rw [hread₂, hnone]
    rfl
  rw [hread₂, Method.lift_bind_ok, Method.bind_assoc]
  obtain ⟨serverChallenge, data₃, htake₃, hread₃, hr₃⟩ | ⟨htake₃, hread₃⟩ := readU32 hr₂
  swap
  · rw [hread₃, show ConnectRequest.parse data = none by
      simp [ConnectRequest.parse, htake₁, htake₂, htake₃]]
    rfl
  rw [hread₃, Method.lift_bind_ok, Method.bind_assoc]
  obtain ⟨clientChallenge, data₄, htake₄, hread₄, -⟩ | ⟨htake₄, hread₄⟩ := readU32 hr₃
  swap
  · rw [hread₄, show ConnectRequest.parse data = none by
      simp [ConnectRequest.parse, htake₁, htake₂, htake₃, htake₄]]
    rfl
  have hparse : ConnectRequest.parse data =
      some { protocolVersion, authProtocol, serverChallenge, clientChallenge } := by
    simp [ConnectRequest.parse, htake₁, htake₂, htake₃, htake₄]
  rw [hread₄, Method.lift_bind_ok, hparse]
  simp only [ConnectRequest.answer, rejectConnection_eq, ne_eq, BitVec.toNat_inj]
  split
  · rw [Method.bind_assoc, deliver_reply, sendTo_bind, sendTo_bind]
    rfl
  · split
    · rw [Method.bind_assoc, deliver_reply, sendTo_bind, sendTo_bind]
      rfl
    · split
      · rw [Method.bind_assoc, deliver_reply, sendTo_bind, sendTo_bind]
        rfl
      · have hchallenge :
            BitVec.ofNat 32 serverChallenge.toNat = getChallengeForAddress source := by
          simp_all
        rw [start_eq, Method.bind_assoc, writeOut_bind (k := 4) rfl (by decide), Method.bind_assoc,
          writeOut_bind (k := 1) rfl (by decide), Method.bind_assoc, writeU32_bind,
          Method.bind_assoc, writeText_bind, Method.bind_assoc, buffer_ofBytes, hchallenge]
        rw [deliver_reply, sendTo_bind, sendTo_bind]
        rfl

/-- The handler of info queries sends what `infoAnswer` says. -/
theorem handleA2sInfo_eq :
    (do handleA2sInfo socket source data configuration; pure none) =
      deliver socket source (infoAnswer (getChallengeForAddress source) configuration data) := by
  funext sent
  unfold handleA2sInfo infoAnswer
  by_cases hquery : data = A2S_INFO_QUERY_STRING
  · rw [if_pos hquery, if_pos hquery, deliver_reply]
    rw [start_eq, Method.bind_assoc, writeOut_bind (k := 4) rfl (by decide), Method.bind_assoc,
      writeOut_bind (k := 1) rfl (by decide), Method.bind_assoc, writeU32_bind, buffer_ofBytes]
    rfl
  rw [if_neg hquery, if_neg hquery]
  have hslice : getSlice data 0 A2S_INFO_QUERY_STRING.length = some A2S_INFO_QUERY_STRING ↔
      data.take A2S_INFO_QUERY_STRING.length = A2S_INFO_QUERY_STRING := by
    unfold getSlice
    split
    case isTrue => rw [List.drop_zero, Option.some.injEq]
    case isFalse hshort =>
      refine iff_of_false (by simp) fun h => hshort ?_
      have hlength := congrArg List.length h
      rw [List.length_take] at hlength
      omega
  by_cases hstring : data.take A2S_INFO_QUERY_STRING.length = A2S_INFO_QUERY_STRING
  swap
  · rw [if_pos (fun h => hstring (hslice.mp h)), if_pos hstring]
    rfl
  rw [if_neg (not_not_intro (hslice.mpr hstring)), if_neg (not_not_intro hstring),
    Method.bind_assoc]
  rcases Nat.lt_or_ge data.length (A2S_INFO_QUERY_STRING.length + 4) with hshort | hlong
  · have htake : takeU32 (data.drop A2S_INFO_QUERY_STRING.length) = none := by
      rw [takeU32_eq_none_iff, List.length_drop]
      omega
    rw [htake, getSlice, if_neg (by omega)]
    rfl
  · cases htake : takeU32 (data.drop A2S_INFO_QUERY_STRING.length) with
    | none =>
        rw [takeU32_eq_none_iff, List.length_drop] at htake
        omega
    | some x =>
        obtain ⟨value, rest⟩ := x
        have hvalue : BitList.toNat (BitList.ofBytes (u32Bytes value)) = value.toNat := by
          rw [u32Bytes, BitList.ofBytes_leBytes, BitList.toNat_ofNat value.isLt]
        rw [getSlice, if_pos hlong, takeU32_eq_some_iff.mp htake,
          List.take_left' (length_u32Bytes value), Outcome.ofOption_some, Method.lift_bind_ok]
        dsimp only
        rw [hvalue]
        simp only [ne_eq, BitVec.toNat_inj]
        split
        · rfl
        · split
          case isTrue happ =>
            rw [sendS2aInfoResponse_eq socket source happ, deliver_reply]
            rfl
          case isFalse happ =>
            rw [sendS2aInfoResponse_of_le socket source (Nat.not_lt.mp happ)]
            rfl

/-- The handlers send the answer to the packet, to the address that it came from. -/
theorem processConnectionlessPacket_eq :
    processConnectionlessPacket socket source data configuration =
      deliver socket source (respond (getChallengeForAddress source) configuration data) := by
  funext sent
  unfold processConnectionlessPacket respond
  by_cases hshort : data.length < 4
  · rw [if_pos hshort, getSlice, if_neg (by omega)]
    rfl
  have hslice : getSlice data 4 (data.length - 4) = some (data.drop 4) := by
    rw [getSlice, if_pos (by omega), List.take_of_length_le (by simp)]
  rw [if_neg hshort, hslice, Outcome.ofOption_some, Method.lift_bind_ok]
  dsimp only
  obtain ⟨command, rest, htake, hread, hr⟩ | ⟨htake, hread⟩ :=
    BitReader.readIn_of_rest (ε := ConnectionlessError) (BitReader.rest_start (data.drop 4)) 1
  swap
  · rw [hread, htake]
    rfl
  have hdata : (data.drop 4).drop 1 = rest := by
    rw [(BitList.takeLe_eq_some_iff.mp htake).2, List.drop_left' (BitList.length_leBytes 1 command)]
  rw [hread, htake, Method.lift_bind_ok]
  dsimp only
  rw [hdata]
  by_cases hget : command = A2S_GETCHALLENGE
  · subst hget
    exact congrFun (handleA2sGetChallenge_eq socket source hr) sent
  by_cases hconnect : command = C2S_CONNECT
  · subst hconnect
    exact congrFun (handleC2sConnect_eq socket source hr) sent
  by_cases hinfo : command = A2S_INFO
  · subst hinfo
    exact congrFun (handleA2sInfo_eq socket source) sent
  by_cases hplayer : command = A2S_PLAYER
  · subst hplayer
    rfl
  have hanswer : answerTo (getChallengeForAddress source) configuration command rest =
      .error (.unhandledPacketType command) := by
    unfold answerTo
    split <;> first | contradiction | rfl
  rw [hanswer]
  split <;> first | contradiction | rfl

end Writing

end Connectionless

end QuickplayServer
