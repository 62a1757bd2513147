import QuickplayServer.Net.Answers

/-!
# QuickplayServer.Net.Handshake

What the handshake lets in, and how much it sends.

A connect is accepted exactly when it says back the challenge of the address
that it came from, which only a challenge reply to that address tells.  Until
an address has done so it is sent little more than it sends.
-/

namespace QuickplayServer

namespace Connectionless

/-! ## The type of a packet -/

/-- Behind four bytes of a header and the type of the packet is what its handler
answers to. -/
theorem respond_command {header : List UInt8} (hheader : header.length = 4) (challenge : BitVec 32)
    (configuration : Configuration) {command : Nat} (hcommand : command < 2 ^ 8)
    (rest : List UInt8) :
    respond challenge configuration (header ++ (BitList.leBytes 1 command ++ rest)) =
      answerTo challenge configuration command rest := by
  have hlong : ¬ (header ++ (BitList.leBytes 1 command ++ rest)).length < 4 := by
    simp [hheader]
  rw [respond, if_neg hlong, List.drop_left' hheader, BitList.takeLe_leBytes (k := 1) hcommand]

/-! ## Connects -/

namespace ConnectRequest

/-- The bytes that are read of C2S_CONNECT, behind the header. -/
def bytes (self : ConnectRequest) : List UInt8 :=
  BitList.leBytes 1 C2S_CONNECT ++ (u32Bytes self.protocolVersion ++ (u32Bytes self.authProtocol ++
    (u32Bytes self.serverChallenge ++ u32Bytes self.clientChallenge)))

/-- The connect of a client that has been told its challenge. -/
def valid (challenge clientChallenge : BitVec 32) : ConnectRequest where
  protocolVersion := BitVec.ofNat 32 PROTOCOL_VERSION
  authProtocol := BitVec.ofNat 32 AUTH_PROTOCOL_HASHEDCDKEY
  serverChallenge := challenge
  clientChallenge := clientChallenge

/-- A connect has 17 bytes. -/
theorem length_bytes (self : ConnectRequest) : self.bytes.length = 17 := by simp [bytes]

/-- What is read of a connect is in it, whatever follows. -/
theorem parse_eq_some_iff {self : ConnectRequest} {data : List UInt8} :
    parse data = some self ↔
    ∃ rest, BitList.leBytes 1 C2S_CONNECT ++ data = self.bytes ++ rest := by
  constructor
  · intro h
    simp only [parse, Option.bind_eq_bind, Option.bind_eq_some_iff] at h
    obtain ⟨⟨protocolVersion, data₁⟩, h₁, ⟨authProtocol, data₂⟩, h₂, ⟨serverChallenge, data₃⟩, h₃,
      ⟨clientChallenge, rest⟩, h₄, heq⟩ := h
    obtain rfl := Option.some.inj heq
    obtain rfl := takeU32_eq_some_iff.mp h₁
    obtain rfl := takeU32_eq_some_iff.mp h₂
    obtain rfl := takeU32_eq_some_iff.mp h₃
    obtain rfl := takeU32_eq_some_iff.mp h₄
    exact ⟨rest, by simp [bytes]⟩
  · rintro ⟨rest, hdata⟩
    obtain rfl : data = u32Bytes self.protocolVersion ++ (u32Bytes self.authProtocol ++
        (u32Bytes self.serverChallenge ++ (u32Bytes self.clientChallenge ++ rest))) := by
      simpa [bytes] using hdata
    simp [parse]

/-- A connect that says back the challenge is answered with `S2C_CONNECTION` and let
in. -/
theorem answer_valid (challenge clientChallenge : BitVec 32) :
    (valid challenge clientChallenge).answer challenge =
      { reply := some (connectionReply clientChallenge), result := .ok (some challenge) } := by
  simp [answer, valid, PROTOCOL_VERSION, AUTH_PROTOCOL_HASHEDCDKEY]

/-- A connect is accepted exactly when each of its fields is as expected. -/
theorem answer_result_iff {self : ConnectRequest} {challenge c : BitVec 32} :
    (self.answer challenge).result = .ok (some c) ↔
      c = challenge ∧ self = valid challenge self.clientChallenge := by
  constructor
  · intro h
    obtain ⟨protocolVersion, authProtocol, serverChallenge, clientChallenge⟩ := self
    unfold answer at h
    split_ifs at h with hserver hversion hauth
    -- only the last branch accepts
    simp only [not_not] at hserver hversion hauth
    obtain rfl := hserver
    obtain rfl : protocolVersion = BitVec.ofNat 32 PROTOCOL_VERSION :=
      BitVec.eq_of_toNat_eq hversion
    obtain rfl : authProtocol = BitVec.ofNat 32 AUTH_PROTOCOL_HASHEDCDKEY :=
      BitVec.eq_of_toNat_eq hauth
    simp only [Except.ok.injEq, Option.some.injEq] at h
    exact ⟨h.symm, rfl⟩
  · rintro ⟨rfl, hvalid⟩
    rw [hvalid, answer_valid]

end ConnectRequest

/-! ## What a packet comes to -/

/-- The packets that are answered, with their answers. -/
inductive Answers (challenge : BitVec 32) (configuration : Configuration) :
    List UInt8 → Answer → Prop
  | getChallenge (clientChallenge : BitVec 32) (rest : List UInt8) :
      Answers challenge configuration
        (BitList.leBytes 1 A2S_GETCHALLENGE ++ (u32Bytes clientChallenge ++ rest))
        { reply := some (challengeReply challenge clientChallenge), result := .ok none }
  | connect (request : ConnectRequest) (rest : List UInt8) :
      Answers challenge configuration (request.bytes ++ rest) (request.answer challenge)
  | query : Answers challenge configuration (BitList.leBytes 1 A2S_INFO ++ A2S_INFO_QUERY_STRING)
      { reply := some (queryChallengeReply challenge), result := .ok none }
  | info (rest : List UInt8) : Answers challenge configuration
      (BitList.leBytes 1 A2S_INFO ++ (A2S_INFO_QUERY_STRING ++ (u32Bytes challenge ++ rest)))
      { reply := some (infoReply configuration), result := .ok none }

/-- An answer that sends nothing and lets nobody in. -/
def Answer.Silent (self : Answer) : Prop := self.reply = none ∧ ∀ c, self.result ≠ .ok (some c)

/-- An error sends nothing. -/
theorem Answer.silent_error (e : ConnectionlessError) : (Answer.error e).Silent :=
  ⟨rfl, fun c h => by simp [Answer.error] at h⟩

/-- A query is answered with a challenge, or with the info if it says back the
challenge, or not at all. -/
theorem infoAnswer_cases (challenge : BitVec 32) (configuration : Configuration)
    (data : List UInt8) :
    (infoAnswer challenge configuration data).Silent ∨ Answers challenge configuration
      (BitList.leBytes 1 A2S_INFO ++ data) (infoAnswer challenge configuration data) := by
  unfold infoAnswer
  by_cases hquery : data = A2S_INFO_QUERY_STRING
  · rw [if_pos hquery, hquery]
    exact .inr .query
  rw [if_neg hquery]
  by_cases hstring : data.take A2S_INFO_QUERY_STRING.length = A2S_INFO_QUERY_STRING
  swap
  · rw [if_pos hstring]
    exact .inl (Answer.silent_error _)
  rw [if_neg (not_not_intro hstring)]
  cases htake : takeU32 (data.drop A2S_INFO_QUERY_STRING.length) with
  | none => exact .inl (Answer.silent_error _)
  | some x =>
      obtain ⟨value, rest⟩ := x
      dsimp only
      by_cases hvalue : value = challenge
      swap
      · rw [if_pos hvalue]
        exact .inl (Answer.silent_error _)
      rw [if_neg (not_not_intro hvalue)]
      split
      · have hdata := List.take_append_drop A2S_INFO_QUERY_STRING.length data
        rw [hstring, takeU32_eq_some_iff.mp htake, hvalue] at hdata
        rw [← hdata]
        exact .inr (.info rest)
      · exact .inl (Answer.silent_error _)

/-- Every other packet is passed over in silence. -/
theorem answerTo_cases (challenge : BitVec 32) (configuration : Configuration) (command : Nat)
    (data : List UInt8) :
    (answerTo challenge configuration command data).Silent ∨ Answers challenge configuration
      (BitList.leBytes 1 command ++ data) (answerTo challenge configuration command data) := by
  unfold answerTo
  split
  · unfold challengeAnswer
    cases htake : takeU32 data with
    | none => exact .inl (Answer.silent_error _)
    | some x =>
        rw [takeU32_eq_some_iff.mp htake]
        exact .inr (.getChallenge x.1 x.2)
  · unfold connectAnswer
    cases hparse : ConnectRequest.parse data with
    | none => exact .inl (Answer.silent_error _)
    | some request =>
        obtain ⟨rest, hdata⟩ := ConnectRequest.parse_eq_some_iff.mp hparse
        refine .inr ?_
        rw [show BitList.leBytes 1 107 ++ data = request.bytes ++ rest from hdata]
        exact .connect request rest
  · exact infoAnswer_cases challenge configuration data
  · exact .inl ⟨rfl, fun c h => by simp at h⟩
  · exact .inl (Answer.silent_error _)

/-- A packet is answered to exactly as its kind says, or not at all. -/
theorem respond_cases (challenge : BitVec 32) (configuration : Configuration) (data : List UInt8) :
    (respond challenge configuration data).Silent ∨ ∃ header body, header.length = 4 ∧
      data = header ++ body ∧
      Answers challenge configuration body (respond challenge configuration data) := by
  by_cases hshort : data.length < 4
  · rw [respond, if_pos hshort]
    exact .inl (Answer.silent_error _)
  · cases htake : BitList.takeLe 1 (data.drop 4) with
    | none =>
        rw [respond, if_neg hshort, htake]
        exact .inl (Answer.silent_error _)
    | some x =>
        obtain ⟨command, rest⟩ := x
        rw [respond, if_neg hshort, htake]
        obtain hsilent | hanswers := answerTo_cases challenge configuration command rest
        · exact .inl hsilent
        · refine .inr ⟨data.take 4, _, List.length_take_of_le (by omega), ?_, hanswers⟩
          rw [← (BitList.takeLe_eq_some_iff.mp htake).2, List.take_append_drop]

/-- A connect is answered by its fields, whatever follows them. -/
theorem respond_connect {header : List UInt8} (hheader : header.length = 4) (challenge : BitVec 32)
    (configuration : Configuration) (request : ConnectRequest) (rest : List UInt8) :
    respond challenge configuration (header ++ (request.bytes ++ rest)) =
      request.answer challenge := by
  have hbytes : request.bytes ++ rest = BitList.leBytes 1 C2S_CONNECT ++
      (request.bytes.drop 1 ++ rest) := by
    simp [ConnectRequest.bytes, BitList.leBytes]
  have hparse : ConnectRequest.parse (request.bytes.drop 1 ++ rest) = some request :=
    ConnectRequest.parse_eq_some_iff.mpr ⟨rest, hbytes.symm⟩
  have hanswer : answerTo challenge configuration C2S_CONNECT = connectAnswer challenge := rfl
  rw [hbytes, respond_command hheader challenge configuration (by decide), hanswer, connectAnswer,
    hparse]

/-- A packet completes the handshake exactly when it is a connect that says
back the challenge of its address; what follows the fields does not matter. -/
theorem respond_result_iff {challenge c : BitVec 32} {configuration : Configuration}
    {data : List UInt8} :
    (respond challenge configuration data).result = .ok (some c) ↔
      c = challenge ∧ ∃ header clientChallenge rest, header.length = 4 ∧
        data = header ++ ((ConnectRequest.valid challenge clientChallenge).bytes ++ rest) := by
  constructor
  · intro h
    obtain hsilent | ⟨header, body, hheader, rfl, hanswers⟩ :=
      respond_cases challenge configuration data
    · exact absurd h (hsilent.2 c)
    · generalize respond challenge configuration (header ++ body) = answer at h hanswers
      cases hanswers with
      | getChallenge clientChallenge rest => simp at h
      | query => simp at h
      | info rest => simp at h
      | connect request rest =>
          obtain ⟨rfl, hvalid⟩ := ConnectRequest.answer_result_iff.mp h
          exact ⟨rfl, header, request.clientChallenge, rest, hheader, by rw [← hvalid]⟩
  · rintro ⟨rfl, header, clientChallenge, rest, hheader, rfl⟩
    rw [respond_connect hheader, ConnectRequest.answer_valid]

/-! ## How much is sent -/

/-- The header of a reply has five bytes. -/
theorem length_replyHeader (command : Nat) : (replyHeader command).length = 5 := by
  simp [replyHeader]

variable {Addr : Type} {socket : UdpSocket Addr} {source : Addr} {answer : Answer}
  {sent : Sent Addr}

/-- What `send_to` does depends on the packet and its target only, and it sends to
this target only. -/
theorem sendTo_appends (socket : UdpSocket Addr) (data : List UInt8) (target : Addr) :
    ∃ outcome, ∃ sent' : Sent Addr, (∀ packet ∈ sent', packet.1 = target) ∧
      ∀ sent, sendTo socket data target sent = (outcome, sent ++ sent') := by
  unfold sendTo
  split
  · exact ⟨.ok (), [(target, data)], by simp, fun sent => rfl⟩
  · exact ⟨.err .io, [], by simp, fun sent => by rw [List.append_nil]; rfl⟩

/-- What is sent goes back to where the packet came from, whatever was sent before. -/
theorem deliver_appends (socket : UdpSocket Addr) (source : Addr) (answer : Answer) :
    ∃ outcome, ∃ sent' : Sent Addr, (∀ packet ∈ sent', packet.1 = source) ∧
      ∀ sent, deliver socket source answer sent = (outcome, sent ++ sent') := by
  obtain ⟨reply, result⟩ := answer
  have hfinish : ∃ outcome, ∀ sent : Sent Addr, finish result sent = (outcome, sent) := by
    cases result with
    | ok challenge => exact ⟨_, fun sent => rfl⟩
    | error e => exact ⟨_, fun sent => rfl⟩
  obtain ⟨outcome, hfinish⟩ := hfinish
  cases reply with
  | none =>
      refine ⟨outcome, [], by simp, fun sent => ?_⟩
      rw [List.append_nil]
      exact hfinish sent
  | some reply =>
      by_cases haccepts : socket.accepts source reply
      · refine ⟨outcome, [(source, reply)], by simp, fun sent => ?_⟩
        rw [deliver_reply, sendTo_bind, if_pos haccepts]
        exact hfinish _
      · refine ⟨.err .io, [], by simp, fun sent => ?_⟩
        rw [deliver_reply, sendTo_bind, if_neg haccepts, List.append_nil]

/-- A client is let in exactly if the answer says so and the reply could be sent. -/
theorem deliver_eq_ok_some_iff {c : BitVec 32} {sent' : Sent Addr} {reply : List UInt8}
    (hreply : answer.reply = some reply) :
    deliver socket source answer sent = (.ok (some c), sent') ↔
      answer.result = .ok (some c) ∧ socket.accepts source reply ∧
        sent' = sent ++ [(source, reply)] := by
  obtain ⟨_, result⟩ := answer
  obtain rfl := hreply
  rw [deliver_reply, sendTo_bind]
  split
  case isTrue haccepts =>
    cases result with
    | ok challenge => simp [finish, haccepts, eq_comm]
    | error e => simp [finish]
  case isFalse haccepts => simp [haccepts]

/-- A client that is let in was let in by the answer. -/
theorem deliver_result {c : BitVec 32} {sent' : Sent Addr}
    (h : deliver socket source answer sent = (.ok (some c), sent')) :
    answer.result = .ok (some c) := by
  obtain ⟨reply, result⟩ := answer
  cases reply with
  | some reply => exact ((deliver_eq_ok_some_iff rfl).mp h).1
  | none =>
      cases result with
      | ok challenge =>
          obtain rfl := Outcome.ok.inj (Prod.mk.inj h).1
          rfl
      | error e => cases (Prod.mk.inj h).1

variable [BitstreamIo] [AddressHasher Addr] {configuration : Configuration} {data : List UInt8}

/-- A challenge is returned exactly for a connect that says back the challenge
of its address, once the client has been told. -/
theorem processConnectionlessPacket_eq_ok_some_iff {c : BitVec 32} {sent' : Sent Addr} :
    processConnectionlessPacket socket source data configuration sent = (.ok (some c), sent') ↔
      c = getChallengeForAddress source ∧ ∃ header clientChallenge rest, header.length = 4 ∧
        data = header ++ ((ConnectRequest.valid c clientChallenge).bytes ++ rest) ∧
        socket.accepts source (connectionReply clientChallenge) ∧
        sent' = sent ++ [(source, connectionReply clientChallenge)] := by
  rw [processConnectionlessPacket_eq]
  constructor
  · intro h
    obtain ⟨rfl, header, clientChallenge, rest, hheader, rfl⟩ :=
      respond_result_iff.mp (deliver_result h)
    rw [respond_connect hheader, ConnectRequest.answer_valid] at h
    obtain ⟨-, haccepts, hsent⟩ := (deliver_eq_ok_some_iff rfl).mp h
    exact ⟨rfl, header, clientChallenge, rest, hheader, rfl, haccepts, hsent⟩
  · rintro ⟨rfl, header, clientChallenge, rest, hheader, rfl, haccepts, rfl⟩
    rw [respond_connect hheader, ConnectRequest.answer_valid]
    exact (deliver_eq_ok_some_iff rfl).mpr ⟨rfl, haccepts, rfl⟩

end Connectionless

end QuickplayServer
