import QuickplayServer.Configuration
import QuickplayServer.Net.Message

/-!
# QuickplayServer.Net.NetChannel

The Source Engine NetChannel (`src/net/netchannel.rs`), function by function.

A method of `NetChannel` is a `Method NetChannel Error`: it keeps what it has
written to the channel when it leaves early with an error.  `u32` arithmetic
is checked, as in a build with overflow checks.  `trace!` calls are left out.
The CRC-32 of the `crc` crate is a parameter (`Crc`).
-/

namespace QuickplayServer

/-- 0 == regular, 1 == file stream -/
abbrev MAX_STREAMS : Nat := 2
abbrev MAX_SUBCHANNELS : Nat := 8

instance : NeZero MAX_STREAMS := ⟨by decide⟩

def FRAGMENT_BITS : Nat := 8
def FRAGMENT_SIZE : Nat := 1 <<< FRAGMENT_BITS

def MAX_FILE_SIZE_BITS : Nat := 26

def MIN_PACKET_SIZE : Nat := 16

/-! ## Packet flags -/

abbrev PacketFlags := BitVec 8

/-- packet contains subchannel stream data -/
def PACKET_FLAG_RELIABLE : PacketFlags := 1#8 <<< 0
/-- packet is compressed - UNUSED? -/
def PACKET_FLAG_COMPRESSED : PacketFlags := 1#8 <<< 1
/-- packet is encrypted -/
def PACKET_FLAG_ENCRYPTED : PacketFlags := 1#8 <<< 2
/-- packet is split - UNUSED? -/
def PACKET_FLAG_SPLIT : PacketFlags := 1#8 <<< 3
/-- packet was choked by sender -/
def PACKET_FLAG_CHOKED : PacketFlags := 1#8 <<< 4
/-- packet contains challenge number, use to prevent packet injection -/
def PACKET_FLAG_CHALLENGE : PacketFlags := 1#8 <<< 5

namespace PacketFlags

/-- Every flag there is. -/
def all : PacketFlags :=
  PACKET_FLAG_RELIABLE ||| PACKET_FLAG_COMPRESSED ||| PACKET_FLAG_ENCRYPTED |||
    PACKET_FLAG_SPLIT ||| PACKET_FLAG_CHOKED ||| PACKET_FLAG_CHALLENGE

def fromBitsTruncate (bits : Nat) : PacketFlags := BitVec.ofNat 8 bits &&& all

def contains (flags flag : PacketFlags) : Bool := flags &&& flag == flag

end PacketFlags

/-! ## Transfers -/

/-- The number of fragments that `bytes` bytes are cut into. -/
def fragments (bytes : Nat) : Nat := (bytes + FRAGMENT_SIZE - 1) / FRAGMENT_SIZE

def bytesToFragments (bytes : Nat) : Result Nat := do
  let sum ← Outcome.add32 bytes FRAGMENT_SIZE
  let sum ← Outcome.checkedSub sum 1
  pure (sum / FRAGMENT_SIZE)

structure IncomingReliableData where
  /-- The number of acknowledged fragments. When it is the number of
  fragments, the transfer is complete -/
  ackedFragments : Nat
  /-- The total number of bytes that will be sent to us -/
  bytes : Nat
  data : List UInt8
  /-- Used for file transfers. If this is none then the data contains messages, not a file. -/
  filename : Option String
  deriving DecidableEq, Repr

namespace IncomingReliableData

def new (filename : Option String) (bytes : Nat) : IncomingReliableData where
  ackedFragments := 0
  bytes := bytes
  data := List.replicate bytes 0
  filename := filename

def totalFragments (self : IncomingReliableData) : Result Nat :=
  bytesToFragments self.bytes

end IncomingReliableData

structure OutgoingReliableData where
  ackedFragments : Nat
  pendingFragments : Nat
  data : List UInt8
  /-- Data len is bounds checked on creation -/
  fits : data.length < 2 ^ 32
  deriving DecidableEq, Repr

namespace OutgoingReliableData

def new (data : List UInt8) : Result OutgoingReliableData :=
  if fits : data.length < 2 ^ 32 then
    .ok { ackedFragments := 0, pendingFragments := 0, data, fits }
  else
    .err .outgoingSizeTooLarge

def totalBytes (self : OutgoingReliableData) : Nat := self.data.length

def totalFragments (self : OutgoingReliableData) : Result Nat :=
  bytesToFragments self.totalBytes

end OutgoingReliableData

inductive SubChannelState where
  /-- The subchannel is not currently transferring any data. -/
  | free
  /-- The subchannel has been filled with data for a transfer, but that data
  has not been sent. -/
  | waitingToSend
  /-- The subchannel has sent data to the client, but it has not received an
  acknowledgement that the data has been received. -/
  | waitingForAck
  deriving DecidableEq, Repr

structure SubChannel where
  state : SubChannelState
  startFragment : Fin MAX_STREAMS → Nat
  numFragments : Fin MAX_STREAMS → Nat
  sendSeqNr : Int

namespace SubChannel

def newFree : SubChannel where
  state := .free
  startFragment := fun _ => 0
  numFragments := fun _ => 0
  sendSeqNr := -1

end SubChannel

/-! ## The channel -/

structure NetChannel where
  /-- Current outgoing sequence number -/
  outSequenceNr : Nat
  /-- Last outgoing sequence number that has been acknowledged by the remote -/
  outSequenceNrAck : Nat
  /-- Highest seen incoming sequence number -/
  inSequenceNr : Nat
  hasSeenChallenge : Bool
  challenge : BitVec 32
  inReliableState : BitVec 8
  incomingReliableData : Fin MAX_STREAMS → Option IncomingReliableData
  outReliableState : BitVec 8
  outgoingReliableData : Fin MAX_STREAMS → List OutgoingReliableData
  outgoingSubchannels : Fin MAX_SUBCHANNELS → SubChannel
  configuration : Configuration

/-- The CRC-32 of the `crc` crate (`Crc::<u32>::new(&CRC_32_ISO_HDLC).checksum`). -/
class Crc where
  checksum : List UInt8 → BitVec 32

/-- One bit of the reflected CRC-32. -/
def Crc.shift (crc : BitVec 32) : BitVec 32 :=
  if crc.getLsbD 0 then (crc >>> 1) ^^^ 0xedb88320#32 else crc >>> 1

/-- CRC-32/ISO-HDLC. -/
instance Crc.reference : Crc where
  checksum bytes := ~~~ bytes.foldl (fun crc byte =>
    Nat.repeat Crc.shift 8 (crc ^^^ BitVec.ofNat 32 byte.toNat)) 0xffffffff#32

def calculateChecksum [Crc] (bytes : List UInt8) : Nat :=
  let calculatedDigest := Crc.checksum bytes
  (((calculatedDigest >>> 16) ^^^ calculatedDigest) &&& 0xffff#32).toNat

/-- `data.get(offset..offset + length)`. -/
def getSlice (data : List UInt8) (offset length : Nat) : Option (List UInt8) :=
  if offset + length ≤ data.length then some ((data.drop offset).take length) else none

/-- `data` with `slice` written over its bytes from `offset` on. -/
def setSlice (data : List UInt8) (offset : Nat) (slice : List UInt8) : List UInt8 :=
  data.take offset ++ slice ++ data.drop (offset + slice.length)

/-- Sending or receiving the last fragment of `bytes` bytes, adjust length. -/
def adjustLength (bytes length : Nat) : Result Nat := do
  let rest ← Outcome.checkedSub FRAGMENT_SIZE (bytes % FRAGMENT_SIZE)
  if rest < FRAGMENT_SIZE then
    Outcome.checkedSub length rest
  else
    pure length

namespace NetChannel

def new (challenge : BitVec 32) (configuration : Configuration) : NetChannel where
  outSequenceNr := 1
  outSequenceNrAck := 0
  inSequenceNr := 0
  hasSeenChallenge := false
  challenge := challenge
  inReliableState := 0
  incomingReliableData := fun _ => none
  outReliableState := 0
  outgoingReliableData := fun _ => []
  outgoingSubchannels := fun _ => SubChannel.newFree
  configuration := configuration

/-- A channel with the default configuration, for examples. -/
def fresh : NetChannel := new 5#32 Configuration.loadDefault

/-- `self.outgoing_subchannels[index] = subchannel`. -/
def setSubchannel (self : NetChannel) (index : Fin MAX_SUBCHANNELS) (subchannel : SubChannel) :
    NetChannel :=
  { self with outgoingSubchannels := Function.update self.outgoingSubchannels index subchannel }

/-- `self.outgoing_reliable_data[stream] = queue`. -/
def setOutgoing (self : NetChannel) (stream : Fin MAX_STREAMS)
    (queue : List OutgoingReliableData) : NetChannel :=
  { self with outgoingReliableData := Function.update self.outgoingReliableData stream queue }

/-- `self.incoming_reliable_data[stream] = data`. -/
def setIncoming (self : NetChannel) (stream : Fin MAX_STREAMS)
    (data : Option IncomingReliableData) : NetChannel :=
  { self with incomingReliableData := Function.update self.incomingReliableData stream data }

section Setters

variable (self : NetChannel) (index : Fin MAX_SUBCHANNELS) (subchannel : SubChannel)
  (stream : Fin MAX_STREAMS) (queue : List OutgoingReliableData)
  (data : Option IncomingReliableData)

@[simp] theorem setSubchannel_outgoingSubchannels :
    (self.setSubchannel index subchannel).outgoingSubchannels =
      Function.update self.outgoingSubchannels index subchannel := rfl
@[simp] theorem setSubchannel_outgoingReliableData :
    (self.setSubchannel index subchannel).outgoingReliableData = self.outgoingReliableData := rfl
@[simp] theorem setSubchannel_outReliableState :
    (self.setSubchannel index subchannel).outReliableState = self.outReliableState := rfl
@[simp] theorem setOutgoing_outgoingSubchannels :
    (self.setOutgoing stream queue).outgoingSubchannels = self.outgoingSubchannels := rfl
@[simp] theorem setOutgoing_outgoingReliableData :
    (self.setOutgoing stream queue).outgoingReliableData =
      Function.update self.outgoingReliableData stream queue := rfl
@[simp] theorem setOutgoing_outReliableState :
    (self.setOutgoing stream queue).outReliableState = self.outReliableState := rfl
@[simp] theorem setIncoming_incomingReliableData :
    (self.setIncoming stream data).incomingReliableData =
      Function.update self.incomingReliableData stream data := rfl

end Setters

/-! ### acknowledgements -/

/-- Counts the fragments of an acknowledged subchannel in one stream. -/
def ackStream (subchannel : SubChannel) (streamsIdx : Fin MAX_STREAMS) :
    Method NetChannel Error Unit := do
  let num := subchannel.numFragments streamsIdx
  if num = 0 then
    pure ()
  else
    match (← get).outgoingReliableData streamsIdx with
    | [] => .fail .noStreamForAck
    | stream :: queue => do
        let ackedFragments ← (Outcome.add32 stream.ackedFragments num : Result Nat)
        let pendingFragments ← (Outcome.checkedSub stream.pendingFragments num : Result Nat)
        modify
          (·.setOutgoing streamsIdx ({ stream with ackedFragments, pendingFragments } :: queue))

/-- The round of `update_outgoing_subchannels` for one subchannel. -/
def updateOutgoingSubchannel (sequenceAck : Nat) (ackedReliableState : BitVec 8)
    (subchannelIndex : Fin MAX_SUBCHANNELS) : Method NetChannel Error Unit := do
  let self ← get
  let reliableStateMask := 1#8 <<< subchannelIndex.val
  let subchannel := self.outgoingSubchannels subchannelIndex
  if self.outReliableState &&& reliableStateMask = ackedReliableState &&& reliableStateMask then
    if subchannel.sendSeqNr > sequenceAck then
      .fail (.invalidReliableState subchannelIndex subchannel.sendSeqNr sequenceAck)
    else if subchannel.state = .waitingForAck then do
      (List.finRange MAX_STREAMS).forM (ackStream subchannel)
      modify (·.setSubchannel subchannelIndex SubChannel.newFree)
    else
      pure ()
  else if subchannel.sendSeqNr ≤ sequenceAck then
    if subchannel.state = .free then
      .fail .subchannelShouldNotBeFree
    else if subchannel.state = .waitingForAck then
      modify (·.setSubchannel subchannelIndex { subchannel with state := .waitingToSend })
    else
      pure ()
  else
    pure ()

def updateOutgoingSubchannels (sequenceAck : Nat) (ackedReliableState : BitVec 8) :
    Method NetChannel Error Unit :=
  (List.finRange MAX_SUBCHANNELS).forM (updateOutgoingSubchannel sequenceAck ackedReliableState)

/-- The round of `pop_completed_outgoing_transfers` for one stream. -/
def popCompletedOutgoingTransfer (streamsIdx : Fin MAX_STREAMS) : Method NetChannel Error Unit := do
  match (← get).outgoingReliableData streamsIdx with
  | [] => pure ()
  | stream :: queue => do
      let total ← stream.totalFragments
      if stream.ackedFragments = total then
        modify (·.setOutgoing streamsIdx queue)
      else
        pure ()

def popCompletedOutgoingTransfers : Method NetChannel Error Unit :=
  (List.finRange MAX_STREAMS).forM popCompletedOutgoingTransfer

/-! ### reading -/

section Reading

variable [BitstreamIo]

/-- The part of `read_header` up to the challenge check. -/
def readHeaderFields [Crc] (reader : BitReader) (packet : List UInt8) :
    Method NetChannel Error ((Nat × Nat × PacketFlags × Nat × Nat) × BitReader) := do
  let (sequence, reader) ← (reader.readIn 32 : Result _)
  let (sequenceAck, reader) ← (reader.readIn 32 : Result _)
  let (bits, reader) ← (reader.readIn 8 : Result _)
  let flags := PacketFlags.fromBitsTruncate bits
  let (expectedChecksum, reader) ← (reader.readIn 16 : Result _)
  (Outcome.assert (reader.positionInBits % 8 = 0) : Result _)
  (Outcome.assert (reader.positionInBits / 8 ≤ packet.length) : Result _)
  let bytesToChecksum := packet.drop (reader.positionInBits / 8)
  let calculatedChecksum := calculateChecksum bytesToChecksum
  if calculatedChecksum ≠ expectedChecksum then
    .fail (.checksumMismatch calculatedChecksum expectedChecksum)
  else
    let (reliableState, reader) ← (reader.readIn 8 : Result _)
    let (nChoked, reader) ← (
      if flags.contains PACKET_FLAG_CHOKED then reader.readIn 8
      else .ok (0, reader) : Result (Nat × BitReader))
    if flags.contains PACKET_FLAG_CHALLENGE then
      let (challenge, reader) ← (reader.readIn 32 : Result _)
      if challenge ≠ (← get).challenge.toNat then
        .fail (.challengeMismatch challenge (← get).challenge.toNat)
      else
        modify fun self => { self with hasSeenChallenge := true }
        pure ((sequence, sequenceAck, flags, reliableState, nChoked), reader)
    else if (← get).hasSeenChallenge then
      .fail .challengeMissing
    else
      pure ((sequence, sequenceAck, flags, reliableState, nChoked), reader)

/-- The part of `read_header` after the challenge check. -/
def acceptSequence (sequence sequenceAck reliableState nChoked : Nat) :
    Method NetChannel Error Unit := do
  let self ← get
  if sequence ≤ self.inSequenceNr then
    .fail (.unexpectedSequence sequence self.inSequenceNr)
  else
    let expected ← (Outcome.add32 self.inSequenceNr nChoked : Result Nat)
    let expected ← (Outcome.add32 expected 1 : Result Nat)
    let numPacketsDropped ← (Outcome.checkedSub sequence expected : Result Nat)
    if numPacketsDropped > self.configuration.server.maxPacketsDropped then
      .fail (.tooManyPacketsDropped numPacketsDropped self.configuration.server.maxPacketsDropped)
    else
      updateOutgoingSubchannels sequenceAck (BitVec.ofNat 8 reliableState)
      modify fun self => { self with inSequenceNr := sequence, outSequenceNrAck := sequenceAck }
      popCompletedOutgoingTransfers

def readHeader [Crc] (reader : BitReader) (packet : List UInt8) :
    Method NetChannel Error (PacketFlags × BitReader) := do
  let ((sequence, sequenceAck, flags, reliableState, nChoked), reader) ←
    readHeaderFields reader packet
  acceptSequence sequence sequenceAck reliableState nChoked
  pure (flags, reader)

/-- The fields in front of a fragment, and the transfer that they open. -/
structure FragmentHeader where
  startFragment : Nat
  numFragments : Nat
  offset : Nat
  length : Nat
  receivedData : Option IncomingReliableData

/-- The part of `read_incoming_subchannel_data` that reads the fields in
front of the fragment. -/
def readFragmentHeader (reader : BitReader) : Result (FragmentHeader × BitReader) := do
  let (isMultiBlock, reader) ← reader.readBit
  if isMultiBlock then
    let (startFragment, reader) ← reader.readIn (MAX_FILE_SIZE_BITS - FRAGMENT_BITS)
    let (numFragments, reader) ← reader.readIn 3
    let offset ← Outcome.mul32 startFragment FRAGMENT_SIZE
    let length ← Outcome.mul32 numFragments FRAGMENT_SIZE
    if offset = 0 then
      -- start of subchannel data
      let (isFile, reader) ← reader.readBit
      if isFile then .err .fileTransfer else
        let (isCompressed, reader) ← reader.readBit
        if isCompressed then .err .compressedData else
          let (bytes, reader) ← reader.readIn MAX_FILE_SIZE_BITS
          let receivedData := some (IncomingReliableData.new none bytes)
          pure ({ startFragment, numFragments, offset, length, receivedData }, reader)
    else
      pure ({ startFragment, numFragments, offset, length, receivedData := none }, reader)
  else
    let (isCompressed, reader) ← reader.readBit
    if isCompressed then .err .compressedData else
      let (bytes, reader) ← readVarint32 reader
      let receivedData := IncomingReliableData.new none bytes
      let numFragments ← receivedData.totalFragments
      let length ← Outcome.mul32 numFragments FRAGMENT_SIZE
      pure ({ startFragment := 0, numFragments, offset := 0, length,
              receivedData := some receivedData }, reader)

/-- The part of `read_incoming_subchannel_data` that copies the fragment into
the transfer. -/
def readFragment (stream : Fin MAX_STREAMS) (startFragment numFragments offset length : Nat)
    (reader : BitReader) : Method NetChannel Error BitReader := do
  match (← get).incomingReliableData stream with
  | none => .fail .noActiveSubchannelData
  | some receivedData => do
      let packetTotalFragments ← (Outcome.add32 startFragment numFragments : Result Nat)
      let totalFragments ← receivedData.totalFragments
      let length ← (
        if packetTotalFragments = totalFragments then adjustLength receivedData.bytes length
        else pure length : Result Nat)
      if packetTotalFragments > totalFragments then
        .fail (.outOfBoundsFragment startFragment numFragments totalFragments)
      else
        match getSlice receivedData.data offset length with
        | none => .fail .noSliceForFragment
        | some slice => do
            match (reader.readBytes length : Result _) with
            | .ok (bytes, reader) => do
                let ackedFragments ←
                  (Outcome.add32 receivedData.ackedFragments numFragments : Result Nat)
                let data := setSlice receivedData.data offset bytes
                modify (·.setIncoming stream (some { receivedData with ackedFragments, data }))
                pure reader
            | .err e => do
                let bytes := BitstreamIo.readBytesFailed slice reader
                let data := setSlice receivedData.data offset bytes
                modify (·.setIncoming stream (some { receivedData with data }))
                .fail e
            | .panic => (Outcome.panic : Result BitReader)

def readIncomingSubchannelData (reader : BitReader) (stream : Fin MAX_STREAMS) :
    Method NetChannel Error BitReader := do
  let (header, reader) ← readFragmentHeader reader
  match header.receivedData with
  | some receivedData => modify (·.setIncoming stream (some receivedData))
  | none => pure ()
  readFragment stream header.startFragment header.numFragments header.offset header.length reader

/-- The loop of `read_messages`.  Every message takes at least its type, so
there are no more rounds than bits in the buffer. -/
def readMessagesLoop (dataLen : Nat) : (fuel : Nat) → BitReader → List Message →
    Result (List Message)
  | 0, _, _ => .panic
  | fuel + 1, reader, messages => do
      let left ← Outcome.checkedSub (dataLen * 8) reader.positionInBits
      if left < NETMSG_TYPE_BITS then
        -- No more messages
        pure messages
      else
        let (messageType, reader) ← reader.readIn NETMSG_TYPE_BITS
        let (message, reader) ← Message.read reader messageType
        readMessagesLoop dataLen fuel reader (messages ++ [message])

def readMessages (reader : BitReader) (dataLen : Nat) (messages : List Message) :
    Result (List Message) :=
  readMessagesLoop dataLen (dataLen * 8 + 1) reader messages

def readReliableMessages (stream : Fin MAX_STREAMS) (messages : List Message) :
    Method NetChannel Error (List Message) := do
  match (← get).incomingReliableData stream with
  | none => pure messages
  | some receivedData => do
      let totalFragments ← receivedData.totalFragments
      if receivedData.ackedFragments < totalFragments then
        -- Haven't got all the data yet
        pure messages
      else if receivedData.ackedFragments > totalFragments then
        .fail (.fragmentsOverflow receivedData.ackedFragments totalFragments)
      else if receivedData.filename.isNone then
        let reader : BitReader := { data := receivedData.data, pos := 0 }
        let messages ← readMessages reader receivedData.data.length messages
        -- Done receiving data, reset subchannel
        modify (·.setIncoming stream none)
        pure messages
      else
        .fail .fileUpload

/-- The stream sections of a reliable packet, from stream `streams` on. -/
def readStreams : (streams : List (Fin MAX_STREAMS)) → BitReader →
    Method NetChannel Error BitReader
  | [], reader => pure reader
  | i :: streams, reader => do
      let (present, reader) ← (reader.readBit : Result _)
      if present then
        let reader ← readIncomingSubchannelData reader i
        readStreams streams reader
      else
        readStreams streams reader

/-- The messages of the streams whose transfers are complete. -/
def readAllReliableMessages : (streams : List (Fin MAX_STREAMS)) → List Message →
    Method NetChannel Error (List Message)
  | [], messages => pure messages
  | i :: streams, messages => do
      let messages ← readReliableMessages i messages
      readAllReliableMessages streams messages

/-- The part of `read_packet` under `PACKET_FLAG_RELIABLE`. -/
def readReliableSection (reader : BitReader) :
    Method NetChannel Error (List Message × BitReader) := do
  let (subchannelBit, reader) ← (reader.readIn 3 : Result _)
  let reader ← readStreams (List.finRange MAX_STREAMS) reader
  modify fun self =>
    { self with inReliableState := self.inReliableState ^^^ (1#8 <<< subchannelBit) }
  let messages ← readAllReliableMessages (List.finRange MAX_STREAMS) []
  pure (messages, reader)

def readPacket [Crc] (packet : List UInt8) : Method NetChannel Error (List Message) := do
  let (flags, reader) ← readHeader { data := packet, pos := 0 } packet
  if flags.contains PACKET_FLAG_RELIABLE then
    let (messages, reader) ← readReliableSection reader
    readMessages reader packet.length messages
  else
    readMessages reader packet.length []

end Reading

/-! ### writing -/

/-- Find a subchannel with the desired state. -/
def findSubchannel (self : NetChannel) (state : SubChannelState) : Option (Fin MAX_SUBCHANNELS) :=
  (List.finRange MAX_SUBCHANNELS).find? fun i => (self.outgoingSubchannels i).state = state

/-- The loop of `fill_outgoing_subchannel` over the streams, with the number
of fragments that may still be sent and whether any will be. -/
def fillStreams (subchannelIndex : Fin MAX_SUBCHANNELS) : (streams : List (Fin MAX_STREAMS)) →
    (remainingSendFragments : Nat) → (sendData : Bool) → Method NetChannel Error Bool
  | [], _, sendData => pure sendData
  | streamsIdx :: streams, remainingSendFragments, sendData => do
      match (← get).outgoingReliableData streamsIdx with
      | [] => fillStreams subchannelIndex streams remainingSendFragments sendData
      | stream :: queue => do
          let sentFragments ←
            (Outcome.add32 stream.ackedFragments stream.pendingFragments : Result Nat)
          let totalFragments ← stream.totalFragments
          if sentFragments = totalFragments then
            -- No data left to send
            fillStreams subchannelIndex streams remainingSendFragments sendData
          else
            let left ← (Outcome.checkedSub totalFragments sentFragments : Result Nat)
            let numFragments := min remainingSendFragments left
            let pendingFragments ← (Outcome.add32 stream.pendingFragments numFragments : Result Nat)
            modify fun self =>
              let subchannel := self.outgoingSubchannels subchannelIndex
              (self.setSubchannel subchannelIndex
                { subchannel with
                  startFragment := Function.update subchannel.startFragment streamsIdx sentFragments
                  numFragments := Function.update subchannel.numFragments streamsIdx numFragments
                }).setOutgoing streamsIdx ({ stream with pendingFragments } :: queue)
            let remainingSendFragments := remainingSendFragments - numFragments
            if remainingSendFragments = 0 then
              -- Can't send any more data
              pure true
            else
              fillStreams subchannelIndex streams remainingSendFragments true

/-- Fill a single free subchannel with data -/
def fillOutgoingSubchannel : Method NetChannel Error Unit := do
  let self ← get
  match self.findSubchannel .free with
  | none => pure ()
  | some subchannelIndex => do
      let remainingSendFragments := self.configuration.server.maxReliablePacketSize / FRAGMENT_SIZE
      let sendData ←
        fillStreams subchannelIndex (List.finRange MAX_STREAMS) remainingSendFragments false
      if sendData then
        modify fun self =>
          { self.setSubchannel subchannelIndex
              { self.outgoingSubchannels subchannelIndex with
                state := .waitingToSend, sendSeqNr := 0 } with
            outReliableState := self.outReliableState ^^^ (1#8 <<< subchannelIndex.val) }
      else
        pure ()

section Writing

variable [BitstreamIo]

/-- The section of one stream: where the fragment goes, the size of the
transfer if this opens it, and the bytes. -/
def writeFragment (configuration : Configuration) (startFragment numFragments : Nat)
    (stream : OutgoingReliableData) (writer : BitWriter) : Result BitWriter := do
  let writer ← writer.writeBit true
  let offset ← Outcome.mul32 startFragment FRAGMENT_SIZE
  let length ← Outcome.mul32 numFragments FRAGMENT_SIZE
  let packetTotalFragments ← Outcome.add32 startFragment numFragments
  let totalFragments ← stream.totalFragments
  let length ← (
    if packetTotalFragments = totalFragments then adjustLength stream.totalBytes length
    else pure length : Result Nat)
  let isSingleBlock := decide (numFragments = totalFragments)
  let writer ← writer.writeBit (!isSingleBlock)
  let writer ← (
    if isSingleBlock then do
      Outcome.assert (length = stream.totalBytes)
      Outcome.assert (length < configuration.server.maxReliablePacketSize)
      Outcome.assert (offset = 0)
      -- is compressed bit
      let writer ← writer.writeBit false
      writeVarint32 stream.totalBytes writer
    else do
      let writer ← writer.writeOut (MAX_FILE_SIZE_BITS - FRAGMENT_BITS) startFragment
      let writer ← writer.writeOut 3 numFragments
      if offset = 0 then do
        -- is file transfer bit
        let writer ← writer.writeBit false
        -- is compressed bit
        let writer ← writer.writeBit false
        writer.writeOut MAX_FILE_SIZE_BITS stream.totalBytes
      else
        pure writer : Result BitWriter)
  let slice ← Outcome.ofOption .noSliceForOutgoing (getSlice stream.data offset length)
  writer.writeBytes slice

/-- The round of `write_outgoing_reliable_data` for one stream. -/
def writeStream (subchannelIndex : Fin MAX_SUBCHANNELS) (writer : BitWriter)
    (streamsIdx : Fin MAX_STREAMS) : Method NetChannel Error BitWriter := do
  let self ← get
  let subchannel := self.outgoingSubchannels subchannelIndex
  match self.outgoingReliableData streamsIdx with
  | [] => (writer.writeBit false : Result _)
  | stream :: _ => do
      let writer ← writeFragment self.configuration (subchannel.startFragment streamsIdx)
        (subchannel.numFragments streamsIdx) stream writer
      modify (·.setSubchannel subchannelIndex
        { subchannel with state := .waitingForAck, sendSeqNr := self.outSequenceNr })
      pure writer

def writeOutgoingReliableData (writer : BitWriter) :
    Method NetChannel Error (Bool × BitWriter) := do
  fillOutgoingSubchannel
  -- Find a subchannel that we can send
  match (← get).findSubchannel .waitingToSend with
  | none => pure (false, writer)
  | some subchannelIndex => do
      let writer ← (writer.writeOut 3 subchannelIndex : Result _)
      let writer ← (List.finRange MAX_STREAMS).foldlM (writeStream subchannelIndex) writer
      pure (true, writer)

/-- The fields of a packet in front of its reliable section, with dummy flags
and checksum. -/
def writeHeader (self : NetChannel) (writer : BitWriter) : Result BitWriter := do
  let writer ← writer.writeOut 32 self.outSequenceNr
  let writer ← writer.writeOut 32 self.inSequenceNr
  let writer ← writer.writeOut 8 0
  let writer ← writer.writeOut 16 0
  let writer ← writer.writeOut 8 self.inReliableState.toNat
  -- always write out challenge
  writer.writeOut 32 self.challenge.toNat

/-- Pads the buffer of a packet and writes its flags and checksum into it. -/
def finishPacket [Crc] (flags : PacketFlags) (buffer : List UInt8) : List UInt8 :=
  let flagsOffset := (32 + 32) / 8
  let checksumOffs := (32 + 32 + 8) / 8
  -- apparently, some routers don't like packets that are too small
  let buffer :=
    if buffer.length < MIN_PACKET_SIZE then
      buffer ++ List.replicate (MIN_PACKET_SIZE - buffer.length) 0
    else buffer
  let buffer := buffer.set flagsOffset (UInt8.ofNat flags.toNat)
  let checksum := calculateChecksum (buffer.drop (checksumOffs + 2))
  let buffer := buffer.set checksumOffs (UInt8.ofNat checksum)
  buffer.set (checksumOffs + 1) (UInt8.ofNat (checksum / 256))

def writePacket [Crc] (messages : List Message) : Method NetChannel Error (List UInt8) := do
  let writer ← writeHeader (← get) { bits := [] }
  let (reliable, writer) ← writeOutgoingReliableData writer
  let flags :=
    if reliable then PACKET_FLAG_CHALLENGE ||| PACKET_FLAG_RELIABLE else PACKET_FLAG_CHALLENGE
  let writer ← Message.writeAll messages writer
  -- pad out data so everything is written
  let writer ← (writer.byteAlign : Result _)
  let buffer := finishPacket flags writer.buffer
  let outSequenceNr ← (Outcome.add32 (← get).outSequenceNr 1 : Result Nat)
  modify fun self => { self with outSequenceNr }
  pure buffer

/-- The buffer that `queue_reliable_messages` stores. -/
def encodeMessages (messages : List Message) : Result (List UInt8) := do
  let writer ← Message.writeAll messages { bits := [] }
  -- Data must be byte-aligned or we won't write it all, pad with nops
  let writer ← writer.byteAlign
  pure writer.buffer

def queueReliableMessages (messages : List Message) : Method NetChannel Error Unit := do
  let data ← encodeMessages messages
  let stream ← OutgoingReliableData.new data
  modify fun self => self.setOutgoing 0 (self.outgoingReliableData 0 ++ [stream])

end Writing

end NetChannel

end QuickplayServer
