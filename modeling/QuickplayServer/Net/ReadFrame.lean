import QuickplayServer.Net.NetChannel

/-!
# QuickplayServer.Net.ReadFrame

What reading a packet leaves alone: its stream sections and messages only
touch the incoming transfers, and none of the sender's errors comes from
reading them.
-/

namespace QuickplayServer

/-- The errors of `update_outgoing_subchannels` and of writing a packet. -/
def Error.ofSender : Error → Bool
  | .invalidReliableState .. | .noStreamForAck | .subchannelShouldNotBeFree
  | .noSliceForOutgoing => true
  | _ => false

/-- The call returns none of the sender's errors. -/
abbrev NotOfSender {α : Type} (x : Result α) : Prop := x.FailsIn fun e => e.ofSender = false

open Outcome (FailsIn)

open Method (Triple)

/-- Counting fragments can only panic, so it returns none of the sender's errors. -/
theorem bytesToFragments_notOfSender (bytes : Nat) : NotOfSender (bytesToFragments bytes) :=
  FailsIn.bind (FailsIn.add32 _ _) fun _ =>
    FailsIn.bind (FailsIn.checkedSub _ _) fun _ => FailsIn.pure _

/-- The length of the last fragment is computed by two subtractions, which can panic
but return no error. -/
theorem adjustLength_notOfSender (bytes length : Nat) : NotOfSender (adjustLength bytes length) :=
  FailsIn.bind (FailsIn.checkedSub _ _) fun _ =>
    FailsIn.ite (FailsIn.checkedSub _ _) (FailsIn.pure _)

namespace NetChannel

/-- `self` with other incoming transfers. -/
def UpToIncoming (self self' : NetChannel) : Prop :=
  self' = { self with incomingReliableData := self'.incomingReliableData }

/-- The method only touches the incoming transfers of `self`, and returns none
of the sender's errors. -/
abbrev OnlyIncoming {α : Type} (self : NetChannel) (m : Method NetChannel Error α) : Prop :=
  Method.Triple (UpToIncoming self) m (fun _ => UpToIncoming self)
    fun e self' => UpToIncoming self self' ∧ e.ofSender = false

/-- Filling or emptying one more slot still changes the incoming transfers only. -/
theorem UpToIncoming.setIncoming {self self' : NetChannel} (h : UpToIncoming self self')
    (stream : Fin MAX_STREAMS) (data : Option IncomingReliableData) :
    UpToIncoming self (self'.setIncoming stream data) := by
  unfold UpToIncoming NetChannel.setIncoming at *
  rw [h]

/-- A channel that differs from the one with a changed slot in its incoming
transfers only differs so from the one before, too. -/
theorem UpToIncoming.of_setIncoming {self self' : NetChannel} {stream : Fin MAX_STREAMS}
    {data : Option IncomingReliableData} (h : UpToIncoming (self.setIncoming stream data) self') :
    UpToIncoming self self' := by
  unfold UpToIncoming NetChannel.setIncoming at *
  rw [h]

/-- The acknowledgement bits are none of the incoming transfers, so they are the
same. -/
theorem UpToIncoming.inReliableState {self self' : NetChannel} (h : UpToIncoming self self') :
    self'.inReliableState = self.inReliableState := by
  unfold UpToIncoming at h
  rw [h]

/-- A reader that runs inside a method of the channel leaves the whole channel
alone, whatever it returns. -/
theorem lift_onlyIncoming {α : Type} (self : NetChannel) {x : Result α} (h : NotOfSender x) :
    OnlyIncoming self (liftM x) := Triple.lift_failsIn h

/-- Setting a slot is the one update that the sections of a packet make. -/
theorem setIncoming_onlyIncoming (self : NetChannel) (stream : Fin MAX_STREAMS)
    (data : Option IncomingReliableData) :
    OnlyIncoming self (modify (·.setIncoming stream data)) :=
  Triple.modify fun _ h => h.setIncoming stream data

end NetChannel

/-! ## Readers -/

variable [BitstreamIo]

/-- A field that cannot be read is an I/O error. -/
theorem readIn_notOfSender (n : Nat) (r : BitReader) : NotOfSender (r.readIn n) :=
  FailsIn.ofOption (by rfl) _

/-- A bit that cannot be read is an I/O error. -/
theorem readBit_notOfSender (r : BitReader) : NotOfSender r.readBit := FailsIn.ofOption (by rfl) _

/-- Bytes that cannot be read are an I/O error. -/
theorem readBytes_notOfSender (n : Nat) (r : BitReader) : NotOfSender (r.readBytes n) :=
  FailsIn.ofOption (by rfl) _

/-- By induction on the fuel: each round of `read_string` reads one byte, and the
bytes are decoded at the end. -/
theorem readStringLoop_notOfSender (maxLen fuel : Nat) (data : List UInt8) (charsRead : Nat)
    (r : BitReader) : NotOfSender (readStringLoop maxLen fuel data charsRead r) := by
  induction fuel generalizing data charsRead r with
  | zero => exact FailsIn.panic
  | succ fuel ih =>
      refine FailsIn.bind (readIn_notOfSender 8 r) fun _ => ?_
      exact FailsIn.ite (FailsIn.pure _) (FailsIn.ite (FailsIn.pure _) (ih _ _ _))

/-- `read_string` fails at the end of the packet or for bytes that are no text. -/
theorem readString_notOfSender (maxLen : Nat) (r : BitReader) : NotOfSender (readString maxLen r) :=
  FailsIn.bind (readStringLoop_notOfSender _ _ _ _ r) fun _ =>
    FailsIn.bind (FailsIn.ofOption (by rfl) _) fun _ => FailsIn.pure _

/-- `read_varint32` fails at the end of the packet or for more than five bytes. -/
theorem readVarint32_notOfSender (r : BitReader) : NotOfSender (readVarint32 r) := by
  unfold readVarint32
  generalize MAX_VARINT_32_BYTES = left
  generalize 0 = result
  induction left generalizing result r with
  | zero => exact FailsIn.ok _
  | succ left ih =>
      refine FailsIn.bind (readIn_notOfSender 8 r) fun _ => ?_
      exact FailsIn.ite (FailsIn.pure _) (ih _ _)

/-- By induction on the number of variables: each is two strings. -/
theorem readConVars_notOfSender (numVars : Nat) (r : BitReader) :
    NotOfSender (Message.readConVars numVars r) := by
  induction numVars generalizing r with
  | zero => exact FailsIn.ok _
  | succ numVars ih =>
      refine FailsIn.bind (readString_notOfSender 260 r) fun _ => ?_
      refine FailsIn.bind (readString_notOfSender 260 _) fun _ => ?_
      exact FailsIn.bind (ih _) fun _ => FailsIn.pure _

/-- Each type of message reads fields and strings, and the types that are not
handled have an error of their own. -/
theorem messageRead_notOfSender (r : BitReader) (messageType : Nat) :
    NotOfSender (Message.read r messageType) := by
  unfold Message.read
  split
  · exact FailsIn.bind (readString_notOfSender 1024 r) fun _ => FailsIn.pure _
  · exact FailsIn.bind (readIn_notOfSender 8 r) fun _ =>
      FailsIn.bind (readConVars_notOfSender _ _) fun _ => FailsIn.pure _
  · exact FailsIn.bind (readIn_notOfSender 8 r) fun _ =>
      FailsIn.bind (readIn_notOfSender 32 _) fun _ => FailsIn.pure _
  · exact FailsIn.bind (readString_notOfSender 2048 r) fun _ => FailsIn.pure _
  · exact FailsIn.err rfl

namespace NetChannel

/-- By induction on the loop of `read_messages`, which reads one message after the
other and gives up at the first error. -/
theorem readMessages_notOfSender (r : BitReader) (dataLen : Nat) (messages : List Message) :
    NotOfSender (readMessages r dataLen messages) := by
  unfold readMessages
  generalize dataLen * 8 + 1 = fuel
  induction fuel generalizing r messages with
  | zero => exact FailsIn.panic
  | succ fuel ih =>
      refine FailsIn.bind (FailsIn.checkedSub _ _) fun _ => FailsIn.ite (FailsIn.pure _) ?_
      refine FailsIn.bind (readIn_notOfSender _ r) fun _ => ?_
      exact FailsIn.bind (messageRead_notOfSender _ _) fun _ => ih _ _

/-- The fields of a section are refused for a file, for compressed data, or at the
end of the packet; the arithmetic on them can only panic. -/
theorem readFragmentHeader_notOfSender (r : BitReader) : NotOfSender (readFragmentHeader r) := by
  refine FailsIn.bind (readBit_notOfSender r) fun _ => FailsIn.ite ?_ ?_
  · refine FailsIn.bind (readIn_notOfSender _ _) fun _ => ?_
    refine FailsIn.bind (readIn_notOfSender _ _) fun _ => ?_
    refine FailsIn.bind (FailsIn.mul32 _ _) fun _ => FailsIn.bind (FailsIn.mul32 _ _) fun _ => ?_
    refine FailsIn.ite ?_ (FailsIn.pure _)
    refine FailsIn.bind (readBit_notOfSender _) fun _ => FailsIn.ite (FailsIn.err rfl) ?_
    refine FailsIn.bind (readBit_notOfSender _) fun _ => FailsIn.ite (FailsIn.err rfl) ?_
    exact FailsIn.bind (readIn_notOfSender _ _) fun _ => FailsIn.pure _
  · refine FailsIn.bind (readBit_notOfSender _) fun _ => FailsIn.ite (FailsIn.err rfl) ?_
    refine FailsIn.bind (readVarint32_notOfSender _) fun _ => ?_
    exact FailsIn.bind (bytesToFragments_notOfSender _) fun _ =>
      FailsIn.bind (FailsIn.mul32 _ _) fun _ => FailsIn.pure _

/-! ## Frames -/

/-- The fragments of a section are written into the slot of its stream, and into
nothing else, also when their bytes are cut off in the middle. -/
theorem readFragment_onlyIncoming (self : NetChannel) (stream : Fin MAX_STREAMS)
    (startFragment numFragments offset length : Nat) (r : BitReader) :
    OnlyIncoming self (readFragment stream startFragment numFragments offset length r) := by
  refine Triple.bind (Triple.get fun _ h => h) fun c => ?_
  cases c.incomingReliableData stream with
  | none => exact Triple.fail fun _ h => ⟨h, rfl⟩
  | some receivedData =>
      refine Triple.bind (lift_onlyIncoming self (FailsIn.add32 _ _)) fun _ => ?_
      refine Triple.bind (lift_onlyIncoming self (bytesToFragments_notOfSender _)) fun _ => ?_
      refine Triple.bind (lift_onlyIncoming self ?_) fun length => ?_
      · exact FailsIn.ite (adjustLength_notOfSender _ _) (FailsIn.pure _)
      · dsimp only
        split
        · exact Triple.fail fun _ h => ⟨h, rfl⟩
        · split
          · exact Triple.fail fun _ h => ⟨h, rfl⟩
          · have hread := readBytes_notOfSender length r
            split
            · refine Triple.bind (lift_onlyIncoming self (FailsIn.add32 _ _)) fun _ => ?_
              exact Triple.bind (setIncoming_onlyIncoming self _ _) fun _ => Triple.pure
                fun _ h => h
            · rename_i e heq
              refine Triple.bind (setIncoming_onlyIncoming self _ _) fun _ => ?_
              exact Triple.fail fun _ h => ⟨h, hread e heq⟩
            · exact lift_onlyIncoming self FailsIn.panic

/-- A section opens a transfer in the slot of its stream, or continues the one that
is there. -/
theorem readIncomingSubchannelData_onlyIncoming (self : NetChannel) (r : BitReader)
    (stream : Fin MAX_STREAMS) : OnlyIncoming self (readIncomingSubchannelData r stream) := by
  refine Triple.bind (lift_onlyIncoming self (readFragmentHeader_notOfSender r)) fun x => ?_
  obtain ⟨header, reader⟩ := x
  dsimp only
  split
  · exact Triple.bind (setIncoming_onlyIncoming self _ _) fun _ =>
      readFragment_onlyIncoming self _ _ _ _ _ _
  · exact readFragment_onlyIncoming self _ _ _ _ _ _

/-- By induction on the streams: for each there is a bit, and a section if the bit
is set. -/
theorem readStreams_onlyIncoming (self : NetChannel) (streams : List (Fin MAX_STREAMS))
    (r : BitReader) : OnlyIncoming self (readStreams streams r) := by
  induction streams generalizing r with
  | nil => exact Triple.pure fun _ h => h
  | cons i streams ih =>
      refine Triple.bind (lift_onlyIncoming self (readBit_notOfSender r)) fun x => ?_
      obtain ⟨present, reader⟩ := x
      dsimp only
      split
      · exact Triple.bind (readIncomingSubchannelData_onlyIncoming self _ _) fun _ => ih _
      · exact ih _

/-- A transfer is decoded from its own bytes, and its slot is emptied if it is
complete. -/
theorem readReliableMessages_onlyIncoming (self : NetChannel) (stream : Fin MAX_STREAMS)
    (messages : List Message) : OnlyIncoming self (readReliableMessages stream messages) := by
  refine Triple.bind (Triple.get fun _ h => h) fun c => ?_
  cases c.incomingReliableData stream with
  | none => exact Triple.pure fun _ h => h
  | some receivedData =>
      refine Triple.bind (lift_onlyIncoming self (bytesToFragments_notOfSender _)) fun _ => ?_
      dsimp only
      split
      · exact Triple.pure fun _ h => h
      · split
        · exact Triple.fail fun _ h => ⟨h, rfl⟩
        · split
          · refine Triple.bind (lift_onlyIncoming self (readMessages_notOfSender _ _ _)) fun _ => ?_
            exact Triple.bind (setIncoming_onlyIncoming self _ _) fun _ => Triple.pure fun _ h => h
          · exact Triple.fail fun _ h => ⟨h, rfl⟩

/-- By induction on the streams, each of which hands over its transfer. -/
theorem readAllReliableMessages_onlyIncoming (self : NetChannel)
    (streams : List (Fin MAX_STREAMS)) (messages : List Message) :
    OnlyIncoming self (readAllReliableMessages streams messages) := by
  induction streams generalizing messages with
  | nil => exact Triple.pure fun _ h => h
  | cons i streams ih =>
      exact Triple.bind (readReliableMessages_onlyIncoming self i messages) fun _ => ih _

/-- `self` with another answer to whether it has seen the challenge. -/
def UpToChallenge (self self' : NetChannel) : Prop :=
  self' = { self with hasSeenChallenge := self'.hasSeenChallenge }

/-- Reading the fields of a header sets `has_seen_challenge` at most, and none of
its errors is one of the sender's. -/
theorem readHeaderFields_upToChallenge [Crc] (self : NetChannel) (r : BitReader)
    (packet : List UInt8) :
    Triple (UpToChallenge self) (readHeaderFields r packet) (fun _ => UpToChallenge self)
      fun e self' => UpToChallenge self self' ∧ e.ofSender = false := by
  refine Triple.bind (Triple.lift_failsIn (readIn_notOfSender 32 r)) fun _ => ?_
  refine Triple.bind (Triple.lift_failsIn (readIn_notOfSender 32 _)) fun _ => ?_
  refine Triple.bind (Triple.lift_failsIn (readIn_notOfSender 8 _)) fun _ => ?_
  refine Triple.bind (Triple.lift_failsIn (readIn_notOfSender 16 _)) fun _ => ?_
  refine Triple.bind (Triple.lift_failsIn (FailsIn.assert _)) fun _ => ?_
  refine Triple.bind (Triple.lift_failsIn (FailsIn.assert _)) fun _ => ?_
  dsimp only
  split
  · exact Triple.fail fun _ h => ⟨h, rfl⟩
  · refine Triple.bind (Triple.lift_failsIn (readIn_notOfSender 8 _)) fun _ => ?_
    refine Triple.bind (Triple.lift_failsIn ?_) fun _ => ?_
    · exact FailsIn.ite (readIn_notOfSender 8 _) (FailsIn.ok _)
    · split
      · refine Triple.bind (Triple.lift_failsIn (readIn_notOfSender 32 _)) fun _ => ?_
        refine Triple.bind (Triple.get fun _ h => h) fun c => ?_
        split
        · refine Triple.bind (Triple.get fun _ h => h) fun _ => ?_
          exact Triple.fail fun _ h => ⟨h, rfl⟩
        · refine Triple.bind (Triple.modify fun s h => ?_) fun _ => Triple.pure fun _ h => h
          unfold UpToChallenge at h ⊢
          rw [h]
      · refine Triple.bind (Triple.get fun _ h => h) fun c => ?_
        split
        · exact Triple.fail fun _ h => ⟨h, rfl⟩
        · exact Triple.pure fun _ h => h

end NetChannel

end QuickplayServer
