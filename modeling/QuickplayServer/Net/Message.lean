import QuickplayServer.IoUtil

/-!
# QuickplayServer.Net.Message

The messages of a connection and their encoding (`src/net/message.rs`).
-/

namespace QuickplayServer

/-- disconnect, last message in connection -/
@[match_pattern] def MESSAGE_TYPE_DISCONNECT : Nat := 1
/-- a string command -/
@[match_pattern] def MESSAGE_TYPE_STRINGCMD : Nat := 4
/-- sends one/multiple convar settings -/
@[match_pattern] def MESSAGE_TYPE_SET_CON_VAR : Nat := 5
/-- signals current signon state -/
@[match_pattern] def MESSAGE_TYPE_SIGNON_STATE : Nat := 6
/-- print text to console -/
@[match_pattern] def MESSAGE_TYPE_PRINT : Nat := 7

def NETMSG_TYPE_BITS : Nat := 6

structure MessageDisconnect where
  reason : String
  deriving DecidableEq, Repr

structure MessageStringCmd where
  command : String
  deriving DecidableEq, Repr

structure MessageSetConVars where
  convars : List (String × String)
  deriving DecidableEq, Repr

structure MessageSignonState where
  signonState : Nat
  spawnCount : Int
  deriving DecidableEq, Repr

structure MessagePrint where
  text : String
  deriving DecidableEq, Repr

inductive Message where
  | disconnect (message : MessageDisconnect)
  | stringCmd (message : MessageStringCmd)
  | setConVars (message : MessageSetConVars)
  | signonState (message : MessageSignonState)
  | print (message : MessagePrint)
  deriving DecidableEq, Repr

namespace Message

variable [BitstreamIo]

/-! ## Reading and writing -/

/-- The name and value pairs of `SetConVars`. -/
def readConVars : (numVars : Nat) → BitReader → Result (List (String × String) × BitReader)
  | 0, reader => .ok ([], reader)
  | numVars + 1, reader => do
      let (name, reader) ← readString 260 reader
      let (value, reader) ← readString 260 reader
      let (convars, reader) ← readConVars numVars reader
      pure ((name, value) :: convars, reader)

def read (reader : BitReader) (messageType : Nat) : Result (Message × BitReader) :=
  match messageType with
  | MESSAGE_TYPE_DISCONNECT => do
      let (reason, reader) ← readString 1024 reader
      pure (.disconnect { reason }, reader)
  | MESSAGE_TYPE_SET_CON_VAR => do
      let (numVars, reader) ← reader.readIn 8
      let (convars, reader) ← readConVars numVars reader
      pure (.setConVars { convars }, reader)
  | MESSAGE_TYPE_SIGNON_STATE => do
      let (state, reader) ← reader.readIn 8
      let (count, reader) ← reader.readIn 32
      let spawnCount := (BitVec.ofNat 32 count).toInt
      pure (.signonState { signonState := state, spawnCount }, reader)
  | MESSAGE_TYPE_PRINT => do
      let (text, reader) ← readString 2048 reader
      pure (.print { text }, reader)
  | messageType => .err (.unhandledMessageType messageType)

def write (message : Message) (writer : BitWriter) : Result BitWriter :=
  match message with
  | .stringCmd message => do
      let writer ← writer.writeOut NETMSG_TYPE_BITS MESSAGE_TYPE_STRINGCMD
      writeString message.command writer
  | .print message => do
      let writer ← writer.writeOut NETMSG_TYPE_BITS MESSAGE_TYPE_PRINT
      writeString message.text writer
  | .disconnect message => do
      let writer ← writer.writeOut NETMSG_TYPE_BITS MESSAGE_TYPE_DISCONNECT
      writeString message.reason writer
  | _ => .err .unhandledMessageForWrite

/-- Writes one message after the other. -/
def writeAll : (messages : List Message) → BitWriter → Result BitWriter
  | [], writer => .ok writer
  | message :: messages, writer => do
      let writer ← message.write writer
      writeAll messages writer

/-- Reads the 6-bit type of a message, then the message. -/
def readNext (reader : BitReader) : Result (Message × BitReader) := do
  let (messageType, reader) ← reader.readIn NETMSG_TYPE_BITS
  read reader messageType

/-! ### what cannot be read -/

open BitReader (Advances)

/-- By induction on the number of variables; a variable that is cut off is an error. -/
theorem readConVars_ne_panic (numVars : Nat) (reader : BitReader) :
    readConVars numVars reader ≠ .panic := by
  induction numVars generalizing reader with
  | zero => simp [readConVars]
  | succ numVars ih =>
      refine Outcome.bind_ne_panic (readString_ne_panic _ _) fun (name, reader) _ => ?_
      refine Outcome.bind_ne_panic (readString_ne_panic _ _) fun (value, reader) _ => ?_
      exact Outcome.bind_ne_panic (ih reader) fun _ _ => by simp

/-- A message that cannot be read is an error. -/
theorem read_ne_panic (reader : BitReader) (messageType : Nat) :
    read reader messageType ≠ .panic := by
  unfold read
  split
  · exact Outcome.bind_ne_panic (readString_ne_panic _ _) fun _ _ => by simp
  · refine Outcome.bind_ne_panic (BitReader.readIn_ne_panic _ _) fun _ _ => ?_
    exact Outcome.bind_ne_panic (readConVars_ne_panic _ _) fun _ _ => by simp
  · refine Outcome.bind_ne_panic (BitReader.readIn_ne_panic _ _) fun _ _ => ?_
    exact Outcome.bind_ne_panic (BitReader.readIn_ne_panic _ _) fun _ _ => by simp
  · exact Outcome.bind_ne_panic (readString_ne_panic _ _) fun _ _ => by simp
  · simp

/-- By induction on the number of variables: each is read behind the one before. -/
theorem readConVars_advances (numVars : Nat) (reader : BitReader) :
    Advances (readConVars numVars reader) reader := by
  induction numVars generalizing reader with
  | zero => exact Advances.ok _
  | succ numVars ih =>
      refine Advances.bind (readString_advances _ _) fun name reader => ?_
      refine Advances.bind (readString_advances _ _) fun value reader => ?_
      exact Advances.bind (ih reader) fun _ _ => Advances.ok _

/-- Every message is read from the front of what is left. -/
theorem read_advances (reader : BitReader) (messageType : Nat) :
    Advances (read reader messageType) reader := by
  unfold read
  split
  · exact Advances.bind (readString_advances _ _) fun _ _ => Advances.ok _
  · refine Advances.bind (Advances.readIn 8) fun _ _ => ?_
    exact Advances.bind (readConVars_advances _ _) fun _ _ => Advances.ok _
  · refine Advances.bind (Advances.readIn 8) fun _ _ => ?_
    exact Advances.bind (Advances.readIn 32) fun _ _ => Advances.ok _
  · exact Advances.bind (readString_advances _ _) fun _ _ => Advances.ok _
  · exact Advances.err _

/-! ## The bits of a message -/

omit [BitstreamIo]

/-- The type and text of a message that can be written. -/
def content : Message → Option (Nat × String)
  | .stringCmd message => some (MESSAGE_TYPE_STRINGCMD, message.command)
  | .print message => some (MESSAGE_TYPE_PRINT, message.text)
  | .disconnect message => some (MESSAGE_TYPE_DISCONNECT, message.reason)
  | _ => none

/-- `write` handles the message. -/
def Writable (message : Message) : Prop := message.content.isSome

instance (message : Message) : Decidable message.Writable :=
  inferInstanceAs (Decidable (message.content.isSome = true))

/-- The bits that `write` writes. -/
def bits (message : Message) : List Bool :=
  match message.content with
  | some (messageType, text) => BitList.ofNat NETMSG_TYPE_BITS messageType ++ stringBits text
  | none => []

/-- The bits that `writeAll` writes. -/
def bitsAll (messages : List Message) : List Bool := messages.flatMap bits

/-- A `Print` or `Disconnect` message with a text that the reader takes whole. -/
def Textual : Message → Prop
  | .print message => Readable 2048 message.text
  | .disconnect message => Readable 1024 message.reason
  | _ => False

instance : (message : Message) → Decidable message.Textual
  | .print message => inferInstanceAs (Decidable (Readable 2048 message.text))
  | .disconnect message => inferInstanceAs (Decidable (Readable 1024 message.reason))
  | .stringCmd _ | .setConVars _ | .signonState _ => inferInstanceAs (Decidable False)

/-- A message with a text is one that can be written. -/
theorem Textual.writable {message : Message} (h : message.Textual) : message.Writable := by
  cases message <;> first | rfl | exact h.elim

@[simp] theorem bitsAll_nil : bitsAll [] = [] := rfl

@[simp] theorem bitsAll_cons (message : Message) (messages : List Message) :
    bitsAll (message :: messages) = message.bits ++ bitsAll messages := rfl

/-- A written message takes its type and whole bytes. -/
theorem length_bits_mod {message : Message} (h : message.Writable) :
    message.bits.length % 8 = 6 := by
  obtain ⟨⟨messageType, text⟩, hcontent⟩ := Option.isSome_iff_exists.mp h
  rw [bits, hcontent, List.length_append, BitList.length_ofNat, length_stringBits]
  unfold NETMSG_TYPE_BITS
  omega

/-- A message is six bits of type and whole bytes of text, so the number of messages
says how many bits are left over. -/
theorem length_bitsAll_mod {messages : List Message} (h : ∀ m ∈ messages, m.Writable) :
    (bitsAll messages).length % 8 = 6 * messages.length % 8 := by
  induction messages with
  | nil => rfl
  | cons message messages ih =>
      have hhead := length_bits_mod (h message List.mem_cons_self)
      have htail := ih fun m hm => h m (List.mem_cons_of_mem message hm)
      rw [bitsAll_cons, List.length_append, List.length_cons]
      omega

/-! ## Spec lemmas -/

variable [BitstreamIo]

/-- Writing a message appends its bits. -/
theorem write_eq {message : Message} (h : message.Writable) (w : BitWriter) :
    message.write w = .ok ⟨w.bits ++ message.bits⟩ := by
  cases message with
  | setConVars _ | signonState _ => simp [Writable, content] at h
  | stringCmd _ | print _ | disconnect _ =>
      simp [write, bits, content, NETMSG_TYPE_BITS, MESSAGE_TYPE_STRINGCMD, MESSAGE_TYPE_PRINT,
        MESSAGE_TYPE_DISCONNECT]

/-- A message of another type has no way to be written. -/
theorem write_of_not_writable {message : Message} (h : ¬ message.Writable) (w : BitWriter) :
    message.write w = .err .unhandledMessageForWrite := by
  cases message with
  | setConVars _ | signonState _ => rfl
  | stringCmd _ | print _ | disconnect _ => exact absurd rfl h

/-- Writing messages appends their bits when each of them is handled, and
fails otherwise. -/
theorem writeAll_eq {messages : List Message} (h : ∀ m ∈ messages, m.Writable) (w : BitWriter) :
    writeAll messages w = .ok ⟨w.bits ++ bitsAll messages⟩ := by
  induction messages generalizing w with
  | nil => simp [writeAll]
  | cons message messages ih =>
      have htail := ih fun m hm => h m (List.mem_cons_of_mem message hm)
      rw [writeAll, write_eq (h message List.mem_cons_self), Outcome.ok_bind, htail, bitsAll_cons,
        List.append_assoc]

/-- One such message makes the whole list fail. -/
theorem writeAll_of_not_writable {messages : List Message} (h : ¬ ∀ m ∈ messages, m.Writable)
    (w : BitWriter) : writeAll messages w = .err .unhandledMessageForWrite := by
  induction messages generalizing w with
  | nil => simp at h
  | cons message messages ih =>
      rw [writeAll]
      by_cases hm : message.Writable
      · have htail : ¬ ∀ m ∈ messages, m.Writable := by
          intro hall
          exact h (List.forall_mem_cons.mpr ⟨hm, hall⟩)
        rw [write_eq hm, Outcome.ok_bind, ih htail]
      · rw [write_of_not_writable hm, Outcome.err_bind]

/-- A list of messages is written exactly if each of them can be, and then its bits
are appended. -/
theorem writeAll_eq_ok {messages : List Message} {w w' : BitWriter} :
    writeAll messages w = .ok w' ↔
      (∀ m ∈ messages, m.Writable) ∧ w' = ⟨w.bits ++ bitsAll messages⟩ := by
  by_cases h : ∀ m ∈ messages, m.Writable
  · rw [writeAll_eq h, Outcome.ok.injEq, eq_comm]
    exact ⟨fun hw => ⟨h, hw⟩, fun hw => hw.2⟩
  · rw [writeAll_of_not_writable h]
    exact ⟨fun hw => by simp at hw, fun hw => absurd hw.1 h⟩

/-- Writing messages never panics. -/
theorem writeAll_ne_panic (messages : List Message) (w : BitWriter) :
    writeAll messages w ≠ .panic := by
  by_cases h : ∀ m ∈ messages, m.Writable
  · simp [writeAll_eq h]
  · simp [writeAll_of_not_writable h]

/-- A `Print` is one string of up to 2048 bytes. -/
theorem read_print (r : BitReader) :
    read r MESSAGE_TYPE_PRINT = (do
      let (text, r) ← readString 2048 r
      pure (.print { text }, r)) := rfl

/-- A `Disconnect` is one string of up to 1024 bytes. -/
theorem read_disconnect (r : BitReader) :
    read r MESSAGE_TYPE_DISCONNECT = (do
      let (reason, r) ← readString 1024 r
      pure (.disconnect { reason }, r)) := rfl

/-- There is no message of type 0: what pads a packet is not a message. -/
theorem read_zero (r : BitReader) : read r 0 = .err (.unhandledMessageType 0) := rfl

/-- A textual message is read back from its bits. -/
theorem reads_readNext {message : Message} (h : message.Textual) :
    Reads readNext message.bits message := by
  cases message with
  | stringCmd _ | setConVars _ | signonState _ => exact h.elim
  | print message =>
      have htext : Reads (read · MESSAGE_TYPE_PRINT) (stringBits message.text) (.print message) :=
        Reads.map (reads_readString h) fun text => print { text }
      have htype : MESSAGE_TYPE_PRINT < 2 ^ NETMSG_TYPE_BITS := by decide
      exact Reads.bind (g := fun type r => read r type) (Reads.readIn htype) htext
  | disconnect message =>
      have hreason : Reads (read · MESSAGE_TYPE_DISCONNECT) (stringBits message.reason)
          (.disconnect message) :=
        Reads.map (reads_readString h) fun reason => disconnect { reason }
      have htype : MESSAGE_TYPE_DISCONNECT < 2 ^ NETMSG_TYPE_BITS := by decide
      exact Reads.bind (g := fun type r => read r type) (Reads.readIn htype) hreason

end Message

end QuickplayServer
