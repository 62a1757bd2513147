import QuickplayServer.Net.TextMessage
import QuickplayServer.Net.ReadMessages

/-!
# QuickplayServer.Net.Grammar

The grammar of the message lists that `read_messages` reads
(`src/io_util.rs`, `src/net/message.rs`, `src/net/netchannel.rs`).

The relations of this module say which bits are a text, a message and a list of
messages, and mention no reader.  That the readers read these and nothing else
is shown below (`parses_readString`, `parses_read`, `readMessages_eq_ok_iff`), so a
condition on what a packet carries can be put as a condition on its bits.
-/

namespace QuickplayServer

/-! ## Texts -/

/-- The bits start with a text of at most `limit` bytes.  A shorter text has its
terminator behind it; behind a text as long as the limit none is looked for. -/
inductive TextAt (limit : Nat) : (bits : List Bool) → String → (rest : List Bool) → Prop
  | terminated {s : String} {rest : List Bool} (h : Readable limit s) :
      TextAt limit (stringBits s ++ rest) s rest
  | full {s : String} {rest : List Bool} (hnul : (0 : UInt8) ∉ asBytes s)
      (hlen : (asBytes s).length = limit) :
      TextAt limit (BitList.ofBytes (asBytes s) ++ rest) s rest

/-- The bits start with these names and values, one after the other. -/
inductive ConVarsAt : (bits : List Bool) → List (String × String) → (rest : List Bool) → Prop
  | nil {rest : List Bool} : ConVarsAt rest [] rest
  | cons {bits afterName afterValue rest : List Bool} {name value : String}
      {convars : List (String × String)} (hname : TextAt 260 bits name afterName)
      (hvalue : TextAt 260 afterName value afterValue) (h : ConVarsAt afterValue convars rest) :
      ConVarsAt bits ((name, value) :: convars) rest

namespace Message

/-! ## Messages -/

/-- The bits behind the type of a message start with what belongs to it. -/
inductive BodyAt : (messageType : Nat) → (bits : List Bool) → Message → (rest : List Bool) → Prop
  | disconnect {bits rest : List Bool} {reason : String} (h : TextAt 1024 bits reason rest) :
      BodyAt MESSAGE_TYPE_DISCONNECT bits (.disconnect { reason }) rest
  | setConVars {bits rest : List Bool} {convars : List (String × String)}
      (hcount : convars.length < 2 ^ 8) (h : ConVarsAt bits convars rest) :
      BodyAt MESSAGE_TYPE_SET_CON_VAR (BitList.ofNat 8 convars.length ++ bits)
        (.setConVars { convars }) rest
  | signonState {signonState count : Nat} {rest : List Bool} (hstate : signonState < 2 ^ 8)
      (hcount : count < 2 ^ 32) :
      BodyAt MESSAGE_TYPE_SIGNON_STATE
        (BitList.ofNat 8 signonState ++ (BitList.ofNat 32 count ++ rest))
        (.signonState { signonState, spawnCount := (BitVec.ofNat 32 count).toInt }) rest
  | print {bits rest : List Bool} {text : String} (h : TextAt 2048 bits text rest) :
      BodyAt MESSAGE_TYPE_PRINT bits (.print { text }) rest

/-- The bits are the messages of a list, one after the other, and fewer bits
than a message type takes. -/
inductive AreMessages : (bits : List Bool) → List Message → Prop
  | done {bits : List Bool} (hshort : bits.length < NETMSG_TYPE_BITS) : AreMessages bits []
  | next {messageType : Nat} {body rest : List Bool} {message : Message} {messages : List Message}
      (hbody : BodyAt messageType body message rest) (h : AreMessages rest messages) :
      AreMessages (BitList.ofNat NETMSG_TYPE_BITS messageType ++ body) (message :: messages)

theorem BodyAt.type_lt {messageType : Nat} {bits rest : List Bool} {message : Message}
    (h : BodyAt messageType bits message rest) : messageType < 2 ^ NETMSG_TYPE_BITS := by
  cases h <;> decide

end Message

/-! ## What the readers read -/

section

variable [BitstreamIo]

/-- `read_string` reads the texts of the grammar. -/
theorem parses_readString {maxLen : Nat} (hpos : 0 < maxLen) :
    Parses (readString maxLen) (TextAt maxLen) where
  sound hread := by
    obtain ⟨hnul, ⟨hlen, hrest, -⟩ | ⟨hlen, hrest, -⟩⟩ := readString_sound hpos hread
    · exact hrest ▸ .terminated ⟨hnul, hlen⟩
    · exact hrest ▸ .full hnul hlen
  complete := by
    intro r s tl h
    generalize hr : r.rest = bits at h
    cases h with
    | terminated htext =>
        exact ⟨_, reads_readString htext r tl hr, BitReader.rest_skip_of_append hr⟩
    | full hnul hlen =>
        exact ⟨_, reads_readString_full hpos hnul hlen r tl hr, BitReader.rest_skip_of_append hr⟩

namespace Message

/-- The loop of `SetConVars` reads as many names and values as it is told to. -/
theorem parses_readConVars (numVars : Nat) :
    Parses (readConVars numVars)
      (fun bits convars rest => convars.length = numVars ∧ ConVarsAt bits convars rest) := by
  induction numVars with
  | zero =>
      constructor
      · rintro r convars r' ⟨⟩
        exact ⟨rfl, .nil⟩
      · rintro r convars tl ⟨hlen, h⟩
        obtain rfl := List.length_eq_zero_iff.mp hlen
        cases h
        exact ⟨r, rfl, rfl⟩
  | succ numVars ih =>
      have htext : Parses (readString 260) (TextAt 260) := parses_readString (by decide)
      refine (htext.bind fun name => htext.bind fun value =>
        ih.map fun convars => (name, value) :: convars).congr fun bits convars tl => ?_
      constructor
      · rintro ⟨name, afterName, hname, value, afterValue, hvalue, convars, ⟨hlen, h⟩, rfl⟩
        exact ⟨by rw [List.length_cons, hlen], .cons hname hvalue h⟩
      · rintro ⟨hlen, h⟩
        cases h with
        | nil => cases hlen
        | cons hname hvalue h =>
            exact ⟨_, _, hname, _, _, hvalue, _, ⟨Nat.succ.inj hlen, h⟩, rfl⟩

/-- `Message::read` reads the bodies of the grammar. -/
theorem parses_read (messageType : Nat) :
    Parses (read · messageType) (BodyAt messageType) := by
  have htext : ∀ {limit : Nat}, 0 < limit → Parses (readString limit) (TextAt limit) :=
    parses_readString
  by_cases hdisconnect : messageType = MESSAGE_TYPE_DISCONNECT
  · subst hdisconnect
    refine ((htext (by decide)).map fun reason => disconnect { reason }).congr fun bits m tl => ?_
    constructor
    · rintro ⟨reason, h, rfl⟩
      exact .disconnect h
    · rintro ⟨⟩
      exact ⟨_, ‹_›, rfl⟩
  by_cases hset : messageType = MESSAGE_TYPE_SET_CON_VAR
  · subst hset
    refine ((Parses.readIn 8).bind fun numVars => (parses_readConVars numVars).map
      fun convars => setConVars { convars }).congr fun bits m tl => ?_
    constructor
    · rintro ⟨_, mid, ⟨hlt, rfl⟩, convars, ⟨rfl, h⟩, rfl⟩
      exact .setConVars hlt h
    · rintro ⟨⟩
      exact ⟨_, _, ⟨‹_›, rfl⟩, _, ⟨rfl, ‹_›⟩, rfl⟩
  by_cases hsignon : messageType = MESSAGE_TYPE_SIGNON_STATE
  · subst hsignon
    refine ((Parses.readIn 8).bind fun state => (Parses.readIn 32).map fun count =>
      signonState { signonState := state, spawnCount := (BitVec.ofNat 32 count).toInt }).congr
        fun bits m tl => ?_
    constructor
    · rintro ⟨state, mid, ⟨hstate, rfl⟩, count, ⟨hcount, rfl⟩, rfl⟩
      exact .signonState hstate hcount
    · rintro ⟨⟩
      exact ⟨_, _, ⟨‹_›, rfl⟩, _, ⟨‹_›, rfl⟩, rfl⟩
  by_cases hprint : messageType = MESSAGE_TYPE_PRINT
  · subst hprint
    refine ((htext (by decide)).map fun text => print { text }).congr fun bits m tl => ?_
    constructor
    · rintro ⟨text, h, rfl⟩
      exact .print h
    · rintro ⟨⟩
      exact ⟨_, ‹_›, rfl⟩
  · -- the other types are not handled
    constructor
    · intro r message r' h
      unfold read at h
      split at h <;> contradiction
    · intro r message tl h
      generalize r.rest = bits at h
      cases h <;> contradiction

end Message

namespace NetChannel

open Message

/-! ## The loop -/

/-- A round of the loop reads a type and the body of a message of that type. -/
theorem parses_readNext : Parses readNext fun bits m tl => ∃ messageType body,
    (messageType < 2 ^ NETMSG_TYPE_BITS ∧
      bits = BitList.ofNat NETMSG_TYPE_BITS messageType ++ body) ∧ BodyAt messageType body m tl :=
  (Parses.readIn NETMSG_TYPE_BITS).bind parses_read

/-- A round takes bits, so the rounds left are enough for the bits left. -/
theorem readNext_leaves {dataLen fuel : Nat} {r r' : BitReader} {m : Message} (hb : r.InBounds)
    (hdata : r.data.length = dataLen) (hfuel : r.rest.length < fuel + 1)
    (hread : readNext r = .ok (m, r')) :
    r'.InBounds ∧ r'.data.length = dataLen ∧ r'.rest.length < fuel := by
  obtain ⟨⟨messageType, r₁⟩, htype, hbody⟩ := Outcome.bind_eq_ok.mp hread
  have htype' := BitReader.Advances.readIn _ _ _ htype
  have hbody' := read_advances _ _ _ _ hbody
  obtain ⟨-, rfl, -⟩ := BitReader.readIn_eq_ok.mp htype
  have hbefore := htype'.trans hbody'
  have hsix : r.pos + 6 ≤ r'.pos := hbody'.pos
  have hend := hb.pos_add_length_rest
  have hlen := hbefore.inBounds hb
  have hend' := hlen.pos_add_length_rest
  rw [hbefore.data] at hend'
  exact ⟨hlen, by rw [hbefore.data, hdata], by omega⟩

/-- The loop reads the lists of the grammar, when it has a round for every bit. -/
theorem readMessagesLoop_eq_ok_iff {dataLen fuel : Nat} {r : BitReader} {acc out : List Message}
    (hb : r.InBounds) (hdata : r.data.length = dataLen) (hfuel : r.rest.length < fuel) :
    readMessagesLoop dataLen fuel r acc = .ok out ↔
      ∃ messages, AreMessages r.rest messages ∧ out = acc ++ messages := by
  induction fuel generalizing r acc with
  | zero => omega
  | succ fuel ih =>
      have hend : r.pos + r.rest.length = dataLen * 8 := by
        have hsum := hb.pos_add_length_rest
        omega
      by_cases hshort : r.rest.length < NETMSG_TYPE_BITS
      case pos =>
        rw [readMessagesLoop_done hend hshort, Outcome.ok.injEq]
        constructor
        · rintro rfl
          exact ⟨[], .done hshort, (List.append_nil _).symm⟩
        · rintro ⟨messages, h, rfl⟩
          generalize r.rest = bits at h hshort
          cases h with
          | done => rw [List.append_nil]
          | next hbody =>
              rw [List.length_append, BitList.length_ofNat] at hshort
              omega
      case neg =>
        rw [readMessagesLoop_succ hend (Nat.not_lt.mp hshort), Outcome.bind_eq_ok]
        constructor
        · rintro ⟨⟨m, r'⟩, hread, hloop⟩
          obtain ⟨hb', hdata', hfuel'⟩ := readNext_leaves hb hdata hfuel hread
          obtain ⟨messages, h, rfl⟩ := (ih hb' hdata' hfuel').mp hloop
          obtain ⟨messageType, body, ⟨-, hbits⟩, hbody⟩ := parses_readNext.sound hread
          exact ⟨m :: messages, hbits ▸ .next hbody h, by simp⟩
        · rintro ⟨messages, h, rfl⟩
          generalize hr : r.rest = bits at h
          cases h with
          | done hshort' => exact absurd (hr ▸ hshort') hshort
          | next hbody h =>
              obtain ⟨r', hread, rfl⟩ :=
                parses_readNext.complete ⟨_, _, ⟨hbody.type_lt, hr⟩, hbody⟩
              obtain ⟨hb', hdata', hfuel'⟩ := readNext_leaves hb hdata hfuel hread
              exact ⟨_, hread, (ih hb' hdata' hfuel').mpr ⟨_, h, by simp⟩⟩

/-- `read_messages` reads the lists of the grammar. -/
theorem readMessages_eq_ok_iff {r : BitReader} {messages : List Message} (hb : r.InBounds) :
    readMessages r r.data.length [] = .ok messages ↔ AreMessages r.rest messages := by
  have hlen := hb.pos_add_length_rest
  rw [readMessages, readMessagesLoop_eq_ok_iff hb rfl (by omega)]
  simp

end NetChannel

end

end QuickplayServer
