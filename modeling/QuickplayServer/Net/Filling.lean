import QuickplayServer.Net.Later

/-!
# QuickplayServer.Net.Filling

What `fill_outgoing_subchannel` assigns, for any configuration.

The number of fragments comes from `max_reliable_packet_size`, which is not
checked.  Below 256 a packet has room for none, and from 2048 on the number
can exceed the 3 bits that `write_outgoing_reliable_data` has for it.
-/

namespace QuickplayServer

namespace NetChannel

/-- `filled` is `channel` after the next `num` fragments of its front transfer
were assigned to subchannel `k`. -/
structure Assigns (channel filled : NetChannel) (k : Fin MAX_SUBCHANNELS)
    (stream : OutgoingReliableData) (queue : List OutgoingReliableData) (num : Nat) : Prop where
  state : (filled.outgoingSubchannels k).state = .waitingToSend
  start : (filled.outgoingSubchannels k).startFragment 0 = stream.sentFragments
  count : (filled.outgoingSubchannels k).numFragments 0 = num
  le : stream.sentFragments + num ≤ fragments stream.data.length
  front : filled.outgoingReliableData 0 =
    { stream with pendingFragments := stream.pendingFragments + num } :: queue
  others : ∀ l ≠ k, filled.outgoingSubchannels l = channel.outgoingSubchannels l

/-- The fill makes progress, and a packet can carry what it assigned. -/
def FillsRepresentably (self : NetChannel) (k : Fin MAX_SUBCHANNELS) (stream : OutgoingReliableData)
    (queue : List OutgoingReliableData) : Prop :=
  ∃ num self', fillOutgoingSubchannel self = (.ok (), self') ∧
  Assigns self self' k stream queue num ∧
    1 ≤ num ∧
    num * FRAGMENT_SIZE ≤ max FRAGMENT_SIZE self.configuration.server.maxReliablePacketSize ∧
    (num = fragments stream.data.length ∨ num < 2 ^ 3)

/-- The fragments of the transfer can be counted, a packet has room for one, and the next ones
are fewer than eight or the whole transfer. -/
def RoomIsRepresentable (self : NetChannel) (stream : OutgoingReliableData) : Prop :=
  stream.data.length + 256 < 2 ^ 32 ∧ 256 ≤ self.configuration.server.maxReliablePacketSize ∧
    (self.configuration.server.maxReliablePacketSize < 2048 ∨
      fragments stream.data.length - stream.sentFragments < 8 ∨
      stream.sentFragments = 0 ∧
        fragments stream.data.length * FRAGMENT_SIZE ≤
          self.configuration.server.maxReliablePacketSize)

variable {self : NetChannel} {k : Fin MAX_SUBCHANNELS} {stream : OutgoingReliableData}
  {queue : List OutgoingReliableData}

/-- The subchannel that is found is the lowest one. -/
theorem findSubchannel_of_lowest {state : SubChannelState}
    (hk : (self.outgoingSubchannels k).state = state)
    (hlowest : ∀ l < k, (self.outgoingSubchannels l).state ≠ state) :
    self.findSubchannel state = some k := by
  rw [findSubchannel, List.find?_eq_some_iff_getElem]
  refine ⟨by simpa using hk, k, by simp, by simp, fun l hl => ?_⟩
  have hne := hlowest ⟨l, hl.trans k.isLt⟩ hl
  simpa using hne

theorem fill_assigns {num : Nat} (hle : stream.sentFragments + num ≤ fragments stream.data.length) :
    Assigns self (self.fill k stream queue num) k stream queue num where
  state := by simp [fill_outgoingSubchannels]
  start := by simp [fill_outgoingSubchannels]
  count := by simp [fill_outgoingSubchannels]
  le := hle
  front := by simp
  others l hl := by simp [fill_outgoingSubchannels, hl]

/-- A transfer whose fragments cannot be counted in a `u32`. -/
theorem fillOutgoingSubchannel_of_le (hfind : self.findSubchannel .free = some k)
    (hqueue : self.outgoingReliableData 0 = stream :: queue)
    (hsize : 2 ^ 32 ≤ stream.data.length + 256)
    (hlt : stream.sentFragments < fragments stream.data.length) :
    (fillOutgoingSubchannel self).1 = .panic := by
  have hfits := stream.fits
  have hsum : stream.ackedFragments + stream.pendingFragments < fragments stream.data.length := hlt
  have hsent : (Outcome.add32 stream.ackedFragments stream.pendingFragments : Result Nat) =
      .ok stream.sentFragments := by
    refine Outcome.add32_of_lt ?_
    rw [fragments_eq] at hsum
    omega
  have htotal : stream.totalFragments = .panic := bytesToFragments_of_le hsize
  have hloop : fillStreams k [0, 1] self.maxFragments false self = (.panic, self) := by
    rw [fillStreams]
    simp only [Method.get_bind, hqueue, hsent, htotal, Method.lift_bind_ok, Method.lift_bind_panic]
  unfold fillOutgoingSubchannel
  simp only [Method.get_bind, finRange_MAX_STREAMS, hfind]
  exact congrArg Prod.fst (Method.bind_panic hloop)

theorem fillsRepresentably_iff (hfind : self.findSubchannel .free = some k)
    (hqueue : self.outgoingReliableData 0 = stream :: queue)
    (hfile : self.outgoingReliableData 1 = [])
    (hlt : stream.sentFragments < fragments stream.data.length) :
    self.FillsRepresentably k stream queue ↔ self.RoomIsRepresentable stream := by
  by_cases hsize : stream.data.length + 256 < 2 ^ 32
  · have hfill := fillOutgoingSubchannel_of_lt hfind hqueue hfile hsize hlt
    have hmax : self.maxFragments = self.configuration.server.maxReliablePacketSize / 256 := rfl
    constructor
    · rintro ⟨num, self', hself', hassigns, hpos, -, hfits⟩
      rw [hfill, Prod.mk.injEq] at hself'
      obtain ⟨-, rfl⟩ := hself'
      have hnum := hassigns.count
      simp only [fill_outgoingSubchannels, Function.update_self, hmax] at hnum
      refine ⟨hsize, ?_, ?_⟩
      · omega
      · rw [FRAGMENT_SIZE_eq]
        omega
    · rintro ⟨-, hroom, hfew⟩
      rw [hmax] at hfill
      refine ⟨_, _, hfill, fill_assigns ?_, ?_, ?_, ?_⟩
      · omega
      · omega
      · rw [FRAGMENT_SIZE_eq]
        omega
      · rw [FRAGMENT_SIZE_eq] at hfew
        omega
  · constructor
    · rintro ⟨num, self', hfill, -⟩
      have hpanic := fillOutgoingSubchannel_of_le hfind hqueue (Nat.not_lt.mp hsize) hlt
      rw [hfill] at hpanic
      cases hpanic
    · exact fun h => absurd h.1 hsize

/-- In every state that a run reaches, the lowest free subchannel gets a number
of fragments that makes progress and fits its field exactly when the room that
is configured for reliable data is representable. -/
theorem run_fillsRepresentably_iff [BitstreamIo] [Crc] {challenge : BitVec 32}
    {configuration : Configuration} {calls : List Call}
    (hrun : run (new challenge configuration) calls = some self)
    (hfree : (self.outgoingSubchannels k).state = .free)
    (hlowest : ∀ l < k, (self.outgoingSubchannels l).state ≠ .free)
    (hqueue : self.outgoingReliableData 0 = stream :: queue)
    (hlt : stream.sentFragments < fragments stream.data.length) :
    self.FillsRepresentably k stream queue ↔ self.RoomIsRepresentable stream :=
  fillsRepresentably_iff (findSubchannel_of_lowest hfree hlowest) hqueue (run_file hrun) hlt

/-- The transfer of one short message. -/
def shortStream : OutgoingReliableData := ⟨0, 0, [7, 30, 0], by decide⟩

theorem run_fillsRepresentably_print : ∃ self,
    run fresh [.queueReliableMessages [.print ⟨"x"⟩]] = some self ∧
      (self.FillsRepresentably 0 shortStream [] ↔ self.RoomIsRepresentable shortStream) := by
  have hstate : (run fresh [.queueReliableMessages [.print ⟨"x"⟩]]).map (fun self =>
      ((self.outgoingSubchannels 0).state, self.outgoingReliableData 0)) =
        some (.free, [shortStream]) := by decide +kernel
  obtain ⟨self, hrun, hself⟩ := Option.map_eq_some_iff.mp hstate
  obtain ⟨hfree, hqueue⟩ := Prod.mk.inj hself
  exact ⟨self, hrun, run_fillsRepresentably_iff hrun hfree (by simp) hqueue (by decide)⟩

/-- A channel whose packets have room for 128 bytes of reliable data. -/
def tooNarrow : NetChannel :=
  new 5#32 { Configuration.loadDefault with
    server := { Configuration.loadDefault.server with maxReliablePacketSize := 128 } }

/-- With less room than a fragment needs, a fill assigns nothing. -/
theorem tooNarrow_fills_nothing : ∃ self,
    run tooNarrow [.queueReliableMessages [.print ⟨"x"⟩]] = some self ∧
      (self.outgoingSubchannels 0).state = .free ∧ self.outgoingReliableData 0 = [shortStream] ∧
      shortStream.sentFragments < fragments shortStream.data.length ∧
      ¬ self.FillsRepresentably 0 shortStream [] := by
  have hstate : (run tooNarrow [.queueReliableMessages [.print ⟨"x"⟩]]).map (fun self =>
      ((self.outgoingSubchannels 0).state, self.outgoingReliableData 0,
        self.configuration.server.maxReliablePacketSize, self.outgoingReliableData 1)) =
        some (.free, [shortStream], 128, []) := by decide +kernel
  obtain ⟨self, hrun, hself⟩ := Option.map_eq_some_iff.mp hstate
  simp only [Prod.mk.injEq] at hself
  obtain ⟨hfree, hqueue, hroom, hfile⟩ := hself
  refine ⟨self, hrun, hfree, hqueue, by decide, fun hfills => ?_⟩
  have hroom' := ((fillsRepresentably_iff (findSubchannel_of_lowest hfree (by simp)) hqueue hfile
    (by decide)).mp hfills).2.1
  omega

end NetChannel

end QuickplayServer
