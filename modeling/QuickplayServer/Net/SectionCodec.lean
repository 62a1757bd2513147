import QuickplayServer.Net.RoundTrip

/-!
# QuickplayServer.Net.SectionCodec

The reliable section as a codec: whatever fragments
`write_outgoing_reliable_data` writes, the reader in `read_packet` finds the
subchannel again and copies the fragments to where they came from, at any bit
offset and with anything behind them.
-/

namespace QuickplayServer

/-- The transfer that fragments of `data` from `start` on go to: a fresh one if
they are its first, and else the one in progress in the slot. -/
def Receives (slot : Option IncomingReliableData) (data : List UInt8) (start : Nat)
    (before : IncomingReliableData) : Prop :=
  if start = 0 then before = IncomingReliableData.new none data.length
  else slot = some before ∧ before.bytes = data.length ∧ before.data.length = data.length ∧
    before.ackedFragments < fragments data.length

/-- `after` is `before` with `num` fragments of `data` from `start` on. -/
structure TakesFragments (before after : IncomingReliableData) (data : List UInt8)
    (start num : Nat) : Prop where
  length : after.data.length = data.length
  acked : after.ackedFragments = before.ackedFragments + num
  getElem? : ∀ i, after.data[i]? =
    if 256 * start ≤ i ∧ i < min (256 * (start + num)) data.length then data[i]?
      else before.data[i]?

namespace NetChannel

theorem Receives.opened {self : NetChannel} {p : Fragment} {before : IncomingReliableData}
    (h : Receives (self.incomingReliableData 0) p.data p.start before) :
    self.opened p = some before := by
  unfold Receives at h
  unfold NetChannel.opened Fragment.opened
  split at h
  case isTrue hfirst => rw [if_pos hfirst, Option.some_or, h]
  case isFalse hlater => rw [if_neg hlater, Option.none_or, h.1]

theorem Receives.continues {slot : Option IncomingReliableData} {p : Fragment}
    {before : IncomingReliableData} (h : Receives slot p.data p.start before) :
    Continues before p := by
  have hle := p.le
  have hsize := p.size
  have hfragments : fragments p.data.length < 2 ^ 31 := by rw [fragments_eq]; omega
  unfold Receives at h
  split at h
  · subst h
    refine ⟨rfl, List.length_replicate, ?_⟩
    change 0 + p.num < 2 ^ 32
    omega
  · exact ⟨h.2.1, h.2.2.1, by omega⟩

/-- Storing a fragment is what `TakesFragments` says. -/
theorem Continues.takesFragments {before : IncomingReliableData} {p : Fragment}
    (h : Continues before p) : TakesFragments before (before.store p) p.data p.start p.num := by
  have hle := p.offset_add_length_le
  have hbytes := p.length_bytes
  have hslice : 256 * p.start + p.bytes.length ≤ before.data.length := h.length ▸ hle
  refine ⟨(length_setSlice hslice).trans h.length, rfl, fun i => ?_⟩
  rw [IncomingReliableData.store, getElem?_setSlice hslice]
  have hiff : (256 * p.start ≤ i ∧ i < 256 * p.start + p.bytes.length) ↔
      256 * p.start ≤ i ∧ i < min (256 * (p.start + p.num)) p.data.length := by
    have hinside := p.inside
    omega
  rw [if_congr hiff rfl rfl]
  split
  case isTrue hin =>
    rw [Fragment.bytes, List.getElem?_take_of_lt (by omega), List.getElem?_drop,
      Nat.add_sub_cancel' hin.1]
  case isFalse => rfl

section

variable [BitstreamIo]

/-- Wherever the bits stand, the reader finds subchannel `k` and takes the
fragments into the transfer that they go to, and nothing else changes. -/
def RecoversFragments (bits : List Bool) (k : Fin MAX_SUBCHANNELS) (data : List UInt8)
    (start num : Nat) : Prop :=
  ∀ (receiver : NetChannel) (before : IncomingReliableData) (r : BitReader) (tl : List Bool),
    r.rest = bits ++ tl → Receives (receiver.incomingReliableData 0) data start before →
    r.readIn 3 = (.ok (k.val, r.skip 3) : Result _) ∧
    ∃ after, readStreams (List.finRange MAX_STREAMS) (r.skip 3) receiver =
        (.ok (r.skip bits.length), receiver.setIncoming 0 (some after)) ∧
      TakesFragments before after data start num

theorem section_recoversFragments (s : Section) :
    RecoversFragments s.bits s.subchannel s.fragment.data s.fragment.start s.fragment.num := by
  intro receiver before r tl hr hbefore
  have hr' : r.rest = BitList.ofNat 3 s.subchannel ++ (s.fragment.bits ++ [false] ++ tl) := by
    simpa [Section.bits] using hr
  have hindex :=
    Reads.readIn (ε := Error) (show (s.subchannel : Nat) < 2 ^ 3 from s.subchannel.isLt)
    r _ hr'
  have hcontinues := Receives.continues hbefore
  have hstreams := readStreams_eq (BitReader.rest_skip_of_append hr') (Receives.opened hbefore)
    hcontinues
  rw [BitList.length_ofNat] at hindex hstreams
  refine ⟨hindex, _, ?_, hcontinues.takesFragments⟩
  rw [hstreams, BitReader.skip_skip]
  simp only [Section.bits, List.length_append, BitList.length_ofNat, Nat.add_assoc]

/-- In every state that a run reaches, the fragments of the front transfer that
are written are recovered by every reader whose slot they belong to. -/
theorem run_section_codec [Crc] {challenge : BitVec 32} {configuration : Configuration}
    {calls : List Call} {self self' : NetChannel} {w w' : BitWriter}
    {stream : OutgoingReliableData} {queue : List OutgoingReliableData}
    (hrun : run (new challenge configuration) calls = some self)
    (hwrite : writeOutgoingReliableData w self = (.ok (true, w'), self'))
    (hqueue : self'.outgoingReliableData 0 = stream :: queue) :
    ∃ (k : Fin MAX_SUBCHANNELS) (bits : List Bool),
      (self'.outgoingSubchannels k).state = .waitingForAck ∧ w' = ⟨w.bits ++ bits⟩ ∧
      RecoversFragments bits k stream.data ((self'.outgoingSubchannels k).startFragment 0)
        ((self'.outgoingSubchannels k).numFragments 0) := by
  obtain ⟨-, hsent, -⟩ | ⟨-, -, hempty⟩ | ⟨s, hcarries, -, rfl, rfl⟩ :=
    writeOutgoingReliableData_ok_cases (run_file hrun) hwrite
  · cases hsent
  · cases hempty.symm.trans hqueue
  · obtain ⟨-, ⟨front, rest, hfront, hdata⟩, hstart, hnum⟩ := hcarries
    obtain ⟨rfl, -⟩ := List.cons.inj (hfront.symm.trans hqueue)
    refine ⟨s.subchannel, s.bits, by simp [marked], rfl, ?_⟩
    simp only [marked, setSubchannel_outgoingSubchannels, Function.update_self]
    rw [← hstart, ← hnum, hdata]
    exact section_recoversFragments s

end

/-- One queued message is one fragment in subchannel 0. -/
theorem run_section_codec_print : ∃ self self' w' stream queue,
    run fresh [.queueReliableMessages [.print ⟨"x"⟩]] = some self ∧
      writeOutgoingReliableData ⟨[]⟩ self = (.ok (true, w'), self') ∧
      self'.outgoingReliableData 0 = stream :: queue ∧
      ∃ k bits, (self'.outgoingSubchannels k).state = .waitingForAck ∧ w' = ⟨[] ++ bits⟩ ∧
        RecoversFragments bits k stream.data ((self'.outgoingSubchannels k).startFragment 0)
          ((self'.outgoingSubchannels k).numFragments 0) := by
  have hstate : (run fresh [.queueReliableMessages [.print ⟨"x"⟩]]).map (fun self =>
      ((writeOutgoingReliableData ⟨[]⟩ self).1,
        (writeOutgoingReliableData ⟨[]⟩ self).2.outgoingReliableData 0)) =
      some (.ok (true, ⟨BitList.ofNat 3 0 ++ [true, false, false] ++ varintBits 3 ++
        BitList.ofBytes [7, 30, 0] ++ [false]⟩), [⟨0, 1, [7, 30, 0], by decide⟩]) := by
    decide +kernel
  obtain ⟨self, hrun, hself⟩ := Option.map_eq_some_iff.mp hstate
  obtain ⟨hwrite, hqueue⟩ := Prod.mk.inj hself
  exact ⟨self, _, _, _, _, hrun, Prod.ext hwrite rfl, hqueue,
    run_section_codec hrun (Prod.ext hwrite rfl) hqueue⟩

end NetChannel

end QuickplayServer
