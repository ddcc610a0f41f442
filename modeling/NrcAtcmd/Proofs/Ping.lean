import NrcAtcmd.Ping

/-!
# How long a ping waits, and for what

A step keeps what is asked of the loop exactly when it meets a condition on its input and the state
before it (`received_kept_iff`, `report_kept_iff`). The rest of the interval is not asked of the
socket: a packet that is not the reply is followed by a wait for the whole interval, and what a
request that was not sent left in the send time makes the wait before the next one as long as the
clock is short of 2^32.
-/

namespace NrcAtcmd

open Machine
open Memory (memcpy)

/-! ## The parser -/

theorem byteAt_memcpy {buf packet : Bytes} {n i : ℕ} (hi : i < n) (hn : n ≤ packet.length) :
    byteAt (memcpy buf 0 (packet.take n)) i = byteAt packet i := by
  have hl : i < (packet.take n).length := by
    rw [List.length_take]
    omega
  simp only [byteAt, memcpy, List.take_zero, List.nil_append, List.getD_eq_getElem?_getD]
  rw [List.getElem?_append_left hl, List.getElem?_take_of_lt hi]

variable {p : LwipPingParams} {src : Option IpAddr} {packet buf : Bytes} {n : ℕ}

/-- What is read was received exactly when the packet is long enough. -/
theorem lwipPingParse_reads (hn : n ≤ packet.length) :
    (∀ i ∈ (lwipPingParse src (memcpy buf 0 (packet.take n)) n).1, i < n) ↔
      ReadsFit src packet n := by
  have hb : ∀ i < n, byteAt (memcpy buf 0 (packet.take n)) i = byteAt packet i :=
    fun i hi => byteAt_memcpy hi hn
  rcases src with _ | _ | _
  · simp [lwipPingParse, ReadsFit]
  · simp only [lwipPingParse, ReadsFit, List.forall_mem_cons]
    by_cases h0 : 0 < n
    · have hl : ipHdrLen (memcpy buf 0 (packet.take n)) = ipHdrLen packet := by
        rw [ipHdrLen, ipHdrLen, hb 0 h0]
      rw [hl]
      simp only [List.not_mem_nil, false_imp_iff, implies_true, and_true]
      omega
    · simp only [h0, false_and, false_iff]
      omega
  · simp only [lwipPingParse, ReadsFit]
    by_cases h6 : 6 < n
    · rw [hb 6 h6]
      by_cases hnext : byteAt packet 6 = 58
      · simp only [hnext, ne_eq, not_true_eq_false, if_false, true_imp_iff, h6, true_and]
        by_cases h40 : 40 < n
        · rw [hb 40 h40]
          by_cases htype : byteAt packet 40 = 129
          · simp only [htype, not_true_eq_false, if_false, List.forall_mem_cons, List.not_mem_nil,
              false_imp_iff, implies_true, and_true, true_imp_iff]
            omega
          · simp only [htype, not_false_eq_true, if_true, List.forall_mem_cons, List.not_mem_nil,
              false_imp_iff, implies_true, and_true, h6, h40]
        · simp only [h40, false_and, iff_false]
          split_ifs <;> simp [h40]
      · simp [hnext, h6]
    · simp only [h6, false_and, iff_false]
      split_ifs <;> simp [h6]

theorem lwipPingParse_eq (hn : n ≤ packet.length) (hfit : ReadsFit src packet n) :
    lwipPingParse src (memcpy buf 0 (packet.take n)) n = lwipPingParse src packet n := by
  have hb : ∀ i < n, byteAt (memcpy buf 0 (packet.take n)) i = byteAt packet i :=
    fun i hi => byteAt_memcpy hi hn
  rcases src with _ | _ | _
  · rfl
  · have hl : ipHdrLen (memcpy buf 0 (packet.take n)) = ipHdrLen packet := by
      rw [ipHdrLen, ipHdrLen, hb 0 (by have := hfit.1; omega)]
    obtain ⟨h8, hlen⟩ := hfit
    simp only [lwipPingParse, hl, ntohsAt]
    rw [hb _ (by omega), hb _ (by omega), hb _ (by omega), hb _ (by omega), hb _ (by omega)]
  · obtain ⟨h6, hnext⟩ := hfit
    simp only [lwipPingParse, hb 6 h6]
    by_cases h58 : byteAt packet 6 = 58
    · obtain ⟨h40, htype⟩ := hnext h58
      rw [hb 40 h40]
      by_cases h129 : byteAt packet 40 = 129
      · have h47 := htype h129
        simp only [ntohsAt]
        rw [hb _ (by omega), hb _ (by omega), hb _ (by omega), hb _ (by omega), hb _ (by omega)]
      · simp [h129]
    · simp [h58]

/-- The header found passes for the reply exactly when the packet does. -/
theorem matches_iff {icmpSeq : ℕ} (hfit : ReadsFit src packet n) :
    (∃ hdr, (lwipPingParse src packet n).2 = some hdr ∧ hdr.matches p icmpSeq src = true) ↔
      Passes p icmpSeq src packet n := by
  by_cases hsrc : src = some p.remoteIp
  · subst hsrc
    rcases hr : p.remoteIp with addr | addr <;> rw [hr] at hfit
    · obtain ⟨_, hlen⟩ := hfit
      simp only [lwipPingParse, Option.some.injEq, exists_eq_left', LwipPingHdr.matches, hr,
        Passes, IpAddr.isV6, icmpOffset, decide_eq_true_eq, true_and, Bool.false_eq_true,
        false_imp_iff]
      refine and_congr_right fun _ => and_congr_right fun _ => ?_
      omega
    · obtain ⟨_, hnext⟩ := hfit
      simp only [lwipPingParse, LwipPingHdr.matches, hr, Passes, IpAddr.isV6, icmpOffset,
        true_and, true_imp_iff]
      by_cases h58 : byteAt packet 6 = 58
      · by_cases h129 : byteAt packet 40 = 129
        · have h47 := (hnext h58).2 h129
          simp only [h58, h129, ne_eq, not_true_eq_false, if_false, Option.some.injEq,
            exists_eq_left', decide_eq_true_eq, true_and]
          refine and_congr_right fun _ => and_congr_right fun _ => ?_
          omega
        · simp [h58, h129]
      · simp [h58]
  · simp [LwipPingHdr.matches, Passes, hsrc]

/-- A packet that passes is a reply if it was received whole and has the type of one. -/
theorem isEchoReply_iff {icmpSeq : ℕ}
    (hpass : Passes p icmpSeq src packet (min packet.length p.replySize)) :
    IsEchoReply src packet icmpSeq p.dataSize ↔ packet.length ≤ p.replySize ∧
      (p.remoteIp.isV6 = false → byteAt packet (icmpOffset src packet) = 0) := by
  obtain ⟨rfl, hv6, hid, hseq, hlen⟩ := hpass
  rcases hr : p.remoteIp with addr | addr <;>
    simp only [hr, icmpOffset, IpAddr.isV6, true_imp_iff] at hv6 hid hseq hlen
  · simp only [IsEchoReply, icmpOffset, IpAddr.isV6, hid, hseq, and_true, true_imp_iff]
    refine and_congr_left fun _ => ?_
    omega
  · simp only [IsEchoReply, IpAddr.isV6, hid, hseq, hv6, and_true, Bool.true_eq_false,
      false_imp_iff]
    omega

/-! ## A step -/

/-- The time since the request was begun is what was waited and what was spent. -/
def LwipPing.Clocked (s : LwipPing) : Prop := s.pc ≠ .done → s.now = s.start + s.spent + s.waited

theorem lwipPingPacket_eq (src : Option IpAddr) (info : LwipPingInfo) (recvTime : ℕ)
    (hn : n = min packet.length p.replySize) : ∃ counted info',
    lwipPingPacket_ p info src packet recvTime =
      (counted, (lwipPingParse src (memcpy info.buf 0 (packet.take n)) n).1, n, info') ∧
    (counted = true ↔ ∃ hdr,
      (lwipPingParse src (memcpy info.buf 0 (packet.take n)) n).2 = some hdr ∧
        hdr.matches p info.icmpSeq src = true) := by
  rw [lwipPingPacket_, ← hn]
  rcases hp : lwipPingParse src (memcpy info.buf 0 (packet.take n)) n with ⟨reads, _ | hdr⟩
  · exact ⟨false, _, rfl, by simp⟩
  · by_cases hm : hdr.matches p info.icmpSeq src = true
    · refine ⟨true, { info with
        buf := memcpy info.buf 0 (packet.take n)
        reply := ⟨src, p.dataSize, hdr.seqno, hdr.ttl, recvTime⟩ }, ?_, ?_⟩
      · simp only [hm, if_true]
      · simp [hm]
    · refine ⟨false, { info with buf := memcpy info.buf 0 (packet.take n) }, ?_, ?_⟩
      · simp only [if_neg hm]
      · simp [hm]

namespace LwipPing

variable {s : LwipPing}

theorem Kept.spend (h : s.Kept p) (took : ℕ) : (s.spend took).Kept p :=
  ⟨h.waited, h.gaps, h.reads, h.counted⟩

theorem Kept.receivedPacket (h : s.Kept p) {blocked : ℕ} :
    (s.received p (.packet blocked src packet)).Kept p ↔
      s.waited + blocked ≤ p.interval ∧ s.PacketFits p src packet := by
  set n := min packet.length p.replySize with hn
  have hle : n ≤ packet.length := Nat.min_le_left _ _
  obtain ⟨counted, info', he, hc⟩ :=
    lwipPingPacket_eq src s.info ((s.now + blocked) % 2 ^ 32) hn
  have hiff : (s.received p (.packet blocked src packet)).Kept p ↔
      s.waited + blocked ≤ p.interval ∧
        (∀ i ∈ (lwipPingParse src (memcpy s.info.buf 0 (packet.take n)) n).1, i < n) ∧
        (counted = true → IsEchoReply src packet s.info.icmpSeq p.dataSize) := by
    simp only [LwipPing.received, LwipPingRecv.blocked, he]
    constructor
    · rintro ⟨hw, -, hr, hcnt⟩
      refine ⟨hw, fun i hi => ?_, fun ht => ?_⟩
      · exact hr (i, n) (List.mem_append_right _ (List.mem_map_of_mem hi))
      · exact hcnt ⟨src, packet, s.info.icmpSeq⟩ (by simp [ht])
    · rintro ⟨hw, hr, hcnt⟩
      refine ⟨hw, h.gaps, fun r hmem => ?_, fun c hmem => ?_⟩
      · rcases List.mem_append.1 hmem with hmem | hmem
        · exact h.reads r hmem
        · obtain ⟨i, hi, rfl⟩ := List.mem_map.1 hmem
          exact hr i hi
      · simp only at hmem
        split_ifs at hmem with ht
        · rcases List.mem_append.1 hmem with hmem | hmem
          · exact h.counted c hmem
          · obtain rfl := List.mem_singleton.1 hmem
            exact hcnt ht
        · exact h.counted c hmem
  rw [hiff, lwipPingParse_reads hle, PacketFits, ← hn]
  refine and_congr_right fun _ => and_congr_right fun hfit => ?_
  rw [hc, lwipPingParse_eq hle hfit, matches_iff hfit]
  exact forall_congr' fun hpass => isEchoReply_iff hpass

/-- A wait keeps what is asked exactly when it ends in time and the packet that ends it fits. -/
theorem received_kept_iff (h : s.Kept p) {took : ℕ} {r : LwipPingRecv} :
    ((s.spend took).received p r).Kept p ↔ s.InTime p (.receive took r) := by
  rcases r with ⟨blocked, src, packet⟩ | blocked | _
  · rw [(h.spend took).receivedPacket, InTime]
    exact and_congr_left fun _ => (Nat.le_sub_iff_add_le' h.waited).symm
  · rw [InTime, Nat.le_sub_iff_add_le' h.waited]
    exact ⟨fun hk => hk.waited, fun hi => ⟨hi, h.gaps, h.reads, h.counted⟩⟩
  · refine ⟨fun hk => ?_, fun hi => ⟨?_, h.gaps, h.reads, h.counted⟩⟩
    · have : s.waited + p.interval ≤ p.interval := hk.waited
      rw [InTime]
      omega
    · show s.waited + p.interval ≤ p.interval
      rw [show s.waited = 0 from hi, Nat.zero_add]

theorem received_clocked (h : s.now = s.start + s.spent + s.waited) (took : ℕ)
    (r : LwipPingRecv) : ((s.spend took).received p r).Clocked := by
  intro _
  rcases r with ⟨blocked, src, packet⟩ | blocked | _ <;>
    simp only [LwipPing.received, LwipPing.spend, LwipPingRecv.blocked] <;> omega

theorem clockSince_lt (now time : ℕ) : clockSince now time < 2 ^ 32 := Nat.mod_lt _ (by decide)

theorem waitTime_eq (info : LwipPingInfo) (now : ℕ) :
    (lwipPingWaitTime p info now).toNat =
      if clockSince now info.time ≤ p.interval then p.interval - clockSince now info.time
      else if clockSince now info.time ≤ p.interval + 2 ^ 31 then 0
      else p.interval + 2 ^ 32 - clockSince now info.time := by
  have hi := p.interval_lt
  have hlt := clockSince_lt now info.time
  unfold lwipPingWaitTime
  split_ifs <;> simp only at * <;> omega

/-- The wait before the next request fits exactly when the clock says how long ago this one was
sent. -/
theorem wait_fits_iff {since d : ℕ} (hw : s.waited ≤ p.interval) (hlt : since < 2 ^ 32)
    (hd : d = if since ≤ p.interval then p.interval - since
      else if since ≤ p.interval + 2 ^ 31 then 0 else p.interval + 2 ^ 32 - since) :
    s.waited + d ≤ p.interval ↔
      since ≤ p.interval + 2 ^ 31 ∧ (since ≤ p.interval → s.waited ≤ since) := by
  split_ifs at hd <;> omega

theorem report_kept_iff (h : s.Kept p) (hc : s.now = s.start + s.spent + s.waited)
    (hpc : s.pc = .report) {took : ℕ} {s' : LwipPing}
    (hs : lwipPingStep p s (.report took) = some s') :
    (s'.Kept p ↔ s.InTime p (.report took)) ∧ s'.Clocked := by
  have hfits := wait_fits_iff h.waited (clockSince_lt _ _) (waitTime_eq s.info (s.now + took))
  simp only [lwipPingStep, LwipPing.spend, hpc, if_true] at hs
  generalize hd : (lwipPingWaitTime p s.info (s.now + took)).toNat = d at hs hfits
  by_cases hnext : s.i + 1 < p.count
  · simp only [hnext, if_true] at hs
    obtain rfl := Option.some.inj hs
    refine ⟨?_, ?_⟩
    · simp only [InTime, NextInTime, hnext, true_imp_iff]
      rw [← hfits]
      constructor
      · intro hk
        have := hk.gaps _ (List.mem_append_right _ (List.mem_singleton_self _))
        simp only at this
        omega
      · intro hw
        refine ⟨Nat.zero_le _, fun g hmem => ?_, h.reads, h.counted⟩
        rcases List.mem_append.1 hmem with hmem | hmem
        · exact h.gaps g hmem
        · obtain rfl := List.mem_singleton.1 hmem
          simp only
          omega
    · unfold Clocked
      intro _
      simp only
      omega
  · simp only [hnext, if_false] at hs
    obtain rfl := Option.some.inj hs
    exact ⟨iff_of_true ⟨h.waited, h.gaps, h.reads, h.counted⟩ fun hlt => absurd hlt hnext,
      fun hdone => absurd rfl hdone⟩

theorem step_kept_iff {s' : LwipPing} {i : LwipPingStep} (h : s.Kept p) (hc : s.Clocked)
    (hs : lwipPingStep p s i = some s') : (s'.Kept p ↔ s.InTime p i) ∧ s'.Clocked := by
  rcases i with ⟨took, len⟩ | ⟨took, r⟩ | took | took
  · have hpc : s.pc = .send := by
      by_contra hpc
      simp [lwipPingStep, hpc] at hs
    simp only [lwipPingStep, LwipPing.spend, if_pos hpc] at hs
    obtain rfl := Option.some.inj hs
    have := hc (by rw [hpc]; decide)
    refine ⟨iff_of_true ⟨h.waited, h.gaps, h.reads, h.counted⟩ trivial, fun _ => ?_⟩
    simp only
    omega
  · simp only [lwipPingStep] at hs
    split_ifs at hs with hg
    obtain rfl := Option.some.inj hs
    exact ⟨received_kept_iff h, received_clocked (hc (by rw [hg.1]; decide)) took r⟩
  · simp only [lwipPingStep, LwipPing.spend] at hs
    split_ifs at hs with hg
    obtain rfl := Option.some.inj hs
    have := hc (by rw [hg.1]; decide)
    refine ⟨iff_of_true ⟨h.waited, h.gaps, h.reads, h.counted⟩ trivial, fun _ => ?_⟩
    simp only
    omega
  · have hpc : s.pc = .report := by
      by_contra hpc
      simp [lwipPingStep, hpc] at hs
    exact report_kept_iff h (hc (by rw [hpc]; decide)) hpc hs

theorem kept_start (p : LwipPingParams) (now : ℕ) (buf : Bytes) :
    (lwipPingStart p now buf).Kept p ∧ (lwipPingStart p now buf).Clocked :=
  ⟨⟨Nat.zero_le _, by simp [lwipPingStart], by simp [lwipPingStart], by simp [lwipPingStart]⟩,
    fun _ => rfl⟩

end LwipPing

/-! ## A run -/

/-- In every state of a run the waits, the reads and the replies are what is asked exactly when every
step is in time. -/
theorem ping_kept_iff {p : LwipPingParams} {now : ℕ} {buf : Bytes} {is : List LwipPingStep}
    {s : LwipPing} (h : run (lwipPingStep p) (lwipPingStart p now buf) is = some s) :
    (∀ js s', js <+: is → run (lwipPingStep p) (lwipPingStart p now buf) js = some s' →
        s'.Kept p) ↔
      Along (lwipPingStep p) (LwipPing.InTime p) (lwipPingStart p now buf) is := by
  refine along_iff_run (C := LwipPing.InTime p) (I := fun s => s.Kept p ∧ s.Clocked)
    (P := LwipPing.Kept p) (fun _ h => h.1) ?_ ?_ (LwipPing.kept_start p now buf) h
  · rintro s i s' ⟨hk, hc⟩ hin hs
    obtain ⟨hiff, hc'⟩ := LwipPing.step_kept_iff hk hc hs
    exact ⟨hiff.2 hin, hc'⟩
  · rintro s i s' ⟨hk, hc⟩ hin hs hk'
    exact hin ((LwipPing.step_kept_iff hk hc hs).1.1 hk')

/-- Two requests with two bytes of data each, a second apart. -/
def twoPings : LwipPingParams := ⟨.v4 1, 2, 1000, 2, by decide⟩

/-- An ICMP packet with that type and number, behind an IP header without options. -/
def echoPacket (type icmpSeq : UInt8) : Bytes :=
  0x45 :: List.replicate 19 0 ++ [type, 0, 0, 0, 0xEC, 0xEC, 0, icmpSeq, 1, 2]

theorem ping_kept_iff_two : ∃ s, run (lwipPingStep twoPings) (lwipPingStart twoPings 7 [])
      [.send 1 (some 10), .receive 1 (.packet 40 (some (.v4 1)) (echoPacket 0 1)), .report 2,
        .send 1 (some 10), .receive 1 .again, .timeout 1, .report 2] = some s ∧
    s.Kept twoPings := by
  obtain ⟨s, hs⟩ := Option.isSome_iff_exists.1 (show (run (lwipPingStep twoPings)
      (lwipPingStart twoPings 7 [])
      [.send 1 (some 10), .receive 1 (.packet 40 (some (.v4 1)) (echoPacket 0 1)), .report 2,
        .send 1 (some 10), .receive 1 .again, .timeout 1, .report 2]).isSome = true by
    decide +kernel)
  exact ⟨s, hs, (ping_kept_iff hs).2 (by decide +kernel) _ s List.prefix_rfl hs⟩

/-- After a stray packet the loop waits the interval again; after a failed send it waits until the
clock wraps; it reads a header behind the one byte that was received; and it takes an echo request
for the reply. -/
theorem ping_not_kept :
    (∃ s, run (lwipPingStep twoPings) (lwipPingStart twoPings 5 []) [.send 1 (some 10),
        .receive 0 (.packet 900 (some (.v4 9)) (echoPacket 0 1)), .receive 0 .again] = some s ∧
      ¬ s.waited ≤ twoPings.interval) ∧
    (∃ s, run (lwipPingStep twoPings) (lwipPingStart twoPings 3000000000 [])
        [.send 0 (some (-1)), .report 0] = some s ∧
      ¬ ∀ g ∈ s.gaps, g.1 ≤ twoPings.interval + g.2) ∧
    (∃ s, run (lwipPingStep twoPings) (lwipPingStart twoPings 5 [])
        [.send 0 (some 10), .receive 0 (.packet 1 (some (.v4 1)) [0x45])] = some s ∧
      ¬ ∀ r ∈ s.reads, r.1 < r.2) ∧
    ∃ s, run (lwipPingStep twoPings) (lwipPingStart twoPings 5 [])
        [.send 0 (some 10), .receive 0 (.packet 1 (some (.v4 1)) (echoPacket 8 1))] = some s ∧
      ¬ ∀ c ∈ s.counted, IsEchoReply c.src c.packet c.icmpSeq twoPings.dataSize := by
  refine ⟨?_, ?_, ?_, ?_⟩
  · obtain ⟨s, hs, hw⟩ := Option.map_eq_some_iff.1 (show (run (lwipPingStep twoPings)
        (lwipPingStart twoPings 5 []) [.send 1 (some 10),
          .receive 0 (.packet 900 (some (.v4 9)) (echoPacket 0 1)), .receive 0 .again]).map
        LwipPing.waited = some 1900 by decide +kernel)
    exact ⟨s, hs, by rw [hw]; decide⟩
  · obtain ⟨s, hs, hg⟩ := Option.map_eq_some_iff.1 (show (run (lwipPingStep twoPings)
        (lwipPingStart twoPings 3000000000 []) [.send 0 (some (-1)), .report 0]).map
        LwipPing.gaps = some [(1294968296, 0)] by decide +kernel)
    exact ⟨s, hs, by rw [hg]; decide⟩
  · obtain ⟨s, hs, hr⟩ := Option.map_eq_some_iff.1 (show (run (lwipPingStep twoPings)
        (lwipPingStart twoPings 5 [])
        [.send 0 (some 10), .receive 0 (.packet 1 (some (.v4 1)) [0x45])]).map
        LwipPing.reads = some [(0, 1), (24, 1), (25, 1), (26, 1), (27, 1), (8, 1)] by
      decide +kernel)
    exact ⟨s, hs, by rw [hr]; decide⟩
  · obtain ⟨s, hs, hc⟩ := Option.map_eq_some_iff.1 (show (run (lwipPingStep twoPings)
        (lwipPingStart twoPings 5 [])
        [.send 0 (some 10), .receive 0 (.packet 1 (some (.v4 1)) (echoPacket 8 1))]).map
        LwipPing.counted = some [⟨some (.v4 1), echoPacket 8 1, 1⟩] by decide +kernel)
    refine ⟨s, hs, fun h => ?_⟩
    rw [hc] at h
    have ht := (h _ (List.mem_singleton_self _)).2.1
    exact absurd ht (by decide)

end NrcAtcmd
