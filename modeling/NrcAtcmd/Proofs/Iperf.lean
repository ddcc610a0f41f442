import NrcAtcmd.Iperf

/-!
# The server accounts for every datagram

A datagram in order, one after a gap and one that is late keep the counted and the lost datagrams
together equal to the sequence. A final one sets the sequence to its id and counts none as lost, so
that it has to be the next one.
-/

namespace NrcAtcmd

open Checked Machine

namespace IperfServerInfo

variable {info info' : IperfServerInfo} {datagram : IperfDatagram} {len id : ℤ}

/-- What holds after the datagram that opens a test. -/
structure Inv (info : IperfServerInfo) : Prop where
  balanced : info.Balanced
  start : info.start = true
  seq_lt : info.datagramSeq < 2 ^ 31
  outoforder_lt : info.outoforderCnt < 2 ^ 31

theorem count_eq (h : info.Balanced) (hseq : info.datagramSeq + 1 < 2 ^ 31) :
    info.count len id =
      if id < 0 then (int32 (-id)).map fun id => { info with
        recvByte := info.recvByte + .ofInt len, done := true,
        datagramCnt := info.datagramCnt + 1, datagramSeq := id }
      else if id < info.datagramSeq + 1 then
        (int32 (info.outoforderCnt + 1)).map fun n => { info with
          recvByte := info.recvByte + .ofInt len, outoforderCnt := n }
      else if id < 2 ^ 31 then some { info with
        recvByte := info.recvByte + .ofInt len, datagramCnt := info.datagramCnt + 1,
        errorCnt := info.errorCnt + (id - (info.datagramSeq + 1)), datagramSeq := id }
      else info.count len id := by
  obtain ⟨hsum, hcnt, hseq₀, herr, -⟩ := h
  unfold count
  rw [int32_of_mem (by omega) (by omega), int32_of_mem (by omega) hseq]
  simp only [Option.bind_eq_bind, Option.bind_some, Int.add_sub_cancel]
  split_ifs with h₁ h₂ h₃ h₄ h₅
  · cases int32 (-id) <;> rfl
  · cases int32 (info.outoforderCnt + 1) <;> rfl
  · rw [int32_of_mem (by omega) (by omega), Option.bind_some,
      int32_of_mem (by omega) (by omega), Option.bind_some]
  · rfl
  · obtain rfl : id = info.datagramSeq + 1 := by omega
    simp
  · omega

theorem recv_of_not (hs : info.start = true)
    (h : ¬ (12 ≤ datagram.len ∧ datagram.len ≤ 1470 ∧ datagram.id ≠ 0)) :
    info.recv datagram = some info ∨ info.recv datagram =
      some { info with datagramCnt := 0, datagramSeq := 0, errorCnt := 0 } := by
  unfold recv
  split_ifs with hlen hid
  · refine .inr ?_
    rw [hs]
  · have : datagram.id ≠ 0 := fun h0 => hid (.inl h0)
    exact absurd ⟨hlen.1, hlen.2, this⟩ h
  · exact .inl rfl

theorem recv_of_len (hs : info.start = true)
    (h : 12 ≤ datagram.len ∧ datagram.len ≤ 1470 ∧ datagram.id ≠ 0) :
    info.recv datagram = info.count datagram.len datagram.id := by
  unfold recv
  rw [if_pos ⟨h.1, h.2.1⟩, if_neg]
  rintro (h0 | ⟨-, h0⟩)
  · exact h.2.2 h0
  · rw [hs] at h0
    cases h0

theorem Inv.recv (h : info.Inv) (hr : info.Regular datagram) :
    ∃ info', info.recv datagram = some info' ∧ info'.Inv := by
  obtain ⟨hb, hs, hseq, hout⟩ := h
  by_cases hlen : 12 ≤ datagram.len ∧ datagram.len ≤ 1470 ∧ datagram.id ≠ 0
  · obtain ⟨hnext, hfinal, hlate⟩ := hr hlen
    rw [recv_of_len hs hlen, count_eq hb hnext]
    have hmem := datagram.mem
    obtain ⟨hsum, hcnt, hseq₀, herr, hout₀⟩ := hb
    split_ifs with h₁ h₂ h₃
    · rw [int32_of_mem (by omega) (by omega)]
      exact ⟨_, rfl, ⟨by simp only; omega, by simp only; omega, by simp only; omega, herr, hout₀⟩,
        hs, by simp only; omega, hout⟩
    · rw [int32_of_mem (by omega) (hlate (by omega) (by omega))]
      exact ⟨_, rfl, ⟨hsum, hcnt, hseq₀, herr, by simp only; omega⟩, hs, hseq,
        hlate (by omega) (by omega)⟩
    · exact ⟨_, rfl, ⟨by simp only; omega, by simp only; omega, by simp only; omega,
        by simp only; omega, hout₀⟩, hs, h₃, hout⟩
    · exact absurd hmem.2 h₃
  · rcases recv_of_not hs hlen with h | h <;> refine ⟨_, h, ?_⟩
    · exact ⟨hb, hs, hseq, hout⟩
    · exact ⟨⟨rfl, Int.le_refl 0, Int.le_refl 0, Int.le_refl 0, hb.outoforderCnt⟩, hs,
        show (0 : ℤ) < 2 ^ 31 by decide, hout⟩

/-- A datagram that is counted and keeps the balance is regular. -/
theorem regular_of_balanced (h : info.Inv) (hrecv : info.recv datagram = some info')
    (hbal : info'.Balanced) : info.Regular datagram := by
  obtain ⟨hb, hs, -, -⟩ := h
  intro hlen
  rw [recv_of_len hs hlen] at hrecv
  have hnext : info.datagramSeq + 1 < 2 ^ 31 := by
    by_contra hnext
    have hnone : int32 (info.datagramSeq + 1) = none := if_neg fun h => hnext h.2
    unfold count at hrecv
    rw [hnone] at hrecv
    cases hc : int32 (info.datagramCnt + 1) <;> simp [hc] at hrecv
  rw [count_eq hb hnext] at hrecv
  refine ⟨hnext, fun hid => ?_, fun hid hle => ?_⟩
  · rw [if_pos hid, Option.map_eq_some_iff] at hrecv
    obtain ⟨n, hn, rfl⟩ := hrecv
    obtain ⟨-, rfl⟩ := int32_eq_some.1 hn
    have hsum := hbal.sum
    have := hb.sum
    simp only at hsum
    omega
  · rw [if_neg (by omega), if_pos (by omega), Option.map_eq_some_iff] at hrecv
    obtain ⟨n, hn, -⟩ := hrecv
    exact (int32_eq_some.1 hn).1.2

theorem count_start (h : info.count len id = some info') : info'.start = info.start := by
  unfold count at h
  simp only [Option.bind_eq_bind, Option.bind_eq_some_iff] at h
  obtain ⟨cnt, -, seq, -, h⟩ := h
  split_ifs at h
  · obtain ⟨n, -, h⟩ := Option.bind_eq_some_iff.1 h
    cases h
    rfl
  · obtain ⟨n, -, h⟩ := Option.bind_eq_some_iff.1 h
    cases h
    rfl
  · obtain ⟨lost, -, h⟩ := Option.bind_eq_some_iff.1 h
    obtain ⟨error, -, h⟩ := Option.bind_eq_some_iff.1 h
    cases h
    rfl
  · cases h
    rfl

theorem count_final (hid : id < 0) (h : info.count len id = some info') :
    info'.outoforderCnt = info.outoforderCnt := by
  unfold count at h
  simp only [Option.bind_eq_bind, Option.bind_eq_some_iff, if_pos hid] at h
  obtain ⟨cnt, -, seq, -, n, -, h⟩ := h
  cases h
  rfl

/-- Until a test is opened no datagram is found to be late. -/
theorem outoforder_of_init {pre : List IperfDatagram} (h : run recv init pre = some info)
    (hs : info.start = false) : info.outoforderCnt = 0 := by
  refine run_inv (P := fun i => i.start = false → i.outoforderCnt = 0) ?_ (fun _ => rfl) h hs
  intro info datagram info' hI hr hs'
  unfold recv at hr
  split_ifs at hr with hlen hid
  · cases hr
    cases hs'
  · rw [count_start hr] at hs'
    have hneg : datagram.id < 0 := by
      by_contra hneg
      have : datagram.id ≠ 0 := fun h0 => hid (.inl h0)
      exact hid (.inr ⟨by omega, hs'⟩)
    rw [count_final hneg hr, hI hs']
  · cases hr
    exact hI hs'

/-- In a test that a datagram has opened, the counted datagrams and the lost ones make up the
sequence after every datagram, exactly if each final one is the next. -/
theorem iperf_udp_server_accounting_iff {pre : List IperfDatagram} {info₀ : IperfServerInfo}
    (hpre : run recv init pre = some info) (hs : info.start = false)
    (hlen : 12 ≤ datagram.len ∧ datagram.len ≤ 1470) (hid : 0 ≤ datagram.id)
    (h₀ : info.recv datagram = some info₀) (ds : List IperfDatagram) :
    (∀ js, js <+: ds → ∃ info', run recv info₀ js = some info' ∧ info'.Balanced) ↔
      Along recv Regular info₀ ds := by
  refine along_iff_total (I := Inv) (fun _ h => h.balanced) (fun _ _ => Inv.recv) ?_ ds info₀ ?_
  · intro info datagram info' h hr hrecv hbal
    exact hr (regular_of_balanced h hrecv hbal)
  · have hopen : datagram.id = 0 ∨ (0 < datagram.id ∧ info.start = false) := by
      rw [and_iff_left hs]
      omega
    rw [recv, if_pos hlen, if_pos hopen, Option.some.injEq] at h₀
    rw [← h₀]
    have hout := outoforder_of_init hpre hs
    refine ⟨⟨rfl, Int.le_refl 0, Int.le_refl 0, Int.le_refl 0, ?_⟩, rfl,
      show (0 : ℤ) < 2 ^ 31 by decide, ?_⟩
    · exact Int.le_of_eq hout.symm
    · show info.outoforderCnt < 2 ^ 31
      rw [hout]
      decide

/-- A full datagram with an id. -/
def datagramOf (id : ℤ) (h : -2 ^ 31 ≤ id ∧ id < 2 ^ 31) : IperfDatagram := ⟨1470, id, h⟩

theorem iperf_udp_server_accounting_iff_late : ∃ info₀,
    init.recv (datagramOf 0 (by decide)) = some info₀ ∧ ∃ info',
      run recv info₀ [datagramOf 1 (by decide), datagramOf 3 (by decide), datagramOf 2 (by decide),
        datagramOf 5 (by decide), datagramOf (-6) (by decide)] = some info' ∧ info'.Balanced := by
  refine ⟨_, rfl, ?_⟩
  have hopen : 12 ≤ (datagramOf 0 (by decide)).len ∧ (datagramOf 0 (by decide)).len ≤ 1470 := by
    decide
  refine (iperf_udp_server_accounting_iff (run_nil init) rfl hopen (Int.le_refl 0) rfl _).2 ?_ _
    List.prefix_rfl
  decide +kernel

/-- The fourth datagram is lost, and the fifth is the final one: it is counted as the fourth, and
none as lost. -/
theorem iperf_udp_server_accounting_fails_final : ∃ info₀,
    init.recv (datagramOf 0 (by decide)) = some info₀ ∧ ¬ ∀ js, js <+:
      [datagramOf 1 (by decide), datagramOf 2 (by decide), datagramOf 3 (by decide),
        datagramOf (-5) (by decide)] → ∃ info', run recv info₀ js = some info' ∧ info'.Balanced := by
  refine ⟨_, rfl, fun h => ?_⟩
  obtain ⟨info', hr, hb⟩ := h _ List.prefix_rfl
  cases hr
  exact absurd hb.sum (by decide)

end IperfServerInfo

end NrcAtcmd
