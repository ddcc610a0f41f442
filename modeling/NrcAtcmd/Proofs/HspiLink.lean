import NrcAtcmd.HspiLink
import NrcAtcmd.Lib.Reaches
import NrcAtcmd.Proofs.CommandLink
import NrcAtcmd.Proofs.HspiRx
import NrcAtcmd.Proofs.HspiTx

/-!
# The HSPI carries the link

A write moves bytes from what is left to write to the slots, and leaves what is on the way as it
was. A read takes the first of them. So each step is one of the link without slots, or none, and a
session over the HSPI is served as over an ordered stream of bytes.
-/

namespace NrcAtcmd

open Machine HostRecv

variable {ε : Type*}

/-! ## A queue as a stream -/

/-- Bytes written move on. -/
theorem stream_write {sent received p : Bytes} (h : received <+: sent) (n : ℕ) :
    (sent ++ p.take n).drop received.length ++ p.drop n = sent.drop received.length ++ p := by
  rw [List.drop_append_of_le_length h.length_le, List.append_assoc, List.take_append_drop]

/-- Bytes read are the first on the way. -/
theorem stream_read {sent received x : Bytes} (h : received ++ x <+: sent) (p : Bytes) :
    (sent.drop received.length ++ p).take x.length = x
      ∧ (sent.drop received.length ++ p).drop x.length
        = sent.drop (received ++ x).length ++ p := by
  obtain ⟨t, rfl⟩ := h
  simp [List.append_assoc]

theorem rx_received {slots : HspiSlots} {s : Hspi} (h : ∃ blocks data, s.RxInv slots blocks data) :
    s.received <+: s.sent := by
  obtain ⟨blocks, data, h⟩ := h
  exact ⟨_, h.bytes⟩

theorem tx_received {slots : HspiSlots} {s : Hspi}
    (h : ∃ done blocks data, s.TxInv slots done blocks data) : s.received <+: s.sent := by
  obtain ⟨done, blocks, data, h⟩ := h
  exact ⟨_, h.bytes⟩

theorem rx_status {slots : HspiSlots} {s s' : Hspi} {new : Option HspiStatus}
    (h : hspiRxStep slots s (.status new) = some s') :
    s'.sent = s.sent ∧ s'.received = s.received := by
  simp only [hspiRxStep, Option.ite_none_right_eq_some, Option.some.injEq] at h
  obtain ⟨-, rfl⟩ := h
  exact ⟨rfl, rfl⟩

theorem tx_status {slots : HspiSlots} {s s' : Hspi} {new : Option HspiStatus}
    (h : hspiTxStep slots s (.status new) = some s') :
    s'.sent = s.sent ∧ s'.received = s.received := by
  simp only [hspiTxStep, Option.ite_none_right_eq_some, Option.some.injEq] at h
  obtain ⟨-, rfl⟩ := h
  exact ⟨rfl, rfl⟩

theorem rx_write {slots : HspiSlots} {s s' : Hspi} {buf : Bytes} {new : Option HspiStatus}
    (h : hspiRxStep slots s (.write buf new) = some s') :
    s'.sent = s.sent ++ buf.take (hspiWrite s.host new (fun _ => true) buf).1.toNat
      ∧ s'.received = s.received := by
  simp only [hspiRxStep, Option.ite_none_right_eq_some, Option.some.injEq] at h
  obtain ⟨-, rfl⟩ := h
  exact ⟨rfl, rfl⟩

theorem tx_write {slots : HspiSlots} {s s' : Hspi} {buf : Bytes} {count : ℕ}
    (h : hspiTxStep slots s (.write buf count) = some s') :
    s'.sent = s.sent ++ buf.take (hifHspiWrite_ slots.num s.target count buf).1
      ∧ s'.received = s.received := by
  simp only [hspiTxStep, Option.ite_none_right_eq_some, Option.some.injEq] at h
  obtain ⟨-, rfl⟩ := h
  exact ⟨rfl, rfl⟩

theorem rx_read {slots : HspiSlots} {s s' : Hspi} {buf : Bytes} {count : ℕ}
    (h : hspiRxStep slots s (.read buf count) = some s') :
    s'.sent = s.sent ∧ s'.received = s.received ++ s.brought s' := by
  simp only [hspiRxStep, Option.ite_none_right_eq_some, Option.some.injEq] at h
  obtain ⟨-, rfl⟩ := h
  simp [Hspi.brought]

theorem tx_read {slots : HspiSlots} {s s' : Hspi} {len : ℕ} {new : Option HspiStatus}
    (h : hspiTxStep slots s (.read len new) = some s') :
    s'.sent = s.sent ∧ s'.received = s.received ++ s.brought s' := by
  simp only [hspiTxStep, Option.ite_none_right_eq_some, Option.some.injEq] at h
  obtain ⟨-, rfl⟩ := h
  simp [Hspi.brought]

/-! ## Steps -/

namespace HspiLink

/-- Both queues are as the host and the target left them. -/
structure Carried (rxSlots txSlots : HspiSlots) (s : HspiLink ε) : Prop where
  rx : ∃ blocks data, s.rx.RxInv rxSlots blocks data
  tx : ∃ done blocks data, s.tx.TxInv txSlots done blocks data

variable {S : Sink ε} {groups : List (AtcmdGroup ε)} {strerror : ℤ → Bytes}
  {rxSlots txSlots : HspiSlots} {e : ε} {s s' : HspiLink ε}

theorem Carried.boot (rxSlots txSlots : HspiSlots) (e : ε) :
    (HspiLink.boot rxSlots txSlots e).Carried rxSlots txSlots where
  rx := Hspi.RxInv.run (run_nil _)
  tx := Hspi.TxInv.run (run_nil _)

variable (S groups strerror rxSlots txSlots) in
/-- What the step is to the link without slots: one of its steps, or nothing. -/
def Shown (s : HspiLink ε) (i : HspiInput) (s' : HspiLink ε) : Prop :=
  match s.input rxSlots txSlots i with
  | none => s'.link = s.link
  | some j => linkStep S groups strerror s.link j = some s'.link

theorem Carried.host {i : SyncInput} (h : s.Carried rxSlots txSlots)
    (hs : s.step S groups strerror rxSlots txSlots (.host i) = some s') :
    s'.Carried rxSlots txSlots ∧ s.Shown S groups strerror rxSlots txSlots (.host i) s' := by
  obtain ⟨hsend, hrecv, -, t, ht, rfl⟩ : (∀ r, i ≠ .send r) ∧ (∀ m own, i ≠ .recv m own)
      ∧ s.sending = [] ∧ ∃ t, syncStep s.host i = some t
      ∧ ({ s with host := t } : HspiLink ε) = s' := by
    cases i <;> simp_all [HspiLink.step]
  refine ⟨⟨h.rx, h.tx⟩, ?_⟩
  show linkStep S groups strerror s.link (.host i) = some ({ s.link with host := t })
  have ht' : syncStep s.link.host i = some t := ht
  cases i with
  | send r => exact absurd rfl (hsend r)
  | recv m own => exact absurd rfl (hrecv m own)
  | _ => simp only [linkStep, ht', Option.map_some]

/-- What a pass of `nrc_atcmd_send` writes stays on the way. -/
theorem Carried.nrcAtcmdSend {new : Option HspiStatus} (h : s.Carried rxSlots txSlots)
    (hs : s.step S groups strerror rxSlots txSlots (.nrcAtcmdSend new) = some s')
    (hc : ¬ s.Fails (.nrcAtcmdSend new)) :
    s'.Carried rxSlots txSlots
      ∧ s.Shown S groups strerror rxSlots txSlots (.nrcAtcmdSend new) s' := by
  simp only [HspiLink.step, HspiLink.nrcAtcmdSend, Option.ite_none_left_eq_some] at hs
  obtain ⟨rx, hq, rfl⟩ := Option.map_eq_some_iff.1 hs.2
  obtain ⟨hsent, hrecv⟩ := rx_write hq
  rw [Fails] at hc
  simp only [if_neg hc]
  refine ⟨⟨Hspi.RxInv.step h.rx hq, h.tx⟩, ?_⟩
  simp only [Shown, input, link, hsent, hrecv, stream_write (rx_received h.rx)]

/-- What a pass of `_hif_rx_task` reads is the front of what is on the way. -/
theorem Carried.hifRxTask {buf : Bytes} {count : ℕ} (h : s.Carried rxSlots txSlots)
    (hs : s.step S groups strerror rxSlots txSlots (.hifRxTask buf count) = some s') :
    s'.Carried rxSlots txSlots
      ∧ s.Shown S groups strerror rxSlots txSlots (.hifRxTask buf count) s' := by
  simp only [HspiLink.step, hifRxTask_, Option.ite_none_right_eq_some, Option.bind_eq_some_iff]
    at hs
  obtain ⟨⟨hw, hrest⟩, rx, hq, hs⟩ := hs
  obtain ⟨hsent, hrecv⟩ := rx_read hq
  have hrx' := Hspi.RxInv.step h.rx hq
  have hpre := rx_received hrx'
  rw [hsent, hrecv] at hpre
  obtain ⟨htake, hdrop⟩ := stream_read hpre s.sending
  have hinput : s.input rxSlots txSlots (.hifRxTask buf count)
      = some (.deliver (s.rx.brought rx).length) := by simp [input, hq]
  -- a call with nothing to take is left out by the task, and does nothing on the link
  have hdevice : ∃ d, deviceStep S groups s.device (.receive (s.rx.brought rx)) = some d
      ∧ s' = { s with rx := rx, device := d } := by
    split_ifs at hs with hnil
    · obtain rfl := Option.some.inj hs
      refine ⟨s.device, ?_, rfl⟩
      simp only [deviceStep, hnil, hrest, if_true]
      split_ifs
      · rfl
      · rw [← hrest]
    · obtain ⟨d, hd, rfl⟩ := Option.map_eq_some_iff.1 hs
      exact ⟨d, hd, rfl⟩
  obtain ⟨d, hd, rfl⟩ := hdevice
  refine ⟨⟨hrx', h.tx⟩, ?_⟩
  rw [Shown, hinput]
  simp only [linkStep, link, hw, htake, hdrop, hd, hsent, hrecv, if_true, Option.map_some]

theorem Carried.atcmdTransmit {count : ℕ} (h : s.Carried rxSlots txSlots)
    (hs : s.step S groups strerror rxSlots txSlots (.atcmdTransmit count) = some s') :
    s'.Carried rxSlots txSlots
      ∧ s.Shown S groups strerror rxSlots txSlots (.atcmdTransmit count) s' := by
  simp only [HspiLink.step, HspiLink.atcmdTransmit, Option.ite_none_left_eq_some] at hs
  obtain ⟨tx, hq, rfl⟩ := Option.map_eq_some_iff.1 hs.2
  obtain ⟨hsent, hrecv⟩ := tx_write hq
  refine ⟨⟨h.rx, Hspi.TxInv.step h.tx hq⟩, ?_⟩
  simp only [Shown, input, link, hsent, hrecv, stream_write (tx_received h.tx)]

theorem Carried.hear {len : ℕ} {new : Option HspiStatus} (h : s.Carried rxSlots txSlots)
    (hs : s.step S groups strerror rxSlots txSlots (.hear len new) = some s') :
    s'.Carried rxSlots txSlots
      ∧ s.Shown S groups strerror rxSlots txSlots (.hear len new) s' := by
  obtain ⟨tx, hq, rfl⟩ := Option.map_eq_some_iff.1 hs
  obtain ⟨hsent, hrecv⟩ := tx_read hq
  have htx' := Hspi.TxInv.step h.tx hq
  have hpre := tx_received htx'
  rw [hsent, hrecv] at hpre
  obtain ⟨htake, hdrop⟩ := stream_read hpre s.transmitting
  have hinput : s.input rxSlots txSlots (.hear len new)
      = some (.hear (s.tx.brought tx).length) := by simp [input, hq]
  refine ⟨⟨h.rx, htx'⟩, ?_⟩
  rw [Shown, hinput]
  simp only [linkStep, link, htake, hdrop, hsent, hrecv]

/-- A step that does not fail is what it is to the link without slots. -/
theorem Carried.step {i : HspiInput} (h : s.Carried rxSlots txSlots)
    (hs : s.step S groups strerror rxSlots txSlots i = some s') (hc : ¬ s.Fails i) :
    s'.Carried rxSlots txSlots ∧ s.Shown S groups strerror rxSlots txSlots i s' := by
  cases i with
  | host i => exact h.host hs
  | send =>
    simp only [HspiLink.step, Option.ite_none_right_eq_some] at hs
    obtain ⟨hnil, hs⟩ := hs
    obtain ⟨t, ht, rfl⟩ := Option.map_eq_some_iff.1 hs
    exact ⟨⟨h.rx, h.tx⟩, by simp [Shown, input, linkStep, link, ht, hnil]⟩
  | data buf =>
    simp only [HspiLink.step, Option.ite_none_right_eq_some, Option.some.injEq] at hs
    obtain ⟨⟨hp, hnil⟩, rfl⟩ := hs
    exact ⟨⟨h.rx, h.tx⟩, by simp [Shown, input, linkStep, link, hp, hnil]⟩
  | rxStatus new =>
    obtain ⟨rx, hq, rfl⟩ := Option.map_eq_some_iff.1 hs
    obtain ⟨hsent, hrecv⟩ := rx_status hq
    exact ⟨⟨Hspi.RxInv.step h.rx hq, h.tx⟩, by simp [Shown, input, link, hsent, hrecv]⟩
  | txStatus new =>
    obtain ⟨tx, hq, rfl⟩ := Option.map_eq_some_iff.1 hs
    obtain ⟨hsent, hrecv⟩ := tx_status hq
    exact ⟨⟨h.rx, Hspi.TxInv.step h.tx hq⟩, by simp [Shown, input, link, hsent, hrecv]⟩
  | nrcAtcmdSend new => exact h.nrcAtcmdSend hs hc
  | hifRxTask buf count => exact h.hifRxTask hs
  | turn now =>
    simp only [HspiLink.step, Option.ite_none_right_eq_some] at hs
    obtain ⟨hw, hs⟩ := hs
    obtain ⟨d, hd, rfl⟩ := Option.map_eq_some_iff.1 hs
    exact ⟨⟨h.rx, h.tx⟩, by simp [Shown, input, linkStep, link, hw, hd]⟩
  | tick now =>
    obtain ⟨d, hd, rfl⟩ := Option.map_eq_some_iff.1 hs
    exact ⟨⟨h.rx, h.tx⟩, by simp [Shown, input, linkStep, link, hd]⟩
  | write =>
    simp only [HspiLink.step, Option.ite_none_right_eq_some] at hs
    obtain ⟨hnil, hs⟩ := hs
    obtain ⟨m, hm, rfl⟩ := Option.map_eq_some_iff.1 hs
    exact ⟨⟨h.rx, h.tx⟩, by simp [Shown, input, linkStep, link, hnil, hm]⟩
  | print m =>
    simp only [HspiLink.step, Option.ite_none_right_eq_some, Option.some.injEq] at hs
    obtain ⟨hnil, rfl⟩ := hs
    exact ⟨⟨h.rx, h.tx⟩, by simp [Shown, input, linkStep, link, hnil]⟩
  | atcmdTransmit count => exact h.atcmdTransmit hs
  | hear len new => exact h.hear hs

theorem not_fails {i : HspiInput} (h : ¬ s.Crosses S groups strerror rxSlots txSlots e i) :
    ¬ s.Fails i := by
  cases i with
  | nrcAtcmdSend new => exact h
  | _ => exact id

end HspiLink

/-! ## Runs -/

section Runs

variable {S : Sink ε} {groups : List (AtcmdGroup ε)} {strerror : ℤ → Bytes}
  {rxSlots txSlots : HspiSlots} {e : ε} {s s' : HspiLink ε}

/-- A run over the HSPI in which no write fails is one of the link without slots. -/
theorem hspi_reaches {is : List HspiInput}
    (hr : run (HspiLink.step S groups strerror rxSlots txSlots) (.boot rxSlots txSlots e) is = some s)
    (hw : Along (HspiLink.step S groups strerror rxSlots txSlots) (fun s i => ¬ s.Fails i)
      (.boot rxSlots txSlots e) is) : Reaches (linkStep S groups strerror) (.boot e) s.link := by
  have hinv := run_along (P := fun s : HspiLink ε => s.Carried rxSlots txSlots
    ∧ Reaches (linkStep S groups strerror) (.boot e) s.link) ?_
    ⟨.boot rxSlots txSlots e, .refl _⟩ hw hr
  · exact hinv.2
  rintro s i s' ⟨hcarried, hreach⟩ hc hs
  obtain ⟨hcarried', hshown⟩ := hcarried.step hs hc
  refine ⟨hcarried', ?_⟩
  unfold HspiLink.Shown at hshown
  rcases hj : s.input rxSlots txSlots i with _ | j <;> rw [hj] at hshown
  · rw [show s'.link = s.link from hshown]
    exact hreach
  · exact hreach.trans (.single hshown)

/-- Where no step crosses either, its ends are with the server. -/
theorem hspi_run {is : List HspiInput}
    (hr : run (HspiLink.step S groups strerror rxSlots txSlots) (.boot rxSlots txSlots e) is = some s)
    (hc : Along (HspiLink.step S groups strerror rxSlots txSlots)
      (fun s i => ¬ s.Crosses S groups strerror rxSlots txSlots e i) (.boot rxSlots txSlots e) is) :
    ∃ v, s.link.Flow S groups strerror e v ∧ s.link.Waits v := by
  have hinv := run_along (P := fun s : HspiLink ε => s.Carried rxSlots txSlots
      ∧ ∃ v, s.link.Flow S groups strerror e v ∧ s.link.Waits v) ?_
    ⟨.boot rxSlots txSlots e, .boot e, .boot e, rfl, rfl⟩ hc hr
  · exact hinv.2
  rintro s i s' ⟨hcarried, v, hf, hw⟩ hc hs
  obtain ⟨hcarried', hshown⟩ := hcarried.step hs (HspiLink.not_fails hc)
  refine ⟨hcarried', ?_⟩
  unfold HspiLink.Shown at hshown
  rcases hj : s.input rxSlots txSlots i with _ | j <;> rw [hj] at hshown
  · rw [show s'.link = s.link from hshown]
    exact ⟨v, hf, hw⟩
  · have hj' : ¬ s.link.Crosses S groups strerror e j := by
      intro hcross
      cases i with
      | nrcAtcmdSend new => cases hj
      | _ => exact hc ⟨j, hj, hcross⟩
    exact linear_step hf hw hj' hshown

/-- Over the HSPI, whatever the slots hold at any time, a session in which no write of the host
fails is one over an ordered stream of bytes each way, and as long as no step crosses it is served
as such. -/
theorem hspi_link_linear {is : List HspiInput}
    (hr : run (HspiLink.step S groups strerror rxSlots txSlots) (.boot rxSlots txSlots e) is = some s)
    (hw : Along (HspiLink.step S groups strerror rxSlots txSlots) (fun s i => ¬ s.Fails i)
      (.boot rxSlots txSlots e) is) :
    Reaches (linkStep S groups strerror) (.boot e) s.link
      ∧ (Along (HspiLink.step S groups strerror rxSlots txSlots)
          (fun s i => ¬ s.Crosses S groups strerror rxSlots txSlots e i) (.boot rxSlots txSlots e) is →
        ∃ v, s.link.Linear S groups e v) := by
  refine ⟨hspi_reaches hr hw, fun hc => ?_⟩
  obtain ⟨v, hf, hw⟩ := hspi_run hr hc
  exact ⟨v, linear_of_flow hf hw⟩

end Runs

/-- A command over two slots each way. -/
def hspiRun : List HspiInput :=
  [.hifRxTask (List.replicate 508 0) 0, .host (.sendCmd (bytes "AT")), .send,
    .nrcAtcmdSend (some ⟨2, 128, 256⟩), .host .wait, .hifRxTask (List.replicate 508 0) 1, .turn 1,
    .write, .atcmdTransmit 0, .hear 600 (some ⟨1, 128, 128⟩), .host .getReturn]

theorem hspi_link_linear_at : ∃ s : HspiLink Unit,
    run (HspiLink.step takeAll [] (fun _ => []) twoSlots twoSlots) (.boot twoSlots twoSlots ())
        hspiRun = some s
      ∧ s.link.answered = [(bytes "AT\r\n", .ok)]
      ∧ Reaches (linkStep takeAll [] fun _ => []) (.boot ()) s.link
      ∧ ∃ v, s.link.Linear takeAll [] () v := by
  obtain ⟨s, hs, h⟩ := Option.map_eq_some_iff.1 (show
    (run (HspiLink.step takeAll [] (fun _ => []) twoSlots twoSlots) (.boot twoSlots twoSlots ())
      hspiRun).map (·.link.answered) = some [(bytes "AT\r\n", .ok)] by decide +kernel)
  obtain ⟨hreach, hlinear⟩ := hspi_link_linear hs (by decide +kernel)
  exact ⟨s, hs, h, hreach, hlinear (by decide +kernel)⟩

end NrcAtcmd
