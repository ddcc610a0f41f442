import NrcAtcmd.Lib.Machine
import NrcAtcmd.Proofs.UartBlocks

/-!
# The calls that keep the control blocks

What becomes of a control block can be told from the calls alone: their arguments, and what the
allocations answer. `UartCalls` is what the calls so far come to, and the state is always the one
they say (`Tracks`). So the runs that use no block after it was freed, free none twice and lose none
are those whose calls are allowed by the calls before them.
-/

namespace NrcAtcmd

open HifUartState

variable {b : HifBuild} {s s' : HifUartState} {new : HifUart} {dma dma' : DmaOutcome} {p : ℕ}

/-! ## What the calls say -/

/-- What became of the block that was registered last. -/
inductive Registration | none | live (channel : ℕ) | freed
  deriving DecidableEq

def Registration.isLive : Registration → Bool
  | .live _ => true
  | _ => false

instance : DecidablePred (FifoOutcome.Given (b := b)) := fun _ => inferInstanceAs (Decidable (_ ∧ _))

instance (type : HifType) (uart : HifUart) (fifo : FifoOutcome b) :
    Decidable (UartOpens type uart fifo) := inferInstanceAs (Decidable (_ ∧ _))

/-- What the calls so far come to, told from their arguments and from what the allocations answer. -/
structure UartCalls where
  uart : HifUart
  fifo : Bool
  reg : Registration

namespace UartCalls

variable (k : UartCalls)

def init : UartCalls := ⟨⟨-1, -1, .disable, false⟩, false, .none⟩

/-- The channel that a block would get. -/
def channel (dma : DmaOutcome) : Option ℕ :=
  if dma.malloc then
    (List.range hifDmaChannelMax).find? fun c => decide (k.reg ≠ .live c) && c ∉ dma.busy
  else none

/-- A registration succeeds where there is nothing to register. -/
def registers (dma : DmaOutcome) : Bool := !k.fifo || (k.channel dma).isSome

def register (dma : DmaOutcome) : UartCalls :=
  if k.fifo then { k with reg := ((k.channel dma).map .live).getD k.reg } else k

def unregister : UartCalls := { k with reg := if k.reg.isLive then .freed else k.reg }

def enable (uart : HifUart) : UartCalls := { k with uart := uart.enabled }

def uartOpen (type : HifType) (uart : HifUart) (fifo : FifoOutcome b) (dma : DmaOutcome) :
    UartCalls :=
  if UartOpens type uart fifo then
    let k := { k with fifo := true }.enable uart
    if uart.usesDma then k.register dma else k
  else if (type = .uart ∨ type = .uartHfc) ∧ uart.Valid then { k with fifo := false }
  else k

/-- A change once the old DMA is unregistered. -/
def switch (old new : HifUart) (dma dma' : DmaOutcome) : UartCalls :=
  if new.usesDma then
    if (k.enable new).registers dma then (k.enable new).register dma
    else if old.usesDma then (k.enable old).register dma' else k.enable old
  else k.enable new

def uartChange (new : HifUart) (dma dma' : DmaOutcome) : UartCalls :=
  if new.Valid then (if k.uart.usesDma then k.unregister else k).switch k.uart new dma dma' else k

def uartClose : UartCalls :=
  if k.uart.channel = 1 then
    { k.unregister with uart := hifUartInitInfo_ k.uart, fifo := false }
  else k

def next : HifUartInput b → UartCalls
  | .uartOpen type uart fifo dma => k.uartOpen type uart fifo dma
  | .uartChange new dma dma' => k.uartChange new dma dma'
  | .uartClose => k.uartClose
  | _ => k

/-- The call neither meets a registration that was given back nor makes a second one, and an
interrupt finds a FIFO. -/
def Allows : HifUartInput b → Prop
  | .uartOpen type uart fifo dma =>
    UartOpens type uart fifo → uart.usesDma = true → (k.channel dma).isSome → k.reg.isLive = false
  | .uartChange new dma _ =>
    new.Valid → k.uart.channel = 1 ∧
      (k.uart.usesDma = true → k.reg ≠ .freed) ∧
      (k.uart.usesDma = false → new.usesDma = true → k.fifo = true → (k.channel dma).isSome →
        k.reg.isLive = false)
  | .uartClose => k.uart.channel = 1 → k.reg ≠ .freed
  | .receive _ => k.uart.channel = 1 → k.uart.usesDma = false → k.fifo = true
  | .inttc => k.reg.isLive = true → k.fifo = true
  | .read _ =>
    k.uart.channel = 1 → k.fifo = true → ¬ (k.uart.hfc = .enable ∧ k.uart.hfcRxIrq = true) →
      k.reg.isLive = true

theorem register_refused {k : UartCalls} {dma : DmaOutcome} (h : ¬ k.registers dma = true) :
    k.register dma = k := by
  have hc : k.channel dma = none := by
    rw [← Option.not_isSome_iff_eq_none]
    exact fun hs => h (by simp [registers, hs])
  simp [register, hc]

end UartCalls

/-- The state is the one that the calls say. -/
structure Tracks (k : UartCalls) (s : HifUartState) : Prop where
  uart : s.uart = k.uart
  fifo : s.rxFifo.isSome = k.fifo
  irq : s.rxIrq = (decide (k.uart.channel = 1) && !k.uart.usesDma)
  bound : ∀ c, k.reg = .live c → c < hifDmaChannelMax
  chan : ∀ c, (s.dmaChannel c).enable = true ↔ k.reg = .live c
  live : (∃ p, Heap.Live s.heap p) ↔ k.reg.isLive = true
  dangling : s.Dangling ↔ k.reg = .freed

namespace Tracks

variable {k : UartCalls}

theorem init : Tracks .init HifUartState.init where
  uart := rfl
  fifo := rfl
  irq := rfl
  bound c hc := by cases hc
  chan c := by simp [HifUartState.init, UartCalls.init]
  live := by simp [HifUartState.init, UartCalls.init, Registration.isLive]
  dangling := by simp [HifUartState.init, UartCalls.init, Dangling]

theorem isLive_iff {r : Registration} : r.isLive = true ↔ ∃ c, r = .live c := by
  cases r <;> simp [Registration.isLive]

theorem not_live (h : Tracks k s) (hk : k.reg.isLive = false) : ∀ p, ¬ Heap.Live s.heap p := by
  intro p hp
  rw [h.live.1 ⟨p, hp⟩] at hk
  cases hk

theorem channel_eq (h : Tracks k s) (hm : dma.malloc = true) :
    k.channel dma = hifDmaGetChannel_ dma.busy s := by
  have hsame : ∀ c, decide (k.reg ≠ .live c) = !(s.dmaChannel c).enable := fun c => by
    rw [Bool.eq_iff_iff]
    simp [← h.chan c]
  simp only [UartCalls.channel, hm, if_true, hifDmaGetChannel_, hsame]

theorem registers_iff (h : Tracks k s) : s.Registers dma ↔ (k.channel dma).isSome := by
  rcases hm : dma.malloc with _ | _
  · simp [Registers, UartCalls.channel, hm]
  · simp [Registers, hm, h.channel_eq hm]

end Tracks

theorem Tracks.sound_iff {k : UartCalls} (h : Tracks k s) (ho : Owned s) (i : HifUartInput b) :
    s.Sound i ↔ k.Allows i := by
  have hnot : (∀ p, ¬ Heap.Live s.heap p) ↔ k.reg.isLive = false := by
    rw [← not_exists, h.live, Bool.not_eq_true]
  have hd : ¬ s.Dangling ↔ k.reg ≠ .freed := not_congr h.dangling
  cases i with
  | uartOpen type uart fifo dma => simp only [Sound, UartCalls.Allows, h.registers_iff, hnot]
  | uartChange new dma dma' =>
    simp only [Sound, UartCalls.Allows, h.registers_iff, hnot, hd, h.uart, h.fifo]
  | uartClose => simp only [Sound, UartCalls.Allows, hd, h.uart]
  | receive data =>
    simp only [Sound, UartCalls.Allows, h.irq, h.fifo, Bool.and_eq_true, decide_eq_true_eq,
      Bool.not_eq_true', and_imp]
  | inttc =>
    simp only [Sound, UartCalls.Allows, h.chan, h.fifo, Tracks.isLive_iff]
    refine imp_congr_left ⟨?_, ?_⟩
    · rintro ⟨c, -, hc⟩
      exact ⟨c, hc⟩
    · rintro ⟨c, hc⟩
      exact ⟨c, h.bound c hc, hc⟩
  | read len =>
    have hl : (∃ p, s.rxDma = some p ∧ Heap.Live s.heap p) ↔ k.reg.isLive = true := by
      rw [← h.live]
      constructor
      · rintro ⟨p, -, hp⟩
        exact ⟨p, hp⟩
      · rintro ⟨p, hp⟩
        exact ⟨p, ho.live p hp, hp⟩
    simp only [Sound, UartCalls.Allows, ReadsDma, hl, h.uart, h.fifo, and_imp]

/-! ## What the calls keep saying -/

theorem Refused.keeps (h : Refused s s') : Keeps s s' := by
  have he := h.eq
  refine ⟨?_, ?_, ?_, ?_, ?_, fun p => by rw [Heap.Live, h.get, Heap.Live], fun c => ?_⟩
  all_goals rw [he]
  exact ⟨rfl, rfl⟩

namespace Tracks

variable {k : UartCalls} {old : HifUart} {r : HifRet}

theorem keeps (h : Tracks k s) (hs : Keeps s s') : Tracks k s' where
  uart := hs.uart.trans h.uart
  fifo := hs.rxFifo.trans h.fifo
  irq := hs.rxIrq.trans h.irq
  bound := h.bound
  chan c := by rw [(hs.chan c).1, h.chan]
  live := by simp only [hs.live, h.live]
  dangling := by simp only [← h.dangling, Dangling, hs.live, hs.rxDma]

theorem after (h : Tracks k s) (r : HifRet) : Tracks k (after (r, s)) :=
  h.keeps (.of_eq rfl rfl rfl rfl rfl rfl rfl)

theorem retype (h : Tracks k s) (type : HifType) : Tracks k { s with type := type } :=
  ⟨h.uart, h.fifo, h.irq, h.bound, h.chan, h.live, h.dangling⟩

theorem enable (h : Tracks k s) (hc : new.channel = 1) :
    Tracks (k.enable new) (s.enabled new) where
  uart := rfl
  fifo := h.fifo
  irq := by simp [UartCalls.enable, enabled, hc]
  bound := h.bound
  chan := h.chan
  live := h.live
  dangling := h.dangling

theorem emptied (h : Tracks k s) : Tracks k s.emptied :=
  ⟨h.uart, Option.isSome_map.trans h.fifo, h.irq, h.bound, h.chan, h.live, h.dangling⟩

/-! ### Registering -/

theorem registered {c : ℕ} (h : Tracks k s) (hc : hifDmaGetChannel_ dma.busy s = some c)
    (hk : k.reg.isLive = false) (addr n : ℕ) :
    Tracks { k with reg := .live c } (s.registered c addr n) where
  uart := h.uart
  fifo := h.fifo
  irq := h.irq
  bound c' hc' := by
    obtain rfl := Registration.live.inj hc'
    exact List.mem_range.1 (List.mem_of_find?_eq_some hc)
  chan c' := by
    have hoff : (s.dmaChannel c').enable ≠ true := fun hon => by
      rw [(h.chan c').1 hon] at hk
      cases hk
    rcases eq_or_ne c' c with rfl | hne
    · simp [HifUartState.registered]
    · simp [HifUartState.registered, Function.update_of_ne hne, hoff, hne.symm]
  live := ⟨fun _ => rfl, fun _ => ⟨s.heap.length, Heap.live_alloc_iff.2 (.inr rfl)⟩⟩
  dangling := by
    refine ⟨?_, fun hr => by cases hr⟩
    rintro ⟨p, hp, hl⟩
    obtain rfl := Option.some.inj hp
    exact absurd (Heap.live_alloc_iff.2 (.inr rfl)) hl

theorem register (h : Tracks k s) (hi : s.Inv b) (hc : s.uart.channel = 1)
    (hr : k.fifo = true → (k.channel dma).isSome → k.reg.isLive = false)
    (he : hifUartDmaRegister_ dma s = some (r, s')) :
    r = (if k.registers dma then .ok else .fail) ∧ s'.Inv b ∧ Tracks (k.register dma) s' := by
  have hinv : s'.Inv b := by
    obtain ⟨r₁, s₁, he₁, h₁, -⟩ := hifUartDmaRegister_inv dma hi hc fun hf hreg =>
      h.not_live (hr (h.fifo ▸ hf) (h.registers_iff.1 hreg))
    obtain ⟨-, rfl⟩ := Prod.mk.inj (Option.some.inj (he₁.symm.trans he))
    exact h₁
  rcases hf : s.rxFifo with _ | ⟨addr, fifo⟩
  · have hk : k.fifo = false := by rw [← h.fifo, hf, Option.isSome_none]
    rw [hifUartDmaRegister_none hc hf] at he
    obtain ⟨rfl, rfl⟩ := Prod.mk.inj (Option.some.inj he)
    refine ⟨by simp [UartCalls.registers, hk], hinv, ?_⟩
    rw [UartCalls.register, hk, if_neg Bool.false_ne_true]
    exact h.keeps (.of_eq rfl rfl rfl rfl rfl rfl rfl)
  · have hk : k.fifo = true := by rw [← h.fifo, hf, Option.isSome_some]
    by_cases hreg : s.Registers dma
    · obtain ⟨c, hch, he₁⟩ := hifUartDmaRegister_ok hc hf (hi.fifo _ hf) hreg
      obtain ⟨rfl, rfl⟩ := Prod.mk.inj (Option.some.inj (he₁.symm.trans he))
      have hkc : k.channel dma = some c := (h.channel_eq hreg.1).trans hch
      refine ⟨by simp [UartCalls.registers, hkc], hinv, ?_⟩
      rw [UartCalls.register, if_pos hk, hkc]
      exact h.registered hch (hr hk (by rw [hkc, Option.isSome_some])) addr _
    · obtain ⟨s₁, he₁, hs₁⟩ := hifUartDmaRegister_fail hf (hi.fifo _ hf) hreg
      obtain ⟨rfl, rfl⟩ := Prod.mk.inj (Option.some.inj (he₁.symm.trans he))
      have hkc : k.channel dma = none := by
        rwa [h.registers_iff, Option.not_isSome_iff_eq_none] at hreg
      refine ⟨by simp [UartCalls.registers, hk, hkc], hinv, ?_⟩
      rw [UartCalls.register, if_pos hk, hkc]
      exact h.keeps hs₁.keeps

theorem unregister (h : Tracks k s) (hi : s.Inv b) (hc : s.uart.channel = 1)
    (hk : k.reg ≠ .freed) (he : hifUartDmaUnregister_ s = some s') :
    s'.Inv b ∧ s'.uart = s.uart ∧ Tracks k.unregister s' := by
  have hd : ¬ s.Dangling := mt h.dangling.1 hk
  obtain ⟨ch, heap, he₁, hheap, hch⟩ := hifUartDmaUnregister_spec hi hc hd
  obtain rfl := Option.some.inj (he₁.symm.trans he)
  have hno : ∀ c, k.unregister.reg ≠ .live c := fun c hc => by
    unfold UartCalls.unregister at hc
    rcases hk : k.reg with _ | _ | _ <;> simp [hk, Registration.isLive] at hc
  refine ⟨.of_unused hheap hch (.inl hc) hi.fifo, rfl, h.uart, h.fifo, h.irq,
    fun c hc => absurd hc (hno c), fun c => by simp [hch, hno], ?_, ?_⟩
  · refine ⟨fun ⟨p, hp⟩ => absurd hp (hheap p), fun hl => ?_⟩
    obtain ⟨c, hl⟩ := isLive_iff.1 hl
    exact absurd hl (hno c)
  · have hp : (∃ p, s.rxDma = some p) ↔ k.reg.isLive = true := by
      refine ⟨fun ⟨p, hp⟩ => h.live.1 ⟨p, by_contra fun hl => hd ⟨p, hp, hl⟩⟩, fun hl => ?_⟩
      obtain ⟨p, hl⟩ := h.live.2 hl
      exact ⟨p, hi.live p hl⟩
    simp only [Dangling, hheap, not_false_eq_true, and_true, hp, UartCalls.unregister]
    rcases hr : k.reg with _ | _ | _ <;> simp_all [Registration.isLive]

/-! ### Opening, changing and closing -/

theorem uartOpen {type : HifType} {fifo : FifoOutcome b} (h : Tracks k s) (hi : s.Inv b)
    (hk : UartOpens type new fifo → new.usesDma = true → (k.channel dma).isSome →
      k.reg.isLive = false) (he : hifUartOpen_ type new fifo dma s = some (r, s')) :
    Tracks (k.uartOpen type new fifo dma) s' := by
  unfold UartCalls.uartOpen
  by_cases ho : UartOpens type new fifo
  · obtain ⟨block, tx, -, he₁⟩ := hifUartOpen_opens (s := s) dma ho
    rw [he₁] at he
    set s₁ : HifUartState := { s with rxFifo := some (hifFifoAlloc block), txFifo := tx }
    have h₁ : Tracks ({ k with fifo := true }.enable new) (s₁.enabled new) :=
      Tracks.enable (k := { k with fifo := true })
        ⟨h.uart, rfl, h.irq, h.bound, h.chan, h.live, h.dangling⟩ ho.2.1.1
    have hi₁ : (s₁.enabled new).Inv b :=
      hi.frame (fun _ => rfl) rfl rfl id (.inl (by simp [enabled, ho.2.1.1])) fun f hf => by
        obtain rfl := Option.some.inj hf
        exact block.length
    rw [if_pos ho]
    dsimp only at he ⊢
    split_ifs at he ⊢ with hd
    · exact (h₁.register hi₁ (by simp [enabled, ho.2.1.1]) (fun _ hc => hk ho hd hc) he).2.2
    · obtain ⟨-, rfl⟩ := Prod.mk.inj (Option.some.inj he)
      exact h₁
  · obtain ⟨rx, tx, he₁, hrx, -⟩ := hifUartOpen_refuses (s := s) dma ho
    rw [if_neg ho]
    rw [he₁] at he
    obtain ⟨-, rfl⟩ := Prod.mk.inj (Option.some.inj he)
    split_ifs at hrx ⊢
    · exact ⟨h.uart, by rw [hrx]; rfl, h.irq, h.bound, h.chan, h.live, h.dangling⟩
    · exact ⟨h.uart, by rw [hrx, h.fifo], h.irq, h.bound, h.chan, h.live, h.dangling⟩

theorem switch (h : Tracks k s) (hi : s.Inv b) (hold : old.channel = 1) (hv : new.Valid)
    (ho : old.usesDma = true → k.reg.isLive = false)
    (hr : new.usesDma = true → k.fifo = true → (k.channel dma).isSome → k.reg.isLive = false)
    (he : hifUartSwitch old new dma dma' s = some (r, s')) :
    Tracks (k.switch old new dma dma') s' := by
  have hn : Tracks (k.enable new) (s.enabled new) := h.enable hv.1
  have hin : (s.enabled new).Inv b := hi.enabling hv.1
  unfold hifUartSwitch at he
  unfold UartCalls.switch
  obtain ⟨⟨r₁, s₁⟩, he₁, he₂⟩ := Option.bind_eq_some_iff.1 he
  by_cases hd : new.usesDma = true
  · rw [if_pos hd] at he₁ ⊢
    obtain ⟨hr₁, hi₁, h₁⟩ := hn.emptied.register hin.emptied
      (by simp [HifUartState.emptied, enabled, hv.1]) (hr hd) he₁
    by_cases hreg : (k.enable new).registers dma = true
    · rw [if_pos hreg] at hr₁ ⊢
      subst hr₁
      obtain ⟨-, rfl⟩ := Prod.mk.inj (Option.some.inj he₂)
      exact h₁.retype _
    · rw [if_neg hreg] at hr₁ ⊢
      subst hr₁
      rw [UartCalls.register_refused hreg] at h₁
      have hb : Tracks (k.enable old) (s₁.enabled old) := h₁.enable hold
      simp only [hifUartSettle, hifUartFallBack] at he₂
      split_ifs at he₂ ⊢ with hu
      · obtain ⟨⟨r₂, s₂⟩, he₃, he₄⟩ := Option.bind_eq_some_iff.1 he₂
        obtain ⟨-, rfl⟩ := Prod.mk.inj (Option.some.inj he₄)
        exact (hb.register (hi₁.enabling hold) (by simp [enabled, hold]) (fun _ _ => ho hu)
          he₃).2.2
      · obtain ⟨-, rfl⟩ := Prod.mk.inj (Option.some.inj he₂)
        exact hb
  · rw [if_neg hd] at he₁ ⊢
    obtain ⟨rfl, rfl⟩ := Prod.mk.inj (Option.some.inj he₁)
    obtain ⟨-, rfl⟩ := Prod.mk.inj (Option.some.inj he₂)
    exact hn.retype _

theorem uartChange (h : Tracks k s) (hi : s.Inv b)
    (hk : k.Allows (b := b) (.uartChange new dma dma'))
    (he : hifUartChange_ new dma dma' s = some (r, s')) : Tracks (k.uartChange new dma dma') s' := by
  unfold UartCalls.uartChange
  by_cases hv : new.Valid
  · obtain ⟨hc, hd, hr⟩ := hk hv
    rw [if_pos hv]
    rw [hifUartChange_valid hv] at he
    obtain ⟨s₁, he₁, he₂⟩ := Option.bind_eq_some_iff.1 he
    have hc' : s.uart.channel = 1 := h.uart ▸ hc
    rw [h.uart] at he₁ he₂
    by_cases hu : k.uart.usesDma = true
    · rw [if_pos hu] at he₁ ⊢
      obtain ⟨hi₁, hu₁, h₁⟩ := h.unregister hi hc' (hd hu) he₁
      have hno : k.unregister.reg.isLive = false := by
        unfold UartCalls.unregister
        rcases hk : k.reg with _ | _ | _ <;> simp [Registration.isLive]
      exact h₁.switch hi₁ hc hv (fun _ => hno) (fun _ _ _ => hno) he₂
    · rw [if_neg hu] at he₁ ⊢
      obtain rfl := Option.some.inj he₁
      exact h.switch hi hc hv (fun hu' => absurd hu' hu) (hr (by simpa using hu)) he₂
  · rw [if_neg hv]
    rw [hifUartChange_invalid hv] at he
    obtain ⟨-, rfl⟩ := Prod.mk.inj (Option.some.inj he)
    exact h

theorem uartClose (h : Tracks k s) (hi : s.Inv b) (hk : k.uart.channel = 1 → k.reg ≠ .freed)
    (he : hifUartClose_ s = some s') : Tracks k.uartClose s' := by
  unfold UartCalls.uartClose
  unfold hifUartClose_ at he
  by_cases hc : k.uart.channel = 1
  · have hval : hifUartChannelValid_ s.uart.channel = true := by
      rw [h.uart, hc]
      rfl
    rw [if_pos hval] at he
    obtain ⟨s₁, he₁, he₂⟩ := Option.bind_eq_some_iff.1 he
    obtain ⟨-, hu₁, h₁⟩ := h.unregister hi (h.uart ▸ hc) (hk hc) he₁
    rw [if_pos hc]
    rw [hifUartDisable_, hu₁, if_pos hval] at he₂
    obtain rfl := Option.some.inj he₂
    exact ⟨by rw [h.uart]; rfl, rfl, rfl, h₁.bound, h₁.chan, h₁.live, h₁.dangling⟩
  · have hval : ¬ hifUartChannelValid_ s.uart.channel = true := by
      simpa [hifUartChannelValid_, h.uart] using hc
    rw [if_neg hc]
    rw [if_neg hval] at he
    obtain rfl := Option.some.inj he
    exact h

theorem next (h : Tracks k s) (hi : s.Inv b) (hh : s.halted = false) {i : HifUartInput b}
    (hk : k.Allows i) (he : s.step i = some s') : Tracks (k.next i) s' := by
  simp only [HifUartState.step, hh, Bool.false_eq_true, if_false] at he
  cases i with
  | uartOpen type uart fifo dma =>
    obtain ⟨⟨r, s₁⟩, hcall, rfl⟩ := Option.map_eq_some_iff.1 he
    exact (h.uartOpen hi hk hcall).after r
  | uartChange new dma dma' =>
    obtain ⟨⟨r, s₁⟩, hcall, rfl⟩ := Option.map_eq_some_iff.1 he
    exact (h.uartChange hi hk hcall).after r
  | uartClose => exact h.uartClose hi hk he
  | receive data => exact h.keeps (keeps_hifUartReceive he)
  | inttc =>
    obtain ⟨⟨r, s₁⟩, hcall, rfl⟩ := Option.map_eq_some_iff.1 he
    exact (h.keeps (keeps_hifDmaInttcIsr hcall)).after r
  | read len =>
    obtain ⟨⟨r, data, s₁⟩, hcall, rfl⟩ := Option.map_eq_some_iff.1 he
    exact (h.keeps (keeps_hifUartRead hcall)).after r

end Tracks

/-- The code uses, frees and keeps the control blocks as it should along exactly the runs whose
calls are allowed. -/
theorem hif_uart_blocks_iff (b : HifBuild) (is : List (HifUartInput b)) :
    (∀ js, js <+: is → ∃ s, Machine.run HifUartState.step init js = some s ∧ s.Owned) ↔
      Machine.Along (Machine.track HifUartState.step UartCalls.next)
        (fun x i => x.1.halted = false → x.2.Allows i) (init, .init) is := by
  rw [← Machine.along_iff_total (P := fun x : HifUartState × UartCalls => Owned x.1)
    (I := fun x => x.1.Inv b ∧ (x.1.halted = false → Tracks x.2 x.1)) (fun x h => h.1.toOwned)
    ?_ ?_ is (init, .init) ⟨Inv.init, fun _ => Tracks.init⟩]
  · simp only [Machine.exists_run_track]
  · rintro ⟨s, k⟩ i ⟨h, hk⟩ hC
    obtain ⟨s', he, h'⟩ := step_sound h i fun hh => ((hk hh).sound_iff h.toOwned i).2 (hC hh)
    refine ⟨(s', k.next i), by simp [Machine.track, he], h', fun hh' => ?_⟩
    rcases hh : s.halted with _ | _
    · exact (hk hh).next h hh (hC hh) he
    · simp only [HifUartState.step, hh, if_true, Option.some.injEq] at he
      subst he
      rw [hh] at hh'
      cases hh'
  · rintro ⟨s, k⟩ i x ⟨h, hk⟩ hC hx
    obtain ⟨s', he, rfl⟩ := Option.map_eq_some_iff.1 hx
    rw [not_forall] at hC
    obtain ⟨hh, hi⟩ := hC
    exact step_unsound h i hh (mt ((hk hh).sound_iff h.toOwned i).1 hi) he

/-- A change to a UART with receive interrupts frees the block and keeps its address. -/
theorem hifUartChange_dangles (dma dma' : DmaOutcome) (h : s.Inv b) (hc : s.uart.channel = 1)
    (hu : s.uart.usesDma = true) (hp : s.rxDma = some p) (hl : Heap.Live s.heap p) (hv : new.Valid)
    (hn : new.usesDma = false) :
    ∃ s', hifUartChange_ new dma dma' s = some (.ok, s') ∧ s'.uart.channel = 1 ∧ s'.Dangling := by
  have hd : ¬ s.Dangling := by
    rintro ⟨q, hq, hlq⟩
    obtain rfl := Option.some.inj (hp.symm.trans hq)
    exact hlq hl
  obtain ⟨ch, heap, he, hheap, -⟩ := hifUartDmaUnregister_spec h hc hd
  rw [hifUartChange_valid hv, if_pos hu, he, Option.bind_some, hifUartSwitch, hn,
    if_neg Bool.false_ne_true, Option.bind_some, hifUartSettle]
  exact ⟨_, rfl, by simp [HifUartState.enabled, hv.1], p, hp, hheap p⟩

/-- The UART is opened, changed to receive interrupts and closed. -/
def changedThenClosed : List (HifUartInput .uart) :=
  [.uartOpen .uart plainUart plainFifo ⟨true, []⟩,
    .uartChange ⟨1, 115200, .enable, true⟩ ⟨true, []⟩ ⟨true, []⟩, .uartClose]

/-- The close stops the channel of the block that the change freed, and frees it again. -/
theorem hif_uart_close_frees_twice :
    (∃ s, Machine.run HifUartState.step init (changedThenClosed.take 2) = some s ∧
      s.halted = false ∧ s.Dangling) ∧
      Machine.run HifUartState.step init changedThenClosed = none := by
  obtain ⟨block, tx, c, he⟩ := hifUartOpen_registers uartOpens_plain rfl registers_init
  obtain ⟨s₁, hs₁, h₁⟩ := step_sound Inv.init
    (.uartOpen .uart plainUart plainFifo ⟨true, []⟩) fun _ _ _ _ _ => Heap.not_live_nil
  have hs : after (.ok, HifUartState.registered (HifUartState.enabled
      { init with rxFifo := some (hifFifoAlloc block), txFifo := tx } plainUart)
      c block.addr HifBuild.uart.rxFifoSize) = s₁ := by
    simpa only [HifUartState.step, show init.halted = false from rfl, Bool.false_eq_true, if_false,
      he, Option.map_some, Option.some.injEq] using hs₁
  have hv : HifUart.Valid ⟨1, 115200, .enable, true⟩ := ⟨rfl, by decide⟩
  obtain ⟨s₂, he₂, hc, hd⟩ := hifUartChange_dangles (p := 0) ⟨true, []⟩ ⟨true, []⟩ h₁ (hs ▸ rfl)
    (hs ▸ rfl) (hs ▸ rfl) (hs ▸ rfl) hv rfl
  have hs₂ : s₁.step (b := .uart) (.uartChange ⟨1, 115200, .enable, true⟩ ⟨true, []⟩ ⟨true, []⟩) =
      some (after (.ok, s₂)) := by
    simp only [HifUartState.step, show s₁.halted = false from hs ▸ rfl, Bool.false_eq_true,
      if_false, he₂, Option.map_some]
  have hs₃ : (after (.ok, s₂)).step (b := .uart) .uartClose = none :=
    hifUartClose_dangling (s := after (.ok, s₂)) hc hd
  refine ⟨⟨after (.ok, s₂), ?_, rfl, hd⟩, ?_⟩
  · simp only [changedThenClosed, List.take_succ_cons, List.take_zero, Machine.run, hs₁, hs₂,
      Option.bind_some]
  · simp only [changedThenClosed, Machine.run, hs₁, hs₂, hs₃, Option.bind_some, Option.bind_none]

end NrcAtcmd
