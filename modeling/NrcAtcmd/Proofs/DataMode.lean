import NrcAtcmd.DataMode
import NrcAtcmd.Lib.Pipe

/-!
# What a data mode session hands on

A session is a pipe: a byte it took is in a block it handed to its sink, in its buffer, or held
back as part of the exit command. The bytes held back come from earlier calls, and nothing puts
them back: when the match fails they are lost. So a session hands on what it took exactly when no
step contradicts a match that earlier calls began.
-/

namespace NrcAtcmd

open Memory Machine

variable {ε : Type*}

@[simp] theorem blocks_append (o o' : List Out) : blocks (o ++ o') = blocks o ++ blocks o' := by
  simp [blocks]

@[simp] theorem received_concat (is : List Input) (i : Input) :
    received (is ++ [i]) = received is ++ i.received := by
  simp [received]

/-! ## The exit command -/

theorem DataModeParams.exit_ne_nil (p : DataModeParams) : p.exit ≠ [] := by
  unfold exit
  rcases p.exitCmd with _ | ⟨e, he⟩
  · decide
  · exact he

/-- A scan that uses up its bytes has matched them all, and not yet the whole exit command. -/
theorem exitScan_more {e : Bytes} : ∀ {bs : Bytes} {c i c' : ℕ}, c < e.length →
    exitScan e c i bs = .more c' → e.take c' = e.take c ++ bs ∧ c' < e.length
  | [], c, i, c', hc, h => by
    simp only [exitScan, ExitScan.more.injEq] at h
    subst h
    simpa using hc
  | b :: bs, c, i, c', hc, h => by
    simp only [exitScan] at h
    split_ifs at h with h1 h2
    simp only [ne_eq, not_not] at h1
    obtain ⟨h3, h4⟩ := exitScan_more (by omega) h
    refine ⟨?_, h4⟩
    rw [h3, List.take_add_one, h1]
    simp

/-- A scan that completes the exit command has the rest of it at the front of its bytes. -/
theorem exitScan_matched {e : Bytes} : ∀ {bs : Bytes} {c i j : ℕ}, c < e.length →
    exitScan e c i bs = .matched j →
      ∃ k, j = i + k ∧ k < bs.length ∧ c + k < e.length ∧ e = e.take c ++ bs.take (k + 1)
  | [], c, i, j, hc, h => by simp [exitScan] at h
  | b :: bs, c, i, j, hc, h => by
    simp only [exitScan] at h
    split_ifs at h with h1 h2
    · simp only [ExitScan.matched.injEq] at h
      simp only [ne_eq, not_not] at h1
      refine ⟨0, by omega, by simp, by omega, ?_⟩
      calc e = e.take (c + 1) := (List.take_of_length_le (by omega)).symm
        _ = e.take c ++ (b :: bs).take (0 + 1) := by rw [List.take_add_one, h1]; simp
    · simp only [ne_eq, not_not] at h1
      obtain ⟨k, hk, hlt, hle, he⟩ := exitScan_matched (by omega) h
      refine ⟨k + 1, by omega, by simpa using hlt, by omega, ?_⟩
      rw [List.take_add_one, h1] at he
      simpa using he

/-! ## The sink -/

/-- What the sink of a session of `p` answers to a block. -/
def answer (S : Sink ε) (p : DataModeParams) (buf : Bytes) (e : ε) : ℕ × ε :=
  match p.dataType with
  | .ssend _ => S.atcmdSocketSendData p.id buf e
  | .fwbindl => S.atcmdFirmwareDownload buf e
  | .sfuser offset => S.atcmdSfUserWrite offset buf e

/-- A block that is not empty is handed to the sink once, and nothing else happens to the
receiver. -/
theorem atcmdReceiveData_eq (S : Sink ε) {buf : Bytes} (hb : buf ≠ []) (rx : Receiver ε) :
    ∃ ret e, answer S rx.mode.params buf rx.env = (ret, e) ∧ atcmdReceiveData_ S buf rx = (ret,
      { rx.emit (.sink rx.mode.params.dataType rx.mode.params.id buf ret) with env := e }) := by
  unfold atcmdReceiveData_
  rw [if_neg hb]
  exact ⟨_, _, rfl, rfl⟩

/-- No event of `o` is one of a session left by the exit command. -/
def NoExit (o : List Out) : Prop := ∀ x ∈ o, ¬ x.IsExit

theorem NoExit.append {o o' : List Out} (h : NoExit o) (h' : NoExit o') : NoExit (o ++ o') := by
  intro x hx
  rcases List.mem_append.1 hx with hx | hx
  · exact h x hx
  · exact h' x hx

/-- The events that report a block. -/
def reportOf (p : DataModeParams) (done drop : UInt32) : List Out :=
  (if 0 < drop then [atcmdReceiveDataDrop_ p drop] else [])
    ++ if p.doneEvent then [atcmdReceiveDataDone_ p done] else []

theorem atcmdReceiveDataReport_eq (p : DataModeParams) (done drop : UInt32) (rx : Receiver ε) :
    atcmdReceiveDataReport p done drop rx = { rx with out := rx.out ++ reportOf p done drop } := by
  unfold atcmdReceiveDataReport reportOf Receiver.emit
  split_ifs <;> simp

theorem reportOf_spec (p : DataModeParams) (done drop : UInt32) :
    blocks (reportOf p done drop) = [] ∧ NoExit (reportOf p done drop) := by
  have hdrop : blocks [atcmdReceiveDataDrop_ p drop] = []
      ∧ NoExit [atcmdReceiveDataDrop_ p drop] := by
    unfold atcmdReceiveDataDrop_
    rcases p.dataType <;> simp [blocks, NoExit, Out.IsExit]
  have hdone : blocks [atcmdReceiveDataDone_ p done] = []
      ∧ NoExit [atcmdReceiveDataDone_ p done] := by
    unfold atcmdReceiveDataDone_
    rcases p.dataType <;> simp [blocks, NoExit, Out.IsExit]
  unfold reportOf
  split_ifs
  · rw [blocks_append, hdrop.1, hdone.1]
    exact ⟨rfl, hdrop.2.append hdone.2⟩
  · rwa [List.append_nil]
  · rwa [List.nil_append]
  · exact ⟨rfl, by simp [NoExit]⟩

/-- A block of a passthrough session: the session goes on with an empty buffer, and its counts
grow by the length of the block. -/
theorem atcmdReceiveDataBlock_passthrough (S : Sink ε) (now : UInt32) (len : ℕ) {block : Bytes}
    (rx : Receiver ε) (hb : block ≠ []) (hen : rx.mode.enable = true)
    (hp : rx.mode.params.passthrough = true) :
    ∃ o e done drop, (answer S rx.mode.params block rx.env).2 = e
      ∧ atcmdReceiveDataBlock S now len block rx =
        { rx with
          out := rx.out ++ o, env := e
          mode := { rx.mode with
            cnt := 0, idle := false, lastSendTime := now, sendDone := done, sendDrop := drop } }
      ∧ blocks o = [block] ∧ NoExit o
      ∧ done + drop = rx.mode.sendDone + rx.mode.sendDrop + .ofNat len := by
  obtain ⟨ret, e, ha, hs⟩ := atcmdReceiveData_eq S hb rx
  simp only [atcmdReceiveDataBlock, hs, hp, if_true, Receiver.emit, atcmdReceiveDataReport_eq]
  obtain ⟨hob, hox⟩ := reportOf_spec rx.mode.params (.ofNat ret) (.ofNat len - .ofNat ret)
  refine ⟨.sink rx.mode.params.dataType rx.mode.params.id block ret ::
      reportOf rx.mode.params (.ofNat ret) (.ofNat len - .ofNat ret), e,
    rx.mode.sendDone + .ofNat ret, rx.mode.sendDrop + (.ofNat len - .ofNat ret), by rw [ha], ?_, ?_,
    ?_, ?_⟩
  · simp only [atcmdDataModeContinue, hen, if_true, List.append_assoc, List.singleton_append]
  · rw [← List.singleton_append, blocks_append, hob]
    rfl
  · intro x hx
    rcases List.mem_cons.1 hx with rfl | hx
    · exact id
    · exact hox x hx
  · grind

theorem atcmdReceiveDataBlock_fixed (S : Sink ε) (now : UInt32) (len : ℕ) {block : Bytes}
    (rx : Receiver ε) (hb : block ≠ []) (hp : rx.mode.params.passthrough = false) :
    ∃ ret e, answer S rx.mode.params block rx.env = (ret, e)
      ∧ atcmdReceiveDataBlock S now len block rx =
        { rx with
          out := rx.out ++ .sink rx.mode.params.dataType rx.mode.params.id block ret ::
            reportOf rx.mode.params (rx.mode.sendDone + .ofNat ret)
              (rx.mode.sendDrop + (.ofNat len - .ofNat ret))
          env := e, mode := atcmdDataModeDisable rx.mode } := by
  obtain ⟨ret, e, ha, hs⟩ := atcmdReceiveData_eq S hb rx
  refine ⟨ret, e, ha, ?_⟩
  simp only [atcmdReceiveDataBlock, hs, hp, Bool.false_eq_true, if_false, Receiver.emit,
    atcmdReceiveDataReport_eq, List.append_assoc, List.singleton_append]

/-- The exit command ends a session, after a passthrough session sent what is in its buffer. -/
theorem atcmdReceiveDataExit_eq (S : Sink ε) (now : UInt32) {i : ℕ} (buf : Bytes)
    {rx : Receiver ε} (hen : rx.mode.enable = true) (hi : i < rx.mode.params.exit.length)
    (hfits : rx.mode.cnt ≤ rx.buf.length) :
    ∃ o done drop, (atcmdReceiveDataExit S now i buf rx).out
        = rx.out ++ .ok :: o ++ [atcmdReceiveDataExit_ rx.mode.params rx.mode.sendLen done drop]
      ∧ ((atcmdReceiveDataExit S now i buf rx).mode.enable = false
        ∧ (atcmdReceiveDataExit S now i buf rx).mode.idle = false)
      ∧ (atcmdReceiveDataExit S now i buf rx).cntExitCmd = 0
      ∧ (atcmdReceiveDataExit S now i buf rx).buf = rx.buf
      ∧ blocks [atcmdReceiveDataExit_ rx.mode.params rx.mode.sendLen done drop] = []
      ∧ (∀ x ∈ o, ∃ block ret, x = .sink rx.mode.params.dataType rx.mode.params.id block ret)
      ∧ ∃ queue, (blocks o).flatten ++ queue = rx.buf.take rx.mode.cnt
      ∧ (rx.mode.params.passthrough = true → queue = [])
      ∧ done + drop
          = rx.mode.sendDone + rx.mode.sendDrop + .ofNat (blocks o).flatten.length := by
  have hev : ∀ done drop, blocks [atcmdReceiveDataExit_ rx.mode.params rx.mode.sendLen done drop]
      = [] := by
    intro done drop
    unfold atcmdReceiveDataExit_
    rcases rx.mode.params.dataType <;> rfl
  have hshort : ¬ rx.mode.params.exit.length ≤ i := by omega
  unfold atcmdReceiveDataExit atcmdReceiveDataLeave
  simp only [atcmdTransmitOk, atcmdDataModeContinue, hen, hshort, if_true, if_false,
    Receiver.emit]
  by_cases hp : rx.mode.params.passthrough = true ∧ 0 < rx.mode.cnt
  · -- the queue goes out as the last block
    have hlen : (rx.buf.take rx.mode.cnt).length = rx.mode.cnt := by
      rw [List.length_take, Nat.min_eq_left hfits]
    have hne : rx.buf.take rx.mode.cnt ≠ [] := by
      rw [Ne, ← List.length_eq_zero_iff, hlen]
      omega
    simp only [hp.1, hp.2, decide_true, Bool.and_self, if_true]
    obtain ⟨ret, e, -, hs⟩ := atcmdReceiveData_eq S hne
      { mode := { rx.mode with idle := false, lastSendTime := now }, buf := rx.buf
        cntExitCmd := 0, env := rx.env, out := rx.out ++ [.ok] }
    dsimp only at hs
    rw [hen] at hs
    simp only [hs, Receiver.emit]
    refine ⟨[.sink rx.mode.params.dataType rx.mode.params.id (rx.buf.take rx.mode.cnt) ret],
      rx.mode.sendDone + .ofNat ret, rx.mode.sendDrop + (.ofNat rx.mode.cnt - .ofNat ret), ?_,
      ⟨rfl, rfl⟩, trivial, trivial, hev _ _, ?_, [], ?_, fun _ => rfl, ?_⟩
    · simp only [List.append_assoc, List.cons_append, List.nil_append]
    · intro x hx
      exact ⟨_, _, List.mem_singleton.1 hx⟩
    · simp [blocks]
    · have hb : blocks [.sink rx.mode.params.dataType rx.mode.params.id
          (rx.buf.take rx.mode.cnt) ret] = [rx.buf.take rx.mode.cnt] := rfl
      rw [hb, List.flatten_singleton, hlen]
      grind
  · have hp' : (rx.mode.params.passthrough && decide (0 < rx.mode.cnt)) = false := by
      simpa using hp
    simp only [hp', Bool.false_eq_true, if_false]
    refine ⟨[], rx.mode.sendDone, rx.mode.sendDrop, by simp, ⟨rfl, rfl⟩, trivial, trivial, hev _ _,
      by simp, rx.buf.take rx.mode.cnt, by simp [blocks], ?_, by simp [blocks]⟩
    intro hpass
    have : rx.mode.cnt = 0 := by
      by_contra hc
      exact hp ⟨hpass, by omega⟩
    rw [this, List.take_zero]

theorem atcmdReceiveDataExit_fixed (S : Sink ε) (now : UInt32) (i : ℕ) (buf : Bytes)
    {rx : Receiver ε} (hen : rx.mode.enable = true) (hp : rx.mode.params.passthrough = false) :
    (atcmdReceiveDataExit S now i buf rx).env = rx.env
      ∧ (atcmdReceiveDataExit S now i buf rx).mode.enable = false := by
  unfold atcmdReceiveDataExit atcmdReceiveDataLeave
  by_cases hi : rx.mode.params.exit.length ≤ i
  · simp [atcmdTransmitOk, atcmdDataModeContinue, Receiver.emit, atcmdDataModeDisable, hen, hp, hi]
  · simp [atcmdTransmitOk, atcmdDataModeContinue, Receiver.emit, atcmdDataModeDisable, hen, hp, hi]

/-! ## What a step keeps -/

/-- The pipe a receiver in data mode is, with `n` bytes lost. -/
def pipeOf (n : ℕ) (rx : Receiver ε) : Pipe UInt8 :=
  ⟨blocks rx.out, rx.buf.take rx.mode.cnt, rx.mode.params.exit.take rx.cntExitCmd, n⟩

/-- A session of `p` that took `taken`, of which `n` bytes are lost. -/
structure Live (p : DataModeParams) (taken : Bytes) (n : ℕ) (rx : Receiver ε) : Prop where
  enable : rx.mode.enable = true
  params : rx.mode.params = p
  sendLen : rx.mode.sendLen = p.len
  fits : rx.mode.cnt ≤ rx.buf.length
  room : rx.mode.cnt < p.len ∨ p.passthrough = true ∧ p.len = 0 ∧ rx.mode.cnt = 0
  scan : rx.cntExitCmd < p.exit.length
  idle : 0 < rx.cntExitCmd → rx.mode.idle = true
  pipe : (pipeOf n rx).Of taken
  noExit : NoExit rx.out
  acct : p.passthrough = true →
    rx.mode.sendDone + rx.mode.sendDrop = .ofNat (blocks rx.out).flatten.length
  fixed : p.passthrough = false →
    blocks rx.out = [] ∧ rx.mode.sendDone = 0 ∧ rx.mode.sendDrop = 0

/-- A receiver between two sessions. -/
structure Quiet (rx : Receiver ε) : Prop where
  enable : rx.mode.enable = false
  cntExitCmd : rx.cntExitCmd = 0

/-- A session of `p` that its data completed. -/
structure Completed (p : DataModeParams) (taken : Bytes) (n : ℕ) (rx : Receiver ε) : Prop
    extends Quiet rx where
  fixed : p.passthrough = false
  noExit : NoExit rx.out
  block : ∃ block, blocks rx.out = [block] ∧ block.length = p.len
    ∧ (⟨[block], [], [], n⟩ : Pipe UInt8).Of taken

/-- A session of `p` that the exit command ended, after `before`. -/
structure Exited (p : DataModeParams) (before : Bytes) (n : ℕ) (rx : Receiver ε) : Prop
    extends Quiet rx where
  event : ∃ o done drop, rx.out = o ++ [atcmdReceiveDataExit_ p p.len done drop] ∧ NoExit o
    ∧ (p.passthrough = true → done + drop = .ofNat (blocks rx.out).flatten.length)
  pipe : ∃ queue, (p.passthrough = true → queue = [])
    ∧ (⟨blocks rx.out, queue, p.exit, n⟩ : Pipe UInt8).Of (before ++ p.exit)

/-- A block made of the buffer and the bytes after it keeps a passthrough session, and completes
any other. -/
theorem Live.block {p : DataModeParams} {taken : Bytes} {n : ℕ} {rx : Receiver ε}
    (h : Live p taken n rx) (h0 : rx.cntExitCmd = 0) (S : Sink ε) (now : UInt32) (b l : Bytes)
    (c len : ℕ) (hne : rx.buf.take rx.mode.cnt ++ l ≠ [])
    (hlen : (rx.buf.take rx.mode.cnt ++ l).length = len)
    (hfix : p.passthrough = false → len = p.len) :
    let rx' := atcmdReceiveDataBlock S now len (rx.buf.take rx.mode.cnt ++ l)
      { rx with buf := b, mode := { rx.mode with cnt := c } }
    Live p (taken ++ l) n rx' ∨ Completed p (taken ++ l) n rx' := by
  have hpipe := (h.pipe.push (by simp [pipeOf, h0]) l).flush
  simp only [pipeOf, Pipe.push, Pipe.flush, h0, List.take_zero] at hpipe
  have hparams := h.params
  rcases hp : p.passthrough with _ | _
  · right
    obtain ⟨ret, e, -, hr⟩ := atcmdReceiveDataBlock_fixed S now len
      { rx with buf := b, mode := { rx.mode with cnt := c } } hne (by simpa [hparams] using hp)
    obtain ⟨hob, hox⟩ := reportOf_spec rx.mode.params (rx.mode.sendDone + .ofNat ret)
      (rx.mode.sendDrop + (.ofNat len - .ofNat ret))
    simp only [(h.fixed hp).1, List.nil_append] at hpipe
    have hsink : ∀ (d : DataType) (id : ℤ) (l : Bytes) (o : List Out),
        blocks (.sink d id l ret :: o) = l :: blocks o := fun _ _ _ _ => rfl
    rw [hr]
    exact
      { enable := by simp [atcmdDataModeDisable, h.enable]
        cntExitCmd := h0
        fixed := hp
        noExit := by
          refine h.noExit.append fun x hx => ?_
          rcases List.mem_cons.1 hx with rfl | hx
          · exact id
          · exact hox x hx
        block := ⟨_, by rw [blocks_append, (h.fixed hp).1, hsink, hob]; rfl, by rw [hlen, hfix hp],
          hpipe⟩ }
  · left
    obtain ⟨o, e, done, drop, -, hr, hob, hox, hsum⟩ := atcmdReceiveDataBlock_passthrough S now
      len { rx with buf := b, mode := { rx.mode with cnt := c } } hne h.enable
      (by simpa [hparams] using hp)
    rw [hr]
    exact
      { enable := h.enable
        params := h.params
        sendLen := h.sendLen
        fits := Nat.zero_le _
        room := by
          rcases Nat.eq_zero_or_pos p.len with hz | hz
          · exact Or.inr ⟨hp, hz, rfl⟩
          · exact Or.inl hz
        scan := h.scan
        idle := by simp [h0]
        pipe := by simpa [pipeOf, hob, h0] using hpipe
        noExit := h.noExit.append hox
        acct := fun _ => by
          have hs := h.acct hp
          simp only at hsum
          rw [hs] at hsum
          simp only [blocks_append, hob, List.flatten_append, List.flatten_singleton]
          rw [hsum, List.length_append, hlen, UInt32.ofNat_add]
        fixed := by simp [hp] }

/-- Past the idle branch nothing is held back, so every byte taken is queued or sent. -/
theorem Live.body {p : DataModeParams} {taken : Bytes} {n : ℕ} {rx : Receiver ε}
    (h : Live p taken n rx) (h0 : rx.cntExitCmd = 0) (S : Sink ε) (now : UInt32) {buf : Bytes}
    (hb : buf ≠ []) :
    let r := atcmdReceiveDataBody S now buf rx
    Live p (taken ++ buf.take r.2) n r.1 ∨ Completed p (taken ++ buf.take r.2) n r.1 := by
  obtain rfl := h.params
  have hlen := List.length_pos_iff.2 hb
  have hsend := h.sendLen
  have hroom := h.room
  rw [← hsend] at hroom
  have hfits := h.fits
  have htake : (rx.buf.take rx.mode.cnt).length = rx.mode.cnt := by
    rw [List.length_take, Nat.min_eq_left hfits]
  unfold atcmdReceiveDataBody
  dsimp only
  split_ifs with hpass hlt hcnt
  · -- no buffering: the block is the chunk
    simp only [Bool.and_eq_true, beq_iff_eq] at hpass
    have hc : rx.mode.cnt = 0 := by omega
    have hq : rx.buf.take rx.mode.cnt ++ buf = buf := by rw [hc, List.take_zero, List.nil_append]
    have := h.block h0 S now rx.buf buf rx.mode.cnt buf.length (by rwa [hq]) (by rw [hq])
      (by simp [hpass.1])
    rw [hq] at this
    rw [List.take_length]
    exact this
  · left
    have hpipe := h.pipe.push (by simp [pipeOf, h0]) buf
    simp only [List.take_length]
    exact
      { enable := by simp [atcmdDataModeContinue, h.enable]
        params := by simp [atcmdDataModeContinue, h.enable]
        sendLen := by simpa [atcmdDataModeContinue, h.enable] using h.sendLen
        fits := by simpa [atcmdDataModeContinue, h.enable] using le_length_memcpy hfits
        room := by simpa [atcmdDataModeContinue, h.enable, ← hsend] using Or.inl hlt
        scan := by simpa [atcmdDataModeContinue, h.enable] using h.scan
        idle := by simp [h0]
        pipe := by
          simpa [pipeOf, Pipe.push, atcmdDataModeContinue, h.enable, take_memcpy hfits]
            using hpipe
        noExit := h.noExit
        acct := by simpa [atcmdDataModeContinue, h.enable] using h.acct
        fixed := by simpa [atcmdDataModeContinue, h.enable] using h.fixed }
  · -- the chunk fills the buffer
    have hl : (buf.take (rx.mode.sendLen - rx.mode.cnt)).length
        = rx.mode.sendLen - rx.mode.cnt := by
      rw [List.length_take]
      omega
    have hend : rx.mode.cnt + (rx.mode.sendLen - rx.mode.cnt) = rx.mode.sendLen := by omega
    have hblock : (memcpy rx.buf rx.mode.cnt (buf.take (rx.mode.sendLen - rx.mode.cnt))).take
        rx.mode.sendLen = rx.buf.take rx.mode.cnt ++ buf.take (rx.mode.sendLen - rx.mode.cnt) := by
      rw [← take_memcpy hfits, hl, hend]
    have := h.block h0 S now (memcpy rx.buf rx.mode.cnt (buf.take (rx.mode.sendLen - rx.mode.cnt)))
      (buf.take (rx.mode.sendLen - rx.mode.cnt)) (rx.mode.cnt + (rx.mode.sendLen - rx.mode.cnt))
      rx.mode.sendLen
      (by rw [Ne, ← List.length_eq_zero_iff, List.length_append, htake]; omega)
      (by rw [List.length_append, htake, hl, hend]) (fun _ => hsend)
    simpa only [hblock] using this
  · -- the chunk alone is a block
    have hc : rx.mode.cnt = 0 := by omega
    have hpos : 0 < rx.mode.sendLen := by
      by_contra hn
      have hz : rx.mode.sendLen = 0 := by omega
      rcases hroom with hr | ⟨hr, -⟩
      · omega
      · simp [hr, hz] at hpass
    have hl : rx.mode.sendLen - rx.mode.cnt = rx.mode.sendLen := by omega
    have hq : rx.buf.take rx.mode.cnt ++ buf.take rx.mode.sendLen = buf.take rx.mode.sendLen := by
      rw [hc, List.take_zero, List.nil_append]
    have hn : (buf.take rx.mode.sendLen).length = rx.mode.sendLen := by
      rw [List.length_take]
      omega
    have := h.block h0 S now rx.buf (buf.take rx.mode.sendLen) rx.mode.cnt
      rx.mode.sendLen (by rw [hq, Ne, ← List.length_eq_zero_iff, hn]; omega) (by rw [hq, hn])
      (fun _ => hsend)
    rw [hq] at this
    rw [hl]
    exact this

theorem Live.exit {p : DataModeParams} {taken : Bytes} {n i : ℕ} {rx : Receiver ε} {buf : Bytes}
    (h : Live p taken n rx) (hm : exitScan p.exit rx.cntExitCmd 0 buf = .matched i) (S : Sink ε)
    (now : UInt32) :
    i < buf.length ∧ ∃ before, taken ++ buf.take (i + 1) = before ++ p.exit
      ∧ Exited p before n (atcmdReceiveDataExit S now i buf rx) := by
  obtain rfl := h.params
  obtain ⟨k, rfl, hk, hlt, he⟩ := exitScan_matched h.scan hm
  rw [Nat.zero_add]
  have hlen := congrArg List.length he
  rw [List.length_append, List.length_take, List.length_take] at hlen
  have hpipe := h.pipe.hold (buf.take (k + 1))
  simp only [pipeOf, Pipe.hold, ← he] at hpipe
  obtain ⟨before, hbefore⟩ := hpipe.hand_suffix
  obtain ⟨o, done, drop, hout, ⟨hen, -⟩, hcnt, hbuf, hev, ho, queue, hq, hpass, hsum⟩ :=
    atcmdReceiveDataExit_eq S now (i := k) buf h.enable (by omega) h.fits
  rw [h.sendLen] at hout hev
  have hblocks : blocks (atcmdReceiveDataExit S now k buf rx).out = blocks rx.out ++ blocks o := by
    have hok : blocks (.ok :: o) = blocks o := rfl
    rw [hout, blocks_append, blocks_append, hok, hev, List.append_nil]
  have hox : NoExit (.ok :: o) := by
    intro x hx
    rcases List.mem_cons.1 hx with rfl | hx
    · exact id
    · obtain ⟨block, ret, rfl⟩ := ho x hx
      exact id
  refine ⟨hk, before, hbefore.symm, ⟨hen, hcnt⟩, ⟨rx.out ++ .ok :: o, done, drop,
    hout, h.noExit.append hox, fun hp => ?_⟩, queue, hpass, ?_⟩
  · rw [hsum, h.acct hp, hblocks, List.flatten_append, List.length_append, UInt32.ofNat_add]
  · rw [hbefore, hblocks]
    rw [← hq] at hpipe
    exact hpipe.congr (by simp) rfl rfl

/-- The bytes a step loses: those that earlier calls brought and that were taken for the exit
command. -/
def lostAt (s : Session ε) (i : Input) : ℕ := if Contradicts s i then s.rx.cntExitCmd else 0

/-- A session of `p` after the calls `is` of `atcmd_receive`, of whose bytes `n` are lost. -/
def Progress (p : DataModeParams) (is : List Input) (n : ℕ) (s : Session ε) : Prop :=
  (∃ taken, received is = taken ++ s.rest ∧ (Live p taken n s.rx ∨ Completed p taken n s.rx))
    ∨ ∃ before, received is = before ++ p.exit ++ s.rest.tail ∧ Exited p before n s.rx

/-- What is held back is lost when the match fails. -/
theorem Live.spill {p : DataModeParams} {taken : Bytes} {n : ℕ} {rx : Receiver ε}
    (h : Live p taken n rx) : Live p taken (n + rx.cntExitCmd) { rx with cntExitCmd := 0 } :=
  have hscan := h.scan
  { h with
    scan := Nat.lt_of_le_of_lt (Nat.zero_le _) hscan
    idle := by simp
    pipe := by
      obtain rfl := h.params
      have hpipe := h.pipe.spill
      simp only [pipeOf, Pipe.spill, List.length_take, Nat.min_eq_left (Nat.le_of_lt hscan)]
        at hpipe
      simpa [pipeOf] using hpipe }

/-- What `atcmd_receive_data` does in a session: it leaves the idle branch or was not in it, or the
exit command is complete, or all bytes are held back. -/
theorem Live.data_cases {p : DataModeParams} {taken : Bytes} {n : ℕ} {rx : Receiver ε}
    (h : Live p taken n rx) (S : Sink ε) (now : UInt32) {buf : Bytes} (hb : buf ≠ []) :
    (atcmdReceiveData S now buf rx = atcmdReceiveDataBody S now buf { rx with cntExitCmd := 0 }
      ∧ (rx.mode.idle = true → exitScan p.exit rx.cntExitCmd 0 buf = .mismatch))
    ∨ (rx.mode.idle = true ∧ ∃ i, exitScan p.exit rx.cntExitCmd 0 buf = .matched i
      ∧ atcmdReceiveData S now buf rx = (atcmdReceiveDataExit S now i buf rx, i))
    ∨ (rx.mode.idle = true ∧ ∃ c, exitScan p.exit rx.cntExitCmd 0 buf = .more c
      ∧ atcmdReceiveData S now buf rx = ({ rx with cntExitCmd := c }, buf.length)) := by
  obtain rfl := h.params
  have hb' : buf.isEmpty = false := by simpa using hb
  unfold atcmdReceiveData
  simp only [h.enable, hb', Bool.not_true, Bool.or_self, Bool.false_eq_true, if_false]
  by_cases hidle : rx.mode.idle = true
  · simp only [hidle, if_true, true_and, true_imp_iff]
    rcases hm : exitScan rx.mode.params.exit rx.cntExitCmd 0 buf with _ | i | c
    · exact Or.inl ⟨rfl, rfl⟩
    · exact Or.inr (Or.inl ⟨i, rfl, rfl⟩)
    · exact Or.inr (Or.inr ⟨c, rfl, rfl⟩)
  · have h0 : rx.cntExitCmd = 0 := by
      by_contra hc
      exact hidle (h.idle (by omega))
    refine Or.inl ⟨?_, fun hi => absurd hi hidle⟩
    rw [if_neg hidle, ← h0]

theorem Live.turn {p : DataModeParams} {taken : Bytes} {n : ℕ} {s : Session ε} {is : List Input}
    (h : Live p taken n s.rx) (hr : received is = taken ++ s.rest) (hne : s.rest ≠ []) (S : Sink ε)
    (now : UInt32) :
    Progress p is (n + lostAt s (.turn now))
      ⟨(atcmdReceiveData S now s.rest s.rx).1,
        s.rest.drop (atcmdReceiveData S now s.rest s.rx).2⟩ := by
  obtain rfl := h.params
  have hne' : s.rest.isEmpty = false := by simpa using hne
  have hbody : ∀ (m : ℕ) (rx : Receiver ε),
      Live s.rx.mode.params taken m rx → rx.cntExitCmd = 0 →
      Progress s.rx.mode.params is m ⟨(atcmdReceiveDataBody S now s.rest rx).1,
        s.rest.drop (atcmdReceiveDataBody S now s.rest rx).2⟩ := by
    intro m rx hl h0
    refine Or.inl ⟨_, ?_, hl.body h0 S now hne⟩
    rw [hr, List.append_assoc, List.take_append_drop]
  unfold atcmdReceiveData
  simp only [h.enable, hne', Bool.not_true, Bool.or_self, Bool.false_eq_true, if_false]
  by_cases hidle : s.rx.mode.idle = true
  · simp only [hidle, if_true]
    rcases hm : exitScan s.rx.mode.params.exit s.rx.cntExitCmd 0 s.rest with _ | i | c
    · -- the bytes held back are lost
      have hlost : lostAt s (.turn now) = s.rx.cntExitCmd := by
        unfold lostAt Contradicts
        simp only [hidle, hm, true_and, and_true]
        split_ifs <;> omega
      rw [hlost]
      exact hbody _ _ h.spill rfl
    · have hlost : lostAt s (.turn now) = 0 := by simp [lostAt, Contradicts, hm]
      obtain ⟨hi, before, hbefore, hex⟩ := h.exit hm S now
      rw [hlost, Nat.add_zero]
      refine Or.inr ⟨before, ?_, hex⟩
      rw [hr, ← hbefore, List.append_assoc, List.tail_drop, List.take_append_drop]
    · have hlost : lostAt s (.turn now) = 0 := by simp [lostAt, Contradicts, hm]
      obtain ⟨hc, hlt⟩ := exitScan_more h.scan hm
      rw [hlost, Nat.add_zero]
      refine Or.inl ⟨taken ++ s.rest, by simp [hr], Or.inl ?_⟩
      exact
        { h with
          scan := hlt
          idle := fun _ => hidle
          pipe := by
            have hpipe := h.pipe.hold s.rest
            simpa only [pipeOf, Pipe.hold, ← hc] using hpipe }
  · have h0 : s.rx.cntExitCmd = 0 := by
      by_contra hc
      exact hidle (h.idle (by omega))
    have hlost : lostAt s (.turn now) = 0 := by simp [lostAt, h0]
    rw [Bool.not_eq_true] at hidle
    simp only [hidle, Bool.false_eq_true, if_false, hlost]
    exact hbody _ _ h h0

theorem Live.tick {p : DataModeParams} {taken : Bytes} {n : ℕ} {rx : Receiver ε}
    (h : Live p taken n rx) (now : UInt32) : Live p taken n (atcmdDataModeTask now rx).1 := by
  have hb : blocks [atcmdDataModeTimeout rx.mode] = [] ∧ NoExit [atcmdDataModeTimeout rx.mode] := by
    unfold atcmdDataModeTimeout
    rcases rx.mode.params.dataType <;> simp [blocks, NoExit, Out.IsExit]
  unfold atcmdDataModeTask
  dsimp only
  split_ifs
  · exact h
  · exact
      { h with
        idle := fun _ => rfl
        pipe := by simpa [pipeOf, Receiver.emit, hb.1] using h.pipe
        noExit := h.noExit.append hb.2
        acct := by simpa [Receiver.emit, hb.1] using h.acct
        fixed := by simpa [Receiver.emit, hb.1] using h.fixed }
  · exact h
  · exact h

/-! ## Sessions with a fixed length -/

/-- The session goes on, and at most tells the host that it is idle. -/
structure GoesOn (p : DataModeParams) (rx rx' : Receiver ε) : Prop where
  enable : rx'.mode.enable = true
  env : rx'.env = rx.env
  out : ∃ o, rx'.out = rx.out ++ o ∧ ∀ x ∈ o, ∃ m : DataMode, m.params = p ∧
    x = atcmdDataModeTimeout m

/-- The session ends with the block that completes it. -/
structure Finishes (S : Sink ε) (p : DataModeParams) (rx rx' : Receiver ε) : Prop where
  enable : rx'.mode.enable = false
  out : ∃ block ret, block.length = p.len ∧ answer S p block rx.env = (ret, rx'.env)
    ∧ rx'.out = rx.out ++ .sink p.dataType p.id block ret ::
      reportOf p (.ofNat ret) (.ofNat p.len - .ofNat ret)

theorem Live.block_finishes {p : DataModeParams} {taken : Bytes} {n : ℕ} {rx : Receiver ε}
    (h : Live p taken n rx) (hp : p.passthrough = false) (S : Sink ε) (now : UInt32)
    {block : Bytes} (b : Bytes) (c : ℕ) (hl : block.length = rx.mode.sendLen) :
    Finishes S p rx (atcmdReceiveDataBlock S now rx.mode.sendLen block
      { rx with buf := b, mode := { rx.mode with cnt := c } }) := by
  obtain rfl := h.params
  have hsend := h.sendLen
  rw [hsend] at hl
  have hne : block ≠ [] := by
    rw [Ne, ← List.length_eq_zero_iff, hl]
    rcases h.room with hr | ⟨hr, -⟩
    · omega
    · rw [hp] at hr
      cases hr
  obtain ⟨-, hdone, hdrop⟩ := h.fixed hp
  obtain ⟨ret, e, ha, hr⟩ := atcmdReceiveDataBlock_fixed S now rx.mode.sendLen
    { rx with buf := b, mode := { rx.mode with cnt := c } } hne hp
  rw [hr]
  refine ⟨by simp [atcmdDataModeDisable, h.enable], block, ret, hl, ha, ?_⟩
  simp only [hdone, hdrop, UInt32.zero_add, hsend]

theorem Live.body_fixed {p : DataModeParams} {taken : Bytes} {n : ℕ} {rx : Receiver ε}
    (h : Live p taken n rx) (hp : p.passthrough = false) (S : Sink ε) (now : UInt32)
    (buf : Bytes) :
    GoesOn p rx (atcmdReceiveDataBody S now buf rx).1
      ∨ Finishes S p rx (atcmdReceiveDataBody S now buf rx).1 := by
  obtain rfl := h.params
  have hsend := h.sendLen
  have hfits := h.fits
  unfold atcmdReceiveDataBody
  simp only [hp, Bool.false_and, Bool.false_eq_true, if_false]
  split_ifs with hlt hcnt
  · refine Or.inl ⟨by simp [atcmdDataModeContinue, h.enable], rfl, [], by simp, by simp⟩
  · right
    refine h.block_finishes hp S now (memcpy rx.buf rx.mode.cnt (buf.take _)) (_ + (_ - _)) ?_
    rw [List.length_take]
    refine Nat.min_eq_left (Nat.le_trans ?_ (le_length_memcpy hfits))
    rw [List.length_take]
    omega
  · right
    have hc : rx.mode.cnt = 0 := by omega
    refine h.block_finishes hp S now rx.buf rx.mode.cnt ?_
    rw [List.length_take]
    omega

theorem Live.step_fixed {p : DataModeParams} {taken : Bytes} {n : ℕ} {S : Sink ε}
    {s s' : Session ε} {i : Input} (h : Live p taken n s.rx) (hp : p.passthrough = false)
    (hs : sessionStep S s i = some s') (hexit : ∀ now, i = .turn now → s.rx.mode.idle = true →
      ∀ j, exitScan p.exit s.rx.cntExitCmd 0 s.rest ≠ .matched j) :
    GoesOn p s.rx s'.rx ∨ Finishes S p s.rx s'.rx := by
  have hstay : GoesOn p s.rx s.rx := ⟨h.enable, rfl, [], by simp, by simp⟩
  cases i with
  | receive buf =>
    simp only [sessionStep, Option.ite_none_right_eq_some, Option.some.injEq] at hs
    obtain ⟨-, rfl⟩ := hs
    exact Or.inl hstay
  | tick now =>
    simp only [sessionStep, Option.ite_none_right_eq_some, Option.some.injEq] at hs
    obtain ⟨-, rfl⟩ := hs
    left
    unfold atcmdDataModeTask
    dsimp only
    split_ifs
    · exact hstay
    · exact ⟨h.enable, rfl, _, rfl, fun x hx => ⟨s.rx.mode, h.params, List.mem_singleton.1 hx⟩⟩
    · exact hstay
    · exact hstay
  | turn now =>
    simp only [sessionStep, Option.ite_none_right_eq_some, Option.some.injEq] at hs
    obtain ⟨⟨-, hrest⟩, rfl⟩ := hs
    have hne' : s.rest.isEmpty = false := by simpa using hrest
    have hpar := h.params
    unfold atcmdReceiveData
    simp only [h.enable, hne', Bool.not_true, Bool.or_self, Bool.false_eq_true, if_false]
    split_ifs with hidle
    · rcases hm : exitScan s.rx.mode.params.exit s.rx.cntExitCmd 0 s.rest with _ | j | c
      · -- what is held back is lost, and the receiver is as good as before
        have hlive : Live p taken (n + s.rx.cntExitCmd) { s.rx with cntExitCmd := 0 } :=
          h.spill
        rcases hlive.body_fixed hp S now s.rest with hg | hf
        · exact Or.inl ⟨hg.enable, hg.env, hg.out⟩
        · exact Or.inr ⟨hf.enable, hf.out⟩
      · rw [hpar] at hm
        exact absurd hm (hexit now rfl hidle j)
      · exact Or.inl ⟨h.enable, rfl, [], by simp, by simp⟩
    · exact h.body_fixed hp S now s.rest

/-! ## Whole sessions -/

theorem Progress.step {p : DataModeParams} {is : List Input} {n : ℕ} {s s' : Session ε} {i : Input}
    {S : Sink ε} (h : Progress p is n s) (hs : sessionStep S s i = some s') :
    Progress p (is ++ [i]) (n + lostAt s i) s' := by
  have hen : s.rx.mode.enable = true := by
    cases i <;> simp only [sessionStep, Option.ite_none_right_eq_some] at hs <;> tauto
  rcases h with ⟨taken, hr, h | h⟩ | ⟨before, -, h⟩
  · cases i with
    | receive buf =>
      simp only [sessionStep, Option.ite_none_right_eq_some, Option.some.injEq] at hs
      obtain ⟨⟨-, hrest⟩, rfl⟩ := hs
      refine Or.inl ⟨taken, ?_, Or.inl ?_⟩
      · rw [received_concat, hr, hrest, List.append_nil, Input.received]
      · simpa [lostAt, Contradicts] using h
    | turn now =>
      simp only [sessionStep, Option.ite_none_right_eq_some, Option.some.injEq] at hs
      obtain ⟨⟨-, hrest⟩, rfl⟩ := hs
      refine h.turn ?_ hrest S now
      simpa [Input.received] using hr
    | tick now =>
      simp only [sessionStep, Option.ite_none_right_eq_some, Option.some.injEq] at hs
      obtain ⟨-, rfl⟩ := hs
      refine Or.inl ⟨taken, by simpa [Input.received] using hr, Or.inl ?_⟩
      simpa [lostAt, Contradicts] using h.tick now
  · rw [h.enable] at hen
    exact absurd hen (by decide)
  · rw [h.enable] at hen
    exact absurd hen (by decide)

theorem sessionStart_eq_some {p : DataModeParams} {now : UInt32} {rx : Receiver ε}
    {s : Session ε} (h : sessionStart p now rx = some s) :
    s.rest = [] ∧ s.rx =
      { rx with
        mode :=
          { params := p, enable := true, idle := false, cnt := 0, sendLen := p.len, sendDone := 0
            sendDrop := 0, sendTimeout := p.timeout + 100, lastSendTime := now }
        out := [.ok] } := by
  unfold sessionStart atcmdDataModeEnable at h
  split_ifs at h
  · simp at h
  · simp only [Option.map_some, Option.some.injEq] at h
    subst h
    exact ⟨rfl, rfl⟩

theorem Live.start {p : DataModeParams} {rx : Receiver ε} (hq : Quiet rx) (hp : p.Posed)
    (time : UInt32) {o : List Out} (hb : blocks o = []) (ho : NoExit o) :
    Live p [] 0
      { rx with
        mode :=
          { params := p, enable := true, idle := false, cnt := 0, sendLen := p.len, sendDone := 0
            sendDrop := 0, sendTimeout := p.timeout + 100, lastSendTime := time }
        out := o } where
  enable := rfl
  params := rfl
  sendLen := rfl
  fits := Nat.zero_le _
  room := by
    rcases Nat.eq_zero_or_pos p.len with hz | hz
    · refine Or.inr ⟨?_, hz, rfl⟩
      by_contra hpass
      exact absurd (hp (by simpa using hpass)).1 (by omega)
    · exact Or.inl hz
  scan := by
    have := List.length_pos_iff.2 p.exit_ne_nil
    simpa [hq.cntExitCmd] using this
  idle := by simp [hq.cntExitCmd]
  pipe := by
    have : Pipe.Of ([] : Bytes) Pipe.empty := Pipe.of_empty
    simpa [pipeOf, hq.cntExitCmd, hb, Pipe.empty] using this
  noExit := ho
  acct := by simp [hb]
  fixed := by simp [hb]

theorem Progress.start {p : DataModeParams} {now : UInt32} {rx : Receiver ε} {s : Session ε}
    (hq : Quiet rx) (hp : p.Posed) (h : sessionStart p now rx = some s) : Progress p [] 0 s := by
  obtain ⟨hrest, hrx⟩ := sessionStart_eq_some h
  refine Or.inl ⟨[], by simp [received, hrest], Or.inl ?_⟩
  rw [hrx]
  exact Live.start hq hp now rfl (by simp [NoExit, Out.IsExit])

/-- What a whole session did with its bytes. -/
theorem Progress.run {p : DataModeParams} {now : UInt32} {rx : Receiver ε} {s s' : Session ε}
    {is : List Input} {S : Sink ε} (hq : Quiet rx) (hp : p.Posed)
    (h : sessionStart p now rx = some s) (hr : run (sessionStep S) s is = some s') :
    Progress p is (count (sessionStep S) lostAt s is) s' := by
  have := run_count (P := Progress p) (fun h n s i s' hp hs => hp.step hs) is [] 0 s s'
    (Progress.start hq hp h) hr
  simpa using this

theorem Progress.quiet {p : DataModeParams} {is : List Input} {n : ℕ} {s : Session ε}
    (h : Progress p is n s) (hen : s.rx.mode.enable = false) : Quiet s.rx := by
  rcases h with ⟨_, _, h | h⟩ | ⟨_, _, h⟩
  · rw [h.enable] at hen
    exact absurd hen (by decide)
  · exact h.toQuiet
  · exact h.toQuiet

/-- No session leaves a match of the exit command behind for the next. -/
theorem Ready.quiet {S : Sink ε} {rx : Receiver ε} (h : Ready S rx) : Quiet rx := by
  induction h with
  | boot e => exact ⟨rfl, rfl⟩
  | after e _ hp hs hr hen _ ih =>
    have := (Progress.run ih hp hs hr).quiet hen
    exact ⟨this.enable, this.cntExitCmd⟩

theorem Ready.size {S : Sink ε} {rx : Receiver ε} (h : Ready S rx) :
    rx.buf.length = atcmdDataLenMax := by
  cases h with
  | boot e => exact List.length_replicate
  | after e _ _ _ _ _ hsize => exact hsize

/-! ## The buffer -/

theorem DataModeParams.Sized.posed {p : DataModeParams} (h : p.Sized) : p.Posed :=
  fun hp => ⟨h.2 hp, h.1⟩

theorem atcmdReceiveDataBlock_buf (S : Sink ε) (now : UInt32) (len : ℕ) (block : Bytes)
    (rx : Receiver ε) : (atcmdReceiveDataBlock S now len block rx).buf = rx.buf := by
  have hdata : (atcmdReceiveData_ S block rx).2.buf = rx.buf := by
    unfold atcmdReceiveData_
    split_ifs <;> rfl
  unfold atcmdReceiveDataBlock
  simp only [atcmdReceiveDataReport_eq]
  split_ifs <;> exact hdata

theorem atcmdReceiveDataBody_buf (S : Sink ε) (now : UInt32) (buf : Bytes) (rx : Receiver ε) :
    (atcmdReceiveDataBody S now buf rx).1.buf
      = memcpy rx.buf rx.mode.cnt (buf.take (rx.copied buf)) := by
  unfold atcmdReceiveDataBody Receiver.copied
  dsimp only
  split_ifs <;> simp [atcmdReceiveDataBlock_buf]

theorem Receiver.copied_le (rx : Receiver ε) (buf : Bytes) : rx.copied buf ≤ buf.length := by
  unfold Receiver.copied
  dsimp only
  split_ifs <;> omega

theorem Live.buf_turn {p : DataModeParams} {taken : Bytes} {n : ℕ} {rx : Receiver ε}
    (h : Live p taken n rx) (S : Sink ε) (now : UInt32) {buf : Bytes} (hb : buf ≠ []) :
    ∃ c ≤ buf.length, (atcmdReceiveData S now buf rx).1.buf
        = memcpy rx.buf rx.mode.cnt (buf.take c)
      ∧ (rx.mode.cnt ≤ atcmdDataLenMax → (rx.Overruns buf ↔ atcmdDataLenMax < rx.mode.cnt + c)) := by
  obtain rfl := h.params
  rcases h.data_cases S now hb with ⟨hd, hm⟩ | ⟨hidle, i, hm, hd⟩ | ⟨hidle, c, hm, hd⟩
  · refine ⟨rx.copied buf, rx.copied_le buf, ?_, fun _ => ?_⟩
    · rw [hd, atcmdReceiveDataBody_buf]
      rfl
    · simp only [Receiver.Overruns, h.enable, true_and]
      exact ⟨And.right, fun hlt => ⟨hm, hlt⟩⟩
  · obtain ⟨k, hk, -, hlt, -⟩ := exitScan_matched h.scan hm
    obtain ⟨_, _, _, -, -, -, hbuf, -⟩ :=
      atcmdReceiveDataExit_eq S now buf h.enable (i := i) (by omega) h.fits
    refine ⟨0, Nat.zero_le _, by simp [hd, hbuf], fun hcnt => ⟨fun ho => ?_, fun hlt => ?_⟩⟩
    · exact absurd ((ho.2.1 hidle).symm.trans hm) (by simp)
    · omega
  · refine ⟨0, Nat.zero_le _, by simp [hd], fun hcnt => ⟨fun ho => ?_, fun hlt => ?_⟩⟩
    · exact absurd ((ho.2.1 hidle).symm.trans hm) (by simp)
    · omega

/-- The buffer never shrinks, and keeps its length in a turn that copies nothing over its end. -/
theorem Live.size_turn {p : DataModeParams} {taken : Bytes} {n : ℕ} {rx : Receiver ε}
    (h : Live p taken n rx) (S : Sink ε) (now : UInt32) {buf : Bytes} (hb : buf ≠ []) :
    rx.buf.length ≤ (atcmdReceiveData S now buf rx).1.buf.length
      ∧ (rx.buf.length = atcmdDataLenMax →
        ((atcmdReceiveData S now buf rx).1.buf.length = atcmdDataLenMax ↔ ¬ rx.Overruns buf)) := by
  obtain ⟨c, hc, hbuf, hiff⟩ := h.buf_turn S now hb
  have hfits := h.fits
  rw [hbuf]
  refine ⟨length_le_memcpy hfits, fun hsize => ?_⟩
  rw [hiff (hsize ▸ hfits), ← hsize, length_memcpy_iff, List.length_take, Nat.min_eq_left hc,
    ← List.length_eq_zero_iff, List.length_take, Nat.min_eq_left hc]
  omega

/-- Where there is room for what a session waits for, no copy leaves the buffer. -/
theorem Live.not_overruns {p : DataModeParams} {taken : Bytes} {n : ℕ} {rx : Receiver ε}
    (h : Live p taken n rx) (hmax : p.len ≤ atcmdDataLenMax) (buf : Bytes) : ¬ rx.Overruns buf := by
  rintro ⟨-, -, hlt⟩
  have hsend := h.sendLen
  have hroom := h.room
  unfold Receiver.copied at hlt
  dsimp only at hlt
  split_ifs at hlt <;> omega

theorem Progress.size_step {p : DataModeParams} {is : List Input} {n : ℕ} {s s' : Session ε}
    {i : Input} {S : Sink ε} (h : Progress p is n s) (hs : sessionStep S s i = some s') :
    s.rx.buf.length ≤ s'.rx.buf.length
      ∧ (s.rx.buf.length = atcmdDataLenMax →
        (s'.rx.buf.length = atcmdDataLenMax ↔ ¬ s.Overruns i)) := by
  have hsame : s'.rx.buf = s.rx.buf → ¬ s.Overruns i → s.rx.buf.length ≤ s'.rx.buf.length
      ∧ (s.rx.buf.length = atcmdDataLenMax →
        (s'.rx.buf.length = atcmdDataLenMax ↔ ¬ s.Overruns i)) := by
    intro hbuf ho
    rw [hbuf]
    exact ⟨le_rfl, fun hsize => iff_of_true hsize ho⟩
  cases i with
  | receive buf =>
    simp only [sessionStep, Option.ite_none_right_eq_some, Option.some.injEq] at hs
    exact hsame (hs.2 ▸ rfl) id
  | tick now =>
    simp only [sessionStep, Option.ite_none_right_eq_some, Option.some.injEq] at hs
    refine hsame ?_ id
    rw [← hs.2]
    unfold atcmdDataModeTask
    dsimp only
    split_ifs <;> rfl
  | turn now =>
    simp only [sessionStep, Option.ite_none_right_eq_some, Option.some.injEq] at hs
    obtain ⟨⟨hen, hne⟩, rfl⟩ := hs
    rcases h with ⟨_, _, h | h⟩ | ⟨_, _, h⟩
    · exact h.size_turn S now hne
    · exact absurd (h.enable.symm.trans hen) (by decide)
    · exact absurd (h.enable.symm.trans hen) (by decide)

theorem Session.size_run {p : DataModeParams} {now : UInt32} {rx : Receiver ε} {s s' : Session ε}
    {is : List Input} {S : Sink ε} (hq : Quiet rx) (hsize : rx.buf.length = atcmdDataLenMax)
    (hp : p.Posed) (h : sessionStart p now rx = some s) (hr : run (sessionStep S) s is = some s') :
    s'.rx.buf.length = atcmdDataLenMax ↔ Along (sessionStep S) (fun s i => ¬ s.Overruns i) s is := by
  have hsize : s.rx.buf.length = atcmdDataLenMax := by
    rw [(sessionStart_eq_some h).2]
    exact hsize
  rcases run_good_or_bad
    (G := fun s => (∃ is n, Progress p is n s) ∧ s.rx.buf.length = atcmdDataLenMax)
    (B := fun s => (∃ is n, Progress p is n s) ∧ atcmdDataLenMax < s.rx.buf.length)
    (fun s i s' ⟨⟨is, n, hp⟩, hl⟩ ho hs => ⟨⟨_, _, hp.step hs⟩, ((hp.size_step hs).2 hl).2 ho⟩)
    (fun s i s' ⟨⟨is, n, hp⟩, hl⟩ ho hs => ⟨⟨_, _, hp.step hs⟩,
      lt_of_le_of_ne (hl ▸ (hp.size_step hs).1) fun he => ho (((hp.size_step hs).2 hl).1 he.symm)⟩)
    (fun s i s' ⟨⟨is, n, hp⟩, hl⟩ hs => ⟨⟨_, _, hp.step hs⟩, hl.trans_le (hp.size_step hs).1⟩)
    ⟨⟨_, _, Progress.start hq hp h⟩, hsize⟩ hr with ⟨ha, -, hl⟩ | ⟨ha, -, hl⟩
  · exact iff_of_true hl ha
  · exact iff_of_false (Nat.ne_of_gt hl) ha

theorem Progress.not_overruns {p : DataModeParams} {is : List Input} {n : ℕ} {s : Session ε}
    (h : Progress p is n s) (hmax : p.len ≤ atcmdDataLenMax) : ∀ i, ¬ s.Overruns i
  | .turn _, ho => by
    rcases h with ⟨_, _, h | h⟩ | ⟨_, _, h⟩
    · exact h.not_overruns hmax s.rest ho
    · exact absurd (h.enable.symm.trans ho.1) (by decide)
    · exact absurd (h.enable.symm.trans ho.1) (by decide)

theorem Session.size_sized {p : DataModeParams} {now : UInt32} {rx : Receiver ε} {s s' : Session ε}
    {is : List Input} {S : Sink ε} (hq : Quiet rx) (hsize : rx.buf.length = atcmdDataLenMax)
    (hp : p.Sized) (h : sessionStart p now rx = some s)
    (hr : run (sessionStep S) s is = some s') : s'.rx.buf.length = atcmdDataLenMax :=
  (Session.size_run hq hsize hp.posed h hr).2 <| along_of_inv (P := fun s => ∃ is n, Progress p is n s)
    (fun _ _ _ ⟨_, _, hp⟩ hs => ⟨_, _, hp.step hs⟩) (fun _ i ⟨_, _, hpr⟩ => hpr.not_overruns hp.1 i)
    is ⟨_, _, Progress.start hq hp.posed h⟩

theorem Contradicts.pos {s : Session ε} : ∀ {i : Input}, Contradicts s i → 0 < s.rx.cntExitCmd
  | .turn _, h => h.2.1

/-- Nothing is lost along a session exactly when no step contradicts a match. -/
theorem lost_eq_zero {S : Sink ε} {s : Session ε} {is : List Input} :
    count (sessionStep S) lostAt s is = 0
      ↔ Along (sessionStep S) (fun s i => ¬ Contradicts s i) s is := by
  have h : (fun (s : Session ε) i => lostAt s i = 0) = fun s i => ¬ Contradicts s i := by
    funext s i
    unfold lostAt
    split_ifs with hc
    · have := hc.pos
      simp [hc, Nat.ne_of_gt this]
    · simp [hc]
  rw [count_eq_zero, h]

theorem atcmdReceiveDataExit_isExit (p : DataModeParams) (len : ℕ) (done drop : UInt32) :
    (atcmdReceiveDataExit_ p len done drop).IsExit := by
  unfold atcmdReceiveDataExit_
  rcases p.dataType <;> exact trivial

/-- A session that ends without the exit command has a fixed length, and its data completed it. It
handed on the first `len` bytes it was sent, as one block, and left the rest, exactly when no step
contradicted a match of the exit command that earlier calls began. -/
theorem fixed_session_iff {S : Sink ε} {p : DataModeParams} {now : UInt32} {rx : Receiver ε}
    {s s' : Session ε} {is : List Input} (hrx : Ready S rx) (hlen : p.Sized)
    (hs : sessionStart p now rx = some s)
    (hr : run (sessionStep S) s is = some s') (hen : s'.rx.mode.enable = false)
    (hdata : ∀ o ∈ s'.rx.out, ¬ o.IsExit) :
    (blocks s'.rx.out = [(received is).take p.len] ∧ s'.rest = (received is).drop p.len)
      ↔ Along (sessionStep S) (fun s i => ¬ Contradicts s i) s is := by
  rw [← lost_eq_zero]
  rcases Progress.run hrx.quiet hlen.posed hs hr with ⟨taken, htaken, h | h⟩ | ⟨_, _, h⟩
  · rw [h.enable] at hen
    exact absurd hen (by decide)
  · obtain ⟨block, hblock, hl, hpipe⟩ := h.block
    have hcount := hpipe.count
    simp only [List.flatten_singleton, List.length_nil, Nat.add_zero] at hcount
    rw [hblock, List.cons.injEq, htaken]
    constructor
    · rintro ⟨⟨hb, -⟩, hrest⟩
      have h1 := congrArg List.length hb
      have h2 := congrArg List.length hrest
      simp only [List.length_take, List.length_drop, List.length_append] at h1 h2
      omega
    · intro h0
      have hex := hpipe.exact_of h0
      simp only [List.flatten_singleton, List.append_nil] at hex
      rw [hex, List.take_left' hl, List.drop_left' hl]
      exact ⟨⟨rfl, rfl⟩, rfl⟩
  · obtain ⟨o, done, drop, hout, -⟩ := h.event
    exact absurd (atcmdReceiveDataExit_isExit p p.len done drop) (hdata _ (by simp [hout]))

/-- Sinks that take every byte. -/
def takeAll : Sink Unit where
  atcmdSocketSendData _ buf _ := (buf.length, ())
  atcmdFirmwareDownload buf _ := (buf.length, ())
  atcmdSfUserWrite _ buf _ := (buf.length, ())

/-- A session of the socket `0`. -/
def ssendParams (passthrough : Bool) (len : ℕ) : DataModeParams where
  dataType := .ssend passthrough
  id := 0
  len := len
  timeout := 1000
  doneEvent := true
  exitCmd := none

theorem fixed_session_iff_three : ∃ s s' : Session Unit,
    sessionStart (ssendParams false 3) 1 (.boot ()) = some s
      ∧ run (sessionStep takeAll) s [.receive (bytes "AB"), .turn 2, .tick 2000,
          .receive (bytes "CD"), .turn 2001] = some s'
      ∧ blocks s'.rx.out = [(bytes "ABCD").take 3] ∧ s'.rest = (bytes "ABCD").drop 3 := by
  obtain ⟨s, s', hs, hr, hen, hdata, hC⟩ : ∃ s s' : Session Unit,
      sessionStart (ssendParams false 3) 1 (.boot ()) = some s
        ∧ run (sessionStep takeAll) s [.receive (bytes "AB"), .turn 2, .tick 2000,
            .receive (bytes "CD"), .turn 2001] = some s'
        ∧ s'.rx.mode.enable = false ∧ (∀ o ∈ s'.rx.out, ¬ o.IsExit)
        ∧ Along (sessionStep takeAll) (fun s i => ¬ Contradicts s i) s
            [.receive (bytes "AB"), .turn 2, .tick 2000, .receive (bytes "CD"), .turn 2001] :=
    ⟨_, _, rfl, rfl, rfl, by decide, by decide⟩
  exact ⟨s, s', hs, hr, (fixed_session_iff (.boot ()) ⟨by decide, by decide⟩ hs hr hen hdata).2 hC⟩

/-- The host sends `ABCDE` as two chunks after its session was idle. The block starts at the second
chunk: `A` was taken for the start of the exit command. -/
theorem fixed_session_loses_prefix : ∃ s s' : Session Unit,
    sessionStart (ssendParams false 3) 1 (.boot ()) = some s
      ∧ run (sessionStep takeAll) s [.tick 2000, .receive (bytes "A"), .turn 2001,
          .receive (bytes "BCDE"), .turn 2002] = some s'
      ∧ s'.rx.mode.enable = false ∧ (∀ o ∈ s'.rx.out, ¬ o.IsExit)
      ∧ blocks s'.rx.out = [bytes "BCD"] ∧ blocks s'.rx.out ≠ [(bytes "ABCDE").take 3] :=
  ⟨_, _, rfl, rfl, rfl, by decide, rfl, by decide⟩

/-- A passthrough session that the exit command ends kept to its buffer, and reported and handed on
what came before the exit command, exactly when no step copied over the end of the buffer or
contradicted a match of the exit command that earlier calls began. The last byte of the exit command
is left to `atcmd_receive`. -/
theorem passthrough_session_iff {S : Sink ε} {p : DataModeParams} {now : UInt32}
    {rx : Receiver ε} {s s' : Session ε} {is : List Input} {id : ℤ} {done drop : UInt32}
    (hrx : Ready S rx) (hp : p.passthrough = true)
    (hs : sessionStart p now rx = some s) (hr : run (sessionStep S) s is = some s')
    (hexit : .sevent (.sendExit id done drop) ∈ s'.rx.out) :
    (s'.rx.buf.length = atcmdDataLenMax ∧ ∃ before, received is = before ++ p.exit ++ s'.rest.tail
        ∧ done + drop = .ofNat before.length ∧ (blocks s'.rx.out).flatten = before)
      ↔ Along (sessionStep S) (fun s i => ¬ s.Overruns i ∧ ¬ Contradicts s i) s is := by
  have hposed : p.Posed := fun hp' => absurd (hp.symm.trans hp') (by decide)
  rw [along_and, Session.size_run hrx.quiet hrx.size hposed hs hr, ← lost_eq_zero]
  refine and_congr_right' ?_
  rcases Progress.run hrx.quiet hposed hs hr with
    ⟨_, _, h | h⟩ | ⟨before, hbefore, h⟩
  · exact absurd trivial (h.noExit _ hexit)
  · exact absurd trivial (h.noExit _ hexit)
  · obtain ⟨o, done', drop', hout, hox, hacct⟩ := h.event
    obtain ⟨queue, hq, hpipe⟩ := h.pipe
    rw [hq hp] at hpipe
    have hiff := Pipe.Of.sent_iff (p := ⟨_, [], p.exit, _⟩) hpipe rfl
    dsimp only at hiff
    rw [← hiff]
    have hsum : done + drop = .ofNat (blocks s'.rx.out).flatten.length := by
      rw [hout] at hexit
      rcases List.mem_append.1 hexit with hx | hx
      · exact absurd trivial (hox _ hx)
      · have := hacct hp
        unfold atcmdReceiveDataExit_ at hx
        rcases hd : p.dataType <;> simp [hd] at hx
        rw [hx.2.1, hx.2.2, this]
    constructor
    · rintro ⟨b, hb, -, hsent⟩
      rw [hbefore, List.append_assoc, List.append_assoc, List.append_cancel_right_eq] at hb
      rw [hsent, hb]
    · intro hsent
      exact ⟨before, hbefore, by rw [hsum, hsent], hsent⟩

theorem passthrough_session_iff_idle : ∃ s s' : Session Unit,
    sessionStart (ssendParams true 2) 1 (.boot ()) = some s
      ∧ run (sessionStep takeAll) s [.receive (bytes "ABC"), .turn 2, .turn 2, .tick 2000,
          .receive (bytes "AT"), .turn 2001, .receive (bytes "\r\n"), .turn 2002] = some s'
      ∧ s'.rx.buf.length = atcmdDataLenMax
      ∧ ∃ before, bytes "ABCAT\r\n" = before ++ bytes "AT\r\n" ++ s'.rest.tail
        ∧ (3 : UInt32) + 0 = .ofNat before.length ∧ (blocks s'.rx.out).flatten = before := by
  obtain ⟨s, s', hs, hr, hexit, hC⟩ : ∃ s s' : Session Unit,
      sessionStart (ssendParams true 2) 1 (.boot ()) = some s
        ∧ run (sessionStep takeAll) s [.receive (bytes "ABC"), .turn 2, .turn 2, .tick 2000,
            .receive (bytes "AT"), .turn 2001, .receive (bytes "\r\n"), .turn 2002] = some s'
        ∧ .sevent (.sendExit 0 3 0) ∈ s'.rx.out
        ∧ Along (sessionStep takeAll) (fun s i => ¬ s.Overruns i ∧ ¬ Contradicts s i) s
            [.receive (bytes "ABC"), .turn 2, .turn 2, .tick 2000, .receive (bytes "AT"),
              .turn 2001, .receive (bytes "\r\n"), .turn 2002] :=
    ⟨_, _, rfl, rfl, by decide, by decide⟩
  exact ⟨s, s', hs, hr, (passthrough_session_iff (.boot ()) rfl hs hr hexit).2 hC⟩

/-- The host sends `ABC` as two chunks after its session was idle, and later the exit command. One
byte less than it sent is reported and handed on. -/
theorem passthrough_session_loses_prefix : ∃ s s' : Session Unit,
    sessionStart (ssendParams true 0) 1 (.boot ()) = some s
      ∧ run (sessionStep takeAll) s [.tick 2000, .receive (bytes "A"), .turn 2001,
          .receive (bytes "BC"), .turn 2002, .tick 4000, .receive (bytes "AT\r\n"),
          .turn 4001] = some s'
      ∧ .sevent (.sendExit 0 2 0) ∈ s'.rx.out ∧ (blocks s'.rx.out).flatten = bytes "BC" :=
  ⟨_, _, rfl, rfl, by decide, rfl⟩

end NrcAtcmd
