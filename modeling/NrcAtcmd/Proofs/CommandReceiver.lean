import NrcAtcmd.CommandReceiver
import NrcAtcmd.Proofs.DataMode

/-!
# How the receiver reads its input

While no session is idle, the receiver is a machine that reads one byte at a time (`Reading.step`):
a turn of `atcmd_receive` has the effect of the bytes it takes, one after the other, on all that
`Device.reading` sees. So how the stream is cut into calls makes no difference.
-/

namespace NrcAtcmd

open Memory Machine

variable {ε : Type*}

/-! ## One byte at a time -/

/-- What the next byte is for: a command, or a session. One without buffering hands each byte on,
and any other keeps a queue until it has a block. -/
inductive Mode (ε : Type*) where
  | command (e : ε)
  | stream (p : DataModeParams) (handed : Bytes)
  | collect (p : DataModeParams) (e : ε) (queue handed : Bytes)

/-- A session without buffering. -/
def DataModeParams.Unbuffered (p : DataModeParams) : Prop := p.passthrough = true ∧ p.len = 0

instance (p : DataModeParams) : Decidable p.Unbuffered := inferInstanceAs (Decidable (_ ∧ _))

/-- What a device is as a reader of bytes. The state of the sinks of a session without buffering is
left out: it depends on how its stream is cut, and the session never ends by itself. -/
structure Reading (ε : Type*) where
  line : LineReader
  mode : Mode ε
  calls : List (Bytes × AtcmdHandler × List Bytes)
  handed : List Bytes
  halted : Bool

/-- What a receiver is between two bytes. -/
def Receiver.reading (rx : Receiver ε) : Mode ε :=
  if rx.mode.enable then
    if rx.mode.params.Unbuffered then .stream rx.mode.params (blocks rx.out).flatten
    else .collect rx.mode.params rx.env (rx.buf.take rx.mode.cnt) (blocks rx.out).flatten
  else .command rx.env

/-- What a device is between two bytes. -/
def Device.reading (d : Device ε) : Reading ε where
  line := d.line
  mode := d.rx.reading
  calls := d.calls
  handed := d.log.filterMap fun | .session _ out => some (blocks out).flatten | _ => none
  halted := d.halted

namespace Reading

/-- What every session handed on, the running one last. -/
def allHanded (r : Reading ε) : List Bytes :=
  r.handed ++ match r.mode with
    | .command _ => []
    | .stream _ handed | .collect _ _ _ handed => [handed]

/-- A session begins. -/
def start (p : DataModeParams) (e : ε) : Mode ε :=
  if p.Unbuffered then .stream p [] else .collect p e [] []

/-- A block is complete. -/
def block (S : Sink ε) (p : DataModeParams) (e : ε) (queue handed : Bytes) (r : Reading ε) :
    Reading ε :=
  let e := (answer S p queue e).2
  if p.passthrough then { r with mode := .collect p e [] (handed ++ queue) }
  else { r with mode := .command e, handed := r.handed ++ [handed ++ queue] }

/-- What a line comes to is done. -/
def perform (e : ε) (r : Reading ε) : Effect ε → Reading ε
  | .nothing | .reply _ => r
  | .reset => { r with halted := true }
  | .call handler name type argv =>
    let a := handler argv e
    { r with
      calls := r.calls ++ [(name, type, argv)]
      mode := match a.dataMode with
        | some p => start p.1 a.env
        | none => .command a.env }

/-- The next byte is read. -/
def step (S : Sink ε) (groups : List (AtcmdGroup ε)) (r : Reading ε) (b : UInt8) : Reading ε :=
  if r.halted then r
  else match r.mode with
    | .stream p handed => { r with mode := .stream p (handed ++ [b]) }
    | .collect p e queue handed =>
      if queue.length + 1 < p.len then { r with mode := .collect p e (queue ++ [b]) handed }
      else r.block S p e (queue ++ [b]) handed
    | .command e =>
      let (line, got) := atcmdReceiveChar groups r.line b
      match got with
      | .line eff => ({ r with line := line }).perform e eff
      | .linefeed | .next => { r with line := line }

variable {S : Sink ε} {groups : List (AtcmdGroup ε)}

theorem foldl_halted {r : Reading ε} (h : r.halted = true) :
    ∀ l : Bytes, l.foldl (step S groups) r = r
  | [] => rfl
  | b :: l => by
    have hs : step S groups r b = r := by simp [step, h]
    rw [List.foldl_cons, hs]
    exact foldl_halted h l

theorem foldl_stream {p : DataModeParams} : ∀ {r : Reading ε} {handed : Bytes} (l : Bytes),
    r.halted = false → r.mode = .stream p handed →
      l.foldl (step S groups) r = { r with mode := .stream p (handed ++ l) }
  | r, handed, [], _, h => by
    rw [List.append_nil, ← h]
    rfl
  | r, handed, b :: l, hh, h => by
    have hs : step S groups r b = { r with mode := .stream p (handed ++ [b]) } := by
      simp [step, hh, h]
    rw [List.foldl_cons, hs,
      foldl_stream (r := { r with mode := .stream p (handed ++ [b]) }) l hh rfl, List.append_assoc]
    rfl

theorem foldl_collect {p : DataModeParams} {e : ε} {handed : Bytes} :
    ∀ {r : Reading ε} {queue : Bytes} (l : Bytes), r.halted = false →
      r.mode = .collect p e queue handed → queue.length + l.length < p.len →
      l.foldl (step S groups) r = { r with mode := .collect p e (queue ++ l) handed }
  | r, queue, [], _, h, _ => by
    rw [List.append_nil, ← h]
    rfl
  | r, queue, b :: l, hh, h, hlt => by
    rw [List.length_cons] at hlt
    have hs : step S groups r b = { r with mode := .collect p e (queue ++ [b]) handed } := by
      simp only [step, hh, h, Bool.false_eq_true, if_false]
      rw [if_pos (by omega)]
    rw [List.foldl_cons, hs,
      foldl_collect (r := { r with mode := .collect p e (queue ++ [b]) handed }) l hh rfl
        (by rw [List.length_append, List.length_singleton]; omega), List.append_assoc]
    rfl

/-- The last byte of a block hands it on. -/
theorem foldl_block {r : Reading ε} {p : DataModeParams} {e : ε} {handed queue : Bytes} (l : Bytes)
    (hh : r.halted = false) (h : r.mode = .collect p e queue handed) (hne : l ≠ [])
    (hlen : queue.length + l.length = p.len) :
    l.foldl (step S groups) r = r.block S p e (queue ++ l) handed := by
  obtain ⟨l, b, rfl⟩ := (List.eq_nil_or_concat l).resolve_left hne
  rw [List.concat_eq_append, List.length_append, List.length_singleton] at hlen
  rw [List.concat_eq_append, List.foldl_append, foldl_collect l hh h (by omega), List.foldl_cons,
    List.foldl_nil, step, if_neg (by simp [hh])]
  dsimp only
  rw [if_neg (by rw [List.length_append]; omega), List.append_assoc]
  rfl

end Reading

/-! ## What a turn takes -/

theorem DataModeParams.unbuffered_iff {p : DataModeParams} {rx : Receiver ε}
    (h : rx.mode.sendLen = p.len) :
    (p.passthrough && rx.mode.sendLen == 0) = true ↔ p.Unbuffered := by
  simp [Unbuffered, h]

theorem reading_command {rx : Receiver ε} (h : rx.mode.enable = false) :
    rx.reading = .command rx.env := by
  simp [Receiver.reading, h]

theorem ended_of_enable {d : Device ε} {p : DataModeParams} (h : d.rx.mode.enable = true) :
    d.ended p = d := by
  simp [Device.ended, h]

theorem blocks_sink (t : DataType) (id : ℤ) (block : Bytes) (ret : ℕ) (o : List Out) :
    blocks (.sink t id block ret :: o) = block :: blocks o := rfl

/-- A block that a buffering session hands on. -/
theorem Live.block_reading {p : DataModeParams} {taken : Bytes} {n : ℕ} {d : Device ε}
    (h : Live p taken n d.rx) (hu : ¬ p.Unbuffered) (S : Sink ε) (now : UInt32) (b l rest : Bytes)
    (c len : ℕ) (hne : d.rx.buf.take d.rx.mode.cnt ++ l ≠ []) :
    let rx := atcmdReceiveDataBlock S now len (d.rx.buf.take d.rx.mode.cnt ++ l)
      { d.rx with buf := b, mode := { d.rx.mode with cnt := c } }
    ({ d with rx := rx, rest := rest }.ended p).reading
        = d.reading.block S p d.rx.env (d.rx.buf.take d.rx.mode.cnt ++ l) (blocks d.rx.out).flatten
      ∧ rx.mode.idle = false := by
  obtain rfl := h.params
  have hen := h.enable
  rcases hp : d.rx.mode.params.passthrough with _ | _
  · obtain ⟨ret, e, ha, hr⟩ := atcmdReceiveDataBlock_fixed S now len
      { d.rx with buf := b, mode := { d.rx.mode with cnt := c } } hne hp
    dsimp only at ha hr
    have hob := (reportOf_spec d.rx.mode.params (d.rx.mode.sendDone + .ofNat ret)
      (d.rx.mode.sendDrop + (.ofNat len - .ofNat ret))).1
    dsimp only
    rw [hr]
    simp only [atcmdDataModeDisable, hen, if_true, Device.ended, Device.record, Device.reading,
      Device.calls, Reading.block, hp, Bool.false_eq_true, if_false, Receiver.reading, and_true]
    simp [blocks_sink, hob, ha]
  · obtain ⟨o, e, done, drop, ha, hr, hob, -⟩ := atcmdReceiveDataBlock_passthrough S now len
      { d.rx with buf := b, mode := { d.rx.mode with cnt := c } } hne hen hp
    dsimp only at ha hr
    dsimp only
    rw [hr]
    simp only [Device.ended, hen, if_true, Device.reading, Device.calls, Reading.block, hp,
      Receiver.reading, hu, if_false, and_true]
    simp [hob, ha]

/-- Past the idle branch a turn of a session reads the bytes it takes. -/
theorem Live.body_reading {p : DataModeParams} {taken : Bytes} {n : ℕ} {d : Device ε}
    (h : Live p taken n d.rx) (hh : d.halted = false) (S : Sink ε) (groups : List (AtcmdGroup ε))
    (now : UInt32) (hne : d.rest ≠ []) :
    let r := atcmdReceiveDataBody S now d.rest d.rx
    ({ d with rx := r.1, rest := d.rest.drop r.2 }.ended p).reading
        = (d.rest.take r.2).foldl (Reading.step S groups) d.reading
      ∧ r.1.mode.idle = false := by
  obtain rfl := h.params
  have hen := h.enable
  have hsend := h.sendLen
  have hroom := h.room
  rw [← hsend] at hroom
  have hfits := h.fits
  have hlen := List.length_pos_iff.2 hne
  have htake : (d.rx.buf.take d.rx.mode.cnt).length = d.rx.mode.cnt := by
    rw [List.length_take, Nat.min_eq_left hfits]
  unfold atcmdReceiveDataBody
  dsimp only
  split_ifs with hpass hlt hcnt
  · -- no buffering: every byte is handed on
    have hu := (DataModeParams.unbuffered_iff hsend).1 hpass
    obtain ⟨o, e, done, drop, -, hr, hob, -⟩ :=
      atcmdReceiveDataBlock_passthrough S now d.rest.length d.rx hne hen hu.1
    have hmode : d.reading.mode = .stream d.rx.mode.params (blocks d.rx.out).flatten := by
      simp [Device.reading, Receiver.reading, hen, hu]
    rw [List.take_length, Reading.foldl_stream d.rest hh hmode, hr]
    simp only [Device.ended, hen, if_true, Device.reading, Device.calls, Receiver.reading, hu,
      and_true]
    simp [hob]
  all_goals
    have hu : ¬ d.rx.mode.params.Unbuffered := fun hu =>
      hpass ((DataModeParams.unbuffered_iff hsend).2 hu)
    have hmode : d.reading.mode = .collect d.rx.mode.params d.rx.env
        (d.rx.buf.take d.rx.mode.cnt) (blocks d.rx.out).flatten := by
      simp [Device.reading, Receiver.reading, hen, hu]
  · -- the bytes are queued
    rw [List.take_length, Reading.foldl_collect d.rest hh hmode (by omega)]
    simp only [Device.ended, atcmdDataModeContinue, hen, if_true, Device.reading, Device.calls,
      Receiver.reading, hu, if_false, take_memcpy hfits, and_self]
  · -- they fill the queue
    have hl : (d.rest.take (d.rx.mode.sendLen - d.rx.mode.cnt)).length
        = d.rx.mode.sendLen - d.rx.mode.cnt := by
      rw [List.length_take]
      omega
    have hend : d.rx.mode.cnt + (d.rx.mode.sendLen - d.rx.mode.cnt) = d.rx.mode.sendLen := by
      omega
    have hblock := @take_memcpy _ _ (d.rest.take (d.rx.mode.sendLen - d.rx.mode.cnt)) _ hfits
    rw [hl, hend] at hblock
    have hl0 : d.rest.take (d.rx.mode.sendLen - d.rx.mode.cnt) ≠ [] := by
      rw [Ne, ← List.length_eq_zero_iff, hl]
      omega
    dsimp only
    rw [hblock, Reading.foldl_block _ hh hmode hl0 (by omega)]
    exact h.block_reading hu S now _ _ _ _ _ (List.append_ne_nil_of_right_ne_nil _ hl0)
  · -- they are a block by themselves
    have hc : d.rx.mode.cnt = 0 := by omega
    have hl : d.rx.mode.sendLen - d.rx.mode.cnt = d.rx.mode.sendLen := by omega
    have hq : d.rx.buf.take d.rx.mode.cnt = [] := by rw [hc, List.take_zero]
    have hpos : 0 < d.rx.mode.sendLen := by
      by_contra hn
      rcases hroom with hr | ⟨hr, hz, -⟩
      · omega
      · exact hu ⟨hr, hsend.symm.trans hz⟩
    have hn : (d.rest.take d.rx.mode.sendLen).length = d.rx.mode.sendLen := by
      rw [List.length_take]
      omega
    have hl0 : d.rest.take d.rx.mode.sendLen ≠ [] := by
      rw [Ne, ← List.length_eq_zero_iff, hn]
      omega
    dsimp only
    rw [hl, Reading.foldl_block _ hh hmode hl0 (by omega)]
    have := h.block_reading hu S now d.rx.buf (d.rest.take d.rx.mode.sendLen)
      (d.rest.drop d.rx.mode.sendLen) d.rx.mode.cnt d.rx.mode.sendLen
      (List.append_ne_nil_of_right_ne_nil _ hl0)
    rw [hq, List.nil_append] at this ⊢
    exact this

/-- What holds of the device between two steps. In a session the line is empty, so the command
receiver is as the command that began the session left it. -/
structure Device.Inv (d : Device ε) : Prop where
  rx : (∃ p taken n, Live p taken n d.rx) ∨ Quiet d.rx
  line : d.rx.mode.enable = true →
    d.line.cmd = [] ∧ (d.line.config.linefeed = true → d.line.cntCR = 0)
  idle : d.rx.mode.enable = false → d.rx.mode.idle = false
  halted : d.halted = true → d.rx.mode.enable = false

theorem Device.Inv.boot (e : ε) : (Device.boot e).Inv where
  rx := Or.inr ⟨rfl, rfl⟩
  line h := absurd h (by simp [Device.boot, Receiver.boot])
  idle _ := rfl
  halted _ := rfl

/-- In data mode there is a session. -/
theorem Device.Inv.live {d : Device ε} (h : d.Inv) (hen : d.rx.mode.enable = true) :
    ∃ p taken n, Live p taken n d.rx := by
  rcases h.rx with h | h
  · exact h
  · rw [h.enable] at hen
    exact absurd hen (by decide)

theorem Device.Inv.quiet {d : Device ε} (h : d.Inv) (hen : d.rx.mode.enable = false) :
    Quiet d.rx := by
  rcases h.rx with ⟨p, taken, n, h⟩ | h
  · rw [h.enable] at hen
    exact absurd hen (by decide)
  · exact h

theorem ended_line (d : Device ε) (p : DataModeParams) : (d.ended p).line = d.line := by
  unfold Device.ended Device.record
  split_ifs <;> rfl

theorem ended_mode (d : Device ε) (p : DataModeParams) : (d.ended p).rx.mode = d.rx.mode := by
  unfold Device.ended Device.record
  split_ifs <;> rfl

/-- What holds of a receiver that took part of its input holds of the device. -/
theorem Device.Inv.of_progress {d : Device ε} (h : d.Inv) (hen : d.rx.mode.enable = true)
    {p : DataModeParams} {is : List Input} {n : ℕ} {rx : Receiver ε} {rest : Bytes}
    (hp : Progress p is n ⟨rx, rest⟩) (hidle : rx.mode.enable = false → rx.mode.idle = false) :
    ({ d with rx := rx, rest := rest }.ended p).Inv where
  rx := by
    unfold Device.ended Device.record
    split_ifs with hr
    · rcases hp with ⟨taken, -, hl | hc⟩ | ⟨_, -, hx⟩
      · exact Or.inl ⟨p, taken, n, hl⟩
      · exact Or.inr hc.toQuiet
      · exact Or.inr hx.toQuiet
    · have hq := hp.quiet (by simpa using hr)
      exact Or.inr ⟨hq.enable, hq.cntExitCmd⟩
  line _ := by
    rw [ended_line]
    exact h.line hen
  idle hr := by
    rw [ended_mode] at hr ⊢
    exact hidle hr
  halted hh := by
    have hh' : d.halted = true := by
      unfold Device.ended Device.record at hh
      split_ifs at hh <;> exact hh
    rw [h.halted hh'] at hen
    exact absurd hen (by decide)

/-- A turn of a session. -/
theorem Device.Inv.data {d : Device ε} (h : d.Inv) (hh : d.halted = false)
    (hen : d.rx.mode.enable = true) (hne : d.rest ≠ []) (S : Sink ε) (now : UInt32) :
    let r := atcmdReceiveData S now d.rest d.rx
    ({ d with rx := r.1, rest := d.rest.drop r.2 }.ended d.rx.mode.params).Inv := by
  obtain ⟨p, taken, n, hl⟩ := h.live hen
  obtain rfl := hl.params
  have hrec : received [.receive (taken ++ d.rest)] = taken ++ d.rest := by
    simp [received, Input.received]
  refine h.of_progress hen (hl.turn (s := ⟨d.rx, d.rest⟩) hrec hne S now) fun hr => ?_
  rcases hl.data_cases S now hne with ⟨hd, -⟩ | ⟨-, i, hm, hd⟩ | ⟨-, c, -, hd⟩
  · rw [hd]
    exact (Live.body_reading (d := { d with rx := { d.rx with cntExitCmd := 0 } }) hl.spill hh S []
      now hne).2
  · obtain ⟨k, hk, -, hlt, -⟩ := exitScan_matched hl.scan hm
    obtain ⟨_, _, _, -, ⟨-, hoff⟩, -⟩ :=
      atcmdReceiveDataExit_eq S now d.rest hen (i := i) (by omega) hl.fits
    rw [hd]
    exact hoff
  · rw [hd] at hr
    exact absurd hr (by simp [hen])

/-! ## Commands -/

theorem reading_continue (now : UInt32) (rx : Receiver ε) :
    ({ rx with mode := atcmdDataModeContinue now rx.mode } : Receiver ε).reading = rx.reading := by
  unfold atcmdDataModeContinue
  split_ifs <;> rfl

/-- An answer to the host changes nothing that a later byte could see. -/
theorem reading_transmitReturn (now : UInt32) (cmd : Option Bytes) (ret : AtcmdError)
    (d : Device ε) : (d.transmitReturn now cmd ret).reading = d.reading := by
  have hrec : (d.record (.reply cmd ret)).reading = d.reading := by
    simp [Device.reading, Device.record, Device.calls]
  unfold Device.transmitReturn
  dsimp only
  split_ifs
  · rw [← hrec]
    simp only [Device.reading, Device.calls, reading_continue]
  · exact hrec

theorem reading_dataMode {d : Device ε} (h : d.rx.mode.enable = false) (p : DataModeParams) :
    (d.dataMode p).reading = { d.reading with mode := Reading.start p d.rx.env } := by
  simp only [Device.dataMode, atcmdDataModeEnable, h, Bool.false_eq_true, if_false,
    Option.getD_some, Device.reading, Device.calls, Receiver.reading, if_true, Reading.start]
  rfl

theorem reading_handlerReturn (now : UInt32) (name : Bytes) (ret : AtcmdError) (d : Device ε) :
    (d.handlerReturn now name ret).reading = d.reading := by
  unfold Device.handlerReturn
  split
  · rfl
  · exact reading_transmitReturn _ _ _ d
  · exact reading_transmitReturn _ _ _ d

/-- A line that is done. -/
theorem reading_perform {d : Device ε} (h : d.rx.mode.enable = false) (now : UInt32)
    (e : Effect ε) : (d.perform now e).reading = d.reading.perform d.rx.env e := by
  cases e with
  | nothing => rfl
  | reset => rfl
  | reply ret => exact reading_transmitReturn now none ret d
  | call handler name type argv =>
    have hcalls : (d.record (.call name type argv)).calls = d.calls ++ [(name, type, argv)] := by
      simp [Device.calls, Device.record]
    unfold Device.perform
    rw [reading_handlerReturn]
    unfold Device.call Reading.perform
    rcases hm : (handler argv d.rx.env).dataMode with _ | p
    · simp [Device.reading, Receiver.reading, Device.record, Device.calls, h, hm]
    · simp only [hm]
      rw [reading_dataMode (by exact h)]
      simp [Device.reading, Device.record, Device.calls]

theorem Live.continue {p : DataModeParams} {taken : Bytes} {n : ℕ} {rx : Receiver ε}
    (h : Live p taken n rx) (h0 : rx.cntExitCmd = 0) (now : UInt32) :
    Live p taken n { rx with mode := atcmdDataModeContinue now rx.mode } := by
  have hen := h.enable
  simp only [atcmdDataModeContinue, hen, if_true]
  exact { h with enable := rfl, idle := by simp [h0] }

theorem idle_transmitReturn {d : Device ε} (h : d.rx.mode.idle = false) (now : UInt32)
    (cmd : Option Bytes) (ret : AtcmdError) :
    (d.transmitReturn now cmd ret).rx.mode.idle = false := by
  unfold Device.transmitReturn atcmdDataModeContinue
  dsimp only
  split_ifs
  · rfl
  · exact h
  · exact h

/-- An answer leaves the receiver fit for what comes next. -/
theorem Device.Inv.transmitReturn {d : Device ε} (h : d.Inv) (h0 : d.rx.cntExitCmd = 0)
    (now : UInt32) (cmd : Option Bytes) (ret : AtcmdError) :
    (d.transmitReturn now cmd ret).Inv ∧ (d.transmitReturn now cmd ret).line = d.line := by
  unfold Device.transmitReturn
  dsimp only
  split_ifs
  · refine ⟨⟨?_, ?_, ?_, ?_⟩, rfl⟩
    · rcases h.rx with ⟨p, taken, n, hl⟩ | hq
      · exact Or.inl ⟨p, taken, n, hl.continue h0 now⟩
      · refine Or.inr ⟨?_, hq.cntExitCmd⟩
        simp [Device.record, atcmdDataModeContinue, hq.enable]
    · intro hen
      refine h.line ?_
      by_contra hoff
      rw [Bool.not_eq_true] at hoff
      simp [Device.record, atcmdDataModeContinue, hoff] at hen
    · intro hoff
      show (atcmdDataModeContinue now d.rx.mode).idle = false
      unfold atcmdDataModeContinue
      split_ifs with hen
      · rfl
      · exact h.idle (by simpa using hen)
    · intro hh
      simp [Device.record, atcmdDataModeContinue, h.halted hh]
  · exact ⟨⟨h.rx, h.line, h.idle, h.halted⟩, rfl⟩

theorem idle_handlerReturn {d : Device ε} (h : d.rx.mode.idle = false) (now : UInt32) (name : Bytes)
    (ret : AtcmdError) : (d.handlerReturn now name ret).rx.mode.idle = false := by
  unfold Device.handlerReturn
  split
  · exact h
  · exact idle_transmitReturn h _ _ _
  · exact idle_transmitReturn h _ _ _

theorem Device.Inv.handlerReturn {d : Device ε} (h : d.Inv) (h0 : d.rx.cntExitCmd = 0)
    (now : UInt32) (name : Bytes) (ret : AtcmdError) :
    (d.handlerReturn now name ret).Inv ∧ (d.handlerReturn now name ret).line = d.line := by
  unfold Device.handlerReturn
  split
  · exact ⟨h, rfl⟩
  · exact h.transmitReturn h0 now _ _
  · exact h.transmitReturn h0 now _ _

/-- A line that is done leaves the receiver fit for what comes next. -/
theorem Device.Inv.perform {d : Device ε} (h : d.Inv) (hen : d.rx.mode.enable = false)
    (hh : d.halted = false)
    (hcmd : d.line.cmd = []) (hcr : d.line.config.linefeed = true → d.line.cntCR = 0)
    (now : UInt32) (e : Effect ε) :
    (d.perform now e).Inv ∧ (d.perform now e).line = d.line := by
  have hq := h.quiet hen
  cases e with
  | nothing => exact ⟨h, rfl⟩
  | reset => exact ⟨⟨h.rx, h.line, h.idle, fun _ => hen⟩, rfl⟩
  | reply ret => exact h.transmitReturn hq.cntExitCmd now none ret
  | call handler name type argv =>
    have hcall : (d.call handler name type argv).Inv
        ∧ (d.call handler name type argv).rx.cntExitCmd = 0
        ∧ (d.call handler name type argv).line = d.line := by
      unfold Device.call
      rcases hm : (handler argv d.rx.env).dataMode with _ | p <;> simp only [hm]
      · exact ⟨⟨Or.inr ⟨hq.enable, hq.cntExitCmd⟩, h.line, h.idle, h.halted⟩,
          hq.cntExitCmd, rfl⟩
      · have hq' : Quiet { d.rx with env := (handler argv d.rx.env).env } :=
          ⟨hq.enable, hq.cntExitCmd⟩
        have hl := Live.start hq' p.2 0 (o := []) rfl (by simp [NoExit])
        simp only [Device.dataMode, atcmdDataModeEnable, hen, Bool.false_eq_true, if_false,
          Option.getD_some]
        exact ⟨⟨Or.inl ⟨_, _, _, hl⟩, fun _ => ⟨hcmd, hcr⟩, fun h => absurd h (by simp),
          fun h => absurd (hh.symm.trans h) (by decide)⟩, hq.cntExitCmd, rfl⟩
    obtain ⟨hinv, h0, hline⟩ := hcall
    rw [← hline]
    exact hinv.handlerReturn h0 now name _

/-- No session begins idle. -/
theorem idle_perform {d : Device ε} (hen : d.rx.mode.enable = false) (h : d.rx.mode.idle = false)
    (now : UInt32) (e : Effect ε) : (d.perform now e).rx.mode.idle = false := by
  cases e with
  | nothing => exact h
  | reset => exact h
  | reply ret => exact idle_transmitReturn h now none ret
  | call handler name type argv =>
    refine idle_handlerReturn ?_ now name _
    unfold Device.call
    rcases hm : (handler argv d.rx.env).dataMode with _ | p <;> simp only [hm]
    · exact h
    · simp [Device.dataMode, atcmdDataModeEnable, hen]

theorem atcmdProcessCommand_linefeed (groups : List (AtcmdGroup ε)) (config : AtcmdConfig)
    (cmd : Bytes) : (atcmdProcessCommand groups config cmd).1.linefeed = config.linefeed := by
  unfold atcmdProcessCommand
  dsimp only
  split <;> split_ifs <;> rfl

theorem LineReader.switch_line {groups : List (AtcmdGroup ε)} {r r' : LineReader} {c : UInt8}
    {code : AtcmdKey} {e : Effect ε} (h : r.switch groups c code = (r', .line e)) :
    r'.cmd = [] ∧ r'.cntCR = r.cntCR ∧ r'.config.linefeed = r.config.linefeed := by
  have hend : (if r.cmd = [] then (r, Got.next) else
      ({ r with cmd := [], config := (atcmdProcessCommand groups r.config r.cmd).1 },
        .line (atcmdProcessCommand groups r.config r.cmd).2)) = (r', .line e) →
      r'.cmd = [] ∧ r'.cntCR = r.cntCR ∧ r'.config.linefeed = r.config.linefeed := by
    intro h
    split_ifs at h
    · simp at h
    · simp only [Prod.mk.injEq] at h
      obtain ⟨rfl, -⟩ := h
      exact ⟨rfl, rfl, atcmdProcessCommand_linefeed groups r.config r.cmd⟩
  cases code with
  | cr => exact hend h
  | lf => exact hend h
  | _ => simp [switch] at h

/-- At the end of a line the buffer is empty, and no carriage return is counted. -/
theorem atcmdReceiveChar_line {groups : List (AtcmdGroup ε)} {r r' : LineReader} {c : UInt8}
    {e : Effect ε} (h : atcmdReceiveChar groups r c = (r', .line e)) :
    r'.cmd = [] ∧ (r'.config.linefeed = true → r'.cntCR = 0) := by
  unfold atcmdReceiveChar at h
  dsimp only at h
  split_ifs at h with h1 h2 h3
  · simp at h
  · simp at h
  · obtain ⟨hcmd, hcr, -⟩ := LineReader.switch_line h
    exact ⟨hcmd, fun _ => hcr⟩
  · obtain ⟨hcmd, -, hlf⟩ := LineReader.switch_line h
    rw [Bool.not_eq_true] at h1
    exact ⟨hcmd, fun ht => absurd (hlf.symm.trans ht) (by simp [h1])⟩

/-- A call of `atcmd_receive_command` reads the characters it takes. -/
theorem atcmdReceiveCommand_spec (S : Sink ε) (groups : List (AtcmdGroup ε)) (now : UInt32) :
    ∀ (cs : Bytes) {d : Device ε}, d.Inv → d.rx.mode.enable = false → d.halted = false →
      let r := atcmdReceiveCommand groups now cs d
      r.1.Inv ∧ r.1.rx.mode.idle = false
        ∧ r.1.reading = (cs.take r.2).foldl (Reading.step S groups) d.reading
  | [], d, hd, hen, _ => ⟨hd, hd.idle hen, rfl⟩
  | c :: cs, d, hd, hen, hh => by
    have hstep : Reading.step S groups d.reading c =
        match atcmdReceiveChar groups d.line c with
        | (line, .line e) => ({ d.reading with line := line }).perform d.rx.env e
        | (line, _) => { d.reading with line := line } := by
      unfold Reading.step
      rw [if_neg (by simp [Device.reading, hh])]
      simp only [Device.reading, reading_command hen]
      rcases atcmdReceiveChar groups d.line c with ⟨line, _ | _ | e⟩ <;> rfl
    rcases hc : atcmdReceiveChar groups d.line c with ⟨line, got⟩
    rw [hc] at hstep
    simp only [atcmdReceiveCommand, hc]
    have hinv : ({ d with line := line } : Device ε).Inv :=
      ⟨hd.rx, fun h => absurd h (by simp [hen]), hd.idle, hd.halted⟩
    cases got with
    | next =>
      have := atcmdReceiveCommand_spec S groups now cs hinv hen hh
      simp only [List.take_succ_cons, List.foldl_cons, hstep]
      exact this
    | linefeed =>
      have hrec : (({ d with line := line } : Device ε).record .linefeed).Inv :=
        ⟨hinv.rx, hinv.line, hinv.idle, hinv.halted⟩
      have hread : (({ d with line := line } : Device ε).record .linefeed).reading
          = { d.reading with line := line } := by
        simp [Device.reading, Device.record, Device.calls]
      have := atcmdReceiveCommand_spec S groups now cs hrec hen hh
      simp only [List.take_succ_cons, List.foldl_cons, hstep, ← hread]
      exact this
    | line e =>
      obtain ⟨hcmd, hcr⟩ := atcmdReceiveChar_line hc
      have := hinv.perform hen hh hcmd hcr now e
      have hidle := idle_perform (d := { d with line := line }) hen (hd.idle hen) now e
      refine ⟨this.1, hidle, ?_⟩
      rw [reading_perform (by exact hen)]
      simp only [List.take_succ_cons, List.take_zero, List.foldl_cons, List.foldl_nil, hstep]
      rfl

/-! ## Runs -/

theorem reading_tick (d : Device ε) (now : UInt32) :
    ({ d with rx := (atcmdDataModeTask now d.rx).1 } : Device ε).reading = d.reading := by
  have hb : blocks [atcmdDataModeTimeout d.rx.mode] = [] := by
    unfold atcmdDataModeTimeout
    rcases d.rx.mode.params.dataType <;> rfl
  unfold atcmdDataModeTask
  dsimp only
  split_ifs
  · rfl
  · simp [Device.reading, Device.calls, Receiver.reading, Receiver.emit, hb]
  · rfl
  · rfl

/-- The bytes that wait make no difference to what holds of the device. -/
theorem Device.Inv.rest {d : Device ε} (h : d.Inv) (rest : Bytes) :
    ({ d with rest := rest } : Device ε).Inv := ⟨h.rx, h.line, h.idle, h.halted⟩

theorem Device.Inv.step {S : Sink ε} {groups : List (AtcmdGroup ε)} {d d' : Device ε} {i : Input}
    (h : d.Inv) (hs : deviceStep S groups d i = some d') : d'.Inv := by
  cases i with
  | receive buf =>
    simp only [deviceStep] at hs
    split_ifs at hs <;> simp only [Option.some.injEq] at hs <;> subst hs
    · exact h
    · exact h.rest buf
  | turn now =>
    simp only [deviceStep] at hs
    split_ifs at hs with hgo hen <;> simp only [Option.some.injEq] at hs <;> subst hs <;>
      rw [not_or] at hgo <;> have hh : d.halted = false := by simpa using hgo.1
    · exact h.data hh hen hgo.2 S now
    · exact (atcmdReceiveCommand_spec S groups now d.rest (h.rest []) (by simpa using hen)
        hh).1.rest _
  | tick now =>
    simp only [deviceStep] at hs
    split_ifs at hs
    simp only [Option.some.injEq] at hs
    subst hs
    have hen : (atcmdDataModeTask now d.rx).1.mode.enable = d.rx.mode.enable := by
      unfold atcmdDataModeTask
      dsimp only
      split_ifs <;> rfl
    refine ⟨?_, fun hon => h.line (hen ▸ hon), fun hoff => ?_, fun hh => hen.trans (h.halted hh)⟩
    · rcases h.rx with ⟨p, taken, n, hl⟩ | hq
      · exact Or.inl ⟨p, taken, n, hl.tick now⟩
      · right
        unfold atcmdDataModeTask
        simpa [hq.enable] using hq
    · have hoff' := hen.symm.trans hoff
      have : (atcmdDataModeTask now d.rx).1 = d.rx := by simp [atcmdDataModeTask, hoff']
      show (atcmdDataModeTask now d.rx).1.mode.idle = false
      rw [this]
      exact h.idle hoff'

theorem Device.Inv.run {S : Sink ε} {groups : List (AtcmdGroup ε)} {d d' : Device ε}
    {is : List Input} (h : d.Inv) (hr : run (deviceStep S groups) d is = some d') : d'.Inv :=
  run_inv (fun _ _ _ hp hs => hp.step hs) h hr

/-- While no session is idle, a turn reads the bytes it takes. -/
theorem reading_turn {S : Sink ε} {groups : List (AtcmdGroup ε)} {d d' : Device ε} {now : UInt32}
    (h : d.Inv) (hidle : d.rx.mode.idle = false)
    (hs : deviceStep S groups d (.turn now) = some d') :
    d'.rx.mode.idle = false ∧ ∃ n, d'.rest = d.rest.drop n
      ∧ d'.reading = (d.rest.take n).foldl (Reading.step S groups) d.reading := by
  simp only [deviceStep] at hs
  split_ifs at hs with hgo hen <;> simp only [Option.some.injEq] at hs <;> subst hs <;>
    rw [not_or] at hgo <;> have hh : d.halted = false := by simpa using hgo.1
  · obtain ⟨p, taken, n, hl⟩ := h.live hen
    obtain rfl := hl.params
    rcases hl.data_cases S now hgo.2 with ⟨hd, -⟩ | ⟨hi, -⟩ | ⟨hi, -⟩
    · have h0 : d.rx.cntExitCmd = 0 := by
        by_contra hc
        rw [hl.idle (by omega)] at hidle
        exact absurd hidle (by decide)
      rw [hd, ← h0]
      obtain ⟨hread, hoff⟩ := hl.body_reading hh S groups now hgo.2
      refine ⟨by rw [ended_mode]; exact hoff, _, ?_, hread⟩
      unfold Device.ended Device.record
      split_ifs <;> rfl
    · exact absurd hi (by simp [hidle])
    · exact absurd hi (by simp [hidle])
  · obtain ⟨-, hoff, hread⟩ :=
      atcmdReceiveCommand_spec S groups now d.rest (h.rest []) (by simpa using hen) hh
    exact ⟨hoff, _, rfl, hread⟩

/-- While no session becomes idle, the bytes a run brings are read one after the other. -/
theorem reading_run {S : Sink ε} {groups : List (AtcmdGroup ε)} :
    ∀ (is : List Input) {d d' : Device ε}, d.Inv → d.rx.mode.idle = false →
      Along (deviceStep S groups) (fun d i => ¬ Fires d i) d is →
      run (deviceStep S groups) d is = some d' →
      (d.rest ++ received is).foldl (Reading.step S groups) d.reading
        = d'.rest.foldl (Reading.step S groups) d'.reading
  | [], d, d', _, _, _, hr => by
    simp only [run_nil, Option.some.injEq] at hr
    subst hr
    simp [received]
  | i :: is, d, d', hd, hidle, hf, hr => by
    obtain ⟨m, hm, hr⟩ := run_cons_eq_some.1 hr
    have hcons : received (i :: is) = i.received ++ received is := rfl
    have hgo : m.rx.mode.idle = false → _ := fun hoff =>
      reading_run is (hd.step hm) hoff (hf.2 m hm) hr
    rw [hcons]
    cases i with
    | receive buf =>
      simp only [deviceStep] at hm
      split_ifs at hm with hh hrest <;> simp only [Option.some.injEq] at hm <;> subst hm
      · rw [← hgo hidle, Reading.foldl_halted (by exact hh), Reading.foldl_halted (by exact hh)]
      · rw [← hgo hidle, hrest]
        rfl
    | turn now =>
      obtain ⟨hoff, n, hrest, hread⟩ := reading_turn hd hidle hm
      rw [← hgo hoff, hread, hrest, ← List.foldl_append, ← List.append_assoc (d.rest.take n),
        List.take_append_drop]
      rfl
    | tick now =>
      have hfire := hf.1
      simp only [deviceStep] at hm
      split_ifs at hm
      simp only [Option.some.injEq] at hm
      subst hm
      rw [← hgo (by simpa [Fires, hidle] using hfire), reading_tick]
      rfl

theorem Device.Done.foldl {S : Sink ε} {groups : List (AtcmdGroup ε)} {d : Device ε} (h : d.Done) :
    d.rest.foldl (Reading.step S groups) d.reading = d.reading := by
  rcases h with h | h
  · exact Reading.foldl_halted h d.rest
  · rw [h]
    rfl

theorem Device.handed_eq (d : Device ε) : d.handed = d.reading.allHanded := by
  unfold Device.handed Reading.allHanded Device.reading Receiver.reading
  dsimp only
  split_ifs <;> rfl

/-! ## The buffer -/

theorem buf_transmitReturn (now : UInt32) (cmd : Option Bytes) (ret : AtcmdError) (d : Device ε) :
    (d.transmitReturn now cmd ret).rx.buf = d.rx.buf := by
  unfold Device.transmitReturn
  dsimp only
  split_ifs <;> rfl

theorem buf_perform (now : UInt32) (d : Device ε) (e : Effect ε) :
    (d.perform now e).rx.buf = d.rx.buf := by
  cases e with
  | nothing => rfl
  | reset => rfl
  | reply ret => exact buf_transmitReturn now none ret d
  | call handler name type argv =>
    have hcall : (d.call handler name type argv).rx.buf = d.rx.buf := by
      unfold Device.call
      rcases hm : (handler argv d.rx.env).dataMode with _ | p
      · simp only [hm, Device.record]
      · simp only [hm]
        exact rfl
    simp only [Device.perform]
    unfold Device.handlerReturn
    split
    · exact hcall
    · exact (buf_transmitReturn ..).trans hcall
    · exact (buf_transmitReturn ..).trans hcall

theorem buf_receiveCommand (groups : List (AtcmdGroup ε)) (now : UInt32) :
    ∀ (cs : Bytes) (d : Device ε), (atcmdReceiveCommand groups now cs d).1.rx.buf = d.rx.buf
  | [], d => rfl
  | c :: cs, d => by
    rcases hc : atcmdReceiveChar groups d.line c with ⟨line, _ | _ | e⟩ <;>
      simp only [atcmdReceiveCommand, hc]
    · exact buf_receiveCommand groups now cs _
    · exact buf_receiveCommand groups now cs _
    · exact buf_perform now _ e

/-- No step makes the buffer shorter, and it keeps its length in one that does not overrun it. -/
theorem Device.Inv.size_step {S : Sink ε} {groups : List (AtcmdGroup ε)} {d d' : Device ε}
    {i : Input} (h : d.Inv) (hs : deviceStep S groups d i = some d') :
    d.rx.buf.length ≤ d'.rx.buf.length
      ∧ (d.rx.buf.length = atcmdDataLenMax →
        (d'.rx.buf.length = atcmdDataLenMax ↔ ¬ d.Overruns i)) := by
  have hsame : d'.rx.buf = d.rx.buf → ¬ d.Overruns i → d.rx.buf.length ≤ d'.rx.buf.length
      ∧ (d.rx.buf.length = atcmdDataLenMax →
        (d'.rx.buf.length = atcmdDataLenMax ↔ ¬ d.Overruns i)) := by
    intro hbuf ho
    rw [hbuf]
    exact ⟨le_rfl, fun hsize => iff_of_true hsize ho⟩
  cases i with
  | receive buf =>
    simp only [deviceStep] at hs
    split_ifs at hs <;> simp only [Option.some.injEq] at hs <;> exact hsame (hs ▸ rfl) id
  | tick now =>
    simp only [deviceStep] at hs
    split_ifs at hs
    simp only [Option.some.injEq] at hs
    refine hsame ?_ id
    rw [← hs]
    unfold atcmdDataModeTask
    dsimp only
    split_ifs <;> rfl
  | turn now =>
    simp only [deviceStep] at hs
    split_ifs at hs with hgo hen <;> simp only [Option.some.injEq] at hs <;> subst hs <;>
      rw [not_or] at hgo
    · obtain ⟨p, taken, n, hl⟩ := h.live hen
      have hbuf : ∀ (d : Device ε) (p : DataModeParams), (d.ended p).rx.buf = d.rx.buf := by
        intro d p
        unfold Device.ended Device.record
        split_ifs <;> rfl
      rw [hbuf]
      exact hl.size_turn S now hgo.2
    · exact hsame (buf_receiveCommand groups now d.rest _) fun ho => hen ho.1

/-- The buffer has its length after a run exactly when no turn copied over its end. -/
theorem Device.size_run {S : Sink ε} {groups : List (AtcmdGroup ε)} {e : ε} {is : List Input}
    {d : Device ε} (hr : Machine.run (deviceStep S groups) (.boot e) is = some d) :
    d.rx.buf.length = atcmdDataLenMax
      ↔ Along (deviceStep S groups) (fun d i => ¬ d.Overruns i) (.boot e) is := by
  rcases run_good_or_bad (G := fun d => d.Inv ∧ d.rx.buf.length = atcmdDataLenMax)
    (B := fun d => d.Inv ∧ atcmdDataLenMax < d.rx.buf.length)
    (fun d i d' ⟨hi, hl⟩ ho hs => ⟨hi.step hs, ((hi.size_step hs).2 hl).2 ho⟩)
    (fun d i d' ⟨hi, hl⟩ ho hs => ⟨hi.step hs,
      lt_of_le_of_ne (hl ▸ (hi.size_step hs).1) fun he => ho (((hi.size_step hs).2 hl).1 he.symm)⟩)
    (fun d i d' ⟨hi, hl⟩ hs => ⟨hi.step hs, hl.trans_le (hi.size_step hs).1⟩)
    ⟨.boot e, List.length_replicate⟩ hr with ⟨ha, -, hl⟩ | ⟨ha, -, hl⟩
  · exact iff_of_true hl ha
  · exact iff_of_false (Nat.ne_of_gt hl) ha

/-- From any state a device can be in, if no session is idle there and none becomes idle, two runs
that bring the same bytes call the same handlers with the same arguments, and each of their sessions
hands on the same. -/
theorem same_of_received {S : Sink ε} {groups : List (AtcmdGroup ε)} {e : ε}
    {is is₁ is₂ : List Input} {d d₁ d₂ : Device ε}
    (hd : run (deviceStep S groups) (.boot e) is = some d) (hidle : d.rx.mode.idle = false)
    (h₁ : run (deviceStep S groups) d is₁ = some d₁) (h₂ : run (deviceStep S groups) d is₂ = some d₂)
    (hq₁ : Along (deviceStep S groups) (fun d i => ¬ Fires d i) d is₁)
    (hq₂ : Along (deviceStep S groups) (fun d i => ¬ Fires d i) d is₂)
    (hend₁ : d₁.Done) (hend₂ : d₂.Done) (heq : received is₁ = received is₂) :
    d₁.calls = d₂.calls ∧ d₁.handed = d₂.handed := by
  have hinv := (Device.Inv.boot e).run hd
  have hread : d₁.reading = d₂.reading := by
    rw [← hend₁.foldl (S := S), ← reading_run is₁ hinv hidle hq₁ h₁, heq,
      reading_run is₂ hinv hidle hq₂ h₂, hend₂.foldl]
  exact ⟨congrArg Reading.calls hread, by rw [Device.handed_eq, hread, Device.handed_eq]⟩

/-- How a stream is cut into calls of `atcmd_receive` makes no difference, from any state a device can
be in where no session is idle and if none becomes idle: no copy leaves the buffer, and two runs that
bring the same bytes call the same handlers with the same arguments, and each of their sessions hands
on the same. This is so exactly when no turn copies over the end of the buffer. -/
theorem receive_split_iff {S : Sink ε} {groups : List (AtcmdGroup ε)} {e : ε}
    {is is₁ is₂ : List Input} {d d₁ d₂ : Device ε}
    (hd : run (deviceStep S groups) (.boot e) is = some d) (hidle : d.rx.mode.idle = false)
    (h₁ : run (deviceStep S groups) d is₁ = some d₁) (h₂ : run (deviceStep S groups) d is₂ = some d₂)
    (hq₁ : Along (deviceStep S groups) (fun d i => ¬ Fires d i) d is₁)
    (hq₂ : Along (deviceStep S groups) (fun d i => ¬ Fires d i) d is₂)
    (hend₁ : d₁.Done) (hend₂ : d₂.Done) (heq : received is₁ = received is₂) :
    ((d₁.rx.buf.length = atcmdDataLenMax ∧ d₂.rx.buf.length = atcmdDataLenMax)
        ∧ d₁.calls = d₂.calls ∧ d₁.handed = d₂.handed)
      ↔ Along (deviceStep S groups) (fun d i => ¬ d.Overruns i) (.boot e) (is ++ is₁)
        ∧ Along (deviceStep S groups) (fun d i => ¬ d.Overruns i) (.boot e) (is ++ is₂) := by
  rw [← Device.size_run (run_append.2 ⟨d, hd, h₁⟩), ← Device.size_run (run_append.2 ⟨d, hd, h₂⟩)]
  exact and_iff_left (same_of_received hd hidle h₁ h₂ hq₁ hq₂ hend₁ hend₂ heq)

/-- The group of the socket commands, with a command that sends three bytes. -/
def sendGroup : AtcmdGroup Unit where
  cmdPrefix := bytes "S"
  cmdList := [
    { cmd := bytes "SEND"
      handler := fun
        | .set => some fun _ _ =>
          { ret := .success, dataMode := some ⟨ssendParams false 3, fun _ => by decide⟩
            env := () }
        | _ => none }]

/-- A command, its data and another command, in one call and in four. -/
theorem receive_split_iff_four : ∃ d₁ d₂ : Device Unit,
    run (deviceStep takeAll [sendGroup]) (.boot ())
        [.receive (bytes "AT+SSEND=0,3\nABCAT\n"), .turn 1, .turn 2, .turn 3] = some d₁
      ∧ run (deviceStep takeAll [sendGroup]) (.boot ())
        [.receive (bytes "AT+SS"), .turn 1, .receive (bytes "END=0,3\nA"), .turn 2, .turn 3, .tick 9,
          .receive (bytes "BCA"), .turn 10, .turn 11, .receive (bytes "T\n"), .turn 12] = some d₂
      ∧ (d₁.rx.buf.length = atcmdDataLenMax ∧ d₂.rx.buf.length = atcmdDataLenMax)
      ∧ d₁.calls = d₂.calls ∧ d₁.handed = d₂.handed := by
  obtain ⟨d₁, h₁, he₁⟩ := Option.map_eq_some_iff.1 (show
    (run (deviceStep takeAll [sendGroup]) (.boot ())
      [.receive (bytes "AT+SSEND=0,3\nABCAT\n"), .turn 1, .turn 2, .turn 3]).map (·.rest)
      = some [] by decide +kernel)
  obtain ⟨d₂, h₂, he₂⟩ := Option.map_eq_some_iff.1 (show
    (run (deviceStep takeAll [sendGroup]) (.boot ())
      [.receive (bytes "AT+SS"), .turn 1, .receive (bytes "END=0,3\nA"), .turn 2, .turn 3, .tick 9,
        .receive (bytes "BCA"), .turn 10, .turn 11, .receive (bytes "T\n"), .turn 12]).map (·.rest)
      = some [] by decide +kernel)
  exact ⟨d₁, d₂, h₁, h₂, (receive_split_iff (run_nil _) rfl h₁ h₂ (by decide +kernel)
    (by decide +kernel) (Or.inr he₁) (Or.inr he₂) (by decide +kernel)).2
    ⟨by decide +kernel, by decide +kernel⟩⟩

/-- The group of the socket commands, with what `AT+SSEND` does for the least `int`. -/
def leastGroup : AtcmdGroup Unit where
  cmdPrefix := bytes "S"
  cmdList := [
    { cmd := bytes "SEND"
      handler := fun
        | .set => some fun _ _ =>
          { ret := .success, dataMode := some ⟨ssendParams true (2 ^ 31), nofun⟩, env := () }
        | _ => none }]

/-- The session waits for `2 ^ 31` bytes, and the byte after the first 4096 is copied behind the
buffer, in one call and in two. -/
theorem receive_split_overruns : ∃ d₁ d₂ : Device Unit,
    run (deviceStep takeAll [leastGroup]) (.boot ())
        [.receive (bytes "AT+SSEND=0,-2147483648\n"), .turn 1,
          .receive (List.replicate 4097 0), .turn 2] = some d₁
      ∧ run (deviceStep takeAll [leastGroup]) (.boot ())
        [.receive (bytes "AT+SSEND=0,-2147483648\n"), .turn 1,
          .receive (List.replicate 4096 0), .turn 2, .receive [0], .turn 3] = some d₂
      ∧ (d₁.Done ∧ d₁.rx.buf.length = 4097) ∧ (d₂.Done ∧ d₂.rx.buf.length = 4097) := by
  obtain ⟨d₁, h₁, hf₁⟩ := Option.map_eq_some_iff.1 (show
    (run (deviceStep takeAll [leastGroup]) (.boot ())
      [.receive (bytes "AT+SSEND=0,-2147483648\n"), .turn 1,
        .receive (List.replicate 4097 0), .turn 2]).map (fun d => (d.rest, d.rx.buf.length))
      = some ([], 4097) by decide +kernel)
  obtain ⟨d₂, h₂, hf₂⟩ := Option.map_eq_some_iff.1 (show
    (run (deviceStep takeAll [leastGroup]) (.boot ())
      [.receive (bytes "AT+SSEND=0,-2147483648\n"), .turn 1,
        .receive (List.replicate 4096 0), .turn 2, .receive [0], .turn 3]).map
          (fun d => (d.rest, d.rx.buf.length)) = some ([], 4097) by decide +kernel)
  simp only [Prod.mk.injEq] at hf₁ hf₂
  exact ⟨d₁, d₂, h₁, h₂, ⟨.inr hf₁.1, hf₁.2⟩, ⟨.inr hf₂.1, hf₂.2⟩⟩

end NrcAtcmd
