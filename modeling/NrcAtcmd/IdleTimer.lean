import NrcAtcmd.DataMode

/-!
# The idle timer

`atcmd_data_mode_task` against the clock. The priority of the task is above that of the task that
receives, so it runs as soon as its wait is over or `atcmd_data_mode_continue` notifies it; the wait
may also be over before its time. Time goes on without end, and `atcmd_sys_now` is what 32 bits of
it are left with.

A call of `atcmd_receive_data` takes time, most of it in its sink, and the task may run meanwhile.
The call looks at `idle` when it begins, and what else it does it does here when it ends. While it is
in `_atcmd_socket_send_data`, `atcmd_socket_event_send_idle` sends nothing.
-/

set_option linter.style.nameCheck false

namespace NrcAtcmd

open Memory

variable {ε : Type*}

/-- `atcmd_sys_now`, at a time in milliseconds. -/
def atcmdSysNow (time : ℕ) : UInt32 := .ofNat time

/-- What `atcmd_data_mode_timeout` sends. -/
def Out.isIdle : Out → Bool
  | .sevent (.sendIdle ..) | .bevent (.fwbindlIdle ..) | .bevent (.sfuserIdle ..) => true
  | _ => false

/-- A session whose sink is `_atcmd_socket_send_data`. -/
def DataType.isSocket : DataType → Bool
  | .ssend _ => true
  | _ => false

/-- A call of `atcmd_receive_data` under way: one that takes data, or one whose byte at index `i`
completed the exit command. -/
inductive Taking where
  | data (buf : Bytes)
  | exit (i : ℕ) (buf : Bytes)
  deriving DecidableEq

/-- The receiver, the call under way, `g_atcmd_socket_sending`, the time, and when the wait of the
task is over. -/
structure Timed (ε : Type*) where
  rx : Receiver ε
  taking : Option Taking
  sending : Bool
  time : ℕ
  wake : Option ℕ

/-- `atcmd_data_mode_task` from where it wakes to where it suspends itself again. -/
def Timed.taskPass (s : Timed ε) : Timed ε :=
  let (rx, time) := atcmdDataModeTask (atcmdSysNow s.time) s.rx
  { s with
    -- only a session for a socket is ever `sending`
    rx := if s.sending then { rx with out := s.rx.out } else rx
    wake := if time = 0 then none else some (s.time + time.toNat) }

/-- A command enables the data mode and its `OK` is sent. -/
def timedStart (p : DataModeParams) (time : ℕ) (rx : Receiver ε) : Option (Timed ε) :=
  (sessionStart p (atcmdSysNow time) rx).map fun s =>
    Timed.taskPass { rx := s.rx, taking := none, sending := false, time := time, wake := none }

/-- The beginning of `atcmd_receive_data`. -/
def Timed.take (buf : Bytes) (s : Timed ε) : Timed ε :=
  if s.rx.mode.idle then
    match exitScan s.rx.mode.params.exit s.rx.cntExitCmd 0 buf with
    | .mismatch => { s with rx := { s.rx with cntExitCmd := 0 }, taking := some (.data buf) }
    | .matched i => Timed.taskPass
      { s with
        rx := atcmdTransmitOk (atcmdSysNow s.time) { s.rx with cntExitCmd := 0 }
        taking := some (.exit i buf) }
    | .more cnt => { s with rx := { s.rx with cntExitCmd := cnt } }
  else { s with taking := some (.data buf) }

/-- The end of `atcmd_receive_data`, which notifies the task if the session goes on. -/
def Timed.finish (S : Sink ε) (s : Timed ε) : Taking → Timed ε
  | .data buf =>
    let s := { s with
      rx := (atcmdReceiveDataBody S (atcmdSysNow s.time) buf s.rx).1, taking := none }
    if s.rx.mode.enable then s.taskPass else s
  | .exit i buf => { s with rx := atcmdReceiveDataLeave S i buf s.rx, taking := none }

/-- What happens next: time goes on, at most to the end of the wait, the wait is over early, or a
call of `atcmd_receive_data` begins, is in `_atcmd_socket_send_data` or no longer is, or ends. -/
inductive TimedInput where
  | advance (d : ℕ)
  | early
  | take (buf : Bytes)
  | sending (b : Bool)
  | finish

/-- The steps of a session in time. -/
def timedStep (S : Sink ε) (s : Timed ε) : TimedInput → Option (Timed ε)
  | .advance d => if s.rx.mode.enable ∧ s.wake.all (fun w => s.time + d ≤ w) = true then
      let s' := { s with time := s.time + d }
      some (if s.wake = some s'.time then s'.taskPass else s')
    else none
  | .early => if s.rx.mode.enable then some s.taskPass else none
  | .take buf => if s.rx.mode.enable ∧ s.taking = none ∧ buf ≠ [] then some (s.take buf) else none
  | .sending b =>
    if s.taking.isSome ∧ s.rx.mode.params.dataType.isSocket then some { s with sending := b }
    else none
  | .finish => if s.sending then none else s.taking.map (s.finish S)

/-! ## What an observer with a clock sees -/

/-- A session is quiet while no call of `atcmd_receive_data` takes data. -/
def Timed.quiet (s : Timed ε) : Bool := s.rx.mode.enable && s.taking.isNone

/-- A longest stretch of a session in which it is quiet, or not, and when it was told idle. -/
structure Stretch where
  quiet : Bool
  start : ℕ
  stop : ℕ
  events : List ℕ
  deriving DecidableEq

/-- A session in time, the beginning and the idle events of the stretch it is in, and the stretches
before it. -/
structure Observed (ε : Type*) where
  s : Timed ε
  start : ℕ
  events : List ℕ
  past : List Stretch

/-- When the idle events of a step are sent. -/
def idleEvents (s s' : Timed ε) : List ℕ :=
  List.replicate ((s'.rx.out.drop s.rx.out.length).countP Out.isIdle) s'.time

/-- The stretch a session is in, up to now. -/
def Observed.last (w : Observed ε) : Stretch := ⟨w.s.quiet, w.start, w.s.time, w.events⟩

/-- What is observed of a step: a new stretch begins where the session gets quiet, or no longer is. -/
def Observed.next (w : Observed ε) (s' : Timed ε) : Observed ε :=
  if s'.quiet = w.s.quiet then { w with s := s', events := w.events ++ idleEvents w.s s' }
  else { s := s', start := s'.time, events := idleEvents w.s s', past := w.past ++ [w.last] }

/-- The steps of a session that is observed. -/
def observeStep (S : Sink ε) (w : Observed ε) (i : TimedInput) : Option (Observed ε) :=
  (timedStep S w.s i).map w.next

/-- A session that is observed from its start. -/
def observeStart (p : DataModeParams) (time : ℕ) (rx : Receiver ε) : Option (Observed ε) :=
  (timedStart p time rx).map fun s => { s := s, start := time, events := [], past := [] }

/-- A quiet stretch has one idle event if it lasts for the timeout, when it has lasted so long, and
any other stretch has none. -/
def Stretch.Notified (timeout : ℕ) (x : Stretch) : Prop :=
  x.events =
    if x.quiet = true ∧ x.start + timeout ≤ x.stop then [x.start + timeout] else []

/-- Every stretch has the idle events it should, and between two calls the session is idle from the
event of its stretch on. -/
structure Observed.Notified (timeout : ℕ) (w : Observed ε) : Prop where
  stretches : ∀ x ∈ w.past ++ [w.last], x.Notified timeout
  idle : w.s.taking = none →
    (w.s.rx.mode.idle = true ↔ w.s.quiet = true ∧ w.start + timeout ≤ w.s.time)

/-- Time goes on for a session that is not idle until it has been quiet for its timeout, and it was
started or last continued at a clock value of zero; or until the wait of the task is over, while a
call takes data outside of `_atcmd_socket_send_data`. -/
def Mistimes (w : Observed ε) : TimedInput → Prop
  | .advance d => w.s.rx.mode.idle = false ∧
    ((w.s.quiet = true ∧ w.s.rx.mode.lastSendTime = 0
        ∧ w.start + w.s.rx.mode.sendTimeout.toNat ≤ w.s.time + d)
      ∨ (w.s.taking ≠ none ∧ w.s.sending = false ∧ w.s.wake = some (w.s.time + d)))
  | _ => False

instance (w : Observed ε) : DecidablePred (Mistimes w)
  | .advance _ => inferInstanceAs (Decidable (_ ∧ (_ ∨ _)))
  | .early | .take _ | .sending _ | .finish => isFalse id

/-- The timeout of every command that enables the data mode is one of whole seconds. -/
def DataModeParams.WholeSeconds (p : DataModeParams) : Prop :=
  ∃ sec : ℕ, p.timeout = .ofNat (sec * 1000)

end NrcAtcmd
