import NrcAtcmd.Lib.Reaches
import NrcAtcmd.SoftAp

/-!
# A command is a run of its statements

A connect or a disconnect that runs to its end in one step is a run of the statements of its handler,
with the events between them where the handler waits for the stack. So whatever a list of commands
leaves, the statements and events of some run leave.
-/

namespace NrcAtcmd

open Machine

namespace Wifi

variable {s s' : Wifi} {p : WifiPc} {password : Bytes} {poll : Bool} {timeoutMsec : UInt32}

/-- The handler with these arguments is before the statement `p`. -/
def before (s : Wifi) (p : WifiPc) (password : Bytes) (poll : Bool) (timeoutMsec : UInt32) : Wifi :=
  { s with pc := p, newPassword := password, eventPoll := poll, timeoutMsec := timeoutMsec }

theorem connectSuccess_before (info : Option WifiAp) :
    atcmdWifiEventConnectSuccess_ info (s.before p password poll timeoutMsec) =
      (atcmdWifiEventConnectSuccess_ info s).before p password poll timeoutMsec := by
  obtain ⟨_ | _, _ | _, _ | _, _, ap, pw, _ | _, _, _, _, _, _, _⟩ := s <;> rfl

theorem disconnect_before : atcmdWifiEventDisconnect_ (s.before p password poll timeoutMsec) =
    (atcmdWifiEventDisconnect_ s).before p password poll timeoutMsec := by
  obtain ⟨_ | _, _ | _, _ | _, _ | _, ap, pw, _ | _, _ | _, _, _, _, _, _⟩ := s <;> rfl

theorem hear_reaches (es : List ConnectionEvent) :
    Reaches wifiStep (s.before p password poll timeoutMsec)
      ((s.hear es).before p password poll timeoutMsec) := by
  induction es generalizing s with
  | nil => exact .refl _
  | cons e es ih =>
    refine .trans ?_ ih
    cases e with
    | connectSuccess info =>
      exact .single (i := .eventConnectSuccess info) (congrArg some (connectSuccess_before info))
    | disconnect => exact .single (i := .eventDisconnect) (congrArg some disconnect_before)

theorem ret_reaches {t : Wifi} {cmd : WifiCmd} {ret : AtcmdError}
    (h : Reaches wifiStep t (s.before (.ret cmd ret) password poll timeoutMsec)) :
    Reaches wifiStep t
      ((s.tell (.ret cmd ret)).before .idle password poll timeoutMsec) :=
  h.trans (.single (i := .next) rfl)

/-- A wait goes through its loop once for each 100 ms. -/
theorem loop_reaches {flag : Wifi → Bool} {loop : UInt32 → WifiPc} {timeout done : WifiPc}
    (hloop : ∀ (s : Wifi) time, wifiNext (s.before (loop time) password poll timeoutMsec) =
      some (s.before (if !flag s then done
        else if 0 < timeoutMsec ∧ timeoutMsec ≤ time then timeout
        else loop (time + 100)) password poll timeoutMsec))
    {waits : List (List ConnectionEvent)} {time : UInt32} {late : Bool}
    (h : wifiWait flag timeoutMsec waits time s = some (late, s')) :
    Reaches wifiStep (s.before (loop time) password poll timeoutMsec)
      (s'.before (if late then timeout else done) password poll timeoutMsec) := by
  induction waits generalizing s time with
  | nil =>
    have hnext := hloop s time
    simp only [wifiWait] at h
    split_ifs at h with hf ht <;> simp only [Option.some.injEq, Prod.mk.injEq] at h <;>
      obtain ⟨rfl, rfl⟩ := h
    · rw [if_pos hf] at hnext
      exact .single (i := .next) hnext
    · rw [if_neg hf, if_pos ht] at hnext
      exact .single (i := .next) hnext
  | cons es waits ih =>
    have hnext := hloop s time
    simp only [wifiWait] at h
    split_ifs at h with hf ht
    rw [if_neg hf, if_neg ht] at hnext
    exact .head (i := .next) hnext ((hear_reaches es).trans (ih h))

theorem connIf_reaches {waits : List (List ConnectionEvent)} {late : Bool}
    (h : wifiWait Wifi.connecting timeoutMsec waits 0 s = some (late, s')) :
    Reaches wifiStep (s.before .connIf password poll timeoutMsec)
      (s'.before (if late then .connTimeout else .connCheck) password poll timeoutMsec) := by
  have hnext : wifiNext (s.before .connIf password poll timeoutMsec) =
    some (s.before (if s.connecting then .connLoop 0 else .connCheck) password poll timeoutMsec) := rfl
  refine .head (i := .next) hnext ?_
  rcases hc : s.connecting with _ | _
  · cases waits <;> simp only [wifiWait, hc, Bool.not_false, if_true, Option.some.injEq,
      Prod.mk.injEq, reduceCtorEq] at h
    obtain ⟨rfl, rfl⟩ := h
    exact .refl _
  · exact loop_reaches (fun _ _ => rfl) h

theorem disconnWait_reaches {waits : List (List ConnectionEvent)} {late : Bool}
    (h : (if s.connecting || s.connected then wifiWait Wifi.disconnecting timeoutMsec waits 0 s
      else if waits = [] then some (false, s) else none) = some (late, s')) :
    Reaches wifiStep (s.before .disconnWait password poll timeoutMsec)
      (s'.before (if late then .disconnTimeout else .disconnEnd) password poll timeoutMsec) := by
  have hnext : wifiNext (s.before .disconnWait password poll timeoutMsec) = some (s.before
    (if s.connecting || s.connected then .disconnLoop 0 else .disconnEnd)
      password poll timeoutMsec) := rfl
  refine .head (i := .next) hnext ?_
  split_ifs at h with hup hw
  · rw [if_pos hup]
    exact loop_reaches (fun _ _ => rfl) h
  · rw [if_neg hup]
    obtain ⟨rfl, rfl⟩ := Prod.mk.inj (Option.some.inj h)
    exact .refl _

/-- A failed attempt clears the flags before the network is removed. -/
theorem connectFail_reaches {o : ConnectOutcome} {timeout : Bool} {ret : AtcmdError}
    (h : connectFail o timeout s = .returned ret s') :
    Reaches wifiStep (s.before (.failConnected timeout) password poll timeoutMsec)
      ((s'.tell (.ret .conn ret)).before .idle password poll timeoutMsec) := by
  obtain ⟨rfl, rfl⟩ := WifiRun.returned.inj h
  refine .trans (t := ({ s with connected := false, connecting := false, disconnecting := false } :
    Wifi).before (.failRemove timeout) password poll timeoutMsec) ⟨[.next, .next, .next], rfl⟩ ?_
  exact .trans (hear_reaches o.remove) (ret_reaches ⟨[.next], rfl⟩)

theorem connect_reaches {o : ConnectOutcome} {ret : AtcmdError}
    (h : atcmdWifiConnect_ password o s = some (.returned ret s')) :
    Reaches wifiStep (s.before .connBusy password false o.timeoutMsec)
      ((s'.tell (.ret .conn ret)).before .idle password false o.timeoutMsec) := by
  unfold atcmdWifiConnect_ at h
  have hbegin : wifiNext (s.before .connBusy password false o.timeoutMsec) =
    some (s.before (if s.connecting || s.connected then .ret .conn .busy else .connSetup)
      password false o.timeoutMsec) := rfl
  by_cases hbusy : (s.connecting || s.connected) = true
  · rw [if_pos hbusy] at h hbegin
    obtain ⟨rfl, rfl⟩ := WifiRun.returned.inj (Option.some.inj h)
    exact ret_reaches (.single (i := .next) hbegin)
  rw [if_neg hbusy] at h hbegin
  refine .head (i := .next) hbegin ?_
  set s₁ := (s.hear o.lock.events).hear o.setup.events with hs₁
  refine .trans (hear_reaches o.lock.events) (.trans (hear_reaches o.setup.events) ?_)
  rw [← hs₁]
  have hsetup : wifiStep (s₁.before .connSetup password false o.timeoutMsec) (.setup o.setup.ret) =
    some (s₁.before (if o.setup.ret then .connConnected else .failConnected false)
      password false o.timeoutMsec) := rfl
  refine .head hsetup ?_
  split_ifs at h with hlock hset hapi
  · cases Option.some.inj h
  · rw [if_neg (by simpa using hset)]
    exact connectFail_reaches (Option.some.inj h)
  all_goals
    rw [if_pos (by simpa using hset)]
    -- the flags of an attempt, and the stack begins
    set s₂ : Wifi := { s₁ with
      connected := false, connecting := true, disconnecting := false, pollConnect := false }
    refine .trans (t := s₂.before .connApi password false o.timeoutMsec)
      ⟨[.next, .next, .next, .next], rfl⟩ (.trans (hear_reaches o.api.events) ?_)
    have hnext : ∀ s : Wifi, wifiStep (s.before .connApi password false o.timeoutMsec)
      (.api o.api.ret) = some (s.before (if o.api.ret = 0 then .connIf
        else .failConnected (decide (o.api.ret = 1))) password false o.timeoutMsec) := fun s => rfl
    refine .head (hnext _) ?_
  · rw [if_neg hapi]
    exact connectFail_reaches (Option.some.inj h)
  rw [if_pos (not_not.1 hapi)]
  dsimp only at h
  rcases hw : wifiWait Wifi.connecting o.timeoutMsec o.waits 0 (s₂.hear o.api.events)
    with _ | ⟨late, s₃⟩ <;> rw [hw] at h
  · cases h
  refine .trans (connIf_reaches hw) ?_
  cases late with
  | true => exact .head (i := .next) rfl (connectFail_reaches (Option.some.inj h))
  | false =>
    have hcheck : wifiNext (s₃.before .connCheck password false o.timeoutMsec) =
      some (s₃.before (if !s₃.connected then .failConnected false else .connDone)
        password false o.timeoutMsec) := rfl
    refine .head (i := .next) hcheck ?_
    dsimp only at h
    split_ifs at h ⊢ with hc
    · exact connectFail_reaches (Option.some.inj h)
    · obtain ⟨rfl, rfl⟩ := WifiRun.returned.inj (Option.some.inj h)
      exact ret_reaches ⟨[.next], rfl⟩

theorem disconnectEnd_reaches {o : DisconnectOutcome} {ret : AtcmdError}
    (h : disconnectEnd o s = some (.returned ret s')) :
    Reaches wifiStep (s.before .disconnApi password false o.timeoutMsec)
      ((s'.tell (.ret .disconn ret)).before .idle password false o.timeoutMsec) := by
  unfold disconnectEnd at h
  have hnext : wifiStep (s.before .disconnApi password false o.timeoutMsec) (.api o.api.ret) =
    some (s.before (if o.api.ret ≠ 0 then .disconnFail else .disconnWait)
      password false o.timeoutMsec) := rfl
  refine .head hnext ?_
  by_cases hapi : o.api.ret ≠ 0
  · rw [if_pos hapi] at h ⊢
    obtain ⟨rfl, rfl⟩ := WifiRun.returned.inj (Option.some.inj h)
    exact ret_reaches ⟨[.next], rfl⟩
  rw [if_neg hapi] at h ⊢
  dsimp only at h
  rcases hw : (if s.connecting || s.connected then
      wifiWait Wifi.disconnecting o.timeoutMsec o.waits 0 s
    else if o.waits = [] then some (false, s) else none) with _ | ⟨late, s₁⟩ <;> rw [hw] at h
  · cases h
  refine .trans (disconnWait_reaches hw) ?_
  cases late with
  | true =>
    obtain ⟨rfl, rfl⟩ := WifiRun.returned.inj (Option.some.inj h)
    exact ret_reaches ⟨[.next], rfl⟩
  | false =>
    have hend : wifiNext (s₁.before .disconnEnd password false o.timeoutMsec) =
      some (s₁.before (if s₁.disconnecting then .endDisconnecting else .endDhcp)
        password false o.timeoutMsec) := rfl
    refine .head (i := .next) hend ?_
    dsimp only at h
    split_ifs at h ⊢ with hd <;> obtain ⟨rfl, rfl⟩ := WifiRun.returned.inj (Option.some.inj h)
    · exact ret_reaches ⟨[.next, .next, .next], rfl⟩
    · exact ret_reaches ⟨[.next], rfl⟩

theorem disconnect_reaches {o : DisconnectOutcome} {ret : AtcmdError}
    (h : atcmdWifiDisconnectRun_ o s = some (.returned ret s')) :
    Reaches wifiStep (s.before .disconnBusy password false o.timeoutMsec)
      ((s'.tell (.ret .disconn ret)).before .idle password false o.timeoutMsec) := by
  unfold atcmdWifiDisconnectRun_ at h
  refine .trans (hear_reaches o.lock.events) ?_
  set s₁ := s.hear o.lock.events
  have hbegin : wifiNext (s₁.before .disconnBusy password false o.timeoutMsec) =
    some (s₁.before (if s₁.disconnecting then .ret .disconn .busy else .disconnIf)
      password false o.timeoutMsec) := rfl
  have hif : wifiNext (s₁.before .disconnIf password false o.timeoutMsec) =
    some (s₁.before (if !s₁.connecting && !s₁.connected then .noneConnected else .disconnSet)
      password false o.timeoutMsec) := rfl
  refine .head (i := .next) hbegin ?_
  rcases hlock : o.lock.ret with _ | _ <;> rw [hlock] at h
  · cases Option.some.inj h
  rw [if_neg (by decide)] at h
  dsimp only at h
  by_cases hd : s₁.disconnecting = true
  · rw [if_pos hd] at h ⊢
    obtain ⟨rfl, rfl⟩ := WifiRun.returned.inj (Option.some.inj h)
    exact ret_reaches (.refl _)
  rw [if_neg hd] at h ⊢
  refine .head (i := .next) hif ?_
  by_cases hnone : (!s₁.connecting && !s₁.connected) = true
  · rw [if_pos hnone] at h ⊢
    obtain ⟨rfl, rfl⟩ := WifiRun.returned.inj (Option.some.inj h)
    exact ret_reaches ⟨[.next, .next, .next], rfl⟩
  rw [if_neg hnone] at h ⊢
  -- an attempt that is under way is given up
  refine .trans ?_ (.trans (hear_reaches o.api.events) (disconnectEnd_reaches h))
  set s₂ : Wifi := { s₁ with disconnecting := true }
  have habort : wifiNext (s₂.before .disconnAbort password false o.timeoutMsec) =
    some (s₂.before (if s₁.connecting then .abortConnecting else .disconnPoll)
      password false o.timeoutMsec) := rfl
  refine .head (i := .next) (t := s₂.before .disconnAbort password false o.timeoutMsec) rfl
    (.head (i := .next) habort ?_)
  by_cases hc : s₁.connecting = true
  · rw [if_pos hc, if_pos hc]
    exact ⟨[.next, .next, .next], rfl⟩
  · rw [if_neg hc, if_neg hc]
    exact ⟨[.next], rfl⟩

end Wifi

/-- What the coarse state and the fine one have in common between two commands. -/
def WifiAgree (a s : Wifi) : Prop :=
  ∃ password poll timeoutMsec, s = a.before .idle password poll timeoutMsec

theorem wifiCommand_reaches {a a' s : Wifi} {k : WifiCommand} (h : wifiCommand a k = some a')
    (hs : WifiAgree a s) : ∃ s', Reaches wifiStep s s' ∧ WifiAgree a' s' := by
  obtain ⟨password, poll, timeoutMsec, rfl⟩ := hs
  cases k with
  | connect password' o =>
    obtain ⟨res, hres, h⟩ := Option.bind_eq_some_iff.1 h
    rcases res with ⟨ret, s'⟩ | _
    · rw [← Option.some.inj h]
      exact ⟨_, .head (i := .conn password' false o.timeoutMsec)
        (t := a.before .connBusy password' false o.timeoutMsec) rfl (Wifi.connect_reaches hres),
        _, _, _, rfl⟩
    · cases h
  | disconnect o =>
    obtain ⟨res, hres, h⟩ := Option.bind_eq_some_iff.1 h
    rcases res with ⟨ret, s'⟩ | _
    · rw [← Option.some.inj h]
      exact ⟨_, .head (i := .disconn false o.timeoutMsec)
        (t := a.before .disconnBusy password false o.timeoutMsec) rfl (Wifi.disconnect_reaches hres),
        _, _, _, rfl⟩
    · cases h
  | heard e =>
    rw [← Option.some.inj h]
    exact ⟨_, Wifi.hear_reaches [e], _, _, _, rfl⟩

/-- Whatever commands run one after the other, and events between them, leave and tell the host, some
run of the statements of their handlers leaves and tells. -/
theorem wifiCommand_refines {ks : List WifiCommand} {a : Wifi}
    (h : run wifiCommand Wifi.boot ks = some a) :
    ∃ is s, run wifiStep Wifi.boot is = some s ∧ s.pc = .idle ∧ s.out = a.out ∧
      s.connection = a.connection ∧ s.pollConnect = a.pollConnect ∧
      s.pollDisconnect = a.pollDisconnect := by
  obtain ⟨s, ⟨is, hr⟩, password, poll, timeoutMsec, rfl⟩ :=
    run_reaches (R := WifiAgree) (s := Wifi.boot) (fun _ _ _ _ => wifiCommand_reaches) h
      ⟨_, _, _, rfl⟩
  exact ⟨is, _, hr, rfl, rfl, rfl, rfl, rfl⟩

/-- The stack loses the connection, and the host asks to be disconnected. -/
theorem wifiCommand_refines_lost : ∃ a is s,
    run wifiCommand Wifi.boot
      [.connect (bytes "12345678") ⟨0, ⟨true, []⟩, ⟨true, []⟩, ⟨0, []⟩, [[.connectSuccess none]], []⟩,
        .heard .disconnect, .disconnect ⟨0, ⟨true, []⟩, ⟨0, []⟩, []⟩] = some a ∧
    run wifiStep Wifi.boot is = some s ∧ s.pc = .idle ∧ s.out = a.out ∧
      s.connection = a.connection ∧ s.pollConnect = a.pollConnect ∧
      s.pollDisconnect = a.pollDisconnect := by
  have hrun : run wifiCommand Wifi.boot
      [.connect (bytes "12345678") ⟨0, ⟨true, []⟩, ⟨true, []⟩, ⟨0, []⟩, [[.connectSuccess none]], []⟩,
        .heard .disconnect, .disconnect ⟨0, ⟨true, []⟩, ⟨0, []⟩, []⟩] = some _ := rfl
  obtain ⟨is, s, h⟩ := wifiCommand_refines hrun
  exact ⟨_, is, s, hrun, h⟩

end NrcAtcmd
