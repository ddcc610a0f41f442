import NrcAtcmd.WifiConnect

/-!
# The host knows whether the target is connected

Each statement of a handler has its invariant. Between commands the host was told what the flag
says, and a disconnection the handler gave up waiting for is polled. While a handler runs the two may
differ, as it is the return that tells the host; once the handler has taken its decision the flag
stays what the return will say, unless an event crosses it.
-/

namespace NrcAtcmd

open Machine

theorem toldStatus_append (out : List WifiMsg) (m : WifiMsg) :
    toldStatus (out ++ [m]) = m.status.getD (toldStatus out) := by
  unfold toldStatus
  rw [List.filterMap_append]
  rcases hm : m.status with _ | b <;> simp [hm]

namespace Wifi

variable {s s' : Wifi}

/-- Nothing is under way, or the host will hear of it. -/
def Calm (s : Wifi) : Prop :=
  s.connecting = false ∧ toldStatus s.out = s.connected
    ∧ (s.disconnecting = true → s.connected = true ∧ s.pollDisconnect = true)

/-- No connection is on its way or off. -/
def Settled (s : Wifi) : Prop := s.connecting = false ∧ s.disconnecting = false

/-- A connection is on its way, or was made meanwhile. -/
def Tries (s : Wifi) : Prop := (s.connecting = true → s.connected = false) ∧ s.disconnecting = false

/-- The connection goes off, silently if nobody polls. -/
def Leaves (s : Wifi) : Prop :=
  s.connecting = false ∧ (s.connected = true → toldStatus s.out = true)

/-- A command that polls has its bit set until the event. -/
def Polls (s : Wifi) : Prop :=
  s.eventPoll = true → s.disconnecting = true → s.pollDisconnect = true

/-- What holds before each statement. -/
def Inv (s : Wifi) : Prop :=
  match s.pc with
  | .idle | .connBusy | .disconnBusy => s.Calm
  | .connSetup | .connConnected => s.Calm ∧ s.disconnecting = false
  | .connConnecting => s.connected = false ∧ s.Settled
  | .connDisconnecting | .connPoll | .connApi | .connIf | .connLoop _ | .connTimeout
  | .failConnected _ => s.Tries
  | .connCheck => s.Settled
  | .connDone => s.connected = true ∧ s.Settled
  | .failConnecting _ => s.connected = false ∧ s.disconnecting = false
  | .failDisconnecting _ | .failRemove _ => s.connected = false ∧ s.Settled
  | .disconnIf | .noneConnected | .disconnSet => s.Calm ∧ s.disconnecting = false
  | .noneConnecting | .noneDisconnecting => s.connected = false ∧ s.Settled
  | .disconnAbort | .abortConnecting | .abortPolled | .disconnPoll => s.Leaves
  | .disconnApi | .disconnWait => s.Leaves ∧ s.Polls
  | .disconnLoop _ => s.Leaves ∧ s.Polls ∧ (s.disconnecting = true → s.connected = true)
  | .disconnFail => s.connecting = false ∧ toldStatus s.out = s.connected
  | .disconnTimeout => s.connecting = false ∧ toldStatus s.out = s.connected ∧ s.Polls
      ∧ (s.disconnecting = true → s.connected = true)
  | .disconnEnd | .endDisconnecting => s.connected = false ∧ s.connecting = false
  | .endPolled | .endDhcp => s.connected = false ∧ s.Settled
  | .ret cmd ret => match (WifiMsg.ret cmd ret).status with
    | none => s.Calm
    | some status => s.connected = status ∧ s.Settled

theorem Inv.next (h : s.Inv) (hc : ¬ WifiCrosses s .next) (hs : wifiNext s = some s') :
    s'.Inv := by
  unfold wifiNext at hs
  unfold WifiCrosses at hc
  cases hp : s.pc <;> rw [hp] at hs hc <;>
    simp only [Option.some.injEq, reduceCtorEq] at hs <;> subst hs <;>
    simp only [Inv, hp, WifiPc.inDisconnLoop] at h hc ⊢
  -- a handler begins, and is refused or goes on
  case connBusy | disconnBusy | disconnIf =>
    unfold Calm at h ⊢
    by_cases hg : s.connecting = true <;> by_cases hd : s.connected = true <;>
      by_cases hb : s.disconnecting = true <;> simp_all [WifiMsg.status]
  -- one flag is written
  case connConnected | connConnecting | connDisconnecting | failConnected | failConnecting
      | failDisconnecting | noneConnected | noneConnecting | disconnSet | endDisconnecting =>
    simp only [Calm, Settled, Tries, Leaves] at h ⊢
    grind
  -- one bit of the poll mask is written, or nothing
  case connPoll | connTimeout | abortConnecting | abortPolled | disconnPoll | endPolled =>
    simp only [Tries, Leaves, Polls, Settled] at h ⊢
    grind
  -- the flags decide which way it goes
  case connIf | connLoop | connCheck | disconnAbort | disconnWait | disconnLoop | disconnEnd =>
    simp only [Tries, Leaves, Polls, Settled] at h ⊢
    split_ifs <;> grind
  -- the handler returns
  case connDone | failRemove | noneDisconnecting | disconnFail | disconnTimeout | endDhcp =>
    simp only [Calm, Settled, Polls] at h ⊢
    grind [WifiMsg.status]
  -- the host is told
  case ret cmd ret =>
    simp only [Calm, Settled, toldStatus_append] at h ⊢
    rcases hst : (WifiMsg.ret cmd ret).status with _ | b <;> simp_all

/-- The target comes to be connected. The host hears of it, unless a handler is about to tell it. -/
theorem connectSuccess_spec (s : Wifi) (info : Option WifiAp) :
    ∃ s', atcmdWifiEventConnectSuccess_ info s = s' ∧ s'.pc = s.pc ∧ s'.eventPoll = s.eventPoll
      ∧ s'.connected = true ∧ s'.Settled ∧ s'.pollDisconnect = s.pollDisconnect
      ∧ (s.connecting = false → toldStatus s'.out = true) := by
  refine ⟨_, rfl, ?_⟩
  obtain ⟨_ | _, _ | _, _ | _, _, _, _, _ | _, _, _, _, _, _, _⟩ := s <;>
    simp [atcmdWifiEventConnectSuccess_, atcmdWifiConnecting_, Settled, toldStatus_append,
      WifiMsg.status]

theorem Inv.connectSuccess (h : s.Inv) {info : Option WifiAp}
    (hc : ¬ WifiCrosses s (.eventConnectSuccess info)) :
    (atcmdWifiEventConnectSuccess_ info s).Inv := by
  obtain ⟨s', hs', hp', he', hcon, hset, hpoll, htold⟩ := connectSuccess_spec s info
  rw [hs']
  unfold WifiCrosses at hc
  unfold Inv at h ⊢
  rw [hp']
  cases hp : s.pc <;> rw [hp] at h hc <;>
    simp only [Calm, Settled, Tries, Leaves, Polls, WifiPc.settledOff] at h hc hset ⊢
  case ret cmd ret =>
    cases cmd <;> cases ret <;> simp_all [WifiMsg.status]
  all_goals simp_all

/-- What a disconnection leaves. The host hears of one that puts an end to a connection, unless a
handler is about to tell it. -/
theorem disconnect_spec (s : Wifi) :
    ∃ s', atcmdWifiEventDisconnect_ s = s' ∧ s'.pc = s.pc ∧ s'.eventPoll = s.eventPoll
      ∧ s'.connecting = (s.connecting && !s.connected && !s.disconnecting)
      ∧ s'.connected = false ∧ s'.disconnecting = false
      ∧ (toldStatus s'.out = toldStatus s.out ∨ toldStatus s'.out = false)
      ∧ (s.connecting = false → s.connected = true →
          (s.disconnecting = true → s.pollDisconnect = true) → toldStatus s'.out = false) := by
  refine ⟨_, rfl, ?_⟩
  obtain ⟨_ | _, _ | _, _ | _, _ | _, _, _, _, _ | _, _, _, _, _, _⟩ := s <;>
    simp [atcmdWifiEventDisconnect_, atcmdWifiDisconnected_, atcmdWifiConnecting_,
      atcmdWifiDisconnecting_, toldStatus_append, WifiMsg.status]

theorem Inv.disconnect (h : s.Inv) (hc : ¬ WifiCrosses s .eventDisconnect) :
    (atcmdWifiEventDisconnect_ s).Inv := by
  obtain ⟨s', hs', hp', he', hcing, hcon, hdis, hout, htold⟩ := disconnect_spec s
  rw [hs']
  unfold WifiCrosses atcmdWifiDisconnecting_ at hc
  unfold Inv at h ⊢
  rw [hp']
  cases hp : s.pc <;> rw [hp] at h hc <;>
    simp only [Calm, Settled, Tries, Leaves, Polls, WifiPc.settledOn] at h hc ⊢
  case ret cmd ret =>
    cases cmd <;> cases ret <;> simp only [WifiMsg.status] at h hc ⊢ <;> grind
  all_goals grind

theorem Inv.step {i : WifiInput} (h : s.Inv) (hc : ¬ WifiCrosses s i) (hs : wifiStep s i = some s') :
    s'.Inv := by
  cases i with
  | next => exact h.next hc hs
  | eventConnectSuccess info =>
    simp only [wifiStep, Option.some.injEq] at hs
    exact hs ▸ h.connectSuccess hc
  | eventDisconnect =>
    simp only [wifiStep, Option.some.injEq] at hs
    exact hs ▸ h.disconnect hc
  | conn | disconn =>
    simp only [wifiStep, Option.ite_none_right_eq_some, Option.some.injEq] at hs
    obtain ⟨hp, rfl⟩ := hs
    simpa only [Inv, hp, Calm] using h
  | setup ok =>
    simp only [wifiStep, Option.ite_none_right_eq_some, Option.some.injEq] at hs
    obtain ⟨hp, rfl⟩ := hs
    simp only [Inv, hp, Calm] at h
    cases ok <;> simp_all [Inv, Calm, Tries]
  | api ret =>
    simp only [wifiStep] at hs
    by_cases hp : s.pc = .connApi
    · simp only [hp, ↓reduceIte, Option.some.injEq] at hs
      subst hs
      simp only [Inv, hp] at h
      by_cases hr : ret = 0 <;> simpa only [hr, ↓reduceIte, Inv, Tries] using h
    · rw [if_neg hp] at hs
      simp only [Option.ite_none_right_eq_some, Option.some.injEq] at hs
      obtain ⟨hd, rfl⟩ := hs
      simp only [Inv, hd, Leaves] at h
      simp only [WifiCrosses, hd, true_and] at hc
      by_cases hr : ret = 0 <;> simp only [hr, ne_eq, not_true, not_false_eq_true, ↓reduceIte, Inv]
      · exact h
      · obtain ⟨⟨hg, ht⟩, -⟩ := h
        refine ⟨hg, ?_⟩
        cases hcon : s.connected <;> simp_all

theorem Inv.agrees (h : s.Inv) : s.Agrees where
  legal := by
    rintro ⟨hg, hc⟩
    unfold Inv at h
    cases hp : s.pc <;> rw [hp] at h <;> simp_all [Calm, Settled, Tries, Leaves]
    case ret cmd ret =>
      cases cmd <;> cases ret <;> simp_all [WifiMsg.status]
  told := by
    intro hp
    simp only [Inv, hp] at h
    exact h.2.1

end Wifi

/-- In a run without a crossing the flags are legal, and between two commands the target is
connected exactly when the host was told so. -/
theorem wifi_status_agrees {is : List WifiInput} {s : Wifi} (hr : run wifiStep .boot is = some s)
    (hc : Along wifiStep (fun s i => ¬ WifiCrosses s i) .boot is) : s.Agrees := by
  have hb : Wifi.boot.Inv := ⟨rfl, rfl, by simp [Wifi.boot]⟩
  exact (run_along (fun s i s' h hc hs => Wifi.Inv.step h hc hs) hb hc hr).agrees

/-- The target connects, and the access point disconnects it while it waits for its own
disconnection. -/
def wifiRun : List WifiInput :=
  [.conn [] false 5000, .next, .setup true, .next, .next, .next, .next, .api 0, .next,
    .eventConnectSuccess none, .next, .next, .next, .next,
    .disconn false 5000, .next, .next, .next, .next, .next, .api 0, .next, .eventDisconnect,
    .next, .next, .next, .next]

theorem wifi_status_agrees_wifiRun : ∃ s, run wifiStep .boot wifiRun = some s ∧
    s.out = [.ret .conn .success, .ret .disconn .success] ∧ s.Agrees := by
  obtain ⟨s, hs, h⟩ := Option.map_eq_some_iff.1
    (show (run wifiStep .boot wifiRun).map Wifi.out
      = some [.ret .conn .success, .ret .disconn .success] by decide +kernel)
  exact ⟨s, hs, h, wifi_status_agrees hs (by decide +kernel)⟩

/-- The connection comes after the time for it is over and the flags are cleared. The host is told
first that it is there, then that it failed. -/
theorem wifi_status_fails_late : ∃ is s, run wifiStep .boot is = some s ∧
    s.out = [.connectSuccess wifiInitAp, .ret .conn .timeout] ∧ s.pc = .idle
    ∧ s.connected = true ∧ ¬ s.Agrees := by
  obtain ⟨s, hs, h⟩ := Option.map_eq_some_iff.1
    (show (run wifiStep .boot
        [.conn [] false 100, .next, .setup true, .next, .next, .next, .next, .api 1, .next, .next,
          .next, .next, .eventConnectSuccess none, .next]).map
          (fun s => (s.out, s.pc, s.connected, toldStatus s.out))
      = some ([.connectSuccess wifiInitAp, .ret .conn .timeout], .idle, true, false)
      by decide +kernel)
  simp only [Prod.mk.injEq] at h
  refine ⟨_, s, hs, h.1, h.2.1, h.2.2.1, ?_⟩
  intro ha
  simpa [h.2.2.1, h.2.2.2] using ha.told h.2.1

end NrcAtcmd
