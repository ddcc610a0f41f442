import NrcAtcmd.SoftAp

/-!
# Commands that leave no trace

What the events make of the settings does not depend on the flags (`settings_hear`), and what they
make of the flags depends on the last one (`At.hear`, `Linked.hear`, `Trying.hear`). Each function a
command calls has one lemma with all it can do.
-/

namespace NrcAtcmd

namespace Wifi

variable {s s' : Wifi} {b : Bool} {e : ConnectionEvent} {es es' : List ConnectionEvent}

@[simp] theorem hear_nil : s.hear [] = s := rfl

theorem hear_cons : s.hear (e :: es) = (s.hear [e]).hear es := rfl

theorem hear_append : s.hear (es ++ es') = (s.hear es).hear es' := List.foldl_append

theorem settings_hear_one : (s.hear [e]).settings = e.settings s.settings := by
  cases e with
  | connectSuccess info =>
    simp only [hear, List.foldl_cons, List.foldl_nil, atcmdWifiEventConnectSuccess_]
    split_ifs <;> rfl
  | disconnect =>
    obtain ⟨_ | _, _ | _, _ | _, _ | _, ap, pw, _ | _, _ | _, _, _, _, _, _⟩ := s <;> rfl

theorem settings_hear (s : Wifi) (es : List ConnectionEvent) :
    (s.hear es).settings = settingsAfter s.settings es := by
  induction es generalizing s with
  | nil => rfl
  | cons e es ih =>
    rw [hear_cons, ih, settings_hear_one]
    rfl

/-- A disconnect clears the flags of what is up or goes off. -/
theorem disconnect_flags (s : Wifi) :
    (s.hear [.disconnect]).connected = (s.connected && !(s.connected || s.disconnecting)) ∧
      (s.hear [.disconnect]).connecting = (s.connecting && !(s.connected || s.disconnecting)) ∧
      (s.hear [.disconnect]).disconnecting =
        (s.disconnecting && !(s.connected || s.disconnecting)) := by
  obtain ⟨_ | _, _ | _, _ | _, _ | _, ap, pw, _, _ | _, _, _, _, _, _⟩ := s <;>
    exact ⟨rfl, rfl, rfl⟩

/-- No attempt and no disconnect is under way. -/
structure At (b : Bool) (s : Wifi) : Prop where
  connecting : s.connecting = false
  connected : s.connected = b
  disconnecting : s.disconnecting = false

/-- No attempt is under way, and a disconnect only of a connection. -/
structure Linked (b : Bool) (s : Wifi) : Prop where
  connecting : s.connecting = false
  connected : s.connected = b
  disconnecting : s.disconnecting = true → b = true

/-- An attempt is under way. -/
structure Trying (s : Wifi) : Prop where
  connecting : s.connecting = true
  connected : s.connected = false
  disconnecting : s.disconnecting = false

theorem At.linked (h : s.At b) : s.Linked b :=
  ⟨h.connecting, h.connected, by simp [h.disconnecting]⟩

theorem connectSuccess_at (s : Wifi) (info : Option WifiAp) :
    (s.hear [.connectSuccess info]).At true := by
  simp only [hear, List.foldl_cons, List.foldl_nil, atcmdWifiEventConnectSuccess_]
  split_ifs <;> exact ⟨rfl, rfl, rfl⟩

/-- After an event a connection is up or off, and nothing is under way. -/
theorem Linked.hear_one (h : s.Linked b) : (s.hear [e]).At e.up := by
  obtain ⟨h₁, h₂, h₃⟩ := h
  cases e with
  | connectSuccess info => exact s.connectSuccess_at info
  | disconnect =>
    obtain ⟨hc, hg, hd⟩ := s.disconnect_flags
    rw [h₂] at hc
    refine ⟨?_, ?_, ?_⟩
    · rw [hg, h₁, Bool.false_and]
    · rw [hc]
      cases b <;> rfl
    · rw [hd]
      cases hs : s.disconnecting
      · rfl
      · rw [h₂, h₃ hs]
        rfl

theorem At.hear (h : s.At b) : ∀ es, (s.hear es).At (linkAfter b es) := by
  intro es
  induction es generalizing s b with
  | nil => exact h
  | cons e es ih => exact ih h.linked.hear_one

theorem Linked.hear (h : s.Linked b) : ∀ es, (s.hear es).Linked (linkAfter b es) := by
  intro es
  cases es with
  | nil => exact h
  | cons e es => exact (h.hear_one.hear es).linked

/-- An attempt goes on until the connection is up. -/
theorem Trying.hear (h : s.Trying) (es : List ConnectionEvent) :
    (s.hear es).Trying ∧ linkAfter false es = false ∨ (s.hear es).At (linkAfter false es) := by
  induction es generalizing s with
  | nil => exact .inl ⟨h, rfl⟩
  | cons e es ih =>
    obtain ⟨h₁, h₂, h₃⟩ := h
    cases e with
    | connectSuccess info =>
      refine .inr (At.hear (s.connectSuccess_at info) es)
    | disconnect =>
      obtain ⟨hc, hg, hd⟩ := s.disconnect_flags
      simp only [h₁, h₂, h₃, Bool.or_self, Bool.not_false, Bool.and_true] at hc hg hd
      exact ih ⟨hg, hc, hd⟩

theorem connection_eq_iff : s'.connection = s.connection ↔
    s'.connected = s.connected ∧ s'.connecting = s.connecting ∧
      s'.disconnecting = s.disconnecting ∧ s'.settings = s.settings := by
  simp only [connection, settings, WifiConnection.mk.injEq, Prod.mk.injEq]
  tauto

end Wifi

section Wait

variable {flag : Wifi → Bool} {timeoutMsec time : UInt32} {waits : List (List ConnectionEvent)}
  {s s' : Wifi} {late : Bool}

/-- A wait ends with the flag off, or late with the flag on, and hears everything by then. -/
theorem wifiWait_spec (h : wifiWait flag timeoutMsec waits time s = some (late, s')) :
    s' = s.hear waits.flatten ∧ flag s' = late := by
  induction waits generalizing time s with
  | nil =>
    simp only [wifiWait] at h
    split_ifs at h with hf ht <;> simp only [Option.some.injEq, Prod.mk.injEq] at h <;>
      obtain ⟨rfl, rfl⟩ := h
    · exact ⟨rfl, by simpa using hf⟩
    · exact ⟨rfl, by simpa using hf⟩
  | cons es waits ih =>
    simp only [wifiWait] at h
    split_ifs at h with hf ht
    obtain ⟨rfl, hl⟩ := ih h
    exact ⟨by rw [List.flatten_cons, Wifi.hear_append], hl⟩

end Wait

theorem settingsAfter_append {x : Bool × WifiAp × Bytes} {es es' : List ConnectionEvent} :
    settingsAfter x (es ++ es') = settingsAfter (settingsAfter x es) es' := List.foldl_append

theorem linkAfter_append {b : Bool} {es es' : List ConnectionEvent} :
    linkAfter b (es ++ es') = linkAfter (linkAfter b es) es' := List.foldl_append

section Station

variable {s : Wifi} {b : Bool} {password : Bytes} {res : WifiRun Wifi}

/-- A failed attempt leaves no connection but one that comes up while the network is removed. -/
theorem connectFail_spec (o : ConnectOutcome) (timeout : Bool) (s : Wifi) :
    ∃ ret s', connectFail o timeout s = .returned ret s' ∧ ret ≠ .success ∧
      s'.At (linkAfter false o.remove) ∧ s'.settings = settingsAfter s.settings o.remove := by
  refine ⟨_, _, rfl, by cases timeout <;> decide, ?_, ?_⟩
  · exact Wifi.At.hear (b := false) ⟨rfl, rfl, rfl⟩ _
  · exact Wifi.settings_hear _ _

/-- What a failed attempt leaves, once all that was heard of it is known. -/
theorem connectFail_heard {o : ConnectOutcome} {timeout : Bool} {s t : Wifi}
    (ht : t.settings = settingsAfter s.settings o.heard) (hn : ¬ o.Connects) :
    ∃ ret s', connectFail o timeout t = .returned ret s' ∧ (ret = .success ↔ o.Connects) ∧
      (o.Connects → s'.At true ∧ s'.settings = ((settingsAfter s.settings o.heard).1,
        (settingsAfter s.settings o.heard).2.1, password)) ∧
      (¬ o.Connects → s'.At (linkAfter false o.remove) ∧
        s'.settings = settingsAfter s.settings (o.heard ++ o.remove)) := by
  obtain ⟨ret, s', he, hret, hat, hset⟩ := connectFail_spec o timeout t
  refine ⟨ret, s', he, by simp [hret, hn], fun hc => absurd hc hn, fun _ => ⟨hat, ?_⟩⟩
  rw [hset, ht, settingsAfter_append]

/-- All a connect can do. -/
theorem atcmdWifiConnect_spec {o : ConnectOutcome} (h : atcmdWifiConnect_ password o s = some res) :
    (s.connecting = true ∨ s.connected = true) ∧ res = .returned .busy s ∨
      s.connecting = false ∧ s.connected = false ∧
        (o.lock.ret = false ∧ res = .asserted ∨ o.lock.ret = true ∧ ∃ ret s',
          res = .returned ret s' ∧ (ret = .success ↔ o.Connects) ∧
          (o.Connects → s'.At true ∧ s'.settings = ((settingsAfter s.settings o.heard).1,
            (settingsAfter s.settings o.heard).2.1, password)) ∧
          (¬ o.Connects → s'.At (linkAfter false o.remove) ∧
            s'.settings = settingsAfter s.settings (o.heard ++ o.remove))) := by
  unfold atcmdWifiConnect_ at h
  by_cases hbusy : (s.connecting || s.connected) = true
  · rw [if_pos hbusy] at h
    exact .inl ⟨by simpa using hbusy, (Option.some.inj h).symm⟩
  rw [if_neg hbusy] at h
  simp only [Bool.or_eq_true, not_or, Bool.not_eq_true] at hbusy
  refine .inr ⟨hbusy.1, hbusy.2, ?_⟩
  rcases hlock : o.lock.ret with _ | _ <;> rw [hlock] at h
  · exact .inl ⟨rfl, (Option.some.inj h).symm⟩
  refine .inr ⟨rfl, ?_⟩
  simp only [Bool.not_true, Bool.false_eq_true, if_false] at h
  set s₁ := (s.hear o.lock.events).hear o.setup.events with hs₁
  have hset₁ : s₁.settings = settingsAfter s.settings (o.lock.events ++ o.setup.events) := by
    rw [hs₁, ← Wifi.hear_append, Wifi.settings_hear]
  rcases hsetup : o.setup.ret with _ | _ <;>
    simp only [hsetup, Bool.not_false, Bool.not_true, Bool.false_eq_true, if_true, if_false] at h
  · rw [← Option.some.inj h]
    refine connectFail_heard ?_ fun hc => by simp [ConnectOutcome.Connects, hsetup] at hc
    simp [hset₁, ConnectOutcome.heard, hsetup]
  set s₂ : Wifi := { s₁ with
    connected := false, connecting := true, disconnecting := false, pollConnect := false } with hs₂
  have htry : s₂.Trying := ⟨rfl, rfl, rfl⟩
  have hset₂ : (s₂.hear o.api.events).settings =
      settingsAfter s.settings (o.lock.events ++ (o.setup.events ++ o.api.events)) := by
    have hrec : s₂.settings = s₁.settings := rfl
    rw [Wifi.settings_hear, hrec, hset₁, ← settingsAfter_append, List.append_assoc]
  by_cases hapi : o.api.ret = 0
  swap
  · simp only [ne_eq, hapi, not_false_eq_true, if_true] at h
    rw [← Option.some.inj h]
    refine connectFail_heard ?_ fun hc => hapi hc.2.1
    simp [hset₂, ConnectOutcome.heard, hsetup, hapi]
  simp only [hapi, ne_eq, not_true_eq_false, if_false] at h
  rcases hwait : wifiWait Wifi.connecting o.timeoutMsec o.waits 0 (s₂.hear o.api.events)
    with _ | ⟨late, s₃⟩ <;> rw [hwait] at h
  · cases h
  obtain ⟨hs₃, hflag⟩ := wifiWait_spec hwait
  have hset₃ : s₃.settings = settingsAfter s.settings o.heard := by
    rw [hs₃, Wifi.settings_hear, hset₂, ← settingsAfter_append]
    simp [ConnectOutcome.heard, hsetup, hapi]
  -- the attempt is still under way, or the last event says whether it came up
  have hend : s₃.Trying ∧ ¬ o.Connects ∨ s₃.At (linkAfter false
      (o.api.events ++ o.waits.flatten)) := by
    rw [hs₃, ← Wifi.hear_append]
    refine (htry.hear _).imp_left fun h => ⟨h.1, fun hc => ?_⟩
    rw [hc.2.2] at h
    cases h.2
  cases late with
  | true =>
    rw [← Option.some.inj h]
    rcases hend with ⟨-, hn⟩ | hat
    · exact connectFail_heard hset₃ hn
    · rw [hat.connecting] at hflag
      cases hflag
  | false =>
    rw [← Option.some.inj h]
    rcases hend with ⟨ht, -⟩ | hat
    · rw [ht.connecting] at hflag
      cases hflag
    have hc : o.Connects ↔ s₃.connected = true := by
      simp [ConnectOutcome.Connects, hsetup, hapi, hat.connected]
    rcases hcon : s₃.connected with _ | _
    · exact connectFail_heard hset₃ (by simp [hc, hcon])
    · refine ⟨_, _, rfl, by simp [hc, hcon], fun _ => ⟨⟨hat.connecting, rfl, hat.disconnecting⟩, ?_⟩,
        fun hn => absurd (hc.2 hcon) hn⟩
      rw [← hset₃]
      rfl

/-- However a disconnect ends, the connection is as the last event left it. -/
theorem disconnectEnd_spec {o : DisconnectOutcome} {res : WifiRun Wifi} (hs : s.Linked b)
    (h : disconnectEnd o s = some res) : ∃ ret s', res = .returned ret s' ∧
      s'.Linked (linkAfter b (if o.api.ret = 0 then o.waits.flatten else [])) ∧
        s'.settings =
          settingsAfter s.settings (if o.api.ret = 0 then o.waits.flatten else []) := by
  unfold disconnectEnd at h
  by_cases hapi : o.api.ret = 0
  swap
  · simp only [ne_eq, hapi, not_false_eq_true, if_true] at h
    rw [if_neg hapi]
    exact ⟨_, _, (Option.some.inj h).symm, ⟨hs.connecting, hs.connected, fun hd => by cases hd⟩, rfl⟩
  simp only [hapi, ne_eq, not_true_eq_false, if_false] at h
  have hwait : ∀ {late s₁}, (if s.connecting || s.connected then
      wifiWait Wifi.disconnecting o.timeoutMsec o.waits 0 s
    else if o.waits = [] then some (false, s) else none) = some (late, s₁) →
      s₁ = s.hear o.waits.flatten := by
    intro late s₁ hw
    split_ifs at hw with hup hnone
    · exact (wifiWait_spec hw).1
    · rw [hnone]
      exact (Prod.mk.inj (Option.some.inj hw)).2.symm
  split at h
  · cases h
  all_goals
    rename_i s₁ hw
    rw [if_pos hapi]
    have hlink : s₁.Linked (linkAfter b o.waits.flatten) := hwait hw ▸ hs.hear _
    have hset : s₁.settings = settingsAfter s.settings o.waits.flatten := by
      rw [hwait hw, Wifi.settings_hear]
  · exact ⟨_, _, (Option.some.inj h).symm,
      ⟨hlink.connecting, hlink.connected, hlink.disconnecting⟩, hset⟩
  · refine ⟨_, _, (Option.some.inj h).symm, ?_, ?_⟩ <;> split_ifs
    · exact ⟨hlink.connecting, hlink.connected, fun hd => by cases hd⟩
    · exact hlink
    · exact hset
    · exact hset

/-- All a disconnect can do with a connection that is up or is not. -/
theorem atcmdWifiDisconnectRun_spec {o : DisconnectOutcome} (hs : s.At b)
    (h : atcmdWifiDisconnectRun_ o s = some res) :
    o.lock.ret = false ∧ res = .asserted ∨ o.lock.ret = true ∧ ∃ ret s',
      res = .returned ret s' ∧ s'.Linked (linkAfter b (o.heard b)) ∧
        s'.settings = settingsAfter s.settings (o.heard b) := by
  unfold atcmdWifiDisconnectRun_ at h
  rcases hlock : o.lock.ret with _ | _ <;> rw [hlock] at h
  · exact .inl ⟨rfl, (Option.some.inj h).symm⟩
  refine .inr ⟨rfl, ?_⟩
  have hat := hs.hear o.lock.events
  set s₁ := s.hear o.lock.events with hs₁
  have hset₁ : s₁.settings = settingsAfter s.settings o.lock.events := Wifi.settings_hear _ _
  simp only [Bool.not_true, Bool.false_eq_true, if_false, hat.disconnecting] at h
  rcases hup : linkAfter b o.lock.events with _ | _ <;> rw [hup] at hat
  · rw [if_pos (by simp [hat.connecting, hat.connected])] at h
    refine ⟨_, _, (Option.some.inj h).symm, ?_, ?_⟩ <;>
      simp only [DisconnectOutcome.heard, hup, Bool.false_eq_true, if_false, List.append_nil]
    · exact ⟨rfl, rfl, fun hd => by cases hd⟩
    · exact hset₁
  rw [if_neg (by simp [hat.connected]), if_neg (by simp [hat.connecting])] at h
  have hlink : ({ s₁ with disconnecting := true, pollDisconnect := false } : Wifi).Linked true :=
    ⟨hat.connecting, hat.connected, fun _ => rfl⟩
  obtain ⟨ret, s', hres, hl, hset⟩ := disconnectEnd_spec (hlink.hear o.api.events) h
  refine ⟨ret, s', hres, ?_, ?_⟩
  · simpa [DisconnectOutcome.heard, hup, linkAfter_append] using hl
  · rw [hset, Wifi.settings_hear]
    simp only [DisconnectOutcome.heard, hup, if_true, settingsAfter_append, ← hset₁]
    rfl

end Station

section Softap

variable {c : WifiConfig} {toFreq : Bytes → Option UInt16} {s : AtcmdWifi} {o : SoftapOutcome}

/-- What a start has of the records, when the connection heard `es` and the SoftAP record is `r`. -/
def AtcmdWifi.heard (s : AtcmdWifi) (es : List ConnectionEvent) (r : AtcmdWifiSoftap) : AtcmdWifi :=
  { s with wifi := s.wifi.hear es, softap := r }

theorem softapStart_spec (o : SoftapOutcome) (s : AtcmdWifi) :
    o.start = false ∧ softapStart o s = .returned .fail (s.hear o.after) ∨
      o.start = true ∧ ∃ r, softapStart o s = .returned .success { s.hear o.after with softap := r } := by
  unfold softapStart
  rcases o.start with _ | _
  · exact .inl ⟨rfl, rfl⟩
  · exact .inr ⟨rfl, _, rfl⟩

theorem AtcmdWifi.hear_heard (s : AtcmdWifi) (es es' : List ConnectionEvent)
    (r : AtcmdWifiSoftap) :
    ({ s.hear es with softap := r } : AtcmdWifi).hear es' = s.heard (es ++ es') r := by
  simp only [AtcmdWifi.hear, AtcmdWifi.heard, Wifi.hear_append]

/-- How a start ends that no assertion stops. -/
def SoftapEnds (o : SoftapOutcome) (s : AtcmdWifi) (res : WifiRun AtcmdWifi) : Prop :=
  SoftapRuns o s ∧ (∃ r, res = .returned .success (s.heard (o.before ++ o.after) r)) ∨
    ¬ SoftapRuns o s ∧ res = .returned .fail (s.heard (o.before ++ o.after) (softapLeft o s))

/-- A start that has come to the stack goes as the stack does. -/
theorem softapStart_ends {r : AtcmdWifiSoftap} (hrun : SoftapRuns o s ↔ o.start = true)
    (hleft : softapLeft o s = r) :
    SoftapEnds o s (softapStart o { s.hear o.before with softap := r }) := by
  rcases softapStart_spec o { s.hear o.before with softap := r } with ⟨h, he⟩ | ⟨h, r', he⟩
  · refine .inr ⟨by simp [hrun, h], ?_⟩
    rw [he, hleft, ← AtcmdWifi.hear_heard]
  · refine .inl ⟨hrun.2 h, r', ?_⟩
    rw [he, ← AtcmdWifi.hear_heard]
    rfl

/-- A start that fails before a channel is found leaves the record. -/
theorem softapFail_ends (hscan : ¬ SoftapScans o s) (hrun : ¬ SoftapRuns o s) :
    SoftapEnds o s (.returned .fail ((s.hear o.before).hear o.after)) := by
  refine .inr ⟨hrun, ?_⟩
  rw [softapLeft, if_neg hscan, ← AtcmdWifi.hear_heard]
  rfl

/-- All a start of the SoftAP can do. -/
theorem atcmdWifiSoftapRun_spec {res : WifiRun AtcmdWifi} (h : atcmdWifiSoftapRun_ o s = res) :
    s.softap.active = true ∧ res = .returned .busy s ∨ s.softap.active = false ∧
      (res = .asserted ∧ ¬ (o.lock = true ∧ (SoftapScans o s → s.softap.Scannable)) ∨
        (o.lock = true ∧ (SoftapScans o s → s.softap.Scannable)) ∧ SoftapEnds o s res) := by
  unfold atcmdWifiSoftapRun_ at h
  rcases hact : s.softap.active with _ | _ <;> rw [hact] at h
  swap
  · exact .inl ⟨rfl, h.symm⟩
  refine .inr ⟨rfl, ?_⟩
  rcases hlock : o.lock with _ | _ <;> rw [hlock] at h
  · exact .inl ⟨h.symm, fun hl => by cases hl.1⟩
  simp only [Bool.false_eq_true, if_false, Bool.not_true] at h
  have hw : (s.hear o.before).wifi = s.wifi.hear o.before := rfl
  have hr : (s.hear o.before).relay = s.relay := rfl
  have hs : (s.hear o.before).softap = s.softap := rfl
  rw [hw, hr, hs] at h
  by_cases hscan : SoftapScans o s
  · have hleft := softapLeft.eq_def o s
    rw [if_pos hscan] at hleft
    obtain ⟨-, hadd, hrel, hc, hg, hd, hf⟩ := id hscan
    rw [if_neg (by simp [hadd]), if_neg (by simp [hrel]), if_neg (by simp [hc, hg]),
      if_neg (by simp [hd]), if_pos hf] at h
    split_ifs at h with hbw
    swap
    · exact .inl ⟨h.symm, fun ha => hbw (ha.2 hscan)⟩
    refine .inr ⟨⟨rfl, fun _ => hbw⟩, ?_⟩
    rcases hfreq : o.scan with _ | freq <;> rw [hfreq] at h hleft <;> subst h
    · refine .inr ⟨fun hrun => ?_, ?_⟩
      · simpa [hfreq] using (hrun.2.2.2 hrel).2.2.2 hf
      · rw [hleft, ← AtcmdWifi.hear_heard]
        rfl
    · refine softapStart_ends ⟨fun hrun => hrun.2.2.1, fun hst => ?_⟩ hleft
      exact ⟨hact, hadd, hst, fun _ => ⟨hc, hg, hd, fun _ => by rw [hfreq]; rfl⟩⟩
  refine .inr ⟨⟨rfl, fun ha => absurd ha hscan⟩, ?_⟩
  have hleft : softapLeft o s = s.softap := if_neg hscan
  rcases hadd : o.add with _ | _ <;>
    simp only [hadd, Bool.not_false, Bool.not_true, Bool.false_eq_true, if_false, if_true] at h
  · rw [← h]
    exact softapFail_ends hscan fun hrun => by rw [hrun.2.1] at hadd; cases hadd
  rcases hrel : s.relay with _ | _
  swap
  · rw [if_pos hrel] at h
    rw [← h]
    exact softapStart_ends ⟨fun hrun => hrun.2.2.1,
      fun hst => ⟨hact, hadd, hst, fun hn => by rw [hrel] at hn; cases hn⟩⟩ hleft
  rw [if_neg (by simp [hrel])] at h
  split_ifs at h with hup hdis hf
  · rw [← h]
    refine softapFail_ends hscan fun hrun => ?_
    obtain ⟨hc, hg, -⟩ := hrun.2.2.2 hrel
    simp [hc, hg] at hup
  · rw [← h]
    refine softapFail_ends hscan fun hrun => ?_
    rw [(hrun.2.2.2 hrel).2.2.1] at hdis
    cases hdis
  all_goals
    simp only [Bool.or_eq_true, not_or, Bool.not_eq_true] at hup hdis
  · exact absurd ⟨hact, hadd, hrel, hup.2, hup.1, hdis, hf⟩ hscan
  · exact absurd ⟨hact, hadd, hrel, hup.2, hup.1, hdis, hf⟩ hscan
  · rw [← h]
    exact softapStart_ends ⟨fun hrun => hrun.2.2.1, fun hst => ⟨hact, hadd, hst,
      fun _ => ⟨hup.2, hup.1, hdis, fun hn => absurd hn hf⟩⟩⟩ hleft

theorem records_heard_iff {es : List ConnectionEvent} {r old : AtcmdWifiSoftap} :
    (s.heard es r).records = ({ s with softap := old } : AtcmdWifi).records ↔
      r = old ∧ (s.wifi.hear es).connection = s.wifi.connection := by
  simp only [AtcmdWifi.records, AtcmdWifi.heard, Prod.mk.injEq, and_true]
  exact and_comm

theorem atcmdWifiSoftapRun_atomic_iff (o : SoftapOutcome) (s : AtcmdWifi) (old : AtcmdWifiSoftap) :
    (atcmdWifiSoftapRun_ o s).Atomic { s with softap := old } ↔ SoftapRunAtomic o s old := by
  unfold SoftapRunAtomic
  rcases atcmdWifiSoftapRun_spec (o := o) (s := s) rfl with ⟨hact, he⟩ | ⟨hact, he⟩
  · have hrun : ¬ SoftapRuns o s := fun hr => by rw [hr.1] at hact; cases hact
    have hscan : ¬ SoftapScans o s := fun hs => by rw [hs.1] at hact; cases hact
    have hbusy : s.records = ({ s with softap := old } : AtcmdWifi).records ↔ s.softap = old := by
      simp [AtcmdWifi.records]
    simp [he, WifiRun.Atomic, hbusy, hrun, hscan, hact]
  rcases he with ⟨he, hn⟩ | ⟨⟨hlock, hbw⟩, ⟨hr, r, he⟩ | ⟨hr, he⟩⟩
  · rw [he]
    exact ⟨False.elim, fun h => hn ⟨h.1 hact, h.2.1⟩⟩
  · rw [he]
    exact iff_of_true (fun hret => absurd rfl hret) ⟨fun _ => hlock, hbw, .inl hr⟩
  · rw [he]
    have hfail : AtcmdError.fail ≠ .success := by decide
    refine ⟨fun h => ⟨fun _ => hlock, hbw, .inr (.inr ⟨hact, records_heard_iff.1 (h hfail)⟩)⟩,
      fun h _ => records_heard_iff.2 ?_⟩
    rcases h.2.2 with hrun | ⟨hon, -⟩ | ⟨-, h⟩
    · exact absurd hrun hr
    · rw [hact] at hon
      cases hon
    · exact h

theorem softapParams_active {freq ssid : Bytes} {security password : Option Bytes}
    {r r' : AtcmdWifiSoftap} (h : softapParams c toFreq freq ssid security password r = some r') :
    r'.active = r.active := by
  simp only [softapParams, Option.bind_eq_bind, Option.bind_eq_some_iff, Option.some.injEq] at h
  obtain ⟨_, -, _, -, _, -, _, -, _, -, rfl⟩ := h
  rfl

/-- `AT+WSOFTAP` does all it says or nothing exactly under `SoftapAtomic`. -/
theorem atcmdWifiSoftapSet_atomic_iff (c : WifiConfig) (toFreq : Bytes → Option UInt16)
    (argv : List Bytes) (o : SoftapOutcome) (s : AtcmdWifi) :
    (atcmdWifiSoftapSet_ c toFreq argv o s).Atomic s ↔ SoftapAtomic c toFreq argv o s := by
  rcases argv with _ | ⟨freq, _ | ⟨ssid, ps⟩⟩
  · simp [atcmdWifiSoftapSet_, SoftapAtomic, WifiRun.Atomic]
  · by_cases hfreq : atoi (freq.takeWhile (· ≠ 64)) = 0
    swap
    · simp only [atcmdWifiSoftapSet_, SoftapAtomic, hfreq, ne_eq, not_false_eq_true, if_true,
        WifiRun.Atomic, implies_true, false_imp_iff]
    simp only [atcmdWifiSoftapSet_, SoftapAtomic, hfreq, ne_eq, not_true_eq_false, if_false,
      forall_const]
    rcases hstop : o.stop.ret with _ | _
    · simp [WifiRun.Atomic, AtcmdWifi.records, AtcmdWifi.hear]
    · rcases hmax : o.maxNumSta with _ | n <;>
        simp [atcmdWifiSoftapInitInfo_, WifiRun.Atomic]
  · simp only [atcmdWifiSoftapSet_, SoftapAtomic]
    by_cases hps : ps.length ≤ 2
    swap
    · simp [hps, Nat.lt_of_not_le hps, WifiRun.Atomic]
    rw [if_neg (Nat.not_lt_of_le hps)]
    rcases hr : softapParams c toFreq freq ssid ps[0]? ps[1]? s.softap with _ | r
    · simp [WifiRun.Atomic]
    · simpa [hps] using atcmdWifiSoftapRun_atomic_iff o { s with softap := r } s.softap

end Softap

section Relay

variable {c : WifiConfig} {toFreq : Bytes → Option UInt16} {s : AtcmdWifi} {o : RelayOutcome}
  {res : WifiRun AtcmdWifi}

theorem disconnectEnd_ne_asserted (o : DisconnectOutcome) (s : Wifi) :
    disconnectEnd o s ≠ some .asserted := by
  unfold disconnectEnd
  split_ifs
  · simp
  · dsimp only
    split <;> simp
  · dsimp only
    split <;> simp
  · simp

theorem disconnect_asserted_iff {o : DisconnectOutcome} {s : Wifi} {res : WifiRun Wifi}
    (h : atcmdWifiDisconnectRun_ o s = some res) : res = .asserted ↔ o.lock.ret = false := by
  unfold atcmdWifiDisconnectRun_ at h
  rcases hlock : o.lock.ret with _ | _ <;> rw [hlock] at h
  · exact iff_of_true (Option.some.inj h).symm rfl
  refine iff_of_false ?_ (by decide)
  rintro rfl
  simp only [Bool.not_true, Bool.false_eq_true, if_false] at h
  split_ifs at h
  · simp at h
  · simp at h
  · exact disconnectEnd_ne_asserted _ _ h
  · exact disconnectEnd_ne_asserted _ _ h

/-- The connection is as it was before it came up, once it is disconnected. -/
theorem relayUndone_iff {s w : Wifi} {password : Bytes} {es : List ConnectionEvent}
    {res : WifiRun Wifi} (hg : s.connecting = false) (hc : s.connected = false) (hat : w.At true)
    (hset : w.settings = ((settingsAfter s.settings o.connect.heard).1,
      (settingsAfter s.settings o.connect.heard).2.1, password))
    (h : atcmdWifiDisconnectRun_ o.disconnect (w.hear es) = some res) :
    RelayUndone o s password es ↔
      ∃ ret w', res = .returned ret w' ∧ (w'.hear o.remove).connection = s.connection := by
  unfold RelayUndone
  rcases atcmdWifiDisconnectRun_spec (hat.hear es) h with
    ⟨hlock, rfl⟩ | ⟨hlock, ret, w', rfl, hlink, hset'⟩
  · simp [hlock]
  have hend := hlink.hear o.remove
  have hsets : (w'.hear o.remove).settings = settingsAfter w.settings
      (es ++ (o.disconnect.heard (linkAfter true es) ++ o.remove)) := by
    rw [Wifi.settings_hear, hset', Wifi.settings_hear, settingsAfter_append, settingsAfter_append]
  have hup : linkAfter (linkAfter (linkAfter true es)
      (o.disconnect.heard (linkAfter true es))) o.remove =
        linkAfter true (es ++ (o.disconnect.heard (linkAfter true es) ++ o.remove)) := by
    rw [linkAfter_append, linkAfter_append]
  rw [hup] at hend
  rw [← hset]
  dsimp only
  rw [← hsets]
  constructor
  · rintro ⟨-, hd, hoff, hs⟩
    refine ⟨ret, w', rfl, Wifi.connection_eq_iff.2 ⟨?_, ?_, ?_, hs⟩⟩
    · rw [hend.connected, hoff, hc]
    · rw [hend.connecting, hg]
    · rw [hd]
      refine Bool.eq_false_iff.2 fun hn => ?_
      rw [hend.disconnecting hn] at hoff
      cases hoff
  · rintro ⟨ret', w'', he, hcon⟩
    obtain ⟨rfl, rfl⟩ := WifiRun.returned.inj he
    obtain ⟨h₁, -, h₃, h₄⟩ := Wifi.connection_eq_iff.1 hcon
    have hoff := hend.connected.symm.trans (h₁.trans hc)
    refine ⟨hlock, ?_, hoff, h₄⟩
    rw [← h₃]
    refine Bool.eq_false_iff.2 fun hn => ?_
    rw [hend.disconnecting hn] at hoff
    cases hoff

/-- A SoftAP of a relay looks for no channel. -/
theorem atcmdWifiSoftapSet_relay {o : SoftapOutcome} {freq ssid : Bytes} {ps : List Bytes}
    (hps : ps.length ≤ 2) (hrel : s.relay = true) {res : WifiRun AtcmdWifi}
    (h : atcmdWifiSoftapSet_ c toFreq (freq :: ssid :: ps) o s = res) :
    softapParams c toFreq freq ssid ps[0]? ps[1]? s.softap = none ∧ res = .returned .inval s ∨
      ∃ r, softapParams c toFreq freq ssid ps[0]? ps[1]? s.softap = some r ∧
        (s.softap.active = true ∧ res = .returned .busy { s with softap := r } ∨
          s.softap.active = false ∧ (o.lock = false ∧ res = .asserted ∨ o.lock = true ∧
            (o.add = true ∧ o.start = true ∧ (∃ s', res = .returned .success s') ∨
              ¬ (o.add = true ∧ o.start = true) ∧
                res = .returned .fail (s.heard (o.before ++ o.after) r)))) := by
  simp only [atcmdWifiSoftapSet_] at h
  rw [if_neg (Nat.not_lt_of_le hps)] at h
  rcases hr : softapParams c toFreq freq ssid ps[0]? ps[1]? s.softap with _ | r <;>
    rw [hr] at h
  · exact .inl ⟨rfl, h.symm⟩
  refine .inr ⟨r, rfl, ?_⟩
  have hscan : ¬ SoftapScans o { s with softap := r } := fun hs => by
    rw [show s.relay = false from hs.2.2.1] at hrel
    cases hrel
  have hrun : SoftapRuns o { s with softap := r } ↔
      r.active = false ∧ o.add = true ∧ o.start = true := by
    simp [SoftapRuns, hrel]
  rw [← softapParams_active hr]
  rcases atcmdWifiSoftapRun_spec h with ⟨hact, he⟩ | ⟨hact, ⟨he, hn⟩ | ⟨hl, hend⟩⟩
  · exact .inl ⟨hact, he⟩
  · refine .inr ⟨hact, .inl ⟨?_, he⟩⟩
    exact Bool.eq_false_iff.2 fun hlock => hn ⟨hlock, fun hs => absurd hs hscan⟩
  refine .inr ⟨hact, .inr ⟨hl.1, ?_⟩⟩
  have hleft : softapLeft o { s with softap := r } = r := if_neg hscan
  rcases hend with ⟨hr', r', he⟩ | ⟨hr', he⟩
  · exact .inl ⟨(hrun.1 hr').2.1, (hrun.1 hr').2.2, _, he⟩
  · refine .inr ⟨fun ha => hr' (hrun.2 ⟨hact, ha⟩), ?_⟩
    rw [he, hleft]
    rfl

/-- The SoftAP of a relay has a frequency and an SSID, and the station an SSID. -/
theorem relayParams_shape {ap sta : Bytes} {security password : Option Bytes}
    {x : List Bytes × List Bytes} (h : relayParams c ap sta security password = some x) :
    (∃ freq ssid ps, x.1 = freq :: ssid :: ps ∧ ps.length ≤ 2) ∧ x.2 ≠ [] := by
  unfold relayParams at h
  rcases security with _ | p
  · rw [← Option.some.inj h]
    exact ⟨⟨_, _, _, rfl, by decide⟩, by simp⟩
  simp only [Option.bind_eq_bind, Option.bind_eq_some_iff] at h
  obtain ⟨str, -, h⟩ := h
  split at h
  · rw [← Option.some.inj h]
    exact ⟨⟨_, _, _, rfl, by decide⟩, by simp⟩
  · obtain ⟨q, -, rfl⟩ := Option.map_eq_some_iff.1 h
    exact ⟨⟨_, _, _, rfl, by simp⟩, by simp⟩

theorem relayUndo_atomic_iff {t : AtcmdWifi} {w : Wifi} {password : Bytes}
    {es : List ConnectionEvent} {ret : AtcmdError} (hret : ret ≠ .success)
    (hrel : s.relay = false) (hg : s.wifi.connecting = false) (hc : s.wifi.connected = false)
    (hat : w.At true)
    (hset : w.settings = ((settingsAfter s.wifi.settings o.connect.heard).1,
      (settingsAfter s.wifi.settings o.connect.heard).2.1, password))
    (ht : t.wifi = w.hear es) (h : relayUndo ret o t = some res) :
    res.Atomic s ↔ t.softap = s.softap ∧ RelayUndone o s.wifi password es := by
  unfold relayUndo at h
  obtain ⟨run, hrun, h⟩ := Option.bind_eq_some_iff.1 h
  rw [ht] at hrun
  rw [relayUndone_iff hg hc hat hset hrun]
  rcases run with ⟨ret', w'⟩ | _
  · rw [← Option.some.inj h]
    simp [WifiRun.Atomic, hret, AtcmdWifi.records, AtcmdWifi.hear, hrel, and_comm]
  · rw [← Option.some.inj h]
    simp [WifiRun.Atomic]

theorem relayEnable_atomic_iff {freq ssid : Bytes} {ps sta : List Bytes} (hps : ps.length ≤ 2)
    (hsta : sta ≠ []) (hrel : s.relay = false)
    (h : relayEnable c toFreq (freq :: ssid :: ps) sta o s = some res) :
    res.Atomic s ↔ RelayEnables c toFreq (freq :: ssid :: ps) sta o s := by
  unfold relayEnable at h
  unfold RelayEnables
  rcases hndp : o.ndpPreq with _ | _ <;> simp only [hndp, Bool.not_true, Bool.not_false,
    Bool.false_eq_true, if_true, if_false] at h
  · rw [← Option.some.inj h]
    simp [WifiRun.Atomic, AtcmdWifi.records, hrel]
  obtain ⟨run, hrun, h⟩ := Option.bind_eq_some_iff.1 h
  simp only [atcmdWifiConnectSet_, hsta, if_false] at hrun
  rcases hap : connectAp c sta with _ | ⟨ap, password⟩ <;> rw [hap] at hrun
  · obtain rfl := Option.some.inj hrun
    rw [← Option.some.inj h]
    simp [WifiRun.Atomic, AtcmdWifi.records, hrel]
  rcases atcmdWifiConnect_spec hrun with ⟨hbusy, rfl⟩ | ⟨hg, hc, ⟨hlock, rfl⟩ | ⟨hlock, ret, w, rfl,
    hret, hup, hoff⟩⟩
  · rw [← Option.some.inj h]
    refine iff_of_true (fun _ => ?_) ⟨rfl, fun _ _ => hbusy.imp_right .inl⟩
    simp [AtcmdWifi.records, hrel]
  · rw [← Option.some.inj h]
    simp [WifiRun.Atomic, hg, hc, hlock]
  simp only [Option.mem_def, Option.some.injEq, forall_eq', hg, hc, hlock, Bool.false_eq_true,
    false_or, true_and]
  by_cases hcon : o.connect.Connects
  swap
  · -- the attempt failed: what is left is what was heard of it
    have hne : ret ≠ .success := fun he => hcon (hret.1 he)
    have hres : res = .returned ret { s with wifi := w, relay := false } := by
      cases ret <;> first | exact (Option.some.inj h).symm | exact absurd rfl hne
    obtain ⟨hat, hset⟩ := hoff hcon
    simp only [hres, WifiRun.Atomic, ne_eq, hne, not_false_eq_true, forall_const, hcon,
      false_imp_iff, true_and, AtcmdWifi.records, hrel, Prod.mk.injEq, and_true,
      Wifi.connection_eq_iff, hat.connected, hat.connecting, hat.disconnecting, hset, hc, hg]
    exact ⟨fun h => ⟨h.2.1.symm, h.1, h.2.2⟩, fun h => ⟨h.2.1, h.1.symm, h.2.2⟩⟩
  obtain rfl := hret.2 hcon
  obtain ⟨hat, hset⟩ := hup hcon
  simp only [hcon, forall_const, not_true_eq_false, false_imp_iff, and_true]
  -- the station is up: what undoes a SoftAP that fails
  have hundo : ∀ {ret t es}, ret ≠ .success → t.wifi = w.hear es → relayUndo ret o t = some res →
      (res.Atomic s ↔ t.softap = s.softap ∧ RelayUndone o s.wifi password es) :=
    fun hne ht hu => relayUndo_atomic_iff hne hrel hg hc hat hset ht hu
  unfold RelayStarts
  dsimp only at h ⊢
  generalize hrun : atcmdWifiSoftapSet_ c toFreq (freq :: ssid :: ps) o.softap
    { s with wifi := w, relay := true } = run at h
  rcases atcmdWifiSoftapSet_relay hps rfl hrun with ⟨hp, rfl⟩ |
      ⟨r, hp, ⟨hact, rfl⟩ | ⟨hact, ⟨hl, rfl⟩ | ⟨hl, ⟨hadd, hst, s', rfl⟩ | ⟨hn, rfl⟩⟩⟩⟩ <;> rw [hp]
  · rw [hundo (by decide) Wifi.hear_nil.symm h]
    simp
  · rw [hundo (by decide) Wifi.hear_nil.symm h]
    simp [show s.softap.active = true from hact]
  · rw [← Option.some.inj h]
    simp [WifiRun.Atomic, show s.softap.active = false from hact, hl]
  · rw [← Option.some.inj h]
    simp [WifiRun.Atomic, show s.softap.active = false from hact, hl, hadd, hst]
  · rw [hundo (by decide) rfl h]
    simp [show s.softap.active = false from hact, hl, hn, AtcmdWifi.heard]

theorem softapOff_asserted_iff {o : SoftapOutcome} {freq : Bytes}
    (hfreq : atoi (freq.takeWhile (· ≠ 64)) = 0) :
    atcmdWifiSoftapSet_ c toFreq [freq] o s = .asserted ↔
      o.stop.ret = true ∧ o.maxNumSta = none := by
  simp only [atcmdWifiSoftapSet_, hfreq, ne_eq, not_true_eq_false, if_false]
  rcases o.stop.ret with _ | _
  · simp
  · rcases o.maxNumSta with _ | n <;> simp [atcmdWifiSoftapInitInfo_]

/-- A relay that goes off looks at no return value, so only an assertion stops it. -/
theorem relayDisable_atomic_iff (h : relayDisable c toFreq o s = some res) :
    res.Atomic s ↔ o.disconnect.lock.ret = true ∧
      (o.softap.stop.ret = true → o.softap.maxNumSta.isSome = true) := by
  unfold relayDisable at h
  obtain ⟨run, hrun, h⟩ := Option.bind_eq_some_iff.1 h
  have hass := disconnect_asserted_iff hrun
  rcases run with ⟨ret, w⟩ | _
  swap
  · rw [← Option.some.inj h]
    simp [WifiRun.Atomic, hass.1 rfl]
  have hlock : o.disconnect.lock.ret = true := by simpa using hass
  have hoff : atcmdWifiSoftapSet_ c toFreq [bytes "0"] o.softap { s with wifi := w } = .asserted ↔
      o.softap.stop.ret = true ∧ o.softap.maxNumSta = none := softapOff_asserted_iff (by decide)
  dsimp only at h
  rcases he : atcmdWifiSoftapSet_ c toFreq [bytes "0"] o.softap { s with wifi := w }
    with ⟨ret', s'⟩ | _ <;> rw [he] at h hoff <;> rw [← Option.some.inj h]
  · simpa [WifiRun.Atomic, hlock, Option.isSome_iff_ne_none] using hoff
  · simp [WifiRun.Atomic, hlock, hoff.1 rfl]

/-- `AT+WRELAY` does all it says or nothing exactly under `RelayAtomic`. -/
theorem atcmdWifiRelaySet_atomic_iff {argv : List Bytes}
    (h : atcmdWifiRelaySet_ c toFreq argv o s = some res) :
    res.Atomic s ↔ RelayAtomic c toFreq argv o s := by
  rcases argv with _ | ⟨ap, _ | ⟨sta, ps⟩⟩
  · rw [← Option.some.inj h]
    simp [WifiRun.Atomic, RelayAtomic]
  · simp only [atcmdWifiRelaySet_] at h
    split_ifs at h with hn hrel
    · rw [← Option.some.inj h]
      simp [WifiRun.Atomic, RelayAtomic, hn]
    · rw [← Option.some.inj h]
      simp only [Bool.not_eq_true'] at hrel
      simp [WifiRun.Atomic, RelayAtomic, hrel]
    simp only [ne_eq, not_not, Bool.not_eq_true', Bool.not_eq_false] at hn hrel
    simp only [RelayAtomic, hn, hrel, forall_const]
    exact relayDisable_atomic_iff h
  · simp only [atcmdWifiRelaySet_] at h
    simp only [RelayAtomic]
    split_ifs at h with hps hrel
    · rw [← Option.some.inj h]
      simp [WifiRun.Atomic, Nat.not_le_of_lt hps]
    · rw [← Option.some.inj h]
      simp [WifiRun.Atomic, hrel]
    simp only [Bool.not_eq_true] at hrel
    simp only [Nat.le_of_not_lt hps, hrel, forall_const]
    rcases hx : relayParams c ap sta ps[0]? ps[1]? with _ | x <;> rw [hx] at h
    · rw [← Option.some.inj h]
      simp [WifiRun.Atomic]
    obtain ⟨⟨freq, ssid, qs, hap, hqs⟩, hsta⟩ := relayParams_shape hx
    simp only [hap] at h
    simp only [Option.mem_def, Option.some.injEq, forall_eq', hap]
    exact relayEnable_atomic_iff hqs hsta hrel h

/-- The station connects, the SoftAP is not added, and the station is disconnected again. -/
def softapRefused : RelayOutcome where
  ndpPreq := true
  connect := {
    timeoutMsec := 0, lock := ⟨true, []⟩, setup := ⟨true, []⟩
    api := ⟨0, [.connectSuccess none]⟩, waits := [], remove := [] }
  softap := {
    stop := ⟨true, []⟩, maxNumSta := some 10, lock := true, add := false, scan := none
    start := false, channel := none, before := [], after := [] }
  disconnect := { timeoutMsec := 0, lock := ⟨true, []⟩, api := ⟨0, [.disconnect]⟩, waits := [] }
  remove := []

theorem atcmdWifiRelaySet_atomic_iff_refused : ∃ res,
    atcmdWifiRelaySet_ ⟨false, false⟩ (fun _ => none) [bytes "\"mesh\"", bytes "\"home\""]
        softapRefused (.boot 10) = some res ∧
      (res.Atomic (.boot 10) ↔ RelayAtomic ⟨false, false⟩ (fun _ => none)
        [bytes "\"mesh\"", bytes "\"home\""] softapRefused (.boot 10)) :=
  ⟨_, rfl, atcmdWifiRelaySet_atomic_iff rfl⟩

end Relay

end NrcAtcmd
