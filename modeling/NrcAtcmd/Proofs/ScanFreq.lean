import Mathlib.Data.List.Nodup
import Mathlib.Data.List.Perm.Subperm
import Mathlib.Data.Set.Basic
import NrcAtcmd.Lib.Blocks
import NrcAtcmd.Lib.Machine
import NrcAtcmd.ScanFreq

/-!
# The channels to scan are a set

A list of entries names a set of channels, and what a command does to the channels of the next scan
is an operation on sets. The driver has no list for the empty set: without one it scans all.
-/

namespace NrcAtcmd

open Machine

variable {δ : Type*}

/-- What is relied on of the driver: it keeps a list that it took, in some order, and the list it
had where it refused one. -/
structure ScanDriver.Documented (D : ScanDriver δ) : Prop where
  add : ∀ w, D.getScanFreqNons1g (D.addNetwork w).2 = D.getScanFreqNons1g w
  set_none : ∀ w, (D.setScanFreqNons1g none w).1 = true →
    D.getScanFreqNons1g (D.setScanFreqNons1g none w).2 = none
  set_some : ∀ l w, (D.setScanFreqNons1g (some l) w).1 = true →
    ∃ l', D.getScanFreqNons1g (D.setScanFreqNons1g (some l) w).2 = some l' ∧ l'.Perm l
  refused : ∀ l w, (D.setScanFreqNons1g l w).1 = false →
    D.getScanFreqNons1g (D.setScanFreqNons1g l w).2 = D.getScanFreqNons1g w

/-- The supported channels of a country: they have frequencies, and those of the driver differ. -/
structure SupportedChannels (T : List Channel) : Prop where
  ne_nil : T ≠ []
  max : T.length ≤ wifiChannelNumMax
  s1gFreq : ∀ c ∈ T, c.s1gFreq ≠ 0
  nons1gFreq : ∀ c ∈ T, c.nons1gFreq ≠ 0
  nodup : (T.map (·.nons1gFreq)).Nodup

theorem SupportedChannels.inj {T : List Channel} (hT : SupportedChannels T) {c c' : Channel}
    (hc : c ∈ T) (hc' : c' ∈ T) (h : c.nons1gFreq = c'.nons1gFreq) : c = c' :=
  List.inj_on_of_nodup_map hT.nodup hc hc' h

/-! ## The sets -/

/-- The driver, with its list, scans the channel. -/
def scansChannel (freq : Option (List ℕ)) (c : Channel) : Bool :=
  match freq with
  | none => true
  | some l => decide (c.nons1gFreq ∈ l)

/-- The channels of the next scan. -/
def nextScan (D : ScanDriver δ) (T : List Channel) (w : δ) : Set Channel :=
  {c | c ∈ T ∧ scansChannel (D.getScanFreqNons1g w) c = true}

inductive ScanKind where
  | set | add | delete
  deriving DecidableEq, Repr

/-- A command with its entries, each of which denotes a supported channel. -/
structure ScanOp (T : List Channel) where
  kind : ScanKind
  entries : List ScanEntry
  denotes : ∀ e ∈ entries, ∃! c, c ∈ T ∧ e.names c = true

namespace ScanOp

variable {T : List Channel} (op : ScanOp T)

/-- The channels the entries denote. -/
def named : Set Channel := {c | c ∈ T ∧ ∃ e ∈ op.entries, e.names c = true}

/-- What the command makes of a set of channels. -/
def result (old : Set Channel) : Set Channel :=
  match op.kind with
  | .set => op.named
  | .add => old ∪ op.named
  | .delete => old \ op.named

/-- The function of the command. -/
def func (D : ScanDriver δ) : ScanInfo δ → Option (ℤ × ScanInfo δ) :=
  match op.kind with
  | .set => atcmdWifiScanFreqSet_ D op.entries
  | .add => atcmdWifiScanFreqAdd_ D op.entries
  | .delete => atcmdWifiScanFreqDelete_ D op.entries

/-- The texts of the channels it names, in the order of the table. -/
def texts : List Bytes :=
  (T.filter fun c => op.entries.any fun e => e.names c).map fun c => WifiChannel.text ⟨c, false⟩

/-- They have room in the buffer, with a terminator. -/
def Fits : Prop := op.texts.flatten.length < scanBufSize

end ScanOp

/-- A run of commands, and what they made of the channels of the first scan. -/
structure ScanRun (δ : Type*) extends ScanInfo δ where
  want : Set Channel

/-- A command, which counts if it returns a success. -/
def scanStep (D : ScanDriver δ) {T : List Channel} (r : ScanRun δ) (op : ScanOp T) :
    Option (ScanRun δ) :=
  (op.func D r.toScanInfo).map fun (ret, s) =>
    { s with want := if ret = 0 then op.result r.want else r.want }

/-- The driver takes `NULL`. -/
def ScanDriver.Clears (D : ScanDriver δ) (w : δ) : Prop :=
  (D.addNetwork w).1 = true ∧ (D.setScanFreqNons1g none (D.addNetwork w).2).1 = true

/-- The command can read the list, its text has room, and it leaves a channel or nothing at all. -/
def LeavesChannel (D : ScanDriver δ) {T : List Channel} (r : ScanRun δ) (op : ScanOp T) : Prop :=
  (D.addNetwork r.driver).1 = true →
    op.Fits ∧ (op.result (nextScan D T r.driver) = ∅ → ¬ D.Clears (D.addNetwork r.driver).2)

/-! ## The functions -/

/-- The supported channels, each with its mark. -/
def marked (T : List Channel) (f : Channel → Bool) : List WifiChannel := T.map fun c => ⟨c, f c⟩

theorem map_marked (T : List Channel) (f : Channel → Bool) :
    (marked T f).map (·.toChannel) = T := by
  rw [marked, List.map_map]
  exact List.map_id T

/-- Rows are paired with entries as if no entry was used up. -/
theorem pair_marked {ε : Type*} {T : List Channel} (hT : SupportedChannels T)
    {channels : List WifiChannel} (hc : channels.map (·.toChannel) = T) (m : Channel → ε → Bool)
    (kill : ε → ε) (es : List ε) (hkill : ∀ c ∈ T, ∀ e, m c (kill e) = false)
    (hone : ∀ e ∈ es, ∀ c ∈ T, ∀ c' ∈ T, m c e = true → m c' e = true → c = c') :
    Matching.pair (fun c => m c.toChannel) kill channels es
      = channels.map fun c => (c, es.any (m c.toChannel)) := by
  have hmem : ∀ {c}, c ∈ channels → c.toChannel ∈ T := fun h => hc ▸ List.mem_map_of_mem h
  have hnodup : (channels.map fun c => c.toChannel.nons1gFreq).Nodup := by
    have := hT.nodup
    rwa [← hc, List.map_map] at this
  refine Matching.pair_eq (List.Nodup.of_map _ hnodup) (fun c h => hkill _ (hmem h)) ?_
  intro e he c h c' h' hm hm'
  refine List.inj_on_of_nodup_map hnodup h h' ?_
  exact congrArg Channel.nons1gFreq (hone e he _ (hmem h) _ (hmem h') hm hm')

section Functions

variable {D : ScanDriver δ} {T : List Channel}

/-- The list of the driver is one a scan can use. -/
def Listed (T : List Channel) (freq : Option (List ℕ)) : Prop :=
  ∀ l, freq = some l →
    l ≠ [] ∧ l.length ≤ wifiChannelNumMax ∧ ∀ f ∈ l, ∃ c ∈ T, c.nons1gFreq = f

theorem scanFreqGet_spec (hD : D.Documented) (hT : SupportedChannels T) {s : ScanInfo δ}
    (hc : s.channels.map (·.toChannel) = T) (hl : Listed T (D.getScanFreqNons1g s.driver))
    (hok : (D.addNetwork s.driver).1 = true) : ∃ n : ℤ, 0 < n ∧ atcmdWifiScanFreqGet_ D s
      = (n, { s with
          channels := marked T (scansChannel (D.getScanFreqNons1g s.driver))
          driver := (D.addNetwork s.driver).2 }) := by
  have hlen : s.channels.length = T.length := by rw [← hc, List.length_map]
  unfold atcmdWifiScanFreqGet_
  simp only [hok, hD.add, Bool.not_true, Bool.false_eq_true, if_false]
  rcases hget : D.getScanFreqNons1g s.driver with _ | l
  · refine ⟨s.channels.length, ?_, ?_⟩
    · have := List.length_pos_iff.2 hT.ne_nil
      omega
    · simp only [marked, scansChannel, ← hc, List.map_map]
      rfl
  · obtain ⟨hne, hmax, -⟩ := hl l hget
    have hpair := pair_marked hT hc (fun c f => c.nons1gFreq == f) (fun _ => 0) l
      (fun c h _ => by simpa using hT.nons1gFreq c h)
      (fun f _ c h c' h' hm hm' => hT.inj h h' ((beq_iff_eq.1 hm).trans (beq_iff_eq.1 hm').symm))
    refine ⟨l.length, ?_, ?_⟩
    · have := List.length_pos_iff.2 hne
      omega
    · simp only [Nat.not_lt.2 hmax, if_false, hpair, List.map_map, marked, scansChannel, ← hc]
      refine congrArg (fun cs => ((l.length : ℤ), (⟨cs, _, s.handed⟩ : ScanInfo δ))) ?_
      refine List.map_congr_left fun c _ => ?_
      simp only [Function.comp_apply, WifiChannel.mk.injEq, true_and]
      rw [Bool.eq_iff_iff]
      simp

/-- The texts fit exactly if all of them do. -/
theorem foldlM_sprintfScan (texts : List Bytes) (buf : Bytes) (h : buf.length < scanBufSize) :
    texts.foldlM sprintfScan buf
      = if (buf ++ texts.flatten).length < scanBufSize then some (buf ++ texts.flatten)
        else none := by
  induction texts generalizing buf with
  | nil => simp [h]
  | cons t ts ih =>
    rw [List.foldlM_cons, sprintfScan, List.flatten_cons]
    by_cases ht : buf.length + t.length < scanBufSize
    · rw [if_pos ht]
      change (some (buf ++ t)).bind _ = _
      rw [Option.bind_some, ih _ (by rwa [List.length_append]), List.append_assoc]
    · rw [if_neg ht, if_neg (by simp only [List.length_append]; omega)]
      rfl

/-- A list of entries that denote channels, over marks that were read from the driver. -/
theorem scanFreqChange_spec (hD : D.Documented) (hT : SupportedChannels T) {s : ScanInfo δ}
    (hc : s.channels.map (·.toChannel) = T) (hl : Listed T (D.getScanFreqNons1g s.driver))
    (mark : Bool → Bool → Bool) (op : ScanOp T) :
    atcmdWifiScanFreqChange mark D op.entries s =
      if (D.addNetwork s.driver).1 = false then
        some (-1, { s with driver := (D.addNetwork s.driver).2 })
      else if op.texts.flatten.length < scanBufSize then
        some (atcmdWifiScanFreqSet__ D { s with
          channels := marked T fun c => mark (op.entries.any fun e => e.names c)
            (scansChannel (D.getScanFreqNons1g s.driver) c)
          driver := (D.addNetwork s.driver).2 })
      else none := by
  unfold atcmdWifiScanFreqChange
  rcases hok : (D.addNetwork s.driver).1 with _ | _
  · have hget : atcmdWifiScanFreqGet_ D s
        = (-1, { s with driver := (D.addNetwork s.driver).2 }) := by
      unfold atcmdWifiScanFreqGet_
      simp only [hok, Bool.not_false, if_true]
    rw [hget, if_pos rfl]
    rfl
  · obtain ⟨n, hn, hget⟩ := scanFreqGet_spec hD hT hc hl hok
    have hpair := pair_marked hT (map_marked T (scansChannel (D.getScanFreqNons1g s.driver)))
      (fun c e => e.names c) (fun e => { e with s1gFreq := 0 }) op.entries
      (fun c h e => by
        have := hT.s1gFreq c h
        simp only [ScanEntry.names, Bool.and_eq_false_imp, beq_iff_eq]
        exact fun h0 => absurd h0.symm this)
      (fun e he c h c' h' hm hm' => (op.denotes e he).unique ⟨h, hm⟩ ⟨h', hm'⟩)
    have htexts : ((((marked T (scansChannel (D.getScanFreqNons1g s.driver))).map
        fun c => (c, op.entries.any fun e => e.names c.toChannel)).filter (·.2)).map
          (·.1.text)) = op.texts := by
      simp only [marked, ScanOp.texts, List.map_map, List.filter_map]
      rfl
    rw [hget, if_neg (by decide)]
    dsimp only
    rw [if_neg (not_le.2 hn), hpair, htexts, foldlM_sprintfScan _ _ (by decide), List.nil_append]
    split_ifs with hfits
    · rw [Option.map_some]
      simp only [marked, List.map_map]
      rfl
    · rfl

/-- The marked channels are handed over, each once. Without one the driver is told to scan all. -/
theorem scanFreqSet_spec (hD : D.Documented) (hT : SupportedChannels T) {s : ScanInfo δ}
    {f : Channel → Bool} (hs : s.channels = marked T f) : ∃ ret s',
    atcmdWifiScanFreqSet__ D s = (ret, s') ∧ s'.channels = s.channels
      ∧ (∀ l ∈ s'.handed, l ∈ s.handed ∨ l.Nodup)
      ∧ (ret ≠ 0 → D.getScanFreqNons1g s'.driver = D.getScanFreqNons1g s.driver)
      ∧ (ret = 0 → T.filter f ≠ [] → ∃ l, D.getScanFreqNons1g s'.driver = some l
        ∧ l.Perm ((T.filter f).map (·.nons1gFreq)))
      ∧ (T.filter f = [] → (ret = 0 ↔ D.Clears s.driver))
      ∧ (ret = 0 → T.filter f = [] → D.getScanFreqNons1g s'.driver = none) := by
  have hfreq : (s.channels.filter (·.scan)).map (·.nons1gFreq)
      = (T.filter f).map (·.nons1gFreq) := by
    rw [hs, marked, List.filter_map, List.map_map]
    rfl
  have hnodup : ((T.filter f).map (·.nons1gFreq)).Nodup :=
    hT.nodup.sublist (List.filter_sublist.map _)
  have hnil : (T.filter f).map (·.nons1gFreq) = [] ↔ T.filter f = [] := List.map_eq_nil_iff
  unfold atcmdWifiScanFreqSet__
  dsimp only
  rw [hfreq]
  rcases hok : (D.addNetwork s.driver).1 with _ | _
  · refine ⟨-1, _, rfl, rfl, fun l hl => Or.inl hl, fun _ => hD.add _,
      fun h => absurd h (by decide), fun _ => ⟨fun h => absurd h (by decide), fun h => ?_⟩,
      fun h => absurd h (by decide)⟩
    rw [ScanDriver.Clears, hok] at h
    exact absurd h.1 (by decide)
  have hhanded : ∀ l ∈ s.handed ++ [(T.filter f).map (·.nons1gFreq)], l ∈ s.handed ∨ l.Nodup := by
    intro l hl
    rcases List.mem_append.1 hl with hl | hl
    · exact Or.inl hl
    · exact Or.inr (List.mem_singleton.1 hl ▸ hnodup)
  rw [if_neg (by decide)]
  by_cases hempty : T.filter f = []
  · have hset : wifiApiSetScanFreq D none = D.setScanFreqNons1g none := by
      funext w
      exact if_neg (by simp)
    have hclears : D.Clears s.driver
        ↔ (D.setScanFreqNons1g none (D.addNetwork s.driver).2).1 = true := by
      rw [ScanDriver.Clears, hok, eq_self, true_and]
    rw [if_pos (hnil.2 hempty), hset]
    rcases htook : (D.setScanFreqNons1g none (D.addNetwork s.driver).2).1 with _ | _
    · refine ⟨-1, _, rfl, rfl, hhanded, fun _ => (hD.refused _ _ htook).trans (hD.add _),
        fun h => absurd h (by decide), fun _ => ⟨fun h => absurd h (by decide), fun h => ?_⟩,
        fun h => absurd h (by decide)⟩
      rw [hclears, htook] at h
      cases h
    · exact ⟨0, _, rfl, rfl, hhanded, fun h => absurd rfl h, fun _ h => absurd hempty h,
        fun _ => ⟨fun _ => hclears.2 htook, fun _ => rfl⟩, fun _ _ => hD.set_none _ htook⟩
  · have hset : wifiApiSetScanFreq D (some ((T.filter f).map (·.nons1gFreq)))
        = D.setScanFreqNons1g (some ((T.filter f).map (·.nons1gFreq))) := by
      funext w
      exact if_neg fun h => hempty (hnil.1 (Option.some.inj h))
    rw [if_neg (fun h => hempty (hnil.1 h)), hset]
    rcases htook : (D.setScanFreqNons1g (some ((T.filter f).map (·.nons1gFreq)))
        (D.addNetwork s.driver).2).1 with _ | _
    · rw [if_neg (by rw [htook]; decide)]
      exact ⟨-1, _, rfl, rfl, hhanded, fun _ => (hD.refused _ _ htook).trans (hD.add _),
        fun h => absurd h (by decide), fun h => absurd h hempty, fun _ h => absurd h hempty⟩
    · rw [if_pos htook]
      exact ⟨0, _, rfl, rfl, hhanded, fun h => absurd rfl h, fun _ _ => hD.set_some _ _ htook,
        fun h => absurd h hempty, fun _ h => absurd h hempty⟩

end Functions

/-! ## The commands -/

namespace ScanOp

variable {D : ScanDriver δ} {T : List Channel} (op : ScanOp T)

/-- The mark a command gives a channel. -/
def mark (hit scan : Bool) : Bool :=
  match op.kind with
  | .set => hit
  | .add => if hit then true else scan
  | .delete => if hit then false else scan

/-- The marks over the list of the driver. -/
def marks (freq : Option (List ℕ)) (c : Channel) : Bool :=
  op.mark (op.entries.any fun e => e.names c) (scansChannel freq c)

theorem func_eq : op.func D = atcmdWifiScanFreqChange op.mark D op.entries := by
  unfold func mark
  rcases op.kind <;> rfl

/-- The marked channels are what the command makes of the channels scanned. -/
theorem mem_result {w : δ} {c : Channel} : c ∈ op.result (nextScan D T w)
    ↔ c ∈ T ∧ op.marks (D.getScanFreqNons1g w) c = true := by
  have hany : (op.entries.any fun e => e.names c) = true ↔ ∃ e ∈ op.entries, e.names c = true :=
    List.any_eq_true
  unfold result marks mark nextScan named
  rcases hk : op.kind
  · simp only [Set.mem_ofPred_eq, hany]
  · simp only [Set.mem_union, Set.mem_ofPred_eq, ← hany]
    rcases op.entries.any fun e => e.names c <;> simp +contextual
  · simp only [Set.mem_sdiff, Set.mem_ofPred_eq, ← hany]
    rcases op.entries.any fun e => e.names c <;> simp +contextual

theorem filter_marks {w : δ} :
    T.filter (op.marks (D.getScanFreqNons1g w)) = [] ↔ op.result (nextScan D T w) = ∅ := by
  rw [List.filter_eq_nil_iff, Set.eq_empty_iff_forall_notMem]
  constructor
  · intro h c hc
    rw [mem_result] at hc
    exact h c hc.1 hc.2
  · intro h c hc hm
    exact h c (op.mem_result.2 ⟨hc, hm⟩)

/-- Only a delete can remove the last channel. -/
theorem result_ne_empty (hk : op.kind ≠ .delete) (hne : op.entries ≠ []) (old : Set Channel) :
    op.result old ≠ ∅ := by
  obtain ⟨e, he⟩ := List.exists_mem_of_ne_nil _ hne
  obtain ⟨c, ⟨hc, hn⟩, -⟩ := op.denotes e he
  have hmem : c ∈ op.named := ⟨hc, e, he, hn⟩
  unfold result
  rcases h : op.kind
  · exact Set.nonempty_iff_ne_empty.1 ⟨c, hmem⟩
  · exact Set.nonempty_iff_ne_empty.1 ⟨c, Or.inr hmem⟩
  · exact absurd h hk

/-- As many entries as a line has parameters have room for their texts. -/
theorem fits_of_length (hT : SupportedChannels T)
    (hfields : ∀ c ∈ T, c.s1gFreq < 2 ^ 14 ∧ c.bw < 2 ^ 3) (hlen : op.entries.length ≤ 10) :
    op.Fits := by
  have hcount : (T.filter fun c => op.entries.any fun e => e.names c).length
      ≤ op.entries.length := by
    -- each channel is the one that some entry denotes
    have hsub : (T.filter fun c => op.entries.any fun e => e.names c)
        ⊆ op.entries.filterMap fun e => T.find? fun c => e.names c := by
      intro c hc
      obtain ⟨hcT, hany⟩ := List.mem_filter.1 hc
      obtain ⟨e, he, hn⟩ := List.any_eq_true.1 hany
      rcases hfind : T.find? fun c => e.names c with _ | c'
      · exact absurd hn (by simpa using List.find?_eq_none.1 hfind c hcT)
      · have heq := (op.denotes e he).unique ⟨hcT, hn⟩
          ⟨List.mem_of_find?_eq_some hfind, by simpa using List.find?_some hfind⟩
        exact List.mem_filterMap.2 ⟨e, he, heq ▸ hfind⟩
    have hnodup : (T.filter fun c => op.entries.any fun e => e.names c).Nodup :=
      (List.Nodup.of_map _ hT.nodup).filter _
    exact Nat.le_trans (hnodup.subperm hsub).length_le (List.length_filterMap_le _ _)
  have htext : ∀ t ∈ op.texts, t.length ≤ 8 := by
    intro t ht
    obtain ⟨c, hc, rfl⟩ := List.mem_map.1 ht
    obtain ⟨hf, hb⟩ := hfields c (List.mem_of_mem_filter hc)
    have h5 : (Decimal.ofNat c.s1gFreq).length ≤ 5 :=
      Decimal.length_ofNat_le (by decide) (by omega)
    have h1 : (Decimal.ofNat c.bw).length ≤ 1 := Decimal.length_ofNat_le (by decide) (by omega)
    have hspace : (bytes " ").length = 1 := rfl
    have hat : (bytes "@").length = 1 := rfl
    simp only [WifiChannel.text, List.length_append]
    omega
  have hsum := Blocks.length_flatten_le htext
  have : op.texts.length ≤ op.entries.length := by
    rw [texts, List.length_map]
    exact hcount
  unfold Fits
  rw [show scanBufSize = 105 from rfl]
  omega

end ScanOp

/-- The run is as the sets say, and each list held a frequency once. -/
structure Scanning (D : ScanDriver δ) (T : List Channel) (r : ScanRun δ) : Prop where
  channels : r.channels.map (·.toChannel) = T
  listed : Listed T (D.getScanFreqNons1g r.driver)
  want : nextScan D T r.driver = r.want
  handed : ∀ l ∈ r.handed, l.Nodup

section Commands

variable {D : ScanDriver δ} {T : List Channel}

/-- After a list was taken the channels of the next scan are the marked ones. -/
theorem nextScan_of_perm (hT : SupportedChannels T) {f : Channel → Bool} {w : δ} {l : List ℕ}
    (hget : D.getScanFreqNons1g w = some l) (hl : l.Perm ((T.filter f).map (·.nons1gFreq))) :
    nextScan D T w = {c | c ∈ T ∧ f c = true} := by
  ext c
  unfold nextScan scansChannel
  simp only [hget, Set.mem_ofPred_eq, decide_eq_true_eq, hl.mem_iff, List.mem_map, List.mem_filter]
  constructor
  · rintro ⟨hc, c', ⟨hc', hf⟩, heq⟩
    obtain rfl := hT.inj hc' hc heq
    exact ⟨hc, hf⟩
  · rintro ⟨hc, hf⟩
    exact ⟨hc, c, ⟨hc, hf⟩, rfl⟩

theorem listed_of_perm (hT : SupportedChannels T) {f : Channel → Bool} {l : List ℕ}
    (hne : T.filter f ≠ []) (hl : l.Perm ((T.filter f).map (·.nons1gFreq))) :
    Listed T (some l) := by
  rintro _ ⟨⟩
  refine ⟨fun h => ?_, ?_, fun x hx => ?_⟩
  · rw [h, List.nil_perm, List.map_eq_nil_iff] at hl
    exact hne hl
  · rw [hl.length_eq, List.length_map]
    exact Nat.le_trans (List.length_filter_le _ _) hT.max
  · obtain ⟨c, hc, rfl⟩ := List.mem_map.1 (hl.mem_iff.1 hx)
    exact ⟨c, List.mem_of_mem_filter hc, rfl⟩

theorem Scanning.step (hD : D.Documented) (hT : SupportedChannels T) {r : ScanRun δ}
    (h : Scanning D T r) {op : ScanOp T} (hop : LeavesChannel D r op) :
    ∃ r', scanStep D r op = some r' ∧ Scanning D T r' := by
  unfold scanStep
  rw [op.func_eq, scanFreqChange_spec hD hT h.channels h.listed]
  rcases hok : (D.addNetwork r.driver).1 with _ | _
  · refine ⟨_, rfl, h.channels, ?_, ?_, h.handed⟩
    · rw [hD.add]
      exact h.listed
    · change nextScan D T (D.addNetwork r.driver).2 = r.want
      rw [← h.want, nextScan, nextScan, hD.add]
  obtain ⟨hfits, hleaves⟩ := hop hok
  rw [if_neg (by decide), if_pos (show op.texts.flatten.length < scanBufSize from hfits),
    Option.map_some]
  obtain ⟨ret, s', heq, hch, hhanded, hfail, hsome, hnone, -⟩ := scanFreqSet_spec hD hT
    (s := { r.toScanInfo with
      channels := marked T (op.marks (D.getScanFreqNons1g r.driver))
      driver := (D.addNetwork r.driver).2 }) rfl
  refine ⟨{ s' with want := if ret = 0 then op.result r.want else r.want }, ?_, ?_, ?_, ?_, ?_⟩
  · exact congrArg some (congrArg (fun x : ℤ × ScanInfo δ =>
      ({ x.2 with want := if x.1 = 0 then op.result r.want else r.want } : ScanRun δ)) heq)
  · exact (congrArg _ hch).trans (map_marked T _)
  · by_cases hret : ret = 0
    · have hne : T.filter (op.marks (D.getScanFreqNons1g r.driver)) ≠ [] := fun hnil =>
        hleaves (op.filter_marks.1 hnil) ((hnone hnil).1 hret)
      obtain ⟨l, hget, hl⟩ := hsome hret hne
      change Listed T (D.getScanFreqNons1g s'.driver)
      rw [hget]
      exact listed_of_perm hT hne hl
    · change Listed T (D.getScanFreqNons1g s'.driver)
      rw [hfail hret, hD.add]
      exact h.listed
  · by_cases hret : ret = 0
    · have hne : T.filter (op.marks (D.getScanFreqNons1g r.driver)) ≠ [] := fun hnil =>
        hleaves (op.filter_marks.1 hnil) ((hnone hnil).1 hret)
      obtain ⟨l, hget, hl⟩ := hsome hret hne
      dsimp only
      rw [if_pos hret, nextScan_of_perm hT hget hl, ← h.want]
      ext c
      exact op.mem_result.symm
    · dsimp only
      rw [if_neg hret, ← h.want, nextScan, nextScan, hfail hret, hD.add]
  · intro l hl
    exact (hhanded l hl).elim (h.handed l) id

/-- Where the last channel goes, the next scan is of all of them. -/
theorem Scanning.widens (hD : D.Documented) (hT : SupportedChannels T) {r r' : ScanRun δ}
    (h : Scanning D T r) {op : ScanOp T} (hop : ¬ LeavesChannel D r op)
    (hs : scanStep D r op = some r') :
    nextScan D T r'.driver = {c | c ∈ T} ∧ r'.want = ∅ := by
  unfold scanStep at hs
  rw [op.func_eq, scanFreqChange_spec hD hT h.channels h.listed] at hs
  unfold LeavesChannel at hop
  push Not at hop
  obtain ⟨hok, hop⟩ := hop
  rw [if_neg (by rw [hok]; decide)] at hs
  split_ifs at hs with hfits
  · obtain ⟨hempty, hclears⟩ := hop hfits
    have hnil := op.filter_marks.2 hempty
    obtain ⟨ret, s', heq, -, -, -, -, hnone, hget⟩ := scanFreqSet_spec hD hT
      (s := { r.toScanInfo with
        channels := marked T (op.marks (D.getScanFreqNons1g r.driver))
        driver := (D.addNetwork r.driver).2 }) rfl
    have hret := (hnone hnil).2 hclears
    rw [Option.map_some, show (fun c => op.mark (op.entries.any fun e => e.names c)
      (scansChannel (D.getScanFreqNons1g r.driver) c))
      = op.marks (D.getScanFreqNons1g r.driver) from rfl, heq] at hs
    obtain rfl := Option.some.inj hs
    dsimp only
    rw [if_pos hret, ← h.want, nextScan, hget hret hnil]
    exact ⟨by simp [scansChannel], hempty⟩
  · cases hs

end Commands

/-- Along every run of commands the channels of the next scan are what the operations on sets give,
and each frequency is handed over once, exactly if no command removes the last channel while the
driver takes it, and the text of each has room. -/
theorem scan_list_iff {D : ScanDriver δ} (hD : D.Documented) {T : List Channel}
    (hT : SupportedChannels T) {r : ScanRun δ} (h : Scanning D T r) (ops : List (ScanOp T)) :
    (∀ pre, pre <+: ops → ∃ r', run (scanStep D) r pre = some r'
        ∧ nextScan D T r'.driver = r'.want ∧ ∀ l ∈ r'.handed, l.Nodup)
      ↔ Along (scanStep D) (LeavesChannel D) r ops := by
  refine along_iff_total (P := fun r => nextScan D T r.driver = r.want ∧ ∀ l ∈ r.handed, l.Nodup)
    (fun _ h => ⟨h.want, h.handed⟩) (fun _ _ h hop => h.step hD hT hop) ?_ ops r h
  intro r op r' h hop hs hgood
  obtain ⟨hall, hwant⟩ := h.widens hD hT hop hs
  rw [hall, hwant] at hgood
  obtain ⟨c, hc⟩ := List.exists_mem_of_ne_nil T hT.ne_nil
  exact Set.notMem_empty c (hgood.1 ▸ hc)

/-- A driver that takes every list. -/
def takesLists : ScanDriver (Option (List ℕ)) where
  addNetwork w := (true, w)
  getScanFreqNons1g w := w
  setScanFreqNons1g l _ := (true, l)

theorem takesLists_documented : takesLists.Documented where
  add _ := rfl
  set_none _ _ := rfl
  set_some l _ _ := ⟨l, rfl, List.Perm.refl l⟩
  refused _ _ h := by cases h

/-- Two channels of 1 MHz. -/
def twoChannels : List Channel := [⟨9025, 2412, 1⟩, ⟨9035, 2422, 1⟩]

theorem twoChannels_supported : SupportedChannels twoChannels where
  ne_nil := by decide
  max := by decide
  s1gFreq := by decide
  nons1gFreq := by decide
  nodup := by decide

/-- A command with the first of them. -/
def firstChannel (kind : ScanKind) : ScanOp twoChannels where
  kind := kind
  entries := [⟨9025, 0⟩]
  denotes := by
    intro e he
    obtain rfl := List.mem_singleton.1 he
    refine ⟨⟨9025, 2412, 1⟩, by decide, fun c hc => ?_⟩
    have hmem : c ∈ twoChannels.filter fun c => (⟨9025, 0⟩ : ScanEntry).names c :=
      List.mem_filter.2 hc
    exact List.mem_singleton.1 hmem

/-- No list was handed over yet. -/
def scanBoot : ScanRun (Option (List ℕ)) where
  channels := marked twoChannels fun _ => true
  driver := none
  handed := []
  want := {c | c ∈ twoChannels}

theorem scanBoot_scanning : Scanning takesLists twoChannels scanBoot where
  channels := map_marked _ _
  listed := fun _ h => by cases h
  want := by
    simp only [nextScan, scansChannel, takesLists, scanBoot, and_true]
  handed := fun _ h => absurd h List.not_mem_nil

theorem scan_list_iff_set : ∃ r', run (scanStep takesLists) scanBoot
      [firstChannel .set, firstChannel .add] = some r'
    ∧ nextScan takesLists twoChannels r'.driver = r'.want ∧ ∀ l ∈ r'.handed, l.Nodup := by
  refine (scan_list_iff takesLists_documented twoChannels_supported scanBoot_scanning
    [firstChannel .set, firstChannel .add]).2 ?_ _ (List.prefix_refl _)
  have hleaves : ∀ kind ≠ ScanKind.delete, ∀ r,
      LeavesChannel takesLists r (firstChannel kind) := fun kind hk r _ =>
    ⟨(firstChannel kind).fits_of_length twoChannels_supported (by decide)
        (show 1 ≤ 10 by decide),
      fun h => absurd h ((firstChannel kind).result_ne_empty hk (List.cons_ne_nil _ _) _)⟩
  exact ⟨hleaves _ (by decide) _, fun _ _ => ⟨hleaves _ (by decide) _, fun _ _ => trivial⟩⟩

/-- The list is the first channel, and then it is deleted: the next scan is of both. -/
theorem scan_list_widens : ∃ r',
    run (scanStep takesLists) scanBoot [firstChannel .set, firstChannel .delete] = some r'
      ∧ ⟨9035, 2422, 1⟩ ∈ nextScan takesLists twoChannels r'.driver
      ∧ nextScan takesLists twoChannels r'.driver ≠ r'.want := by
  have hmem : (⟨9035, 2422, 1⟩ : Channel) ∈ nextScan takesLists twoChannels none :=
    ⟨by decide, rfl⟩
  refine ⟨_, rfl, hmem, fun h => ?_⟩
  have hnot : (⟨9035, 2422, 1⟩ : Channel) ∈ (firstChannel .set).named := (h ▸ hmem).1
  obtain ⟨-, e, he, hn⟩ := hnot
  obtain rfl := List.mem_singleton.1 he
  exact absurd hn (by decide)

end NrcAtcmd
