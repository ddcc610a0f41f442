import NrcAtcmd.FotaInfo
import NrcAtcmd.Proofs.HttpGet
import NrcAtcmd.Proofs.ParamStore

/-!
# The manifest is stored inside its record as far as the names fit

The stores of the parser are those of the keys one after the other (`parse_eq`), and each is inside
a field of its key but for a name that is too long. The fields have no byte in common, so what was
stored in one is there in the end.
-/

namespace NrcAtcmd

open Decimal Memory
open ParamStore (CStr hexValue hexValue_eq_none hexLoop_eq)

/-! ## Words and conversions -/

lemma length_wordBytes (v : ℤ) : (wordBytes v).length = 4 := rfl

lemma wordOf_wordBytes (v : ℤ) : wordOf (wordBytes v) = (v % 2 ^ 32).toNat := by
  simp only [wordOf, wordBytes, List.foldr_cons, List.foldr_nil, UInt8.toNat_ofNat']
  omega

lemma wordOf_nat {n : ℕ} (h : n < 2 ^ 32) : wordOf (wordBytes n) = n := by
  rw [wordOf_wordBytes]
  omega

/-- A number of a version, whatever is behind it. -/
lemma scanDotted_number (n : ℕ) {a : ℕ} (ha : a < 2 ^ 31) {t : Bytes}
    (ht : ∀ b ∈ t.head?, isDigit b = false) : scanDotted (n + 1) (ofNat a ++ t) =
      (a : ℤ) :: if t.head? = some 46 then scanDotted n t.tail else [] := by
  have hscan : scanInt (ofNat a ++ t) = some (a : ℤ) := by
    have h := HttpResponse.scanInt_digits (List.forall_mem_nil _) (numeral_ofNat a).scan
      (ofNat_ne_nil a) ha ht
    simpa using h
  rw [scanDotted, hscan]
  simp only [strtol_ofNat a t ht]

lemma scanDotted_version {a b c : ℕ} (ha : a < 2 ^ 31) (hb : b < 2 ^ 31) (hc : c < 2 ^ 31) :
    scanDotted 3 (ofNat a ++ 46 :: (ofNat b ++ 46 :: ofNat c)) = [(a : ℤ), (b : ℤ), (c : ℤ)] := by
  have hdot : ∀ t : Bytes, ∀ x ∈ (46 :: t).head?, isDigit x = false := by
    rintro t x hx
    obtain rfl := Option.some.inj hx
    rfl
  have hlast := scanDotted_number 0 hc (t := []) (by simp)
  rw [List.append_nil] at hlast
  rw [scanDotted_number 2 ha (hdot _), List.head?_cons, if_pos rfl, List.tail_cons,
    scanDotted_number 1 hb (hdot _), List.head?_cons, if_pos rfl, List.tail_cons, hlast]
  rfl

lemma firstToken_self {s : Bytes} (h : ∀ x ∈ s, isSpace x = false) : firstToken s = s := by
  have hdrop : s.dropWhile isSpace = s := by
    cases s with
    | nil => rfl
    | cons x s => exact List.dropWhile_cons_of_neg (by simp [h x (List.mem_cons_self ..)])
  rw [firstToken, hdrop, List.takeWhile_eq_self_iff]
  exact fun x hx => by simp [h x hx]

/-- A hexadecimal digit is neither a blank nor a sign, nor the `x` of a prefix. -/
lemma hexDigit_ne {b : UInt8} (h : (hexDigit b).isSome) :
    isSpace b = false ∧ b ≠ 43 ∧ b ≠ 45 ∧ b ≠ 120 ∧ b ≠ 88 := by
  have hrange : (48 ≤ b ∧ b ≤ 57) ∨ (97 ≤ b ∧ b ≤ 102) ∨ (65 ≤ b ∧ b ≤ 70) := by
    unfold hexDigit at h
    split_ifs at h <;> simp_all
  refine ⟨?_, by grind, by grind, by grind, by grind⟩
  simp only [isSpace, Bool.or_eq_false_iff, beq_eq_false_iff_ne, Bool.and_eq_false_iff,
    decide_eq_false_iff_not]
  exact ⟨by grind, by grind⟩

lemma hexValue_digits {ds : Bytes} {n : ℕ} (h : hexValue ds = some n) :
    ∀ b ∈ ds, (hexDigit b).isSome := by
  intro b hb
  by_contra hnone
  rw [hexValue, hexValue_eq_none.2 ⟨b, hb, by simpa using hnone⟩] at h
  simp at h

lemma hexValue_lt {ds : Bytes} {n : ℕ} (h : hexValue ds = some n) (hlen : ds.length ≤ 8) :
    n < 2 ^ 32 := by
  have hlt := (hexLoop_eq (n := 0) h).2
  have hpow : 16 ^ ds.length ≤ 16 ^ 8 := Nat.pow_le_pow_right (by omega) hlen
  omega

lemma dropHexPrefix_digits {ds : Bytes} (h : ∀ b ∈ ds, (hexDigit b).isSome) :
    dropHexPrefix ds = ds := by
  unfold dropHexPrefix
  split
  · rename_i x d s
    have hx := hexDigit_ne (h x (by simp))
    rw [if_neg (by simp [hx.2.2.2])]
  · rfl

/-- The digits of a CRC are read to their end, with or without a prefix. -/
lemma scanHex_spelled {pre ds : Bytes} {n : ℕ}
    (hpre : pre = [] ∨ pre = bytes "0x" ∨ pre = bytes "0X") (hpos : 1 ≤ ds.length)
    (hlen : ds.length ≤ 8) (hn : hexValue ds = some n) : scanHex (pre ++ ds) = some n := by
  have hdig := hexValue_digits hn
  have hlt := hexValue_lt hn hlen
  obtain ⟨d, ds, rfl⟩ := List.exists_cons_of_ne_nil (List.ne_nil_of_length_pos hpos)
  have hd := hdig d (by simp)
  have hdrop : dropHexPrefix (pre ++ d :: ds) = d :: ds := by
    rcases hpre with rfl | rfl | rfl
    · exact dropHexPrefix_digits hdig
    · exact if_pos ⟨Or.inl rfl, hd⟩
    · exact if_pos ⟨Or.inr rfl, hd⟩
  have htake : (d :: ds).takeWhile (fun b => (hexDigit b).isSome) = d :: ds := by
    rw [List.takeWhile_eq_self_iff]
    exact hdig
  obtain ⟨hspace, hplus, hminus, -⟩ := hexDigit_ne hd
  have hhead : ∃ x t, pre ++ d :: ds = x :: t ∧ isSpace x = false ∧ x ≠ 43 ∧ x ≠ 45 := by
    rcases hpre with rfl | rfl | rfl
    · exact ⟨d, ds, rfl, hspace, hplus, hminus⟩
    · exact ⟨48, 120 :: d :: ds, rfl, by decide, by decide, by decide⟩
    · exact ⟨48, 88 :: d :: ds, rfl, by decide, by decide, by decide⟩
  obtain ⟨x, t, hx, hxs, hxp, hxm⟩ := hhead
  have hsign : signOf (x :: t) = (false, x :: t) := by
    unfold signOf
    split <;> simp_all
  rw [hx] at hdrop
  unfold scanHex
  rw [hx, List.dropWhile_cons_of_neg (by simp [hxs]), hsign]
  simp only [hdrop, htake, hn, Option.getD_some, reduceCtorEq, if_false, Bool.false_eq_true]
  rw [if_neg (by omega)]

/-! ## The stores of a key -/

namespace FotaKey

/-- The conversion of a key. -/
def stores (val : Bytes) : FotaKey → List (ℕ × Bytes)
  | version v => ((version v).fields.map Prod.fst).zip ((scanDotted 3 val).map wordBytes)
  | bin b => ((scanStr val).map fun s => (fwBinOffset b.index, s ++ [0])).toList
  | crc b => ((scanHex val).map fun n => (fwBinOffset b.index + 132, wordBytes n)).toList

/-- What is stored for a key. -/
def writes (cjson : List CJson) (k : FotaKey) : List (ℕ × Bytes) :=
  ((k.value cjson).map fun val => k.stores val).getD []

theorem mem_all (k : FotaKey) : k ∈ all := by
  rcases k with v | b | b
  · cases v <;> decide
  · cases b <;> decide
  · cases b <;> decide

theorem name_injective {k k' : FotaKey} (h : k.name = k'.name) : k = k' := by
  have hall : ∀ k ∈ all, ∀ k' ∈ all, k.name = k'.name → k = k' := by decide
  exact hall k k.mem_all k' k'.mem_all h

/-- The keys in the order of the source. -/
theorem keys_eq : fotaInfoKeys.zipIdx = all.zipIdx.map fun p => (p.1.name, p.2) := rfl

/-- The arithmetic on the number of a key leads to the fields it names. -/
theorem switch_eq (val : Bytes) : ∀ p ∈ all.zipIdx, fotaInfoSwitch p.2 val = p.1.stores val := by
  intro p hp
  simp only [all, List.zipIdx_cons, List.zipIdx_nil, List.mem_cons, List.not_mem_nil,
    or_false] at hp
  rcases hp with rfl | rfl | rfl | rfl | rfl | rfl | rfl | rfl <;> rfl

end FotaKey

/-- The stores, each with its key. -/
def keyed (key : Bytes) (w : ℕ × Bytes) : InfoWrite := ⟨key, w.1, w.2⟩

theorem foldl_store (key : Bytes) : ∀ (ws : List (ℕ × Bytes)) (info : InfoMem),
    ws.foldl (InfoMem.store key) info =
      ⟨memcpys info.mem ws, info.writes ++ ws.map (keyed key)⟩
  | [], info => by simp [memcpys]
  | w :: ws, info => by
    rw [List.foldl_cons, foldl_store key ws]
    simp [InfoMem.store, memcpys, keyed]

theorem pass_eq (cjson : List CJson) (info : InfoMem) {p : FotaKey × ℕ}
    (hp : p ∈ FotaKey.all.zipIdx) : fotaInfoPass cjson info p.1.name p.2 =
      ⟨memcpys info.mem (p.1.writes cjson),
        info.writes ++ (p.1.writes cjson).map (keyed p.1.name)⟩ := by
  unfold fotaInfoPass FotaKey.writes FotaKey.value
  rcases cJSONGetObjectItem cjson p.1.name with _ | ⟨_, isString, val⟩
  · simp [memcpys]
  · cases isString
    · simp [memcpys]
    · cases val with
      | none => simp [memcpys]
      | some val =>
        simp only [Bool.not_true, Bool.false_eq_true, if_false, FotaKey.switch_eq val.1 p hp,
          foldl_store, Option.map_some, Option.getD_some]

/-- The stores of the keys one after the other. -/
theorem loop_eq (cjson : List CJson) : ∀ (ps : List (FotaKey × ℕ)) (info : InfoMem),
    (∀ p ∈ ps, p ∈ FotaKey.all.zipIdx) →
      ps.foldl (fun info p => fotaInfoPass cjson info p.1.name p.2) info =
        ⟨memcpys info.mem (ps.flatMap fun p => p.1.writes cjson),
          info.writes ++ ps.flatMap fun p => (p.1.writes cjson).map (keyed p.1.name)⟩
  | [], info, _ => by simp [memcpys]
  | p :: ps, info, h => by
    rw [List.foldl_cons, pass_eq cjson info (h p (List.mem_cons_self ..)),
      loop_eq cjson ps _ fun q hq => h q (List.mem_cons_of_mem _ hq)]
    simp [memcpys_append]

theorem parse_eq {cJSONParse : Bytes → Option (List CJson)} {fotaInfo : Bytes} {cjson : List CJson}
    (h : cJSONParse fotaInfo = some cjson) (mem : Bytes) :
    (atcmdFotaInfoParse_ cJSONParse fotaInfo ⟨mem, []⟩).2 =
      ⟨memcpys mem (FotaKey.all.flatMap (FotaKey.writes cjson)),
        FotaKey.all.flatMap fun k => (k.writes cjson).map (keyed k.name)⟩ := by
  have hmap : ∀ {β : Type} (f : FotaKey → List β),
      (FotaKey.all.zipIdx.flatMap fun p => f p.1) = FotaKey.all.flatMap f := fun f => by
    rw [← List.flatMap_map (fun p : FotaKey × ℕ => p.1), List.zipIdx_map_fst]
  unfold atcmdFotaInfoParse_
  rw [h, FotaKey.keys_eq]
  dsimp only
  rw [List.foldl_map, loop_eq cjson _ _ fun p hp => hp, hmap (FotaKey.writes cjson),
    hmap fun k => (k.writes cjson).map (keyed k.name), List.nil_append]

/-! ## Fields -/

namespace FotaKey

/-- The fields are inside the record, and have no byte in common. -/
theorem field_le {k : FotaKey} : ∀ f ∈ k.fields, f.1 + f.2 ≤ fotaInfoSize := by
  have hall : ∀ k ∈ all, ∀ f ∈ k.fields, f.1 + f.2 ≤ fotaInfoSize := by decide
  exact hall k k.mem_all

theorem fields_apart {k k' : FotaKey} (hne : k ≠ k') :
    ∀ f ∈ k.fields, ∀ f' ∈ k'.fields, Apart f.1 f.2 f'.1 f'.2 := by
  have hall : ∀ k ∈ all, ∀ k' ∈ all, k ≠ k' →
      ∀ f ∈ k.fields, ∀ f' ∈ k'.fields, Apart f.1 f.2 f'.1 f'.2 := by decide
  exact hall k k.mem_all k' k'.mem_all hne

end FotaKey

/-- Each store of an object whose names fit is inside a field of its key. -/
theorem FotaKey.writes_inside {cjson : List CJson}
    (hfit : ∀ (b : FwBin) (val : Bytes), (FotaKey.bin b).value cjson = some val →
      (firstToken val).length < binNameSize) {k : FotaKey} :
    ∀ w ∈ k.writes cjson, ∃ f ∈ k.fields, w.1 = f.1 ∧ w.2.length ≤ f.2 := by
  intro w hw
  unfold FotaKey.writes at hw
  rcases hval : k.value cjson with _ | val
  · simp [hval] at hw
  rw [hval, Option.map_some, Option.getD_some] at hw
  cases k with
  | version v =>
    obtain ⟨ho, hd⟩ := List.of_mem_zip (show (w.1, w.2) ∈ _ from hw)
    obtain ⟨f, hf, hfo⟩ := List.mem_map.1 ho
    obtain ⟨n, -, hn⟩ := List.mem_map.1 hd
    refine ⟨f, hf, hfo.symm, ?_⟩
    obtain ⟨d, -, rfl⟩ := List.mem_map.1 hf
    rw [← hn, length_wordBytes]
  | bin b =>
    obtain ⟨s, hs, rfl⟩ := Option.map_eq_some_iff.1 (Option.mem_toList.1 hw)
    refine ⟨_, List.mem_singleton_self _, rfl, ?_⟩
    unfold scanStr at hs
    split_ifs at hs
    rw [← Option.some.inj hs]
    simpa using Nat.succ_le_of_lt (hfit b val hval)
  | crc b =>
    obtain ⟨n, -, rfl⟩ := Option.map_eq_some_iff.1 (Option.mem_toList.1 hw)
    exact ⟨_, List.mem_singleton_self _, rfl, le_rfl⟩

section stored

variable {cjson : List CJson} {mem : Bytes} {k : FotaKey}

/-- A store of a key is there in the end, if those after it for the same key are beside it. -/
theorem read_stored (hle : fotaInfoSize ≤ mem.length)
    (hin : ∀ k : FotaKey, ∀ w ∈ k.writes cjson, ∃ f ∈ k.fields, w.1 = f.1 ∧ w.2.length ≤ f.2)
    (us : List (ℕ × Bytes)) {vs : List (ℕ × Bytes)} {w : ℕ × Bytes}
    (hk : k.writes cjson = us ++ w :: vs)
    (hvs : ∀ v ∈ vs, Apart w.1 w.2.length v.1 v.2.length) :
    read (memcpys mem (FotaKey.all.flatMap (FotaKey.writes cjson))) w.1 w.2.length = w.2 := by
  obtain ⟨pre, post, hall⟩ := List.append_of_mem k.mem_all
  have hnd : FotaKey.all.Nodup := by decide
  rw [hall] at hnd ⊢
  have hpost : k ∉ post := (List.nodup_cons.1 (List.nodup_append.1 hnd).2.1).1
  rw [List.flatMap_append, List.flatMap_cons, hk, List.append_assoc, List.cons_append,
    ← List.append_assoc]
  refine read_memcpys (fun v hv => ?_) fun v hv => ?_
  · obtain ⟨k', hv⟩ : ∃ k' : FotaKey, v ∈ k'.writes cjson := by
      simp only [List.mem_append, List.mem_flatMap, List.mem_cons] at hv
      rcases hv with (⟨k', -, hv⟩ | hv) | rfl | hv | ⟨k', -, hv⟩
      · exact ⟨k', hv⟩
      · exact ⟨k, by simp [hk, hv]⟩
      · exact ⟨k, by simp [hk]⟩
      · exact ⟨k, by simp [hk, hv]⟩
      · exact ⟨k', hv⟩
    obtain ⟨f, hf, ho, hl⟩ := hin k' v hv
    have := FotaKey.field_le f hf
    omega
  · rcases List.mem_append.1 hv with hv | hv
    · exact hvs v hv
    · obtain ⟨k', hk', hv⟩ := List.mem_flatMap.1 hv
      obtain ⟨f, hf, ho, hl⟩ := hin k w (by simp [hk])
      obtain ⟨f', hf', ho', hl'⟩ := hin k' v hv
      have hne : k ≠ k' := fun h => hpost (h ▸ hk')
      rw [ho, ho']
      exact (FotaKey.fields_apart hne f hf f' hf').mono hl hl'

end stored

/-- A string in a field that has room for it is what is read up to the first NUL. -/
lemma takeWhile_name {b s : Bytes} {off n : ℕ} (hs : 0 ∉ s) (hn : s.length < n)
    (h : read b off (s ++ [0]).length = s ++ [0]) : (read b off n).takeWhile (· ≠ 0) = s := by
  have hpre : s ++ [0] <+: read b off n := by
    rw [← h]
    exact List.take_prefix_take_left (by simpa using Nat.succ_le_of_lt hn)
  obtain ⟨t, ht⟩ := hpre
  rw [← ht, List.append_assoc, List.takeWhile_append_of_pos, List.singleton_append,
    List.takeWhile_cons_of_neg (by simp), List.append_nil]
  exact fun x hx => by simpa using fun h0 : x = 0 => hs (h0 ▸ hx)

lemma FotaKey.value_nul {cjson : List CJson} {k : FotaKey} {val : Bytes}
    (h : k.value cjson = some val) : 0 ∉ val := by
  unfold FotaKey.value at h
  split at h
  · rename_i s _
    rw [← Option.some.inj h]
    exact s.2
  · simp at h

/-- A well-formed value is in its record in the end. -/
theorem content_stored {cjson : List CJson} {mem : Bytes} (hle : fotaInfoSize ≤ mem.length)
    (hfit : ∀ (b : FwBin) (val : Bytes), (FotaKey.bin b).value cjson = some val →
      (firstToken val).length < binNameSize) {k : FotaKey} {val : Bytes} {c : FotaContent}
    (hval : k.value cjson = some val) (hc : k.Spells val c) :
    k.content (memcpys mem (FotaKey.all.flatMap (FotaKey.writes cjson))) = c := by
  have hwrites : k.writes cjson = k.stores val := by
    rw [FotaKey.writes, hval, Option.map_some, Option.getD_some]
  have hread : ∀ (us vs : List (ℕ × Bytes)) (w : ℕ × Bytes), k.stores val = us ++ w :: vs →
      (∀ v ∈ vs, Apart w.1 w.2.length v.1 v.2.length) →
        read (memcpys mem (FotaKey.all.flatMap (FotaKey.writes cjson))) w.1 w.2.length = w.2 :=
    fun us _ _ hst hvs =>
      read_stored hle (fun _ => FotaKey.writes_inside hfit) us (hwrites.trans hst) hvs
  cases hc with
  | @version v x y z hx hy hz =>
    have hint : ∀ n : ℕ, n < 2 ^ 31 → (wordOf (wordBytes (n : ℤ)) : ℤ).bmod (2 ^ 32) = n := by
      intro n hn
      rw [wordOf_nat (by omega)]
      exact Int.bmod_eq_of_le (by omega) (by omega)
    have hst : (FotaKey.version v).stores (ofNat x ++ 46 :: (ofNat y ++ 46 :: ofNat z)) =
        [(fwVerOffset v.index + 0, wordBytes x), (fwVerOffset v.index + 4, wordBytes y),
          (fwVerOffset v.index + 8, wordBytes z)] := by
      rw [FotaKey.stores, scanDotted_version hx hy hz]
      rfl
    have h0 := hread [] _ _ hst (by simp [Apart, length_wordBytes])
    have h4 := hread [_] _ _ hst (by simp [Apart, length_wordBytes])
    have h8 := hread [_, _] _ _ hst (by simp)
    simp only [length_wordBytes] at h0 h4 h8
    simp only [FotaKey.content, h0, h4, h8, hint x hx, hint y hy, hint z hz]
  | @name b _ hne hs =>
    have hst : (FotaKey.bin b).stores val = [(fwBinOffset b.index, val ++ [0])] := by
      rw [FotaKey.stores, scanStr, firstToken_self hs, if_neg hne]
      rfl
    have hlt := hfit b val hval
    rw [firstToken_self hs] at hlt
    have h := hread [] _ _ hst (by simp)
    simp only [FotaKey.content]
    rw [takeWhile_name (FotaKey.value_nul hval) hlt h]
  | @crc b pre ds n hpre hpos hlen hn =>
    have hst : (FotaKey.crc b).stores (pre ++ ds) =
        [(fwBinOffset b.index + 132, wordBytes n)] := by
      rw [FotaKey.stores, scanHex_spelled hpre hpos hlen hn]
      rfl
    have hlt := hexValue_lt hn hlen
    have h := hread [] _ _ hst (by simp)
    rw [length_wordBytes] at h
    simp only [FotaKey.content, h, wordOf_nat hlt]

/-! ## The parser -/

/-- A name that is stored inside its field fits. -/
theorem namesFit_of_inside {cJSONParse : Bytes → Option (List CJson)} {fotaInfo : Bytes}
    {r : FotaRecord} (h : InfoParsed cJSONParse fotaInfo r) : NamesFit cJSONParse fotaInfo := by
  intro cjson hparse b val hval
  by_contra hlong
  have hne : firstToken val ≠ [] := by
    rintro h0
    rw [h0] at hlong
    exact hlong (by decide)
  have hst : (fwBinOffset b.index, firstToken val ++ [0]) ∈ (FotaKey.bin b).writes cjson := by
    rw [FotaKey.writes, hval, Option.map_some, Option.getD_some, FotaKey.stores, scanStr,
      if_neg hne]
    exact List.mem_singleton_self _
  obtain ⟨k, hk, f, hf, -, hl⟩ := h.inside
    (keyed (FotaKey.bin b).name (fwBinOffset b.index, firstToken val ++ [0])) (by
      rw [parse_eq hparse]
      exact List.mem_flatMap.2 ⟨_, FotaKey.mem_all _, List.mem_map_of_mem hst⟩)
  obtain rfl := FotaKey.name_injective hk
  obtain rfl := List.mem_singleton.1 hf
  simp only [keyed, List.length_append, List.length_singleton] at hl
  exact hlong (Nat.lt_of_succ_le hl)

/-- For every manifest, the parser stores inside the record each key names and stores the
well-formed values there, exactly if the first word of each name fits its field. -/
theorem fota_info_iff (cJSONParse : Bytes → Option (List CJson)) (fotaInfo : Bytes)
    (r : FotaRecord) : InfoParsed cJSONParse fotaInfo r ↔ NamesFit cJSONParse fotaInfo := by
  refine ⟨namesFit_of_inside, fun h => ?_⟩
  rcases hparse : cJSONParse fotaInfo with _ | cjson
  · have hnone : (atcmdFotaInfoParse_ cJSONParse fotaInfo ⟨r.mem, []⟩).2 = ⟨r.mem, []⟩ := by
      unfold atcmdFotaInfoParse_
      rw [hparse]
    exact ⟨fun w hw => by simp [hnone] at hw, fun cjson hc => by simp [hparse] at hc⟩
  · have hfit := h cjson hparse
    constructor
    · intro w hw
      rw [parse_eq hparse] at hw
      obtain ⟨k, -, hw⟩ := List.mem_flatMap.1 hw
      obtain ⟨v, hv, rfl⟩ := List.mem_map.1 hw
      exact ⟨k, rfl, FotaKey.writes_inside hfit v hv⟩
    · intro cjson' hc k val c hval hspell
      obtain rfl := Option.some.inj (hparse.symm.trans hc)
      rw [parse_eq hparse]
      exact content_stored r.le hfit hval hspell

/-- A name that fills its field. -/
def longName : CStr := ⟨List.replicate 129 97, fun h => by simpa using List.eq_of_mem_replicate h⟩

def longNameText : Bytes := bytes "\x7b\"AT_HSPI_BIN\":\"" ++ longName.1 ++ bytes "\"\x7d"

def longNameObject : List CJson :=
  [⟨some ⟨bytes "AT_HSPI_BIN", by decide⟩, true, some longName⟩]

/-- A name of 129 bytes: its terminator is stored behind the field. -/
theorem fota_info_overflows : ¬ InfoParsed
    (fun text => if text = longNameText then some longNameObject else none) longNameText
    ⟨List.replicate 448 0, by rw [List.length_replicate, fotaInfoSize]⟩ := by
  intro h
  have hfit := namesFit_of_inside h longNameObject (by simp) .hspi longName.1 (by decide)
  revert hfit
  decide +kernel

end NrcAtcmd
