import NrcAtcmd.MsgPrint
import NrcAtcmd.Proofs.TargetStream

/-!
# A message fits its buffer, or not

`atcmd_msg_vsnprint` adds up the lengths of what it prints whether or not it was cut, and takes the
sum off the length of the buffer for the next size. A message shorter than the buffer comes out
whole. From the length of the buffer on the terminator of a cut text stays in it where the end of
the message belongs, the sum counts bytes that are not there, and a sum over the length makes a
size of nearly `2 ^ 32`.
-/

namespace NrcAtcmd

open Memory (memcpy take_memcpy length_memcpy le_length_memcpy)

/-- The bytes are of the message, and its end is there. -/
def OfMessage (text out : Bytes) : Prop :=
  out <+: atcmdMsgVsnprint text ∧ (out ≠ [] → bytes "\r\n" <:+ out)

/-- `atcmd_msg_vsnprint` writes inside of the buffer, and returns how much of it is the message. -/
def Printed (eoverflow : Bool) (type : Option MsgBuf.AtcmdMsgType) (buf : List UInt8)
    (text : Bytes) : Prop :=
  ∃ buf' ret, MsgBuf.atcmdMsgVsnprint eoverflow type buf buf.length text = some (buf', ret)
    ∧ 0 ≤ ret ∧ ret ≤ buf.length ∧ OfMessage text (buf'.take ret.toNat)

/-- `atcmd_msg_print` transmits the message, all of it read from its buffer. -/
def Transmitted (eoverflow : Bool) (type : Option MsgBuf.AtcmdMsgType) (buf : List UInt8)
    (text : Bytes) : Prop :=
  ∃ out, MsgBuf.atcmdMsgPrint eoverflow type buf text = some out ∧ OfMessage text out

section Print

variable {eoverflow : Bool} {buf : List UInt8} {text : Bytes} {off len : ℕ}

theorem sizeOfInt_sub (hlen : len ≤ intMax) (h : off ≤ len) :
    sizeOfInt ((len : ℤ) - (off : ℤ)) = len - off := by
  unfold sizeOfInt intMax at *
  omega

theorem sizeOfInt_neg (hlen : off ≤ len + intMax) (h : len < off) :
    intMax < sizeOfInt ((len : ℤ) - (off : ℤ)) := by
  unfold sizeOfInt intMax at *
  omega

theorem print_fits (eoverflow : Bool) (off : ℕ) (text : Bytes) (hlen : len ≤ intMax)
    (hb : len ≤ buf.length) (h : off + text.length < len) :
    MsgBuf.print eoverflow len text buf off =
      some (memcpy buf off (text ++ [0]), ((off + text.length : ℕ) : ℤ)) := by
  have hsize : ¬ intMax < len - off := by omega
  have htext : text.length ≤ intMax := by omega
  unfold MsgBuf.print snprintf
  rw [sizeOfInt_sub hlen (by omega), if_neg fun hno => hsize hno.2, if_pos htext,
    if_neg (by omega), List.take_of_length_le (by omega), Int.toNat_natCast, Cells.copy,
    if_pos (by rw [List.length_append, List.length_singleton]; omega), Option.map_some,
    Option.map_some, Nat.cast_add]

theorem take_print (hoff : off ≤ buf.length) (text : Bytes) :
    (memcpy buf off (text ++ [0])).take (off + text.length) = buf.take off ++ text := by
  have htake : (memcpy buf off (text ++ [0])).take (off + (text ++ [0]).length) =
      buf.take off ++ (text ++ [0]) := take_memcpy hoff
  have h := congrArg (List.take (off + text.length)) htake
  rw [List.take_take, Nat.min_eq_left (by simp)] at h
  rw [h, ← List.append_assoc, List.take_left']
  simp [hoff]

theorem vsnprint_fits (eoverflow : Bool) (type : MsgBuf.AtcmdMsgType) (hlen : len ≤ intMax)
    (hb : len ≤ buf.length) (h : text.length + 3 < len) : ∃ buf',
      MsgBuf.atcmdMsgVsnprint eoverflow (some type) buf len text =
        some (buf', ((atcmdMsgVsnprint text).length : ℤ))
      ∧ buf'.length = buf.length
      ∧ buf'.take (atcmdMsgVsnprint text).length = atcmdMsgVsnprint text := by
  have h1 : (bytes "+").length = 1 := rfl
  have h2 : (bytes "\r\n").length = 2 := rfl
  have hmsg : (atcmdMsgVsnprint text).length = 1 + text.length + 2 := by
    rw [atcmdMsgVsnprint, List.length_append, List.length_append, h1, h2]
  set buf₁ := memcpy buf 0 (bytes "+" ++ [0]) with hbuf₁
  have hlen₁ : buf₁.length = buf.length := length_memcpy (by simp [h1]; omega)
  set buf₂ := memcpy buf₁ 1 (text ++ [0]) with hbuf₂
  have hlen₂ : buf₂.length = buf.length := (length_memcpy (by simp; omega)).trans hlen₁
  set buf₃ := memcpy buf₂ (1 + text.length) (bytes "\r\n" ++ [0]) with hbuf₃
  have hlen₃ : buf₃.length = buf.length := (length_memcpy (by simp [h2]; omega)).trans hlen₂
  have htake₁ : buf₁.take 1 = bytes "+" := by
    have := take_print (Nat.zero_le buf.length) (bytes "+")
    simpa [h1] using this
  have htake₂ : buf₂.take (1 + text.length) = bytes "+" ++ text := by
    rw [hbuf₂, take_print (by omega), htake₁]
  have htake₃ : buf₃.take (1 + text.length + 2) = bytes "+" ++ text ++ bytes "\r\n" := by
    have := take_print (show 1 + text.length ≤ buf₂.length by omega) (bytes "\r\n")
    rwa [h2, htake₂] at this
  have hp₁ : MsgBuf.print eoverflow len (bytes "+") buf 0 = some (buf₁, ((1 : ℕ) : ℤ)) :=
    print_fits eoverflow 0 (bytes "+") hlen hb (by omega)
  have hp₂ : MsgBuf.print eoverflow len text buf₁ (1 : ℕ) =
    some (buf₂, ((1 + text.length : ℕ) : ℤ)) :=
      print_fits eoverflow 1 text hlen (hb.trans hlen₁.ge) (by omega)
  have hp₃ : MsgBuf.print eoverflow len (bytes "\r\n") buf₂ (1 + text.length : ℕ) =
    some (buf₃, ((1 + text.length + 2 : ℕ) : ℤ)) :=
      print_fits eoverflow _ (bytes "\r\n") hlen (hb.trans hlen₂.ge) (by omega)
  refine ⟨buf₃, ?_, hlen₃, by rw [hmsg, htake₃, atcmdMsgVsnprint]⟩
  unfold MsgBuf.atcmdMsgVsnprint
  simp only [hp₁, hp₂, hp₃, hmsg, Option.bind_some]

end Print

section Cut

variable {eoverflow : Bool} {buf buf' : List UInt8} {text : Bytes} {off len : ℕ}

theorem print_cut (eoverflow : Bool) (text : Bytes) (hlen : len ≤ intMax)
    (hb : len ≤ buf.length) (htext : text.length ≤ intMax) (hoff : off < len)
    (h : len ≤ off + text.length) :
    ∃ buf', MsgBuf.print eoverflow len text buf off =
        some (buf', ((off + text.length : ℕ) : ℤ))
      ∧ buf'.length = buf.length ∧ buf'[len - 1]? = some 0 := by
  have hsize : ¬ intMax < len - off := by omega
  have htake : (text.take (len - off - 1)).length = len - off - 1 := by
    rw [List.length_take]
    omega
  have hcopy : off + (text.take (len - off - 1) ++ [0]).length = len := by
    rw [List.length_append, htake, List.length_singleton]
    omega
  refine ⟨memcpy buf off (text.take (len - off - 1) ++ [0]), ?_, length_memcpy (by omega), ?_⟩
  · unfold MsgBuf.print snprintf
    rw [sizeOfInt_sub hlen (by omega), if_neg fun hno => hsize hno.2, if_pos htext,
      if_neg (by omega), Int.toNat_natCast, Cells.copy, if_pos (by omega), Option.map_some,
      Option.map_some, Nat.cast_add]
  · have hend : (memcpy buf off (text.take (len - off - 1) ++ [0])).take
        (off + (text.take (len - off - 1) ++ [0]).length) =
          buf.take off ++ (text.take (len - off - 1) ++ [0]) := take_memcpy (hoff.le.trans hb)
    rw [hcopy, ← List.append_assoc] at hend
    have hlast : ((memcpy buf off (text.take (len - off - 1) ++ [0])).take len).getLast? =
        some 0 := by
      rw [hend, List.getLast?_append, List.getLast?_singleton, Option.some_or]
    rw [List.getLast?_eq_getElem?, List.length_take, length_memcpy (by omega),
      Nat.min_eq_left hb, List.getElem?_take_of_lt (by omega)] at hlast
    exact hlast

theorem print_full (htext : text.length ≤ intMax) :
    MsgBuf.print eoverflow len text buf len = some (buf, ((len + text.length : ℕ) : ℤ)) := by
  unfold MsgBuf.print snprintf
  have hsize : sizeOfInt ((len : ℤ) - (len : ℤ)) = 0 := by simp [sizeOfInt]
  rw [hsize, if_neg fun hno => absurd hno.2 (Nat.not_lt_zero _), if_pos htext, if_pos rfl,
    Option.map_some, Nat.cast_add]

/-- Behind the room nothing is written either, or too much. -/
theorem print_over (hoff : len < off) (hover : off ≤ len + intMax) (hb : buf.length ≤ off)
    {ret : ℤ} (h : MsgBuf.print eoverflow len text buf off = some (buf', ret)) :
    buf' = buf ∧ ret = off - 1 := by
  have hsize := sizeOfInt_neg hover hoff
  unfold MsgBuf.print snprintf at h
  by_cases he : eoverflow = true
  · rw [if_pos ⟨he, hsize⟩, Option.map_some, Option.some.injEq, Prod.mk.injEq] at h
    exact ⟨h.1.symm, by rw [← h.2]; rfl⟩
  · have hne : sizeOfInt ((len : ℤ) - (off : ℤ)) ≠ 0 := by omega
    have hout : Cells.copy buf off (text.take (sizeOfInt ((len : ℤ) - (off : ℤ)) - 1) ++ [0]) =
        none := if_neg (by rw [List.length_append, List.length_singleton]; omega)
    rw [if_neg fun hno => he hno.1, if_neg hne, Int.toNat_natCast, hout] at h
    cases h

/-- A print that begins in the room or at its end adds the length of its text. Where the sum leaves
no room, the room ends in a terminator. -/
theorem print_adds {ret : ℤ} (hlen : len ≤ intMax) (hb : len ≤ buf.length)
    (htext : text.length ≤ intMax) (hoff : off ≤ len) (hfull : off = len → buf[len - 1]? = some 0)
    (h : MsgBuf.print eoverflow len text buf off = some (buf', ret)) :
    ret = ((off + text.length : ℕ) : ℤ) ∧ buf'.length = buf.length
      ∧ (len ≤ off + text.length → buf'[len - 1]? = some 0) := by
  obtain rfl | hlt := hoff.eq_or_lt
  · obtain ⟨rfl, rfl⟩ := Prod.mk.inj (Option.some.inj (h.symm.trans (print_full htext)))
    exact ⟨rfl, rfl, fun _ => hfull rfl⟩
  by_cases hfits : off + text.length < len
  · have hp := print_fits eoverflow off text hlen hb hfits
    obtain ⟨rfl, rfl⟩ := Prod.mk.inj (Option.some.inj (h.symm.trans hp))
    refine ⟨rfl, length_memcpy ?_, fun hge => absurd hge (Nat.not_le.2 hfits)⟩
    rw [List.length_append, List.length_singleton]
    omega
  · obtain ⟨b, hp, hlen', h0⟩ := print_cut eoverflow text hlen hb htext hlt (Nat.not_lt.1 hfits)
    obtain ⟨rfl, rfl⟩ := Prod.mk.inj (Option.some.inj (h.symm.trans hp))
    exact ⟨rfl, hlen', fun _ => h0⟩

theorem not_ofMessage {ret : ℕ} (h0 : buf[len - 1]? = some 0) (hpos : 0 < len) (hret : len ≤ ret)
    (hb : ret ≤ buf.length) (hle : ret ≤ len + 1) : ¬ OfMessage text (buf.take ret) := by
  rintro ⟨-, hend⟩
  have hlen : (buf.take ret).length = ret := by rw [List.length_take]; omega
  obtain ⟨s, hs⟩ := hend (List.ne_nil_of_length_pos (by omega))
  have hslen := congrArg List.length hs
  rw [List.length_append, hlen, show (bytes "\r\n").length = 2 from rfl] at hslen
  have hcell : (buf.take ret)[len - 1]? = some 0 := by rw [List.getElem?_take_of_lt (by omega), h0]
  rw [← hs, List.getElem?_append_right (by omega)] at hcell
  obtain hi | hi : len - 1 - s.length = 0 ∨ len - 1 - s.length = 1 := by omega
  · rw [hi] at hcell
    exact absurd hcell (by decide)
  · rw [hi] at hcell
    exact absurd hcell (by decide)

end Cut

section Result

variable {eoverflow : Bool} {buf buf' : List UInt8} {text : Bytes} {len : ℕ} {ret : ℤ}

theorem print_length {off : ℤ} (h : MsgBuf.print eoverflow len text buf off = some (buf', ret)) :
    buf'.length = buf.length := by
  unfold MsgBuf.print snprintf at h
  rw [Option.map_eq_some_iff] at h
  obtain ⟨⟨b, n⟩, hb, heq⟩ := h
  cases heq
  simp only at hb
  split_ifs at hb
  · cases hb
    rfl
  · cases hb
    rfl
  · cases hb
    rfl
  all_goals
    obtain ⟨b, hb, heq⟩ := Option.map_eq_some_iff.1 hb
    obtain ⟨hle, rfl⟩ := Cells.copy_eq_some.1 hb
    cases heq
    exact length_memcpy hle

theorem vsnprint_length {type : MsgBuf.AtcmdMsgType}
    (h : MsgBuf.atcmdMsgVsnprint eoverflow (some type) buf len text = some (buf', ret)) :
    buf'.length = buf.length := by
  unfold MsgBuf.atcmdMsgVsnprint at h
  obtain ⟨⟨buf₁, ret₁⟩, hp₁, h⟩ := Option.bind_eq_some_iff.1 h
  obtain ⟨⟨buf₂, ret₂⟩, hp₂, hp₃⟩ := Option.bind_eq_some_iff.1 h
  rw [print_length hp₃, print_length hp₂, print_length hp₁]

/-- The length of a text is an error if an `int` cannot tell it. -/
theorem print_huge {off : ℕ} (htext : intMax < text.length)
    (h : MsgBuf.print eoverflow len text buf off = some (buf', ret)) : ret = off - 1 := by
  unfold MsgBuf.print snprintf at h
  by_cases hover : eoverflow = true ∧ intMax < sizeOfInt ((len : ℤ) - (off : ℤ))
  · rw [if_pos hover] at h
    cases h
    rfl
  rw [if_neg hover, if_neg (Nat.not_le.2 htext)] at h
  by_cases hsize : sizeOfInt ((len : ℤ) - (off : ℤ)) = 0
  · rw [if_pos hsize] at h
    cases h
    rfl
  · rw [if_neg hsize, Option.map_map, Option.map_eq_some_iff] at h
    obtain ⟨b, -, heq⟩ := h
    cases heq
    rfl

theorem vsnprint_zero (type : MsgBuf.AtcmdMsgType) (hb : buf.length ≤ 1)
    (h : MsgBuf.atcmdMsgVsnprint eoverflow (some type) buf (0 : ℕ) text = some (buf', ret)) :
    ret = 2 := by
  unfold MsgBuf.atcmdMsgVsnprint at h
  have hp₁ : MsgBuf.print eoverflow (0 : ℕ) (bytes "+") buf 0 = some (buf, ((1 : ℕ) : ℤ)) :=
    print_full (by decide)
  simp only [hp₁, Option.bind_some] at h
  obtain ⟨⟨buf₂, ret₂⟩, hp₂, hp₃⟩ := Option.bind_eq_some_iff.1 h
  obtain ⟨rfl, rfl⟩ := print_over Nat.one_pos (by unfold intMax; omega) hb hp₂
  have hp : MsgBuf.print eoverflow (0 : ℕ) (bytes "\r\n") buf₂ 0 = some (buf₂, ((2 : ℕ) : ℤ)) :=
    print_full (by decide)
  have hret : (((1 : ℕ) : ℤ) - 1) = 0 := rfl
  simp only [hret, hp, Option.some.injEq, Prod.mk.injEq] at hp₃
  exact hp₃.2.symm

/-- After a message that is not shorter than the room the last cell of it is a terminator, and the
sum counts all of the room at least. -/
theorem vsnprint_cut (type : MsgBuf.AtcmdMsgType) (hlen : len ≤ intMax) (hpos : 0 < len)
    (hb : len ≤ buf.length) (hb' : buf.length ≤ len + 1) (htext : text.length ≤ intMax)
    (hcut : len ≤ text.length + 3)
    (h : MsgBuf.atcmdMsgVsnprint eoverflow (some type) buf len text = some (buf', ret)) :
    ∃ n : ℕ, ret = n ∧ buf'.length = buf.length ∧ len ≤ n ∧ buf'[len - 1]? = some 0 := by
  unfold MsgBuf.atcmdMsgVsnprint at h
  obtain ⟨⟨buf₁, ret₁⟩, hp₁, h⟩ := Option.bind_eq_some_iff.1 h
  obtain ⟨⟨buf₂, ret₂⟩, hp₂, hp₃⟩ := Option.bind_eq_some_iff.1 h
  simp only at hp₂ hp₃
  obtain ⟨rfl, hlen₁, h0₁⟩ := print_adds hlen hb (show (bytes "+").length ≤ intMax by decide)
    (Nat.zero_le len) (fun h => absurd h hpos.ne) hp₁
  have hplus : 0 + (bytes "+").length = 1 := rfl
  rw [hplus] at hp₂ h0₁
  obtain ⟨rfl, hlen₂, h0₂⟩ := print_adds hlen (hb.trans hlen₁.ge) htext hpos
    (fun h => h0₁ h.ge) hp₂
  have hlen' := hlen₂.trans hlen₁
  rcases Nat.lt_or_ge len (1 + text.length) with hover | hroom
  · obtain ⟨rfl, rfl⟩ := print_over hover (by omega) (by omega) hp₃
    exact ⟨text.length, by omega, hlen', by omega, h0₂ hover.le⟩
  · obtain ⟨rfl, hlen₃, h0₃⟩ := print_adds hlen (hb.trans hlen'.ge)
      (show (bytes "\r\n").length ≤ intMax by decide) hroom (fun h => h0₂ h.ge) hp₃
    have hcrlf : (bytes "\r\n").length = 2 := rfl
    rw [hcrlf] at h0₃ ⊢
    exact ⟨_, rfl, hlen₃.trans hlen', by omega, h0₃ (by omega)⟩

end Result

section Iff

variable {eoverflow : Bool} {buf buf' : List UInt8} {text : Bytes} {len : ℕ} {ret : ℤ}

/-- Of a text whose length is an error only the end of the message is in the buffer. -/
theorem vsnprint_huge (type : MsgBuf.AtcmdMsgType) (hlen : len ≤ intMax) (hpos : 0 < len)
    (hb : len ≤ buf.length) (htext : intMax < text.length)
    (h : MsgBuf.atcmdMsgVsnprint eoverflow (some type) buf len text = some (buf', ret)) :
    ret = (2 : ℕ) ∧ buf'.length = buf.length
      ∧ (buf'.take 2 = bytes "\r\n" ∨ len ≤ 2 ∧ buf'[len - 1]? = some 0) := by
  unfold MsgBuf.atcmdMsgVsnprint at h
  obtain ⟨⟨buf₁, ret₁⟩, hp₁, h⟩ := Option.bind_eq_some_iff.1 h
  obtain ⟨⟨buf₂, ret₂⟩, hp₂, hp₃⟩ := Option.bind_eq_some_iff.1 h
  simp only at hp₂ hp₃
  obtain ⟨rfl, hlen₁, -⟩ := print_adds hlen hb (show (bytes "+").length ≤ intMax by decide)
    (Nat.zero_le len) (fun h => absurd h hpos.ne) hp₁
  have hlen₂ := print_length hp₂
  obtain rfl := print_huge htext hp₂
  have hb₂ : len ≤ buf₂.length := by omega
  by_cases h2 : 2 < len
  · have hp := print_fits eoverflow 0 (bytes "\r\n") hlen hb₂ h2
    obtain ⟨rfl, rfl⟩ := Prod.mk.inj (Option.some.inj (hp₃.symm.trans hp))
    refine ⟨rfl, (length_memcpy (show 0 + 3 ≤ buf₂.length by omega)).trans (hlen₂.trans hlen₁),
      Or.inl ?_⟩
    exact take_print (Nat.zero_le _) (bytes "\r\n")
  · have hp : MsgBuf.print eoverflow len (bytes "\r\n") buf₂ (0 : ℕ) = some (buf', ret) := hp₃
    obtain ⟨rfl, hlen₃, h0⟩ := print_adds hlen hb₂ (show (bytes "\r\n").length ≤ intMax by decide)
      (Nat.zero_le len) (fun h => absurd h hpos.ne) hp
    exact ⟨rfl, hlen₃.trans (hlen₂.trans hlen₁), Or.inr ⟨by omega, h0 (show len ≤ 0 + 2 by omega)⟩⟩

theorem vsnprint_not_ofMessage (type : MsgBuf.AtcmdMsgType) (hlen : len ≤ intMax)
    (hb : len ≤ buf.length) (hb' : buf.length ≤ len + 1) (hcut : len ≤ text.length + 3)
    (h : MsgBuf.atcmdMsgVsnprint eoverflow (some type) buf len text = some (buf', ret))
    (hret : ret ≤ buf.length) : ¬ OfMessage text (buf'.take ret.toNat) := by
  rcases Nat.eq_zero_or_pos len with rfl | hpos
  · have := vsnprint_zero type hb' h
    omega
  by_cases htext : text.length ≤ intMax
  · obtain ⟨n, rfl, hlen', hle, h0⟩ := vsnprint_cut type hlen hpos hb hb' htext hcut h
    exact not_ofMessage h0 hpos hle (by omega) (by omega)
  · obtain ⟨rfl, hlen', htake | ⟨h2, h0⟩⟩ :=
      vsnprint_huge type hlen hpos hb (Nat.not_le.1 htext) h
    · rintro ⟨hpre, -⟩
      rw [Int.toNat_natCast, htake] at hpre
      obtain ⟨t, ht⟩ := hpre
      have := congrArg List.head? ht
      simp [atcmdMsgVsnprint, bytes] at this
    · exact not_ofMessage h0 hpos h2 (by omega) (by omega)

theorem vsnprint_ofMessage (eoverflow : Bool) {type : Option MsgBuf.AtcmdMsgType} (len : ℕ)
    (hlen : len ≤ intMax) (hb : len ≤ buf.length) (h : type = none ∨ text.length + 3 < len) :
    ∃ buf' ret, MsgBuf.atcmdMsgVsnprint eoverflow type buf len text = some (buf', ret)
      ∧ 0 ≤ ret ∧ ret ≤ len ∧ buf'.length = buf.length ∧ OfMessage text (buf'.take ret.toNat) := by
  rcases type with _ | type
  · refine ⟨buf, 0, rfl, Int.le_refl 0, by omega, rfl, List.nil_prefix, fun hne => absurd rfl hne⟩
  · have h := h.resolve_left (by simp)
    obtain ⟨buf', heq, hlen', htake⟩ := vsnprint_fits eoverflow type hlen hb h
    have hmsg : (atcmdMsgVsnprint text).length = 1 + text.length + 2 := by
      rw [atcmdMsgVsnprint, List.length_append, List.length_append]
      rfl
    refine ⟨buf', _, heq, by omega, by omega, hlen', ?_⟩
    rw [Int.toNat_natCast, htake]
    exact ⟨List.prefix_rfl, fun _ => List.suffix_append _ _⟩

/-- A message is printed and transmitted inside of the buffers exactly if it is shorter than what
they have room for, or there is none. -/
theorem msg_print_iff (eoverflow : Bool) (type : Option MsgBuf.AtcmdMsgType) (text : Bytes)
    {buf stack : List UInt8} (hbuf : buf.length ≤ intMax) (hstack : stack.length = 129) :
    (Printed eoverflow type buf text ↔ type = none ∨ text.length + 3 < buf.length)
      ∧ (Transmitted eoverflow type stack text ↔ type = none ∨ text.length + 3 < 128) := by
  have hlen : ((stack.length : ℤ) - 1) = (128 : ℕ) := by omega
  constructor
  · constructor
    · rintro ⟨buf', ret, heq, -, hret, hof⟩
      rcases type with _ | type
      · exact Or.inl rfl
      · refine Or.inr (Nat.lt_of_not_le fun hcut => ?_)
        exact vsnprint_not_ofMessage type hbuf (Nat.le_refl _) (Nat.le_succ _) hcut heq hret hof
    · intro h
      obtain ⟨buf', ret, heq, h0, hle, -, hof⟩ :=
        vsnprint_ofMessage eoverflow buf.length hbuf (Nat.le_refl _) h
      exact ⟨buf', ret, heq, h0, hle, hof⟩
  · unfold Transmitted MsgBuf.atcmdMsgPrint
    rw [hlen]
    constructor
    · rintro ⟨out, heq, hof⟩
      obtain ⟨⟨buf', ret⟩, hv, hout⟩ := Option.bind_eq_some_iff.1 heq
      rcases type with _ | type
      · exact Or.inl rfl
      have hlen' := vsnprint_length hv
      simp only at hout
      split_ifs at hout with hret
      · refine Or.inr (Nat.lt_of_not_le fun hcut => ?_)
        cases hout
        exact vsnprint_not_ofMessage type (show 128 ≤ intMax by decide) (by omega) (by omega) hcut
          hv (by omega) hof
    · intro h
      obtain ⟨buf', ret, heq, h0, hle, hlen', hof⟩ := vsnprint_ofMessage eoverflow 128
        (by decide) (show 128 ≤ stack.length by omega) h
      refine ⟨_, ?_, hof⟩
      rw [heq, Option.bind_some]
      exact if_pos (by omega)

end Iff

theorem msg_print_iff_info :
    (Printed true (some .info) (List.replicate 64 0) (bytes "SVER:3") ↔
        (some MsgBuf.AtcmdMsgType.info = none)
          ∨ (bytes "SVER:3").length + 3 < (List.replicate 64 (0 : UInt8)).length)
      ∧ (Transmitted true (some .info) (List.replicate 129 0) (bytes "SVER:3") ↔
        (some MsgBuf.AtcmdMsgType.info = none) ∨ (bytes "SVER:3").length + 3 < 128) :=
  msg_print_iff true (some .info) (bytes "SVER:3") (by decide) (by decide)

/-- The line of a network found with a long name and many flags. -/
def scanText : Bytes :=
  bytes "WSCAN:\"02:00:eb:12:34:56\",924.5@4,-48," ++
    bytes "\"[WPA-PSK-CCMP+TKIP][WPA2-PSK+SAE-CCMP+TKIP][WPS][ESS][P2P]\"," ++
      bytes "\"An access point with a long name\""

/-- The line of a network found is not read from inside of the buffer. -/
theorem msg_print_outside :
    ¬ Transmitted true (some .info) (List.replicate 129 0) scanText
      ∧ ¬ Transmitted false (some .info) (List.replicate 129 0) scanText := by
  have hnone : ∀ eoverflow, MsgBuf.atcmdMsgPrint eoverflow (some .info) (List.replicate 129 0)
      scanText = none := by decide +kernel
  constructor
  · rintro ⟨out, heq, -⟩
    rw [hnone] at heq
    cases heq
  · rintro ⟨out, heq, -⟩
    rw [hnone] at heq
    cases heq

end NrcAtcmd
