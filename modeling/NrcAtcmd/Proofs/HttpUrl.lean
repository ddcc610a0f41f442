import NrcAtcmd.HttpUrl
import NrcAtcmd.ParamStore

/-!
# A colon belongs to the port

`httpc_parse_url` looks for the first colon and the first slash of a URL on their own, and takes
what is between them for the port. A colon in the path makes that length negative, and a port is
copied however long it is.
-/

namespace NrcAtcmd

open Cells (Buffer)
open Checked
open ParamStore (CStr)

/-- `scheme://host[:port][/path]`. -/
structure HttpUrl where
  scheme : HttpScheme
  host : Bytes
  port : Option Bytes
  path : Option Bytes
  host_colon : 58 ∉ host
  host_slash : 47 ∉ host
  port_slash : ∀ p ∈ port, 47 ∉ p
  path_slash : ∀ p ∈ path, ∃ w, p = 47 :: w

namespace HttpUrl

/-- The scheme with what separates it from the host. -/
def schemeText : HttpScheme → Bytes
  | .http => bytes "http://"
  | .https => bytes "https://"

/-- What follows the scheme. -/
def rest (u : HttpUrl) : Bytes := u.host ++ u.port.elim [] (58 :: ·) ++ u.path.getD []

/-- The URL as it is written. -/
def text (u : HttpUrl) : Bytes := schemeText u.scheme ++ u.rest

/-- The outputs of `httpc_parse_url` are the parts of the URL. -/
structure Parsed (u : HttpUrl) (info : HttpInfo) : Prop where
  host : info.host.str = some u.host
  port : info.port.str = some (u.port.getD (defaultPort u.scheme))
  uri : info.uri.str = some (u.path.getD (bytes "/"))

theorem findIdx?_append {u w : Bytes} {c : UInt8} (h : c ∉ u) :
    (u ++ c :: w).findIdx? (· == c) = some u.length := by
  induction u with
  | nil => simp [List.findIdx?_cons]
  | cons x u ih =>
    rw [List.mem_cons, not_or] at h
    rw [List.cons_append, List.findIdx?_cons, ih h.2]
    simp [Ne.symm h.1]

theorem findIdx?_of_notMem {u : Bytes} {c : UInt8} (h : c ∉ u) : u.findIdx? (· == c) = none := by
  rw [List.findIdx?_eq_none_iff]
  intro x hx
  simpa using fun h0 : x = c => h (h0 ▸ hx)

/-- A string with the character, taken apart at the first one. -/
theorem split_of_mem {s : Bytes} {c : UInt8} (h : c ∈ s) : ∃ u w, s = u ++ c :: w ∧ c ∉ u := by
  induction s with
  | nil => cases h
  | cons x s ih =>
    by_cases hx : x = c
    · exact ⟨[], s, by rw [hx, List.nil_append], by simp⟩
    · obtain ⟨u, w, rfl, hu⟩ := ih ((List.mem_cons.1 h).resolve_left (Ne.symm hx))
      exact ⟨x :: u, w, rfl, by simpa [Ne.symm hx] using hu⟩

/-! ## The copies -/

variable {n : ℕ}

/-- A part of the URL is copied. -/
theorem memcpy_eq (dst : Buffer UInt8 n) {u s w : Bytes} {off : ℕ} {len : ℤ} (hu : u.length = off)
    (hlen : len = s.length) : memcpy dst (u ++ s ++ w) off len = dst.copy 0 s := by
  have hread : Memory.read (u ++ s ++ w ++ [0]) off s.length = s := by
    rw [Memory.read, ← hu, List.append_assoc, List.append_assoc, List.drop_left, List.take_left]
  unfold memcpy
  simp only [Option.bind_eq_bind]
  rw [hlen, size_natCast, Option.bind_some, Cells.fetch_of_le (by simp; omega), Option.bind_some,
    hread]

theorem memcpy_of_neg (dst : Buffer UInt8 n) (url : Bytes) (off : ℕ) {len : ℤ} (h : len < 0) :
    memcpy dst url off len = none := by
  unfold memcpy
  rw [size_of_neg h]
  rfl

/-- The end of the URL is copied. -/
theorem strncpy_eq (dst : Buffer UInt8 n) {u s : Bytes} {off : ℕ} {len : ℤ} (hu : u.length = off)
    (hlen : len = s.length) : strncpy dst (u ++ s) off len = dst.copy 0 s := by
  unfold strncpy
  simp only [Option.bind_eq_bind]
  rw [hlen, size_natCast, Option.bind_some, ← hu, List.drop_left, List.take_length, Nat.sub_self,
    List.replicate_zero, List.append_nil]

/-- The terminator behind what was copied. -/
theorem terminate {b : Buffer UInt8 n} {s : Bytes} (hs : 0 ∉ s) (h : s.length < n)
    (hb : b.cells = s ++ List.replicate (n - s.length) 0) :
    ∃ b', b.copy s.length [0] = some b' ∧ b'.str = some s := by
  obtain ⟨b', hb', hcells⟩ := b.copy_of_le (i := s.length) (s := [0]) (Nat.succ_le_of_lt h)
  refine ⟨b', hb', Buffer.str_of_cells hs (w := List.replicate (n - s.length - 1) 0) ?_⟩
  rw [hcells, hb, Memory.memcpy_append rfl, List.append_assoc]
  simp

theorem setHost_eq (info : HttpInfo) {u s w : Bytes} {off : ℕ} {len : ℤ} (hs : 0 ∉ s)
    (hu : u.length = off) (hlen : len = s.length) (h : s.length < 128) :
    ∃ b, setHost (u ++ s ++ w) off len info = some { info with host := b } ∧ b.str = some s := by
  obtain ⟨b, hb, hcells⟩ := info.host.copy_fill h.le
  obtain ⟨b', hb', hstr⟩ := terminate hs h hcells
  unfold setHost
  simp only [Option.bind_eq_bind]
  rw [memcpy_eq _ hu hlen, hb, Option.bind_some, hlen, Int.toNat_natCast, hb', Option.bind_some]
  exact ⟨b', rfl, hstr⟩

theorem setUri_eq (info : HttpInfo) {u s : Bytes} {uri : ℕ} (hs : 0 ∉ s) (hu : u.length = uri)
    (h : s.length < 1024) :
    ∃ b, setUri (u ++ s) uri info = some (.ok, { info with uri := b }) ∧ b.str = some s := by
  have hlen : ((u ++ s).length : ℤ) - uri = s.length := by
    rw [List.length_append]
    omega
  obtain ⟨b, hb, hcells⟩ := info.uri.copy_fill h.le
  obtain ⟨b', hb', hstr⟩ := terminate hs h hcells
  have hmem := memcpy_eq (info.uri.fill 0) (w := []) hu (rfl : (s.length : ℤ) = s.length)
  rw [List.append_nil] at hmem
  unfold setUri
  simp only [Option.bind_eq_bind, hlen]
  rw [if_neg (by omega), hmem, hb, Option.bind_some, Int.toNat_natCast, hb', Option.bind_some]
  exact ⟨b', rfl, hstr⟩

theorem setUri_of_le (info : HttpInfo) {u s : Bytes} {uri : ℕ} (hu : u.length = uri)
    (h : 1024 ≤ s.length) : setUri (u ++ s) uri info = some (.errorAllocFail, info) := by
  have hlen : ((u ++ s).length : ℤ) - uri = s.length := by
    rw [List.length_append]
    omega
  unfold setUri
  simp only [hlen]
  rw [if_pos (by omega)]

theorem setRoot_eq (info : HttpInfo) :
    ∃ b, setRoot info = some (.ok, { info with uri := b }) ∧ b.str = some (bytes "/") := by
  obtain ⟨b, hb, hcells⟩ := info.uri.copy_fill (s := bytes "/") (by decide)
  obtain ⟨b', hb', hstr⟩ := terminate (s := bytes "/") (by decide) (by decide) hcells
  have hlen : (bytes "/").length = 1 := rfl
  rw [hlen] at hb'
  unfold setRoot
  simp only [Option.bind_eq_bind]
  rw [hb, Option.bind_some, hb', Option.bind_some]
  exact ⟨b', rfl, hstr⟩

theorem defaultPort_eq (info : HttpInfo) :
    ∃ b, info.port.copy 0 (defaultPort info.scheme ++ [0]) = some b
      ∧ b.str = some (defaultPort info.scheme) := by
  have hplain : 0 ∉ defaultPort info.scheme := by cases info.scheme <;> decide
  have hlen : (defaultPort info.scheme ++ [0]).length ≤ 6 := by cases info.scheme <;> decide
  obtain ⟨b, hb, hcells⟩ := info.port.copy_of_le (i := 0) (s := defaultPort info.scheme ++ [0])
    (by rwa [Nat.zero_add])
  refine ⟨b, hb, Buffer.str_of_cells hplain
    (w := info.port.cells.drop (defaultPort info.scheme ++ [0]).length) ?_⟩
  rw [hcells, Memory.memcpy, List.take_zero, List.nil_append, Nat.zero_add, List.append_assoc]
  rfl

/-! ## The parts -/

/-- A text is empty, or begins with a character. -/
def Opens (c : UInt8) (s : Bytes) : Prop := s = [] ∨ ∃ w, s = c :: w

theorem span_of_opens {u s : Bytes} {c : UInt8} (h : c ∉ u) (hs : Opens c s) :
    (u ++ s).takeWhile (· ≠ c) = u ∧ (u ++ s).dropWhile (· ≠ c) = s := by
  have hall : ∀ x ∈ u, decide (x ≠ c) = true := fun x hx => by
    simpa using fun h0 : x = c => h (h0 ▸ hx)
  rw [List.takeWhile_append_of_pos hall, List.dropWhile_append_of_pos hall]
  rcases hs with rfl | ⟨w, rfl⟩ <;> simp

theorem append_inj {u v s t : Bytes} {c : UInt8} (hu : c ∉ u) (hv : c ∉ v) (hs : Opens c s)
    (ht : Opens c t) (h : u ++ s = v ++ t) : u = v ∧ s = t := by
  have hspan := span_of_opens hu hs
  rw [h] at hspan
  exact ⟨hspan.1.symm.trans (span_of_opens hv ht).1, hspan.2.symm.trans (span_of_opens hv ht).2⟩

theorem authority_slash (u : HttpUrl) : 47 ∉ u.host ++ u.port.elim [] (58 :: ·) := by
  rw [List.mem_append, not_or]
  refine ⟨u.host_slash, ?_⟩
  rcases hp : u.port with _ | p
  · exact List.not_mem_nil
  · exact fun h => (List.mem_cons.1 h).elim (by decide) (u.port_slash p hp)

theorem port_opens (u : HttpUrl) : Opens 58 (u.port.elim [] (58 :: ·)) := by
  rcases u.port with _ | p
  · exact .inl rfl
  · exact .inr ⟨p, rfl⟩

theorem path_opens (u : HttpUrl) : Opens 47 (u.path.getD []) := by
  rcases hp : u.path with _ | p
  · exact .inl rfl
  · exact .inr (u.path_slash p hp)

/-- What follows the scheme is written in one way. -/
theorem eq_of_rest {u v : HttpUrl} (h : u.rest = v.rest) :
    u.host = v.host ∧ u.port = v.port ∧ u.path = v.path := by
  obtain ⟨hauth, hpath⟩ :=
    append_inj u.authority_slash v.authority_slash u.path_opens v.path_opens h
  obtain ⟨hhost, hport⟩ := append_inj u.host_colon v.host_colon u.port_opens v.port_opens hauth
  refine ⟨hhost, ?_, ?_⟩
  · cases hu : u.port <;> cases hv : v.port <;> rw [hu, hv] at hport <;> cases hport
    rfl
  · rcases hu : u.path with _ | p <;> rcases hv : v.path with _ | q
    · rfl
    · obtain ⟨w, rfl⟩ := v.path_slash q hv
      rw [hu, hv] at hpath
      cases hpath
    · obtain ⟨w, rfl⟩ := u.path_slash p hu
      rw [hu, hv] at hpath
      cases hpath
    · rw [hu, hv] at hpath
      exact congrArg some hpath

theorem Parsed.of_rest {u v : HttpUrl} {info : HttpInfo} (h : Parsed u info)
    (hs : v.scheme = u.scheme) (hr : v.rest = u.rest) : Parsed v info := by
  obtain ⟨hhost, hport, hpath⟩ := eq_of_rest hr
  exact ⟨by rw [hhost, h.host], by rw [hport, hs, h.port], by rw [hpath, h.uri]⟩

/-! ## The first colon and the first slash -/

/-- The colon that is found is not in the path, and the port has room; or what is too long is
refused before the port is used. -/
def RestFits (rest : Bytes) : Prop :=
  ∀ c ∈ rest.findIdx? (· == 58), c < 128 →
    match rest.findIdx? (· == 47) with
    | some s => c < s ∧ (s - c ≤ 6 ∨ (s - c = 7 ∧ 1024 ≤ rest.length - s))
    | none => rest.length - c ≤ 6

/-- The same without room for the terminator of the port. -/
def RestCopies (rest : Bytes) : Prop :=
  ∀ c ∈ rest.findIdx? (· == 58), c < 128 →
    match rest.findIdx? (· == 47) with
    | some s => c < s ∧ s - c ≤ 7
    | none => rest.length - c ≤ 7

theorem RestFits.copies {rest : Bytes} (h : RestFits rest) : RestCopies rest := by
  intro c hc hlt
  have hfit := h c hc hlt
  revert hfit
  rcases rest.findIdx? (· == 47) with _ | s
  · exact Nat.le_succ_of_le
  · rintro ⟨hslash, hport⟩
    exact ⟨hslash, by omega⟩

theorem restFits_of_notMem {rest : Bytes} (h : 58 ∉ rest) : RestFits rest := by
  intro c hc
  rw [findIdx?_of_notMem h] at hc
  cases hc

theorem restFits_of_long {h r : Bytes} (hcolon : 58 ∉ h) (hfit : 128 ≤ h.length) :
    RestFits (h ++ 58 :: r) := by
  intro c hc hlt
  rw [findIdx?_append hcolon, Option.mem_some_iff] at hc
  omega

/-- A colon and no slash: what is behind the colon is the port. -/
theorem rest_port {h r : Bytes} (hcolon : 58 ∉ h) (hslash : 47 ∉ h ++ 58 :: r)
    (hfit : h.length < 128) :
    (RestFits (h ++ 58 :: r) ↔ r.length ≤ 5) ∧ (RestCopies (h ++ 58 :: r) ↔ r.length ≤ 6) := by
  unfold RestFits RestCopies
  simp only [findIdx?_append hcolon, findIdx?_of_notMem hslash, Option.mem_some_iff, forall_eq',
    hfit, true_implies, List.length_append, List.length_cons]
  omega

theorem findIdx?_port {h p w : Bytes} (hslash : 47 ∉ h) (hport : 47 ∉ p) :
    (h ++ 58 :: (p ++ 47 :: w)).findIdx? (· == 47) = some (h ++ 58 :: p).length := by
  rw [← List.cons_append, ← List.append_assoc]
  exact findIdx?_append (by simp [hslash, hport])

/-- A colon before the slash: the port is between them. -/
theorem rest_port_path {h p w : Bytes} (hcolon : 58 ∉ h) (hslash : 47 ∉ h) (hport : 47 ∉ p)
    (hfit : h.length < 128) :
    (RestFits (h ++ 58 :: (p ++ 47 :: w)) ↔
        p.length ≤ 5 ∨ (p.length = 6 ∧ 1024 ≤ (47 :: w).length))
      ∧ (RestCopies (h ++ 58 :: (p ++ 47 :: w)) ↔ p.length ≤ 6) := by
  unfold RestFits RestCopies
  simp only [findIdx?_append hcolon, findIdx?_port hslash hport, Option.mem_some_iff, forall_eq',
    hfit, true_implies, List.length_append, List.length_cons]
  omega

theorem findIdx?_path {h w r : Bytes} (hslash : 47 ∉ h) :
    (h ++ 47 :: w ++ 58 :: r).findIdx? (· == 47) = some h.length := by
  rw [List.append_assoc]
  exact findIdx?_append hslash

/-- A slash before the colon. -/
theorem not_restCopies {h w r : Bytes} (hcolon : 58 ∉ h ++ 47 :: w) (hslash : 47 ∉ h)
    (hfit : (h ++ 47 :: w).length < 128) : ¬ RestCopies (h ++ 47 :: w ++ 58 :: r) := by
  unfold RestCopies
  simp only [findIdx?_append hcolon, findIdx?_path hslash, Option.mem_some_iff, forall_eq']
  rw [List.length_append] at hfit ⊢
  omega

theorem strchr_eq {u rest : Bytes} {off : ℕ} (hu : u.length = off) (c : UInt8) :
    strchr (u ++ rest) off c = (rest.findIdx? (· == c)).map (off + ·) := by
  rw [strchr, ← hu, List.drop_left]

open scoped Classical in
/-- All copies of `httpc_parse_url` are inside. A success is the text taken apart, but a port that
does not fit has no terminator. -/
def RestCopied (url : Bytes) (off : ℕ) (rest : Bytes) (info : HttpInfo) : Prop :=
  ∃ ret info', parseHost url off info = some (ret, info') ∧
    if ret = .ok then
      info'.scheme = info.scheme ∧ ∃ u : HttpUrl, u.scheme = info.scheme ∧ u.rest = rest
        ∧ info'.host.str = some u.host
        ∧ info'.port.str = (if RestFits rest then some (u.port.getD (defaultPort u.scheme)) else none)
        ∧ info'.uri.str = some (u.path.getD (bytes "/"))
    else RestFits rest

variable {pre rest : Bytes} {off : ℕ} {info : HttpInfo}

/-- Neither a colon nor a slash: all of it is the host. -/
theorem parseHost_host (hpre : pre.length = off) (hoff : off = if info.scheme = .http then 7 else 8)
    (h0 : 0 ∉ rest) (hcolon : 58 ∉ rest) (hslash : 47 ∉ rest) :
    RestCopied (pre ++ rest) off rest info := by
  obtain ⟨port, hport, hportStr⟩ := defaultPort_eq info
  have hfits := restFits_of_notMem hcolon
  have hlen : ((pre ++ rest).length : ℤ) - (if info.scheme = .http then 7 else 8) =
      rest.length := by
    rw [List.length_append]
    split_ifs at hoff ⊢ <;> omega
  unfold RestCopied parseHost
  simp only [strchr_eq hpre, findIdx?_of_notMem hcolon, findIdx?_of_notMem hslash, Option.map_none,
    Option.bind_eq_bind, hport, Option.bind_some, hlen]
  by_cases hfit : 128 < (rest.length : ℤ) + 1
  · rw [if_pos hfit]
    exact ⟨_, _, rfl, hfits⟩
  · rw [if_neg hfit, strncpy_eq _ hpre rfl]
    obtain ⟨b, hb, hcells⟩ := info.host.copy_fill (s := rest) (by omega)
    obtain ⟨b', hb', hstr⟩ := terminate h0 (by omega) hcells
    rw [hb, Option.bind_some, Int.toNat_natCast, hb', Option.bind_some]
    obtain ⟨uri, huri, huriStr⟩ := setRoot_eq { info with host := b', port := port }
    rw [huri]
    let u : HttpUrl := ⟨info.scheme, rest, none, none, hcolon, hslash, by simp, by simp⟩
    refine ⟨_, _, rfl, rfl, u, rfl, by simp [u, HttpUrl.rest], hstr, ?_, huriStr⟩
    rw [if_pos hfits]
    exact hportStr

/-- A slash and no colon: the host is before the slash. -/
theorem parseHost_path {h w : Bytes} (hpre : pre.length = off) (h0 : 0 ∉ h ++ 47 :: w)
    (hcolon : 58 ∉ h ++ 47 :: w) (hslash : 47 ∉ h) :
    RestCopied (pre ++ (h ++ 47 :: w)) off (h ++ 47 :: w) info := by
  obtain ⟨port, hport, hportStr⟩ := defaultPort_eq info
  have hfits := restFits_of_notMem hcolon
  have hhost : 0 ∉ h ∧ 0 ∉ 47 :: w := by rwa [List.mem_append, not_or] at h0
  have hlen : ((off + h.length : ℕ) : ℤ) - off = h.length := by omega
  unfold RestCopied parseHost
  simp only [strchr_eq hpre, findIdx?_of_notMem hcolon, findIdx?_append hslash, Option.map_none,
    Option.map_some, Option.bind_eq_bind, hport, Option.bind_some, hlen]
  by_cases hfit : 128 < (h.length : ℤ) + 1
  · rw [if_pos hfit]
    exact ⟨_, _, rfl, hfits⟩
  rw [if_neg hfit]
  obtain ⟨b, hb, hstr⟩ := setHost_eq { info with port := port } (w := 47 :: w) hhost.1 hpre rfl
    (by omega)
  rw [← List.append_assoc, hb, Option.bind_some]
  have hoff : (pre ++ h).length = off + h.length := by rw [List.length_append, hpre]
  by_cases huri : (47 :: w).length < 1024
  · obtain ⟨uri, hset, huriStr⟩ := setUri_eq { info with host := b, port := port } hhost.2 hoff huri
    rw [hset]
    rw [List.mem_append, not_or] at hcolon
    let u : HttpUrl := ⟨info.scheme, h, none, some (47 :: w), hcolon.1, hslash, by simp,
      fun p hp => ⟨w, (Option.some.inj hp).symm⟩⟩
    refine ⟨_, _, rfl, rfl, u, rfl, by simp [u, HttpUrl.rest], hstr, ?_, huriStr⟩
    rw [if_pos hfits]
    exact hportStr
  · rw [setUri_of_le _ hoff (Nat.not_lt.1 huri)]
    exact ⟨_, _, rfl, hfits⟩

/-- The host before a colon, if it has room. -/
theorem parseHost_colon (info : HttpInfo) {h : Bytes} (r : Bytes) (hpre : pre.length = off)
    (hhost : 0 ∉ h) (hcolon : 58 ∉ h) (hfit : h.length < 128) : ∃ b, b.str = some h ∧
      parseHost (pre ++ (h ++ 58 :: r)) off info =
        match (h ++ 58 :: r).findIdx? (· == 47) with
        | some s =>
          (memcpy (info.port.fill 0) (pre ++ (h ++ 58 :: r)) (off + h.length + 1)
            ((s : ℤ) - h.length - 1)).bind fun port =>
              setUri (pre ++ (h ++ 58 :: r)) (off + s) { info with host := b, port := port }
        | none => ((info.port.fill 0).copy 0 r).bind fun port =>
            setRoot { info with host := b, port := port } := by
  obtain ⟨b, hb, hstr⟩ := setHost_eq info (w := 58 :: r) hhost hpre
    (show ((off + h.length : ℕ) : ℤ) - off = h.length by omega) hfit
  have hlen : ¬ 128 < ((off + h.length : ℕ) : ℤ) - off + 1 := by omega
  refine ⟨b, hstr, ?_⟩
  unfold parseHost
  simp only [strchr_eq hpre, findIdx?_append hcolon, Option.map_some, Option.bind_eq_bind]
  rw [if_neg hlen, ← List.append_assoc, hb, Option.bind_some, List.append_assoc]
  rcases hs : (h ++ 58 :: r).findIdx? (· == 47) with _ | s
  · have hsplit : pre ++ (h ++ 58 :: r) = pre ++ h ++ [58] ++ r := by simp
    simp only [Option.map_none]
    rw [hsplit, strncpy_eq _ (by simp [hpre, Nat.add_assoc]) (by simp; omega)]
  · have hcast : ((off + s : ℕ) : ℤ) - ((off + h.length : ℕ) : ℤ) - 1 = (s : ℤ) - h.length - 1 := by
      omega
    simp only [Option.map_some, hcast]

/-- A port that leaves room for its terminator is read back, and a longer one is not. -/
theorem port_str (info : HttpInfo) {p : Bytes} (h0 : 0 ∉ p) (h : p.length ≤ 6) :
    ∃ b, (info.port.fill 0).copy 0 p = some b ∧
      b.str = if p.length ≤ 5 then some p else none := by
  obtain ⟨b, hb, hcells⟩ := info.port.copy_fill h
  refine ⟨b, hb, ?_⟩
  split_ifs with h5
  · refine Buffer.str_of_cells h0 (w := List.replicate (6 - p.length - 1) 0) ?_
    rw [hcells, ← List.replicate_succ]
    congr 2
    omega
  · rw [show 6 - p.length = 0 by omega, List.replicate_zero, List.append_nil] at hcells
    exact Buffer.str_of_full (by rwa [hcells])

open scoped Classical in
/-- A colon and no slash. -/
theorem parseHost_port {h r : Bytes} (hpre : pre.length = off) (h0 : 0 ∉ h ++ 58 :: r)
    (hcolon : 58 ∉ h) (hslash : 47 ∉ h ++ 58 :: r) (hfit : h.length < 128) :
    if r.length ≤ 6 then RestCopied (pre ++ (h ++ 58 :: r)) off (h ++ 58 :: r) info
    else parseHost (pre ++ (h ++ 58 :: r)) off info = none := by
  have hfits := (rest_port hcolon hslash hfit).1
  rw [List.mem_append, List.mem_cons, not_or, not_or] at h0
  obtain ⟨b, hstr, heq⟩ := parseHost_colon info r hpre h0.1 hcolon hfit
  rw [findIdx?_of_notMem hslash] at heq
  rw [List.mem_append, List.mem_cons, not_or, not_or] at hslash
  split_ifs with h6
  · obtain ⟨port, hport, hportStr⟩ := port_str info h0.2.2 h6
    obtain ⟨uri, huri, huriStr⟩ := setRoot_eq { info with host := b, port := port }
    simp only [hport, Option.bind_some, huri] at heq
    let u : HttpUrl := ⟨info.scheme, h, some r, none, hcolon, hslash.1,
      fun p hp => Option.some.inj hp ▸ hslash.2.2, by simp⟩
    refine ⟨_, _, heq, rfl, u, rfl, by simp [u, HttpUrl.rest], hstr, ?_, huriStr⟩
    rw [if_congr hfits rfl rfl]
    exact hportStr
  · rw [heq]
    simp only [Buffer.copy_eq_none _ (show 6 < 0 + r.length by omega), Option.bind_none]

open scoped Classical in
/-- A colon before the slash. -/
theorem parseHost_port_path {h p w : Bytes} (hpre : pre.length = off)
    (h0 : 0 ∉ h ++ 58 :: (p ++ 47 :: w)) (hcolon : 58 ∉ h) (hslash : 47 ∉ h) (hport : 47 ∉ p)
    (hfit : h.length < 128) :
    if p.length ≤ 6 then
      RestCopied (pre ++ (h ++ 58 :: (p ++ 47 :: w))) off (h ++ 58 :: (p ++ 47 :: w)) info
    else parseHost (pre ++ (h ++ 58 :: (p ++ 47 :: w))) off info = none := by
  have hfits := (rest_port_path (w := w) hcolon hslash hport hfit).1
  rw [List.mem_append, List.mem_cons, List.mem_append, not_or, not_or, not_or] at h0
  obtain ⟨b, hstr, heq⟩ := parseHost_colon info (p ++ 47 :: w) hpre h0.1 hcolon hfit
  have hlen : ((h ++ 58 :: p).length : ℤ) - h.length - 1 = p.length := by
    rw [List.length_append, List.length_cons]
    omega
  have hsplit : pre ++ (h ++ 58 :: (p ++ 47 :: w)) = (pre ++ h ++ [58]) ++ p ++ 47 :: w := by simp
  have hoff : (pre ++ h ++ [58]).length = off + h.length + 1 := by simp [hpre, Nat.add_assoc]
  have hoff' : (pre ++ h ++ [58] ++ p).length = off + (h ++ 58 :: p).length := by
    simp only [List.length_append, List.length_cons, List.length_nil, hpre]
    omega
  rw [findIdx?_port hslash hport] at heq
  simp only [hlen] at heq
  rw [hsplit, memcpy_eq _ hoff rfl] at heq
  unfold RestCopied
  rw [hsplit, heq]
  by_cases h6 : p.length ≤ 6
  · rw [if_pos h6]
    obtain ⟨port, hcopy, hportStr⟩ := port_str info h0.2.2.1 h6
    rw [hcopy, Option.bind_some]
    by_cases huri : (47 :: w).length < 1024
    · obtain ⟨uri, hset, huriStr⟩ := setUri_eq { info with host := b, port := port }
        (s := 47 :: w) h0.2.2.2 hoff' huri
      let u : HttpUrl := ⟨info.scheme, h, some p, some (47 :: w), hcolon, hslash,
        fun q hq => Option.some.inj hq ▸ hport, fun q hq => ⟨w, (Option.some.inj hq).symm⟩⟩
      rw [hset]
      refine ⟨_, _, rfl, rfl, u, rfl, by simp [u, HttpUrl.rest], hstr, ?_, huriStr⟩
      rw [if_congr (hfits.trans (by omega : _ ↔ p.length ≤ 5)) rfl rfl]
      exact hportStr
    · rw [setUri_of_le _ hoff' (Nat.not_lt.1 huri)]
      exact ⟨_, _, rfl, hfits.2 (by omega)⟩
  · rw [if_neg h6, Buffer.copy_eq_none _ (by omega), Option.bind_none]

/-- A slash before the colon: the length of the port is negative. -/
theorem parseHost_colon_in_path {h w r : Bytes} (hpre : pre.length = off)
    (h0 : 0 ∉ h ++ 47 :: w) (hcolon : 58 ∉ h ++ 47 :: w) (hslash : 47 ∉ h)
    (hfit : (h ++ 47 :: w).length < 128) :
    parseHost (pre ++ (h ++ 47 :: w ++ 58 :: r)) off info = none := by
  obtain ⟨b, -, heq⟩ := parseHost_colon info r hpre h0 hcolon hfit
  have hneg : (h.length : ℤ) - (h ++ 47 :: w).length - 1 < 0 := by
    rw [List.length_append]
    omega
  rw [heq, findIdx?_path hslash]
  simp only [memcpy_of_neg _ _ _ hneg, Option.bind_none]

/-- A host that is refused. -/
theorem parseHost_long {h r : Bytes} (hpre : pre.length = off) (hcolon : 58 ∉ h)
    (hfit : 128 ≤ h.length) : RestCopied (pre ++ (h ++ 58 :: r)) off (h ++ 58 :: r) info := by
  have hlen : 128 < ((off + h.length : ℕ) : ℤ) - off + 1 := by omega
  unfold RestCopied parseHost
  simp only [strchr_eq hpre, findIdx?_append hcolon, Option.map_some]
  rw [if_pos hlen]
  exact ⟨_, _, rfl, restFits_of_long hcolon hfit⟩

open scoped Classical in
/-- What `httpc_parse_url` does behind the scheme. -/
theorem parseHost_spec (info : HttpInfo) (hpre : pre.length = off)
    (hoff : off = if info.scheme = .http then 7 else 8) (h0 : 0 ∉ rest) :
    if RestCopies rest then RestCopied (pre ++ rest) off rest info
    else parseHost (pre ++ rest) off info = none := by
  by_cases hcolon : 58 ∈ rest
  · obtain ⟨h, r, rfl, hh⟩ := split_of_mem hcolon
    by_cases hfit : 128 ≤ h.length
    · rw [if_pos (restFits_of_long hh hfit).copies]
      exact parseHost_long hpre hh hfit
    rw [Nat.not_le] at hfit
    by_cases hslash : 47 ∈ h ++ 58 :: r
    · by_cases hpath : 47 ∈ h
      · obtain ⟨h, w, rfl, hh'⟩ := split_of_mem hpath
        have h0' : 0 ∉ h ++ 47 :: w := fun h => h0 (List.mem_append_left _ h)
        rw [if_neg (not_restCopies hh hh' hfit)]
        exact parseHost_colon_in_path hpre h0' hh hh' hfit
      · have hr : 47 ∈ r := by simpa [hpath] using hslash
        obtain ⟨p, w, rfl, hp⟩ := split_of_mem hr
        rw [if_congr (rest_port_path hh hpath hp hfit).2 rfl rfl]
        exact parseHost_port_path hpre h0 hh hpath hp hfit
    · rw [if_congr (rest_port hh hslash hfit).2 rfl rfl]
      exact parseHost_port hpre h0 hh hslash hfit
  · rw [if_pos (restFits_of_notMem hcolon).copies]
    by_cases hslash : 47 ∈ rest
    · obtain ⟨h, w, rfl, hh⟩ := split_of_mem hslash
      exact parseHost_path hpre h0 hcolon hh
    · exact parseHost_host hpre hoff h0 hcolon hslash

theorem restParsed_iff (info : HttpInfo) (hpre : pre.length = off)
    (hoff : off = if info.scheme = .http then 7 else 8) (h0 : 0 ∉ rest) :
    (∃ ret info', parseHost (pre ++ rest) off info = some (ret, info') ∧
      (ret = .ok → ∀ u : HttpUrl, u.scheme = info.scheme → u.rest = rest → Parsed u info')) ↔
      RestFits rest := by
  have hspec := parseHost_spec info hpre hoff h0
  by_cases hcopies : RestCopies rest
  swap
  · rw [if_neg hcopies] at hspec
    rw [hspec]
    refine iff_of_false ?_ (mt RestFits.copies hcopies)
    rintro ⟨ret, info', hret, -⟩
    cases hret
  rw [if_pos hcopies] at hspec
  obtain ⟨ret, info', hparse, hspec⟩ := hspec
  rw [hparse]
  by_cases hret : ret = .ok
  · rw [if_pos hret] at hspec
    obtain ⟨-, u, hs, hr, hhost, hport, huri⟩ := hspec
    constructor
    · rintro ⟨ret', info'', heq, hparsed⟩
      cases heq
      have := (hparsed hret u hs hr).port
      rw [hport] at this
      by_contra hno
      rw [if_neg hno] at this
      cases this
    · intro hfits
      rw [if_pos hfits] at hport
      exact ⟨_, _, rfl, fun _ v hv hr' =>
        Parsed.of_rest (u := u) ⟨hhost, hport, huri⟩ (hv.trans hs.symm) (hr'.trans hr.symm)⟩
  · rw [if_neg hret] at hspec
    exact iff_of_true ⟨_, _, rfl, fun h => absurd h hret⟩ hspec

/-- The text behind a scheme that the client supports fits. -/
def UrlFits (https : Bool) (url : Bytes) : Prop :=
  (bytes "http://" <+: url → RestFits (url.drop 7))
    ∧ (https → bytes "https://" <+: url → RestFits (url.drop 8))

theorem not_http_of_https {url : Bytes} (h : bytes "https://" <+: url) :
    ¬ bytes "http://" <+: url := by
  obtain ⟨w, rfl⟩ := h
  rw [List.prefix_iff_eq_take]
  simp [bytes]

theorem schemeText_inj {s t : HttpScheme} {rest rest' : Bytes}
    (h : schemeText s ++ rest = schemeText t ++ rest') : s = t ∧ rest = rest' := by
  cases s <;> cases t
  · exact ⟨rfl, List.append_cancel_left h⟩
  · exact absurd ⟨_, h⟩ (not_http_of_https (List.prefix_append _ _))
  · exact absurd ⟨_, h.symm⟩ (not_http_of_https (List.prefix_append _ _))
  · exact ⟨rfl, List.append_cancel_left h⟩

theorem parsed_iff (s : HttpScheme) {rest : Bytes} (h0 : 0 ∉ rest) (info : HttpInfo) :
    (∃ ret info', parseHost (schemeText s ++ rest) (schemeText s).length { info with scheme := s } =
        some (ret, info')
      ∧ (ret = .ok → ∀ u : HttpUrl, u.text = schemeText s ++ rest → Parsed u info')) ↔
      RestFits ((schemeText s ++ rest).drop (schemeText s).length) := by
  have hoff : (schemeText s).length = if s = .http then 7 else 8 := by cases s <;> rfl
  rw [List.drop_left, ← restParsed_iff { info with scheme := s } rfl hoff h0]
  refine exists_congr fun ret => exists_congr fun info' => and_congr_right fun _ =>
    imp_congr_right fun _ => forall_congr' fun u => ?_
  constructor
  · intro h hu hr
    exact h (by rw [text, hu, hr])
  · intro h ht
    obtain ⟨hu, hr⟩ := schemeText_inj ht
    exact h hu hr

/-- The URL is parsed without a copy outside of its buffer, and into its parts where this succeeds,
exactly if what is behind the scheme fits. -/
theorem parse_url_iff (https : Bool) (url : CStr) (info : HttpInfo) :
    (∃ ret info', httpcParseUrl https url.1 info = some (ret, info')
      ∧ (ret = .ok → ∀ u : HttpUrl, u.text = url.1 → Parsed u info')) ↔ UrlFits https url.1 := by
  obtain ⟨url, h0⟩ := url
  simp only
  unfold httpcParseUrl UrlFits
  by_cases hhttp : bytes "http://" <+: url
  · obtain ⟨rest, rfl⟩ := hhttp
    have hs : ¬ bytes "https://" <+: bytes "http://" ++ rest :=
      fun h => not_http_of_https h (List.prefix_append _ _)
    have h0' : 0 ∉ rest := fun h => h0 (List.mem_append_right _ h)
    rw [if_pos (List.prefix_append _ _), imp_iff_right (List.prefix_append _ _),
      and_iff_left (fun _ h => absurd h hs)]
    exact parsed_iff .http h0' info
  · rw [if_neg hhttp, and_iff_right (fun h => absurd h hhttp)]
    by_cases hhttps : https = true ∧ bytes "https://" <+: url
    · rw [if_pos hhttps, imp_iff_right hhttps.1, imp_iff_right hhttps.2]
      obtain ⟨-, rest, rfl⟩ := hhttps
      exact parsed_iff .https (fun h => h0 (List.mem_append_right _ h)) info
    · rw [if_neg hhttps]
      exact iff_of_true ⟨_, _, rfl, fun h => by cases h⟩ fun h h' => absurd ⟨h, h'⟩ hhttps

theorem httpcParseUrl_eq {https : Bool} {s : HttpScheme} (hs : s = .https → https = true)
    (rest : Bytes) (info : HttpInfo) : httpcParseUrl https (schemeText s ++ rest) info =
      parseHost (schemeText s ++ rest) (schemeText s).length { info with scheme := s } := by
  unfold httpcParseUrl
  cases s with
  | http => exact if_pos (List.prefix_append _ _)
  | https =>
    exact (if_neg (not_http_of_https (List.prefix_append _ _))).trans
      (if_pos ⟨hs rfl, List.prefix_append _ _⟩)

/-- A URL without a scheme that the client supports is refused. -/
theorem httpcParseUrl_refused {https : Bool} {url : Bytes} (info : HttpInfo)
    (h : ∀ s rest, url = schemeText s ++ rest → ¬ (s = .https → https = true)) :
    httpcParseUrl https url info = some (.errorSchemeNotFound, info) := by
  have hhttp : ¬ bytes "http://" <+: url := by
    rintro ⟨rest, rfl⟩
    exact h .http rest rfl (by simp)
  have hhttps : ¬ (https = true ∧ bytes "https://" <+: url) := by
    rintro ⟨hs, rest, rfl⟩
    exact h .https rest rfl fun _ => hs
  unfold httpcParseUrl
  rw [if_neg hhttp, if_neg hhttps]

open scoped Classical in
/-- What is read of a URL that is accepted ends in its buffer exactly if the port fits. -/
theorem httpcParseUrl_spec {https : Bool} {s : HttpScheme} (hs : s = .https → https = true)
    {rest : Bytes} (h0 : 0 ∉ rest) (info : HttpInfo) :
    if RestCopies rest then
      ∃ ret info', httpcParseUrl https (schemeText s ++ rest) info = some (ret, info') ∧
        if ret = .ok then
          info'.scheme = s ∧ (∃ host, info'.host.str = some host)
            ∧ if RestFits rest then ∃ port, info'.port.str = some port else info'.port.str = none
        else RestFits rest
    else httpcParseUrl https (schemeText s ++ rest) info = none := by
  rw [httpcParseUrl_eq hs]
  have hspec := parseHost_spec { info with scheme := s } (rfl : (schemeText s).length = _)
    (by cases s <;> rfl) h0
  by_cases hcopies : RestCopies rest
  · rw [if_pos hcopies] at hspec ⊢
    obtain ⟨ret, info', hparse, hspec⟩ := hspec
    refine ⟨ret, info', hparse, ?_⟩
    by_cases hret : ret = .ok
    · rw [if_pos hret] at hspec ⊢
      obtain ⟨hscheme, u, -, -, hhost, hport, -⟩ := hspec
      refine ⟨hscheme, ⟨_, hhost⟩, ?_⟩
      split_ifs at hport ⊢
      · exact ⟨_, hport⟩
      · exact hport
    · rwa [if_neg hret] at hspec ⊢
  · rwa [if_neg hcopies] at hspec ⊢

/-- A URL with a colon in its path. -/
def colonUrl : CStr := ⟨bytes "http://h/a:b", by decide⟩

/-- The length of the port is -3. -/
theorem parse_url_colon_in_path :
    ¬ ∃ ret info', httpcParseUrl true colonUrl.1 freshInfo = some (ret, info')
      ∧ (ret = .ok → ∀ u : HttpUrl, u.text = colonUrl.1 → Parsed u info') := by
  intro h
  rw [httpcParseUrl, if_pos (by decide)] at h
  have h0 : 0 ∉ bytes "h/a:b" := by decide
  -- the colon is the fourth character behind the scheme, and the slash the second
  have hfits := (parsed_iff .http h0 freshInfo).1 h 3 rfl (by decide)
  exact absurd hfits.1 (by decide)

end HttpUrl

end NrcAtcmd
