import Mathlib.Data.List.DropRight
import NrcAtcmd.Proofs.CommandLine

/-!
# Noise before a command

The prefix check of `atcmd_receive_command` compares the first two characters of a line with `AT`
as they come. A character that does not match empties the line, and is not looked at again: an `A`
after an `A` is dropped with it, though it could begin the command.

So noise leaves nothing behind if it ends in an even number of `A`s. After an odd number an `A` is
kept, and the command after it loses its own `AT`.
-/

namespace NrcAtcmd

variable {ε : Type*}

/-- No line is begun: nothing of one is kept, and no escape sequence is open. -/
structure LineReader.Fresh (r : LineReader) : Prop where
  cmd : r.cmd = []
  esc : r.key.esc = false

/-- How many `A`s noise ends in. -/
def trailingA (n : Bytes) : ℕ := (n.rtakeWhile (· == 65)).length

/-- The reader after noise. -/
def LineReader.after (n : Bytes) (r : LineReader) : LineReader :=
  { r with
    cmd := if trailingA n % 2 = 0 then [] else [65]
    cntCR := if n ≠ [] ∧ r.config.linefeed then 0 else r.cntCR }

theorem trailingA_concat (n : Bytes) (b : UInt8) :
    trailingA (n ++ [b]) = if b = 65 then trailingA n + 1 else 0 := by
  unfold trailingA
  rw [List.rtakeWhile_concat]
  by_cases hb : b = 65 <;> simp [hb]

/-- A noise character is kept if it is an `A` and the line is empty, and empties the line if not. -/
theorem print_noise {r : LineReader} {n : Bytes} {b : UInt8} (hat : ¬ [65, 84] <:+: n ++ [b])
    (hcmd : r.cmd = if trailingA n % 2 = 0 then [] else [65]) :
    r.print b = { r with cmd := if trailingA (n ++ [b]) % 2 = 0 then [] else [65] } := by
  have h0 : (bytes "AT")[0]? = some 65 := rfl
  have h1 : (bytes "AT")[1]? = some 84 := rfl
  unfold LineReader.print
  rw [trailingA_concat]
  by_cases heven : trailingA n % 2 = 0
  · rw [if_pos heven] at hcmd
    rw [hcmd, List.length_nil, h0]
    by_cases hb : b = 65
    · rw [if_neg (by simp [hb]), if_pos (by decide), if_pos hb, if_neg (by omega), hb]
      rfl
    · rw [if_pos ⟨by decide, by simpa using Ne.symm hb⟩, if_neg hb]
      rfl
  · rw [if_neg heven] at hcmd
    have hb84 : b ≠ 84 := by
      rintro rfl
      have hlast : n.rtakeWhile (· == 65) ≠ [] := by
        intro hnil
        simp [trailingA, hnil] at heven
      rw [Ne, List.rtakeWhile_eq_nil_iff, not_forall] at hlast
      obtain ⟨hne, h65⟩ := hlast
      have h65 : n.getLast hne = 65 := by simpa using h65
      have hsplit : n.dropLast ++ [65] = n := by rw [← h65, List.dropLast_append_getLast]
      exact hat ⟨n.dropLast, [], by rw [← hsplit]; simp⟩
    rw [hcmd, List.length_singleton, h1, if_pos ⟨by decide, by simpa using hb84.symm⟩]
    split_ifs <;> first | rfl | omega

theorem receive_print (groups : List (AtcmdGroup ε)) (now : UInt32) {d : Device ε} {b : UInt8}
    (hesc : d.line.key.esc = false) (h1 : 0x20 ≤ b) (h2 : b ≤ 0x7E) (c : Bytes) :
    (atcmdReceiveCommand groups now (b :: c) d).1 =
      (atcmdReceiveCommand groups now c { d with line := d.line.uncount.print b }).1 := by
  rw [atcmdReceiveCommand, atcmdReceiveChar_print groups hesc h1 h2]

theorem Fresh.after_nil {r : LineReader} (h : r.Fresh) : r.after [] = r := by
  obtain ⟨key, cmd, cntCR, config⟩ := r
  obtain rfl : cmd = [] := h.cmd
  simp [LineReader.after, trailingA]

theorem after_concat (r : LineReader) {n : Bytes} {b : UInt8} (hat : ¬ [65, 84] <:+: n ++ [b]) :
    (r.after n).uncount.print b = r.after (n ++ [b]) := by
  rw [print_noise hat (LineReader.uncount_cmd _)]
  unfold LineReader.uncount LineReader.after
  by_cases hl : r.config.linefeed = true <;> simp [hl]

/-- A call takes noise in before what follows it. -/
theorem noise_run (groups : List (AtcmdGroup ε)) (now : UInt32) {d : Device ε}
    (hd : d.line.Fresh) {n : Bytes} (hn : ∀ b ∈ n, 0x20 ≤ b ∧ b ≤ 0x7E)
    (hat : ¬ [65, 84] <:+: n) (c : Bytes) : (atcmdReceiveCommand groups now (n ++ c) d).1 =
      (atcmdReceiveCommand groups now c { d with line := d.line.after n }).1 := by
  induction n using List.reverseRecOn generalizing c with
  | nil => rw [Fresh.after_nil hd, List.nil_append]
  | append_singleton n b ih =>
    obtain ⟨hn, hb⟩ := List.forall_mem_append.1 hn
    obtain ⟨h1, h2⟩ := hb b (List.mem_singleton_self b)
    have ih := ih hn (fun h => hat (h.trans (List.prefix_append _ _).isInfix)) (b :: c)
    rw [List.append_assoc, List.singleton_append, ih, receive_print groups now _ h1 h2,
      ← after_concat _ hat]
    exact hd.esc

/-- The `A` of a command makes noise without an `A` left over as good as none. -/
theorem after_print {r : LineReader} (h : r.Fresh) {n : Bytes} (hn : trailingA n % 2 = 0) :
    (r.after n).uncount.print 65 = r.uncount.print 65 := by
  obtain ⟨key, cmd, cntCR, config⟩ := r
  obtain rfl : cmd = [] := h.cmd
  unfold LineReader.uncount LineReader.after
  rw [if_pos hn]
  by_cases hl : config.linefeed = true <;> simp [hl]

/-- The log after `AT` and a line feed, with an `A` left over or without. -/
theorem at_log (groups : List (AtcmdGroup ε)) (now : UInt32) {d : Device ε}
    (hesc : d.line.key.esc = false) (hcmd : d.line.cmd = [] ∨ d.line.cmd = [65]) :
    (atcmdReceiveCommand groups now (bytes "AT\n") d).1.log =
      if d.line.cmd = [] then d.log ++ [.reply none .success] else d.log := by
  obtain ⟨⟨⟨esc, buf, cnt⟩, cmd, cntCR, ⟨echo, linefeed⟩⟩, rx, rest, log, halted⟩ := d
  obtain rfl : esc = false := hesc
  rcases hcmd with hcmd | hcmd
  · obtain rfl : cmd = [] := hcmd
    cases linefeed <;> rfl
  · obtain rfl : cmd = [65] := hcmd
    cases linefeed <;> rfl

/-- A call does with a command after noise what it does with the command alone, whatever the
command, exactly when the noise ends in an even number of `A`s. -/
theorem prefix_resync_iff (groups : List (AtcmdGroup ε)) {d : Device ε} (hd : d.line.Fresh)
    {n : Bytes} (hn : ∀ b ∈ n, 0x20 ≤ b ∧ b ≤ 0x7E) (hat : ¬ bytes "AT" <:+: n) :
    (∀ now c, bytes "AT" <+: c → (atcmdReceiveCommand groups now (n ++ c) d).1 =
        (atcmdReceiveCommand groups now c d).1) ↔ trailingA n % 2 = 0 := by
  constructor
  · intro h
    by_contra hodd
    have hlog := congrArg Device.log (h 0 (bytes "AT\n") ⟨[10], rfl⟩)
    have hafter : (d.line.after n).cmd = [65] := if_neg hodd
    rw [noise_run groups 0 hd hn hat, at_log groups 0 (by exact hd.esc) (Or.inr hafter),
      at_log groups 0 hd.esc (Or.inl hd.cmd), if_pos hd.cmd, if_neg (by simp [hafter])] at hlog
    simp at hlog
  · rintro heven now c ⟨t, rfl⟩
    rw [noise_run groups now hd hn hat]
    show (atcmdReceiveCommand groups now (65 :: 84 :: t) _).1 =
      (atcmdReceiveCommand groups now (65 :: 84 :: t) d).1
    rw [receive_print groups now (by exact hd.esc) (by decide) (by decide),
      receive_print groups now hd.esc (by decide) (by decide), after_print hd heven]

theorem prefix_resync_iff_noise :
    (∀ now c, bytes "AT" <+: c →
      (atcmdReceiveCommand [] now (bytes "+A?AA" ++ c) (.boot ())).1 =
        (atcmdReceiveCommand [] now c (.boot ())).1) ↔ trailingA (bytes "+A?AA") % 2 = 0 :=
  prefix_resync_iff [] ⟨rfl, rfl⟩ (by decide +kernel) (by decide +kernel)

/-- `AT` after one `A` is not answered. -/
theorem prefix_resync_fails_A :
    (atcmdReceiveCommand [] 0 (bytes "A" ++ bytes "AT\r\n") (.boot ())).1.log = [] ∧
      (atcmdReceiveCommand [] 0 (bytes "AT\r\n") (.boot ())).1.log = [.reply none .success] := by
  decide +kernel

end NrcAtcmd
