import ScriptDriver.Proofs.Text.Bytes
/-!
# Decoding — texts read from bytes

Cutting bytes into characters and what is none loses nothing: each chunk stands for the bytes that it was made of, and
what is no character is made of bytes beyond the ASCII ones.  So the text of a byte string stands for that byte string
(`Text.toBytes_ofBytes`), whether or not it is well-formed; and well-formed are exactly the bytes of characters
(`Utf8.strict_ok_iff`).
-/
namespace ScriptDriver

namespace Utf8

/-- The bytes that a chunk was made of. -/
def Chunk.bytes : Chunk → List UInt8
  | .scalar c => bytesOf c.toNat
  | .bad bytes _ => bytes

def Chunk.glyphs : Chunk → Text
  | .scalar c => [.char c]
  | .bad bytes _ => bytes.map .raw

/-! ## Bytes and codes -/

theorem toUInt8_eq {n : Nat} {b : UInt8} (h : n = b.toNat) : n.toUInt8 = b := by
  rw [h, Nat.toUInt8_eq, UInt8.ofNat_toNat]

theorem toNat_ofNat {n : Nat} (h : n.isValidChar) : (Char.ofNat n).toNat = n := by
  rw [Char.ofNat, dif_pos h]
  rfl

theorem continuation_bounds {b : UInt8} (h : isContinuation b = true) : 0x80 ≤ b.toNat ∧ b.toNat < 0xC0 := by
  simpa [isContinuation] using h

/-- The bounds that keep a character from being written longer than needed, being a surrogate, or being too large. -/
theorem second_bounds {lead b : UInt8} (h : isSecond lead b = true) : (0x80 ≤ b.toNat ∧ b.toNat < 0xC0) ∧
    (lead.toNat = 0xE0 → 0xA0 ≤ b.toNat) ∧ (lead.toNat = 0xED → b.toNat < 0xA0) ∧
    (lead.toNat = 0xF0 → 0x90 ≤ b.toNat) ∧ (lead.toNat = 0xF4 → b.toNat < 0x90) := by
  have hlead (n : UInt8) : lead = n ↔ lead.toNat = n.toNat := UInt8.toNat_inj.symm
  rw [isSecond, Bool.and_eq_true] at h
  obtain ⟨hb, h⟩ := h
  refine ⟨continuation_bounds hb, ?_⟩
  simp only [hlead, UInt8.reduceToNat] at h
  split at h
  · simp only [decide_eq_true_eq] at h
    omega
  split at h
  · simp only [decide_eq_true_eq] at h
    omega
  split at h
  · simp only [decide_eq_true_eq] at h
    omega
  split at h
  · simp only [decide_eq_true_eq] at h
    omega
  · omega

section
variable {lead b c d : UInt8}

theorem bytesOf_one (h : lead.toNat < 0x80) : bytesOf (Char.ofNat lead.toNat).toNat = [lead] := by
  rw [toNat_ofNat (.inl (by omega)), bytesOf, if_pos h, toUInt8_eq rfl]

theorem bytesOf_two (h : 0xC2 ≤ lead.toNat) (h' : lead.toNat < 0xE0) (hb : isSecond lead b = true) :
    bytesOf (Char.ofNat ((lead.toNat - 0xC0) * 64 + low b)).toNat = [lead, b] := by
  obtain ⟨hb, -⟩ := second_bounds hb
  unfold low
  generalize hn : (lead.toNat - 0xC0) * 64 + (b.toNat - 0x80) = n
  have hlow : n % 64 = b.toNat - 0x80 := by omega
  have hhigh : n / 64 = lead.toNat - 0xC0 := by omega
  rw [toNat_ofNat (.inl (by omega)), bytesOf, if_neg (by omega), if_pos (by omega), hlow, hhigh,
    toUInt8_eq (show 0xC0 + (lead.toNat - 0xC0) = lead.toNat by omega),
    toUInt8_eq (show 0x80 + (b.toNat - 0x80) = b.toNat by omega)]

theorem bytesOf_three (h : 0xE0 ≤ lead.toNat) (h' : lead.toNat < 0xF0) (hb : isSecond lead b = true)
    (hc : isContinuation c = true) :
    bytesOf (Char.ofNat (((lead.toNat - 0xE0) * 64 + low b) * 64 + low c)).toNat = [lead, b, c] := by
  obtain ⟨hb, hE0, hED, -⟩ := second_bounds hb
  have hc := continuation_bounds hc
  unfold low
  generalize hn : ((lead.toNat - 0xE0) * 64 + (b.toNat - 0x80)) * 64 + (c.toNat - 0x80) = n
  have hlow : n % 64 = c.toNat - 0x80 := by omega
  have hmiddle : n / 64 % 64 = b.toNat - 0x80 := by omega
  have hhigh : n / 4096 = lead.toNat - 0xE0 := by omega
  have hvalid : n.isValidChar := by
    by_cases hsurrogate : n < 0xD800
    · exact .inl hsurrogate
    · exact .inr ⟨by omega, by omega⟩
  rw [toNat_ofNat hvalid, bytesOf, if_neg (by omega), if_neg (by omega), if_pos (by omega), hlow, hmiddle, hhigh,
    toUInt8_eq (show 0xE0 + (lead.toNat - 0xE0) = lead.toNat by omega),
    toUInt8_eq (show 0x80 + (b.toNat - 0x80) = b.toNat by omega),
    toUInt8_eq (show 0x80 + (c.toNat - 0x80) = c.toNat by omega)]

theorem bytesOf_four (h : 0xF0 ≤ lead.toNat) (h' : lead.toNat < 0xF5) (hb : isSecond lead b = true)
    (hc : isContinuation c = true) (hd : isContinuation d = true) :
    bytesOf (Char.ofNat ((((lead.toNat - 0xF0) * 64 + low b) * 64 + low c) * 64 + low d)).toNat = [lead, b, c, d] := by
  obtain ⟨hb, -, -, hF0, hF4⟩ := second_bounds hb
  have hc := continuation_bounds hc
  have hd := continuation_bounds hd
  unfold low
  generalize hn : (((lead.toNat - 0xF0) * 64 + (b.toNat - 0x80)) * 64 + (c.toNat - 0x80)) * 64 + (d.toNat - 0x80) = n
  have hlow : n % 64 = d.toNat - 0x80 := by omega
  have hthird : n / 64 % 64 = c.toNat - 0x80 := by omega
  have hsecond : n / 4096 % 64 = b.toNat - 0x80 := by omega
  have hhigh : n / 262144 = lead.toNat - 0xF0 := by omega
  rw [toNat_ofNat (.inr ⟨by omega, by omega⟩), bytesOf, if_neg (by omega), if_neg (by omega), if_neg (by omega), hlow,
    hthird, hsecond, hhigh,
    toUInt8_eq (show 0xF0 + (lead.toNat - 0xF0) = lead.toNat by omega),
    toUInt8_eq (show 0x80 + (b.toNat - 0x80) = b.toNat by omega),
    toUInt8_eq (show 0x80 + (c.toNat - 0x80) = c.toNat by omega),
    toUInt8_eq (show 0x80 + (d.toNat - 0x80) = d.toNat by omega)]

end

/-! ## Cutting bytes into chunks -/

/-- **What the first chunk is made of**: the bytes that it takes; and if these are no character, none of them is ASCII. -/
structure Cut (lead : UInt8) (rest : List UInt8) (first : Chunk × Nat) : Prop where
  within : first.2 ≤ rest.length
  bytes_eq : first.1.bytes = lead :: rest.take first.2
  high : ∀ bytes fault, first.1 = .bad bytes fault → ∀ b ∈ bytes, 0x80 ≤ b.toNat

theorem Cut.scalar {lead : UInt8} {rest : List UInt8} {n taken : Nat} (h : taken ≤ rest.length)
    (hbytes : bytesOf (Char.ofNat n).toNat = lead :: rest.take taken) : Cut lead rest (.scalar (Char.ofNat n), taken) :=
  ⟨h, hbytes, nofun⟩

theorem Cut.bad {lead : UInt8} {rest : List UInt8} {bytes : List UInt8} {fault : Fault} {taken : Nat}
    (h : taken ≤ rest.length) (hbytes : bytes = lead :: rest.take taken) (high : ∀ b ∈ bytes, 0x80 ≤ b.toNat) :
    Cut lead rest (.bad bytes fault, taken) := by
  refine ⟨h, hbytes, fun other fault' heq => ?_⟩
  cases heq
  exact high

theorem first_cut (lead : UInt8) (rest : List UInt8) : Cut lead rest (first lead rest) := by
  unfold first
  simp only [Bool.not_eq_true']
  split
  · rename_i hascii
    exact .scalar (Nat.zero_le _) (bytesOf_one hascii)
  rename_i hascii
  have hlead : 0x80 ≤ lead.toNat := Nat.not_lt.1 hascii
  have hone (fault : Fault) : Cut lead rest (.bad [lead] fault, 0) := .bad (Nat.zero_le _) rfl (by simpa using hlead)
  split
  · exact hone _
  rename_i hrange
  simp only [Bool.or_eq_true, decide_eq_true_eq, not_or, Nat.not_lt, Nat.not_le] at hrange
  split
  · exact hone _
  rename_i b rest
  split
  · exact hone _
  rename_i hb
  rw [Bool.not_eq_false] at hb
  have hsecond : 0x80 ≤ b.toNat := (second_bounds hb).1.1
  have htwo (fault : Fault) : Cut lead (b :: rest) (.bad [lead, b] fault, 1) :=
    .bad (by simp) rfl (by simpa using ⟨hlead, hsecond⟩)
  split
  · rename_i hE0
    exact .scalar (by simp) (bytesOf_two hrange.1 hE0 hb)
  rename_i hE0
  split
  · exact htwo _
  rename_i c rest
  split
  · exact htwo _
  rename_i hc
  rw [Bool.not_eq_false] at hc
  have hthird : 0x80 ≤ c.toNat := (continuation_bounds hc).1
  have hthree (fault : Fault) : Cut lead (b :: c :: rest) (.bad [lead, b, c] fault, 2) :=
    .bad (by simp) rfl (by simpa using ⟨hlead, hsecond, hthird⟩)
  split
  · rename_i hF0
    exact .scalar (by simp) (bytesOf_three (Nat.not_lt.1 hE0) hF0 hb hc)
  rename_i hF0
  split
  · exact hthree _
  rename_i d rest
  split
  · exact hthree _
  · rename_i hd
    rw [Bool.not_eq_false] at hd
    exact .scalar (by simp) (bytesOf_four (Nat.not_lt.1 hF0) hrange.2 hb hc hd)

theorem chunksAfter_bytes : ∀ (skip : Nat) (bytes : List UInt8),
    (chunksAfter skip bytes).flatMap Chunk.bytes = bytes.drop skip
  | _, [] => by rw [chunksAfter, List.flatMap_nil, List.drop_nil]
  | skip + 1, _ :: rest => chunksAfter_bytes skip rest
  | 0, lead :: rest => by
    rw [chunksAfter, List.flatMap_cons, chunksAfter_bytes, (first_cut lead rest).bytes_eq, List.cons_append,
      List.take_append_drop, List.drop_zero]

theorem chunksAfter_high : ∀ (skip : Nat) (bytes : List UInt8) (run : List UInt8) (fault : Fault),
    .bad run fault ∈ chunksAfter skip bytes → ∀ b ∈ run, 0x80 ≤ b.toNat
  | _, [], run, fault, h => by
    rw [chunksAfter] at h
    cases h
  | skip + 1, _ :: rest, run, fault, h => chunksAfter_high skip rest run fault h
  | 0, lead :: rest, run, fault, h => by
    rw [chunksAfter] at h
    rcases List.mem_cons.1 h with h | h
    · exact (first_cut lead rest).high run fault h.symm
    · exact chunksAfter_high _ rest run fault h

theorem Chunk.toBytes_glyphs (chunk : Chunk) : Text.toBytes chunk.glyphs = chunk.bytes := by
  cases chunk with
  | scalar c => exact List.append_nil _
  | bad bytes fault =>
    rw [glyphs, Text.toBytes, List.flatMap_map]
    exact List.flatMap_singleton' bytes

end Utf8

namespace Text

theorem ofBytes_eq (bytes : List UInt8) : ofBytes bytes = (Utf8.chunks bytes).flatMap Utf8.Chunk.glyphs := by
  refine congrArg (List.flatMap · (Utf8.chunks bytes)) (funext fun chunk => ?_)
  cases chunk <;> rfl

/-- **The text of a byte string stands for that byte string.** -/
theorem toBytes_ofBytes (bytes : List UInt8) : toBytes (ofBytes bytes) = bytes := by
  calc toBytes (ofBytes bytes)
      = (Utf8.chunks bytes).flatMap (fun chunk => toBytes chunk.glyphs) := by
        rw [ofBytes_eq, toBytes, List.flatMap_assoc]
        rfl
    _ = (Utf8.chunks bytes).flatMap Utf8.Chunk.bytes := by rw [funext Utf8.Chunk.toBytes_glyphs]
    _ = bytes := Utf8.chunksAfter_bytes 0 bytes

theorem high_of_mem_ofBytes {bytes : List UInt8} {b : UInt8} (h : Glyph.raw b ∈ ofBytes bytes) : 0x80 ≤ b.toNat := by
  rw [ofBytes_eq, List.mem_flatMap] at h
  obtain ⟨chunk, hchunk, hb⟩ := h
  cases chunk with
  | scalar c =>
    rw [Utf8.Chunk.glyphs, List.mem_singleton] at hb
    cases hb
  | bad run fault =>
    obtain ⟨b', hb', heq⟩ := List.mem_map.1 hb
    cases heq
    exact Utf8.chunksAfter_high 0 bytes run fault hchunk b hb'

end Text

namespace Utf8

/-! ## Well-formed bytes -/

/-- The bytes of characters. -/
def encoded (chars : List Char) : List UInt8 := chars.flatMap fun c => bytesOf c.toNat

theorem second_of_bounds {lead b : UInt8} (hb : 0x80 ≤ b.toNat ∧ b.toNat < 0xC0) (hE0 : lead.toNat = 0xE0 → 0xA0 ≤ b.toNat)
    (hED : lead.toNat = 0xED → b.toNat < 0xA0) (hF0 : lead.toNat = 0xF0 → 0x90 ≤ b.toNat)
    (hF4 : lead.toNat = 0xF4 → b.toNat < 0x90) : isSecond lead b = true := by
  have hlead (n : UInt8) : lead = n ↔ lead.toNat = n.toNat := UInt8.toNat_inj.symm
  simp only [isSecond, isContinuation, hlead, UInt8.reduceToNat, Bool.and_eq_true, decide_eq_true_eq]
  refine ⟨hb, ?_⟩
  split
  · simpa using hE0 (by omega)
  split
  · simpa using hED (by omega)
  split
  · simpa using hF0 (by omega)
  split
  · simpa using hF4 (by omega)
  · rfl

theorem continuation_of_bounds {b : UInt8} (h : 0x80 ≤ b.toNat ∧ b.toNat < 0xC0) : isContinuation b = true := by
  simpa [isContinuation] using h

theorem toNat_toUInt8 {n : Nat} (h : n < 0x100) : n.toUInt8.toNat = n := UInt8.toNat_ofNat_of_lt' h

section
variable {lead b c d : UInt8} (rest : List UInt8)

theorem first_one (h : lead.toNat < 0x80) : first lead rest = (.scalar (Char.ofNat lead.toNat), 0) := if_pos h

theorem first_two (h : 0xC2 ≤ lead.toNat) (h' : lead.toNat < 0xE0) (hb : isSecond lead b = true) :
    first lead (b :: rest) = (.scalar (Char.ofNat ((lead.toNat - 0xC0) * 64 + low b)), 1) := by
  have hranges : ¬ lead.toNat < 0x80 ∧ ¬ lead.toNat < 0xC2 ∧ ¬ 0xF5 ≤ lead.toNat := by omega
  simp [first, hranges, hb, h']

theorem first_three (h : 0xE0 ≤ lead.toNat) (h' : lead.toNat < 0xF0) (hb : isSecond lead b = true)
    (hc : isContinuation c = true) : first lead (b :: c :: rest) =
      (.scalar (Char.ofNat (((lead.toNat - 0xE0) * 64 + low b) * 64 + low c)), 2) := by
  have hranges : ¬ lead.toNat < 0x80 ∧ ¬ lead.toNat < 0xC2 ∧ ¬ 0xF5 ≤ lead.toNat ∧ ¬ lead.toNat < 0xE0 := by omega
  simp [first, hranges, hb, hc, h']

theorem first_four (h : 0xF0 ≤ lead.toNat) (h' : lead.toNat < 0xF5) (hb : isSecond lead b = true)
    (hc : isContinuation c = true) (hd : isContinuation d = true) : first lead (b :: c :: d :: rest) =
      (.scalar (Char.ofNat ((((lead.toNat - 0xF0) * 64 + low b) * 64 + low c) * 64 + low d)), 3) := by
  have hranges : ¬ lead.toNat < 0x80 ∧ ¬ lead.toNat < 0xC2 ∧ ¬ 0xF5 ≤ lead.toNat ∧ ¬ lead.toNat < 0xE0 ∧
    ¬ lead.toNat < 0xF0 := by omega
  simp [first, hranges, hb, hc, hd]

end

/-- **A character is what is read first from its bytes**, whatever follows them. -/
theorem first_encoded (c : Char) (rest : List UInt8) : ∃ lead tail, bytesOf c.toNat = lead :: tail ∧
    first lead (tail ++ rest) = (.scalar c, tail.length) := by
  have hscalar : c.toNat < 0xD800 ∨ 0xDFFF < c.toNat ∧ c.toNat < 0x110000 := c.valid
  have hc {n : Nat} (h : n = c.toNat) : Char.ofNat n = c := by rw [h, Char.ofNat_toNat]
  generalize c.toNat = n at hscalar hc
  unfold bytesOf
  by_cases h1 : n < 0x80
  · have hlead := toNat_toUInt8 (show n < 0x100 by omega)
    refine ⟨_, [], if_pos h1, ?_⟩
    rw [first_one _ (by omega), hc hlead]
    rfl
  by_cases h2 : n < 0x800
  · have hlead := toNat_toUInt8 (show 0xC0 + n / 64 < 0x100 by omega)
    have hlow := toNat_toUInt8 (show 0x80 + n % 64 < 0x100 by omega)
    refine ⟨_, [_], by rw [if_neg h1, if_pos h2], ?_⟩
    refine (first_two _ (by omega) (by omega) (by apply second_of_bounds <;> omega)).trans ?_
    rw [hc (by unfold low; omega)]
    rfl
  by_cases h3 : n < 0x10000
  · have hlead := toNat_toUInt8 (show 0xE0 + n / 4096 < 0x100 by omega)
    have hmiddle := toNat_toUInt8 (show 0x80 + n / 64 % 64 < 0x100 by omega)
    have hlow := toNat_toUInt8 (show 0x80 + n % 64 < 0x100 by omega)
    refine ⟨_, [_, _], by rw [if_neg h1, if_neg h2, if_pos h3], ?_⟩
    refine (first_three _ (by omega) (by omega) (by apply second_of_bounds <;> omega)
      (continuation_of_bounds (by omega))).trans ?_
    rw [hc (by unfold low; omega)]
    rfl
  · have hlead := toNat_toUInt8 (show 0xF0 + n / 262144 < 0x100 by omega)
    have hsecond := toNat_toUInt8 (show 0x80 + n / 4096 % 64 < 0x100 by omega)
    have hmiddle := toNat_toUInt8 (show 0x80 + n / 64 % 64 < 0x100 by omega)
    have hlow := toNat_toUInt8 (show 0x80 + n % 64 < 0x100 by omega)
    refine ⟨_, [_, _, _], by rw [if_neg h1, if_neg h2, if_neg h3], ?_⟩
    refine (first_four _ (by omega) (by omega) (by apply second_of_bounds <;> omega)
      (continuation_of_bounds (by omega)) (continuation_of_bounds (by omega))).trans ?_
    rw [hc (by unfold low; omega)]
    rfl

theorem chunksAfter_drop : ∀ (skip : Nat) (bytes : List UInt8), chunksAfter skip bytes = chunks (bytes.drop skip)
  | 0, [] | 0, _ :: _ => rfl
  | _ + 1, [] => rfl
  | skip + 1, _ :: rest => chunksAfter_drop skip rest

theorem chunks_encoded : ∀ chars : List Char, chunks (encoded chars) = chars.map .scalar
  | [] => rfl
  | c :: chars => by
    obtain ⟨lead, tail, hbytes, hfirst⟩ := first_encoded c (encoded chars)
    have hencoded : encoded (c :: chars) = lead :: (tail ++ encoded chars) := by
      rw [encoded, List.flatMap_cons, hbytes]
      rfl
    rw [hencoded, chunks, chunksAfter, hfirst, chunksAfter_drop, List.drop_left, chunks_encoded chars, List.map_cons]

theorem firstBad_scalars : ∀ (chars : List Char) (position : Nat), firstBad position (chars.map .scalar) = none
  | [], _ => rfl
  | _ :: chars, _ => firstBad_scalars chars _

theorem chunks_of_firstBad : ∀ {chunks : List Chunk} {position : Nat}, firstBad position chunks = none →
    chunks = (chunks.filterMap Chunk.scalar?).map .scalar
  | [], _, _ => rfl
  | .scalar c :: _, _, h => congrArg (Chunk.scalar c :: ·) (chunks_of_firstBad h)
  | .bad _ _ :: _, _, h => by cases h

/-- **Bytes are read as characters exactly if they are the bytes of these.** -/
theorem strict_ok_iff {bytes : List UInt8} {chars : List Char} : strict bytes = .ok chars ↔ bytes = encoded chars := by
  constructor
  · intro h
    unfold strict at h
    split at h
    · rename_i hgood
      have hchars : (chunks bytes).filterMap Chunk.scalar? = chars := Except.ok.inj h
      have hchunks := chunks_of_firstBad hgood
      rw [hchars] at hchunks
      have hbytes := chunksAfter_bytes 0 bytes
      rw [show chunksAfter 0 bytes = chars.map .scalar from hchunks, List.flatMap_map, List.drop_zero] at hbytes
      exact hbytes.symm
    · cases h
  · rintro rfl
    have hmap : (chars.map Chunk.scalar).filterMap Chunk.scalar? = chars := by
      rw [List.filterMap_map]
      exact List.filterMap_some
    rw [strict, chunks_encoded, firstBad_scalars, hmap]

theorem encoded_inj {chars others : List Char} (h : encoded chars = encoded others) : chars = others :=
  Except.ok.inj ((strict_ok_iff.2 rfl).symm.trans (strict_ok_iff.2 h))

end Utf8
end ScriptDriver
