import ScriptDriver.Text.Charset
/-!
# Bytes — texts and the bytes they stand for

Two texts of characters that stand for the same bytes are the same text.  A text can be written as UTF-8 exactly if it
has nothing but characters, and of these only the separator stands for the byte of a separator.
-/
namespace ScriptDriver

theorem Utf8.toNat_lt (c : Char) : c.toNat < 0x110000 := by
  rcases c.valid with h | h
  · exact Nat.lt_trans h (by decide)
  · exact h.2

theorem Utf8.bytesOf_char (c : Char) : Utf8.bytesOf c.toNat = String.utf8EncodeChar c := by
  have hscalar := Utf8.toNat_lt c
  unfold Utf8.bytesOf
  rw [String.utf8EncodeChar, show c.val.toNat = c.toNat from rfl]
  by_cases h1 : c.toNat < 0x80
  · rw [if_pos h1, if_pos (show c.toNat ≤ 127 by omega)]
  rw [if_neg h1, if_neg (show ¬ c.toNat ≤ 127 by omega)]
  by_cases h2 : c.toNat < 0x800
  · have hlead : c.toNat / 64 % 32 = c.toNat / 64 := by omega
    rw [if_pos h2, if_pos (show c.toNat ≤ 2047 by omega), hlead, Nat.add_comm 0xC0, Nat.add_comm 0x80]
  rw [if_neg h2, if_neg (show ¬ c.toNat ≤ 2047 by omega)]
  by_cases h3 : c.toNat < 0x10000
  · have hlead : c.toNat / 4096 % 16 = c.toNat / 4096 := by omega
    rw [if_pos h3, if_pos (show c.toNat ≤ 65535 by omega), hlead, Nat.add_comm 0xE0, Nat.add_comm 0x80,
      Nat.add_comm 0x80]
  · have hlead : c.toNat / 262144 % 8 = c.toNat / 262144 := by omega
    rw [if_neg h3, if_neg (show ¬ c.toNat ≤ 65535 by omega), hlead, Nat.add_comm 0xF0, Nat.add_comm 0x80,
      Nat.add_comm 0x80, Nat.add_comm 0x80]

theorem Utf8.bytesOf_ascii {n : Nat} (h : n < 0x80) : Utf8.bytesOf n = [n.toUInt8] := if_pos h

/-- **A character that is not ASCII has no byte that is.** -/
theorem Utf8.high_of_mem {c : Char} {b : UInt8} (hc : 0x80 ≤ c.toNat) (h : b ∈ Utf8.bytesOf c.toNat) :
    0x80 ≤ b.toNat := by
  have hscalar := Utf8.toNat_lt c
  have hhigh (n : Nat) (hlow : 0x80 ≤ n) (hn : n < 0x100) (hb : b = n.toUInt8) : 0x80 ≤ b.toNat := by
    rw [hb, Nat.toUInt8_eq, UInt8.toNat_ofNat_of_lt' hn]
    exact hlow
  unfold Utf8.bytesOf at h
  rw [if_neg (Nat.not_lt.2 hc)] at h
  split at h
  · simp only [List.mem_cons, List.not_mem_nil, or_false] at h
    rcases h with h | h <;> exact hhigh _ (by omega) (by omega) h
  split at h
  · simp only [List.mem_cons, List.not_mem_nil, or_false] at h
    rcases h with h | h | h <;> exact hhigh _ (by omega) (by omega) h
  · simp only [List.mem_cons, List.not_mem_nil, or_false] at h
    rcases h with h | h | h | h <;> exact hhigh _ (by omega) (by omega) h

theorem Glyph.bytes_ne_nil (g : Glyph) : g.bytes ≠ [] := by
  cases g with
  | raw b => exact List.cons_ne_nil _ _
  | char c =>
    rw [Glyph.bytes, Utf8.bytesOf]
    split
    · exact List.cons_ne_nil _ _
    split
    · exact List.cons_ne_nil _ _
    split <;> exact List.cons_ne_nil _ _

/-- A character of several bytes, or a byte that is no character. -/
def Glyph.isWide (g : Glyph) : Bool := 0x80 ≤ g.code

/-- **A byte that is ASCII is that of its character only.** -/
theorem Utf8.code_of_mem {c : Char} {b : UInt8} (hb : b.toNat < 0x80) (h : b ∈ Utf8.bytesOf c.toNat) :
    c.toNat = b.toNat := by
  by_cases hc : c.toNat < 0x80
  · rw [Utf8.bytesOf_ascii hc, List.mem_singleton] at h
    rw [h, Nat.toUInt8_eq, UInt8.toNat_ofNat_of_lt' (Nat.lt_trans hc (by decide))]
  · exact absurd (Utf8.high_of_mem (Nat.not_lt.1 hc) h) (Nat.not_le.2 hb)

/-- **Only the separator has the byte of a separator.** -/
theorem Utf8.eq_of_separator_mem {c : Char} (h : (0x2F : UInt8) ∈ Utf8.bytesOf c.toNat) : c = '/' :=
  Char.ext (UInt32.toNat_inj.1 (Utf8.code_of_mem (by decide) h))

namespace Text

theorem toBytes_append (s t : Text) : toBytes (s ++ t) = toBytes s ++ toBytes t := List.flatMap_append

theorem toBytes_ofChars (cs : List Char) : toBytes (ofChars cs) = cs.flatMap String.utf8EncodeChar := by
  unfold toBytes ofChars
  rw [List.flatMap_map]
  exact congrArg cs.flatMap (funext Utf8.bytesOf_char)

/-- **Characters can be told from their bytes.** -/
theorem ofChars_eq_of_toBytes {cs ds : List Char} (h : toBytes (ofChars cs) = toBytes (ofChars ds)) : cs = ds := by
  rw [toBytes_ofChars, toBytes_ofChars] at h
  have hencoded : cs.utf8Encode = ds.utf8Encode := congrArg List.toByteArray h
  rw [← String.toByteArray_ofList, ← String.toByteArray_ofList] at hencoded
  simpa using congrArg String.toList (String.toByteArray_inj.1 hencoded)

/-- **The bytes of a text that are no characters are none of ASCII characters**, as in every text that is read from
bytes. -/
def Escaped (t : Text) : Prop := ∀ b, Glyph.raw b ∈ t → 0x80 ≤ b.toNat

theorem Escaped.code_of_mem {t : Text} (h : t.Escaped) {g : Glyph} (hg : g ∈ t) {b : UInt8} (hb : b.toNat < 0x80)
    (hmem : b ∈ g.bytes) : g = .char (Char.ofNat b.toNat) := by
  cases g with
  | char c => rw [← Utf8.code_of_mem hb hmem, Char.ofNat_toNat]
  | raw b' =>
    obtain rfl : b = b' := List.mem_singleton.1 hmem
    exact absurd (h b hg) (Nat.not_le.2 hb)

theorem Escaped.separator_not_mem {t : Text} (h : t.Escaped) (plain : Glyph.char '/' ∉ t) :
    (0x2F : UInt8) ∉ t.toBytes := by
  intro hmem
  obtain ⟨g, hg, hb⟩ := List.mem_flatMap.1 hmem
  exact plain (h.code_of_mem hg (by decide) hb ▸ hg)

end Text

/-- **What can be written as UTF-8 has nothing but characters**, and is written as these are. -/
theorem Charset.bytes_of_encodeFrom : ∀ {t : Text} {position : Nat} {bytes : List UInt8},
    Charset.utf8.encodeFrom position t = .ok bytes →
      ∃ cs, t = Text.ofChars cs ∧ bytes = cs.flatMap String.utf8EncodeChar
  | [], _, _, h => by
    cases h
    exact ⟨[], rfl, rfl⟩
  | g :: t, position, bytes, h => by
    cases g with
    | raw b => cases h
    | char c =>
      rw [Charset.encodeFrom] at h
      cases hrest : Charset.utf8.encodeFrom (position + 1) t with
      | error e =>
        rw [hrest] at h
        cases h
      | ok rest =>
        rw [hrest] at h
        cases h
        obtain ⟨cs, rfl, rfl⟩ := bytes_of_encodeFrom hrest
        exact ⟨c :: cs, rfl, by rw [List.flatMap_cons, Utf8.bytesOf_char]⟩

theorem Charset.bytes_of_encode {t : Text} {bytes : List UInt8} (h : Charset.utf8.encode t = .ok bytes) :
    ∃ cs, t = Text.ofChars cs ∧ bytes = cs.flatMap String.utf8EncodeChar := bytes_of_encodeFrom h

theorem Charset.chars_of_encode {t : Text} {bytes : List UInt8} (h : Charset.utf8.encode t = .ok bytes) :
    ∃ cs, t = Text.ofChars cs := by
  obtain ⟨cs, hcs, -⟩ := bytes_of_encode h
  exact ⟨cs, hcs⟩

end ScriptDriver
