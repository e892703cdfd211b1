import Mathlib.Data.Nat.Digits.Lemmas
import ScriptDriver.Text.Decimal
/-!
# Integer — what a written integer denotes

A written integer is an optional minus sign and some digits, and denotes what their places say (`isInteger_iff`,
`denoted_of_denotes`).  Every integer has one canonical text, without needless zeros and without a sign for zero, and
that is how it is written (`canonical_iff`).  So it can be written exactly if that text has few enough digits.
-/
namespace ScriptDriver.Decimal

/-! ## Digits -/

def digitGlyph (d : Nat) : Glyph := .char (Char.ofNat (0x30 + d))

/-- **The digits of a text**, the most significant one first. -/
structure DigitsOf (t : Text) (ds : List Nat) : Prop where
  given : ds ≠ []
  small : ∀ d ∈ ds, d < 10
  text : t = ds.map digitGlyph

/-- What digits denote by their places. -/
def magnitude (ds : List Nat) : Nat := Nat.ofDigits 10 ds.reverse

theorem code_digitGlyph : ∀ d < 10, (digitGlyph d).code - 0x30 = d := by decide

theorem isDigit_digitGlyph : ∀ d < 10, isDigit (digitGlyph d) = true := by decide

theorem digitGlyph_ne_minus : ∀ d < 10, digitGlyph d ≠ .char '-' := by decide

theorem exists_digit {g : Glyph} (h : isDigit g = true) : ∃ d < 10, g = digitGlyph d := by
  cases g with
  | raw b => cases h
  | char c =>
    have hdigit : c.isDigit = true := (Bool.and_eq_true_iff.1 h).2
    have hlow : 0x30 ≤ c.toNat := UInt32.le_iff_toNat_le.1 (of_decide_eq_true (Bool.and_eq_true_iff.1 hdigit).1)
    have hhigh : c.toNat ≤ 0x39 := UInt32.le_iff_toNat_le.1 (of_decide_eq_true (Bool.and_eq_true_iff.1 hdigit).2)
    refine ⟨c.toNat - 0x30, by omega, ?_⟩
    unfold digitGlyph
    rw [Nat.add_sub_cancel' hlow, Char.ofNat_toNat]

theorem exists_digits : ∀ {t : Text}, t.all isDigit = true → ∃ ds : List Nat, (∀ d ∈ ds, d < 10) ∧ t = ds.map digitGlyph
  | [], _ => ⟨[], nofun, rfl⟩
  | g :: t, h => by
    rw [List.all_cons, Bool.and_eq_true] at h
    obtain ⟨d, hd, rfl⟩ := exists_digit h.1
    obtain ⟨ds, hds, rfl⟩ := exists_digits h.2
    exact ⟨d :: ds, List.forall_mem_cons.2 ⟨hd, hds⟩, rfl⟩

theorem foldl_digits : ∀ (ds : List Nat) (n : Nat), (∀ d ∈ ds, d < 10) →
    (ds.map digitGlyph).foldl (fun n g => n * 10 + (g.code - 0x30)) n = n * 10 ^ ds.length + magnitude ds
  | [], n, _ => by simp [magnitude]
  | d :: ds, n, h => by
    obtain ⟨hd, hds⟩ := List.forall_mem_cons.1 h
    have hplaces : magnitude (d :: ds) = magnitude ds + 10 ^ ds.length * d := by
      unfold magnitude
      rw [List.reverse_cons, Nat.ofDigits_append, List.length_reverse, Nat.ofDigits_singleton]
    rw [List.map_cons, List.foldl_cons, code_digitGlyph d hd, foldl_digits ds _ hds, hplaces, List.length_cons, pow_succ]
    ring

section
variable {t : Text} {ds : List Nat} (h : DigitsOf t ds)
include h

theorem DigitsOf.all_isDigit : t.all isDigit = true := by
  rw [h.text, List.all_eq_true]
  intro g hg
  obtain ⟨d, hd, rfl⟩ := List.mem_map.1 hg
  exact isDigit_digitGlyph d (h.small d hd)

theorem DigitsOf.ne_nil : t ≠ [] := by
  rw [h.text]
  exact mt List.map_eq_nil_iff.1 h.given

theorem DigitsOf.value_eq : value t = magnitude ds := by
  unfold value
  rw [h.text, foldl_digits ds 0 h.small, Nat.zero_mul, Nat.zero_add]

theorem DigitsOf.count : t.countP isDigit = ds.length := by
  rw [List.countP_eq_length.2 (List.all_eq_true.1 h.all_isDigit), h.text, List.length_map]

theorem DigitsOf.split_eq : split t = (false, t) := by
  unfold split
  split
  · rename_i digits
    have hminus := h.text
    cases ds with
    | nil => exact absurd rfl h.given
    | cons d ds =>
      rw [List.map_cons, List.cons.injEq] at hminus
      exact absurd hminus.1.symm (digitGlyph_ne_minus d (h.small d List.mem_cons_self))
  · rfl

/-- **So many digits denote nothing larger.** -/
theorem DigitsOf.magnitude_lt : magnitude ds < 10 ^ t.countP isDigit := by
  unfold magnitude
  rw [h.count, ← List.length_reverse]
  exact Nat.ofDigits_lt_base_pow_length (by decide) fun d hd => h.small d (List.mem_reverse.1 hd)

end

/-! ## Integers -/

/-- **What a text denotes**, if it is an integer: a minus sign before the digits negates. -/
inductive Denotes : Text → Int → Prop
  | plain {t : Text} {ds : List Nat} (digits : DigitsOf t ds) : Denotes t (magnitude ds)
  | minus {t : Text} {ds : List Nat} (digits : DigitsOf t ds) : Denotes (.char '-' :: t) (-(magnitude ds : Int))

/-- **The check accepts what denotes an integer**, and nothing else. -/
theorem isInteger_iff {t : Text} : isInteger t = true ↔ ∃ n, Denotes t n := by
  unfold isInteger
  rw [Bool.and_eq_true, decide_eq_true_eq]
  constructor
  · rintro ⟨given, hall⟩
    obtain ⟨ds, hsmall, htext⟩ := exists_digits hall
    have digits : DigitsOf (split t).2 ds := ⟨fun hnil => given (by rw [htext, hnil]; rfl), hsmall, htext⟩
    unfold split at digits
    split at digits
    · exact ⟨_, .minus digits⟩
    · exact ⟨_, .plain digits⟩
  · rintro ⟨n, h⟩
    cases h with
    | plain digits =>
      rw [digits.split_eq]
      exact ⟨digits.ne_nil, digits.all_isDigit⟩
    | minus digits => exact ⟨digits.ne_nil, digits.all_isDigit⟩

section
variable {t : Text} {n : Int} (h : Denotes t n)
include h

theorem denoted_of_denotes : denoted t = n := by
  unfold denoted
  cases h with
  | plain digits => rw [digits.split_eq, if_neg Bool.false_ne_true, digits.value_eq]
  | minus digits => rw [split, if_pos rfl, digits.value_eq]

theorem length_of_denotes : (split t).2.length = t.countP isDigit := by
  cases h with
  | plain digits => rw [digits.split_eq, List.countP_eq_length.2 (List.all_eq_true.1 digits.all_isDigit)]
  | minus digits =>
    rw [split, List.countP_cons_of_neg (by decide),
      List.countP_eq_length.2 (List.all_eq_true.1 digits.all_isDigit)]

theorem natAbs_lt_of_denotes : n.natAbs < 10 ^ t.countP isDigit := by
  cases h with
  | plain digits => exact digits.magnitude_lt
  | minus digits =>
    rw [List.countP_cons_of_neg (by decide), Int.natAbs_neg]
    exact digits.magnitude_lt

end

/-! ## Canonical texts -/

/-- **The canonical text of an integer**: no zero at the beginning of another number, and no sign for zero. -/
inductive Canonical : Text → Int → Prop
  | zero : Canonical "0" 0
  | positive {t : Text} {d : Nat} {ds : List Nat} (digits : DigitsOf t (d :: ds)) (leading : d ≠ 0) :
    Canonical t (magnitude (d :: ds))
  | negative {t : Text} {d : Nat} {ds : List Nat} (digits : DigitsOf t (d :: ds)) (leading : d ≠ 0) :
    Canonical (.char '-' :: t) (-(magnitude (d :: ds) : Int))

theorem Canonical.denotes {t : Text} {n : Int} (h : Canonical t n) : Denotes t n := by
  cases h with
  | zero => exact @Denotes.plain _ [0] ⟨List.cons_ne_nil _ _, by decide, rfl⟩
  | positive digits => exact .plain digits
  | negative digits => exact .minus digits

theorem magnitude_digits (n : Nat) : magnitude (Nat.digits 10 n).reverse = n := by
  unfold magnitude
  rw [List.reverse_reverse, Nat.ofDigits_digits]

theorem digits_magnitude {d : Nat} {ds : List Nat} (small : ∀ e ∈ d :: ds, e < 10) (leading : d ≠ 0) :
    (Nat.digits 10 (magnitude (d :: ds))).reverse = d :: ds := by
  unfold magnitude
  rw [Nat.digits_ofDigits 10 (by decide) _ (fun e he => small e (List.mem_reverse.1 he)), List.reverse_reverse]
  intro hne
  rwa [List.getLast_reverse]

theorem toDigits_eq : ∀ n : Nat, 0 < n →
    (Nat.toDigits 10 n).map Glyph.char = (Nat.digits 10 n).reverse.map digitGlyph := by
  have hdigit : ∀ d < 10, Glyph.char (Nat.digitChar d) = digitGlyph d := by decide
  intro n
  induction n using Nat.strongRecOn with
  | ind n ih =>
    intro hpos
    rw [Nat.digits_def' (by decide) hpos, List.reverse_cons, List.map_append]
    by_cases hsmall : n < 10
    · rw [Nat.toDigits_of_lt_base hsmall, Nat.div_eq_of_lt hsmall, Nat.mod_eq_of_lt hsmall, Nat.digits_zero]
      simp [hdigit n hsmall]
    · have hle : 10 ≤ n := Nat.le_of_not_lt hsmall
      rw [Nat.toDigits_of_base_le (by decide) hle, List.map_append, ih (n / 10) (by omega) (by omega)]
      simp [hdigit (n % 10) (Nat.mod_lt n (by decide))]

theorem exists_ofNat {n : Nat} (h : 0 < n) :
    ∃ d ds, DigitsOf (Text.ofNat n) (d :: ds) ∧ d ≠ 0 ∧ magnitude (d :: ds) = n := by
  have hn : n ≠ 0 := Nat.pos_iff_ne_zero.1 h
  have hgiven : Nat.digits 10 n ≠ [] := Nat.digits_ne_nil_iff_ne_zero.2 hn
  cases hds : (Nat.digits 10 n).reverse with
  | nil => exact absurd (List.reverse_eq_nil_iff.1 hds) hgiven
  | cons d ds =>
    have hsmall : ∀ e ∈ d :: ds, e < 10 := fun e he =>
      Nat.digits_lt_base (by decide) (List.mem_reverse.1 (hds ▸ he))
    refine ⟨d, ds, ⟨List.cons_ne_nil _ _, hsmall, ?_⟩, ?_, hds ▸ magnitude_digits n⟩
    · rw [← hds]
      exact toDigits_eq n h
    · have hlast := Nat.getLast_digit_ne_zero 10 hn
      rw [← List.head_reverse (by simpa using hgiven)] at hlast
      simpa [hds] using hlast

/-- Digits without a zero at the beginning are how their number is written. -/
theorem ofNat_magnitude {t : Text} {d : Nat} {ds : List Nat} (digits : DigitsOf t (d :: ds)) (leading : d ≠ 0) :
    0 < magnitude (d :: ds) ∧ Text.ofNat (magnitude (d :: ds)) = t := by
  have hdigits := digits_magnitude digits.small leading
  have hpos : 0 < magnitude (d :: ds) := by
    rw [Nat.pos_iff_ne_zero]
    intro hzero
    rw [hzero, Nat.digits_zero] at hdigits
    cases hdigits
  refine ⟨hpos, ?_⟩
  calc Text.ofNat (magnitude (d :: ds))
      = (Nat.digits 10 (magnitude (d :: ds))).reverse.map digitGlyph := toDigits_eq _ hpos
    _ = t := by rw [hdigits, digits.text]

/-- **An integer is written as its canonical text**, and has no other one. -/
theorem canonical_iff {t : Text} {n : Int} : Canonical t n ↔ t = Text.ofInt n := by
  constructor
  · intro h
    cases h with
    | zero => rfl
    | positive digits leading => exact (ofNat_magnitude digits leading).2.symm
    | negative digits leading =>
      obtain ⟨hpos, htext⟩ := ofNat_magnitude digits leading
      obtain ⟨m, hm⟩ := Nat.exists_eq_succ_of_ne_zero (Nat.pos_iff_ne_zero.1 hpos)
      rw [← htext, hm]
      rfl
  · rintro rfl
    rcases Int.lt_trichotomy n 0 with hneg | rfl | hpos
    · obtain ⟨m, rfl⟩ := Int.eq_negSucc_of_lt_zero hneg
      obtain ⟨d, ds, digits, leading, hm⟩ := exists_ofNat (Nat.succ_pos m)
      have hcanonical := Canonical.negative digits leading
      rw [hm] at hcanonical
      exact hcanonical
    · exact .zero
    · obtain ⟨m, rfl⟩ := Int.eq_ofNat_of_zero_le (Int.le_of_lt hpos)
      obtain ⟨d, ds, digits, leading, hm⟩ := exists_ofNat (Int.natCast_pos.1 hpos)
      have hn : (m : Int) = (magnitude (d :: ds) : Int) := by rw [hm]
      rw [hn]
      exact Canonical.positive (hm ▸ digits) leading

theorem ofInt_denotes (n : Int) : Denotes (Text.ofInt n) n := (canonical_iff.2 rfl).denotes

/-- **Different integers have different texts.** -/
theorem ofInt_inj {n n' : Int} (h : Text.ofInt n = Text.ofInt n') : n = n' := by
  rw [← denoted_of_denotes (ofInt_denotes n), h, denoted_of_denotes (ofInt_denotes n')]

theorem count_ofNat (n : Nat) : (Text.ofNat n).countP isDigit = (Nat.toDigits 10 n).length := by
  have hall : (Text.ofNat n).all isDigit = true := by
    by_cases h : n = 0
    · rw [h]
      decide
    · obtain ⟨d, ds, digits, -, -⟩ := exists_ofNat (Nat.pos_of_ne_zero h)
      exact digits.all_isDigit
  rw [List.countP_eq_length.2 (List.all_eq_true.1 hall)]
  exact List.length_map _

/-- **The integers of few enough digits** are those below a power of ten. -/
theorem count_ofInt_le {n : Int} {k : Nat} (hk : 0 < k) :
    (Text.ofInt n).countP isDigit ≤ k ↔ n.natAbs < 10 ^ k := by
  have hcount : (Text.ofInt n).countP isDigit = (Nat.toDigits 10 n.natAbs).length := by
    cases n with
    | ofNat n => exact count_ofNat n
    | negSucc n => exact (List.countP_cons_of_neg (by decide)).trans (count_ofNat (n + 1))
  rw [hcount, Nat.length_toDigits_le_iff (by decide) hk]

theorem ofInt_of_write {n : Int} {t : Text} (h : write n = .ok t) : t = Text.ofInt n := by
  unfold write at h
  split at h
  · cases h
  · exact (Except.ok.inj h).symm

theorem write_of_lt {n : Int} (h : n.natAbs < Nat.pow 10 digitLimit) : write n = .ok (Text.ofInt n) :=
  if_neg (Nat.not_le.2 h)

/-- **What few enough digits denote can be written.** -/
theorem write_of_denotes {t : Text} {n : Int} (h : Denotes t n) (few : t.countP isDigit ≤ digitLimit) :
    write n = .ok (Text.ofInt n) := by
  have hbelow (k : Nat) (hk : t.countP isDigit ≤ k) : n.natAbs < Nat.pow 10 k :=
    Nat.lt_of_lt_of_le (natAbs_lt_of_denotes h) (Nat.pow_le_pow_right (by decide) hk)
  exact write_of_lt (hbelow digitLimit few)

end ScriptDriver.Decimal
