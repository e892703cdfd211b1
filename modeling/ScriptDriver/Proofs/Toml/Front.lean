import Mathlib.Algebra.Group.Nat.Defs
import ScriptDriver.Toml.Lexeme
/-!
# Front — what is left of a source

A reader takes characters from the front, so what it leaves is an ending of the source.  The digits of a number are those
of a run of digits and underscores.
-/
namespace ScriptDriver.Toml

variable {α β : Type} {s s' : Source}

/-- **What a reader leaves** is an ending of the source. -/
def Leaves (s : Source) (r : Option (α × Source)) : Prop := ∀ a rest, r = some (a, rest) → rest <:+ s

namespace Leaves

theorem nothing : Leaves s (none : Option (α × Source)) := by
  intro a rest h
  cases h

theorem found {a : α} {rest : Source} (h : rest <:+ s) : Leaves s (some (a, rest)) := by
  rintro _ _ ⟨⟩
  exact h

theorem of_suffix {r : Option (α × Source)} (h : Leaves s r) (hs : s <:+ s') : Leaves s' r :=
  fun a rest hr => (h a rest hr).trans hs

theorem map {r : Option (α × Source)} (f : α → β) (h : Leaves s r) : Leaves s (r.map fun x => (f x.1, x.2)) := by
  intro b rest hr
  obtain ⟨x, hx, heq⟩ := Option.map_eq_some_iff.1 hr
  cases heq
  exact h x.1 x.2 hx

end Leaves

/-! ## Strings -/

theorem Quotation.read_leaves (q : Quotation) : ∀ (s : Source) (part : StringPart), Leaves s (q.read part s)
  | [], part => by
    unfold Quotation.read
    split
    · split
      · exact .found (List.suffix_refl _)
      · exact .nothing
    · exact .nothing
  | c :: rest, part => by
    unfold Quotation.read
    split
    · exact .nothing
    · rename_i taken _
      cases taken with
      | true => exact .found (List.suffix_cons c rest)
      | false => exact .found (List.suffix_refl _)
    · rename_i part _
      have ih := (q.read_leaves rest part).of_suffix (List.suffix_cons c rest)
      split
      · exact .nothing
      · rename_i hread
        exact .found (ih _ _ hread)

theorem simpleString?_leaves (s : Source) : Leaves s (simpleString? s) := by
  unfold simpleString?
  split
  · exact ((Quotation.read_leaves _ _ _).of_suffix (List.suffix_cons _ _)).map _
  · exact ((Quotation.read_leaves _ _ _).of_suffix (List.suffix_cons _ _)).map _
  · exact .nothing

theorem tripleString_leaves (mark : Char) (s : Source) : Leaves s (tripleString mark s) := by
  unfold tripleString
  refine (Leaves.of_suffix (Quotation.read_leaves _ _ _) ?_).map _
  split
  · exact List.suffix_cons _ _
  · exact List.suffix_refl _

theorem afterTriple?_leaves (s : Source) : Leaves s (afterTriple? s) := by
  unfold afterTriple?
  split
  · exact .found (List.suffix_append ['"', '"', '"'] _)
  · exact .found (List.suffix_append ['\'', '\'', '\''] _)
  · exact .nothing

/-! ## Keys -/

theorem dropBlanks_suffix (s : Source) : dropBlanks s <:+ s := List.dropWhile_suffix _

theorem name?_leaves (s : Source) : Leaves s (name? s) := by
  unfold name?
  simp only
  split
  · exact simpleString?_leaves s
  · exact .found (List.dropWhile_suffix _)

theorem names?_leaves : ∀ (fuel : Nat) (s : Source), Leaves s (names? fuel s)
  | 0, _ => .nothing
  | fuel + 1, s => by
    unfold names?
    cases hname : name? s with
    | none => exact .nothing
    | some r =>
      obtain ⟨name, rest⟩ := r
      have hrest : dropBlanks rest <:+ s := (dropBlanks_suffix rest).trans (name?_leaves s _ _ hname)
      dsimp only
      split
      · rename_i after heq
        have hafter : dropBlanks after <:+ s :=
          ((dropBlanks_suffix after).trans (List.suffix_cons _ _)).trans (heq ▸ hrest)
        exact ((names?_leaves fuel (dropBlanks after)).of_suffix hafter).map _
      · exact .found hrest

theorem key?_leaves (s : Source) : Leaves s (key? s) := names?_leaves _ s

/-! ## Numbers -/

/-- **What digits are read from**: a run of digits and underscores at the front. -/
structure RunOf (p : Char → Bool) (s : Source) (ds : List Char) (rest run : Source) : Prop where
  front : run ++ rest = s
  enough : ds.length ≤ run.length
  made : ∀ c ∈ run, p c = true ∨ c = '_'

theorem exists_run (p : Char → Bool) (s : Source) : ∃ run, RunOf p s (moreDigits p s).1 (moreDigits p s).2 run := by
  -- the run goes on at a digit and at an underscore before one, and ends at all else
  fun_induction moreDigits p s with
  | case1 c s hc ds rest heq ih =>
    obtain ⟨run, hfront, henough, hmade⟩ := ih
    rw [heq] at hfront henough
    refine ⟨'_' :: c :: run, by simpa using hfront, ?_, by simpa [hc] using hmade⟩
    simp only [List.length_cons] at henough ⊢
    omega
  | case3 c s _ hc ds rest heq ih =>
    obtain ⟨run, hfront, henough, hmade⟩ := ih
    rw [heq] at hfront henough
    exact ⟨c :: run, by simp [hfront], Nat.succ_le_succ henough, by simpa [hc] using hmade⟩
  | case2 | case4 | case5 => exact ⟨[], rfl, Nat.le_refl _, nofun⟩

theorem exists_run_of_digits {p : Char → Bool} {ds : List Char} {rest : Source} (h : digits? p s = some (ds, rest)) :
    ∃ run, RunOf p s ds rest run := by
  unfold digits? at h
  split at h
  · split at h
    · rename_i c s _
      have hrun := exists_run p (c :: s)
      rwa [Option.some.inj h] at hrun
    · cases h
  · cases h

theorem digits?_leaves (p : Char → Bool) (s : Source) : Leaves s (digits? p s) := by
  intro ds rest h
  obtain ⟨run, hrun⟩ := exists_run_of_digits h
  exact ⟨run, hrun.front⟩

theorem places_suffix (s : Source) : (places s).2 <:+ s := by
  unfold places
  split
  · rename_i rest
    cases hdigits : digits? isDigit rest with
    | none => exact List.suffix_refl _
    | some r => exact (digits?_leaves _ _ _ _ hdigits).trans (List.suffix_cons _ _)
  · exact List.suffix_refl _

theorem exponent?_leaves (s : Source) : Leaves s (exponent? s) := by
  have hsigned (negative : Bool) (rest : Source) :=
    (digits?_leaves isDigit rest).map fun ds => if negative then -(valueOf 10 ds : Int) else valueOf 10 ds
  unfold exponent?
  dsimp only
  split
  · rename_i e rest
    split
    · refine Leaves.of_suffix (s := rest) ?_ (List.suffix_cons e rest)
      split
      · exact (hsigned true _).of_suffix (List.suffix_cons _ _)
      · exact (hsigned false _).of_suffix (List.suffix_cons _ _)
      · exact hsigned false _
    · exact .nothing
  · exact .nothing

theorem wordNumber?_leaves (s : Source) : Leaves s (wordNumber? s) := by
  unfold wordNumber?
  split
  all_goals first
    | exact .nothing
    | exact .found (List.suffix_append [_, _, _] _)
    | exact .found (List.suffix_append [_, _, _, _] _)

/-! ## Dates and times -/

theorem pair?_leaves (low high : Nat) (s : Source) : Leaves s (pair? low high s) := by
  unfold pair?
  split
  · dsimp only
    split
    · exact .found (List.suffix_append [_, _] _)
    · exact .nothing
  · exact .nothing

theorem suffix_of_mark {c : Char} {rest : Source} (h : mark? c s = some rest) : rest <:+ s := by
  unfold mark? at h
  split at h
  · split at h
    · cases h
      exact List.suffix_cons _ _
    · cases h
  · cases h

theorem millionths_suffix (s : Source) : (millionths s).2 <:+ s := by
  unfold millionths
  split
  · dsimp only
    split
    · exact List.suffix_refl _
    · exact (List.dropWhile_suffix _).trans (List.suffix_cons _ _)
  · exact List.suffix_refl _

/-- A mark and a number of two digits. -/
theorem suffix_of_marked {c : Char} {low high n : Nat} {after rest : Source} (hmark : mark? c s = some after)
    (hpair : pair? low high after = some (n, rest)) : rest <:+ s :=
  (pair?_leaves low high after n rest hpair).trans (suffix_of_mark hmark)

theorem clock?_leaves (s : Source) : Leaves s (clock? s) := by
  intro c rest h
  simp only [clock?, Option.bind_eq_bind, Option.bind_eq_some_iff, Option.pure_def, Option.some.injEq, Prod.exists,
    Prod.mk.injEq] at h
  obtain ⟨hour, s₁, h₁, s₂, h₂, minute, s₃, h₃, s₄, h₄, second, s₅, h₅, -, rfl⟩ := h
  exact (millionths_suffix s₅).trans ((suffix_of_marked h₄ h₅).trans
    ((suffix_of_marked h₂ h₃).trans (pair?_leaves _ _ _ _ _ h₁)))

theorem date?_leaves (s : Source) : Leaves s (date? s) := by
  intro d rest h
  unfold date? at h
  dsimp only at h
  split at h
  · simp only [Option.bind_eq_bind, Option.bind_eq_some_iff, Option.pure_def, Option.some.injEq, Prod.exists,
      Prod.mk.injEq] at h
    obtain ⟨s₁, h₁, month, s₂, h₂, s₃, h₃, day, s₄, h₄, -, rfl⟩ := h
    exact (suffix_of_marked h₃ h₄).trans ((suffix_of_marked h₁ h₂).trans (List.drop_suffix 4 s))
  · cases h

theorem ahead_suffix (s : Source) : (ahead s).2 <:+ s := by
  unfold ahead
  dsimp only
  split
  · exact List.suffix_cons _ _
  · exact List.suffix_cons _ _
  case h_5 => exact List.suffix_refl _
  all_goals
    split
    · rename_i heq
      simp only [Option.bind_eq_bind, Option.bind_eq_some_iff, Option.pure_def, Option.some.injEq, Prod.exists,
        Prod.mk.injEq] at heq
      obtain ⟨hours, s₁, h₁, s₂, h₂, minutes, s₃, h₃, -, rfl⟩ := heq
      exact ((suffix_of_marked h₂ h₃).trans (pair?_leaves _ _ _ _ _ h₁)).trans (List.suffix_cons _ _)
    · exact List.suffix_refl _

theorem moment?_leaves (s : Source) : Leaves s (moment? s) := by
  unfold moment?
  cases hdate : date? s with
  | none => exact (clock?_leaves s).map _
  | some r =>
    obtain ⟨d, rest⟩ := r
    have hrest := date?_leaves s d rest hdate
    dsimp only
    split
    · rename_i t after
      split
      · cases hclock : clock? after with
        | none => exact .found hrest
        | some r =>
          obtain ⟨c, after'⟩ := r
          exact .found ((ahead_suffix after').trans
            ((clock?_leaves after c after' hclock).trans ((List.suffix_cons t after).trans hrest)))
      · exact .found hrest
    · exact .found hrest

/-! ## Numbers of few digits -/

/-- **No run of digits is longer than `n`**, hexadecimal digits and underscores among them. -/
def DigitsWithin (n : Nat) (s : Source) : Prop :=
  ∀ run, run <:+: s → (∀ c ∈ run, (hexDigit? c).isSome = true ∨ c = '_') → run.length ≤ n

theorem DigitsWithin.of_suffix {n : Nat} (h : DigitsWithin n s) (hs : s' <:+ s) : DigitsWithin n s' :=
  fun run hrun => h run (hrun.trans hs.isInfix)

theorem hexDigit?_lt {c : Char} {d : Nat} (h : hexDigit? c = some d) : d < 16 := by
  simp only [hexDigit?, Char.le_def, UInt32.le_iff_toNat_le] at h
  have hcode : c.val.toNat = c.toNat := rfl
  have h9 : ('9' : Char).val.toNat = 57 := rfl
  have hf : ('f' : Char).val.toNat = 102 := rfl
  have hF : ('F' : Char).val.toNat = 70 := rfl
  split at h
  · cases h
    omega
  · split at h
    · cases h
      omega
    · split at h
      · cases h
        omega
      · cases h

theorem isSome_hexDigit? {c : Char} (h : '0' ≤ c ∧ c ≤ '9') : (hexDigit? c).isSome = true := by
  rw [hexDigit?, if_pos h]
  rfl

/-- The value of digits is less than the next power of sixteen, in every base up to that. -/
theorem valueOf_lt {base : Nat} (hbase : base ≤ 16) (ds : List Char) : valueOf base ds < 16 ^ ds.length := by
  have hstep (a k : Nat) (c : Char) (h : a < 16 ^ k) : a * base + (hexDigit? c).getD 0 < 16 ^ (k + 1) := by
    have hdigit : (hexDigit? c).getD 0 < 16 := by
      cases hc : hexDigit? c with
      | none => decide
      | some d => exact hexDigit?_lt hc
    have hmul : a * base ≤ a * 16 := Nat.mul_le_mul_left a hbase
    rw [Nat.pow_succ]
    omega
  have hfold : ∀ (ds : List Char) (a k : Nat), a < 16 ^ k →
      ds.foldl (fun n c => n * base + (hexDigit? c).getD 0) a < 16 ^ (k + ds.length) := by
    intro ds
    induction ds with
    | nil => exact fun a k h => h
    | cons c ds ih =>
      intro a k h
      rw [List.foldl_cons, List.length_cons, Nat.add_comm ds.length 1, ← Nat.add_assoc]
      exact ih _ _ (hstep a k c h)
  have h := hfold ds 0 0 (by decide)
  rwa [Nat.zero_add] at h

theorem length_digits_le {n : Nat} {p : Char → Bool} {ds : List Char} {rest : Source}
    (hp : ∀ c, p c = true → (hexDigit? c).isSome = true) (within : DigitsWithin n s)
    (h : digits? p s = some (ds, rest)) : ds.length ≤ n := by
  obtain ⟨run, hrun⟩ := exists_run_of_digits h
  exact Nat.le_trans hrun.enough (within run ⟨[], rest, hrun.front⟩ fun c hc => (hrun.made c hc).imp_left (hp c))

/-- A number with at most `n` digits. -/
def Numeral.Within (n : Nat) : Numeral → Prop
  | .bits m => m < 16 ^ n
  | .decimal _ ds => ds.length ≤ n
  | .fraction _ _ _ => True

/-- What reading a number finds and leaves. -/
def Numeral.Front (n : Nat) (s : Source) (r : Option (Numeral × Source)) : Prop :=
  ∀ num rest, r = some (num, rest) → rest <:+ s ∧ num.Within n

theorem Numeral.Front.nothing {n : Nat} : Numeral.Front n s none := by
  intro num rest h
  cases h

theorem Numeral.Front.of_suffix {n : Nat} {r : Option (Numeral × Source)} (h : Numeral.Front n s r) (hs : s <:+ s') :
    Numeral.Front n s' r := fun num rest hr => (h num rest hr).imp_left (List.IsSuffix.trans · hs)

theorem isDigit_hex (c : Char) (h : isDigit c = true) : (hexDigit? c).isSome = true :=
  isSome_hexDigit? (by simpa [isDigit] using h)

theorem unsigned?_front {n : Nat} (hn : 1 ≤ n) (negative : Bool) (within : DigitsWithin n s) :
    Numeral.Front n s (unsigned? negative s) := by
  intro num rest h
  unfold unsigned? at h
  dsimp only at h
  split at h
  · cases h
  · rename_i ds after hwhole
    have hds : after <:+ s ∧ ds.length ≤ n := by
      split at hwhole
      · cases hwhole
        exact ⟨List.suffix_cons _ _, hn⟩
      · exact ⟨digits?_leaves _ _ _ _ hwhole, length_digits_le isDigit_hex within hwhole⟩
    have hplaces := (places_suffix after).trans hds.1
    split at h
    · rename_i hexponent
      cases h
      exact ⟨(exponent?_leaves _ _ _ hexponent).trans hplaces, trivial⟩
    · split at h
      · cases h
        exact ⟨hplaces, hds.2⟩
      · cases h
        exact ⟨hplaces, trivial⟩

theorem bits?_front {n : Nat} (within : DigitsWithin n s) : Numeral.Front n s (bits? s) := by
  have hbase {base : Nat} {p : Char → Bool} {rest : Source} (hle : base ≤ 16)
      (hp : ∀ c, p c = true → (hexDigit? c).isSome = true) (hrest : rest <:+ s) :
      Numeral.Front n s ((digits? p rest).map fun x => (.bits (valueOf base x.1), x.2)) := by
    intro num after h
    obtain ⟨x, hdigits, heq⟩ := Option.map_eq_some_iff.1 h
    cases heq
    refine ⟨(digits?_leaves p rest x.1 x.2 hdigits).trans hrest, ?_⟩
    exact Nat.lt_of_lt_of_le (valueOf_lt hle x.1)
      (Nat.pow_le_pow_right (by decide) (length_digits_le hp (within.of_suffix hrest) hdigits))
  unfold bits?
  split
  · rename_i mark rest
    have hrest : rest <:+ '0' :: mark :: rest := List.suffix_append ['0', mark] rest
    dsimp only
    split
    · exact hbase (by decide) (fun c h => h) hrest
    · split
      · refine hbase (by decide) (fun c h => ?_) hrest
        simp only [Bool.and_eq_true, decide_eq_true_eq] at h
        exact isSome_hexDigit? ⟨h.1, Char.le_trans h.2 (by decide)⟩
      · split
        · refine hbase (by decide) (fun c h => ?_) hrest
          simp only [Bool.or_eq_true, decide_eq_true_eq] at h
          rcases h with rfl | rfl <;> rfl
        · exact .nothing
  · exact .nothing

theorem numeral?_front {n : Nat} (hn : 1 ≤ n) (within : DigitsWithin n s) : Numeral.Front n s (numeral? s) := by
  unfold numeral?
  split
  · rename_i r hbits
    intro num rest h
    exact bits?_front within num rest (hbits.trans h)
  · split
    · exact (unsigned?_front hn true (within.of_suffix (List.suffix_cons _ _))).of_suffix (List.suffix_cons _ _)
    · exact (unsigned?_front hn false (within.of_suffix (List.suffix_cons _ _))).of_suffix (List.suffix_cons _ _)
    · exact unsigned?_front hn false within

end ScriptDriver.Toml
