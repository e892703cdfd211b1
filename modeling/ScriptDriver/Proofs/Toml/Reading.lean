import ScriptDriver.Proofs.Toml.Front
import ScriptDriver.Proofs.Toml.Integers
import ScriptDriver.Toml.Reader
/-!
# Reading — texts without long numbers

A text in which no run of digits is too long is read, or it is malformed, and there are no large integers in what is read
(`read_fair`).  It is so for each part of a document, since what is read leaves an ending of the text.
-/
namespace ScriptDriver.Toml

variable {α : Type} {s s' : Source}

/-- **What is read is fine, or malformed**, but not too long. -/
inductive Fair (P : α → Prop) : Except Fault α → Prop
  | ok {a : α} (fine : P a) : Fair P (.ok a)
  | malformed : Fair P (.error .malformed)

theorem Fair.cases {P : α → Prop} {r : Except Fault α} (h : Fair P r) : (∃ a, r = .ok a ∧ P a) ∨ r = .error .malformed := by
  cases h with
  | ok h => exact .inl ⟨_, rfl, h⟩
  | malformed => exact .inr rfl

/-- A fair front: what is read is fine, and an ending is left. -/
def FairFront (P : α → Prop) (s : Source) : Parsed α → Prop := Fair fun r => r.2 <:+ s ∧ P r.1

namespace FairFront

variable {P : α → Prop}

theorem found {a : α} {rest : Source} (h : rest <:+ s) (ha : P a) : FairFront P s (.ok (a, rest)) := .ok ⟨h, ha⟩

theorem of_suffix {r : Parsed α} (h : FairFront P s r) (hs : s <:+ s') : FairFront P s' r := by
  cases h with
  | ok h => exact .ok ⟨h.1.trans hs, h.2⟩
  | malformed => exact .malformed

theorem expect {β : Type} {r : Option (β × Source)} (h : Leaves s r) (f : β → α) (hP : ∀ b, P (f b)) :
    FairFront P s (expect (r.map fun x => (f x.1, x.2))) := by
  cases r with
  | none => exact .malformed
  | some r => exact .ok ⟨h r.1 r.2 rfl, hP r.1⟩

end FairFront

/-! ## Values -/

/-- The integers of at most `n` hexadecimal digits. -/
def Small (n : Nat) (m : Int) : Prop := m.natAbs < 16 ^ n

section
variable {n : Nat}

theorem Numeral.value_fair {num : Numeral} (hlimit : n ≤ Decimal.digitLimit) (within : num.Within n) :
    Fair (Value.Fine (Small n)) num.value := by
  cases num with
  | bits m =>
    refine .ok fun k hk => ?_
    obtain rfl := List.mem_singleton.1 hk
    exact within
  | fraction _ _ _ => exact .ok nofun
  | decimal negative ds =>
    have hlength : ds.length ≤ n := within
    have hvalue : valueOf 10 ds < 16 ^ n :=
      Nat.lt_of_lt_of_le (valueOf_lt (by decide) ds) (Nat.pow_le_pow_right (by decide) hlength)
    rw [Numeral.value, if_neg (Nat.not_lt.2 (Nat.le_trans hlength hlimit))]
    refine .ok fun m hm => ?_
    obtain rfl := List.mem_singleton.1 hm
    cases negative <;> simpa [Small] using hvalue

theorem scalar_fair (hn : 1 ≤ n) (hlimit : n ≤ Decimal.digitLimit) (within : DigitsWithin n s) :
    FairFront (Value.Fine (Small n)) s (scalar s) := by
  unfold scalar
  split
  · rename_i mark rest htriple
    exact .expect ((tripleString_leaves mark rest).of_suffix (afterTriple?_leaves s mark rest htriple)) _ fun _ => nofun
  · split
    · exact .expect (simpleString?_leaves _) _ fun _ => nofun
    · exact .expect (simpleString?_leaves _) _ fun _ => nofun
    · exact .found (List.suffix_append ['t', 'r', 'u', 'e'] _) nofun
    · exact .found (List.suffix_append ['f', 'a', 'l', 's', 'e'] _) nofun
    · split
      · rename_i hmoment
        split
        · exact .found (moment?_leaves _ _ _ hmoment) nofun
        · exact .malformed
      · split
        · rename_i num rest hnumeral
          obtain ⟨hrest, hnum⟩ := numeral?_front hn within num rest hnumeral
          rcases (num.value_fair hlimit hnum).cases with ⟨v, heq, hv⟩ | heq <;> rw [heq]
          · exact .found hrest hv
          · exact .malformed
        · exact .expect (wordNumber?_leaves _) _ fun _ => nofun

end

/-! ## Gaps -/

theorem dropComment_suffix {rest : Source} (h : dropComment s = some rest) : rest <:+ s := by
  unfold dropComment at h
  split at h
  · dsimp only at h
    split at h
    · cases h
    · cases h
      exact (List.dropWhile_suffix _).trans (List.suffix_cons _ _)
  · cases h
    exact List.suffix_refl _

theorem dropGap_suffix : ∀ {fuel : Nat} {s rest : Source}, dropGap fuel s = some rest → rest <:+ s
  | 0, _, _, h => by
    cases h
    exact List.suffix_refl _
  | fuel + 1, s, rest, h => by
    have hdropped := List.dropWhile_suffix (l := s) fun c => isBlank c || c = '\n'
    unfold dropGap at h
    split at h
    · rename_i after heq
      rw [heq] at hdropped
      split at h
      · cases h
      · rename_i hcomment
        exact (dropGap_suffix h).trans ((dropComment_suffix hcomment).trans hdropped)
    · cases h
      exact hdropped

theorem dropGaps_suffix {rest : Source} (h : dropGaps s = some rest) : rest <:+ s := dropGap_suffix h

/-! ## Arrays and tables -/

section
variable {n : Nat} {value : Source → Parsed Value}

/-- **A reader of values that is fair** to sources without long numbers. -/
def FairReader (n : Nat) (value : Source → Parsed Value) : Prop :=
  ∀ s, DigitsWithin n s → FairFront (Value.Fine (Small n)) s (value s)

theorem keyValue_fair (hvalue : FairReader n value) (within : DigitsWithin n s) :
    FairFront (fun kv => kv.2.Fine (Small n)) s (keyValue value s) := by
  unfold keyValue
  split
  · rename_i k rest hkey
    have hrest : dropBlanks rest <:+ s :=
      ((dropBlanks_suffix rest).trans (List.suffix_cons _ _)).trans (key?_leaves s _ _ hkey)
    rcases ((hvalue _ (within.of_suffix hrest)).of_suffix hrest).cases with ⟨⟨v, after⟩, heq, hafter, hv⟩ | heq <;> rw [heq]
    · exact .found hafter hv
    · exact .malformed
  · exact .malformed

theorem arrayItems_fair (hvalue : FairReader n value) : ∀ (fuel : Nat) {s : Source}, DigitsWithin n s →
    FairFront (fun vs => ∀ v ∈ vs, v.Fine (Small n)) s (arrayItems value fuel s)
  | 0, _, _ => .malformed
  | fuel + 1, s, within => by
    unfold arrayItems
    split
    · exact .malformed
    · rename_i hgaps
      exact .found ((List.suffix_cons _ _).trans (dropGaps_suffix hgaps)) nofun
    · rename_i after _ hgaps
      have hafter := dropGaps_suffix hgaps
      rcases ((hvalue after (within.of_suffix hafter)).of_suffix hafter).cases with ⟨⟨v, rest⟩, heq, hrest, hv⟩ | heq
      · rw [heq]
        dsimp only
        split
        · rename_i hgaps
          exact .found ((List.suffix_cons _ _).trans ((dropGaps_suffix hgaps).trans hrest)) (by simpa using hv)
        · rename_i more hgaps
          have hmore : more <:+ s := (List.suffix_cons _ _).trans ((dropGaps_suffix hgaps).trans hrest)
          rcases ((arrayItems_fair hvalue fuel (within.of_suffix hmore)).of_suffix hmore).cases with
            ⟨⟨vs, left⟩, heq, hleft, hvs⟩ | heq <;> rw [heq]
          · exact .found hleft (List.forall_mem_cons.2 ⟨hv, hvs⟩)
          · exact .malformed
        · exact .malformed
      · rw [heq]
        exact .malformed

theorem inlineEntries_fair (hvalue : FairReader n value) : ∀ (fuel : Nat) {d : Draft} {s : Source},
    d.table.Fine (Small n) → DigitsWithin n s → FairFront (Table.Fine (Small n)) s (inlineEntries value fuel d s)
  | 0, _, _, _, _ => .malformed
  | fuel + 1, d, s, hd, within => by
    unfold inlineEntries
    rcases (keyValue_fair hvalue within).cases with ⟨⟨⟨k, v⟩, rest⟩, heq, hrest, hv⟩ | heq
    · rw [heq]
      dsimp only
      have hblanks : dropBlanks rest <:+ s := (dropBlanks_suffix rest).trans hrest
      split
      · exact .malformed
      · rename_i d' hadd
        have hd' := Draft.addInline?_fine hv hadd hd
        split
        · rename_i after hclosed
          exact .found ((List.suffix_cons _ _).trans (hclosed ▸ hblanks)) hd'
        · rename_i after hcomma
          have hafter : dropBlanks after <:+ s :=
            (dropBlanks_suffix after).trans ((List.suffix_cons _ _).trans (hcomma ▸ hblanks))
          exact (inlineEntries_fair hvalue fuel hd' (within.of_suffix hafter)).of_suffix hafter
        · exact .malformed
    · rw [heq]
      exact .malformed

/-- **Values are read fairly**, however deep they are nested. -/
theorem value_fair (hn : 1 ≤ n) (hlimit : n ≤ Decimal.digitLimit) : ∀ depth : Nat, FairReader n (Toml.value depth)
  | 0, _, _ => .malformed
  | depth + 1, s, within => by
    -- items and entries are read by the reader of one level less
    have ih := value_fair hn hlimit depth
    unfold Toml.value
    split
    · rename_i rest
      have hrest : rest <:+ '[' :: rest := List.suffix_cons _ _
      rcases ((arrayItems_fair ih (rest.length + 1) (within.of_suffix hrest)).of_suffix hrest).cases with
        ⟨⟨vs, left⟩, heq, hleft, hvs⟩ | heq <;> rw [heq]
      · exact .found hleft (Value.fine_array.2 hvs)
      · exact .malformed
    · rename_i rest
      have hblanks : dropBlanks rest <:+ '\x7b' :: rest := (dropBlanks_suffix rest).trans (List.suffix_cons _ _)
      split
      · rename_i heq
        exact .found ((List.suffix_cons _ _).trans (heq ▸ hblanks)) nofun
      · rcases ((inlineEntries_fair ih ((dropBlanks rest).length + 1) (d := {}) Table.fine_nil
          (within.of_suffix hblanks)).of_suffix hblanks).cases with ⟨⟨t, left⟩, heq, hleft, ht⟩ | heq <;> rw [heq]
        · exact .found hleft (Value.fine_table.2 ht)
        · exact .malformed
    · exact scalar_fair hn hlimit within

/-! ## Statements -/

theorem heading_fair {P : Int → Prop} {add : Key → Option Draft}
    (hadd : ∀ k d, add k = some d → d.table.Fine P) (closing : List Char) (s : Source) :
    FairFront (fun d => d.table.Fine P) s (heading add closing s) := by
  unfold heading
  split
  · exact .malformed
  · rename_i k rest hkey
    have hrest : rest <:+ s := (key?_leaves _ _ _ hkey).trans (dropBlanks_suffix s)
    split
    · exact .malformed
    · rename_i d hd
      split
      · exact .found ((List.drop_suffix _ _).trans hrest) (hadd k d hd)
      · exact .malformed

theorem statement_fair (hn : 1 ≤ n) (hlimit : n ≤ Decimal.digitLimit) {d : Draft} (hd : d.table.Fine (Small n))
    (within : DigitsWithin n s) : FairFront (fun d => d.table.Fine (Small n)) s (statement d s) := by
  unfold statement
  split
  · exact .found (List.suffix_refl _) hd
  · exact .found (List.suffix_refl _) hd
  · exact .found (List.suffix_refl _) hd
  · exact (heading_fair (fun k d' (h : d.settle.openNext? k = some d') => Draft.openNext?_fine h hd) _ _).of_suffix
      (List.suffix_append ['[', '['] _)
  · exact (heading_fair (fun k d' (h : d.settle.open? k = some d') => Draft.open?_fine h hd) _ _).of_suffix
      (List.suffix_cons _ _)
  · rcases (keyValue_fair (value_fair hn hlimit (s.length + 1)) within).cases with
      ⟨⟨⟨k, v⟩, rest⟩, heq, hrest, hv⟩ | heq <;> rw [heq]
    · dsimp only [Draft.orMalformed]
      split
      · rename_i hadd
        exact .found hrest (Draft.add?_fine hv hadd hd)
      · exact .malformed
    · exact .malformed

theorem lines_fair (hn : 1 ≤ n) (hlimit : n ≤ Decimal.digitLimit) : ∀ (fuel : Nat) {d : Draft} {s : Source},
    d.table.Fine (Small n) → DigitsWithin n s → Fair (fun d => d.table.Fine (Small n)) (lines fuel d s)
  | 0, _, _, hd, _ => .ok hd
  | fuel + 1, d, s, hd, within => by
    -- the document so far is fine, and no number in the rest is long
    unfold lines
    have hblanks := dropBlanks_suffix s
    rcases ((statement_fair hn hlimit hd (within.of_suffix hblanks)).of_suffix hblanks).cases with
      ⟨⟨d', rest⟩, heq, hrest, hd'⟩ | heq <;> rw [heq]
    · dsimp only
      split
      · exact .malformed
      · exact .ok hd'
      · rename_i after hcomment
        have hafter : after <:+ s :=
          (List.suffix_cons _ _).trans ((dropComment_suffix hcomment).trans ((dropBlanks_suffix rest).trans hrest))
        exact lines_fair hn hlimit fuel hd' (within.of_suffix hafter)
      · exact .malformed
    · exact .malformed

/-! ## Documents -/

/-- A run without line ends is one of the text as it was given. -/
theorem prefix_of_unixLines {run : Source} (hrun : '\n' ∉ run) : run <+: unixLines s → run <+: s := by
  fun_induction unixLines s generalizing run with
  | case1 s ih =>
    intro h
    rcases List.prefix_cons_iff.1 h with rfl | ⟨run, rfl, -⟩
    · exact List.nil_prefix
    · exact absurd List.mem_cons_self hrun
  | case2 c s _ ih =>
    intro h
    rcases List.prefix_cons_iff.1 h with rfl | ⟨tail, rfl, htail⟩
    · exact List.nil_prefix
    · exact List.cons_prefix_cons.2 ⟨rfl, ih (fun hmem => hrun (List.mem_cons_of_mem _ hmem)) htail⟩
  | case3 => exact id

theorem infix_of_unixLines {run : Source} (hrun : '\n' ∉ run) : run <:+: unixLines s → run <:+: s := by
  fun_induction unixLines s with
  | case1 s ih =>
    intro h
    rcases List.infix_cons_iff.1 h with h | h
    · exact (prefix_of_unixLines (s := '\r' :: '\n' :: s) hrun h).isInfix
    · exact (ih h).trans (List.suffix_append ['\r', '\n'] s).isInfix
  | case2 c s hne ih =>
    intro h
    rcases List.infix_cons_iff.1 h with h | h
    · rw [← unixLines.eq_2 c s hne] at h
      exact (prefix_of_unixLines hrun h).isInfix
    · exact (ih h).trans (List.suffix_cons _ _).isInfix
  | case3 => exact id

theorem DigitsWithin.unixLines (within : DigitsWithin n s) : DigitsWithin n (unixLines s) := by
  intro run hrun hdigits
  refine within run (infix_of_unixLines (fun hmem => ?_) hrun) hdigits
  rcases hdigits _ hmem with h | h
  · cases h
  · cases h

/-- **A text without long numbers is read**, or it is malformed, and the integers in the document are small. -/
theorem read_fair (hn : 1 ≤ n) (hlimit : n ≤ Decimal.digitLimit) (within : DigitsWithin n s) :
    Fair (Table.Fine (Small n)) (read s) := by
  unfold read
  dsimp only
  rcases (lines_fair hn hlimit ((Toml.unixLines s).length + 1) (d := {}) Table.fine_nil within.unixLines).cases with
    ⟨d, heq, hd⟩ | heq <;> rw [heq]
  · exact .ok hd
  · exact .malformed

end

end ScriptDriver.Toml
