import ScriptDriver.Proofs.ResponseFile.Bytewise
import ScriptDriver.Proofs.ResponseFile.Writing
/-!
# Conservation — nothing is lost and nothing is made up

However malformed a response file is, the arguments in it are made of its symbols, in order.  Only blanks, marks and
backslashes can be missing from them, and no argument is empty (`tokens_conserve`).
-/
namespace ScriptDriver.ResponseFile

variable {α : Type} {sign : α → Sign} {code : α → Nat}

/-- A code that is none of a blank, a mark or the backslash. -/
def isOrdinary (n : Nat) : Bool := n ∉ blankCodes ∧ n ≠ Mark.single.code ∧ n ≠ Mark.double.code ∧ n ≠ escapeCode

theorem isOrdinary_iff {n : Nat} : isOrdinary n = true ↔ Sign.ofCode n = .plain := by
  rw [isOrdinary, decide_eq_true_eq, ← Sign.ofCode_eq_blank, Ne, Ne, ← Sign.ofCode_eq_quote, ← Sign.ofCode_eq_quote, Ne,
    ← Sign.ofCode_eq_escape]
  rcases Sign.ofCode n with _ | (_ | _) | _ | _ <;> simp

/-- **Arguments that keep what is written in `xs`.** -/
structure Conserved (code : α → Nat) (xs : List α) (args : List (List α)) : Prop where
  some : ∀ arg ∈ args, arg ≠ []
  ordinary : (args.flatten.filter fun x => isOrdinary (code x)) = xs.filter fun x => isOrdinary (code x)
  inOrder : args.flatten.Sublist xs

namespace Scan

/-- The arguments that have been read are not empty. -/
def NoEmpty (s : Scan α) : Prop := ∀ arg ∈ s.tokens, arg ≠ []

theorem close_noEmpty {s : Scan α} (h : s.NoEmpty) : s.close.NoEmpty := by
  unfold close
  split
  · exact h
  · rename_i hsome
    exact List.forall_mem_cons.2 ⟨by simpa using hsome, h⟩

theorem step_noEmpty {s : Scan α} (h : s.NoEmpty) (x : α) : (step sign s x).NoEmpty := by
  rcases step_cases sign s x with heq | ⟨-, heq | ⟨quote, escaped, heq⟩⟩ <;> rw [heq]
  · exact h
  · exact close_noEmpty h
  · exact h

theorem foldl_noEmpty : ∀ (xs : List α) {s : Scan α}, s.NoEmpty → (xs.foldl (step sign) s).NoEmpty
  | [], _, h => h
  | x :: xs, _, h => foldl_noEmpty xs (step_noEmpty h x)

/-- A step puts at most its symbol behind what is kept. -/
theorem step_inOrder (s : Scan α) (x : α) : (step sign s x).kept.Sublist (s.kept ++ [x]) := by
  rcases step_cases sign s x with heq | ⟨-, heq | ⟨quote, escaped, heq⟩⟩ <;> rw [heq]
  · exact kept_push s x ▸ List.Sublist.refl _
  · rw [kept_close]
    exact List.sublist_append_left _ _
  · exact List.sublist_append_left _ _

theorem foldl_inOrder : ∀ (xs : List α) (s : Scan α), (xs.foldl (step sign) s).kept.Sublist (s.kept ++ xs)
  | [], s => by rw [List.append_nil]; exact List.Sublist.refl _
  | x :: xs, s => by
    refine (foldl_inOrder xs (step sign s x)).trans ?_
    rw [← List.singleton_append, ← List.append_assoc]
    exact (step_inOrder s x).append_right xs

theorem run_conserved (code : α → Nat) (xs : List α) : Conserved code xs (run (signBy code) xs) := by
  constructor
  case some =>
    have hread : (xs.foldl (step (signBy code)) start).close.NoEmpty :=
      close_noEmpty (foldl_noEmpty xs (List.forall_mem_nil _))
    exact fun arg harg => hread arg (List.mem_reverse.1 harg)
  case ordinary => exact flatten_run (fun x hx => isOrdinary_iff.1 hx) xs
  case inOrder =>
    rw [run, flatten_finish]
    exact foldl_inOrder xs start

end Scan

/-- **Whatever is in a response file, its arguments keep it**, but for symbols that play a part; and the same goes for
symbols that are no glyphs. -/
theorem tokens_conserve : (∀ t : Text, Conserved Glyph.code t (tokens t)) ∧
    ∀ codes : List Nat, Conserved (fun n => n) codes (Scan.run Sign.ofCode codes) := by
  refine ⟨fun t => ?_, Scan.run_conserved _⟩
  rw [tokens_eq_run]
  exact Scan.run_conserved _ t

/-- A quote that is left open, with a backslash at the very end. -/
example : tokens "a\\\" 'b \"c\\" = [("a\"" : Text), ("b \"c" : Text)] := by rfl

end ScriptDriver.ResponseFile
