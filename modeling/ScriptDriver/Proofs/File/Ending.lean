import ScriptDriver.File.Atomic
import ScriptDriver.Proofs.Text.Bytes
/-!
# Ending — paths that end alike

What a path ends with is part of the last of its names, as long as there is no separator in it.  So a path keeps its
ending when it is read and written again, and the temporary file beside it has its name with something added.
-/
namespace ScriptDriver

/-- **What is put after something that is cut up belongs to the last piece**, unless there is a separator in it. -/
theorem cut_append {α : Type} (separates : α → Prop) [DecidablePred separates] (cut : List α → List (List α))
    (hnil : cut [] = [[]])
    (hcons : ∀ a t, cut (a :: t) = match cut t with
      | [] => [[]]
      | piece :: pieces => if separates a then [] :: piece :: pieces else (a :: piece) :: pieces) :
    ∀ t, ∃ pieces last, cut t = pieces ++ [last] ∧
      ∀ ending, (∀ a ∈ ending, ¬ separates a) → cut (t ++ ending) = pieces ++ [last ++ ending]
  | [] => by
    refine ⟨[], [], hnil, fun ending => ?_⟩
    rw [List.nil_append, List.nil_append]
    induction ending with
    | nil => exact fun _ => hnil
    | cons a ending ih =>
      intro h
      rw [hcons, ih fun b hb => h b (List.mem_cons_of_mem a hb)]
      exact if_neg (h a List.mem_cons_self)
  | a :: t => by
    obtain ⟨pieces, last, ht, happend⟩ := cut_append separates cut hnil hcons t
    by_cases ha : separates a
    · refine ⟨[] :: pieces, last, ?_, fun ending hending => ?_⟩
      · rw [hcons, ht]
        cases pieces <;> simp only [ha, if_true, List.nil_append, List.cons_append]
      · rw [List.cons_append, hcons, happend ending hending]
        cases pieces <;> simp only [ha, if_true, List.nil_append, List.cons_append]
    · cases pieces with
      | nil =>
        refine ⟨[], a :: last, ?_, fun ending hending => ?_⟩
        · rw [hcons, ht]
          exact if_neg ha
        · rw [List.cons_append, hcons, happend ending hending]
          exact if_neg ha
      | cons piece pieces =>
        refine ⟨(a :: piece) :: pieces, last, ?_, fun ending hending => ?_⟩
        · rw [hcons, ht]
          exact if_neg ha
        · rw [List.cons_append, hcons, happend ending hending]
          exact if_neg ha

namespace File

theorem namesOf_append (bytes : List UInt8) : ∃ names last, namesOf bytes = names ++ [last] ∧
    ∀ ending, (0x2F : UInt8) ∉ ending → namesOf (bytes ++ ending) = names ++ [last ++ ending] := by
  obtain ⟨names, last, hnames, happend⟩ := cut_append (fun b : UInt8 => b = 0x2F) namesOf rfl
    (fun b bytes => by rw [namesOf]; cases namesOf bytes <;> rfl) bytes
  exact ⟨names, last, hnames, fun ending h => happend ending fun b hb heq => h (heq ▸ hb)⟩

theorem splitOn_append (p : Glyph → Bool) (t : Text) : ∃ pieces last, Text.splitOn p t = pieces ++ [last] ∧
    ∀ ending : Text, (∀ g ∈ ending, p g = false) → Text.splitOn p (t ++ ending) = pieces ++ [last ++ ending] := by
  obtain ⟨pieces, last, hpieces, happend⟩ := cut_append (fun g => p g = true) (Text.splitOn p) rfl
    (fun g t => by rw [Text.splitOn]; cases Text.splitOn p t <;> rfl) t
  exact ⟨pieces, last, hpieces, fun ending h => happend ending fun g hg => by rw [h g hg]; exact Bool.false_ne_true⟩

theorem joinWith_singleton (sep x : Text) : Text.joinWith sep [x] = x := by simp [Text.joinWith, List.intercalate]

theorem joinWith_cons_cons (sep x y : Text) (xs : List Text) :
    Text.joinWith sep (x :: y :: xs) = x ++ (sep ++ Text.joinWith sep (y :: xs)) := by
  simp [Text.joinWith, List.intercalate]

theorem joinWith_concat (sep x : Text) : ∀ xs : List Text,
    Text.joinWith sep (xs ++ [x]) = xs.flatMap (fun y => y ++ sep) ++ x
  | [] => joinWith_singleton sep x
  | [y] => by simp [joinWith_cons_cons, joinWith_singleton]
  | y :: z :: xs => by
    have ih := joinWith_concat sep x (z :: xs)
    rw [List.cons_append] at ih
    rw [List.cons_append, List.cons_append, joinWith_cons_cons, ih]
    simp only [List.flatMap_cons, List.append_assoc]

namespace Path

theorem anchorOf_append (dir : Text) {n : Text} (hsome : n ≠ []) (hplain : ∀ g ∈ n, isSeparator g = false) :
    anchorOf (dir ++ n) = anchorOf dir := by
  have hn : n.takeWhile isSeparator = [] := by
    cases n with
    | nil => rfl
    | cons g n => rw [List.takeWhile_cons, if_neg (by rw [hplain g List.mem_cons_self]; exact Bool.false_ne_true)]
  have hwhile : (dir ++ n).takeWhile isSeparator = dir.takeWhile isSeparator := by
    rw [List.takeWhile_append, hn, List.append_nil]
    split
    · rename_i hall
      exact ((List.takeWhile_prefix _).eq_of_length hall).symm
    · rfl
  unfold anchorOf
  rw [hwhile]

/-- The pieces of a written path that say something. -/
def telling (pieces : List Text) : List Text := (pieces.filter (· ≠ [])).filter (· ≠ ".")

theorem telling_append (pieces more : List Text) : telling (pieces ++ more) = telling pieces ++ telling more := by
  unfold telling
  rw [List.filter_append, List.filter_append]

theorem telling_of_told {piece : Text} (hsome : piece ≠ []) (hdot : piece ≠ ".") : telling [piece] = [piece] := by
  simp [telling, hsome, hdot]

/-- **A path keeps what it ends with** when it is read and written again; the path of its temporary file ends with that
and the ending of temporary files.  What comes before depends on neither. -/
theorem toText_append (dir : Text) : ∃ opening : Text, ∀ n : Text, n ≠ [] → n ≠ "." →
    (∀ g ∈ n, isSeparator g = false) →
      (ofText (dir ++ n)).toText = opening ++ n ∧ (ofText (dir ++ n)).name ≠ [] ∧
        (ofText (dir ++ n)).temporary.toText = opening ++ n ++ temporaryEnding := by
  obtain ⟨pieces, last, -, happend⟩ := splitOn_append isSeparator dir
  refine ⟨(anchorOf dir).text ++ (telling pieces).flatMap (fun y => y ++ Text.ofString "/") ++ last, fun n hsome hdot hplain => ?_⟩
  have hlast : last ++ n ≠ [] ∧ last ++ n ≠ "." := by
    refine ⟨fun h => hsome (List.append_eq_nil_iff.1 h).2, fun h => ?_⟩
    rcases List.append_eq_singleton_iff.1 h with ⟨-, h⟩ | ⟨-, h⟩
    · exact hdot h
    · exact hsome h
  have hparts : (ofText (dir ++ n)).parts = telling pieces ++ [last ++ n] := by
    show telling (Text.splitOn isSeparator (dir ++ n)) = _
    rw [happend n hplain, telling_append, telling_of_told hlast.1 hlast.2]
  have htext : ∀ x : Text, (⟨anchorOf dir, telling pieces ++ [x]⟩ : Path).toText =
      (anchorOf dir).text ++ (telling pieces).flatMap (fun y => y ++ Text.ofString "/") ++ x := by
    intro x
    unfold toText
    rw [if_neg (by simp), joinWith_concat, List.append_assoc]
  have hpath : ofText (dir ++ n) = ⟨anchorOf dir, telling pieces ++ [last ++ n]⟩ := by
    rw [← hparts, ← anchorOf_append dir hsome hplain]
    rfl
  have hname : (ofText (dir ++ n)).name = last ++ n := by
    unfold name
    rw [hparts, List.getLast?_concat, Option.getD_some]
  refine ⟨?_, hname ▸ hlast.1, ?_⟩
  · rw [hpath, htext, ← List.append_assoc]
  · unfold temporary addToName
    rw [hname, hpath, List.dropLast_concat, htext, ← List.append_assoc, ← List.append_assoc]

/-- What is written of a path before its name. -/
def opening (p : Path) : Text := p.anchor.text ++ p.parts.dropLast.flatMap fun part => part ++ Text.ofString "/"

theorem temporary_toText (p : Path) : p.temporary.toText = p.opening ++ p.name ++ temporaryEnding := by
  unfold temporary addToName toText opening
  rw [if_neg (by simp), joinWith_concat]
  simp only [List.append_assoc]

end Path
end File
end ScriptDriver
