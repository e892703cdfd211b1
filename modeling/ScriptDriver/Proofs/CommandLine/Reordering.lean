import Mathlib.Data.List.Nodup
import ScriptDriver.CommandLine.Help
import ScriptDriver.CommandLine.Matched
import ScriptDriver.Proofs.CommandLine.ClosedTable
/-!
# Reordering — the order of the rows of a table

Identifiers are distinct, so looking a row up does not depend on the order of the rows; and the rows are listed by their
identifiers and tried by length of name and identifier, so that neither order depends on it.  Hence two tables with the
same rows read every command line alike (`read_reordered`) and have one help screen (`printHelp_reordered`).
-/
namespace ScriptDriver.CommandLine

/-! ## Orders of rows -/

theorem OptionId.all_number (id : OptionId) : OptionId.all[id.number]? = some id := by cases id <;> rfl

theorem OptionId.number_injective {a b : OptionId} (h : a.number = b.number) : a = b := by
  have hall := OptionId.all_number a
  rw [h, OptionId.all_number b] at hall
  exact (Option.some.inj hall).symm

namespace OptionTable

theorem before_iff {a b : Descriptor} : before a b = true ↔
    b.name.length ≤ a.name.length ∧ (b.name.length = a.name.length → a.id.number ≤ b.id.number) := by
  simp only [before, Bool.or_eq_true, Bool.and_eq_true, decide_eq_true_eq]
  omega

theorem before_trans (a b c : Descriptor) (hab : before a b = true) (hbc : before b c = true) : before a c = true := by
  rw [before_iff] at *
  omega

theorem before_total (a b : Descriptor) : (before a b || before b a) = true := by
  rw [Bool.or_eq_true, before_iff, before_iff]
  omega

theorem matchable_sorted (t : OptionTable) : t.matchable.Pairwise fun a b => before a b = true :=
  List.pairwise_mergeSort before_trans before_total _

theorem row_eq_of_id {t : OptionTable} {d e : Descriptor} (hd : d ∈ t.rows) (he : e ∈ t.rows) (h : d.id = e.id) :
    d = e :=
  List.inj_on_of_nodup_map t.distinct hd he h

theorem row_eq_of_number {t : OptionTable} {d e : Descriptor} (hd : d ∈ t.rows) (he : e ∈ t.rows)
    (h : d.id.number = e.id.number) : d = e :=
  row_eq_of_id hd he (OptionId.number_injective h)

theorem row_eq_of_before {t : OptionTable} {d e : Descriptor} (hd : d ∈ t.rows) (he : e ∈ t.rows)
    (hde : before d e = true) (hed : before e d = true) : d = e := by
  rw [before_iff] at hde hed
  exact row_eq_of_number hd he (by omega)

theorem find?_eq_some {t : OptionTable} {id : OptionId} {d : Descriptor} :
    t.find? id = some d ↔ d ∈ t.rows ∧ d.id = id := by
  constructor
  · intro h
    exact ⟨List.mem_of_find?_eq_some h, by simpa using List.find?_some h⟩
  · rintro ⟨hd, rfl⟩
    obtain ⟨e, he, hfind⟩ := exists_of_mem_ids (List.mem_map.2 ⟨d, hd, rfl⟩)
    have hid : e.id = d.id := by simpa using List.find?_some hfind
    rw [hfind, row_eq_of_id he hd hid]

/-! ## Tables with the same rows -/

section
variable {t u : OptionTable} (h : t.rows.Perm u.rows)
include h

theorem listed_reordered : t.listed = u.listed := by
  have hperm : t.listed.Perm u.listed :=
    (List.mergeSort_perm _ _).trans (h.trans (List.mergeSort_perm _ _).symm)
  have hsorted (v : OptionTable) : v.listed.Pairwise fun a b => (decide (a.id.number ≤ b.id.number)) = true := by
    refine List.pairwise_mergeSort ?_ ?_ _
    · simp only [decide_eq_true_eq]
      exact fun a b c hab hbc => Nat.le_trans hab hbc
    · simp only [Bool.or_eq_true, decide_eq_true_eq]
      exact fun a b => Nat.le_total _ _
  refine hperm.eq_of_pairwise (fun a b ha hb hab hba => ?_) (hsorted t) (hsorted u)
  rw [decide_eq_true_eq] at hab hba
  have hat : a ∈ t.rows := (List.mergeSort_perm _ _).mem_iff.1 ha
  have hbt : b ∈ t.rows := h.mem_iff.2 ((List.mergeSort_perm _ _).mem_iff.1 hb)
  exact row_eq_of_number hat hbt (Nat.le_antisymm hab hba)

theorem matchable_reordered : t.matchable = u.matchable := by
  have hperm : t.matchable.Perm u.matchable :=
    (List.mergeSort_perm _ _).trans ((h.filter _).trans (List.mergeSort_perm _ _).symm)
  refine hperm.eq_of_pairwise (fun a b ha hb hab hba => ?_) t.matchable_sorted u.matchable_sorted
  exact row_eq_of_before (mem_matchable.1 ha).1 (h.mem_iff.2 (mem_matchable.1 hb).1) hab hba

theorem find?_reordered (id : OptionId) : t.find? id = u.find? id := by
  refine Option.ext fun d => ?_
  rw [find?_eq_some, find?_eq_some, h.mem_iff]

theorem follow_reordered (unseen : List OptionId) (d : Descriptor) : t.follow unseen d = u.follow unseen d := by
  induction unseen, d using follow.induct t with
  | case1 unseen d hn => rw [follow, follow, hn]
  | case2 unseen d target ht hu next hf ih =>
    have hfu : u.find? target = some next := (find?_reordered h target).symm.trans hf
    rw [follow, follow]
    simp only [ht, hu, hf, hfu, dite_true]
    exact ih
  | case3 unseen d target ht hu hf =>
    have hfu : u.find? target = none := (find?_reordered h target).symm.trans hf
    rw [follow, follow]
    simp only [ht, hu, hf, hfu, dite_true]
  | case4 unseen d target ht hu =>
    rw [follow, follow]
    simp only [ht, hu, dite_false]

theorem resolve_reordered (d : Descriptor) : t.resolve d = u.resolve d := follow_reordered h OptionId.all d

theorem firstFit_reordered (token : Text) (following : List Text) :
    ∀ ds : List Descriptor, t.firstFit token following ds = u.firstFit token following ds
  | [] => rfl
  | d :: ds => by rw [firstFit, firstFit, resolve_reordered h d, firstFit_reordered token following ds]

theorem readOption_reordered (token : Text) (following : List Text) (index : Nat) :
    t.readOption token following index = u.readOption token following index := by
  rw [readOption, readOption, matchable_reordered h, firstFit_reordered h]

theorem readAfter_reordered : ∀ (skip index : Nat) (tokens : List Text),
    t.readAfter skip index tokens = u.readAfter skip index tokens
  | skip, index, [] => by rw [readAfter, readAfter]
  | skip + 1, index, _ :: rest => by rw [readAfter, readAfter, readAfter_reordered skip (index + 1) rest]
  | 0, index, token :: rest => by
    rw [readAfter, readAfter, readAfter_reordered 0 (index + 1) rest, readOption_reordered h]
    rcases u.readOption token rest index with e | s | ⟨a, n⟩
    · rfl
    · rfl
    · simp only [readAfter_reordered n (index + 1) rest]

theorem read_reordered (tokens : List Text) : t.read tokens = u.read tokens := by
  rw [read, read, readAfter_reordered h]

theorem printHelp_reordered (screen : Console.Screen) (prog title : Text) :
    t.printHelp screen prog title = u.printHelp screen prog title := by
  simp only [printHelp, shown, listed_reordered h]

end

/-! ## Tables from rows -/

theorem insert?_eq_ok {s t : OptionTable} {d : Descriptor} : s.insert? d = .ok t ↔ t.rows = s.rows ++ [d] := by
  rw [insert?]
  split
  · rename_i hmem
    refine ⟨nofun, fun hrows => ?_⟩
    have hdistinct := t.distinct
    rw [hrows, List.map_append, List.nodup_append] at hdistinct
    exact absurd rfl (hdistinct.2.2 d.id hmem d.id (by simp))
  · obtain ⟨rows, distinct⟩ := t
    simp only [Except.ok.injEq, mk.injEq]
    exact eq_comm

theorem foldlM_insert?_eq_ok {t : OptionTable} : ∀ {rows : List Descriptor} {s : OptionTable},
    rows.foldlM insert? s = .ok t ↔ t.rows = s.rows ++ rows
  | [], s => by
    obtain ⟨rows, distinct⟩ := t
    rw [List.foldlM_nil, List.append_nil]
    refine ⟨fun h => by cases h; rfl, fun h => ?_⟩
    cases s
    cases h
    rfl
  | d :: rows, s => by
    rw [List.foldlM_cons]
    constructor
    · intro h
      cases hs : s.insert? d with
      | error e =>
        rw [hs] at h
        cases h
      | ok s' =>
        rw [hs] at h
        rw [foldlM_insert?_eq_ok.1 h, insert?_eq_ok.1 hs, List.append_assoc, List.singleton_append]
    · intro h
      have hdistinct : ((s.rows ++ [d]).map (·.id)).Nodup := by
        have hall := t.distinct
        rw [h, ← List.singleton_append, ← List.append_assoc, List.map_append] at hall
        exact (List.nodup_append.1 hall).1
      have hs : s.insert? d = .ok ⟨s.rows ++ [d], hdistinct⟩ := insert?_eq_ok.2 rfl
      rw [hs]
      exact foldlM_insert?_eq_ok.2 (by rw [h, List.append_assoc, List.singleton_append])

/-- **A table can be made of rows exactly if it has these rows in this order.** -/
theorem ofRows_eq_ok {rows : List Descriptor} {t : OptionTable} : ofRows rows = .ok t ↔ t.rows = rows :=
  foldlM_insert?_eq_ok

theorem ofRows_reordered {t : OptionTable} {rows : List Descriptor} (h : t.rows.Perm rows) :
    ofRows rows = .ok ⟨rows, (h.map (·.id)).nodup_iff.1 t.distinct⟩ := ofRows_eq_ok.2 rfl

end OptionTable
end ScriptDriver.CommandLine
