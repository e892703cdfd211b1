import ScriptDriver.CommandLine.Matched
import ScriptDriver.CommandLine.Standard
/-!
# ClosedTable — tables in which every row can be resolved

A table is closed if every row that stands for another one stands for a row of the table.  In a closed table nothing
about a token can fail: rows are resolved to rows, and the first fit is the first candidate that takes the token or is
short of values for it (`firstFit_of_closed`).
-/
namespace ScriptDriver.CommandLine

/-- **A closed table**: what a row stands for is in the table. -/
def OptionTable.Closed (t : OptionTable) : Prop := ∀ d ∈ t.rows, ∀ target ∈ d.standsFor, target ∈ t.ids

/-- Whether a row takes a token or is short of values for it, whatever other rows there are. -/
def Descriptor.claims (d : Descriptor) (token : Text) (following : List Text) : Bool :=
  d.name.isPrefixOf token && d.fit token following ≠ .refused

theorem standard_closed : standard.Closed := by unfold OptionTable.Closed; decide

namespace OptionTable

theorem exists_of_mem_ids {t : OptionTable} {id : OptionId} (h : id ∈ t.ids) :
    ∃ d ∈ t.rows, t.find? id = some d := by
  obtain ⟨d, hd, hid⟩ := List.mem_map.1 h
  have hs : (t.rows.find? (·.id = id)).isSome := List.find?_isSome.2 ⟨d, hd, by simpa using hid⟩
  obtain ⟨e, he⟩ := Option.isSome_iff_exists.1 hs
  exact ⟨e, List.mem_of_find?_eq_some he, he⟩

/-- The induction is on the identifiers not yet left: each step leaves one of them. -/
theorem follow_of_closed {t : OptionTable} (closed : t.Closed) (unseen : List OptionId) (d : Descriptor) :
    (∀ target ∈ d.standsFor, target ∈ t.ids) → ∃ o, t.follow unseen d = .ok o ∧ (o = d ∨ o ∈ t.rows) := by
  induction unseen, d using follow.induct t with
  | case1 unseen d hn =>
    intro _
    exact ⟨d, by rw [follow, hn], .inl rfl⟩
  | case2 unseen d target ht hu next hf ih =>
    intro _
    have hnext : next ∈ t.rows := List.mem_of_find?_eq_some hf
    obtain ⟨o, h, ho⟩ := ih (closed next hnext)
    refine ⟨o, ?_, .inr ?_⟩
    · rw [follow]
      simp only [ht, hu, hf, dite_true, h]
    · rcases ho with rfl | ho
      · exact hnext
      · exact ho
  | case3 unseen d target ht hu hf =>
    intro htarget
    obtain ⟨next, -, hnext⟩ := exists_of_mem_ids (htarget target (by simp [ht]))
    rw [hf] at hnext
    cases hnext
  | case4 unseen d target ht hu =>
    intro _
    refine ⟨d, ?_, .inl rfl⟩
    rw [follow]
    simp only [ht, hu, dite_false]

theorem resolve_total {t : OptionTable} (closed : t.Closed) {d : Descriptor}
    (h : ∀ target ∈ d.standsFor, target ∈ t.ids) : ∃ o, t.resolve d = .ok o ∧ (o = d ∨ o ∈ t.rows) :=
  follow_of_closed closed OptionId.all d h

theorem resolve_of_closed {t : OptionTable} (closed : t.Closed) {d : Descriptor} (hd : d ∈ t.rows) :
    ∃ o ∈ t.rows, t.resolve d = .ok o := by
  obtain ⟨o, h, rfl | ho⟩ := resolve_total closed (closed d hd)
  · exact ⟨o, hd, h⟩
  · exact ⟨o, ho, h⟩

theorem resolve_of_plain {t : OptionTable} {d : Descriptor} (h : d.standsFor = none) : t.resolve d = .ok d := by
  rw [resolve, follow, h]

theorem resolve_of_alias {t : OptionTable} {d next : Descriptor} {target : OptionId} (h : d.standsFor = some target)
    (hf : t.find? target = some next) (hn : next.standsFor = none) : t.resolve d = .ok next := by
  rw [resolve, follow]
  simp only [h, OptionId.mem_all, hf, dite_true]
  rw [follow, hn]

theorem mem_matchable {t : OptionTable} {d : Descriptor} : d ∈ t.matchable ↔ d ∈ t.rows ∧ d.isMatchable = true := by
  rw [matchable, (List.mergeSort_perm _ _).mem_iff, List.mem_filter]

/-- **The first fit in a closed table** is the first candidate that claims the token. -/
theorem firstFit_of_closed {t : OptionTable} (closed : t.Closed) (token : Text) (following : List Text) :
    ∀ ds : List Descriptor, (∀ d ∈ ds, d ∈ t.rows) →
      (t.firstFit token following ds = .ok none ∧ ∀ d ∈ ds, d.claims token following = false) ∨
      ∃ d o, ds.find? (·.claims token following) = some d ∧ t.resolve d = .ok o ∧
        t.firstFit token following ds = .ok (some (o, d, d.fit token following))
  | [], _ => .inl ⟨rfl, fun d hd => by cases hd⟩
  | d :: ds, hds => by
    have ih := firstFit_of_closed closed token following ds (fun e he => hds e (List.mem_cons_of_mem d he))
    obtain ⟨o, -, ho⟩ := resolve_of_closed closed (hds d List.mem_cons_self)
    cases hc : d.claims token following with
    | true =>
      refine .inr ⟨d, o, by rw [List.find?_cons, hc], ho, ?_⟩
      simp only [Descriptor.claims, Bool.and_eq_true, decide_eq_true_eq] at hc
      rw [firstFit, if_pos hc.1, ho]
      simp only [if_neg hc.2]
    | false =>
      have hskip : t.firstFit token following (d :: ds) = t.firstFit token following ds := by
        rw [firstFit, ho]
        by_cases hp : d.name.isPrefixOf token = true
        · have hr : d.fit token following = .refused := by simpa [Descriptor.claims, hp] using hc
          simp only [hp, hr, if_true]
        · rw [if_neg hp]
      rw [hskip, List.find?_cons, hc]
      rcases ih with ⟨h, hall⟩ | h
      · refine .inl ⟨h, fun e he => ?_⟩
        rcases List.mem_cons.1 he with rfl | he
        · exact hc
        · exact hall e he
      · exact .inr h

end OptionTable

/-- The row that a row of the standard table stands for; no row there is reached in more than one step. -/
def standardOption (d : Descriptor) : Descriptor :=
  match d.standsFor with
  | none => d
  | some target => (standard.find? target).getD d

theorem resolve_standard {d : Descriptor} (hd : d ∈ standard.rows) : standard.resolve d = .ok (standardOption d) := by
  have hone : ∀ d ∈ standard.rows, ∀ target ∈ d.standsFor, (standard.find? target).any (·.standsFor.isNone) = true := by
    decide
  cases h : d.standsFor with
  | none =>
    rw [standardOption, h]
    exact OptionTable.resolve_of_plain h
  | some target =>
    have hn := hone d hd target h
    simp only [standardOption, h]
    cases hf : standard.find? target with
    | none =>
      rw [hf] at hn
      cases hn
    | some next =>
      rw [hf] at hn
      exact OptionTable.resolve_of_alias h hf (by simpa using hn)

end ScriptDriver.CommandLine
