import ScriptDriver.Proofs.CommandLine.Reordering
import ScriptDriver.Proofs.CommandLine.Tiling
/-!
# Selection — the row that reads a token

A row accepts a token or does not, whatever tokens come after it.  The token is read by the longest name that accepts it,
and by the smallest identifier among rows with names of that length; if there are too few tokens after it the option is
short of values, and no other row is tried (`selection`).
-/
namespace ScriptDriver.CommandLine

/-- **Whether a row accepts a token**, as the whole name or with the name at its beginning. -/
def Descriptor.Accepts (d : Descriptor) (token : Text) : Prop :=
  match d.kind with
  | .flag | .separate | .multi => d.name = token
  | .joined | .joinedOrSeparate => d.name <+: token
  | .group | .input | .unknown => False

/-- How many of the tokens after it a row takes with a token that it accepts. -/
def Descriptor.demand (d : Descriptor) (token : Text) : Nat := if d.name = token then d.needs else 0

/-- **The row that a token is given to**: of the rows that accept it one with a longest name, and of these the one with
the smallest identifier. -/
structure OptionTable.Chosen (t : OptionTable) (token : Text) (d : Descriptor) : Prop where
  listed : d ∈ t.rows
  accepts : d.Accepts token
  longest : ∀ e ∈ t.rows, e.Accepts token → e.name.length ≤ d.name.length
  least : ∀ e ∈ t.rows, e.Accepts token → e.name.length = d.name.length → d.id.number ≤ e.id.number

/-! ## Accepting a token -/

section
variable {d : Descriptor} {token : Text} {following : List Text}

theorem begins_of_accepts (h : d.Accepts token) : d.name <+: token := by
  unfold Descriptor.Accepts at h
  cases hk : d.kind <;> simp only [hk] at h <;> first | exact h | exact h ▸ List.prefix_rfl

theorem matchable_of_accepts (h : d.Accepts token) : d.isMatchable = true := by
  unfold Descriptor.Accepts at h
  unfold Descriptor.isMatchable
  cases hk : d.kind <;> simp [hk] at h ⊢

theorem length_eq_iff (h : d.name <+: token) : token.length = d.name.length ↔ d.name = token :=
  ⟨fun hl => h.eq_of_length hl.symm, fun he => he ▸ rfl⟩

theorem fit_eq_next (hd : d.demand token = 1) : Fit.next following =
    if following.length < d.demand token then .short (d.demand token - following.length)
    else .taken (following.take 1) (d.demand token) := by
  rw [hd]
  cases following <;> rfl

/-- **What an accepting row makes of a token**: it takes what it demands of the tokens that follow, or is short of the
values that are missing. -/
theorem fit_of_accepts (h : d.Accepts token) (following : List Text) : ∃ values, d.fit token following =
    if following.length < d.demand token then .short (d.demand token - following.length)
    else .taken values (d.demand token) := by
  have hlength := length_eq_iff (begins_of_accepts h)
  unfold Descriptor.Accepts at h
  cases hk : d.kind <;> simp only [hk] at h
  case flag =>
    have hd : d.demand token = 0 := by simp only [Descriptor.demand, Descriptor.needs, hk, ite_self]
    exact ⟨[], by simp only [Descriptor.fit, hk, hlength.2 h, hd, if_true, Nat.not_lt_zero, if_false]⟩
  case joined =>
    have hd : d.demand token = 0 := by simp only [Descriptor.demand, Descriptor.needs, hk, ite_self]
    exact ⟨[token.drop d.name.length], by simp only [Descriptor.fit, hk, hd, Nat.not_lt_zero, if_false]⟩
  case separate =>
    have hd : d.demand token = 1 := by simp only [Descriptor.demand, Descriptor.needs, hk, h, if_true]
    refine ⟨following.take 1, ?_⟩
    rw [← fit_eq_next hd]
    simp only [Descriptor.fit, hk, hlength.2 h, if_true]
  case joinedOrSeparate =>
    by_cases hn : d.name = token
    · have hd : d.demand token = 1 := by simp only [Descriptor.demand, Descriptor.needs, hk, hn, if_true]
      refine ⟨following.take 1, ?_⟩
      rw [← fit_eq_next hd]
      simp only [Descriptor.fit, hk, hlength.2 hn, if_true]
    · have hd : d.demand token = 0 := by simp only [Descriptor.demand, hn, if_false]
      have hl : ¬ token.length = d.name.length := fun hl => hn (hlength.1 hl)
      exact ⟨[token.drop d.name.length], by simp only [Descriptor.fit, hk, hl, hd, Nat.not_lt_zero, if_false]⟩
  case multi =>
    have hd : d.demand token = d.arity := by simp only [Descriptor.demand, Descriptor.needs, hk, h, if_true]
    exact ⟨following.take d.arity, by simp only [Descriptor.fit, hk, hlength.2 h, hd, if_true]⟩

theorem claims_iff_accepts : d.claims token following = true ↔ d.Accepts token := by
  simp only [Descriptor.claims, Bool.and_eq_true, decide_eq_true_eq]
  constructor
  · rintro ⟨hp, hfit⟩
    have hbegins := List.isPrefixOf_iff_prefix.1 hp
    have hexact (hk : d.kind = .flag ∨ d.kind = .separate ∨ d.kind = .multi) : d.name = token := by
      refine (length_eq_iff hbegins).1 (Classical.byContradiction fun hl => hfit ?_)
      unfold Descriptor.fit
      rcases hk with hk | hk | hk <;> simp only [hk, if_neg hl]
    unfold Descriptor.Accepts
    cases hk : d.kind <;> simp only
    case flag => exact hexact (.inl hk)
    case separate => exact hexact (.inr (.inl hk))
    case multi => exact hexact (.inr (.inr hk))
    case joined | joinedOrSeparate => exact hbegins
    case group | input | unknown => exact hfit (by simp only [Descriptor.fit, hk])
  · intro h
    obtain ⟨values, hfit⟩ := fit_of_accepts h following
    refine ⟨List.isPrefixOf_iff_prefix.2 (begins_of_accepts h), fun hrefused => ?_⟩
    rw [hrefused] at hfit
    split at hfit <;> cases hfit

instance : Decidable (d.Accepts token) := decidable_of_iff (d.claims token [] = true) claims_iff_accepts

end

/-! ## Choosing a row -/

namespace OptionTable

section
variable {t : OptionTable} {token : Text} {following : List Text} {d e : Descriptor}

theorem chosen_iff : t.Chosen token d ↔
    d ∈ t.rows ∧ d.Accepts token ∧ ∀ e ∈ t.rows, e.Accepts token → before d e = true := by
  constructor
  · intro h
    exact ⟨h.listed, h.accepts, fun e he hacc => before_iff.2
      ⟨h.longest e he hacc, h.least e he hacc⟩⟩
  · rintro ⟨hd, hacc, hbefore⟩
    exact ⟨hd, hacc, fun e he ha => (before_iff.1 (hbefore e he ha)).1, fun e he ha => (before_iff.1 (hbefore e he ha)).2⟩

theorem Chosen.unique (hd : t.Chosen token d) (he : t.Chosen token e) : d = e := by
  obtain ⟨hdl, hda, hdb⟩ := chosen_iff.1 hd
  obtain ⟨hel, hea, heb⟩ := chosen_iff.1 he
  exact row_eq_of_before hdl hel (hdb e hel hea) (heb d hdl hda)

theorem chosen_of_find? (h : t.matchable.find? (·.claims token following) = some d) : t.Chosen token d := by
  obtain ⟨hclaims, earlier, later, hrows, hearlier⟩ := List.find?_eq_some_iff_append.1 h
  -- another row that accepts the token is tried later, and the rows are tried in order
  have hsorted := t.matchable_sorted
  rw [hrows] at hsorted
  refine chosen_iff.2 ⟨(mem_matchable.1 (List.mem_of_find?_eq_some h)).1, claims_iff_accepts.1 hclaims, fun e he hacc => ?_⟩
  have hmem : e ∈ t.matchable := mem_matchable.2 ⟨he, matchable_of_accepts hacc⟩
  rw [hrows] at hmem
  rcases List.mem_append.1 hmem with hmem | hmem
  · have hnot := hearlier e hmem
    rw [claims_iff_accepts.2 hacc] at hnot
    cases hnot
  · rcases List.mem_cons.1 hmem with rfl | hmem
    · exact before_iff.2 ⟨Nat.le_refl _, fun _ => Nat.le_refl _⟩
    · exact (List.pairwise_cons.1 (List.pairwise_append.1 hsorted).2.1).1 e hmem

theorem find?_accepting (hd : d ∈ t.rows) (h : d.Accepts token) (following : List Text) :
    ∃ e, t.matchable.find? (·.claims token following) = some e := by
  refine Option.isSome_iff_exists.1 (List.find?_isSome.2 ⟨d, ?_, claims_iff_accepts.2 h⟩)
  exact mem_matchable.2 ⟨hd, matchable_of_accepts h⟩

theorem find?_of_chosen (h : t.Chosen token d) (following : List Text) :
    t.matchable.find? (·.claims token following) = some d := by
  obtain ⟨e, he⟩ := find?_accepting h.listed h.accepts following
  rw [he, (chosen_of_find? he).unique h]

theorem exists_chosen (hd : d ∈ t.rows) (h : d.Accepts token) : ∃! e, t.Chosen token e := by
  obtain ⟨e, he⟩ := find?_accepting hd h []
  exact ⟨e, chosen_of_find? he, fun e' he' => he'.unique (chosen_of_find? he)⟩

/-! ## Reading a token -/

theorem firstFit_of_chosen (closed : t.Closed) (h : t.Chosen token d) (following : List Text) :
    ∃ o, t.resolve d = .ok o ∧ t.firstFit token following t.matchable = .ok (some (o, d, d.fit token following)) := by
  have hfind := find?_of_chosen h following
  rcases firstFit_of_closed closed token following t.matchable (fun e he => (mem_matchable.1 he).1) with
    ⟨-, hnone⟩ | ⟨e, o, he, ho, hfirst⟩
  · have hrefused := hnone d (List.mem_of_find?_eq_some hfind)
    rw [claims_iff_accepts.2 h.accepts] at hrefused
    cases hrefused
  · obtain rfl : e = d := Option.some.inj (he.symm.trans hfind)
    exact ⟨o, ho, hfirst⟩

/-- **What a row reads a token as**: an option short of values, or an argument with what the row demands of the tokens
that follow. -/
def ReadBy (t : OptionTable) (token : Text) (following : List Text) (index : Nat) (o d : Descriptor) : Prop :=
  if following.length < d.demand token then
    t.readOption token following index = .ok (.error ⟨index, d.demand token - following.length⟩)
  else ∃ values, d.Written values (token :: following.take (d.demand token)) ∧
    t.readOption token following index = .ok (.ok (⟨o, d, index, values⟩, d.demand token))

theorem readBy_of_chosen (closed : t.Closed) (h : t.Chosen token d) (following : List Text) (index : Nat) :
    ∃ o, t.resolve d = .ok o ∧ t.ReadBy token following index o d := by
  obtain ⟨o, ho, hfirst⟩ := firstFit_of_chosen closed h following
  obtain ⟨values, hfit⟩ := fit_of_accepts h.accepts following
  refine ⟨o, ho, ?_⟩
  unfold ReadBy readOption
  rw [hfirst]
  split
  · rename_i hshort
    rw [if_pos hshort] at hfit
    simp only [hfit]
  · rename_i henough
    rw [if_neg henough] at hfit
    have hprefix := List.isPrefixOf_iff_prefix.2 (begins_of_accepts h.accepts)
    exact ⟨values, (written_of_taken hprefix hfit).2, by simp only [hfit]⟩

theorem readOption_eq_unknown (closed : t.Closed) (token : Text) (following : List Text) (index : Nat) :
    t.readOption token following index = .ok (.ok (⟨.unknown, .unknown, index, [token]⟩, 0)) ↔
      ∀ d ∈ t.rows, ¬ d.Accepts token := by
  constructor
  · intro hunknown d hd hacc
    obtain ⟨e, he, -⟩ := exists_chosen hd hacc
    obtain ⟨o, -, hread⟩ := readBy_of_chosen closed he following index
    -- a row that accepts something is none of the rows that are never tried
    have hkind : e.isMatchable = true := matchable_of_accepts he.accepts
    unfold ReadBy at hread
    rw [hunknown] at hread
    split at hread
    · cases hread
    · obtain ⟨values, -, hread⟩ := hread
      simp only [Except.ok.injEq, Prod.mk.injEq, Arg.mk.injEq] at hread
      rw [← hread.1.2.1] at hkind
      cases hkind
  · intro hnone
    unfold readOption
    rcases firstFit_of_closed closed token following t.matchable (fun e he => (mem_matchable.1 he).1) with
      ⟨hfirst, -⟩ | ⟨e, o, he, -, -⟩
    · rw [hfirst]
    · have hchosen := chosen_of_find? he
      exact absurd hchosen.accepts (hnone e hchosen.listed)

end

end OptionTable

/-- **Which row reads a token.**  In a closed table a token is unknown exactly if no row accepts it; otherwise it is read
by the one row that is chosen among those that do, also if that row is then short of values.  A table of the same rows in
another order can be made too; it lists them alike, reads every command line alike and has the same help screen. -/
theorem selection :
    (∀ t : OptionTable, t.Closed → ∀ (token : Text) (following : List Text) (index : Nat),
      (t.readOption token following index = .ok (.ok (⟨.unknown, .unknown, index, [token]⟩, 0)) ↔
        ∀ d ∈ t.rows, ¬ d.Accepts token) ∧
      (∀ d ∈ t.rows, d.Accepts token → ∃! e, t.Chosen token e) ∧
      ∀ d, t.Chosen token d → ∃ o, t.resolve d = .ok o ∧ t.ReadBy token following index o d) ∧
    ∀ (t : OptionTable) (rows : List Descriptor), t.rows.Perm rows → ∃ u, OptionTable.ofRows rows = .ok u ∧
      u.listed = t.listed ∧ (∀ tokens, u.read tokens = t.read tokens) ∧
      ∀ screen prog title, u.printHelp screen prog title = t.printHelp screen prog title := by
  refine ⟨fun t closed token following index => ⟨?_, ?_, ?_⟩, fun t rows hrows => ?_⟩
  · exact OptionTable.readOption_eq_unknown closed token following index
  · exact fun d hd hacc => OptionTable.exists_chosen hd hacc
  · exact fun d hd => OptionTable.readBy_of_chosen closed hd following index
  · refine ⟨_, OptionTable.ofRows_reordered hrows, ?_, fun tokens => ?_, fun screen prog title => ?_⟩
    · exact (OptionTable.listed_reordered hrows).symm
    · exact (OptionTable.read_reordered hrows tokens).symm
    · exact (OptionTable.printHelp_reordered hrows screen prog title).symm

/-- A table in which every name begins the next one. -/
def nestedRows : List Descriptor :=
  [{ id := .includeDir, name := "-a", kind := .joined }, { id := .emitLlvm, name := "-ab", kind := .flag },
    { id := .outputDir, name := "-abx", kind := .multi, arity := 2, standsFor := some .includeDir }]

def nested : OptionTable := ⟨nestedRows, by decide⟩

theorem nested_closed : nested.Closed := by unfold OptionTable.Closed; decide

-- a longer name that begins the token and does not accept it is passed over
theorem nested_chosen : nested.Chosen "-abc" nestedRows[0] := OptionTable.chosen_iff.2 (by decide)

-- a row that is short of values gives way to none that is not
theorem nested_chosen_short : nested.Chosen "-abx" nestedRows[2] := OptionTable.chosen_iff.2 (by decide)

theorem selection_nested : nested.Closed ∧ nested.Chosen "-abc" nestedRows[0] ∧ nested.Chosen "-abx" nestedRows[2] ∧
    (∃ o, nested.resolve nestedRows[0] = .ok o ∧ nested.ReadBy "-abc" ["v"] 0 o nestedRows[0]) ∧
    (∃ o, nested.resolve nestedRows[2] = .ok o ∧ nested.ReadBy "-abx" ["v"] 0 o nestedRows[2]) ∧
    nested.rows.Perm nestedRows.reverse ∧ ∃ u, OptionTable.ofRows nestedRows.reverse = .ok u ∧ u.listed = nested.listed ∧
      (∀ tokens, u.read tokens = nested.read tokens) ∧
      ∀ screen prog title, u.printHelp screen prog title = nested.printHelp screen prog title :=
  ⟨nested_closed, nested_chosen, nested_chosen_short,
    (selection.1 nested nested_closed "-abc" ["v"] 0).2.2 _ nested_chosen,
    (selection.1 nested nested_closed "-abx" ["v"] 0).2.2 _ nested_chosen_short,
    (List.reverse_perm _).symm, selection.2 nested _ (List.reverse_perm _).symm⟩

end ScriptDriver.CommandLine
