import Mathlib.Data.Set.Card
import ScriptDriver.Proofs.ResponseFile.Reference
import ScriptDriver.Proofs.ResponseFile.Reuse
/-!
# Depth — how many files are open at a time

No file is on the stack twice, so the stack cannot be longer than there are files to be read; and it is never longer than
the depth allows.  A depth that the number of files does not exceed is therefore as good as any larger one
(`expand_depth`).  The moments at which this is said of the stack are those that a run goes through when it records what
there is (`Progress.moment_iff`).
-/
namespace ScriptDriver.ResponseFile

open File (Location Disk)

/-! ## The stack -/

namespace Progress

/-- **The moments of an expansion**: what there is before and after each argument of the command line and of every file
that is opened, also when a fault is on its way out. -/
inductive Moment (lookup : Lookup) : Progress → List Text → Progress → Prop
  | before (p : Progress) (args : List Text) : Moment lookup p args p
  | after (p : Progress) (arg : Text) (args : List Text) : Moment lookup p (arg :: args) (expandArg lookup p arg).after
  | later {p q : Progress} {arg : Text} {args : List Text} (h : (expandArg lookup p arg).fault = none)
      (more : Moment lookup (expandArg lookup p arg).after args q) : Moment lookup p (arg :: args) q
  | inside {p q : Progress} {name text : Text} {l : Location} {args : List Text} (h : lookup name = .file l text)
      (hl : p.refuses l = false) (more : Moment lookup (p.push l) (tokens text) q) :
      Moment lookup p (referenceTo name :: args) q

/-- **A stack as it should be**: no file is on it twice, and it is no longer than the depth. -/
structure Stacked (p : Progress) : Prop where
  distinct : p.opened.Nodup
  bounded : p.opened.length ≤ p.depth.toNat

variable {lookup : Lookup} {p q : Progress} {args : List Text}

theorem Stacked.push {l : Location} (h : p.Stacked) (hl : p.refuses l = false) : (p.push l).Stacked := by
  have hr : ¬(p.room = 0 ∨ l ∈ p.opened) := by
    rw [← refuses_iff, hl]
    exact Bool.false_ne_true
  obtain ⟨hroom, hmem⟩ := not_or.1 hr
  refine ⟨List.nodup_cons.2 ⟨hmem, h.distinct⟩, ?_⟩
  unfold room at hroom
  show p.opened.length + 1 ≤ p.depth.toNat
  omega

theorem Stacked.after (h : p.Stacked) (a : Outcome p) : a.after.Stacked where
  distinct := a.opened_eq ▸ h.distinct
  bounded := by
    rw [a.opened_eq, a.depth_eq]
    exact h.bounded

theorem Moment.stacked (h : Moment lookup p args q) (hp : p.Stacked) : q.Stacked ∧ q.depth = p.depth := by
  induction h with
  | before p args => exact ⟨hp, rfl⟩
  | after p arg args => exact ⟨hp.after _, (expandArg lookup p arg).depth_eq⟩
  | later h more ih =>
    obtain ⟨hq, hdepth⟩ := ih (hp.after _)
    exact ⟨hq, hdepth.trans (Outcome.depth_eq _)⟩
  | inside h hl more ih => exact ih (hp.push hl)

/-! ## The moments of a run -/

mutual

/-- Goes through an argument and records what there is within it and after it. -/
def recordArg (lookup : Lookup) (p : Progress) (arg : Text) : Outcome p × List Progress :=
  match reference? arg with
  | none => (⟨none, p.keep arg, rfl, rfl⟩, [p.keep arg])
  | some name =>
    match lookup name with
    | .unreadable => (⟨none, p.keep arg, rfl, rfl⟩, [p.keep arg])
    | .invalid e => (⟨some e, p, rfl, rfl⟩, [p])
    | .file l text =>
      if p.refuses l then (⟨none, p.skip name, rfl, rfl⟩, [p.skip name])
      else
        let inner := recordArgs lookup (p.push l) (tokens text)
        (⟨inner.1.fault, inner.1.after.pop, inner.1.depth_eq, congrArg List.tail inner.1.opened_eq⟩,
          inner.2 ++ [inner.1.after.pop])
termination_by (p.room, 0)
decreasing_by
  rename_i h
  have hroom : p.room ≠ 0 := fun h0 => h (refuses_iff.2 (.inl h0))
  exact Prod.Lex.left _ _ (by rw [room_push]; omega)

/-- Goes through arguments up to the first fault and records what there is before each of them, within it and after it. -/
def recordArgs (lookup : Lookup) (p : Progress) (args : List Text) : Outcome p × List Progress :=
  match args with
  | [] => (⟨none, p, rfl, rfl⟩, [p])
  | arg :: args =>
    let first := recordArg lookup p arg
    match first.1.fault with
    | some _ => (first.1, p :: first.2)
    | none =>
      let rest := recordArgs lookup first.1.after args
      (first.1.andThen rest.1, p :: (first.2 ++ rest.2))
termination_by (p.room, args.length)
decreasing_by
  · exact Prod.Lex.right _ (Nat.zero_lt_succ _)
  · rw [first.1.room_eq]
    exact Prod.Lex.right _ (Nat.lt_succ_self _)

end

mutual

/-- **A run that is recorded comes to what it comes to otherwise.** -/
theorem recordArg_fst (lookup : Lookup) (p : Progress) (arg : Text) :
    (recordArg lookup p arg).1 = expandArg lookup p arg := by
  rw [recordArg, expandArg]
  cases reference? arg with
  | none => rfl
  | some name =>
    dsimp only
    cases lookup name with
    | unreadable | invalid => rfl
    | file l text =>
      dsimp only
      split
      · rfl
      · rename_i hl
        have hroom : p.room ≠ 0 := fun h0 => hl (refuses_iff.2 (.inl h0))
        simp only [recordArgs_fst lookup (p.push l) (tokens text)]
termination_by (p.room, 0)
decreasing_by exact Prod.Lex.left _ _ (by rw [room_push]; omega)

theorem recordArgs_fst (lookup : Lookup) (p : Progress) (args : List Text) :
    (recordArgs lookup p args).1 = expandArgs lookup p args := by
  cases args with
  | nil => rw [recordArgs, expandArgs]
  | cons arg args =>
    rw [recordArgs, expandArgs, ← recordArg_fst lookup p arg]
    dsimp only
    cases (recordArg lookup p arg).1.fault with
    | some e => rfl
    | none => simp only [recordArgs_fst lookup (recordArg lookup p arg).1.after args]
termination_by (p.room, args.length)
decreasing_by
  · exact Prod.Lex.right _ (Nat.zero_lt_succ _)
  · rw [Outcome.room_eq]
    exact Prod.Lex.right _ (Nat.lt_succ_self _)

end

/-- What is recorded of an argument: what there is within the file that it refers to, and what there is after it. -/
theorem mem_recordArg {arg : Text} : q ∈ (recordArg lookup p arg).2 ↔ q = (expandArg lookup p arg).after ∨
    ∃ name l text, arg = referenceTo name ∧ lookup name = .file l text ∧ p.refuses l = false ∧
      q ∈ (recordArgs lookup (p.push l) (tokens text)).2 := by
  rw [← recordArg_fst, recordArg]
  cases hname : reference? arg with
  | none =>
    have hplain : ∀ name, arg ≠ referenceTo name := by
      rintro name rfl
      cases hname
    simp [hplain]
  | some name =>
    obtain rfl := reference?_eq_some.1 hname
    cases hlookup : lookup name with
    | unreadable | invalid => simp [referenceTo, hlookup]
    | file l text =>
      cases hl : p.refuses l with
      | true => simp [referenceTo, hlookup, hl]
      | false => simp [referenceTo, hlookup, hl, or_comm]

theorem mem_recordArgs_cons {arg : Text} : q ∈ (recordArgs lookup p (arg :: args)).2 ↔
    q = p ∨ q ∈ (recordArg lookup p arg).2 ∨
      (expandArg lookup p arg).fault = none ∧ q ∈ (recordArgs lookup (expandArg lookup p arg).after args).2 := by
  rw [← recordArg_fst, recordArgs]
  dsimp only
  cases (recordArg lookup p arg).1.fault <;> simp

theorem moment_of_mem : ∀ (args : List Text) (p : Progress), q ∈ (recordArgs lookup p args).2 → Moment lookup p args q
  | [], p, h => by
    rw [recordArgs, List.mem_singleton] at h
    exact h ▸ .before q []
  | arg :: args, p, h => by
    rcases mem_recordArgs_cons.1 h with rfl | hwithin | ⟨hfault, hlater⟩
    · exact .before q (arg :: args)
    · rcases mem_recordArg.1 hwithin with rfl | ⟨name, l, text, rfl, hlookup, hl, hinner⟩
      · exact .after p arg args
      · have hroom : p.room ≠ 0 := fun h0 => by
          rw [refuses_iff.2 (.inl h0)] at hl
          cases hl
        exact .inside hlookup hl (moment_of_mem (tokens text) (p.push l) hinner)
    · exact .later hfault (moment_of_mem args _ hlater)
termination_by args p => (p.room, args.length)
decreasing_by
  · exact Prod.Lex.left _ _ (by rw [room_push]; omega)
  · rw [Outcome.room_eq]
    exact Prod.Lex.right _ (Nat.lt_succ_self _)

/-- **The moments of an expansion are what a recorded run goes through.** -/
theorem moment_iff : Moment lookup p args q ↔ q ∈ (recordArgs lookup p args).2 := by
  constructor
  · intro h
    induction h with
    | before p args =>
      cases args with
      | nil => rw [recordArgs, List.mem_singleton]
      | cons arg args => exact mem_recordArgs_cons.2 (.inl rfl)
    | after p arg args => exact mem_recordArgs_cons.2 (.inr (.inl (mem_recordArg.2 (.inl rfl))))
    | later h _ ih => exact mem_recordArgs_cons.2 (.inr (.inr ⟨h, ih⟩))
    | inside h hl _ ih =>
      exact mem_recordArgs_cons.2 (.inr (.inl (mem_recordArg.2 (.inr ⟨_, _, _, rfl, h, hl, ih⟩))))
  · exact moment_of_mem args p

end Progress

/-! ## The files -/

variable {d : Disk}

/-- The files that arguments refer to, directly or through files, and that can be read. -/
def filesBelow (d : Disk) (args : List Text) : Set Location :=
  {l | ∃ name, Referred d args name ∧ (text? d name).isSome ∧ d.real name = l}

theorem filesBelow_mono {args more : List Text} (h : args ⊆ more) : filesBelow d args ⊆ filesBelow d more := by
  rintro l ⟨name, hr, ht, hl⟩
  exact ⟨name, hr.mono h, ht, hl⟩

theorem real_mem_filesBelow {args : List Text} {name text : Text} (h : referenceTo name ∈ args)
    (ht : text? d name = some text) : d.real name ∈ filesBelow d args :=
  ⟨name, .here h, by rw [ht]; rfl, rfl⟩

theorem filesBelow_tokens {args : List Text} {name text : Text} (h : referenceTo name ∈ args)
    (ht : text? d name = some text) : filesBelow d (tokens text) ⊆ filesBelow d args := by
  rintro l ⟨other, hr, hother, hl⟩
  exact ⟨other, .inside h ht hr, hother, hl⟩

theorem card_sdiff_cons {files : Finset Location} {opened : List Location} {l : Location} (hf : l ∈ files)
    (hl : l ∉ opened) : (files \ (l :: opened).toFinset).card + 1 = (files \ opened.toFinset).card := by
  have hmem : l ∈ files \ opened.toFinset := by simp [hf, hl]
  rw [List.toFinset_cons, Finset.sdiff_insert, Finset.card_erase_add_one hmem]

/-- **Room beyond the files that are not open is of no use.**  In the induction a file that is entered takes up some of
the room, and is one of these files no longer. -/
theorem expandWithin_room_congr {files : Finset Location} (room : Nat) (opened : List Location) (args : List Text)
    (hfiles : filesBelow d args ⊆ files) (hroom : (files \ opened.toFinset).card ≤ room) {other : Nat}
    (hother : (files \ opened.toFinset).card ≤ other) :
    expandWithin (ofDisk d) other opened args = expandWithin (ofDisk d) room opened args := by
  induction room, opened, args using expandWithin_induction (ofDisk d) generalizing other with
  | nil room opened => exact expandWithin_nil
  | cons room opened arg args a b iha ihb =>
    rw [expandWithin_cons]
    rw [iha ((filesBelow_mono (by simp)).trans hfiles) hroom hother,
      ihb ((filesBelow_mono (List.subset_cons_self arg args)).trans hfiles) hroom hother]
  | plain room opened arg h => exact expandWithin_plain h
  | unreadable room opened name h => exact expandWithin_unreadable h
  | invalid room opened name e h => exact expandWithin_invalid h
  | skipped room opened name l text h hs =>
    obtain ⟨ht, rfl⟩ := ofDisk_eq_file.1 h
    have hmem : d.real name ∈ files := hfiles (real_mem_filesBelow List.mem_cons_self ht)
    -- there is room for every file that is not open, so it is skipped because it is
    refine expandWithin_skipped h (.inr ?_)
    by_contra hl
    have hcard := card_sdiff_cons hmem hl
    exact hs.elim (by omega) hl
  | entered room opened name l text e h hl ih =>
    obtain ⟨ht, rfl⟩ := ofDisk_eq_file.1 h
    have hmem : d.real name ∈ files := hfiles (real_mem_filesBelow List.mem_cons_self ht)
    have hcard := card_sdiff_cons hmem hl
    obtain ⟨other, rfl⟩ : ∃ k, other = k + 1 := ⟨other - 1, by omega⟩
    rw [expandWithin_entered h hl]
    exact ih ((filesBelow_tokens List.mem_cons_self ht).trans hfiles) (by omega) (by omega)

namespace OpenExpander

theorem fresh_depth_congr {args : List Text} {n : Nat} (hn : (filesBelow d args).encard = n) {depth : Int}
    (hdepth : n ≤ depth) : (expand (fresh depth) (ofDisk d) args).1 = (expand (fresh n) (ofDisk d) args).1 ∧
      (expand (fresh depth) (ofDisk d) args).2.skipped = (expand (fresh n) (ofDisk d) args).2.skipped := by
  obtain ⟨files, hfiles⟩ := (Set.finite_of_encard_eq_coe hn).exists_finset_coe
  have hcard : (files \ ([] : List Location).toFinset).card = n := by
    rw [← hfiles, Set.encard_coe_eq_coe_finsetCard] at hn
    simpa using hn
  have hsame : ResponseFile.expand (ofDisk d) depth args = ResponseFile.expand (ofDisk d) n args :=
    expandWithin_room_congr n [] args hfiles.ge hcard.le (by omega)
  rw [expand_eq (x := fresh depth) rfl, expand_eq (x := fresh n) rfl]
  exact ⟨congrArg Expansion.result hsame, congrArg Expansion.skipped hsame⟩

end OpenExpander

open OpenExpander (fresh)

/-- **A depth counts only if files are nested as deep.**  With any depth that is not less than the number of files to be
read, a command line comes to the same and the same is skipped.  At every moment of every expansion, of a new expander
or not, the files on the stack are distinct, and they are no more than the depth. -/
theorem expand_depth (d : Disk) (argv : List Text) :
    (∀ n : Nat, (filesBelow d argv).encard = n → ∀ depth : Int, n ≤ depth →
      ((fresh depth).expand (ofDisk d) argv).1 = ((fresh n).expand (ofDisk d) argv).1 ∧
      ((fresh depth).expand (ofDisk d) argv).2.skipped = ((fresh n).expand (ofDisk d) argv).2.skipped) ∧
    ∀ depth lines q, Progress.Moment (ofDisk d) ⟨((fresh depth).expandAll (ofDisk d) lines).2, []⟩ argv q →
      q.opened.Nodup ∧ (q.opened.length : Int) ≤ max 0 depth := by
  refine ⟨fun n hn depth hdepth => OpenExpander.fresh_depth_congr hn hdepth, fun depth lines q h => ?_⟩
  rw [OpenExpander.expandAll_eq_fresh lines rfl] at h
  obtain ⟨hq, hdepth⟩ := h.stacked ⟨List.nodup_nil, Nat.zero_le _⟩
  have hbound := hq.bounded
  rw [hdepth] at hbound
  refine ⟨hq.distinct, ?_⟩
  change q.opened.length ≤ depth.toNat at hbound
  omega

/-- The two files that the arguments on `linkedDisk` lead to, one of them by two names. -/
theorem filesBelow_linked : (filesBelow linkedDisk [referenceTo "a"]).encard = (2 : Nat) := by
  have hnames : ∀ name, Referred linkedDisk [referenceTo "a"] name → name ∈ (["a", "b", "c"] : List Text) :=
    fun name h => h.mem_of_closed (by decide) (by decide)
  have hreal : ∀ name ∈ (["a", "b", "c"] : List Text),
      linkedDisk.real name = [[0x61]] ∨ linkedDisk.real name = [[0x62]] := by decide
  have hfiles : filesBelow linkedDisk [referenceTo "a"] = {[[0x61]], [[0x62]]} := by
    ext l
    constructor
    · rintro ⟨name, hr, -, rfl⟩
      exact hreal name (hnames name hr)
    · rintro (rfl | rfl)
      · exact ⟨"a", .here (by decide), rfl, rfl⟩
      · exact ⟨"b", .inside (List.mem_singleton_self (referenceTo "a")) rfl (.here (by decide)), rfl, rfl⟩
  rw [hfiles]
  exact Set.encard_pair (by decide)

def linkedMoment : Progress := ((⟨fresh usualDepth, []⟩ : Progress).push [[0x61]]).push [[0x62]]

theorem linkedMoment_reached :
    Progress.Moment (ofDisk linkedDisk) ⟨((fresh usualDepth).expandAll (ofDisk linkedDisk) []).2, []⟩ [referenceTo "a"]
      linkedMoment :=
  .inside (l := [[0x61]]) rfl rfl (.inside (l := [[0x62]]) rfl rfl (.before linkedMoment _))

theorem expand_depth_linked :
    ((filesBelow linkedDisk [referenceTo "a"]).encard = (2 : Nat) ∧ ((2 : Nat) : Int) ≤ usualDepth ∧
      Progress.Moment (ofDisk linkedDisk) ⟨((fresh usualDepth).expandAll (ofDisk linkedDisk) []).2, []⟩ [referenceTo "a"]
        linkedMoment) ∧
    (((fresh usualDepth).expand (ofDisk linkedDisk) [referenceTo "a"]).1 =
        ((fresh (2 : Nat)).expand (ofDisk linkedDisk) [referenceTo "a"]).1 ∧
      ((fresh usualDepth).expand (ofDisk linkedDisk) [referenceTo "a"]).2.skipped =
        ((fresh (2 : Nat)).expand (ofDisk linkedDisk) [referenceTo "a"]).2.skipped) ∧
    linkedMoment.opened.Nodup ∧ (linkedMoment.opened.length : Int) ≤ max 0 usualDepth :=
  ⟨⟨filesBelow_linked, by decide, linkedMoment_reached⟩,
    (expand_depth linkedDisk [referenceTo "a"]).1 2 filesBelow_linked usualDepth (by decide),
    (expand_depth linkedDisk [referenceTo "a"]).2 usualDepth [] linkedMoment linkedMoment_reached⟩

end ScriptDriver.ResponseFile
