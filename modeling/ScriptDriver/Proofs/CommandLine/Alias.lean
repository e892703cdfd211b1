import Mathlib.Data.List.Perm.Subperm
import Mathlib.Logic.Relation
import ScriptDriver.Proofs.CommandLine.Query
import ScriptDriver.Proofs.CommandLine.Reordering
/-!
# Alias — rows that stand for other rows

A row stands for at most one row, so the rows that it leads to are a chain, which comes to a row that stands for none or
runs into a circle.  Following the chain leaves no row twice; so it stops, at the row that stands for none if there is one
and on the circle otherwise (`resolve_settles`).  In a table without circles every argument counts as the row at the end
of its chain, and as nothing else.
-/
namespace ScriptDriver.CommandLine

open Relation (ReflTransGen TransGen)

namespace OptionTable

/-- Whether `d` stands for the row `e`. -/
def Link (t : OptionTable) (d e : Descriptor) : Prop := ∃ target, d.standsFor = some target ∧ t.find? target = some e

/-- **A table without circles**: no row stands for itself, be it through other rows. -/
def Acyclic (t : OptionTable) : Prop := ∀ d ∈ t.rows, ¬ TransGen t.Link d d

/-- A way from `d` to `o`, with the rows that it leaves. -/
inductive Way (t : OptionTable) : Descriptor → List Descriptor → Descriptor → Prop
  | here (d : Descriptor) : Way t d [] d
  | on {d next o : Descriptor} {left : List Descriptor} (link : t.Link d next) (more : Way t next left o) :
    Way t d (d :: left) o

/-- **How a row is followed**: no row is left twice, and the way ends at a row that stands for none or was left before. -/
structure Followed (t : OptionTable) (d : Descriptor) (left : List Descriptor) (o : Descriptor) : Prop where
  way : t.Way d left o
  once : (left.map (·.id)).Nodup
  ends : o.standsFor = none ∨ o.id ∈ left.map (·.id)

/-- Whether what an argument was typed as stands in the end for one of `ids`, or for a row in a group among `ids`. -/
def StandsAmong (t : OptionTable) (a : Arg) (ids : List OptionId) : Prop :=
  ∃ o, ReflTransGen t.Link a.spelling o ∧ o.standsFor = none ∧ (o.id ∈ ids ∨ ∃ g ∈ o.group, g ∈ ids)

end OptionTable

/-- **Questions about a command line answered by `among`**: which arguments it has of some options, in their order,
whether it has any, and which is the last. -/
structure Matched.AnswersBy (m : Matched) (among : Arg → List OptionId → Prop) : Prop where
  ordered : ∀ ids, (m.filtered ids).Sublist m.args
  filtered : ∀ ids a, a ∈ m.filtered ids ↔ a ∈ m.args ∧ among a ids
  has : ∀ ids, m.has ids = true ↔ ∃ a ∈ m.args, among a ids
  last : ∀ ids a, m.last? ids = some a ↔
    ∃ before after, m.args = before ++ a :: after ∧ among a ids ∧ ∀ b ∈ after, ¬ among b ids

namespace OptionTable

/-! ## Chains -/

section
variable {t : OptionTable} {c d e o : Descriptor}

theorem link_unique (t : OptionTable) : Relator.RightUnique t.Link := by
  rintro d e e' ⟨target, hd, he⟩ ⟨target', hd', he'⟩
  obtain rfl : target = target' := Option.some.inj (hd.symm.trans hd')
  exact Option.some.inj (he.symm.trans he')

theorem mem_of_link (h : t.Link d e) : e ∈ t.rows := by
  obtain ⟨target, -, hfind⟩ := h
  exact (find?_eq_some.1 hfind).1

/-- A chain does not go on from a row that stands for none. -/
theorem eq_of_plain (hd : d.standsFor = none) (h : ReflTransGen t.Link d e) : e = d := by
  rcases h.cases_head with rfl | ⟨next, ⟨target, hlink, -⟩, -⟩
  · rfl
  · rw [hd] at hlink
    cases hlink

/-- A chain has one end at most. -/
theorem plain_unique (he : ReflTransGen t.Link d e) (ho : ReflTransGen t.Link d o) (hplain : e.standsFor = none)
    (hplain' : o.standsFor = none) : o = e := by
  rcases ReflTransGen.total_of_right_unique t.link_unique he ho with heo | hoe
  · exact eq_of_plain hplain heo
  · exact (eq_of_plain hplain' hoe).symm

theorem eq_or_mem_of_leads (h : ReflTransGen t.Link d e) : e = d ∨ e ∈ t.rows := by
  cases h with
  | refl => exact .inl rfl
  | tail _ hlink => exact .inr (mem_of_link hlink)

/-- **A circle is not left**: every row that it leads to leads back. -/
theorem leads_back (hc : TransGen t.Link c c) (h : ReflTransGen t.Link c e) : ReflTransGen t.Link e c := by
  induction h with
  | refl => exact .refl
  | tail _ hlink ih =>
    -- the way back from the row before goes over the next row, since that is the only one it stands for
    obtain ⟨next, hnext, hback⟩ := TransGen.head'_iff.1 (TransGen.trans_right ih hc)
    exact t.link_unique hnext hlink ▸ hback

/-- Rows on the chain of `d` are the same if they have one identifier. -/
theorem eq_of_id_eq (hd : d ∈ t.rows ∨ d.id ∉ t.ids) (hc : ReflTransGen t.Link d c) (ho : ReflTransGen t.Link d o)
    (hid : c.id = o.id) : c = o := by
  have hrow {e : Descriptor} (he : e ∈ t.rows) (h : e.id = d.id) : e = d := by
    rcases hd with hd | hd
    · exact row_eq_of_id he hd h
    · exact absurd (h ▸ List.mem_map.2 ⟨e, he, rfl⟩) hd
  rcases eq_or_mem_of_leads hc with rfl | hcr <;> rcases eq_or_mem_of_leads ho with rfl | hor
  · rfl
  · exact (hrow hor hid.symm).symm
  · exact hrow hcr hid
  · exact row_eq_of_id hcr hor hid

/-! ## Following a chain -/

variable {left : List Descriptor}

theorem Way.leads (h : t.Way d left o) : ReflTransGen t.Link d o := by
  induction h with
  | here d => exact .refl
  | on link _ ih => exact .head link ih

theorem Way.passes (h : t.Way d left o) : ∀ e ∈ left, ReflTransGen t.Link d e ∧ TransGen t.Link e o := by
  induction h with
  | here d => exact fun e he => absurd he List.not_mem_nil
  | on link more ih =>
    intro e he
    rcases List.mem_cons.1 he with rfl | he
    · exact ⟨.refl, .head' link more.leads⟩
    · exact ⟨.head link (ih e he).1, (ih e he).2⟩

/-- **What following a row leaves**: rows among the unseen ones, each once, up to one that stands for none or has been
seen. -/
theorem follow_way (unseen : List OptionId) (d : Descriptor) : unseen.Nodup → t.follow unseen d = .ok o →
    ∃ left, t.Way d left o ∧ (left.map (·.id)).Nodup ∧ (∀ e ∈ left, e.id ∈ unseen) ∧
      (o.standsFor = none ∨ o.id ∉ unseen ∨ o.id ∈ left.map (·.id)) := by
  induction unseen, d using follow.induct t with
  | case1 unseen d hn =>
    intro _ h
    rw [follow, hn] at h
    cases h
    exact ⟨[], .here o, List.nodup_nil, List.forall_mem_nil _, .inl hn⟩
  | case2 unseen d target ht hu next hf ih =>
    intro hnodup h
    rw [follow] at h
    simp only [ht, hu, hf, dite_true] at h
    obtain ⟨left, hway, honce, hunseen, hends⟩ := ih (hnodup.erase d.id) h
    have hleft : ∀ e ∈ left, e.id ≠ d.id ∧ e.id ∈ unseen := fun e he => hnodup.mem_erase_iff.1 (hunseen e he)
    refine ⟨d :: left, .on ⟨target, ht, hf⟩ hway, ?_, ?_, ?_⟩
    · rw [List.map_cons, List.nodup_cons]
      refine ⟨fun hmem => ?_, honce⟩
      obtain ⟨e, he, hid⟩ := List.mem_map.1 hmem
      exact (hleft e he).1 hid
    · exact List.forall_mem_cons.2 ⟨hu, fun e he => (hleft e he).2⟩
    · rw [List.map_cons, List.mem_cons]
      rcases hends with hplain | hseen | hmem
      · exact .inl hplain
      · by_cases hid : o.id = d.id
        · exact .inr (.inr (.inl hid))
        · exact .inr (.inl fun hmem => hseen (hnodup.mem_erase_iff.2 ⟨hid, hmem⟩))
      · exact .inr (.inr (.inr hmem))
  | case3 unseen d target ht hu hf =>
    intro _ h
    rw [follow] at h
    simp only [ht, hu, hf, dite_true] at h
    cases h
  | case4 unseen d target ht hu =>
    intro _ h
    rw [follow] at h
    simp only [ht, hu, dite_false] at h
    cases h
    exact ⟨[], .here o, List.nodup_nil, List.forall_mem_nil _, .inr (.inl hu)⟩

theorem followed_of_resolve (h : t.resolve d = .ok o) : ∃ left, t.Followed d left o := by
  obtain ⟨left, hway, honce, -, hends⟩ := follow_way OptionId.all d (by decide) h
  refine ⟨left, hway, honce, ?_⟩
  rcases hends with hplain | hseen | hmem
  · exact .inl hplain
  · exact absurd o.id.mem_all hseen
  · exact .inr hmem

/-- **No more rows are left than there are.** -/
theorem Followed.length_le (h : t.Followed d left o) (hd : d ∈ t.rows) : left.length ≤ t.rows.length := by
  refine (List.subperm_of_subset (List.Nodup.of_map _ h.once) fun e he => ?_).length_le
  rcases eq_or_mem_of_leads (h.way.passes e he).1 with rfl | he
  · exact hd
  · exact he

/-! ## Where it ends -/

/-- **What a row resolves to** is on its chain, and stands for none or is on a circle. -/
theorem end_of_resolve (hd : d ∈ t.rows ∨ d.id ∉ t.ids) (h : t.resolve d = .ok o) :
    ReflTransGen t.Link d o ∧ (o.standsFor = none ∨ TransGen t.Link o o) := by
  obtain ⟨left, hway, -, hends⟩ := followed_of_resolve h
  refine ⟨hway.leads, hends.imp_right fun hmem => ?_⟩
  obtain ⟨e, he, hid⟩ := List.mem_map.1 hmem
  obtain ⟨hleads, hon⟩ := hway.passes e he
  obtain rfl := eq_of_id_eq hd hleads hway.leads hid
  exact hon

theorem eq_of_leads_plain (hd : d ∈ t.rows ∨ d.id ∉ t.ids) (h : t.resolve d = .ok o) (he : ReflTransGen t.Link d e)
    (hplain : e.standsFor = none) : o = e := by
  obtain ⟨hleads, hends⟩ := end_of_resolve hd h
  rcases hends with ho | ho
  · exact plain_unique he hleads hplain ho
  · rcases ReflTransGen.total_of_right_unique t.link_unique he hleads with heo | hoe
    · exact eq_of_plain hplain heo
    · exact eq_of_plain hplain (leads_back ho hoe)

theorem circle_of_leads (hd : d ∈ t.rows ∨ d.id ∉ t.ids) (h : t.resolve d = .ok o) (hc : ReflTransGen t.Link d c)
    (circle : TransGen t.Link c c) : TransGen t.Link c o ∧ TransGen t.Link o c := by
  obtain ⟨hleads, hends⟩ := end_of_resolve hd h
  have hco : ReflTransGen t.Link c o := by
    rcases ReflTransGen.total_of_right_unique t.link_unique hc hleads with hco | hoc
    · exact hco
    · rcases hends with ho | ho
      · rw [eq_of_plain ho hoc]
      · exact leads_back ho hoc
  exact ⟨TransGen.trans_left circle hco, TransGen.trans_right (leads_back circle hco) circle⟩

end

/-! ## Tables without circles -/

/-- A table has no circles if rows stand only for rows with smaller identifiers. -/
theorem acyclic_of_smaller {t : OptionTable}
    (h : ∀ d ∈ t.rows, ∀ target ∈ d.standsFor, target.number < d.id.number) : t.Acyclic := by
  have hlink {d e : Descriptor} (hd : d ∈ t.rows) (hde : t.Link d e) : e.id.number < d.id.number := by
    obtain ⟨target, htarget, hfind⟩ := hde
    rw [(find?_eq_some.1 hfind).2]
    exact h d hd target htarget
  have hchain {d e : Descriptor} (hd : d ∈ t.rows) (hde : TransGen t.Link d e) : e.id.number < d.id.number := by
    induction hde with
    | single hde => exact hlink hd hde
    | tail hde hlast ih =>
      obtain ⟨_, _, hmem⟩ := TransGen.tail'_iff.1 hde
      exact Nat.lt_trans (hlink (mem_of_link hmem) hlast) ih
  exact fun d hd hcircle => Nat.lt_irrefl _ (hchain hd hcircle)

theorem standard_acyclic : standard.Acyclic := acyclic_of_smaller (by decide)

/-- Every argument counts as the end of the chain of what it was typed as. -/
theorem read_ends {t : OptionTable} (acyclic : t.Acyclic) {tokens : List Text} {m : Matched}
    (h : t.read tokens = .ok m) : ∀ a ∈ m.args, a.option.standsFor = none ∧ ReflTransGen t.Link a.spelling a.option := by
  obtain ⟨-, covered, htiles, -⟩ := read_sound h
  intro a ha
  cases htiles.of a ha with
  | input option spelling | unknown option spelling =>
    rw [option, spelling]
    exact ⟨rfl, .refl⟩
  | row spelling option =>
    obtain ⟨hleads, hplain | hcircle⟩ := end_of_resolve (.inl (mem_matchable.1 spelling).1) option
    · exact ⟨hplain, hleads⟩
    · obtain ⟨_, _, hmem⟩ := TransGen.tail'_iff.1 hcircle
      exact absurd hcircle (acyclic _ (mem_of_link hmem))

theorem among_iff_standsAmong {t : OptionTable} {a : Arg} (hplain : a.option.standsFor = none)
    (hleads : ReflTransGen t.Link a.spelling a.option) (ids : List OptionId) :
    a.among ids = true ↔ t.StandsAmong a ids := by
  have hamong : a.among ids = true ↔ a.option.id ∈ ids ∨ ∃ g ∈ a.option.group, g ∈ ids := by
    unfold Arg.among Arg.id
    cases a.option.group <;> simp
  rw [hamong]
  constructor
  · exact fun h => ⟨a.option, hleads, hplain, h⟩
  · rintro ⟨o, hchain, ho, h⟩
    exact plain_unique hleads hchain hplain ho ▸ h

end OptionTable

theorem Matched.answersBy {m : Matched} {among : Arg → List OptionId → Prop}
    (h : ∀ a ∈ m.args, ∀ ids, a.among ids = true ↔ among a ids) : m.AnswersBy among := by
  constructor
  case ordered => exact fun ids => List.filter_sublist
  case filtered =>
    intro ids a
    rw [Matched.filtered, List.mem_filter]
    exact and_congr_right fun ha => h a ha ids
  case has =>
    intro ids
    rw [Matched.has, List.any_eq_true]
    exact exists_congr fun a => and_congr_right fun ha => h a ha ids
  case last =>
    intro ids a
    rw [Matched.last?, Matched.filtered, getLast?_filter_eq_some]
    refine exists_congr fun before => exists_congr fun after => and_congr_right fun hargs => ?_
    have hmem : ∀ b ∈ a :: after, b ∈ m.args := fun b hb => hargs ▸ List.mem_append_right before hb
    refine and_congr (h a (hmem a List.mem_cons_self) ids) (forall_congr' fun b => forall_congr' fun hb => ?_)
    rw [← h b (hmem b (List.mem_cons_of_mem a hb)) ids, Bool.not_eq_true]

/-- **What rows stand for in the end.**  In a closed table every row is resolved, and no row is left twice on the way.  If
the chain comes to a row that stands for none, that is the row it is resolved to; otherwise the chain runs into a circle,
and it is resolved to a row of that circle.  This holds also of a row that could be added to the table, which stands for
no row outside it and has an identifier of its own.  So if there are no circles, every argument of a command line counts
as a row that stands for none, the one at the end of the chain, and questions are answered by that row and its group. -/
theorem resolve_settles :
    (∀ t : OptionTable, t.Closed → ∀ d : Descriptor, (∀ target ∈ d.standsFor, target ∈ t.ids) →
      (∃ o left, t.resolve d = .ok o ∧ t.Followed d left o ∧ (d ∈ t.rows → left.length ≤ t.rows.length)) ∧
      (d ∈ t.rows ∨ d.id ∉ t.ids →
        (∀ e, ReflTransGen t.Link d e → e.standsFor = none → t.resolve d = .ok e) ∧
        (∀ c, ReflTransGen t.Link d c → TransGen t.Link c c →
          ∃ o, t.resolve d = .ok o ∧ TransGen t.Link c o ∧ TransGen t.Link o c) ∧
        ((∃ e, ReflTransGen t.Link d e ∧ e.standsFor = none) ∨
          ∃ c, ReflTransGen t.Link d c ∧ TransGen t.Link c c))) ∧
    ∀ t : OptionTable, t.Closed → t.Acyclic → ∀ tokens : List Text, ∃ m, t.read tokens = .ok m ∧
      (∀ a ∈ m.args, a.option.standsFor = none ∧ ReflTransGen t.Link a.spelling a.option) ∧
      m.AnswersBy t.StandsAmong := by
  refine ⟨fun t closed d htarget => ?_, fun t closed acyclic tokens => ?_⟩
  · obtain ⟨o, ho, -⟩ := OptionTable.resolve_total closed htarget
    obtain ⟨left, hleft⟩ := OptionTable.followed_of_resolve ho
    refine ⟨⟨o, left, ho, hleft, hleft.length_le⟩, fun hd => ⟨?_, ?_, ?_⟩⟩
    · intro e he hplain
      rw [ho, OptionTable.eq_of_leads_plain hd ho he hplain]
    · exact fun c hc hcircle => ⟨o, ho, OptionTable.circle_of_leads hd ho hc hcircle⟩
    · obtain ⟨hleads, hplain | hcircle⟩ := OptionTable.end_of_resolve hd ho
      · exact .inl ⟨o, hleads, hplain⟩
      · exact .inr ⟨o, hleads, hcircle⟩
  · obtain ⟨m, hm⟩ := OptionTable.read_total closed tokens
    have hends := OptionTable.read_ends acyclic hm
    exact ⟨m, hm, hends, Matched.answersBy fun a ha ids =>
      OptionTable.among_iff_standsAmong (hends a ha).1 (hends a ha).2 ids⟩

/-- A chain of three rows, in different groups. -/
def straightRows : List Descriptor :=
  [{ id := .versionLong, name := "-x", kind := .flag, group := some .outputGroup, standsFor := some .version },
    { id := .version, name := "-y", kind := .flag, standsFor := some .emitLlvm },
    { id := .emitLlvm, name := "-z", kind := .flag, group := some .dependencyGroup }]

/-- That chain, a row that stands for itself, and one that leads into a circle of two. -/
def windingRows : List Descriptor :=
  straightRows ++
    [{ id := .help, name := "-s", kind := .flag, standsFor := some .help },
      { id := .includeDir, name := "-a", kind := .flag, standsFor := some .outputDir },
      { id := .outputDir, name := "-b", kind := .flag, standsFor := some .targetApi },
      { id := .targetApi, name := "-c", kind := .flag, standsFor := some .outputDir }]

def straight : OptionTable := ⟨straightRows, by decide⟩

def winding : OptionTable := ⟨windingRows, by decide⟩

theorem straight_closed : straight.Closed := by unfold OptionTable.Closed; decide

theorem winding_closed : winding.Closed := by unfold OptionTable.Closed; decide

theorem straight_acyclic : straight.Acyclic := OptionTable.acyclic_of_smaller (by decide)

-- the row `-s` stands for itself, and `-a` leads to `-b` and `-c`, which stand for each other
theorem resolve_settles_winding : winding.Closed ∧ straight.Closed ∧ straight.Acyclic ∧
    winding.resolve windingRows[0] = .ok windingRows[2] ∧
    (∃ o, winding.resolve windingRows[3] = .ok o ∧ TransGen winding.Link windingRows[3] o ∧
      TransGen winding.Link o windingRows[3]) ∧
    (∃ o, winding.resolve windingRows[4] = .ok o ∧ TransGen winding.Link windingRows[5] o ∧
      TransGen winding.Link o windingRows[5]) ∧
    ∃ m, straight.read ["-x"] = .ok m ∧
      (∀ a ∈ m.args, a.option.standsFor = none ∧ ReflTransGen straight.Link a.spelling a.option) ∧
      m.AnswersBy straight.StandsAmong := by
  have hsettles (d : Descriptor) (hd : d ∈ winding.rows) :=
    (resolve_settles.1 winding winding_closed d (winding_closed d hd)).2 (.inl hd)
  have hxy : winding.Link windingRows[0] windingRows[1] := ⟨.version, rfl, rfl⟩
  have hyz : winding.Link windingRows[1] windingRows[2] := ⟨.emitLlvm, rfl, rfl⟩
  have hss : winding.Link windingRows[3] windingRows[3] := ⟨.help, rfl, rfl⟩
  have hab : winding.Link windingRows[4] windingRows[5] := ⟨.outputDir, rfl, rfl⟩
  have hbc : winding.Link windingRows[5] windingRows[6] := ⟨.targetApi, rfl, rfl⟩
  have hcb : winding.Link windingRows[6] windingRows[5] := ⟨.outputDir, rfl, rfl⟩
  refine ⟨winding_closed, straight_closed, straight_acyclic, ?_, ?_, ?_, ?_⟩
  · exact (hsettles windingRows[0] (by decide)).1 windingRows[2] (.head hxy (.single hyz)) rfl
  · exact (hsettles windingRows[3] (by decide)).2.1 windingRows[3] .refl (.single hss)
  · exact (hsettles windingRows[4] (by decide)).2.1 windingRows[5] (.single hab) (.head hbc (.single hcb))
  · exact resolve_settles.2 straight straight_closed straight_acyclic ["-x"]

end ScriptDriver.CommandLine
