import Mathlib.Data.List.Induction
import ScriptDriver.File.Real
import ScriptDriver.Proofs.File.LinkFree
import ScriptDriver.Proofs.File.Parts
/-!
# Tree — directories in directories

On a disk as file systems keep it, every entry lies in a directory, under a name that can be written.  So the location of
a directory can be written as a path, and that path leads straight down to it, unless a directory on the way may not be
entered (`along_down`).
-/
namespace ScriptDriver.File

/-- **A name that an entry can have.** -/
structure Name.Proper (name : Name) : Prop extends Name.Plain name where
  whole : 0x2F ∉ name
  noNull : 0 ∉ name
  fits : name.length ≤ nameLimit

instance (name : Name) : Decidable name.Proper :=
  decidable_of_iff ((name ≠ [] ∧ name ≠ [0x2E] ∧ name ≠ [0x2E, 0x2E]) ∧ 0x2F ∉ name ∧ 0 ∉ name ∧ name.length ≤ nameLimit)
    ⟨fun ⟨⟨h, noDot, noDots⟩, whole, noNull, fits⟩ => ⟨⟨h, noDot, noDots⟩, whole, noNull, fits⟩,
      fun h => ⟨⟨h.some, h.noDot, h.noDots⟩, h.whole, h.noNull, h.fits⟩⟩

/-- **A disk as file systems keep it.** -/
structure Disk.IsTree (d : Disk) : Prop where
  inside : ∀ {l : Location} {name : Name} {e : Entry}, d.entry? (l ++ [name]) = some e →
    d.entry? l = some .directory ∧ name.Proper
  here : d.entry? d.here = some .directory

/-! ## Entries of a tree -/

namespace Disk.IsTree

variable {d : Disk} (tree : d.IsTree)
include tree

theorem outer {l : Location} {e : Entry} (h : d.entry? l = some e) : d.entry? l.dropLast = some .directory := by
  rcases List.eq_nil_or_concat l with rfl | ⟨l, name, rfl⟩
  · exact d.entry?_root
  · rw [List.concat_eq_append] at h ⊢
    rw [List.dropLast_concat]
    exact (tree.inside h).1

theorem above : ∀ (more : List Name) {l : Location}, d.entry? (l ++ more) = some .directory →
    d.entry? l = some .directory
  | [], l, h => by rwa [List.append_nil] at h
  | name :: more, l, h => by
    have hnext : d.entry? (l ++ [name]) = some .directory := above more (by rwa [List.append_assoc])
    exact (tree.inside hnext).1

theorem proper {l : Location} {e : Entry} (h : d.entry? l = some e) : ∀ name ∈ l, name.Proper := by
  induction l using List.reverseRecOn generalizing e with
  | nil => nofun
  | append_singleton l name ih =>
    obtain ⟨hl, hname⟩ := tree.inside h
    exact List.forall_mem_append.2 ⟨ih hl, List.forall_mem_singleton.2 hname⟩

end Disk.IsTree

/-- **A disk is a tree** if that can be said of every line of its table. -/
theorem Disk.isTree_of_entries {d : Disk} (entries : ∀ p ∈ d.entries, d.entry? p.1.dropLast = some .directory ∧
    ∀ name ∈ p.1, name.Proper) (here : d.entry? d.here = some .directory) : d.IsTree := by
  have listed : ∀ {l : Location} {e : Entry}, l ≠ [] → d.entry? l = some e → (l, e) ∈ d.entries := by
    intro l e hl h
    rw [entry?_of_some _ hl] at h
    obtain ⟨p, hp, rfl⟩ := Option.map_eq_some_iff.1 h
    have hloc : p.1 = l := by simpa using List.find?_some hp
    rw [← hloc]
    exact List.mem_of_find?_eq_some hp
  constructor
  case inside =>
    intro l name e h
    obtain ⟨hl, hproper⟩ := entries _ (listed (by simp) h)
    rw [List.dropLast_concat] at hl
    exact ⟨hl, hproper name (by simp)⟩
  case here => exact here

/-! ## Locations as paths -/

theorem namesOf_ne_nil (bytes : List UInt8) : namesOf bytes ≠ [] := by
  obtain ⟨names, last, h, -⟩ := namesOf_append bytes
  rw [h]
  exact List.concat_ne_nil last names

theorem namesOf_separator (bytes : List UInt8) : namesOf (0x2F :: bytes) = [] :: namesOf bytes := by
  rw [namesOf]
  cases h : namesOf bytes with
  | nil => exact absurd h (namesOf_ne_nil bytes)
  | cons name names => rfl

theorem namesOf_whole_separator (rest : List UInt8) : ∀ {name : Name}, (0x2F : UInt8) ∉ name →
    namesOf (name ++ 0x2F :: rest) = name :: namesOf rest
  | [], _ => namesOf_separator rest
  | b :: name, h => by
    obtain ⟨hb, hname⟩ := not_or.1 (mt List.mem_cons.2 h)
    rw [List.cons_append, namesOf, namesOf_whole_separator rest hname]
    exact if_neg (Ne.symm hb)

theorem namesOf_whole {name : Name} (h : (0x2F : UInt8) ∉ name) : namesOf name = [name] := by
  induction name with
  | nil => rfl
  | cons b name ih =>
    obtain ⟨hb, hname⟩ := not_or.1 (mt List.mem_cons.2 h)
    rw [namesOf, ih hname]
    exact if_neg (Ne.symm hb)

theorem namesOf_joined : ∀ {l : Location}, l ≠ [] → (∀ name ∈ l, name.Proper) →
    namesOf (Text.joinWith "/" (l.map Text.ofBytes)).toBytes = l
  | [name], _, proper => by
    rw [List.map_singleton, joinWith_singleton, Text.toBytes_ofBytes,
      namesOf_whole (proper name List.mem_cons_self).whole]
  | name :: next :: l, _, proper => by
    obtain ⟨hname, hrest⟩ := List.forall_mem_cons.1 proper
    have ih := namesOf_joined (List.cons_ne_nil _ _) hrest
    rw [List.map_cons] at ih
    rw [List.map_cons, List.map_cons, joinWith_cons_cons, Text.toBytes_append, Text.toBytes_append, Text.toBytes_ofBytes]
    exact (namesOf_whole_separator _ hname.whole).trans (congrArg _ ih)

theorem noNull_joined : ∀ {l : Location}, (∀ name ∈ l, name.Proper) →
    0 ∉ (Text.joinWith "/" (l.map Text.ofBytes)).toBytes
  | [], _ => List.not_mem_nil
  | [name], proper => by
    rw [List.map_singleton, joinWith_singleton, Text.toBytes_ofBytes]
    exact (proper name List.mem_cons_self).noNull
  | name :: next :: l, proper => by
    obtain ⟨hname, hrest⟩ := List.forall_mem_cons.1 proper
    have ih := noNull_joined hrest
    rw [List.map_cons] at ih
    rw [List.map_cons, List.map_cons, joinWith_cons_cons, Text.toBytes_append, Text.toBytes_append, Text.toBytes_ofBytes,
      List.mem_append, List.mem_append]
    exact not_or.2 ⟨hname.noNull, not_or.2 ⟨by decide, ih⟩⟩

section
variable {l : Location} (proper : ∀ name ∈ l, name.Proper)
include proper

/-- **A location is written with the names it is made of.** -/
theorem namesOf_text (some : l ≠ []) : namesOf l.text.toBytes = [] :: l := by
  rw [Location.text, Text.toBytes_append]
  exact (namesOf_separator _).trans (congrArg _ (namesOf_joined some proper))

theorem noNull_text : 0 ∉ l.text.toBytes := by
  rw [Location.text, Text.toBytes_append, List.mem_append]
  exact not_or.2 ⟨by decide, noNull_joined proper⟩

theorem parts_of_proper : ∀ part ∈ l.map Text.ofBytes, (part ≠ [] ∧ part ≠ ".") ∧ ∀ g ∈ part, isSeparator g = false := by
  rw [List.forall_mem_map]
  intro name hname
  have hproper := proper name hname
  have hbytes : (Text.ofBytes name).toBytes = name := Text.toBytes_ofBytes name
  refine ⟨⟨fun h => hproper.some ?_, fun h => hproper.noDot ?_⟩, fun g hg => Bool.eq_false_iff.2 fun hsep => hproper.whole ?_⟩
  · rw [← hbytes, h]
    rfl
  · rw [← hbytes, h]
    rfl
  · rw [← hbytes]
    exact List.mem_flatMap.2 ⟨g, hg, by rw [show g = .char '/' from of_decide_eq_true hsep]; decide⟩

theorem takeWhile_joined : (Text.joinWith "/" (l.map Text.ofBytes)).takeWhile isSeparator = [] := by
  cases l with
  | nil => rfl
  | cons name rest =>
    obtain ⟨⟨hsome, -⟩, hplain⟩ := parts_of_proper proper _ List.mem_cons_self
    obtain ⟨g, t, hg⟩ := List.exists_cons_of_ne_nil hsome
    have hfirst : ∃ more, Text.joinWith "/" ((name :: rest).map Text.ofBytes) = g :: more := by
      cases rest with
      | nil => exact ⟨t, by rw [List.map_singleton, joinWith_singleton, hg]⟩
      | cons next rest => exact ⟨_, by rw [List.map_cons, List.map_cons, joinWith_cons_cons, hg]; rfl⟩
    obtain ⟨more, hmore⟩ := hfirst
    rw [hmore, List.takeWhile_cons_of_neg (Bool.eq_false_iff.1 (hplain g (hg ▸ List.mem_cons_self)))]

/-- **A location is read as the names it is made of.** -/
theorem ofText_text : Path.ofText l.text = ⟨.root, l.map Text.ofBytes⟩ := by
  have hparts := parts_of_proper proper
  have hanchor : Path.anchorOf l.text = .root := by
    have hone : l.text.takeWhile isSeparator = "/" :=
      (List.takeWhile_cons_of_pos rfl).trans (congrArg _ (takeWhile_joined proper))
    rw [Path.anchorOf, hone]
    rfl
  have htold : Path.telling (Text.splitOn isSeparator l.text) = l.map Text.ofBytes := by
    have hcut : Text.splitOn isSeparator l.text =
        [] :: Text.splitOn isSeparator (Text.joinWith "/" (l.map Text.ofBytes)) :=
      splitOn_separated_cons rfl _ (List.forall_mem_nil _)
    rw [hcut]
    by_cases hl : l = []
    · rw [hl]
      rfl
    · rw [Path.splitOn_joinWith (by simpa using hl) fun part hpart => (hparts part hpart).2]
      exact Path.telling_eq_self fun part hpart => (hparts part hpart).1
  rw [← hanchor, ← htold]
  rfl

/-- **A location is written as its own path.** -/
theorem toText_text : (Path.ofText l.text).toText = l.text := by
  rw [ofText_text proper]
  exact if_neg fun h => Anchor.noConfusion h.1

end

/-! ## One name -/

theorem Name.stay_or_up_or_plain (name : Name) : (name = [] ∨ name = [0x2E]) ∨ name = [0x2E, 0x2E] ∨ name.Plain := by
  by_cases hstay : name = [] ∨ name = [0x2E]
  · exact .inl hstay
  · by_cases hup : name = [0x2E, 0x2E]
    · exact .inr (.inl hup)
    · exact .inr (.inr ⟨fun h => hstay (.inl h), fun h => hstay (.inr h), hup⟩)

namespace Disk

section
variable {d : Disk} (follow : Bool) {cur : Location} {name : Name} (rest : List Name)

/-- In a directory that may not be entered no name can be looked up. -/
theorem along_barred (barred : d.bars cur = true) : ∀ {names : List Name}, names.all (· = []) = false →
    d.along follow cur names = .refused .denied
  | [], given => by cases given
  | name :: names, given => by
    rw [along]
    by_cases hempty : name = []
    · rw [if_pos hempty]
      rw [List.all_cons, decide_eq_true hempty, Bool.true_and] at given
      exact along_barred barred given
    · rw [if_neg hempty, if_pos barred]

theorem along_empty : d.along follow cur ([] :: rest) = d.along follow cur rest := by
  rw [along, if_pos rfl]

theorem entered_of_along (some : name ≠ []) (h : d.along follow cur (name :: rest) ≠ .refused .denied) :
    d.bars cur = false := by
  by_contra hbar
  refine h (along_barred follow (Bool.not_eq_false _ ▸ hbar) ?_)
  rw [List.all_cons, decide_eq_false some, Bool.false_and]

variable (entered : d.bars cur = false)
include entered

theorem along_stay (h : name = [] ∨ name = [0x2E]) : d.along follow cur (name :: rest) = d.along follow cur rest := by
  rw [along]
  rcases h with hempty | rfl
  · rw [if_pos hempty]
  · rw [if_neg (by decide), if_neg (Bool.eq_false_iff.1 entered), if_pos rfl]

theorem along_up : d.along follow cur ([0x2E, 0x2E] :: rest) = d.along follow cur.dropLast rest := by
  rw [along, if_neg (by decide), if_neg (Bool.eq_false_iff.1 entered), if_neg (by decide), if_pos rfl]

theorem along_plain (plain : name.Plain) : d.along follow cur (name :: rest) =
    if nameLimit < name.length then .refused .nameTooLong
    else
      match d.entry? (cur ++ [name]) with
      | none =>
        if rest.all (· = []) then .done (.missing (cur ++ [name]) (endingOf rest)) else .refused .notFound
      | some .directory =>
        if rest.all (· = []) then .done (.found (cur ++ [name]) .directory (endingOf rest))
        else d.along follow (cur ++ [name]) rest
      | some (.file content) =>
        if rest.all (· = []) then .done (.found (cur ++ [name]) (.file content) (endingOf rest))
        else .refused .notDirectory
      | some (.link target) =>
        if rest = [] && !follow then .done (.found (cur ++ [name]) (.link target) .name)
        else .link cur target rest := by
  rw [along, if_neg plain.some, if_neg (Bool.eq_false_iff.1 entered)]
  exact (if_neg plain.noDot).trans (if_neg plain.noDots)

end

/-! ## Down to a directory -/

theorem all_empty_of_proper {names : List Name} {name : Name} (hname : name ∈ names) (proper : name.Proper) :
    names.all (· = []) = false := by
  rw [List.all_eq_false]
  exact ⟨name, hname, by simpa using proper.some⟩

variable {d : Disk}

theorem bars_below {l : Location} (h : d.bars l = true) (more : List Name) : d.bars (l ++ more) = true := by
  obtain ⟨shut, hshut, hprefix⟩ := List.any_eq_true.1 h
  refine List.any_eq_true.2 ⟨shut, hshut, List.isPrefixOf_iff_prefix.2 ?_⟩
  exact (List.isPrefixOf_iff_prefix.1 hprefix).trans (List.prefix_append l more)

/-- **A directory is where its names lead**, and what comes after them is looked up in it. -/
theorem along_down (tree : d.IsTree) (follow : Bool) {names : List Name} (more : names.all (· = []) = false) :
    ∀ (down : List Name) {cur : Location}, d.entry? (cur ++ down) = some .directory →
      d.along follow cur (down ++ names) = d.along follow (cur ++ down) names
  | [], cur, _ => by rw [List.nil_append, List.append_nil]
  | name :: down, cur, h => by
    have hassoc : cur ++ name :: down = cur ++ [name] ++ down := by simp
    have hmore : (down ++ names).all (· = []) = false := by simp [more]
    by_cases hbar : d.bars cur = true
    · -- a directory below one that may not be entered may not be entered either
      rw [along_barred follow hbar (by rw [List.cons_append, List.all_cons, hmore, Bool.and_false]),
        along_barred follow (bars_below hbar _) more]
    have hproper : name.Proper := tree.proper h name (by simp)
    have hinner : d.entry? (cur ++ [name]) = some .directory := tree.above down (hassoc ▸ h)
    rw [List.cons_append, along_plain follow _ (Bool.eq_false_iff.2 hbar) hproper.toPlain,
      if_neg (Nat.not_lt.2 hproper.fits)]
    simp only [hinner, hmore, Bool.false_eq_true, if_false]
    rw [along_down tree follow more down (hassoc ▸ h), hassoc]

theorem walkFrom_of_along {follow : Bool} {cur cur' : Location} {names names' : List Name}
    (h : d.along follow cur names = d.along follow cur' names') (links : Nat) :
    d.walkFrom follow links cur names = d.walkFrom follow links cur' names' := by
  unfold walkFrom
  rw [h]

/-- **A name in a directory is written with the path of the directory**: unless that is too long, the path leads where the
name leads. -/
theorem walk_text (tree : d.IsTree) (follow : Bool) {dir : Location} {name : Name} (proper : name.Proper)
    (there : d.entry? dir = some .directory) : d.walk follow (Location.text (dir ++ [name])) =
      if pathLimit ≤ (Location.text (dir ++ [name])).toBytes.length then
        .error (.refused { refusal := .nameTooLong, path := Location.text (dir ++ [name]) })
      else
        match d.walkFrom follow linkLimit dir [name] with
        | .ok place => .ok place
        | .error refusal => .error (.refused { refusal, path := Location.text (dir ++ [name]) }) := by
  have hproper : ∀ part ∈ dir ++ [name], part.Proper :=
    List.forall_mem_append.2 ⟨tree.proper there, List.forall_mem_singleton.2 proper⟩
  have hnull : (Location.text (dir ++ [name])).toBytes.contains 0 = false := by simpa using noNull_text hproper
  have hroot : startsAtRoot (Location.text (dir ++ [name])).toBytes = true := rfl
  have halong : d.along follow [] ([] :: (dir ++ [name])) = d.along follow dir [name] := by
    rw [along, if_pos rfl]
    exact along_down tree follow (all_empty_of_proper (List.mem_singleton_self name) proper) dir there
  unfold walk
  simp only [hnull, hroot, namesOf_text hproper (by simp), walkFrom_of_along halong, Bool.false_eq_true, if_false, if_true]
  rfl

/-- **The text of a directory leads to it**, unless it is too long or a directory on the way may not be entered. -/
theorem locate_text (tree : d.IsTree) {l : Location} (there : d.entry? l = some .directory) :
    d.locate l.text = .ok (l, .directory) ∨
      ∃ refusal, refusal ≠ .tooManyLinks ∧ d.locate l.text = .error (.refused { refusal, path := l.text }) := by
  rcases List.eq_nil_or_concat l with rfl | ⟨outer, name, rfl⟩
  · exact .inl rfl
  rw [List.concat_eq_append] at there ⊢
  obtain ⟨houter, hproper⟩ := tree.inside there
  have hwalk := walk_text tree true hproper houter
  by_cases hlong : pathLimit ≤ (Location.text (outer ++ [name])).toBytes.length
  · refine .inr ⟨.nameTooLong, by decide, ?_⟩
    unfold locate
    rw [hwalk, if_pos hlong]
  rw [if_neg hlong] at hwalk
  by_cases hbar : d.bars outer = true
  · have hhere : d.walkFrom true linkLimit outer [name] = .error .denied := by
      rw [walkFrom, along_barred true hbar (all_empty_of_proper (List.mem_singleton_self name) hproper)]
    refine .inr ⟨.denied, by decide, ?_⟩
    unfold locate
    rw [hwalk, hhere]
  · have hhere : d.walkFrom true linkLimit outer [name] = .ok (.found (outer ++ [name]) .directory .name) := by
      rw [walkFrom, along_plain true [] (Bool.eq_false_iff.2 hbar) hproper.toPlain, if_neg (Nat.not_lt.2 hproper.fits),
        there]
      rfl
    refine .inl ?_
    unfold locate
    rw [hwalk, hhere]

end Disk
end ScriptDriver.File
