import Mathlib.Data.List.Infix
import Mathlib.Logic.Function.Iterate
import ScriptDriver.Proofs.File.Canonical
import ScriptDriver.Proofs.File.Elsewhere
import ScriptDriver.Toolchain.Load
/-!
# Discovery — the nearest configuration file

A search looks into the directory that its start is resolved to, and then into the directories around it up to the root.
It ends with the file in the nearest of them that has one, a link to a file being as good as a file.  Files elsewhere do
not matter unless such a link leads to them (`discover_nearest`, `discover_byLinks`).
-/
namespace ScriptDriver.Toolchain

open File (Path Disk Location Name Place Refusal linkLimit pathLimit)

/-! ## The search -/

/-- How far a search has come. -/
inductive Search where
  | looking (dir : Location)
  | ended (r : Except File.Fault (Option Path))

/-- **One round of a search**: the file is looked for in a directory, and then it is the turn of the one around it.  Only
the root has none. -/
def Search.step (d : Disk) : Search → Search
  | .ended r => .ended r
  | .looking dir =>
    match d.isFile (fileIn dir).toText with
    | .error e => .ended (.error e)
    | .ok true => .ended (.ok (some (fileIn dir)))
    | .ok false => if dir.dropLast = dir then .ended (.ok none) else .looking dir.dropLast

/-- Where the name of configuration files leads in a directory, links followed. -/
def lookup (d : Disk) (dir : Location) : Except Refusal Place := d.walkFrom true linkLimit dir [fileName.toBytes]

/-- **A directory has a configuration file**: one of its own, or a link to one. -/
def HasFile (d : Disk) (dir : Location) : Prop := ∃ l content, lookup d dir = .ok (.found l (.file content) .name)

/-- **A directory stops a search**: the path of its configuration file is too long, or looking it up is refused with more
than that nothing is there. -/
def Stops (d : Disk) (dir : Location) : Prop :=
  pathLimit ≤ (fileIn dir).toText.toBytes.length ∨
    ∃ refusal, lookup d dir = .error refusal ∧ refusal.saysNothing = false

instance (d : Disk) (dir : Location) : Decidable (Stops d dir) :=
  match h : lookup d dir with
  | .error refusal => decidable_of_iff (pathLimit ≤ (fileIn dir).toText.toBytes.length ∨ refusal.saysNothing = false)
      (or_congr_right ⟨fun hquiet => ⟨refusal, h, hquiet⟩,
        fun ⟨_, h', hquiet⟩ => Except.error.inj (h.symm.trans h') ▸ hquiet⟩)
  | .ok _ => decidable_of_iff (pathLimit ≤ (fileIn dir).toText.toBytes.length)
      ⟨.inl, fun hstops => hstops.resolve_right fun ⟨_, h', _⟩ => by simp [h] at h'⟩

/-- **What decides whether a directory has a configuration file**, if it is no link: a file does, a directory of that name
is passed over. -/
structure Decided (d : Disk) (dir : Location) : Prop where
  file : ∀ content, d.entry? (dir ++ [fileName.toBytes]) = some (.file content) → HasFile d dir
  directory : d.entry? (dir ++ [fileName.toBytes]) = some .directory → ¬ HasFile d dir
  nothing : d.entry? (dir ++ [fileName.toBytes]) = none → ¬ HasFile d dir

/-- **A directory in which a search from `l` looks**: none of those nearer to `l` has a configuration file. -/
structure Searched (d : Disk) (l dir : Location) : Prop where
  above : dir <+: l
  nearer : ∀ inner, inner <+: l → dir <+: inner → inner ≠ dir → ¬ HasFile d inner

/-- **The nearest directory with a configuration file.** -/
structure Nearest (d : Disk) (l dir : Location) : Prop extends Searched d l dir where
  file : HasFile d dir

/-- **What is found from `l`.** -/
structure Discovered (d : Disk) (l : Location) (r : Except File.Fault (Option Path)) : Prop where
  answered : ∃ found, r = .ok found
  found : ∀ path, r = .ok (some path) ↔ ∃ dir, Nearest d l dir ∧ path = fileIn dir
  nothing : r = .ok none ↔ ∀ dir, dir <+: l → ¬ HasFile d dir

/-- **Files come and go elsewhere**: nothing in the directories in which a search from `l` looks leads to them. -/
structure ChangesElsewhere (d d' : Disk) (l : Location) : Prop extends d.FilesChange d' where
  apart : ∀ dir place, Searched d l dir → lookup d dir = .ok place → d'.entry? place.location = d.entry? place.location

/-- **A search that starts from `l`**: the start leads there, or the working directory is there. -/
def StartsIn (d : Disk) (l : Location) : Option Path → Prop
  | some start => d.LeadsInto start.toText l
  | none => l = d.here

/-! ## The directories of a search -/

theorem ancestry_concat (l : Location) (name : Name) : ancestry (l ++ [name]) = (l ++ [name]) :: ancestry l := by
  unfold ancestry
  rw [List.length_append, List.length_singleton, List.range_succ_eq_map, List.map_cons, List.map_map]
  refine congrArg₂ _ (List.take_of_length_le (by simp)) (List.map_congr_left fun i _ => ?_)
  show (l ++ [name]).take (l.length + 1 - (i + 1)) = l.take (l.length - i)
  rw [Nat.add_sub_add_right, List.take_append_of_le_length (Nat.sub_le _ _)]

theorem step_looking (d : Disk) (dir : Location) : Search.step d (.looking dir) =
    match d.isFile (fileIn dir).toText with
    | .error e => .ended (.error e)
    | .ok true => .ended (.ok (some (fileIn dir)))
    | .ok false => if dir.dropLast = dir then .ended (.ok none) else .looking dir.dropLast := rfl

/-- **A search ends within as many rounds as there are directories**, with what `nearest` says. -/
theorem step_ends (d : Disk) (l : Location) :
    (Search.step d)^[l.length + 1] (.looking l) = .ended (nearest d (ancestry l)) := by
  induction l using List.reverseRecOn with
  | nil =>
    show Search.step d (.looking []) = .ended (nearest d [[]])
    rw [step_looking, nearest]
    rcases d.isFile (fileIn []).toText with e | _ | _ <;> rfl
  | append_singleton l name ih =>
    have hended : ∀ n r, (Search.step d)^[n] (.ended r) = .ended r := fun n r => Function.iterate_fixed rfl n
    have hinner : l ≠ l ++ [name] := fun h => by simpa using congrArg List.length h
    rw [ancestry_concat, List.length_append, List.length_singleton, Function.iterate_succ_apply, step_looking,
      List.dropLast_concat, if_neg hinner, nearest]
    rcases d.isFile (fileIn (l ++ [name])).toText with e | _ | _
    · exact hended _ _
    · exact ih
    · exact hended _ _

/-! ## Looking into one directory -/

theorem fileName_proper : Name.Proper fileName.toBytes :=
  ⟨⟨by decide, by decide, by decide⟩, by decide, by decide, by decide⟩

/-- In a directory that may not be entered no name is found. -/
theorem stops_of_bars {d : Disk} {dir : Location} (barred : d.bars dir = true) : Stops d dir := by
  refine .inr ⟨.denied, ?_, rfl⟩
  rw [lookup, Disk.walkFrom, Disk.along_barred true barred rfl]

/-- Without a link the name leads to its own place. -/
theorem lookup_of_noLink {d : Disk} {dir : Location} (goesOn : ¬ Stops d dir)
    (noLink : ∀ target, d.entry? (dir ++ [fileName.toBytes]) ≠ some (.link target)) :
    lookup d dir = .ok (d.placeAt (dir ++ [fileName.toBytes])) := by
  have entered : d.bars dir = false := Bool.eq_false_iff.2 (mt stops_of_bars goesOn)
  unfold lookup Disk.walkFrom Disk.placeAt
  rw [Disk.along_plain true [] entered fileName_proper.toPlain, if_neg (Nat.not_lt.2 fileName_proper.fits)]
  rcases hentry : d.entry? (dir ++ [fileName.toBytes]) with _ | _ | _ | target
  case some.link => exact absurd hentry (noLink target)
  all_goals rfl

theorem decided {d : Disk} {dir : Location} (goesOn : ¬ Stops d dir) : Decided d dir := by
  constructor
  case file =>
    intro content hfile
    refine ⟨dir ++ [fileName.toBytes], content, ?_⟩
    rw [lookup_of_noLink goesOn (by simp [hfile]), Disk.placeAt, hfile]
  case directory =>
    rintro hdirectory ⟨l, content, hlookup⟩
    rw [lookup_of_noLink goesOn (by simp [hdirectory]), Disk.placeAt, hdirectory] at hlookup
    cases hlookup
  case nothing =>
    rintro hnone ⟨l, content, hlookup⟩
    rw [lookup_of_noLink goesOn (by simp [hnone]), Disk.placeAt, hnone] at hlookup
    cases hlookup

section
variable {d : Disk} (tree : d.IsTree)
include tree

theorem fileIn_toText {dir : Location} (there : d.entry? dir = some .directory) :
    (fileIn dir).toText = Location.text (dir ++ [fileName.toBytes]) := by
  have hproper : ∀ part ∈ dir ++ [fileName.toBytes], part.Proper :=
    List.forall_mem_append.2 ⟨tree.proper there, List.forall_mem_singleton.2 fileName_proper⟩
  have hjoined : fileIn dir = Path.ofText (Location.text (dir ++ [fileName.toBytes])) := by
    rw [fileIn, File.ofText_text (tree.proper there), File.ofText_text hproper, List.map_append]
    rfl
  rw [hjoined, File.toText_text hproper]

/-- **What looking into a directory comes to.** -/
theorem isFile_cases {dir : Location} (there : d.entry? dir = some .directory) :
    (Stops d dir ∧ ∃ e, d.isFile (fileIn dir).toText = .error e) ∨
    (¬ Stops d dir ∧ HasFile d dir ∧ d.isFile (fileIn dir).toText = .ok true) ∨
    (¬ Stops d dir ∧ ¬ HasFile d dir ∧ d.isFile (fileIn dir).toText = .ok false) := by
  have hwalk := Disk.walk_text tree true fileName_proper there
  rw [← fileIn_toText tree there] at hwalk
  by_cases hlong : pathLimit ≤ (fileIn dir).toText.toBytes.length
  · rw [if_pos hlong] at hwalk
    have hrefused : d.isFile (fileIn dir).toText =
        .error (.refused { refusal := .nameTooLong, path := (fileIn dir).toText }) := by
      simp only [Disk.isFile, Disk.test, Disk.locate, hwalk]
      rfl
    exact .inl ⟨.inl hlong, _, hrefused⟩
  rw [if_neg hlong] at hwalk
  have hlookup : d.walkFrom true linkLimit dir [fileName.toBytes] = lookup d dir := rfl
  unfold Disk.isFile Disk.test Disk.locate Stops HasFile
  rw [hwalk, hlookup]
  rcases lookup d dir with refusal | ⟨place, e, ending⟩ | ⟨place, ending⟩
  case error =>
    cases hquiet : refusal.saysNothing with
    | false => exact .inl ⟨.inr ⟨refusal, rfl, hquiet⟩, _, by dsimp only; rw [hquiet]; rfl⟩
    | true => exact .inr (.inr ⟨not_or.2 ⟨hlong, by simp [hquiet]⟩, by simp, by dsimp only; rw [hquiet]; rfl⟩)
  case ok.missing => exact .inr (.inr ⟨not_or.2 ⟨hlong, by simp⟩, by simp, rfl⟩)
  case ok.found =>
    rcases e with content | _ | target
    case file =>
      cases ending with
      | name => exact .inr (.inl ⟨not_or.2 ⟨hlong, by simp⟩, ⟨_, _, rfl⟩, rfl⟩)
      | separator | noName => exact .inr (.inr ⟨not_or.2 ⟨hlong, by simp⟩, by simp, rfl⟩)
    case directory | link => exact .inr (.inr ⟨not_or.2 ⟨hlong, by simp⟩, by simp, rfl⟩)

end

/-! ## The nearest file -/

section
variable {d : Disk} {l dir : Location} {name : Name}

theorem Searched.self (d : Disk) (l : Location) : Searched d l l :=
  ⟨List.prefix_rfl, fun _ h h' hne => absurd (h.eq_of_length_le h'.length_le) hne⟩

/-- A search goes on outwards from a directory without a file. -/
theorem Searched.outward (none : ¬ HasFile d (l ++ [name])) (h : Searched d l dir) : Searched d (l ++ [name]) dir := by
  refine ⟨h.above.trans (List.prefix_append _ _), fun inner hinner hdir hne => ?_⟩
  rcases List.prefix_concat_iff.1 hinner with rfl | hinner
  · exact none
  · exact h.nearer inner hinner hdir hne

/-- A search that goes on outwards looks where it would look from there. -/
theorem Searched.inward (h : Searched d (l ++ [name]) dir) (above : dir <+: l) : Searched d l dir :=
  ⟨above, fun inner hinner hdir hne => h.nearer inner (hinner.trans (List.prefix_append _ _)) hdir hne⟩

/-- A search from a directory with a file looks nowhere else. -/
theorem Searched.eq_of_hasFile (file : HasFile d l) (h : Searched d l dir) : dir = l := by
  by_contra hne
  exact h.nearer l List.prefix_rfl h.above (Ne.symm hne) file

/-- **There is one nearest directory at most.** -/
theorem Nearest.unique {dir' : Location} (h : Nearest d l dir) (h' : Nearest d l dir') : dir = dir' := by
  by_contra hne
  rcases List.prefix_or_prefix_of_prefix h.above h'.above with hprefix | hprefix
  · exact h.nearer dir' h'.above hprefix (Ne.symm hne) h'.file
  · exact h'.nearer dir h.above hprefix hne h.file

/-- **What a search comes to**: it is stopped, or it meets the nearest file, or nothing. -/
theorem nearest_cases (tree : d.IsTree) (there : d.entry? l = some .directory) :
    ((∃ dir, Searched d l dir ∧ Stops d dir) ∧ ∃ e, nearest d (ancestry l) = .error e) ∨
    (∃ dir, Nearest d l dir ∧ (∀ inner, Searched d l inner → ¬ Stops d inner) ∧
      nearest d (ancestry l) = .ok (some (fileIn dir))) ∨
    ((∀ dir, dir <+: l → ¬ HasFile d dir ∧ ¬ Stops d dir) ∧ nearest d (ancestry l) = .ok none) := by
  induction l using List.reverseRecOn with
  | nil =>
    show (_ ∧ ∃ e, nearest d [[]] = _) ∨ (∃ dir, _ ∧ _ ∧ nearest d [[]] = _) ∨ _ ∧ nearest d [[]] = _
    rw [nearest]
    rcases isFile_cases tree there with ⟨hstops, e, hlook⟩ | ⟨hgoes, hfile, hlook⟩ | ⟨hgoes, hnone, hlook⟩
    · exact .inl ⟨⟨[], .self d [], hstops⟩, e, by rw [hlook]⟩
    · refine .inr (.inl ⟨[], ⟨.self d [], hfile⟩, fun inner hinner => ?_, by rw [hlook]⟩)
      rwa [List.prefix_nil.1 hinner.above]
    · refine .inr (.inr ⟨fun dir hdir => ?_, by rw [hlook]; rfl⟩)
      rw [List.prefix_nil.1 hdir]
      exact ⟨hnone, hgoes⟩
  | append_singleton l name ih =>
    rw [ancestry_concat, nearest]
    rcases isFile_cases tree there with ⟨hstops, e, hlook⟩ | ⟨hgoes, hfile, hlook⟩ | ⟨hgoes, hnone, hlook⟩
    · exact .inl ⟨⟨_, .self d _, hstops⟩, e, by rw [hlook]⟩
    · refine .inr (.inl ⟨_, ⟨.self d _, hfile⟩, fun inner hinner => ?_, by rw [hlook]⟩)
      rwa [Searched.eq_of_hasFile hfile hinner]
    · rw [hlook]
      rcases ih (tree.inside there).1 with ⟨⟨dir, hdir, hstops⟩, hfound⟩ | ⟨dir, hdir, hfree, hfound⟩ | ⟨hnothing, hfound⟩
      · exact .inl ⟨⟨dir, hdir.outward hnone, hstops⟩, hfound⟩
      · refine .inr (.inl ⟨dir, ⟨hdir.toSearched.outward hnone, hdir.file⟩, fun inner hinner => ?_, hfound⟩)
        rcases List.prefix_concat_iff.1 hinner.above with rfl | habove
        · exact hgoes
        · exact hfree inner (hinner.inward habove)
      · refine .inr (.inr ⟨fun dir hdir => ?_, hfound⟩)
        rcases List.prefix_concat_iff.1 hdir with rfl | hdir
        · exact ⟨hnone, hgoes⟩
        · exact hnothing dir hdir

/-- **A search is stopped** by a directory in which it looks, and by nothing else. -/
theorem nearest_stopped_iff (tree : d.IsTree) (there : d.entry? l = some .directory) :
    (∃ e, nearest d (ancestry l) = .error e) ↔ ∃ dir, Searched d l dir ∧ Stops d dir := by
  rcases nearest_cases tree there with ⟨hstops, hended⟩ | ⟨dir, -, hfree, hfound⟩ | ⟨hnothing, hfound⟩
  · exact ⟨fun _ => hstops, fun _ => hended⟩
  · rw [hfound]
    exact ⟨nofun, fun ⟨inner, hinner, hstops⟩ => absurd hstops (hfree inner hinner)⟩
  · rw [hfound]
    exact ⟨nofun, fun ⟨inner, hinner, hstops⟩ => absurd hstops (hnothing inner hinner.above).2⟩

/-- **A search finds the nearest file**, if it is not stopped. -/
theorem nearest_discovered (tree : d.IsTree) (there : d.entry? l = some .directory)
    (goesOn : ∀ dir, Searched d l dir → ¬ Stops d dir) : Discovered d l (nearest d (ancestry l)) := by
  rcases nearest_cases tree there with ⟨⟨dir, hdir, hstops⟩, -⟩ | ⟨dir, hdir, -, hfound⟩ | ⟨hnothing, hfound⟩
  · exact absurd hstops (goesOn dir hdir)
  · rw [hfound]
    constructor
    case answered => exact ⟨_, rfl⟩
    case found =>
      intro path
      constructor
      · intro h
        exact ⟨dir, hdir, (Option.some.inj (Except.ok.inj h)).symm⟩
      · rintro ⟨dir', hdir', rfl⟩
        rw [hdir.unique hdir']
    case nothing => exact ⟨nofun, fun h => absurd hdir.file (h dir hdir.above)⟩
  · rw [hfound]
    constructor
    case answered => exact ⟨_, rfl⟩
    case found => exact fun path => ⟨nofun, fun ⟨dir, hdir, _⟩ => absurd hdir.file (hnothing dir hdir.above).1⟩
    case nothing => exact ⟨fun _ dir hdir => (hnothing dir hdir).1, fun _ => rfl⟩

/-! ## Files elsewhere -/

theorem isFile_of_lost {d : Disk} {path : Text} {e : File.Refused} (h : d.walk true path = .error (.refused e))
    (lost : e.refusal.Lost) : d.isFile path = .ok false := by
  have hquiet : e.refusal.saysNothing = true := by
    rcases lost with hlost | hlost <;> rw [hlost] <;> rfl
  unfold Disk.isFile Disk.test Disk.locate
  rw [h]
  exact if_pos hquiet

/-- **Without links in the directories of a search**, elsewhere is wherever it does not look. -/
theorem changesElsewhere_of_noLinks {d' : Disk} (change : d.FilesChange d')
    (goesOn : ∀ dir, Searched d l dir → ¬ Stops d dir)
    (noLinks : ∀ dir, Searched d l dir → ∀ target, d.entry? (dir ++ [fileName.toBytes]) ≠ some (.link target))
    (outside : ∀ dir, Searched d l dir → d'.entry? (dir ++ [fileName.toBytes]) = d.entry? (dir ++ [fileName.toBytes])) :
    ChangesElsewhere d d' l := by
  refine ⟨change, fun dir place searched hlookup => ?_⟩
  rw [lookup_of_noLink (goesOn dir searched) (noLinks dir searched)] at hlookup
  obtain rfl := Except.ok.inj hlookup
  have hplace : (d.placeAt (dir ++ [fileName.toBytes])).location = dir ++ [fileName.toBytes] := by
    unfold Disk.placeAt
    split <;> rfl
  rw [hplace]
  exact outside dir searched

/-- Files that come and go elsewhere do not matter where a search looks. -/
theorem isFile_elsewhere {d' : Disk} (tree : d.IsTree) (tree' : d'.IsTree) (change : ChangesElsewhere d d' l)
    (searched : Searched d l dir) (there : d.entry? dir = some .directory) :
    d'.isFile (fileIn dir).toText = d.isFile (fileIn dir).toText := by
  have hwalk := Disk.walk_text tree true fileName_proper there
  have hwalk' := Disk.walk_text tree' true fileName_proper (change.kept there nofun)
  rw [← fileIn_toText tree there] at hwalk hwalk'
  have same : d'.walk true (fileIn dir).toText = d.walk true (fileIn dir).toText →
      d'.isFile (fileIn dir).toText = d.isFile (fileIn dir).toText := by
    intro h
    unfold Disk.isFile Disk.test Disk.locate
    rw [h]
  by_cases hlong : pathLimit ≤ (fileIn dir).toText.toBytes.length
  · exact same (by rw [hwalk, hwalk', if_pos hlong, if_pos hlong])
  rw [if_neg hlong] at hwalk hwalk'
  have helsewhere := change.walkFrom_elsewhere true linkLimit dir [fileName.toBytes]
  have hapart : ∀ place, d.walkFrom true linkLimit dir [fileName.toBytes] = .ok place →
      d'.entry? place.location = d.entry? place.location := fun place => change.apart dir place searched
  generalize d.walkFrom true linkLimit dir [fileName.toBytes] = r at hwalk helsewhere hapart
  generalize d'.walkFrom true linkLimit dir [fileName.toBytes] = r' at hwalk' helsewhere
  cases helsewhere with
  | same => exact same (hwalk'.trans hwalk.symm)
  | lost hlost hlost' => rw [isFile_of_lost hwalk hlost, isFile_of_lost hwalk' hlost']
  | changed _ hchanged => exact absurd (hapart _ rfl) hchanged

/-- **Files that come and go elsewhere do not matter.** -/
theorem nearest_elsewhere {d' : Disk} (tree : d.IsTree) (tree' : d'.IsTree) (there : d.entry? l = some .directory)
    (change : ChangesElsewhere d d' l) : nearest d' (ancestry l) = nearest d (ancestry l) := by
  induction l using List.reverseRecOn with
  | nil =>
    show nearest d' [[]] = nearest d [[]]
    rw [nearest, nearest, isFile_elsewhere tree tree' change (.self d []) there]
    rfl
  | append_singleton l name ih =>
    rw [ancestry_concat, nearest, nearest, isFile_elsewhere tree tree' change (.self d _) there]
    rcases isFile_cases tree there with ⟨-, e, hlook⟩ | ⟨-, -, hlook⟩ | ⟨-, hnone, hlook⟩ <;> rw [hlook]
    exact ih (tree.inside there).1 ⟨change.toFilesChange, fun dir place hdir => change.apart dir place (hdir.outward hnone)⟩

end

/-! ## The search from a start -/

section
variable {d : Disk} {start : Option Path} {l : Location}

/-- **A start is resolved to the directory that it leads to**, and the working directory to itself. -/
theorem StartsIn.leads (tree : d.IsTree) (h : StartsIn d l start) :
    d.LeadsInto (start.getD d.workingDirectory).toText l := by
  cases start with
  | some start => exact h
  | none =>
    obtain rfl : l = d.here := h
    have htext : d.workingDirectory.toText = d.here.text := File.toText_text (tree.proper tree.here)
    rw [Option.getD_none, htext]
    exact Disk.leadsInto_text tree tree.here

theorem StartsIn.elsewhere {d' : Disk} (change : d.FilesChange d') (h : StartsIn d l start) :
    StartsIn d' l start := by
  cases start with
  | some start => exact change.leadsInto h
  | none => exact (show l = d.here from h).trans change.here.symm

theorem discover_eq {named : Option Text} (unnamed : named.getD [] = [])
    (resolved : d.resolve (start.getD d.workingDirectory) = .ok l) : discover d named start = nearest d (ancestry l) := by
  unfold discover
  simp only [unnamed, resolved, ne_eq, not_true_eq_false, if_false]

/-- **The configuration file that is found when none is named.**  The search ends, within a round for each directory from
the start to the root.  It fails exactly if one of the directories in which it looks stops it; otherwise it ends with the
file in the nearest of them that has one, or with nothing if none has.  Files that come and go where nothing leads to from
the directories on the way do not change what is found. -/
theorem discover_nearest (tree : d.IsTree) {named : Option Text} (unnamed : named.getD [] = [])
    (starts : StartsIn d l start) :
    d.resolve (start.getD d.workingDirectory) = .ok l ∧
    (Search.step d)^[l.length + 1] (.looking l) = .ended (discover d named start) ∧
    ((∃ e, discover d named start = .error e) ↔ ∃ dir, Searched d l dir ∧ Stops d dir) ∧
    ((∀ dir, Searched d l dir → ¬ Stops d dir) → Discovered d l (discover d named start)) ∧
    (∀ dir, ¬ Stops d dir → Decided d dir) ∧
    ∀ d', d'.IsTree → ChangesElsewhere d d' l → discover d' named start = discover d named start := by
  have there := (starts.leads tree).directory tree
  have resolved := Disk.resolve_eq tree (starts.leads tree)
  rw [discover_eq unnamed resolved]
  refine ⟨resolved, step_ends d l, nearest_stopped_iff tree there, nearest_discovered tree there, fun _ => decided,
    fun d' tree' change => ?_⟩
  rw [← nearest_elsewhere tree tree' there change]
  exact discover_eq unnamed (Disk.resolve_eq tree' ((starts.elsewhere change.toFilesChange).leads tree'))

/-- The only directories in which a search looks are those from its start to the root. -/
theorem goesOn_of_inits (h : ∀ dir ∈ l.inits, ¬ Stops d dir) : ∀ dir, Searched d l dir → ¬ Stops d dir :=
  fun dir searched => h dir ((List.mem_inits _ _).2 searched.above)

end

/-! ## Two projects -/

/-- A directory in a project. -/
def innerDir : Location := [("proj" : Text).toBytes, ("lib" : Text).toBytes]

def innerStart : Path := Path.ofText "/proj/lib"

/-- A project with a configuration file, and with an entry of that name in a directory of it. -/
def projectAround (inner : File.Entry) : Disk where
  entries := [([("proj" : Text).toBytes], .directory), ([("proj" : Text).toBytes, fileName.toBytes], .file []),
    (innerDir, .directory), (innerDir ++ [fileName.toBytes], inner), ([("other" : Text).toBytes], .directory)]
  here := []

theorem startsIn_innerDir (inner : File.Entry) : StartsIn (projectAround inner) innerDir (some innerStart) :=
  have hwalk : (projectAround inner).walkFrom true 0 [] (File.namesOf innerStart.toText.toBytes) =
    .ok (.found innerDir .directory .name) := by rfl
  .of_walkFrom (by decide +kernel) hwalk

theorem discover_nearest_directory :
    ((projectAround .directory).IsTree ∧ (none : Option Text).getD [] = [] ∧
      StartsIn (projectAround .directory) innerDir (some innerStart) ∧
      ∀ dir, Searched (projectAround .directory) innerDir dir → ¬ Stops (projectAround .directory) dir) ∧
    (projectAround .directory).resolve innerStart = .ok innerDir ∧
    (Search.step (projectAround .directory))^[3] (.looking innerDir) =
      .ended (discover (projectAround .directory) none (some innerStart)) ∧
    Discovered (projectAround .directory) innerDir (discover (projectAround .directory) none (some innerStart)) ∧
    (∀ dir, ¬ Stops (projectAround .directory) dir → Decided (projectAround .directory) dir) ∧
    ∀ d', d'.IsTree → ChangesElsewhere (projectAround .directory) d' innerDir →
      discover d' none (some innerStart) = discover (projectAround .directory) none (some innerStart) := by
  have tree : (projectAround .directory).IsTree := Disk.isTree_of_entries (by decide +kernel) (by rfl)
  have starts := startsIn_innerDir .directory
  have goesOn : ∀ dir, Searched (projectAround .directory) innerDir dir → ¬ Stops (projectAround .directory) dir :=
    goesOn_of_inits (by decide +kernel)
  obtain ⟨resolved, ends, -, discovered, further⟩ :=
    discover_nearest tree (rfl : (none : Option Text).getD [] = []) starts
  exact ⟨⟨tree, rfl, starts, goesOn⟩, resolved, ends, discovered goesOn, further⟩

/-- The directory of that name is passed over. -/
example : discover (projectAround .directory) none (some innerStart) = .ok (some (Path.ofText "/proj/rscc.toml")) := by rfl

/-- A link that leads from the inner directory to a file that is not there. -/
def outwardLink : File.Entry := .link ("../../other/rscc.toml" : Text).toBytes

/-- The place of that file: it lies in no directory in which the search looks. -/
def otherPlace : Location := [("other" : Text).toBytes, fileName.toBytes]

/-- A link to a name that no file can have. -/
def overlongLink : File.Entry := .link (List.replicate 256 0x78)

/-- A project with two configuration files, the inner one in a directory that may not be entered. -/
def closedProject : Disk :=
  { projectAround (.file []) with terms := { shut := [innerDir] } }

/-- **What is found is not decided by the directories on the way alone**: a file that is made elsewhere matters if a link
leads to it.  And nothing is found where a link leads to a name that is too long, or from a directory that may not be
entered. -/
theorem discover_byLinks :
    (¬ ∀ (d d' : Disk) (start : Path) (l : Location), d.IsTree → d'.IsTree → d.LeadsInto start.toText l → d.FilesChange d' →
      (∀ k, d'.entry? k ≠ d.entry? k → ∃ dir, k = dir ++ [fileName.toBytes] ∧ ¬ dir <+: l) →
        discover d' none (some start) = discover d none (some start)) ∧
    ((projectAround overlongLink).IsTree ∧ (projectAround overlongLink).LeadsInto innerStart.toText innerDir ∧
      HasFile (projectAround overlongLink) [("proj" : Text).toBytes] ∧
      discover (projectAround overlongLink) none (some innerStart) = .error (.refused
        { refusal := .nameTooLong, path := "/proj/lib/rscc.toml" })) ∧
    closedProject.IsTree ∧ closedProject.LeadsInto innerStart.toText innerDir ∧
      closedProject.entry? (innerDir ++ [fileName.toBytes]) = some (.file []) ∧
      HasFile closedProject [("proj" : Text).toBytes] ∧
      discover closedProject none (some innerStart) = .error (.refused
        { refusal := .denied, path := "/proj/lib/rscc.toml" }) := by
  have hwalk : closedProject.walkFrom true 0 [] (File.namesOf innerStart.toText.toBytes) =
    .ok (.found innerDir .directory .name) := by rfl
  have closed : closedProject.LeadsInto innerStart.toText innerDir := .of_walkFrom (by decide +kernel) hwalk
  have goesOn : ¬ Stops closedProject [("proj" : Text).toBytes] := by decide +kernel
  have goesOn' : ¬ Stops (projectAround overlongLink) [("proj" : Text).toBytes] := by decide +kernel
  refine ⟨fun h => ?_, ⟨Disk.isTree_of_entries (by decide +kernel) (by rfl), startsIn_innerDir _, ?_, by decide +kernel⟩,
    Disk.isTree_of_entries (by decide +kernel) (by rfl), closed, by rfl, ?_, by decide +kernel⟩
  · have tree : (projectAround outwardLink).IsTree := Disk.isTree_of_entries (by decide +kernel) (by rfl)
    have tree' : ((projectAround outwardLink).put otherPlace (.file [])).IsTree :=
      Disk.isTree_of_entries (by decide +kernel) (by rfl)
    obtain ⟨change, honly⟩ := Disk.put_changes (d := projectAround outwardLink) (k := otherPlace) (by simp [otherPlace])
      (.inl (by rfl)) []
    have hsame := h _ _ innerStart innerDir tree tree' (startsIn_innerDir _) change fun k hk =>
      ⟨[("other" : Text).toBytes], honly k hk, by decide +kernel⟩
    have hfound : discover (projectAround outwardLink) none (some innerStart) =
        .ok (some (Path.ofText "/proj/rscc.toml")) := by rfl
    have hfound' : discover ((projectAround outwardLink).put otherPlace (.file [])) none (some innerStart) =
        .ok (some (Path.ofText "/proj/lib/rscc.toml")) := by rfl
    rw [hfound, hfound'] at hsame
    exact absurd hsame (by decide +kernel)
  · exact (decided goesOn').file [] (by rfl)
  · exact (decided goesOn).file [] (by rfl)

end ScriptDriver.Toolchain
