import ScriptDriver.Proofs.File.Change
import ScriptDriver.Proofs.File.Ending
/-!
# LinkFree — disks with files and directories only

Without links a path leads where its names say: through directories that are there (`descend`) to a last name in one of
them (`Leads`).  Making directories and writing files leaves every directory in place, so a path goes on leading to the
same location, and what is written in one step there is found there (`writeAtomically_ok`).
-/
namespace ScriptDriver.File

/-- A name that is looked up in a directory. -/
structure Name.Plain (name : Name) : Prop where
  some : name ≠ []
  noDot : name ≠ [0x2E]
  noDots : name ≠ [0x2E, 0x2E]

/-- What the last name of a location ends with. -/
def Location.finalByte? (l : Location) : Option UInt8 := (l.getLast?.getD []).getLast?

/-- A path that ends in a byte which is part of its last name, and makes that one to be looked up. -/
structure EndsIn (path : Text) (b : UInt8) : Prop where
  byte : path.toBytes.getLast? = some b
  noSeparator : b ≠ 0x2F
  noDot : b ≠ 0x2E

def Named (path : Text) : Prop := ∃ names last, namesOf path.toBytes = names ++ [last] ∧ Name.Plain last

namespace Disk

def LinkFree (d : Disk) : Prop := ∀ l target, d.entry? l ≠ some (.link target)

/-- What a path finds at a location where it leads to by a name. -/
def placeAt (d : Disk) (l : Location) : Place :=
  match d.entry? l with
  | none => .missing l .name
  | some e => .found l e .name

/-- The directory that names lead to from `cur`. -/
def descend (d : Disk) (cur : Location) : List Name → Option Location
  | [] => some cur
  | name :: rest =>
    if name = [] then d.descend cur rest
    else if d.bars cur then none
    else if name = [0x2E] then d.descend cur rest
    else if name = [0x2E, 0x2E] then d.descend cur.dropLast rest
    else if name.length ≤ nameLimit ∧ d.entry? (cur ++ [name]) = some .directory then d.descend (cur ++ [name]) rest
    else none

def start (d : Disk) (path : Text) : Location := if startsAtRoot path.toBytes then [] else d.here

/-- **A path that leads to a location**: its names but the last lead to a directory, the last one is looked up there. -/
inductive Leads (d : Disk) (path : Text) : Location → Prop where
  | intro {names : List Name} {last : Name} {directory : Location} (clean : path.toBytes.contains 0 = false)
      (short : path.toBytes.length < pathLimit) (cut : namesOf path.toBytes = names ++ [last]) (plain : last.Plain)
      (fits : last.length ≤ nameLimit) (found : d.descend (d.start path) names = some directory)
      (entered : d.bars directory = false) : Leads d path (directory ++ [last])

/-! ## Entries -/

theorem linkFree_of_entries {d : Disk} (h : ∀ p ∈ d.entries, ∀ target, p.2 ≠ .link target) : d.LinkFree := by
  intro l target hlink
  by_cases hroot : l = []
  · rw [hroot, entry?_root] at hlink
    cases hlink
  · rw [entry?_of_some _ hroot] at hlink
    obtain ⟨p, hp, hentry⟩ := Option.map_eq_some_iff.1 hlink
    exact h p (List.mem_of_find?_eq_some hp) target hentry

/-! ## One name -/

section
variable {d : Disk} {cur : Location} {name : Name} {rest : List Name}

/-- The directory that one name leads to from `cur`. -/
def next? (d : Disk) (cur : Location) (name : Name) : Option Location :=
  if name = [] then some cur
  else if d.bars cur then none
  else if name = [0x2E] then some cur
  else if name = [0x2E, 0x2E] then some cur.dropLast
  else if name.length ≤ nameLimit ∧ d.entry? (cur ++ [name]) = some .directory then some (cur ++ [name])
  else none

/-- **Names lead on from where the first of them leads.** -/
theorem descend_cons : d.descend cur (name :: rest) = (d.next? cur name).bind fun next => d.descend next rest := by
  unfold next?
  rw [descend]
  repeat' split
  all_goals rfl

/-- **A name that leads to a directory is gone along to it**, if there is another one to come. -/
theorem along_next (follow : Bool) (more : rest.all (· = []) = false) {next : Location}
    (h : d.next? cur name = some next) : d.along follow cur (name :: rest) = d.along follow next rest := by
  unfold next? at h
  rw [along]
  split at h
  · rename_i hempty
    rw [if_pos hempty, Option.some.inj h]
  rename_i hempty
  rw [if_neg hempty]
  split at h
  · cases h
  rename_i hbar
  rw [if_neg hbar]
  split at h
  · rename_i hdot
    rw [if_pos hdot, Option.some.inj h]
  rename_i hdot
  rw [if_neg hdot]
  split at h
  · rename_i hdots
    rw [if_pos hdots, Option.some.inj h]
  rename_i hdots
  rw [if_neg hdots]
  split at h
  · rename_i hthere
    rw [if_neg (Nat.not_lt.2 hthere.1)]
    dsimp only
    rw [more, hthere.2, ← Option.some.inj h]
    rfl
  · cases h

/-- **A name that leads to no directory is refused**, if there is another one to come. -/
theorem along_astray (free : d.LinkFree) (follow : Bool) (more : rest.all (· = []) = false)
    (h : d.next? cur name = none) : ∃ refusal, d.along follow cur (name :: rest) = .refused refusal := by
  unfold next? at h
  rw [along]
  split at h
  · cases h
  rename_i hempty
  rw [if_neg hempty]
  split at h
  · rename_i hbar
    exact ⟨.denied, if_pos hbar⟩
  rename_i hbar
  rw [if_neg hbar]
  split at h
  · cases h
  rename_i hdot
  rw [if_neg hdot]
  split at h
  · cases h
  rename_i hdots
  rw [if_neg hdots]
  by_cases hlong : nameLimit < name.length
  · exact ⟨.nameTooLong, if_pos hlong⟩
  rw [if_neg hlong]
  dsimp only
  rw [more]
  cases hentry : d.entry? (cur ++ [name]) with
  | none => exact ⟨.notFound, rfl⟩
  | some e =>
    cases e with
    | link target => exact absurd hentry (free _ target)
    | file content => exact ⟨.notDirectory, rfl⟩
    | directory =>
      rw [if_pos ⟨Nat.not_lt.1 hlong, hentry⟩] at h
      cases h

end

/-! ## Walking without links -/

section
variable {d : Disk}

/-- What the last name of a path leads to in a directory. -/
def endAt (d : Disk) (directory : Location) (last : Name) : Except Refusal Place :=
  if d.bars directory then .error .denied
  else if last = [0x2E] then .ok (.found directory .directory .noName)
  else if last = [0x2E, 0x2E] then .ok (.found directory.dropLast .directory .noName)
  else if nameLimit < last.length then .error .nameTooLong
  else .ok (d.placeAt (directory ++ [last]))

theorem along_end (free : d.LinkFree) (follow : Bool) {last : Name} (given : last ≠ []) :
    ∀ {names : List Name} {cur directory : Location}, d.descend cur names = some directory →
      d.along follow cur (names ++ [last]) = match d.endAt directory last with
        | .ok place => .done place
        | .error refusal => .refused refusal
  | [], cur, directory, found => by
    obtain rfl : cur = directory := Option.some.inj found
    rw [List.nil_append, along, if_neg given]
    unfold endAt
    by_cases hbar : d.bars cur = true
    · rw [if_pos hbar, if_pos hbar]
    rw [if_neg hbar, if_neg hbar]
    by_cases hdot : last = [0x2E]
    · rw [if_pos hdot, if_pos hdot]
      rfl
    rw [if_neg hdot, if_neg hdot]
    by_cases hdots : last = [0x2E, 0x2E]
    · rw [if_pos hdots, if_pos hdots]
      rfl
    rw [if_neg hdots, if_neg hdots]
    split
    · rfl
    · unfold placeAt
      cases h : d.entry? (cur ++ [last]) with
      | none => rfl
      | some e =>
        cases e with
        | file | directory => rfl
        | link target => exact absurd h (free _ target)
  | name :: rest, cur, directory, found => by
    rw [descend_cons] at found
    obtain ⟨next, hnext, hfound⟩ := Option.bind_eq_some_iff.1 found
    rw [List.cons_append, along_next follow (by simp [given]) hnext]
    exact along_end free follow given hfound

theorem endAt_of_plain {directory : Location} {last : Name} (plain : last.Plain) : d.endAt directory last =
    if d.bars directory then .error .denied
    else if nameLimit < last.length then .error .nameTooLong else .ok (d.placeAt (directory ++ [last])) := by
  unfold endAt
  rw [if_neg plain.noDot, if_neg plain.noDots]

theorem along_lost (free : d.LinkFree) (follow : Bool) {last : Name} (given : last ≠ []) :
    ∀ {names : List Name} {cur : Location}, d.descend cur names = none →
      ∃ refusal, d.along follow cur (names ++ [last]) = .refused refusal
  | [], cur, lost => by cases lost
  | name :: rest, cur, lost => by
    have more : (rest ++ [last]).all (· = []) = false := by simp [given]
    rw [descend_cons] at lost
    rw [List.cons_append]
    cases hnext : d.next? cur name with
    | none => exact along_astray free follow more hnext
    | some next =>
      rw [hnext] at lost
      rw [along_next follow more hnext]
      exact along_lost free follow given lost

/-- **A path whose names but the last lead to a directory ends there**, whatever its last name is. -/
theorem walk_of_descend (free : d.LinkFree) (follow : Bool) {path : Text} {names : List Name} {last : Name}
    {directory : Location} (clean : path.toBytes.contains 0 = false) (short : path.toBytes.length < pathLimit)
    (cut : namesOf path.toBytes = names ++ [last]) (given : last ≠ [])
    (found : d.descend (d.start path) names = some directory) :
    d.walk follow path = match d.endAt directory last with
      | .ok place => .ok place
      | .error refusal => .error (.refused { refusal, path }) := by
  have hsome : path.toBytes ≠ [] := by
    intro hnil
    rw [hnil] at cut
    have hlast := (List.append_inj' (show ([] : List Name) ++ [[]] = _ ++ [_] from cut) rfl).2
    exact given (List.singleton_inj.1 hlast).symm
  have halong := along_end free follow given found
  unfold start at halong
  unfold walk
  rw [if_neg (by rw [clean]; exact Bool.false_ne_true), if_neg hsome, if_neg (Nat.not_le.2 short), cut, walkFrom, halong]
  cases d.endAt directory last <;> rfl

/-- **A path that leads to a location finds what is there.** -/
theorem walk_of_leads (free : d.LinkFree) {path : Text} {l : Location} (h : d.Leads path l) (follow : Bool) :
    d.walk follow path = .ok (d.placeAt l) := by
  cases h with
  | intro clean short cut plain fits found entered =>
    rw [walk_of_descend free follow clean short cut plain.some found, endAt_of_plain plain,
      if_neg (Bool.eq_false_iff.1 entered), if_neg (Nat.not_lt.2 fits)]

/-- **A path with a last name leads somewhere if it can be walked.** -/
theorem leads_of_walk (free : d.LinkFree) {follow : Bool} {path : Text} {place : Place} {names : List Name} {last : Name}
    (cut : namesOf path.toBytes = names ++ [last]) (plain : last.Plain) (h : d.walk follow path = .ok place) :
    ∃ l, d.Leads path l ∧ place = d.placeAt l := by
  have hwalk := h
  unfold walk at h
  dsimp only at h
  split at h
  · cases h
  rename_i hclean
  split at h
  · cases h
  split at h
  · cases h
  rename_i hshort
  have clean := Bool.eq_false_iff.2 hclean
  cases found : d.descend (d.start path) names with
  | none =>
    obtain ⟨refusal, halong⟩ := along_lost free follow plain.some found
    unfold start at halong
    rw [cut, walkFrom, halong] at h
    cases h
  | some directory =>
    rw [walk_of_descend free follow clean (Nat.not_le.1 hshort) cut plain.some found, endAt_of_plain plain] at hwalk
    by_cases hbar : d.bars directory = true
    · rw [if_pos hbar] at hwalk
      cases hwalk
    rw [if_neg hbar] at hwalk
    by_cases hfits : nameLimit < last.length
    · rw [if_pos hfits] at hwalk
      cases hwalk
    · rw [if_neg hfits] at hwalk
      cases hwalk
      exact ⟨_, .intro clean (Nat.not_le.1 hshort) cut plain (Nat.not_lt.1 hfits) found (Bool.eq_false_iff.2 hbar), rfl⟩

theorem placeAt_inj {l l' : Location} (h : d.placeAt l = d.placeAt l') : l = l' := by
  unfold placeAt at h
  split at h <;> split at h <;> cases h <;> rfl

theorem Leads.unique {path : Text} {l l' : Location} (h : d.Leads path l) (h' : d.Leads path l') : l = l' := by
  cases h with
  | intro _ _ cut _ _ found _ =>
    cases h' with
    | intro _ _ cut' _ _ found' _ =>
      obtain ⟨hnames, hlast⟩ := List.append_inj' (cut.symm.trans cut') rfl
      rw [← hnames, found] at found'
      rw [Option.some.inj found', hlast]

end

/-! ## What a path ends with -/

section
variable {d : Disk} {path : Text} {l : Location} {b : UInt8}

theorem cut_of_endsIn (h : EndsIn path b) :
    ∃ names last, namesOf path.toBytes = names ++ [last] ∧ last.Plain ∧ last.getLast? = some b := by
  obtain ⟨before, hbytes⟩ := List.getLast?_eq_some_iff.1 h.byte
  obtain ⟨names, last, -, happend⟩ := namesOf_append before
  have hcut := happend [b] (by simpa using h.noSeparator.symm)
  have hplain : Name.Plain (last ++ [b]) := by
    constructor
    case some => simp
    case noDot =>
      intro heq
      have hlast := congrArg List.getLast? heq
      simp [h.noDot] at hlast
    case noDots =>
      intro heq
      have hlast := congrArg List.getLast? heq
      simp [h.noDot] at hlast
  exact ⟨names, last ++ [b], hbytes ▸ hcut, hplain, by simp⟩

theorem named_of_endsIn (h : EndsIn path b) : Named path := by
  obtain ⟨names, last, cut, plain, -⟩ := cut_of_endsIn h
  exact ⟨names, last, cut, plain⟩

/-- **A location ends as the path does that leads to it.** -/
theorem Leads.finalByte? (hl : d.Leads path l) (h : EndsIn path b) : l.finalByte? = some b := by
  obtain ⟨names, last, hcut, -, hlast⟩ := cut_of_endsIn h
  cases hl with
  | intro _ _ cut _ _ _ _ =>
    have heq := (List.append_inj' (cut.symm.trans hcut) rfl).2
    unfold Location.finalByte?
    rw [List.getLast?_concat, Option.getD_some, List.singleton_inj.1 heq, hlast]

end

/-! ## Directories stay -/

structure Keeps (d d' : Disk) : Prop where
  here : d'.here = d.here
  shut : d'.terms.shut = d.terms.shut
  directories : ∀ l, d.entry? l = some .directory → d'.entry? l = some .directory

section
variable {d d' d'' : Disk}

theorem Keeps.trans (h : d.Keeps d') (h' : d'.Keeps d'') : d.Keeps d'' :=
  ⟨h'.here.trans h.here, h'.shut.trans h.shut, fun l hl => h'.directories l (h.directories l hl)⟩

theorem Grows.keeps (h : d.Grows d') : d.Keeps d' := ⟨h.here, by rw [h.terms], fun _ hl => h.of_some hl⟩

theorem Grows.linkFree (h : d.Grows d') (free : d.LinkFree) : d'.LinkFree := by
  intro l target hlink
  rcases h.entries l with heq | ⟨-, hdirectory⟩
  · exact free l target (heq ▸ hlink)
  · rw [hdirectory] at hlink
    cases hlink

theorem bars_of_shut (h : d'.terms.shut = d.terms.shut) (l : Location) : d'.bars l = d.bars l := by
  unfold bars
  rw [h]

theorem Keeps.next (h : d.Keeps d') {cur next : Location} {name : Name} (hnext : d.next? cur name = some next) :
    d'.next? cur name = some next := by
  unfold next? at hnext ⊢
  rw [bars_of_shut h.shut]
  split at hnext
  · rename_i hempty
    rw [if_pos hempty, hnext]
  rename_i hempty
  rw [if_neg hempty]
  split at hnext
  · cases hnext
  rename_i hbar
  rw [if_neg hbar]
  split at hnext
  · rename_i hdot
    rw [if_pos hdot, hnext]
  rename_i hdot
  rw [if_neg hdot]
  split at hnext
  · rename_i hdots
    rw [if_pos hdots, hnext]
  rename_i hdots
  rw [if_neg hdots]
  split at hnext
  · rename_i hthere
    rw [if_pos ⟨hthere.1, h.directories _ hthere.2⟩, hnext]
  · cases hnext

theorem Keeps.descend (h : d.Keeps d') : ∀ (names : List Name) {cur directory : Location},
    d.descend cur names = some directory → d'.descend cur names = some directory
  | [], _, _, hfound => hfound
  | name :: rest, cur, directory, hfound => by
    rw [descend_cons] at hfound ⊢
    obtain ⟨next, hnext, hfurther⟩ := Option.bind_eq_some_iff.1 hfound
    rw [h.next hnext]
    exact h.descend rest hfurther

theorem Keeps.found (h : d.Keeps d') {path : Text} {names : List Name} {directory : Location}
    (hfound : d.descend (d.start path) names = some directory) :
    d'.descend (d'.start path) names = some directory := by
  unfold start at hfound ⊢
  rw [h.here]
  exact h.descend names hfound

/-- **A path goes on leading to the same location while directories are kept.** -/
theorem Keeps.leads (h : d.Keeps d') {path : Text} {l : Location} (hl : d.Leads path l) : d'.Leads path l := by
  cases hl with
  | intro clean short cut plain fits found entered =>
    exact .intro clean short cut plain fits (h.found found) (by rwa [bars_of_shut h.shut])

end

end Disk
end ScriptDriver.File
