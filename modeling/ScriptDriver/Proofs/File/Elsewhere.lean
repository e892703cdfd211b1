import ScriptDriver.Proofs.File.Canonical
import ScriptDriver.Proofs.File.Written
/-!
# Elsewhere — files that come and go

When files are made or taken away and everything else stays, a path leads where it led before, unless it led to the
location of one of them (`walkFrom_elsewhere`).  A path that led through one of them leads nowhere, before and after.
-/
namespace ScriptDriver.File

/-- A refusal because something on the way is not there, or is a file. -/
def Refusal.Lost (refusal : Refusal) : Prop := refusal = .notFound ∨ refusal = .notDirectory

namespace Disk

/-- **Files come and go** from one disk to another, and nothing else is changed. -/
structure FilesChange (d d' : Disk) : Prop where
  here : d'.here = d.here
  shut : d'.terms.shut = d.terms.shut
  files : ∀ l, d'.entry? l ≠ d.entry? l → d.AtMostFile l ∧ d'.AtMostFile l

/-- What comes of a path on two disks: the same thing, nothing on either, or the place of a file that has changed. -/
inductive Elsewhere (d d' : Disk) : Except Refusal Place → Except Refusal Place → Prop where
  | same (r : Except Refusal Place) : Elsewhere d d' r r
  | lost {e e' : Refusal} : e.Lost → e'.Lost → Elsewhere d d' (.error e) (.error e')
  | changed {place : Place} (r : Except Refusal Place) : d'.entry? place.location ≠ d.entry? place.location →
    Elsewhere d d' (.ok place) r

variable {d d' : Disk}

/-- Writing a file changes nothing but what is there. -/
theorem put_changes {k : Location} (some : k ≠ []) (h : d.AtMostFile k) (content : List UInt8) :
    d.FilesChange (d.put k (.file content)) ∧ ∀ l, entry? (d.put k (.file content)) l ≠ d.entry? l → l = k := by
  have hchanged : ∀ l, entry? (d.put k (.file content)) l ≠ d.entry? l → l = k := by
    intro l hne
    by_contra hlk
    by_cases hl : l = []
    · rw [hl, entry?_root, entry?_root] at hne
      exact hne rfl
    · rw [entry?_put d k _ hl, if_neg hlk] at hne
      exact hne rfl
  refine ⟨⟨rfl, rfl, fun l hne => ?_⟩, hchanged⟩
  obtain rfl := hchanged l hne
  exact ⟨h, .inr ⟨content, entry?_put_self d _ some⟩⟩

section
variable {cur : Location} {name : Name} {rest : List Name} (h : d.AtMostFile (cur ++ [name])) (plain : name.Plain)
  (fits : name.length ≤ nameLimit)
include h plain fits

/-- A path that gets to the place of a file, or of nothing, ends there. -/
theorem AtMostFile.along_last (entered : d.bars cur = false) (follow : Bool) (last : rest.all (· = []) = true) :
    ∃ place, d.along follow cur (name :: rest) = .done place ∧ place.location = cur ++ [name] := by
  rw [along_plain follow rest entered plain, if_neg (Nat.not_lt.2 fits)]
  rcases h with hnone | ⟨content, hfile⟩
  · rw [hnone]
    exact ⟨_, if_pos last, rfl⟩
  · rw [hfile]
    exact ⟨_, if_pos last, rfl⟩

theorem AtMostFile.along_further (entered : d.bars cur = false) (follow : Bool) (further : ¬ rest.all (· = []) = true) :
    ∃ e, e.Lost ∧ d.along follow cur (name :: rest) = .refused e := by
  rw [along_plain follow rest entered plain, if_neg (Nat.not_lt.2 fits)]
  rcases h with hnone | ⟨content, hfile⟩
  · rw [hnone]
    exact ⟨.notFound, .inl rfl, if_neg further⟩
  · rw [hfile]
    exact ⟨.notDirectory, .inr rfl, if_neg further⟩

end

namespace FilesChange

variable (change : d.FilesChange d')
include change

/-- What is not a file stays. -/
theorem kept {l : Location} {e : Entry} (h : d.entry? l = some e) (notFile : ∀ content, e ≠ .file content) :
    d'.entry? l = some e := by
  by_contra hne
  rw [← h] at hne
  rcases (change.files l hne).1 with hnone | ⟨content, hfile⟩
  · rw [hnone] at h
    cases h
  · rw [hfile] at h
    exact notFile content (Option.some.inj h).symm

theorem bars (l : Location) : d'.bars l = d.bars l := by
  unfold Disk.bars
  rw [change.shut]

theorem along_elsewhere (follow : Bool) : ∀ (names : List Name) (cur : Location),
    d'.along follow cur names = d.along follow cur names ∨
    (∃ e e', (e.Lost ∧ d.along follow cur names = .refused e) ∧ e'.Lost ∧ d'.along follow cur names = .refused e') ∨
    ∃ place, d.along follow cur names = .done place ∧ d'.entry? place.location ≠ d.entry? place.location
  | [], cur => .inl rfl
  | name :: rest, cur => by
    by_cases hempty : name = []
    · rw [hempty, along_empty, along_empty]
      exact along_elsewhere follow rest cur
    by_cases hbar : d.bars cur = true
    · have hsome : (name :: rest).all (· = []) = false := by rw [List.all_cons, decide_eq_false hempty, Bool.false_and]
      rw [along_barred follow hbar hsome, along_barred follow ((change.bars cur).trans hbar) hsome]
      exact .inl rfl
    have entered : d.bars cur = false := Bool.eq_false_iff.2 hbar
    have entered' : d'.bars cur = false := (change.bars cur).trans entered
    rcases name.stay_or_up_or_plain with hstay | rfl | plain
    · rw [along_stay follow rest entered hstay, along_stay follow rest entered' hstay]
      exact along_elsewhere follow rest cur
    · rw [along_up follow rest entered, along_up follow rest entered']
      exact along_elsewhere follow rest cur.dropLast
    have halong := along_plain follow rest entered plain
    have halong' := along_plain follow rest entered' plain
    by_cases hlong : nameLimit < name.length
    · rw [halong, halong', if_pos hlong, if_pos hlong]
      exact .inl rfl
    by_cases hsame : d'.entry? (cur ++ [name]) = d.entry? (cur ++ [name])
    · rw [halong, halong', if_neg hlong, if_neg hlong, hsame]
      rcases d.entry? (cur ++ [name]) with _ | _ | _ | _
      case some.directory =>
        dsimp only
        split
        · exact .inl rfl
        · exact along_elsewhere follow rest (cur ++ [name])
      all_goals exact .inl rfl
    · -- what has changed is the end of the way, on both disks
      obtain ⟨hfile, hfile'⟩ := change.files _ hsame
      have fits : name.length ≤ nameLimit := Nat.not_lt.1 hlong
      by_cases hlast : rest.all (· = []) = true
      · obtain ⟨place, hplace, hlocation⟩ := hfile.along_last plain fits entered follow hlast
        exact .inr (.inr ⟨place, hplace, hlocation ▸ hsame⟩)
      · obtain ⟨e, he⟩ := hfile.along_further plain fits entered follow hlast
        obtain ⟨e', he'⟩ := hfile'.along_further plain fits entered' follow hlast
        exact .inr (.inl ⟨e, e', he, he'⟩)

/-- **A path leads where it led before**, unless it led to a file that has changed. -/
theorem walkFrom_elsewhere (follow : Bool) : ∀ (links : Nat) (cur : Location) (names : List Name),
    Elsewhere d d' (d.walkFrom follow links cur names) (d'.walkFrom follow links cur names)
  | links, cur, names => by
    unfold walkFrom
    rcases change.along_elsewhere follow names cur with hsame | ⟨e, e', ⟨hlost, he⟩, hlost', he'⟩ | ⟨place, hplace, hchanged⟩
    · rw [hsame]
      cases d.along follow cur names with
      | done | refused => exact .same _
      | link base target rest =>
        cases links with
        | zero => exact .same _
        | succ links => exact walkFrom_elsewhere follow links _ _
    · rw [he, he']
      exact .lost hlost hlost'
    · rw [hplace]
      exact .changed _ hchanged

/-- **Names that lead to a directory still lead there.** -/
theorem follows {n : Nat} {cur l : Location} {names : List Name} (h : d.Follows n cur names l) :
    d'.Follows n cur names l := by
  induction h with
  | nil => exact .nil
  | stay hstay _ ih => exact .stay hstay ih
  | up _ ih => exact .up ih
  | down plain hentry _ ih => exact .down plain (change.kept hentry nofun) ih
  | link entered plain hentry _ _ ihInner ih =>
    exact .link ((change.bars _).trans entered) plain (change.kept hentry nofun) ihInner ih

theorem leadsInto {path : Text} {l : Location} (h : d.LeadsInto path l) : d'.LeadsInto path l := by
  have hstart : d'.start path = d.start path := by rw [start, start, change.here]
  obtain ⟨n, hfollows⟩ := h.leads
  exact ⟨h.clean, n, hstart ▸ change.follows hfollows⟩

end FilesChange

end Disk
end ScriptDriver.File
