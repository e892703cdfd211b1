import ScriptDriver.Proofs.ResponseFile.Reference
/-!
# FailSoft — references that cannot be read

An expansion goes through the command line and through the text of every file that it opens; these are its places.  What
a place comes to stands in the result where the reference to the file was (`Reached.result`).  So a reference that
cannot be read is kept at any place, and nothing around it is touched, unless its name is no path at all: then nothing
comes of the whole command line (`failSoft_iff`).
-/
namespace ScriptDriver.ResponseFile

open File (Location Disk)

/-- Arguments that an expansion goes through, and what the result has before and after what they come to. -/
structure Place where
  room : Nat
  opened : List Location
  args : List Text
  before : List Text
  after : List Text

namespace Place

def expand (lookup : Lookup) (p : Place) (args : List Text) : Expansion := expandWithin lookup p.room p.opened args

/-- The text of a file, as it is opened by a reference between `a` and `b`. -/
def inside (lookup : Lookup) (p : Place) (a : List Text) (l : Location) (text : Text) (b : List Text) : Place where
  room := p.room - 1
  opened := l :: p.opened
  args := tokens text
  before := p.before ++ (p.expand lookup a).args
  after := (p.expand lookup b).args ++ p.after

end Place

/-- **The places of an expansion**: the command line, and the text of every file that is opened. -/
inductive Reached (lookup : Lookup) (depth : Int) (argv : List Text) : Place → Prop
  | line : Reached lookup depth argv ⟨depth.toNat, [], argv, [], []⟩
  | file {p : Place} {a b : List Text} {name text : Text} {l : Location} (h : Reached lookup depth argv p)
      (hargs : p.args = a ++ referenceTo name :: b) (hf : lookup name = .file l text) (hroom : p.room ≠ 0)
      (hl : l ∉ p.opened) : Reached lookup depth argv (p.inside lookup a l text b)

/-- **Expanding is fail-soft** if it gives arguments back, and wherever there is a reference that cannot be read, it is
among them, between what the arguments around it come to. -/
structure FailSoft (lookup : Lookup) (x : Expander) (argv : List Text) : Prop where
  returns : ∃ out, (x.expand lookup argv).1 = .ok out
  literal : ∀ p, Reached lookup x.depth argv p → ∀ a name b, p.args = a ++ referenceTo name :: b →
    (∀ l text, lookup name ≠ .file l text) →
    (x.expand lookup argv).1 = .ok
      (p.before ++ ((p.expand lookup a).args ++ referenceTo name :: (p.expand lookup b).args) ++ p.after)

variable {lookup : Lookup} {depth : Int} {argv : List Text} {p : Place}

theorem Place.expand_around {a b : List Text} {arg : Text} (h : (p.expand lookup (a ++ arg :: b)).fault = none) :
    (p.expand lookup [arg]).fault = none ∧
    (p.expand lookup (a ++ arg :: b)).args =
      (p.expand lookup a).args ++ ((p.expand lookup [arg]).args ++ (p.expand lookup b).args) :=
  expandWithin_around h

theorem Place.expand_inside {a b : List Text} {name text : Text} {l : Location} (hf : lookup name = .file l text)
    (hroom : p.room ≠ 0) (hl : l ∉ p.opened) :
    (p.inside lookup a l text b).expand lookup (tokens text) = p.expand lookup [referenceTo name] := by
  obtain ⟨room, hr⟩ := Nat.exists_eq_succ_of_ne_zero hroom
  have hinside : (p.inside lookup a l text b).room = room := by
    rw [inside, hr, Nat.succ_sub_one]
  unfold expand
  rw [hr, expandWithin_entered hf hl, hinside]
  rfl

/-- **What a place comes to is part of the result**, if nothing stops the expansion. -/
theorem Reached.result (h : Reached lookup depth argv p) (hok : (expand lookup depth argv).fault = none) :
    (p.expand lookup p.args).fault = none ∧
    (expand lookup depth argv).args = p.before ++ (p.expand lookup p.args).args ++ p.after := by
  induction h with
  | line =>
    rw [List.nil_append, List.append_nil]
    exact ⟨hok, rfl⟩
  | @file p a b name text l h hargs hf hroom hl ih =>
    obtain ⟨hp, hresult⟩ := ih
    -- the text of the file comes to what the reference to it does
    rw [hargs] at hp hresult
    obtain ⟨hone, haround⟩ := Place.expand_around hp
    rw [hresult, haround, show (p.inside lookup a l text b).args = tokens text from rfl,
      Place.expand_inside hf hroom hl]
    refine ⟨hone, ?_⟩
    simp only [Place.inside, List.append_assoc]

theorem Reached.around (h : Reached lookup depth argv p) (hok : (expand lookup depth argv).fault = none)
    {a b : List Text} {arg : Text} (hargs : p.args = a ++ arg :: b) :
    (p.expand lookup [arg]).fault = none ∧
    (expand lookup depth argv).args =
      p.before ++ ((p.expand lookup a).args ++ ((p.expand lookup [arg]).args ++ (p.expand lookup b).args)) ++ p.after := by
  obtain ⟨hp, hresult⟩ := h.result hok
  rw [hargs] at hp hresult
  obtain ⟨hone, haround⟩ := Place.expand_around hp
  rw [hresult, haround]
  exact ⟨hone, rfl⟩

/-- Nothing stops an expansion if every reference at its places is a path. -/
theorem Reached.fault_eq_none
    (valid : ∀ p, Reached lookup depth argv p → ∀ name, referenceTo name ∈ p.args → ∀ e, lookup name ≠ .invalid e)
    (h : Reached lookup depth argv p) : (p.expand lookup p.args).fault = none := by
  -- the induction goes through parts of the arguments of a place, and to another place where a file is entered
  suffices hpart : ∀ q, Reached lookup depth argv q → q.room = p.room → q.opened = p.opened → p.args ⊆ q.args →
      (p.expand lookup p.args).fault = none from hpart p h rfl rfl fun _ hmem => hmem
  unfold Place.expand
  clear h
  induction p.room, p.opened, p.args using expandWithin_induction lookup with
  | nil room opened => exact fun _ _ _ _ _ => rfl
  | cons room opened arg args a b iha ihb =>
    intro q hq hroom hopened hsub
    obtain ⟨harg, hargs⟩ := List.cons_subset.1 hsub
    exact Expansion.fault_andThen_none.2
      ⟨iha q hq hroom hopened (by simpa using harg), ihb q hq hroom hopened hargs⟩
  | plain room opened arg hr => exact fun _ _ _ _ _ => rfl
  | unreadable room opened name hn => exact fun _ _ _ _ _ => rfl
  | invalid room opened name e hn =>
    intro q hq _ _ hsub
    exact absurd hn (valid q hq name (hsub List.mem_cons_self) e)
  | skipped room opened name l text hn hs => exact fun _ _ _ _ _ => rfl
  | entered room opened name l text e hn hl ih =>
    intro q hq hroom hopened hsub
    obtain ⟨a, b, hargs⟩ := List.append_of_mem (hsub List.mem_cons_self)
    have hinside := Reached.file hq hargs hn (by omega) (hopened ▸ hl)
    exact ih _ hinside (by simp only [Place.inside]; omega) (congrArg (l :: ·) hopened) fun _ hmem => hmem

/-- **Expanding is fail-soft exactly if no reference that is met has a null character**, where these names and no others
are no paths, and whatever it is that makes files unreadable. -/
theorem failSoft_iff (lookup : Lookup) (null : ∀ name, (∃ e, lookup name = .invalid e) ↔ 0 ∈ name.toBytes) (x : Expander)
    (argv : List Text) :
    FailSoft lookup x argv ↔
      ∀ p, Reached lookup x.depth argv p → ∀ name, referenceTo name ∈ p.args → 0 ∉ name.toBytes := by
  have hreturns : ∀ out, (x.expand lookup argv).1 = .ok out ↔
      (expand lookup x.depth argv).fault = none ∧ (expand lookup x.depth argv).args = out :=
    fun out => Expansion.result_eq_ok
  constructor
  · rintro ⟨⟨out, hout⟩, -⟩ p hp name hname hnull
    obtain ⟨e, he⟩ := (null name).2 hnull
    obtain ⟨a, b, hargs⟩ := List.append_of_mem hname
    have hstop : p.expand lookup [referenceTo name] = .stop e := expandWithin_invalid he
    obtain ⟨hone, -⟩ := hp.around ((hreturns out).1 hout).1 hargs
    rw [hstop] at hone
    cases hone
  · intro clean
    have valid : ∀ p, Reached lookup x.depth argv p → ∀ name, referenceTo name ∈ p.args → ∀ e, lookup name ≠ .invalid e :=
      fun p hp name hname e he => clean p hp name hname ((null name).1 ⟨e, he⟩)
    have hok : (expand lookup x.depth argv).fault = none := Reached.line.fault_eq_none valid
    refine ⟨⟨_, (hreturns _).2 ⟨hok, rfl⟩⟩, fun p hp a name b hargs hfile => (hreturns _).2 ⟨hok, ?_⟩⟩
    have hunreadable : lookup name = .unreadable := by
      cases hn : lookup name with
      | unreadable => rfl
      | file l text => exact absurd hn (hfile l text)
      | invalid e => exact absurd hn (valid p hp name (hargs ▸ List.mem_append_right a List.mem_cons_self) e)
    have hkeep : p.expand lookup [referenceTo name] = .keep (referenceTo name) := expandWithin_unreadable hunreadable
    obtain ⟨-, haround⟩ := hp.around hok hargs
    rw [hkeep] at haround
    exact haround

/-- A disk with a response file that refers to a directory and to a link that leads to itself. -/
def tornDisk : Disk :=
  ⟨[([[0x72]], .file [0x61, 0x20, 0x40, 0x64, 0x20, 0x40, 0x6C, 0x20, 0x62]), ([[0x64]], .directory),
    ([[0x6C]], .link [0x6C])], []⟩

def tornLine : List Text := ["x", referenceTo "r", referenceTo "r/y"]

theorem failSoft_iff_torn : (∀ name, (∃ e, ofDisk tornDisk name = .invalid e) ↔ 0 ∈ name.toBytes) ∧
    (FailSoft (ofDisk tornDisk) {} tornLine ↔
      ∀ p, Reached (ofDisk tornDisk) usualDepth tornLine p → ∀ name, referenceTo name ∈ p.args → 0 ∉ name.toBytes) :=
  ⟨ofDisk_invalid_iff tornDisk, failSoft_iff _ (ofDisk_invalid_iff tornDisk) {} tornLine⟩

/-- What cannot be read stays, and so does all that is around it. -/
example : (Expander.expand {} (ofDisk tornDisk) tornLine).1 =
    .ok ["x", "a", referenceTo "d", referenceTo "l", "b", referenceTo "r/y"] := by rfl

/-- A disk with a response file that refers to a name with a null character, between two other arguments. -/
def nullDisk : Disk := ⟨[([[0x72]], .file [0x61, 0x20, 0x40, 0x78, 0x00, 0x79, 0x20, 0x62])], []⟩

/-- **Expanding is not always fail-soft**: nothing comes of a reference to a name with a null character. -/
theorem nullDisk_not_failSoft : ¬ FailSoft (ofDisk nullDisk) {} [referenceTo "r"] := by
  rintro ⟨⟨out, hout⟩, -⟩
  have hstopped : (Expander.expand {} (ofDisk nullDisk) [referenceTo "r"]).1 = .error .nullCharacter := by rfl
  rw [hstopped] at hout
  cases hout

end ScriptDriver.ResponseFile
