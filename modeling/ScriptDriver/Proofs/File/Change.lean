import ScriptDriver.File.Atomic
/-!
# Change — what actions do to the entries of a disk

Each action that changes a disk does one thing to it: it puts an entry somewhere, fills a file under all of its names, or
takes a name away.  Here is what is on the disk after each of these, and which of them an action does when it succeeds
(`makeDirectory_cases`, `openNew_cases`, `remove_cases`, `replace_cases`).  However many directories are made for one,
nothing else is changed (`ensureParent_grows`).
-/
namespace ScriptDriver.File
namespace Disk

/-- **No file has a second name.** -/
def Unshared (d : Disk) : Prop := d.terms.shared = []

variable {d d' d'' : Disk} {path source : Text} {l goal : Location}

/-! ## Entries -/

theorem entry?_root (d : Disk) : d.entry? [] = some .directory := if_pos rfl

theorem entry?_of_some (d : Disk) {k : Location} (hk : k ≠ []) :
    d.entry? k = (d.entries.find? (·.1 = k)).map (·.2) := if_neg hk

theorem entry?_erase (d : Disk) (l : Location) {k : Location} (hk : k ≠ []) :
    entry? (d.erase l) k = if k = l then none else d.entry? k := by
  rw [entry?_of_some _ hk, entry?_of_some _ hk]
  unfold erase
  rw [List.find?_filter]
  split
  · rename_i heq
    subst heq
    rw [List.find?_eq_none.2 fun p _ => by simp]
    rfl
  · rename_i hne
    refine congrArg (fun q => (d.entries.find? q).map (·.2)) (funext fun p => ?_)
    by_cases hp : p.1 = k
    · simp [hp, hne]
    · simp [hp]

theorem entry?_put (d : Disk) (l : Location) (e : Entry) {k : Location} (hk : k ≠ []) :
    entry? (d.put l e) k = if k = l then some e else d.entry? k := by
  have herase := d.entry?_erase l hk
  rw [entry?_of_some _ hk] at herase ⊢
  unfold put
  rw [List.find?_cons]
  by_cases heq : k = l
  · subst heq
    simp
  · have hne : ¬ l = k := fun h => heq h.symm
    rw [if_neg heq] at herase ⊢
    simp only [hne, decide_false]
    exact herase

theorem entry?_put_self (d : Disk) {l : Location} (e : Entry) (hl : l ≠ []) : entry? (d.put l e) l = some e := by
  rw [entry?_put _ _ _ hl, if_pos rfl]

theorem isFileAt_iff : d.isFileAt l = true ↔ ∃ content, d.entry? l = some (.file content) := by
  unfold isFileAt
  rcases d.entry? l with _ | _ | _ | _ <;> simp

theorem ne_root_of_isFileAt (h : d.isFileAt l = true) : l ≠ [] := by
  rintro rfl
  cases h

/-! ## Names of one file -/

theorem mem_names {k : Location} : k ∈ d.names l ↔
    k = l ∨ (∃ names ∈ d.terms.shared, l ∈ names ∧ k ∈ names) ∧ d.isFileAt k = true := by
  unfold names
  simp only [List.mem_cons, List.mem_filter, List.mem_flatten, List.contains_iff_mem, and_assoc]

theorem self_mem_names (d : Disk) (l : Location) : l ∈ d.names l := List.mem_cons_self

theorem entry?_of_mem_names {k : Location} (h : k ∈ d.names l) :
    k = l ∨ ∃ content, d.entry? k = some (.file content) :=
  (mem_names.1 h).imp_right fun h => isFileAt_iff.1 h.2

theorem names_of_unshared (h : d.Unshared) (l : Location) : d.names l = [l] := by
  unfold names
  rw [show d.terms.shared = [] from h]
  rfl

theorem terms_foldl_put (content : List UInt8) : ∀ (ls : List Location) (d : Disk),
    (ls.foldl (·.put · (.file content)) d).terms = d.terms ∧ (ls.foldl (·.put · (.file content)) d).here = d.here
  | [], _ => ⟨rfl, rfl⟩
  | _ :: ls, d => terms_foldl_put content ls (d.put _ _)

theorem fill_terms (d : Disk) (l : Location) (content : List UInt8) : (d.fill l content).terms = d.terms :=
  (terms_foldl_put content _ d).1

theorem fill_here (d : Disk) (l : Location) (content : List UInt8) : (d.fill l content).here = d.here :=
  (terms_foldl_put content _ d).2

theorem entry?_foldl_put (content : List UInt8) {k : Location} (hk : k ≠ []) : ∀ (ls : List Location) (d : Disk),
    entry? (ls.foldl (·.put · (.file content)) d) k = if k ∈ ls then some (.file content) else d.entry? k
  | [], _ => (if_neg List.not_mem_nil).symm
  | l :: ls, d => by
    rw [List.foldl_cons, entry?_foldl_put content hk ls, entry?_put _ _ _ hk]
    by_cases hls : k ∈ ls <;> by_cases hl : k = l <;> simp [hls, hl]

/-- **A file that is filled is filled under all of its names**, and nothing else is changed. -/
theorem entry?_fill (d : Disk) (l : Location) (content : List UInt8) {k : Location} (hk : k ≠ []) :
    entry? (d.fill l content) k = if k ∈ d.names l then some (.file content) else d.entry? k :=
  entry?_foldl_put content hk _ d

/-- A file keeps its names when it is filled. -/
theorem mem_names_fill (content : List UInt8) {k : Location} : k ∈ (d.fill l content).names l ↔ k ∈ d.names l := by
  have hfile (h : k ≠ []) : isFileAt (d.fill l content) k = true ↔ k ∈ d.names l ∨ d.isFileAt k = true := by
    rw [isFileAt_iff, isFileAt_iff, entry?_fill _ _ _ h]
    by_cases hmem : k ∈ d.names l <;> simp [hmem]
  by_cases hk : k = []
  · subst hk
    rw [mem_names, mem_names]
    exact or_congr_right (iff_of_false (fun h => ne_root_of_isFileAt h.2 rfl) fun h => ne_root_of_isFileAt h.2 rfl)
  · rw [mem_names, hfile hk, fill_terms, mem_names]
    constructor
    · rintro (hl | ⟨hshared, hmem | hthere⟩)
      · exact .inl hl
      · exact hmem
      · exact .inr ⟨hshared, hthere⟩
    · rintro (hl | ⟨hshared, hthere⟩)
      · exact .inl hl
      · exact .inr ⟨hshared, .inr hthere⟩

theorem entry?_rename (d : Disk) (source goal : Location) (e : Entry) {k : Location} (hk : k ≠ []) :
    entry? (d.rename source goal e) k = if k = goal then some e else if k = source then none else d.entry? k := by
  rw [← entry?_erase d source hk]
  exact entry?_put (d.erase source) goal e hk

theorem rename_unshared (h : d.Unshared) (source goal : Location) (e : Entry) : (d.rename source goal e).Unshared := by
  show List.map _ d.terms.shared = []
  rw [show d.terms.shared = [] from h]
  rfl

theorem fill_unshared (h : d.Unshared) (l : Location) (content : List UInt8) : (d.fill l content).Unshared := by
  unfold Unshared
  rw [fill_terms]
  exact h

/-! ## Actions that succeed -/

theorem makeDirectory_cases (h : d.makeDirectory path = .ok d') : ∃ l ending,
    d.walk false path = .ok (.missing l ending) ∧ d.fixes l = false ∧ d' = d.put l .directory := by
  unfold makeDirectory at h
  split at h
  · cases h
  · cases h
  rename_i l ending hwalk
  split at h
  · cases h
  rename_i hfixed
  cases h
  exact ⟨l, ending, hwalk, Bool.eq_false_iff.2 hfixed, rfl⟩

theorem openNew_cases (h : d.openNew path = .ok (l, d')) :
    ((∃ content, d.walk true path = .ok (.found l (.file content) .name)) ∨
      d.walk true path = .ok (.missing l .name) ∧ d.fixes l = false) ∧ d' = d.fill l [] := by
  unfold openNew at h
  split at h
  · cases h
  · rename_i hwalk
    cases h
    exact ⟨.inl ⟨_, hwalk⟩, rfl⟩
  · rename_i hwalk
    split at h
    · cases h
    rename_i hfixed
    cases h
    exact ⟨.inr ⟨hwalk, Bool.eq_false_iff.2 hfixed⟩, rfl⟩
  · cases h

theorem remove_cases (h : d.remove path = .ok d') : ∃ l e ending,
    d.walk false path = .ok (.found l e ending) ∧ e ≠ .directory ∧ d' = d.unlink l := by
  unfold remove at h
  split at h
  · cases h
  · cases h
  rename_i l e ending hwalk
  split at h
  · cases h
  split at h
  · cases h
  rename_i hfile
  cases h
  exact ⟨l, e, ending, hwalk, hfile, rfl⟩

/-- **What a replacement does when it succeeds**: nothing if both paths lead to the same file, and otherwise what was at
the one location is moved to the other. -/
theorem replace_cases (h : d.replace source path = .ok d') : ∃ k e ending goal,
    d.walk false source = .ok (.found k e ending) ∧ d.walk false path = .ok goal ∧
      (∀ l e, goal ≠ .found l e .noName) ∧ (goal.location ∈ d.names k ∧ d' = d ∨ goal.location ∉ d.names k ∧
        e ≠ .directory ∧ goal.entry? ≠ some .directory ∧ d' = d.rename k goal.location e) := by
  unfold replace at h
  dsimp only at h
  split at h
  · split at h <;> cases h
  rename_i start hstart
  split at h
  · split at h <;> cases h
  rename_i goal hgoal
  split at h
  · cases h
  · cases h
  · cases h
  rename_i k e ending hname hplain
  have hnoName : ∀ l e, goal ≠ .found l e .noName := fun l e heq => hplain l e heq
  refine ⟨k, e, ending, goal, hstart, hgoal, hnoName, ?_⟩
  split at h
  · rename_i hsame
    cases h
    exact .inl ⟨List.contains_iff_mem.1 hsame, rfl⟩
  rename_i hother
  split at h
  · cases h
  split at h
  · cases h
  rename_i hfiles
  cases h
  obtain ⟨he, he'⟩ := not_or.1 hfiles
  exact .inr ⟨fun hmem => hother (List.contains_iff_mem.2 hmem), he, he', rfl⟩

/-! ## Paths to nothing -/

theorem along_missing {follow : Bool} {l : Location} {ending : Ending} : ∀ (names : List Name) (cur : Location),
    d.along follow cur names = .done (.missing l ending) → d.entry? l = none
  | [], _, h => by cases h
  | name :: rest, cur, h => by
    rw [along] at h
    split at h
    · exact along_missing rest cur h
    split at h
    · cases h
    split at h
    · exact along_missing rest cur h
    split at h
    · exact along_missing rest _ h
    split at h
    · cases h
    dsimp only at h
    split at h
    · rename_i hnone
      split at h
      · cases h
        exact hnone
      · cases h
    · split at h
      · cases h
      · exact along_missing rest _ h
    · split at h <;> cases h
    · split at h <;> cases h

theorem walkFrom_missing {follow : Bool} {l : Location} {ending : Ending} :
    ∀ (links : Nat) (cur : Location) (names : List Name),
      d.walkFrom follow links cur names = .ok (.missing l ending) → d.entry? l = none
  | links, cur, names, h => by
    rw [walkFrom.eq_def] at h
    dsimp only at h
    split at h
    · rename_i place halong
      cases h
      exact along_missing names cur halong
    · cases h
    · split at h
      · cases h
      · exact walkFrom_missing _ _ _ h

theorem walk_missing {follow : Bool} {path : Text} {l : Location} {ending : Ending}
    (h : d.walk follow path = .ok (.missing l ending)) : d.entry? l = none := by
  unfold walk at h
  dsimp only at h
  split at h
  · cases h
  split at h
  · cases h
  split at h
  · cases h
  split at h
  · rename_i place hwalk
    cases h
    exact walkFrom_missing _ _ _ hwalk
  · cases h

/-! ## Making directories -/

/-- **Nothing is changed but that directories are made.** -/
structure Grows (d d' : Disk) : Prop where
  here : d'.here = d.here
  terms : d'.terms = d.terms
  entries : ∀ l, d'.entry? l = d.entry? l ∨ d.entry? l = none ∧ d'.entry? l = some .directory

theorem Grows.refl (d : Disk) : d.Grows d := ⟨rfl, rfl, fun _ => .inl rfl⟩

theorem Grows.trans (h : d.Grows d') (h' : d'.Grows d'') : d.Grows d'' := by
  refine ⟨h'.here.trans h.here, h'.terms.trans h.terms, fun l => ?_⟩
  rcases h.entries l with heq | ⟨hnone, hdirectory⟩ <;> rcases h'.entries l with heq' | ⟨hnone', hdirectory'⟩
  · exact .inl (heq'.trans heq)
  · exact .inr ⟨heq ▸ hnone', hdirectory'⟩
  · exact .inr ⟨hnone, heq'.trans hdirectory⟩
  · rw [hdirectory] at hnone'
    cases hnone'

theorem Grows.of_some (h : d.Grows d') {l : Location} {e : Entry} (he : d.entry? l = some e) :
    d'.entry? l = some e := by
  rcases h.entries l with heq | ⟨hnone, -⟩
  · exact heq.trans he
  · rw [hnone] at he
    cases he

theorem makeDirectory_grows {path : Text} (h : d.makeDirectory path = .ok d') : d.Grows d' := by
  obtain ⟨l, ending, hwalk, -, rfl⟩ := makeDirectory_cases h
  refine ⟨rfl, rfl, fun k => ?_⟩
  have hnone := walk_missing hwalk
  by_cases hk : k = []
  · rw [hk, entry?_root, entry?_root]
    exact .inl rfl
  rw [entry?_put _ _ _ hk]
  by_cases heq : k = l
  · subst heq
    exact .inr ⟨hnone, if_pos rfl⟩
  · exact .inl (if_neg heq)

theorem makeDirectories_grows (anchor : Anchor) : ∀ (parts : List Text) (d : Disk),
    d.Grows (d.makeDirectories anchor parts).1
  | [], d => by
    unfold makeDirectories
    split
    · rename_i hmade
      exact makeDirectory_grows hmade
    · exact .refl d
  | part :: outer, d => by
    unfold makeDirectories
    simp only
    split
    · rename_i hmade
      exact makeDirectory_grows hmade
    · split
      · have ih := makeDirectories_grows anchor outer d
        split <;> rename_i houter <;> rw [houter] at ih
        · exact ih
        · split
          · rename_i hmade
            exact ih.trans (makeDirectory_grows hmade)
          · exact ih
      · exact .refl d

/-- **Making sure of a directory changes nothing else**, whether it succeeds or not. -/
theorem ensureParent_grows (d : Disk) (p : Path) : d.Grows (d.ensureParent p).1 := by
  unfold ensureParent
  split
  · exact .refl d
  · exact .refl d
  · exact makeDirectories_grows _ _ d

end Disk
end ScriptDriver.File
