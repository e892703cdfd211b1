import ScriptDriver.Proofs.File.LinkFree
/-!
# Written — what is on a disk after a file has been written

On a disk without links a file written in one step holds the bytes of its text.  Nothing else is changed, except that
there is no temporary file of that name any more; if there was one with other names, it is changed under these
(`writeAtomically_moved`).  So where no file has a second name, files that do not look like temporary ones stay as they are
until they are written themselves (`writeAtomically_ok`).
-/
namespace ScriptDriver.File

def temporaryByte : UInt8 := 0x70

/-- **A temporary file ends like one**, whatever its destination. -/
theorem Path.temporary_endsIn (p : Path) : EndsIn p.temporary.toText temporaryByte := by
  refine ⟨?_, by decide, by decide⟩
  have hending : Text.toBytes temporaryEnding = [0x2E, 0x74, 0x6D, temporaryByte] := rfl
  rw [p.temporary_toText, Text.toBytes_append, hending]
  simp only [List.getLast?_append, List.getLast?_cons_cons, List.getLast?_singleton, Option.some_or]

namespace Disk

variable {d d' : Disk} {path : Text} {l : Location} {bytes : List UInt8} {b : UInt8}

/-- **A file at the end of a path**, and its content. -/
structure Holds (d : Disk) (path : Text) (l : Location) (bytes : List UInt8) : Prop where
  leads : d.Leads path l
  entry : d.entry? l = some (.file bytes)

theorem Holds.locate (h : d.Holds path l bytes) (free : d.LinkFree) : d.locate path = .ok (l, .file bytes) := by
  have hplace : d.placeAt l = .found l (.file bytes) .name := by
    unfold placeAt
    rw [h.entry]
  unfold Disk.locate
  rw [walk_of_leads free h.leads, hplace]

theorem Holds.read (h : d.Holds path l bytes) (free : d.LinkFree) : d.read path = .ok (l, bytes) := by
  unfold Disk.read
  rw [h.locate free]

theorem Grows.holds (h : d.Grows d') (held : d.Holds path l bytes) : d'.Holds path l bytes :=
  ⟨h.keeps.leads held.leads, h.of_some held.entry⟩

theorem Leads.ne_root (h : d.Leads path l) : l ≠ [] := by
  cases h
  simp

theorem placeAt_location (d : Disk) (l : Location) : (d.placeAt l).location = l := by
  unfold placeAt
  split <;> rfl

theorem placeAt_entry (d : Disk) (l : Location) : Place.entry? (d.placeAt l) = d.entry? l := by
  unfold placeAt
  split <;> rename_i hentry <;> exact hentry.symm

theorem openNew_ok (free : d.LinkFree) (named : Named path) (h : d.openNew path = .ok (l, d')) :
    d.Leads path l ∧ d.entry? l ≠ some .directory ∧ d' = d.fill l [] := by
  obtain ⟨names, last, cut, plain⟩ := named
  obtain ⟨hwalk, rfl⟩ := openNew_cases h
  obtain ⟨place, hplace, hlocation, hfile⟩ : ∃ place, d.walk true path = .ok place ∧ place.location = l ∧
      place.entry? ≠ some .directory := by
    rcases hwalk with ⟨content, hwalk⟩ | ⟨hwalk, -⟩
    · exact ⟨_, hwalk, rfl, nofun⟩
    · exact ⟨_, hwalk, rfl, nofun⟩
  obtain ⟨k, hleads, rfl⟩ := leads_of_walk free cut plain hplace
  rw [placeAt_location] at hlocation
  subst hlocation
  rw [placeAt_entry] at hfile
  exact ⟨hleads, hfile, rfl⟩

/-- **What is moved**, unless both paths lead to the same file. -/
theorem replace_ok (free : d.LinkFree) {source : Text} (named' : Named source) (named : Named path)
    (h : d.replace source path = .ok d') :
    ∃ k l, d.Leads source k ∧ d.Leads path l ∧ (l ∈ d.names k ∧ d' = d ∨ l ∉ d.names k ∧
      ∃ e, d.entry? k = some e ∧ d.entry? l ≠ some .directory ∧ d' = d.rename k l e) := by
  obtain ⟨names, last, cut, plain⟩ := named
  obtain ⟨names', last', cut', plain'⟩ := named'
  obtain ⟨k, e, ending, goal, hstart, hgoal, -, hdone⟩ := replace_cases h
  obtain ⟨k', hk, hplace⟩ := leads_of_walk free cut' plain' hstart
  obtain ⟨l, hl, rfl⟩ := leads_of_walk free cut plain hgoal
  have hlocation := d.placeAt_location k'
  have hentry := d.placeAt_entry k'
  rw [← hplace] at hlocation hentry
  obtain rfl : k = k' := hlocation
  rw [placeAt_location, placeAt_entry] at hdone
  refine ⟨k, l, hk, hl, hdone.imp_right ?_⟩
  rintro ⟨hother, -, hfile, rfl⟩
  exact ⟨hother, e, hentry.symm, hfile, rfl⟩

/-- **Nothing is changed but what is at some locations.** -/
structure SameBut (d d' : Disk) (changed : List Location) : Prop where
  here : d'.here = d.here
  shut : d'.terms.shut = d.terms.shut
  fixed : d'.terms.fixed = d.terms.fixed
  unshared : d.Unshared → d'.Unshared
  entries : ∀ j, j ∉ changed → d'.entry? j = d.entry? j

theorem fill_sameBut (d : Disk) (l : Location) (content : List UInt8) : d.SameBut (d.fill l content) (d.names l) := by
  refine ⟨fill_here d l content, by rw [fill_terms], by rw [fill_terms], fun h => fill_unshared h l content,
    fun j hj => ?_⟩
  by_cases hroot : j = []
  · rw [hroot, entry?_root, entry?_root]
  · rw [entry?_fill _ _ _ hroot, if_neg hj]

theorem rename_sameBut (d : Disk) (k l : Location) (e : Entry) : d.SameBut (d.rename k l e) [l, k] := by
  refine ⟨rfl, rfl, rfl, fun h => rename_unshared h k l e, fun j hj => ?_⟩
  by_cases hroot : j = []
  · rw [hroot, entry?_root, entry?_root]
  · simp only [List.mem_cons, List.not_mem_nil, or_false, not_or] at hj
    rw [entry?_rename _ _ _ _ hroot, if_neg hj.1, if_neg hj.2]

section
variable {changed more : List Location}

theorem SameBut.trans {d'' : Disk} (h : d.SameBut d' changed) (h' : d'.SameBut d'' changed) : d.SameBut d'' changed :=
  ⟨h'.here.trans h.here, h'.shut.trans h.shut, h'.fixed.trans h.fixed, fun hu => h'.unshared (h.unshared hu),
    fun j hj => (h'.entries j hj).trans (h.entries j hj)⟩

theorem SameBut.mono (h : d.SameBut d' changed) (sub : changed ⊆ more) : d.SameBut d' more :=
  ⟨h.here, h.shut, h.fixed, h.unshared, fun j hj => h.entries j fun hmem => hj (sub hmem)⟩

theorem SameBut.keeps (h : d.SameBut d' changed) (files : ∀ j ∈ changed, d.entry? j ≠ some .directory) : d.Keeps d' := by
  refine ⟨h.here, h.shut, fun j hj => ?_⟩
  rw [h.entries j fun hmem => files j hmem hj, hj]

theorem SameBut.keeps_back (h : d.SameBut d' changed) (files : ∀ j ∈ changed, d'.entry? j ≠ some .directory) :
    d'.Keeps d := by
  refine ⟨h.here.symm, h.shut.symm, fun j hj => ?_⟩
  rw [← h.entries j fun hmem => files j hmem hj, hj]

theorem SameBut.linkFree (h : d.SameBut d' changed) (free : d.LinkFree)
    (noLinks : ∀ j ∈ changed, ∀ target, d'.entry? j ≠ some (.link target)) : d'.LinkFree := by
  intro j target hj
  by_cases hmem : j ∈ changed
  · exact noLinks j hmem target hj
  · rw [h.entries j hmem] at hj
    exact free j target hj

end

theorem ne_root_of_mem_names {k j : Location} (hk : k ≠ []) (h : j ∈ d.names k) : j ≠ [] := by
  rcases mem_names.1 h with rfl | ⟨-, hfile⟩
  · exact hk
  · exact ne_root_of_isFileAt hfile

theorem files_of_names {k : Location} (hfile : d.entry? k ≠ some .directory) :
    ∀ j ∈ d.names k, d.entry? j ≠ some .directory := by
  intro j hj
  rcases entry?_of_mem_names hj with rfl | ⟨content, hcontent⟩
  · exact hfile
  · rw [hcontent]
    exact nofun

/-! ## One file at the end of a path -/

/-- Nothing is there, or a file. -/
def AtMostFile (d : Disk) (l : Location) : Prop := d.entry? l = none ∨ ∃ content, d.entry? l = some (.file content)

theorem AtMostFile.not_directory (h : d.AtMostFile l) : d.entry? l ≠ some .directory := by
  rcases h with hnone | ⟨content, hfile⟩
  · simp [hnone]
  · simp [hfile]

theorem AtMostFile.not_link (h : d.AtMostFile l) (target : List UInt8) : d.entry? l ≠ some (.link target) := by
  rcases h with hnone | ⟨content, hfile⟩
  · simp [hnone]
  · simp [hfile]

theorem atMostFile_of_linkFree (free : d.LinkFree) (h : d.entry? l ≠ some .directory) : d.AtMostFile l := by
  cases hentry : d.entry? l with
  | none => exact .inl hentry
  | some e =>
    cases e with
    | file content => exact .inr ⟨content, hentry⟩
    | directory => exact absurd hentry h
    | link target => exact absurd hentry (free l target)

/-- A name of the file that a path leads to. -/
def NameOf (d : Disk) (path : Text) (j : Location) : Prop := ∃ k, d.Leads path k ∧ j ∈ d.names k

/-- **Nothing is changed but a file at the end of a path**, under all of its names, if anything is. -/
inductive OnlyAt (d d' : Disk) (path : Text) : Prop where
  | untouched (same : d' = d)
  | touched {k : Location} (leads : d.Leads path k) (before : d.AtMostFile k) (after : ∀ j ∈ d.names k, d'.AtMostFile j)
      (names : ∀ j ∈ d'.names k, j ∈ d.names k) (others : d.SameBut d' (d.names k))

namespace OnlyAt

theorem sameBut (h : d.OnlyAt d' path) : ∃ changed, d.SameBut d' changed := by
  cases h with
  | untouched same => exact ⟨[], by rw [same], by rw [same], by rw [same], fun hu => by rwa [same], fun j _ => by rw [same]⟩
  | touched _ _ _ _ others => exact ⟨_, others⟩

theorem entries (h : d.OnlyAt d' path) {j : Location} (hj : ¬ d.NameOf path j) : d'.entry? j = d.entry? j := by
  cases h with
  | untouched same => rw [same]
  | touched leads _ _ _ others => exact others.entries j fun hmem => hj ⟨_, leads, hmem⟩

theorem linkFree (h : d.OnlyAt d' path) (free : d.LinkFree) : d'.LinkFree := by
  cases h with
  | untouched same => rwa [same]
  | touched _ _ after _ others => exact others.linkFree free fun j hj => (after j hj).not_link

theorem keeps (h : d.OnlyAt d' path) : d.Keeps d' ∧ d'.Keeps d := by
  cases h with
  | untouched same =>
    rw [same]
    exact ⟨⟨rfl, rfl, fun _ h => h⟩, ⟨rfl, rfl, fun _ h => h⟩⟩
  | touched _ before after _ others =>
    exact ⟨others.keeps (files_of_names before.not_directory), others.keeps_back fun j hj => (after j hj).not_directory⟩

theorem trans {d₁ : Disk} (h : d.OnlyAt d₁ path) (h' : d₁.OnlyAt d' path) : d.OnlyAt d' path := by
  have hkeeps := h.keeps
  cases h with
  | untouched same => rwa [same] at h'
  | @touched k leads before after names others =>
    cases h' with
    | untouched same => exact same ▸ .touched leads before after names others
    | touched leads' before' after' names' others' =>
      obtain rfl := leads.unique (hkeeps.2.leads leads')
      refine .touched leads before (fun j hj => ?_) (fun j hj => names j (names' j hj)) (others.trans (others'.mono names))
      by_cases hmem : j ∈ d₁.names k
      · exact after' j hmem
      · unfold AtMostFile
        rw [others'.entries j hmem]
        exact after j hj

end OnlyAt

/-- **A disk without links of either kind**: nothing stands for something else, and no file has a second name. -/
structure Unlinked (d : Disk) : Prop where
  free : d.LinkFree
  unshared : d.Unshared

theorem Grows.unlinked (h : d.Grows d') (unlinked : d.Unlinked) : d'.Unlinked :=
  ⟨h.linkFree unlinked.free, by rw [Unshared, h.terms]; exact unlinked.unshared⟩

theorem OnlyAt.unlinked (h : d.OnlyAt d' path) (unlinked : d.Unlinked) : d'.Unlinked := by
  obtain ⟨changed, hsame⟩ := h.sameBut
  exact ⟨h.linkFree unlinked.free, hsame.unshared unlinked.unshared⟩

/-- A file stays as it is while another one is changed. -/
theorem OnlyAt.holds (h : d.OnlyAt d' path) (unshared : d.Unshared) {other : Text} {l : Location} {bytes : List UInt8}
    (held : d.Holds other l bytes) (apart : ∀ k, d'.Leads path k → k ≠ l) : d'.Holds other l bytes := by
  refine ⟨h.keeps.1.leads held.leads, ?_⟩
  rw [h.entries, held.entry]
  rintro ⟨k, hk, hmem⟩
  rw [names_of_unshared unshared, List.mem_singleton] at hmem
  exact apart k (h.keeps.1.leads hk) hmem.symm

/-- **What a change to one file leaves** where no file has a second name: the file, every directory, and everything else
that does not look like a temporary file. -/
structure Wrote (d d' : Disk) (path : Text) (l : Location) (bytes : List UInt8) : Prop where
  holds : d'.Holds path l bytes
  keeps : d.Keeps d'
  unlinked : d'.Unlinked
  others : ∀ j, j ≠ l → j.finalByte? ≠ some temporaryByte → d'.entry? j = d.entry? j

/-- The disk with these bytes in the file at `k`, which is emptied first. -/
def written (d : Disk) (k : Location) (bytes : List UInt8) : Disk := (d.fill k []).fill k bytes

theorem write_ok (free : d.LinkFree) (named : Named path) {charset : Charset} {t : Text}
    (h : d.write path charset t = (d', none)) :
    ∃ l bytes, charset.encode t = .ok bytes ∧ d.Leads path l ∧ d.entry? l ≠ some .directory ∧
      d' = d.written l bytes := by
  unfold write at h
  cases hopen : d.openNew path with
  | error e =>
    rw [hopen] at h
    cases h
  | ok opened =>
    obtain ⟨l, d₁⟩ := opened
    obtain ⟨hleads, hfile, rfl⟩ := openNew_ok free named hopen
    rw [hopen] at h
    dsimp only at h
    cases hencode : charset.encode t with
    | error e =>
      rw [hencode] at h
      cases h
    | ok bytes =>
      rw [hencode] at h
      cases h
      exact ⟨l, bytes, rfl, hleads, hfile, rfl⟩

/-- A text is written in one step only if it can be written. -/
theorem encode_of_writeAtomically {p : Path} {charset : Charset} {t : Text}
    (h : d.writeAtomically p charset t = (d', none)) : ∃ bytes, charset.encode t = .ok bytes := by
  cases hencode : charset.encode t with
  | ok bytes => exact ⟨bytes, rfl⟩
  | error e =>
    have hwrite : ∀ (d : Disk) (path : Text), ∃ d' e, d.write path charset t = (d', some e) := by
      intro d path
      unfold write
      rw [hencode]
      cases d.openNew path <;> exact ⟨_, _, rfl⟩
    unfold writeAtomically writeAndReplace at h
    obtain ⟨d₁, e₁, hfailed⟩ := hwrite d p.temporary.toText
    rw [hfailed] at h
    split at h <;> cases h

/-! ## Writing in one step -/

/-- The disk after that file has been moved to `l`, which is nothing if it is there already. -/
def moved (d : Disk) (k l : Location) (bytes : List UInt8) : Disk :=
  if l ∈ d.names k then d.written k bytes else (d.written k bytes).rename k l (.file bytes)

theorem mem_names_written {k j : Location} (bytes : List UInt8) : j ∈ (d.written k bytes).names k ↔ j ∈ d.names k :=
  (mem_names_fill bytes).trans (mem_names_fill [])

theorem written_sameBut (d : Disk) (k : Location) (bytes : List UInt8) : d.SameBut (d.written k bytes) (d.names k) :=
  (fill_sameBut d k []).trans ((fill_sameBut _ k bytes).mono fun _ => (mem_names_fill []).1)

theorem moved_sameBut (d : Disk) (k l : Location) (bytes : List UInt8) :
    d.SameBut (d.moved k l bytes) (l :: d.names k) := by
  have hwritten := (written_sameBut d k bytes).mono (List.subset_cons_self l _)
  unfold moved
  split
  · exact hwritten
  · refine hwritten.trans ((rename_sameBut _ k l _).mono ?_)
    exact List.cons_subset_cons l (List.cons_subset.2 ⟨d.self_mem_names k, List.nil_subset _⟩)

section
variable {k : Location} (hk : k ≠ []) (bytes : List UInt8)
include hk

theorem written_entry {j : Location} (hj : j ∈ d.names k) : entry? (d.written k bytes) j = some (.file bytes) := by
  unfold written
  rw [entry?_fill _ _ _ (ne_root_of_mem_names hk hj), if_pos ((mem_names_fill []).2 hj)]

theorem written_linkFree (free : d.LinkFree) : (d.written k bytes).LinkFree := by
  refine (written_sameBut d k bytes).linkFree free fun j hj target => ?_
  rw [written_entry hk bytes hj]
  exact nofun

theorem written_keeps (hfile : d.entry? k ≠ some .directory) :
    d.Keeps (d.written k bytes) ∧ (d.written k bytes).Keeps d := by
  refine ⟨(written_sameBut d k bytes).keeps (files_of_names hfile), (written_sameBut d k bytes).keeps_back fun j hj => ?_⟩
  rw [written_entry hk bytes hj]
  exact nofun

variable {l : Location} (hl : l ≠ [])
include hl

/-- **What is where after the move.** -/
theorem moved_entry (j : Location) : entry? (d.moved k l bytes) j =
    if j = l then some (.file bytes) else if j = k ∧ l ∉ d.names k then none
    else if j ∈ d.names k then some (.file bytes) else d.entry? j := by
  have hwritten : j ≠ [] → entry? (d.written k bytes) j = if j ∈ d.names k then some (.file bytes) else d.entry? j := by
    intro hj
    by_cases hmem : j ∈ d.names k
    · rw [if_pos hmem, written_entry hk bytes hmem]
    · rw [if_neg hmem, (written_sameBut d k bytes).entries j hmem]
  by_cases hroot : j = []
  · subst hroot
    rw [entry?_root, entry?_root, if_neg hl.symm, if_neg fun h => hk h.1.symm,
      if_neg fun h => ne_root_of_mem_names hk h rfl]
  unfold moved
  by_cases hsame : l ∈ d.names k
  · have hstays : ¬ (j = k ∧ l ∉ d.names k) := fun h => h.2 hsame
    rw [if_pos hsame, if_neg hstays, hwritten hroot]
    by_cases hjl : j = l
    · rw [if_pos hjl, if_pos (hjl ▸ hsame)]
    · rw [if_neg hjl]
  · have hgone : (j = k ∧ l ∉ d.names k) = (j = k) := and_iff_left hsame |> propext
    simp only [hgone]
    rw [if_neg hsame, entry?_rename _ _ _ _ hroot, hwritten hroot]

theorem moved_linkFree (free : d.LinkFree) : (d.moved k l bytes).LinkFree := by
  intro j target
  rw [moved_entry hk bytes hl]
  split
  · exact nofun
  split
  · exact nofun
  split
  · exact nofun
  · exact free j target

omit hk hl in
theorem moved_keeps (hfile : d.entry? k ≠ some .directory) (hgoal : d.entry? l ≠ some .directory) :
    d.Keeps (d.moved k l bytes) :=
  (moved_sameBut d k l bytes).keeps (List.forall_mem_cons.2 ⟨hgoal, files_of_names hfile⟩)

end

section
variable (free : d.LinkFree) {k : Location} (hk : d.Leads path k) (hfile : d.entry? k ≠ some .directory)
include free hk hfile

theorem fill_onlyAt (content : List UInt8) : d.OnlyAt (d.fill k content) path := by
  refine .touched hk (atMostFile_of_linkFree free hfile) (fun j hj => .inr ⟨content, ?_⟩)
    (fun j => (mem_names_fill content).1) (fill_sameBut d k content)
  rw [entry?_fill _ _ _ (ne_root_of_mem_names hk.ne_root hj), if_pos hj]

theorem written_onlyAt (bytes : List UInt8) : d.OnlyAt (d.written k bytes) path := by
  refine .touched hk (atMostFile_of_linkFree free hfile) (fun j hj => .inr ⟨bytes, written_entry hk.ne_root bytes hj⟩)
    (fun j => (mem_names_written bytes).1) (written_sameBut d k bytes)

end

/-- **A write changes at most its file**, also if it fails. -/
theorem write_onlyAt (free : d.LinkFree) (named : Named path) (charset : Charset) (t : Text) :
    d.OnlyAt (d.write path charset t).1 path := by
  unfold write
  split
  · exact .untouched rfl
  rename_i k d₁ hopen
  obtain ⟨hk, hfile, rfl⟩ := openNew_ok free named hopen
  split
  · exact fill_onlyAt free hk hfile []
  · exact written_onlyAt free hk hfile _

theorem writeAtomically_steps {p : Path} {charset : Charset} {t : Text}
    (h : d.writeAtomically p charset t = (d', none)) : ∃ d₁, d.write p.temporary.toText charset t = (d₁, none) ∧
      d₁.replace p.temporary.toText p.toText = .ok d' := by
  unfold writeAtomically at h
  split at h
  · cases h
  split at h
  case h_2 => cases h
  rename_i after hreplaced
  cases h
  unfold writeAndReplace at hreplaced
  split at hreplaced
  · cases hreplaced
  rename_i d₁ hwritten
  split at hreplaced
  case h_2 => cases hreplaced
  rename_i after hreplace
  cases hreplaced
  exact ⟨d₁, hwritten, hreplace⟩

/-- **What writing in one step does to a disk** when it succeeds: the temporary file is written and moved. -/
theorem writeAtomically_moved (free : d.LinkFree) {p : Path} (named : Named p.toText) {charset : Charset} {t : Text}
    (h : d.writeAtomically p charset t = (d', none)) :
    ∃ k l bytes, charset.encode t = .ok bytes ∧ d.Leads p.temporary.toText k ∧ d.Leads p.toText l ∧
      d.entry? k ≠ some .directory ∧ d.entry? l ≠ some .directory ∧ d' = d.moved k l bytes := by
  have htemporary := named_of_endsIn p.temporary_endsIn
  obtain ⟨d₁, hwritten, hreplace⟩ := writeAtomically_steps h
  obtain ⟨k, bytes, hencode, hk, hfile, rfl⟩ := write_ok free htemporary hwritten
  -- both paths lead to the same places with the temporary file there as without it
  have hroot := hk.ne_root
  obtain ⟨hkeeps, hback⟩ := written_keeps hroot bytes hfile
  obtain ⟨k', l, hk', hl, hdone⟩ := replace_ok (written_linkFree hroot bytes free) htemporary named hreplace
  obtain rfl := (hkeeps.leads hk).unique hk'
  rw [mem_names_written] at hdone
  refine ⟨k, l, bytes, hencode, hk, hback.leads hl, hfile, ?_⟩
  unfold moved
  rcases hdone with ⟨hsame, rfl⟩ | ⟨hother, e, he, hgoal, rfl⟩
  · exact ⟨files_of_names hfile l hsame, (if_pos hsame).symm⟩
  · rw [show e = .file bytes from
      Option.some.inj (he.symm.trans (written_entry hroot bytes (d.self_mem_names k)))]
    exact ⟨fun hdirectory => hgoal (hkeeps.directories l hdirectory), (if_neg hother).symm⟩

/-- **A file written in one step** holds the bytes of its text, and nothing else is changed where no file has a second
name. -/
theorem writeAtomically_ok (unlinked : d.Unlinked) {p : Path} (ends : EndsIn p.toText b)
    {charset : Charset} {t : Text} (h : d.writeAtomically p charset t = (d', none)) :
    ∃ l bytes, charset.encode t = .ok bytes ∧ d.Wrote d' p.toText l bytes := by
  obtain ⟨k, l, bytes, hencode, hk, hl, hfile, hgoal, rfl⟩ := writeAtomically_moved unlinked.free (named_of_endsIn ends) h
  have hentry := moved_entry (d := d) hk.ne_root bytes hl.ne_root
  have hkeeps := moved_keeps bytes hfile hgoal
  refine ⟨l, bytes, hencode, ?_⟩
  constructor
  case holds => exact ⟨hkeeps.leads hl, by rw [hentry, if_pos rfl]⟩
  case keeps => exact hkeeps
  case unlinked =>
    exact ⟨moved_linkFree hk.ne_root bytes hl.ne_root unlinked.free,
      (moved_sameBut d k l bytes).unshared unlinked.unshared⟩
  case others =>
    intro j hjl hj
    have hjk : j ≠ k := by
      rintro rfl
      exact hj (hk.finalByte? p.temporary_endsIn)
    rw [hentry, if_neg hjl, if_neg fun h => hjk h.1, names_of_unshared unlinked.unshared,
      if_neg (mt List.mem_singleton.1 hjk)]

/-- A file that does not look like a temporary one stays as it is while others are written. -/
theorem Wrote.stays {other : Text} {k : Location} {content : List UInt8} (h : d.Wrote d' path l bytes)
    (held : d.Holds other k content) (ends : EndsIn other b) (hb : b ≠ temporaryByte) (hne : l ≠ k) :
    d'.Holds other k content := by
  refine ⟨h.keeps.leads held.leads, ?_⟩
  rw [h.others k hne.symm, held.entry]
  rw [held.leads.finalByte? ends]
  exact fun heq => hb (Option.some.inj heq)

end Disk
end ScriptDriver.File
