import Mathlib.Data.List.Perm.Subperm
import ScriptDriver.Proofs.File.Tree
/-!
# Canonical — the real path of a directory

Names that lead to a directory lead to it by way of directories and links only (`Follows`).  A link that is being followed
is not met again on the way, since it would have to be as far to the end from there as before; so where the names lead is
also what their real path is (`resolve_eq`).
-/
namespace ScriptDriver.File
namespace Disk

/-- The directory that the target of a link in `cur` is seen from. -/
def seat (cur : Location) (target : List UInt8) : Location := if startsAtRoot target then [] else cur

/-- **Names that lead from `cur` to a directory `l`**, by way of so many links. -/
inductive Follows (d : Disk) : Nat → Location → List Name → Location → Prop where
  | nil {l : Location} : Follows d 0 l [] l
  | stay {n : Nat} {cur l : Location} {name : Name} {rest : List Name} : name = [] ∨ name = [0x2E] →
    Follows d n cur rest l → Follows d n cur (name :: rest) l
  | up {n : Nat} {cur l : Location} {rest : List Name} : Follows d n cur.dropLast rest l →
    Follows d n cur ([0x2E, 0x2E] :: rest) l
  | down {n : Nat} {cur l : Location} {name : Name} {rest : List Name} : name.Plain →
    d.entry? (cur ++ [name]) = some .directory → Follows d n (cur ++ [name]) rest l → Follows d n cur (name :: rest) l
  | link {m n : Nat} {cur inner l : Location} {name : Name} {target : List UInt8} {rest : List Name} :
    d.bars cur = false → name.Plain → d.entry? (cur ++ [name]) = some (.link target) →
    Follows d m (seat cur target) (namesOf target) inner → Follows d n inner rest l →
    Follows d (m + n + 1) cur (name :: rest) l

variable {d : Disk}

namespace Follows

/-- **Where names lead is determined**, and so is the number of links on the way. -/
theorem unique {n n' : Nat} {cur l l' : Location} {names : List Name} (h : d.Follows n cur names l)
    (h' : d.Follows n' cur names l') : n = n' ∧ l = l' := by
  induction h generalizing n' l' with
  | nil =>
    cases h'
    exact ⟨rfl, rfl⟩
  | stay hstay _ ih =>
    cases h' with
    | stay _ h' => exact ih h'
    | up => simp at hstay
    | down plain | link _ plain => exact absurd hstay (not_or.2 ⟨plain.some, plain.noDot⟩)
  | up _ ih =>
    cases h' with
    | stay hstay => simp at hstay
    | up h' => exact ih h'
    | down plain | link _ plain => exact absurd rfl plain.noDots
  | down plain hentry _ ih =>
    cases h' with
    | stay hstay => exact absurd hstay (not_or.2 ⟨plain.some, plain.noDot⟩)
    | up => exact absurd rfl plain.noDots
    | down _ _ h' => exact ih h'
    | link _ _ hlink =>
      rw [hentry] at hlink
      cases hlink
  | link _ plain hentry _ _ ihInner ih =>
    cases h' with
    | stay hstay => exact absurd hstay (not_or.2 ⟨plain.some, plain.noDot⟩)
    | up => exact absurd rfl plain.noDots
    | down _ hdirectory =>
      rw [hentry] at hdirectory
      cases hdirectory
    | link _ _ hlink hinner hrest =>
      rw [hentry] at hlink
      cases hlink
      obtain ⟨rfl, rfl⟩ := ihInner hinner
      obtain ⟨rfl, rfl⟩ := ih hrest
      exact ⟨rfl, rfl⟩

/-- Names after names. -/
theorem split {later : List Name} : ∀ {names : List Name} {n : Nat} {cur l : Location},
    d.Follows n cur (names ++ later) l →
      ∃ m k inner, d.Follows m cur names inner ∧ d.Follows k inner later l ∧ n = m + k
  | [], n, cur, l, h => ⟨0, n, cur, .nil, h, (Nat.zero_add n).symm⟩
  | name :: names, n, cur, l, h => by
    cases h with
    | stay hstay h =>
      obtain ⟨m, k, inner, hnames, hlater, rfl⟩ := split h
      exact ⟨m, k, inner, .stay hstay hnames, hlater, rfl⟩
    | up h =>
      obtain ⟨m, k, inner, hnames, hlater, rfl⟩ := split h
      exact ⟨m, k, inner, .up hnames, hlater, rfl⟩
    | down plain hentry h =>
      obtain ⟨m, k, inner, hnames, hlater, rfl⟩ := split h
      exact ⟨m, k, inner, .down plain hentry hnames, hlater, rfl⟩
    | link entered plain hentry htarget h =>
      obtain ⟨m, k, inner, hnames, hlater, rfl⟩ := split h
      exact ⟨_, k, inner, .link entered plain hentry htarget hnames, hlater, by omega⟩

/-- **What names lead to is a directory** of a tree. -/
theorem directory (tree : d.IsTree) {n : Nat} {cur l : Location} {names : List Name} (h : d.Follows n cur names l)
    (start : d.entry? cur = some .directory) : d.entry? l = some .directory := by
  induction h with
  | nil => exact start
  | stay _ _ ih => exact ih start
  | up _ ih => exact ih (tree.outer start)
  | down _ hentry _ ih => exact ih hentry
  | link _ _ _ _ _ ihInner ih =>
    refine ih (ihInner ?_)
    unfold seat
    split
    · exact d.entry?_root
    · exact start

theorem of_empties : ∀ {names : List Name} {l : Location}, names.all (· = []) = true → d.Follows 0 l names l
  | [], l, _ => .nil
  | name :: names, l, h => by
    obtain ⟨hname, hrest⟩ := Bool.and_eq_true_iff.1 (List.all_cons.symm.trans h)
    exact .stay (.inl (of_decide_eq_true hname)) (of_empties hrest)

/-- Names that lead to a directory without a link. -/
theorem of_along_done {l : Location} {ending : Ending} : ∀ {names : List Name} {cur : Location},
    d.along true cur names = .done (.found l .directory ending) → d.Follows 0 cur names l
  | [], cur, h => by
    cases h
    exact .nil
  | name :: rest, cur, h => by
    by_cases hempty : name = []
    · rw [hempty, along_empty] at h
      exact .stay (.inl hempty) (of_along_done h)
    have entered : d.bars cur = false := entered_of_along true rest hempty (h ▸ nofun)
    rcases name.stay_or_up_or_plain with hstay | rfl | plain
    · rw [along_stay true rest entered hstay] at h
      exact .stay hstay (of_along_done h)
    · rw [along_up true rest entered] at h
      exact .up (of_along_done h)
    · rw [along_plain true rest entered plain] at h
      split at h
      · cases h
      · split at h
        · split at h <;> cases h
        · rename_i hentry
          split at h
          · rename_i hlast
            cases h
            exact .down plain hentry (of_empties hlast)
          · exact .down plain hentry (of_along_done h)
        · split at h <;> cases h
        · split at h <;> cases h

/-- Names up to a link that lead to a directory when the link is followed. -/
theorem of_along_link {n : Nat} {base l : Location} {target : List UInt8} {later : List Name}
    (further : d.Follows n (seat base target) (namesOf target ++ later) l) : ∀ {names : List Name} {cur : Location},
    d.along true cur names = .link base target later → d.Follows (n + 1) cur names l
  | [], cur, h => by cases h
  | name :: rest, cur, h => by
    by_cases hempty : name = []
    · rw [hempty, along_empty] at h
      exact .stay (.inl hempty) (of_along_link further h)
    have entered : d.bars cur = false := entered_of_along true rest hempty (h ▸ nofun)
    rcases name.stay_or_up_or_plain with hstay | rfl | plain
    · rw [along_stay true rest entered hstay] at h
      exact .stay hstay (of_along_link further h)
    · rw [along_up true rest entered] at h
      exact .up (of_along_link further h)
    · rw [along_plain true rest entered plain] at h
      split at h
      · cases h
      · split at h
        · split at h <;> cases h
        · rename_i hentry
          split at h
          · cases h
          · exact .down plain hentry (of_along_link further h)
        · split at h <;> cases h
        · rename_i hentry
          rw [Bool.not_true, Bool.and_false, if_neg Bool.false_ne_true] at h
          cases h
          obtain ⟨m, k, inner, htarget, hlater, rfl⟩ := further.split
          exact .link entered plain hentry htarget hlater

/-- **A path that leads to a directory** leads there by way of directories and links. -/
theorem of_walkFrom {l : Location} {ending : Ending} : ∀ {links : Nat} {cur : Location} {names : List Name},
    d.walkFrom true links cur names = .ok (.found l .directory ending) → ∃ n, d.Follows n cur names l
  | links, cur, names, h => by
    unfold walkFrom at h
    split at h
    · rename_i hdone
      cases h
      exact ⟨0, of_along_done hdone⟩
    · cases h
    · rename_i base target rest hlink
      cases links with
      | zero => cases h
      | succ links =>
        obtain ⟨n, further⟩ := of_walkFrom h
        exact ⟨n + 1, of_along_link further hlink⟩

end Follows

/-! ## The real path -/

/-- Links whose targets are being followed, and all that is still to go lies behind them. -/
def Pending (d : Disk) (n : Nat) (opened : List Location) : Prop :=
  ∀ p ∈ opened, ∃ cur name target m inner, p = cur ++ [name] ∧ d.entry? p = some (.link target) ∧
    d.Follows m (seat cur target) (namesOf target) inner ∧ n ≤ m

theorem Pending.length_le {n : Nat} {opened : List Location} (h : d.Pending n opened) (nodup : opened.Nodup) :
    opened.length ≤ d.entries.length := by
  have hsubset : opened ⊆ d.entries.map Prod.fst := by
    intro p hp
    obtain ⟨cur, name, target, -, -, rfl, hentry, -, -⟩ := h p hp
    rw [entry?_of_some _ (by simp)] at hentry
    obtain ⟨e, he, -⟩ := Option.map_eq_some_iff.1 hentry
    have hloc : e.1 = cur ++ [name] := by simpa using List.find?_some he
    exact List.mem_map.2 ⟨e, List.mem_of_find?_eq_some he, hloc⟩
  have hlength := (nodup.subperm hsubset).length_le
  rwa [List.length_map] at hlength

theorem Pending.mono {n n' : Nat} {opened : List Location} (h : d.Pending n opened) (hle : n' ≤ n) : d.Pending n' opened :=
  fun p hp => by
    obtain ⟨cur, name, target, m, inner, hp, hentry, hfollows, hn⟩ := h p hp
    exact ⟨cur, name, target, m, inner, hp, hentry, hfollows, Nat.le_trans hle hn⟩

/-- A link that is met is not being followed: it would be behind itself. -/
theorem Pending.not_mem {n m : Nat} {opened : List Location} {cur inner : Location} {name : Name} {target : List UInt8}
    (h : d.Pending n opened) (hentry : d.entry? (cur ++ [name]) = some (.link target))
    (hfollows : d.Follows m (seat cur target) (namesOf target) inner) (hlt : m < n) : cur ++ [name] ∉ opened := by
  intro hmem
  obtain ⟨cur', name', target', m', inner', hp, hentry', hfollows', hn⟩ := h _ hmem
  obtain ⟨rfl, hname⟩ := List.append_inj' hp rfl
  rw [hentry] at hentry'
  cases hentry'
  have hm := (hfollows.unique hfollows').1
  omega

/-- **Where names lead is where their real path leads**, with links being followed on the way. -/
theorem realFrom_of_follows {n : Nat} {cur l : Location} {names : List Name} (h : d.Follows n cur names l) :
    ∀ (depth : Nat) {opened : List Location}, d.Pending n opened → opened.Nodup →
      opened.length + depth = d.entries.length + 1 → d.realFrom (depth + 1) opened cur names = .settled l := by
  induction h with
  | nil =>
    intros
    rfl
  | stay hstay _ ih =>
    intro depth opened pending nodup hdepth
    rw [← ih depth pending nodup hdepth, realFrom, realFrom, realAlong, if_pos hstay]
  | up _ ih =>
    intro depth opened pending nodup hdepth
    rw [← ih depth pending nodup hdepth, realFrom, realFrom, realAlong, if_neg (by decide), if_pos rfl]
  | down plain hentry _ ih =>
    intro depth opened pending nodup hdepth
    rw [← ih depth pending nodup hdepth, realFrom, realFrom, realAlong, if_neg (by simp [plain.some, plain.noDot]),
      if_neg plain.noDots]
    -- whether the directory can be seen or not, its name is gone along
    split
    · rename_i hlink
      rw [Option.ite_none_left_eq_some, hentry] at hlink
      cases hlink.2
    · rfl
  | @link m n cur inner l name target rest entered plain hentry hinner _ ihInner ih =>
    intro depth opened pending nodup hdepth
    have hnew : cur ++ [name] ∉ opened := pending.not_mem hentry hinner (by omega)
    have hopened : d.Pending m ((cur ++ [name]) :: opened) := by
      refine List.forall_mem_cons.2 ⟨⟨cur, name, target, m, inner, rfl, hentry, hinner, Nat.le_refl m⟩, ?_⟩
      exact pending.mono (by omega)
    have hnodup : ((cur ++ [name]) :: opened).Nodup := List.nodup_cons.2 ⟨hnew, nodup⟩
    have hlength := hopened.length_le hnodup
    rw [List.length_cons] at hlength
    obtain ⟨depth, rfl⟩ : ∃ k, depth = k + 1 := ⟨depth - 1, by omega⟩
    have hsettled := ihInner depth hopened hnodup (by rw [List.length_cons]; omega)
    rw [← ih _ (pending.mono (by omega)) nodup hdepth, realFrom, realFrom, realAlong,
      if_neg (by simp [plain.some, plain.noDot]), if_neg plain.noDots, entered, hentry]
    have hclosed : opened.contains (cur ++ [name]) = false := by simpa using hnew
    unfold seat at hsettled
    simp only [hclosed, Bool.false_eq_true, if_false, List.dropLast_concat, hsettled]

/-- **A path that leads to a directory**, by way of however many links.  The directories on the way need not be open. -/
structure LeadsInto (d : Disk) (path : Text) (l : Location) : Prop where
  clean : 0 ∉ path.toBytes
  leads : ∃ n, d.Follows n (d.start path) (namesOf path.toBytes) l

theorem LeadsInto.of_walkFrom {path : Text} {l : Location} {links : Nat} {ending : Ending} (clean : 0 ∉ path.toBytes)
    (h : d.walkFrom true links (d.start path) (namesOf path.toBytes) = .ok (.found l .directory ending)) :
    d.LeadsInto path l := ⟨clean, Follows.of_walkFrom h⟩

section
variable (tree : d.IsTree)
include tree

theorem LeadsInto.directory {path : Text} {l : Location} (h : d.LeadsInto path l) : d.entry? l = some .directory := by
  obtain ⟨n, hfollows⟩ := h.leads
  refine hfollows.directory tree ?_
  unfold start
  split
  · exact d.entry?_root
  · exact tree.here

/-- The names of a directory lead to it from any directory that it is in. -/
theorem follows_down : ∀ (down : List Name) {cur : Location}, d.entry? (cur ++ down) = some .directory →
    d.Follows 0 cur down (cur ++ down)
  | [], cur, _ => by
    rw [List.append_nil]
    exact .nil
  | name :: down, cur, h => by
    have hassoc : cur ++ name :: down = cur ++ [name] ++ down := by simp
    rw [hassoc] at h ⊢
    have hinner : d.entry? (cur ++ [name]) = some .directory := tree.above down h
    exact .down (tree.inside hinner).2.toPlain hinner (follows_down down h)

/-- The text of a directory leads to it, however long it is. -/
theorem leadsInto_text {l : Location} (there : d.entry? l = some .directory) : d.LeadsInto l.text l := by
  have hproper := tree.proper there
  have hstart : d.start l.text = [] := rfl
  refine ⟨noNull_text hproper, 0, ?_⟩
  rw [hstart]
  by_cases hl : l = []
  · rw [hl]
    exact .stay (.inl rfl) (.stay (.inl rfl) .nil)
  · rw [namesOf_text hproper hl]
    exact .stay (.inl rfl) (follows_down tree l there)

/-- **A path that leads to a directory is resolved to it.** -/
theorem resolve_eq {path : Path} {l : Location} (h : d.LeadsInto path.toText l) : d.resolve path = .ok l := by
  obtain ⟨n, hfollows⟩ := h.leads
  have hreal : d.real path.toText = l := by
    have hpending : d.Pending n [] := nofun
    have hsettled := realFrom_of_follows hfollows _ hpending List.nodup_nil (Nat.zero_add _)
    unfold start at hsettled
    unfold real
    simp only [hsettled]
  have hnull : path.toText.toBytes.contains 0 = false := by simpa using h.clean
  unfold resolve
  simp only [hnull, hreal, Bool.false_eq_true, if_false]
  -- the real path has no links, so it does not lead round in a circle, whatever else it is refused for
  obtain hfound | ⟨refusal, hnotCircle, hrefused⟩ := locate_text tree (h.directory tree)
  · rw [hfound]
  · rw [hrefused]
    exact if_neg hnotCircle

end

end Disk
end ScriptDriver.File
