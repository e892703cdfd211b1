import ScriptDriver.Proofs.ResponseFile.Reference
/-!
# Leftover — the references that an expansion leaves

Among the arguments that an expansion gives there may be references to files that can be read.  These are the ones that
were skipped, one by one and in the same order (`expand_leftover`).  All other arguments are settled: they stay what they
are however often they are expanded.
-/
namespace ScriptDriver.ResponseFile

open File (Location Disk)

variable {d : Disk}

/-- Whether an argument refers to a file that can be read. -/
def opens (d : Disk) (arg : Text) : Bool := (reference? arg).any fun name => (text? d name).isSome

/-- An argument that stands for itself: no reference, or one to something that cannot be read. -/
def Settled (d : Disk) (arg : Text) : Prop := ∀ name, arg = referenceTo name → ofDisk d name = .unreadable

theorem opens_referenceTo {name : Text} : opens d (referenceTo name) = true ↔ ∃ l text, ofDisk d name = .file l text := by
  simp only [opens, reference?_referenceTo, Option.any_some, Option.isSome_iff_exists, ofDisk_eq_file]
  exact ⟨fun ⟨text, h⟩ => ⟨_, text, h, rfl⟩, fun ⟨_, text, h, _⟩ => ⟨text, h⟩⟩

theorem settled_of_plain {arg : Text} (h : reference? arg = none) : Settled d arg := by
  rintro name rfl
  rw [reference?_referenceTo] at h
  cases h

theorem settled_reference {name : Text} : Settled d (referenceTo name) ↔ ofDisk d name = .unreadable := by
  refine ⟨fun h => h name rfl, fun h other heq => ?_⟩
  obtain rfl : name = other := (List.cons.inj heq).2
  exact h

theorem Settled.opens {arg : Text} (h : Settled d arg) : opens d arg = false := by
  cases hr : reference? arg with
  | none => simp only [ResponseFile.opens, hr, Option.any_none]
  | some name =>
    obtain rfl := reference?_eq_some.1 hr
    rw [← Bool.not_eq_true, opens_referenceTo, settled_reference.1 h]
    rintro ⟨_, _, h⟩
    cases h

/-- **What an expansion leaves**: its arguments are settled or can be opened, and the latter are what it skipped. -/
structure Leftover (d : Disk) (e : Expansion) : Prop where
  settled : ∀ arg ∈ e.args, opens d arg = false → Settled d arg
  skipped : e.args.filter (opens d) = e.skipped.map referenceTo

theorem leftover_keep {arg : Text} (h : Settled d arg) : Leftover d (.keep arg) where
  settled := by
    intro other hother _
    obtain rfl := List.mem_singleton.1 hother
    exact h
  skipped := List.filter_cons_of_neg (by rw [h.opens]; exact Bool.false_ne_true)

theorem leftover_andThen {a b : Expansion} (hok : a.fault = none) (ha : Leftover d a) (hb : Leftover d b) :
    Leftover d (a.andThen b) := by
  rw [Expansion.andThen_of_ok hok]
  refine ⟨fun arg harg => ?_, ?_⟩
  · exact (List.mem_append.1 harg).elim (ha.settled arg) (hb.settled arg)
  · simp only [List.filter_append, List.map_append, ha.skipped, hb.skipped]

theorem expandWithin_leftover (d : Disk) (room : Nat) (opened : List Location) (args : List Text) :
    (expandWithin (ofDisk d) room opened args).fault = none →
      Leftover d (expandWithin (ofDisk d) room opened args) := by
  induction room, opened, args using expandWithin_induction (ofDisk d) with
  | nil room opened => exact fun _ => ⟨fun _ h => absurd h List.not_mem_nil, rfl⟩
  | cons room opened arg args a b iha ihb =>
    intro hok
    obtain ⟨ha, hb⟩ := Expansion.fault_andThen_none.1 hok
    exact leftover_andThen ha (iha ha) (ihb hb)
  | plain room opened arg h => exact fun _ => leftover_keep (settled_of_plain h)
  | unreadable room opened name h => exact fun _ => leftover_keep (settled_reference.2 h)
  | invalid room opened name e h => exact nofun
  | skipped room opened name l text h hs =>
    intro _
    have hopens : opens d (referenceTo name) = true := opens_referenceTo.2 ⟨l, text, h⟩
    refine ⟨fun arg harg hclosed => ?_, List.filter_cons_of_pos hopens⟩
    rw [List.mem_singleton.1 harg, hopens] at hclosed
    cases hclosed
  | entered room opened name l text e h hl ih => exact ih

theorem expandWithin_settled {room : Nat} {opened : List Location} :
    ∀ {args : List Text}, (∀ arg ∈ args, Settled d arg) →
      expandWithin (ofDisk d) room opened args = ⟨args, [], none⟩
  | [], _ => expandWithin_nil
  | arg :: args, h => by
    have hone : expandWithin (ofDisk d) room opened [arg] = .keep arg := by
      cases hr : reference? arg with
      | none => exact expandWithin_plain hr
      | some name =>
        obtain rfl := reference?_eq_some.1 hr
        exact expandWithin_unreadable (settled_reference.1 (h _ List.mem_cons_self))
    rw [expandWithin_cons, hone, expandWithin_settled fun other ho => h other (List.mem_cons_of_mem arg ho)]
    rfl

/-- **Every reference that is left is accounted for.**  As long as no name has a null character, the arguments that a
command line comes to and that refer to readable files are, in order, the references that were skipped.  If none were,
the arguments come to themselves, with whatever depth they are expanded. -/
theorem expand_leftover (d : Disk) (x : Expander) (argv : List Text)
    (clean : ∀ name, Referred d argv name → 0 ∉ name.toBytes) :
    ∃ args names, x.expand (ofDisk d) argv = (.ok args, { x with skipped := x.skipped ++ names }) ∧
      args.filter (opens d) = names.map referenceTo ∧
      (names = [] → ∀ y : Expander, y.expand (ofDisk d) args = (.ok args, y)) := by
  have hok : (expand (ofDisk d) x.depth argv).fault = none := (expandWithin_exact d x.depth.toNat [] argv clean).fault
  have hleft : Leftover d (expand (ofDisk d) x.depth argv) := expandWithin_leftover d _ _ _ hok
  refine ⟨_, (expand (ofDisk d) x.depth argv).skipped, ?_, hleft.skipped, fun hnone y => ?_⟩
  · rw [Expander.expand_eq, Expansion.result_eq_ok.2 ⟨hok, rfl⟩]
  · have hsettled : ∀ arg ∈ (expand (ofDisk d) x.depth argv).args, Settled d arg := fun arg harg => by
      refine hleft.settled arg harg ?_
      have hfilter := hleft.skipped
      rw [hnone, List.map_nil, List.filter_eq_nil_iff] at hfilter
      simpa using hfilter arg harg
    have hsame : expand (ofDisk d) y.depth (expand (ofDisk d) x.depth argv).args =
        ⟨(expand (ofDisk d) x.depth argv).args, [], none⟩ := expandWithin_settled hsettled
    rw [Expander.expand_eq, hsame, List.append_nil]
    rfl

/-- A disk with a response file that refers to itself, to itself by another name, and to a file that is not there. -/
def circularDisk : Disk :=
  ⟨[([[0x61]], .file [0x40, 0x61, 0x20, 0x78, 0x20, 0x40, 0x62, 0x20, 0x40, 0x63]), ([[0x62]], .link [0x61])], []⟩

theorem circularDisk_clean (name : Text) (h : Referred circularDisk [referenceTo "a"] name) : 0 ∉ name.toBytes := by
  have hclean : ∀ name ∈ (["a", "b", "c"] : List Text), 0 ∉ name.toBytes := by decide
  exact hclean name (h.mem_of_closed (by decide) (by decide))

/-- What is left of a reference to the circular file, and the names that are skipped on the way. -/
def circularArgs : List Text := [referenceTo "a", "x", referenceTo "b", referenceTo "c"]

def circularNames : List Text := ["a", "b"]

theorem expand_leftover_circular : (∀ name, Referred circularDisk [referenceTo "a"] name → 0 ∉ name.toBytes) ∧
    Expander.expand {} (ofDisk circularDisk) [referenceTo "a"] = (.ok circularArgs, { skipped := circularNames }) ∧
    circularArgs.filter (opens circularDisk) = circularNames.map referenceTo := by
  obtain ⟨args, names, h, hskipped, -⟩ := expand_leftover circularDisk {} [referenceTo "a"] circularDisk_clean
  have hexpand : Expander.expand {} (ofDisk circularDisk) [referenceTo "a"] =
      (.ok circularArgs, { skipped := circularNames }) := by rfl
  have hboth := Prod.mk.inj (hexpand.symm.trans h)
  obtain rfl : circularArgs = args := Except.ok.inj hboth.1
  obtain rfl : circularNames = names := congrArg Expander.skipped hboth.2
  exact ⟨circularDisk_clean, hexpand, hskipped⟩

end ScriptDriver.ResponseFile
