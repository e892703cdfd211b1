import ScriptDriver.Proofs.File.Refusal
import ScriptDriver.Proofs.ResponseFile.Nesting
/-!
# Reference — the tree of references below a command line

A command line refers to files, and what is written in them refers to files in turn.  The leaves of this tree, from left
to right, are what expanding should give (`Leaves`), and they are what it gives unless a path from the root of the tree
(`Chain`) comes back to a file it has been through, or is longer than the depth allows.
-/
namespace ScriptDriver.ResponseFile

open File (Location Disk)

def text? (d : Disk) (name : Text) : Option Text :=
  match d.read name with
  | .ok (_, content) => some (Text.ofBytes content)
  | .error _ => none

/-- The names that arguments refer to, directly or through files. -/
inductive Referred (d : Disk) : List Text → Text → Prop
  | here {args : List Text} {name : Text} (h : referenceTo name ∈ args) : Referred d args name
  | inside {args : List Text} {file text name : Text} (h : referenceTo file ∈ args) (ht : text? d file = some text)
    (more : Referred d (tokens text) name) : Referred d args name

/-- **A chain of references**: a readable file that the arguments refer to, one that is referred to there, and so on. -/
def Chain (d : Disk) : List Text → List Text → Prop
  | _, [] => True
  | args, name :: names =>
    referenceTo name ∈ args ∧ ∃ text, text? d name = some text ∧ Chain d (tokens text) names

/-- **The leaves of the tree of references**, from left to right: a reference to a readable file is replaced by the
leaves of what is written there, and anything else is a leaf. -/
inductive Leaves (d : Disk) : List Text → List Text → Prop
  | nil : Leaves d [] []
  | copied {arg : Text} {args out : List Text} (h : ∀ name, arg = referenceTo name → text? d name = none)
    (more : Leaves d args out) : Leaves d (arg :: args) (arg :: out)
  | replaced {name text : Text} {args inner out : List Text} (h : text? d name = some text)
    (below : Leaves d (tokens text) inner) (more : Leaves d args out) :
    Leaves d (referenceTo name :: args) (inner ++ out)

variable {d : Disk}

/-! ## Looking names up -/

theorem ofDisk_eq_file {name text : Text} {l : Location} :
    ofDisk d name = .file l text ↔ text? d name = some text ∧ d.real name = l := by
  unfold ofDisk text?
  rcases d.read name with e | found
  · cases e <;> simp
  · simp [and_comm]

theorem text?_of_unreadable {name : Text} (h : ofDisk d name = .unreadable) : text? d name = none := by
  cases ht : text? d name with
  | none => rfl
  | some text =>
    rw [ofDisk_eq_file.2 ⟨ht, rfl⟩] at h
    cases h

/-- The names that are no paths are those with a null character. -/
theorem ofDisk_invalid_iff (d : Disk) (name : Text) : (∃ e, ofDisk d name = .invalid e) ↔ 0 ∈ name.toBytes := by
  constructor
  · rintro ⟨e, he⟩
    unfold ofDisk at he
    cases hr : d.read name with
    | ok found =>
      rw [hr] at he
      cases he
    | error fault =>
      rcases Disk.read_error hr with hrefused | ⟨-, hnull⟩
      · rw [hr] at he
        cases fault with
        | refused r => cases he
        | _ => cases hrefused
      · exact hnull
  · intro hnull
    refine ⟨.nullCharacter, ?_⟩
    unfold ofDisk
    rw [Disk.read_of_null hnull]

theorem Referred.mono {args more : List Text} {name : Text} (h : Referred d args name) (hsub : args ⊆ more) :
    Referred d more name := by
  cases h with
  | here h => exact .here (hsub h)
  | inside h ht inner => exact .inside (hsub h) ht inner

/-- Names that contain what the arguments refer to and all that is referred to in their files are all there are. -/
theorem Referred.mem_of_closed {args : List Text} {name : Text} (h : Referred d args name) {names : List Text}
    (hargs : ∀ arg ∈ args, ∀ name ∈ reference? arg, name ∈ names)
    (closed : ∀ file ∈ names, ∀ text ∈ text? d file, ∀ arg ∈ tokens text, ∀ name ∈ reference? arg, name ∈ names) :
    name ∈ names := by
  induction h with
  | here h => exact hargs _ h _ (reference?_referenceTo _)
  | inside h ht _ ih => exact ih (closed _ (hargs _ h _ (reference?_referenceTo _)) _ ht)

/-! ## Leaves -/

theorem Leaves.append {args args' out out' : List Text} (h : Leaves d args out) (h' : Leaves d args' out') :
    Leaves d (args ++ args') (out ++ out') := by
  induction h with
  | nil => exact h'
  | copied hc _ ih => exact .copied hc ih
  | replaced ht below _ _ ih =>
    rw [List.append_assoc]
    exact .replaced ht below ih

theorem Leaves.unique {args out out' : List Text} (h : Leaves d args out) (h' : Leaves d args out') : out = out' := by
  induction h generalizing out' with
  | nil =>
    cases h'
    rfl
  | copied hc _ ih =>
    cases h' with
    | copied _ more => rw [ih more]
    | replaced ht _ _ =>
      rw [hc _ rfl] at ht
      cases ht
  | replaced ht _ _ ihb ihm =>
    cases h' with
    | copied hc _ =>
      rw [hc _ rfl] at ht
      cases ht
    | replaced ht' below more =>
      obtain rfl := Option.some.inj (ht.symm.trans ht')
      rw [ihb below, ihm more]

/-! ## Chains -/

theorem Chain.cons_left {arg : Text} {args : List Text} :
    ∀ {names : List Text}, Chain d [arg] names → Chain d (arg :: args) names
  | [], _ => trivial
  | _ :: _, ⟨h, more⟩ => ⟨List.mem_cons.2 (.inl (List.mem_singleton.1 h)), more⟩

theorem Chain.cons_right {arg : Text} {args : List Text} :
    ∀ {names : List Text}, Chain d args names → Chain d (arg :: args) names
  | [], _ => trivial
  | _ :: _, ⟨h, more⟩ => ⟨List.mem_cons_of_mem arg h, more⟩

/-- A chain below a command line starts at one of its arguments. -/
theorem chain_cons {arg : Text} {args names : List Text} :
    Chain d (arg :: args) names ↔ Chain d [arg] names ∨ Chain d args names := by
  refine ⟨fun h => ?_, fun h => h.elim Chain.cons_left Chain.cons_right⟩
  cases names with
  | nil => exact .inl trivial
  | cons name names =>
    obtain ⟨h, more⟩ := h
    rcases List.mem_cons.1 h with h | h
    · exact .inl ⟨List.mem_singleton.2 h, more⟩
    · exact .inr ⟨h, more⟩

theorem chain_reference {name text : Text} (h : text? d name = some text) {names : List Text} :
    Chain d [referenceTo name] names ↔ names = [] ∨ ∃ rest, names = name :: rest ∧ Chain d (tokens text) rest := by
  cases names with
  | nil => exact ⟨fun _ => .inl rfl, fun _ => trivial⟩
  | cons other rest =>
    constructor
    · rintro ⟨hmem, text', ht, more⟩
      obtain rfl : other = name := by simpa [referenceTo] using hmem
      obtain rfl := Option.some.inj (h.symm.trans ht)
      exact .inr ⟨rest, rfl, more⟩
    · rintro (hnil | ⟨rest', hcons, more⟩)
      · cases hnil
      · cases hcons
        exact ⟨List.mem_singleton.2 rfl, text, h, more⟩

theorem chain_leaf {arg : Text} (h : ∀ name, arg = referenceTo name → text? d name = none) {names : List Text} :
    Chain d [arg] names ↔ names = [] := by
  cases names with
  | nil => exact ⟨fun _ => rfl, fun _ => trivial⟩
  | cons name names =>
    constructor
    · rintro ⟨hmem, text, ht, -⟩
      rw [h name (List.mem_singleton.1 hmem).symm] at ht
      cases ht
    · intro hnil
      cases hnil

/-- **What is asked of a chain** while the files `opened` are being expanded and `room` more may be: that it comes back
to no file, and that it is not too long. -/
structure Fits (d : Disk) (room : Nat) (opened : List Location) (names : List Text) : Prop where
  fresh : ∀ name ∈ names, d.real name ∉ opened
  distinct : (names.map d.real).Nodup
  short : names.length ≤ room

theorem fits_nil (d : Disk) (room : Nat) (opened : List Location) : Fits d room opened [] :=
  ⟨fun _ h => absurd h List.not_mem_nil, List.nodup_nil, Nat.zero_le _⟩

theorem fits_cons {room : Nat} {opened : List Location} {name : Text} (hn : d.real name ∉ opened) {names : List Text} :
    Fits d (room + 1) opened (name :: names) ↔ Fits d room (d.real name :: opened) names := by
  constructor
  · rintro ⟨hf, hd, hs⟩
    rw [List.map_cons, List.nodup_cons] at hd
    refine ⟨fun other ho hmem => ?_, hd.2, Nat.le_of_succ_le_succ hs⟩
    rcases List.mem_cons.1 hmem with heq | hmem
    · exact hd.1 (List.mem_map.2 ⟨other, ho, heq⟩)
    · exact hf other (List.mem_cons_of_mem name ho) hmem
  · rintro ⟨hf, hd, hs⟩
    refine ⟨fun other ho => ?_, ?_, Nat.succ_le_succ hs⟩
    · rcases List.mem_cons.1 ho with rfl | ho
      · exact hn
      · exact fun hmem => hf other ho (List.mem_cons_of_mem _ hmem)
    · rw [List.map_cons, List.nodup_cons]
      refine ⟨fun hmem => ?_, hd⟩
      obtain ⟨other, ho, heq⟩ := List.mem_map.1 hmem
      exact hf other ho (heq ▸ List.mem_cons_self)

/-! ## Expanding -/

/-- **What an expansion is for a command line**: nothing stops it; it skips nothing exactly if all chains fit, and then
it gives the leaves. -/
structure Exact (d : Disk) (room : Nat) (opened : List Location) (args : List Text) (e : Expansion) : Prop where
  fault : e.fault = none
  skipped : e.skipped = [] ↔ ∀ names, Chain d args names → Fits d room opened names
  leaves : e.skipped = [] → Leaves d args e.args

theorem exact_nil (room : Nat) (opened : List Location) : Exact d room opened [] .nothing where
  fault := rfl
  skipped := by
    refine ⟨fun _ names h => ?_, fun _ => rfl⟩
    cases names with
    | nil => exact fits_nil d room opened
    | cons name names => exact absurd h.1 List.not_mem_nil
  leaves := fun _ => .nil

theorem exact_keep {room : Nat} {opened : List Location} {arg : Text}
    (h : ∀ name, arg = referenceTo name → text? d name = none) : Exact d room opened [arg] (.keep arg) where
  fault := rfl
  skipped := by
    refine ⟨fun _ names hc => ?_, fun _ => rfl⟩
    rw [(chain_leaf h).1 hc]
    exact fits_nil d room opened
  leaves := fun _ => .copied h .nil

theorem exact_skip {room : Nat} {opened : List Location} {name text : Text} (h : text? d name = some text)
    (hs : room = 0 ∨ d.real name ∈ opened) : Exact d room opened [referenceTo name] (.skip name) where
  fault := rfl
  skipped := by
    refine ⟨fun hnil => absurd hnil (List.cons_ne_nil name []), fun hall => ?_⟩
    have hfits := hall [name] ((chain_reference h).2 (.inr ⟨[], rfl, trivial⟩))
    rcases hs with rfl | hmem
    · exact absurd hfits.short (by simp)
    · exact absurd hmem (hfits.fresh name List.mem_cons_self)
  leaves := fun hnil => absurd hnil (List.cons_ne_nil name [])

theorem exact_entered {room : Nat} {opened : List Location} {name text : Text} {e : Expansion}
    (h : text? d name = some text) (hn : d.real name ∉ opened)
    (he : Exact d room (d.real name :: opened) (tokens text) e) :
    Exact d (room + 1) opened [referenceTo name] e where
  fault := he.fault
  skipped := by
    rw [he.skipped]
    constructor
    · intro hall names hc
      rcases (chain_reference h).1 hc with rfl | ⟨rest, rfl, more⟩
      · exact fits_nil d _ _
      · exact (fits_cons hn).2 (hall rest more)
    · intro hall rest more
      exact (fits_cons hn).1 (hall (name :: rest) ((chain_reference h).2 (.inr ⟨rest, rfl, more⟩)))
  leaves := fun hnil => by
    have hl := Leaves.replaced h (he.leaves hnil) .nil
    rwa [List.append_nil] at hl

theorem exact_cons {room : Nat} {opened : List Location} {arg : Text} {args : List Text} {a b : Expansion}
    (ha : Exact d room opened [arg] a) (hb : Exact d room opened args b) :
    Exact d room opened (arg :: args) (a.andThen b) := by
  rw [Expansion.andThen_of_ok ha.fault]
  refine ⟨hb.fault, ?_, fun hnil => ?_⟩
  · rw [List.append_eq_nil_iff, ha.skipped, hb.skipped]
    constructor
    · rintro ⟨h1, h2⟩ names hc
      exact (chain_cons.1 hc).elim (h1 names) (h2 names)
    · intro hall
      exact ⟨fun names hc => hall names (chain_cons.2 (.inl hc)), fun names hc => hall names (chain_cons.2 (.inr hc))⟩
  · obtain ⟨hna, hnb⟩ := List.append_eq_nil_iff.1 hnil
    exact (ha.leaves hna).append (hb.leaves hnb)

/-- **Every expansion is exact**, whatever files are being expanded and however much room there is. -/
theorem expandWithin_exact (d : Disk) (room : Nat) (opened : List Location) (args : List Text)
    (clean : ∀ name, Referred d args name → 0 ∉ name.toBytes) :
    Exact d room opened args (expandWithin (ofDisk d) room opened args) := by
  induction room, opened, args using expandWithin_induction (ofDisk d) with
  | nil room opened => exact exact_nil room opened
  | cons room opened arg args a b iha ihb =>
    refine exact_cons (iha fun name h => ?_) (ihb fun name h => ?_)
    · exact clean name (h.mono (List.cons_subset_cons arg (List.nil_subset args)))
    · exact clean name (h.mono (List.subset_cons_self arg args))
  | plain room opened arg hr =>
    refine exact_keep ?_
    rintro name rfl
    cases hr
  | unreadable room opened name hn =>
    -- every reference that this argument is has the same name
    refine exact_keep fun other ho => ?_
    obtain rfl : name = other := (List.cons.inj ho).2
    exact text?_of_unreadable hn
  | invalid room opened name e hn =>
    exact absurd ((ofDisk_invalid_iff d name).1 ⟨e, hn⟩) (clean name (.here List.mem_cons_self))
  | skipped room opened name l text hn hs =>
    obtain ⟨ht, rfl⟩ := ofDisk_eq_file.1 hn
    exact exact_skip ht hs
  | entered room opened name l text e hn hl ih =>
    obtain ⟨ht, rfl⟩ := ofDisk_eq_file.1 hn
    exact exact_entered ht hl (ih fun other ho => clean other (.inside List.mem_cons_self ht ho))

/-- **Expanding is exact.**  As long as no name has a null character, a command line can be expanded; nothing is skipped
exactly if every chain of references comes back to no file and is no longer than the depth; and then the result is the
sequence of leaves of the tree of references. -/
theorem expand_exact (d : Disk) (x : Expander) (argv : List Text)
    (clean : ∀ name, Referred d argv name → 0 ∉ name.toBytes) :
    ∃ args x', x.expand (ofDisk d) argv = (.ok args, x') ∧
      (x'.skipped = x.skipped ↔
        ∀ names ≠ [], Chain d argv names → (names.map d.real).Nodup ∧ (names.length : Int) ≤ x.depth) ∧
      (x'.skipped = x.skipped → ∀ out, Leaves d argv out ↔ out = args) := by
  have hexact := expandWithin_exact d x.depth.toNat [] argv clean
  have hrun : x.expand (ofDisk d) argv = (.ok (expand (ofDisk d) x.depth argv).args,
      { x with skipped := x.skipped ++ (expand (ofDisk d) x.depth argv).skipped }) := by
    unfold Expander.expand
    simp only
    rw [show (expand (ofDisk d) x.depth argv).fault = none from hexact.fault]
  have hnone : x.skipped ++ (expand (ofDisk d) x.depth argv).skipped = x.skipped ↔
      (expand (ofDisk d) x.depth argv).skipped = [] := by simp
  refine ⟨_, _, hrun, hnone.trans (hexact.skipped.trans ⟨fun hall names hne hc => ?_, fun hall names hc => ?_⟩), ?_⟩
  · have hpos := List.length_pos_iff.2 hne
    have hshort := (hall names hc).short
    exact ⟨(hall names hc).distinct, by omega⟩
  · by_cases hne : names = []
    · rw [hne]
      exact fits_nil d _ _
    · obtain ⟨hd, hs⟩ := hall names hne hc
      exact ⟨fun _ _ => List.not_mem_nil, hd, by omega⟩
  · intro h out
    have hl := hexact.leaves (hnone.1 h)
    constructor
    · intro hout
      exact hout.unique hl
    · rintro rfl
      exact hl

/-- A disk with a response file that refers to one file by two names. -/
def linkedDisk : Disk :=
  ⟨[([[0x61]], .file [0x40, 0x62, 0x20, 0x40, 0x63]), ([[0x62]], .file [0x78]), ([[0x63]], .link [0x62])], []⟩

theorem linkedDisk_clean (name : Text) (h : Referred linkedDisk [referenceTo "a"] name) : 0 ∉ name.toBytes := by
  have hclean : ∀ name ∈ (["a", "b", "c"] : List Text), 0 ∉ name.toBytes := by decide
  exact hclean name (h.mem_of_closed (by decide) (by decide))

theorem expand_exact_linked : (∀ name, Referred linkedDisk [referenceTo "a"] name → 0 ∉ name.toBytes) ∧
    ∃ args x', Expander.expand {} (ofDisk linkedDisk) [referenceTo "a"] = (.ok args, x') ∧
      (x'.skipped = [] ↔ ∀ names ≠ [], Chain linkedDisk [referenceTo "a"] names →
        (names.map linkedDisk.real).Nodup ∧ (names.length : Int) ≤ usualDepth) ∧
      (x'.skipped = [] → ∀ out, Leaves linkedDisk [referenceTo "a"] out ↔ out = args) :=
  ⟨linkedDisk_clean, expand_exact linkedDisk {} [referenceTo "a"] linkedDisk_clean⟩

/-- A file that is referred to twice, but not within itself, is expanded both times. -/
example : (Expander.expand {} (ofDisk linkedDisk) [referenceTo "a"]).1 = .ok ["x", "x"] := by rfl

end ScriptDriver.ResponseFile
