import ScriptDriver.Proofs.Output.DependencyPath
/-!
# Decomposition — output paths and what they are made of

The path of an output is the directory as an opening, the name of the script and the suffix of the type.  Each of the
three can be read off the path: the opening ends with the last separator, and no two suffixes end alike (`path_eq_iff`).
So outputs lie in their directory, whatever the script is called, and outputs of different types are never the same.
-/
namespace ScriptDriver.Output

/-! ## The last separator and the last dot -/

section
variable {c : Char} {front back : Text}

def Without (c : Char) (t : Text) : Prop := ∀ g ∈ t, g.is c = false

theorem without_or_last (c : Char) : ∀ t : Text,
    Without c t ∨ ∃ front back, t = front ++ .char c :: back ∧ Without c back
  | [] => .inl nofun
  | g :: t => by
    rcases without_or_last c t with h | ⟨front, back, rfl, h⟩
    · cases hg : g.is c with
      | false => exact .inl (List.forall_mem_cons.2 ⟨hg, h⟩)
      | true => exact .inr ⟨[], t, by rw [of_decide_eq_true hg]; rfl, h⟩
    · exact .inr ⟨g :: front, back, rfl, h⟩

theorem takeWhile_reverse (h : Without c back) (rest : Text) :
    (back.reverse ++ rest).takeWhile (!·.is c) = back.reverse ++ rest.takeWhile (!·.is c) :=
  List.takeWhile_append_of_pos fun g hg => by rw [h g (List.mem_reverse.1 hg)]; rfl

theorem dropWhile_reverse (h : Without c back) (rest : Text) :
    (back.reverse ++ .char c :: rest).dropWhile (!·.is c) = .char c :: rest := by
  rw [List.dropWhile_append_of_pos fun g hg => by rw [h g (List.mem_reverse.1 hg)]; rfl,
    List.dropWhile_cons_of_neg (by simp [Glyph.is])]

theorem reverse_last (c : Char) (front back : Text) :
    (front ++ .char c :: back).reverse = back.reverse ++ .char c :: front.reverse := by
  rw [List.reverse_append, List.reverse_cons, List.append_assoc, List.singleton_append]

theorem baseName_of_without (h : Without '/' back) : baseName back = back := by
  have hall := takeWhile_reverse h []
  unfold baseName
  rw [List.append_nil, List.takeWhile_nil, List.append_nil] at hall
  rw [hall, List.reverse_reverse]

theorem baseName_last (h : Without '/' back) : baseName (front ++ .char '/' :: back) = back := by
  unfold baseName
  rw [reverse_last, takeWhile_reverse h, List.takeWhile_cons_of_neg (by simp [Glyph.is]), List.append_nil,
    List.reverse_reverse]

theorem dropExtension_of_without (h : Without '.' back) : dropExtension back = back := by
  unfold dropExtension
  rw [if_neg]
  rw [Bool.not_eq_true, List.any_eq_false]
  exact fun g hg => by rw [h g hg]; exact Bool.false_ne_true

theorem dropExtension_last (h : Without '.' back) : dropExtension (front ++ .char '.' :: back) = front := by
  unfold dropExtension
  rw [if_pos (by simp [Glyph.is]), reverse_last, dropWhile_reverse h, List.drop_one, List.tail_cons,
    List.reverse_reverse]

end

/-! ## Openings -/

/-- What a name can be put after: nothing, or something that ends with a separator. -/
inductive Opening : Text → Prop
  | nothing : Opening []
  | separated (front : Text) : Opening (front ++ [.char '/'])

/-- **A directory as an opening**: a separator is added where there is something and no separator at its end. -/
inductive OpeningOf : Text → Text → Prop
  | nothing : OpeningOf [] []
  | separated (front : Text) : OpeningOf (front ++ [.char '/']) (front ++ [.char '/'])
  | joined (dir : Text) (given : dir ≠ []) (last : dir.getLast? ≠ some (.char '/')) : OpeningOf dir (dir ++ [.char '/'])

theorem openingOf_iff {dir opening : Text} : OpeningOf dir opening ↔ opening = directoryPart dir := by
  unfold directoryPart
  constructor
  · intro h
    cases h with
    | nothing => rfl
    | separated front => rw [if_pos (by simp [Glyph.is])]
    | joined _ given last =>
      have hopen : dir.getLast?.any (·.is '/') = false := by
        cases hdir : dir.getLast? with
        | none => rfl
        | some g => exact decide_eq_false fun heq => last (hdir.trans (congrArg some heq))
      rw [if_neg (by simp [given, hopen])]
  · rintro rfl
    rcases List.eq_nil_or_concat dir with rfl | ⟨front, g, rfl⟩
    · exact .nothing
    · by_cases hg : g = .char '/'
      · subst hg
        simpa [Glyph.is] using OpeningOf.separated front
      · rw [if_neg (by simp [Glyph.is, hg])]
        exact .joined _ (by simp) (by simpa using hg)

theorem OpeningOf.opening {dir opening : Text} (h : OpeningOf dir opening) : Opening opening := by
  cases h with
  | nothing => exact .nothing
  | separated front => exact .separated front
  | joined _ _ _ => exact .separated dir

theorem Opening.baseName_append {opening name : Text} (h : Opening opening) (plain : Without '/' name) :
    baseName (opening ++ name) = name := by
  cases h with
  | nothing => exact baseName_of_without plain
  | separated front =>
    rw [List.append_assoc]
    exact baseName_last plain

/-- **An opening and a name can be told apart.** -/
theorem Opening.append_inj {opening opening' name name' : Text} (h : Opening opening) (h' : Opening opening')
    (plain : Without '/' name) (plain' : Without '/' name') (heq : opening ++ name = opening' ++ name') :
    opening = opening' ∧ name = name' := by
  have hname : name = name' := by
    rw [← h.baseName_append plain, heq, h'.baseName_append plain']
  subst hname
  exact ⟨List.append_cancel_right heq, rfl⟩

theorem exists_opening_baseName (path : Text) :
    ∃ opening, Opening opening ∧ path = opening ++ baseName path := by
  rcases without_or_last '/' path with h | ⟨front, back, rfl, h⟩
  · exact ⟨[], .nothing, (baseName_of_without h).symm⟩
  · refine ⟨front ++ [.char '/'], .separated front, ?_⟩
    rw [baseName_last h, List.append_assoc, List.singleton_append]

/-! ## Stems -/

/-- **The name of a file without its extension**, told by the last separator and the last dot. -/
inductive StemOf : Text → Text → Prop
  | whole {opening name : Text} (opens : Opening opening) (plain : Without '/' name) (noDot : Without '.' name) :
      StemOf (opening ++ name) name
  | extended {opening stem extension : Text} (opens : Opening opening) (plain : Without '/' (stem ++ extension))
      (noDot : Without '.' extension) : StemOf (opening ++ (stem ++ .char '.' :: extension)) stem

theorem without_insert {c d : Char} {front back : Text} (hne : c ≠ d) (h : Without c (front ++ back)) :
    Without c (front ++ .char d :: back) := by
  obtain ⟨hfront, hback⟩ := List.forall_mem_append.1 h
  have hd : (Glyph.char d).is c = false := by simpa [Glyph.is] using hne.symm
  exact List.forall_mem_append.2 ⟨hfront, List.forall_mem_cons.2 ⟨hd, hback⟩⟩

theorem stemOf_iff {path t : Text} : StemOf path t ↔ t = stem path := by
  constructor
  · intro h
    unfold stem
    cases h with
    | whole opens plain noDot => rw [opens.baseName_append plain, dropExtension_of_without noDot]
    | extended opens plain noDot =>
      rw [opens.baseName_append (without_insert (by decide) plain), dropExtension_last noDot]
  · rintro rfl
    obtain ⟨opening, opens, hpath⟩ := exists_opening_baseName path
    have plain : Without '/' (baseName path) := baseName_plain path
    unfold stem
    rcases without_or_last '.' (baseName path) with noDot | ⟨front, back, hname, noDot⟩
    · rw [dropExtension_of_without noDot]
      have hwhole := StemOf.whole opens plain noDot
      rwa [← hpath] at hwhole
    · rw [hname] at hpath plain ⊢
      rw [dropExtension_last noDot, hpath]
      obtain ⟨hfront, hback⟩ := List.forall_mem_append.1 plain
      exact .extended opens (List.forall_mem_append.2 ⟨hfront, (List.forall_mem_cons.1 hback).2⟩) noDot

/-- The name of an output: the stem of a script as it is, or spelled as part of an identifier. -/
inductive NameOf (input : Text) : OutputType → Text → Prop
  | plain {t : Text} (stem : StemOf input t) : NameOf input .dependency t
  | mangled {t : Text} {type : OutputType} (other : type ≠ .dependency) (stem : StemOf input t) :
      NameOf input type (t.map identifierGlyph)

theorem nameOf_iff {input name : Text} {type : OutputType} : NameOf input type name ↔ name = namePart input type := by
  constructor
  · intro h
    cases h with
    | plain hstem => exact stemOf_iff.1 hstem
    | mangled other hstem =>
      rw [stemOf_iff.1 hstem]
      cases type
      case dependency => exact absurd rfl other
      all_goals rfl
  · rintro rfl
    cases type
    case dependency => exact .plain (stemOf_iff.2 rfl)
    all_goals exact .mangled nofun (stemOf_iff.2 rfl)

def InIdentifier (g : Glyph) : Prop :=
  ∃ c, g = .char c ∧ (('a' ≤ c ∧ c ≤ 'z') ∨ ('A' ≤ c ∧ c ≤ 'Z') ∨ ('0' ≤ c ∧ c ≤ '9') ∨ c = '_')

theorem inIdentifier_identifierGlyph (g : Glyph) : InIdentifier (identifierGlyph g) := by
  unfold identifierGlyph
  cases g with
  | raw b => exact ⟨'_', rfl, by simp⟩
  | char c =>
    by_cases h : (Glyph.char c).isAscii Char.isAlphanum = true
    · rw [if_pos h]
      have hc : (c.isUpper || c.isLower || c.isDigit) = true := (Bool.and_eq_true_iff.1 h).2
      refine ⟨c, rfl, ?_⟩
      rw [Bool.or_eq_true, Bool.or_eq_true] at hc
      rcases hc with (hupper | hlower) | hdigit
      · exact .inr (.inl (of_decide_eq_true hupper))
      · exact .inl ((Bool.and_eq_true_iff.1 hlower).imp of_decide_eq_true of_decide_eq_true)
      · exact .inr (.inr (.inl ((Bool.and_eq_true_iff.1 hdigit).imp of_decide_eq_true of_decide_eq_true)))
    · rw [if_neg h]
      exact ⟨'_', rfl, by simp⟩

theorem InIdentifier.plain {g : Glyph} (h : InIdentifier g) : g.is '/' = false := by
  obtain ⟨c, rfl, h⟩ := h
  refine decide_eq_false fun heq => ?_
  cases heq
  revert h
  decide

theorem namePart_identifier {input : Text} {type : OutputType} (h : type ≠ .dependency) :
    ∀ g ∈ namePart input type, InIdentifier g := by
  have hname : namePart input type = (stem input).map identifierGlyph := by
    cases type
    case dependency => exact absurd rfl h
    all_goals rfl
  intro g hg
  rw [hname] at hg
  obtain ⟨g', -, rfl⟩ := List.mem_map.1 hg
  exact inIdentifier_identifierGlyph g'

theorem namePart_plain (input : Text) (type : OutputType) : Without '/' (namePart input type) := by
  intro g hg
  by_cases h : type = .dependency
  · subst h
    exact baseName_plain input g (mem_of_mem_dropExtension hg)
  · exact (namePart_identifier h g hg).plain

/-! ## Suffixes -/

section
variable {type type' : OutputType}

theorem suffix_plain (type : OutputType) : Without '/' (suffix type) := by
  unfold Without
  cases type <;> decide

theorem getLast?_suffix (real : type ≠ .nothing) (name : Text) :
    (name ++ suffix type).getLast? = (suffix type).getLast? := by
  cases type
  case nothing => exact absurd rfl real
  all_goals exact List.getLast?_append.trans rfl

theorem suffix_inj (h : (suffix type).getLast? = (suffix type').getLast?) : type = type' := by
  revert h
  cases type <;> cases type' <;> decide

/-- **A name and a suffix can be told apart**, by what the suffix ends with. -/
theorem append_suffix_inj {name name' : Text} (real : type ≠ .nothing) (real' : type' ≠ .nothing)
    (h : name ++ suffix type = name' ++ suffix type') : type = type' ∧ name = name' := by
  have hlast := congrArg List.getLast? h
  rw [getLast?_suffix real, getLast?_suffix real'] at hlast
  obtain rfl := suffix_inj hlast
  exact ⟨rfl, List.append_cancel_right h⟩

end

/-! ## Paths -/

/-- **What the path of an output is made of.** -/
structure Parts (dir input : Text) (type : OutputType) (opening name : Text) : Prop where
  real : type ≠ .nothing
  path : Output.path dir input type = opening ++ name ++ suffix type
  opens : OpeningOf dir opening
  named : NameOf input type name
  plain : Without '/' name
  identifier : type ≠ .dependency → ∀ g ∈ name, InIdentifier g

section
variable {dir dir' input input' opening opening' name name' : Text} {type type' : OutputType}

theorem path_parts (real : type ≠ .nothing) : Parts dir input type (directoryPart dir) (namePart input type) where
  real := real
  path := if_neg real
  opens := openingOf_iff.2 rfl
  named := nameOf_iff.2 rfl
  plain := namePart_plain input type
  identifier := namePart_identifier

theorem Parts.last_plain (h : Parts dir input type opening name) : Without '/' (name ++ suffix type) :=
  List.forall_mem_append.2 ⟨h.plain, suffix_plain type⟩

/-- **Output paths are equal only if all of their parts are.** -/
theorem Parts.path_eq_iff (h : Parts dir input type opening name) (h' : Parts dir' input' type' opening' name') :
    Output.path dir input type = Output.path dir' input' type' ↔ type = type' ∧ opening = opening' ∧ name = name' := by
  rw [h.path, h'.path]
  constructor
  · intro heq
    rw [List.append_assoc, List.append_assoc] at heq
    obtain ⟨hopening, hrest⟩ := h.opens.opening.append_inj h'.opens.opening h.last_plain h'.last_plain heq
    obtain ⟨htype, hname⟩ := append_suffix_inj h.real h'.real hrest
    exact ⟨htype, hopening, hname⟩
  · rintro ⟨rfl, rfl, rfl⟩
    rfl

end

/-! ## Directories -/

theorem splitOn_separated : ∀ front : Text,
    Text.splitOn File.isSeparator (front ++ [.char '/']) = Text.splitOn File.isSeparator front ++ [[]]
  | [] => rfl
  | g :: front => by
    have ih := splitOn_separated front
    obtain ⟨pieces, last, hcut, -⟩ := File.splitOn_append File.isSeparator front
    rw [List.cons_append, Text.splitOn, Text.splitOn, ih, hcut]
    cases pieces <;> cases File.isSeparator g <;> rfl

theorem Opening.ofText_append {opening name : Text} (h : Opening opening) (given : name ≠ []) (dot : name ≠ ".")
    (plain : Without '/' name) : File.Path.ofText (opening ++ name) =
      { File.Path.ofText opening with parts := (File.Path.ofText opening).parts ++ [name] } := by
  have htold := File.Path.telling_of_told given dot
  have hparts : (File.Path.ofText (opening ++ name)).parts = (File.Path.ofText opening).parts ++ [name] := by
    show File.Path.telling (Text.splitOn File.isSeparator (opening ++ name)) =
      File.Path.telling (Text.splitOn File.isSeparator opening) ++ [name]
    obtain ⟨pieces, last, hcut, happend⟩ := File.splitOn_append File.isSeparator opening
    rw [happend name plain, hcut]
    have hlast : [last] = [[]] := by
      cases h with
      | nothing => exact (List.append_inj' (hcut.symm.trans (List.nil_append [[]]).symm) rfl).2
      | separated front => exact (List.append_inj' (hcut.symm.trans (splitOn_separated front)) rfl).2
    rw [List.singleton_inj.1 hlast, List.nil_append, File.Path.telling_append, File.Path.telling_append, htold]
    exact congrArg (· ++ [name]) (List.append_nil _).symm
  exact File.Path.mk.injEq .. ▸ ⟨File.Path.anchorOf_append opening given plain, hparts⟩

theorem OpeningOf.ofText_eq {dir opening : Text} (h : OpeningOf dir opening) :
    File.Path.ofText opening = File.Path.ofText dir := by
  cases h with
  | nothing => rfl
  | separated front => rfl
  | joined _ given last =>
    have hanchor : File.Path.anchorOf (dir ++ [.char '/']) = File.Path.anchorOf dir := by
      unfold File.Path.anchorOf
      rw [List.takeWhile_append, if_neg]
      -- a directory that is nothing but separators would end with one
      intro hall
      have hself := (List.takeWhile_prefix File.isSeparator).eq_of_length hall
      obtain ⟨g, hg⟩ := Option.ne_none_iff_exists'.1 (mt List.getLast?_eq_none_iff.1 given)
      have hsep : File.isSeparator g = true :=
        List.all_eq_true.1 (hself ▸ List.all_takeWhile) g (List.mem_of_getLast? hg)
      exact last (hg.trans (congrArg some (of_decide_eq_true hsep)))
    have hparts : (File.Path.ofText (dir ++ [.char '/'])).parts = (File.Path.ofText dir).parts := by
      show File.Path.telling (Text.splitOn File.isSeparator (dir ++ [.char '/'])) = _
      rw [splitOn_separated, File.Path.telling_append]
      exact List.append_nil _
    exact File.Path.mk.injEq .. ▸ ⟨hanchor, hparts⟩

/-- **An output lies in its directory**, whatever the script is called. -/
theorem Parts.ofText_path {dir input opening name : Text} {type : OutputType}
    (h : Parts dir input type opening name) : File.Path.ofText (Output.path dir input type) =
      { File.Path.ofText dir with parts := (File.Path.ofText dir).parts ++ [name ++ suffix type] } := by
  have hlast : (name ++ suffix type).getLast? = (suffix type).getLast? := getLast?_suffix h.real name
  have hends : (suffix type).getLast? ≠ none ∧ (suffix type).getLast? ≠ some (.char '.') := by
    have hreal := h.real
    revert hreal
    cases type <;> decide
  have given : name ++ suffix type ≠ [] := fun heq => hends.1 (hlast ▸ heq ▸ rfl)
  have dot : name ++ suffix type ≠ "." := fun heq => hends.2 (hlast ▸ heq ▸ rfl)
  rw [h.path, List.append_assoc, h.opens.opening.ofText_append given dot h.last_plain, h.opens.ofText_eq]

theorem parent_path {dir input : Text} {type : OutputType} (real : type ≠ .nothing) :
    (File.Path.ofText (path dir input type)).parent = File.Path.ofText dir := by
  rw [(path_parts real).ofText_path]
  exact File.Path.mk.injEq .. ▸ ⟨rfl, List.dropLast_concat⟩

/-! ## Plans -/

theorem primary_parts {s : Settings} (real : s.outputType ≠ .nothing) (input : Text) : Parts s.outputDir input
    s.outputType (directoryPart s.outputDir) (namePart input s.outputType) := path_parts real

theorem outputs_mem {s : Settings} {inputs : List Text} {output : Text × Text}
    (h : output ∈ (plan s inputs).outputs) : output.2 = primary s output.1 := by
  obtain ⟨input, -, rfl⟩ := List.mem_map.1 h
  rfl

/-- Whichever half of a pair the run produces, one half is a path of bitcode and the other one of a dependency file. -/
theorem dependencies_mem {s : Settings} {inputs : List Text} {pair : Text × Text}
    (h : pair ∈ (plan s inputs).dependencies) : ∃ dir dir' input,
      pair = (path dir input .bitcode, path dir' input .dependency) := by
  have hpair : pair ∈ if s.withDependencies then inputs.map fun input => dependencyPair s input (primary s input)
      else [] := h
  split at hpair
  · obtain ⟨input, -, rfl⟩ := List.mem_map.1 hpair
    unfold dependencyPair primary
    by_cases hbitcode : s.outputType = .bitcode
    · exact ⟨s.outputDir, s.dependencyDir, input, by simp [hbitcode]⟩
    · by_cases hdependency : s.outputType = .dependency
      · exact ⟨s.dependencyDir, s.outputDir, input, by simp [hdependency]⟩
      · exact ⟨s.dependencyDir, s.dependencyDir, input, by simp [hbitcode, hdependency]⟩
  · cases hpair

/-- Bitcode is never a dependency file, wherever they lie and whatever they are named after. -/
theorem bitcode_ne_dependency (dir input dir' input' : Text) :
    path dir input .bitcode ≠ path dir' input' .dependency := by
  intro heq
  have hparts : Parts dir input .bitcode _ _ := path_parts nofun
  have hparts' : Parts dir' input' .dependency _ _ := path_parts nofun
  cases ((hparts.path_eq_iff hparts').1 heq).1

/-- **What a plan keeps apart**: bitcode and dependency files, and the outputs of scripts with different names. -/
structure KeepsApart (s : Settings) (inputs : List Text) : Prop where
  halves : ∀ pair ∈ (plan s inputs).dependencies, ∀ pair' ∈ (plan s inputs).dependencies, pair.1 ≠ pair'.2
  bitcode : s.outputType = .bitcode →
    ∀ output ∈ (plan s inputs).outputs, ∀ pair ∈ (plan s inputs).dependencies, output.2 ≠ pair.2
  dependency : s.outputType = .dependency →
    ∀ output ∈ (plan s inputs).outputs, ∀ pair ∈ (plan s inputs).dependencies, pair.1 ≠ output.2
  shared : s.outputType ≠ .nothing →
    ∀ output ∈ (plan s inputs).outputs, ∀ output' ∈ (plan s inputs).outputs, output.2 = output'.2 ↔
      ∃ name, NameOf output.1 s.outputType name ∧ NameOf output'.1 s.outputType name

theorem keepsApart (s : Settings) (inputs : List Text) : KeepsApart s inputs := by
  constructor
  case halves =>
    intro pair hpair pair' hpair'
    obtain ⟨dir, -, input, rfl⟩ := dependencies_mem hpair
    obtain ⟨-, dir', input', rfl⟩ := dependencies_mem hpair'
    exact bitcode_ne_dependency _ _ _ _
  case bitcode =>
    intro htype output houtput pair hpair
    obtain ⟨-, dir', input', rfl⟩ := dependencies_mem hpair
    rw [outputs_mem houtput, primary, htype]
    exact bitcode_ne_dependency _ _ _ _
  case dependency =>
    intro htype output houtput pair hpair
    obtain ⟨dir, -, input, rfl⟩ := dependencies_mem hpair
    rw [outputs_mem houtput, primary, htype]
    exact bitcode_ne_dependency _ _ _ _
  case shared =>
    intro real output houtput output' houtput'
    rw [outputs_mem houtput, outputs_mem houtput', primary, primary,
      (primary_parts real output.1).path_eq_iff (primary_parts real output'.1)]
    constructor
    · rintro ⟨-, -, hname⟩
      exact ⟨_, nameOf_iff.2 rfl, nameOf_iff.2 hname⟩
    · rintro ⟨name, hname, hname'⟩
      exact ⟨rfl, rfl, (nameOf_iff.1 hname).symm.trans (nameOf_iff.1 hname')⟩

/-- **Output paths decompose uniquely**: into a directory, a name without separators and a suffix.  So no output lies
outside its directory, and outputs of a plan are the same file name only where their scripts have the same name. -/
theorem path_decomposes :
    (∀ (dir input : Text) (type : OutputType), type ≠ .nothing → ∃ opening name, Parts dir input type opening name) ∧
    (∀ (dir input opening name dir' input' opening' name' : Text) (type type' : OutputType),
      Parts dir input type opening name → Parts dir' input' type' opening' name' →
        (path dir input type = path dir' input' type' ↔ type = type' ∧ opening = opening' ∧ name = name')) ∧
    (∀ (dir input : Text) (type : OutputType), type ≠ .nothing →
      (File.Path.ofText (path dir input type)).parent = File.Path.ofText dir) ∧
    ∀ (s : Settings) (inputs : List Text), KeepsApart s inputs := by
  refine ⟨fun dir input type real => ⟨_, _, path_parts real⟩, ?_, fun dir input type real => parent_path real, keepsApart⟩
  intro dir input opening name dir' input' opening' name' type type' h h'
  exact h.path_eq_iff h'

/-- Two scripts whose names are mangled alike share their bitcode, but not their dependency file; what looks like a way
out of the directory is part of no name. -/
theorem path_decomposes_mangled :
    path "out" "a/my-script.rs" .bitcode = path "out/" "my.script.rs" .bitcode ∧
    path "out" "a/my-script.rs" .dependency ≠ path "out/" "my.script.rs" .dependency ∧
    (File.Path.ofText (path "out/" "../.." .object)).parent = File.Path.ofText "out/" := by
  obtain ⟨-, equal, inside, -⟩ := path_decomposes
  refine ⟨?_, ?_, inside "out/" "../.." .object (by decide)⟩
  · exact (equal _ _ _ _ _ _ _ _ _ _ (path_parts (by decide)) (path_parts (by decide))).2 (by decide)
  · exact mt (equal _ _ _ _ _ _ _ _ _ _ (path_parts (by decide)) (path_parts (by decide))).1 (by decide)

end ScriptDriver.Output
