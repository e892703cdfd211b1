import ScriptDriver.Proofs.Driver.Handover
import ScriptDriver.Proofs.Toolchain.Loading
/-!
# Description — what a configuration file says, item by item

A document is checked in a fixed order, and what is wrong first is what is reported of it.  It is a toolchain exactly if
nothing is wrong; then every item is as the document says it, or as usual if it says nothing about it, whatever else is
in the document (`load_described`).  What is wrong first has a name in the report unless it is an item whose value is
full of digits: that one cannot be shown.
-/
namespace ScriptDriver

namespace Toolchain

open File (Path Disk Location)
open Toml (Table Value)

/-! ## Items and checks -/

/-- The items of a configuration file. -/
inductive Setting where
  | features
  | triple
  | cpu
  | api
  | command
  | timeout

namespace Setting

def place : Setting → Text
  | .features | .triple | .cpu | .api => "target"
  | .command | .timeout => "compiler"

def name : Setting → Text
  | .features => "features"
  | .triple => "triple"
  | .cpu => "cpu"
  | .api => "api"
  | .command => "command"
  | .timeout => "timeout"

def kind : Setting → Kind
  | .features => .list
  | .triple | .cpu | .command => .string
  | .api | .timeout => .integer

/-- What a toolchain has for an item. -/
def of (t : Toolchain) : Setting → Value
  | .features => .array (t.target.features.map .string)
  | .triple => .string t.target.triple
  | .cpu => .string t.target.cpu
  | .api => .integer t.targetApi
  | .command => .string t.command
  | .timeout => .integer t.timeout

end Setting

/-- What a document says of an item. -/
def said? (document : Table) (s : Setting) : Option Value :=
  (section? document s.place).bind (·.get? s.name)

/-- The values of a kind.  A truth value is no integer, and neither is a number with a fraction or a date. -/
inductive Kind.Admits : Kind → Value → Prop where
  | string (t : Text) : Admits .string (.string t)
  | integer (n : Int) : Admits .integer (.integer n)
  | list (items : List Value) : Admits .list (.array items)

inductive Check where
  /-- Both sections are tables if they are there. -/
  | sections
  /-- An item is of its kind if it is there. -/
  | kind (s : Setting)
  /-- The features are strings. -/
  | elements

namespace Check

def order : List Check :=
  [.sections, .kind .features, .elements, .kind .triple, .kind .cpu, .kind .api, .kind .command, .kind .timeout]

def Passed (document : Table) : Check → Prop
  | .sections => ∀ place ∈ (["target", "compiler"] : List Text), ∀ v, document.get? place = some v →
      ∃ entries, v = .table entries
  | .kind s => ∀ v, said? document s = some v → s.kind.Admits v
  | .elements => ∀ items, said? document .features = some (.array items) → ∀ v ∈ items, ∃ t, v = .string t

/-- **What is reported of a check** that is not passed.  An item is named with its kind and its value. -/
inductive Names (path : Path) (document : Table) : Check → Fault → Prop where
  | sections : Names path document .sections (.unusable path .sections)
  | elements : Names path document .elements (.unusable path .features)
  | kind {s : Setting} {v : Value} {shown : Text} : said? document s = some v → v.spelling = .ok shown →
    Names path document (.kind s) (.unusable path (.kind s.name s.kind shown))

/-- **The first check of the order that is not passed.** -/
def FirstFailed (document : Table) (c : Check) : Prop :=
  ∃ before after, order = before ++ c :: after ∧ (∀ b ∈ before, b.Passed document) ∧ ¬ c.Passed document

/-- What comes of a check: what is wrong, if anything is. -/
def fault? (path : Path) (document : Table) : Check → Option Fault
  | .sections =>
    if (section? document "target").isSome && (section? document "compiler").isSome then none
    else some (.unusable path .sections)
  | .kind s =>
    (said? document s).bind fun v =>
      if s.kind.accepts v then none else some ((Offence.unfit s.name s.kind v).fault path)
  | .elements =>
    ((said? document .features).bind Value.items?).bind fun items =>
      if items.all (·.string?.isSome) then none else some (.unusable path .features)

end Check

/-- **A toolchain that is as a document says**, and a document that is one only if every check is passed. -/
structure Described (path : Path) (document : Table) (r : Except Fault Toolchain) : Prop where
  accepted : (∃ t, r = .ok t) ↔ ∀ c ∈ Check.order, c.Passed document
  faithful : ∀ t, r = .ok t → t.path = some path ∧ ∀ s : Setting, s.of t = (said? document s).getD (s.of {})

/-- What is reported of a document is the first thing that is wrong with it. -/
def NamesFirst (path : Path) (document : Table) (r : Except Fault Toolchain) : Prop :=
  ∀ e, r = .error e → ∃ c, Check.FirstFailed document c ∧ c.Names path document e

/-- What is wrong first can be shown: it is no item with an integer that cannot be written. -/
def FirstShowable (document : Table) : Prop :=
  ∀ s v, Check.FirstFailed document (.kind s) → said? document s = some v → Toml.Value.Writable v.integers

/-! ## One check -/

theorem accepts_iff {kind : Kind} {v : Value} : kind.accepts v = true ↔ kind.Admits v := by
  constructor
  · intro h
    cases kind <;> cases v <;> first | exact .string _ | exact .integer _ | exact .list _ | cases h
  · rintro (_ | _ | _) <;> rfl

theorem section?_isSome_iff {document : Table} {place : Text} : (section? document place).isSome = true ↔
    ∀ v, document.get? place = some v → ∃ entries, v = .table entries := by
  unfold section?
  cases document.get? place with
  | none => simp
  | some v => cases v <;> simp [Value.entries?]

theorem items?_eq_some {v : Value} {items : List Value} : v.items? = some items ↔ v = .array items := by
  cases v <;> simp [Value.items?]

theorem all_string_iff {items : List Value} : items.all (·.string?.isSome) = true ↔ ∀ v ∈ items, ∃ t, v = .string t := by
  rw [List.all_eq_true]
  refine forall₂_congr fun v _ => ?_
  cases v <;> simp [Value.string?]

section
variable {path : Path} {document : Table}

/-- **Nothing comes of a check exactly if it is passed.** -/
theorem Check.fault?_eq_none_iff {c : Check} : c.fault? path document = none ↔ c.Passed document := by
  cases c with
  | sections =>
    rw [fault?, Passed, List.forall_mem_cons, List.forall_mem_singleton, ← section?_isSome_iff, ← section?_isSome_iff,
      ← Bool.and_eq_true]
    cases (section? document "target").isSome && (section? document "compiler").isSome <;> simp
  | kind s =>
    rw [fault?, Passed, Option.bind_eq_none_iff]
    refine forall₂_congr fun v _ => ?_
    rw [← accepts_iff]
    cases s.kind.accepts v <;> simp
  | elements =>
    rw [fault?, Passed, Option.bind_eq_none_iff]
    simp only [Option.bind_eq_some_iff, items?_eq_some, ↓existsAndEq, and_true, ← all_string_iff]
    refine forall₂_congr fun items _ => ?_
    cases items.all (·.string?.isSome) <;> simp

/-- **What a failed check is reported as**, if it can be shown. -/
theorem Check.names_of_fault? {c : Check} {e : Fault} (h : c.fault? path document = some e)
    (showable : ∀ s v, c = .kind s → said? document s = some v → Toml.Value.Writable v.integers) :
    c.Names path document e := by
  cases c with
  | sections =>
    rw [fault?, Option.ite_none_left_eq_some] at h
    obtain ⟨-, h⟩ := h
    cases h
    exact .sections
  | elements =>
    rw [fault?, Option.bind_eq_some_iff] at h
    obtain ⟨items, -, h⟩ := h
    rw [Option.ite_none_left_eq_some] at h
    obtain ⟨-, h⟩ := h
    cases h
    exact .elements
  | kind s =>
    rw [fault?, Option.bind_eq_some_iff] at h
    obtain ⟨v, hsaid, h⟩ := h
    rw [Option.ite_none_left_eq_some] at h
    obtain ⟨-, h⟩ := h
    obtain ⟨shown, hshown⟩ := (Toml.Value.spelling_ok_iff v).2 (showable s v rfl hsaid)
    obtain rfl := Option.some.inj h
    rw [Offence.fault, hshown]
    exact .kind hsaid hshown

theorem Check.Names.unusable {c : Check} {e : Fault} (h : c.Names path document e) :
    ∃ problem, e = .unusable path problem := by
  cases h <;> exact ⟨_, rfl⟩

/-! ## All checks -/

/-- **The first check that fails** is the one that something comes of first. -/
theorem Check.findSome?_eq_some_iff {e : Fault} : order.findSome? (fault? path document) = some e ↔
    ∃ c, FirstFailed document c ∧ c.fault? path document = some e := by
  rw [List.findSome?_eq_some_iff]
  constructor
  · rintro ⟨before, c, after, horder, hfault, hbefore⟩
    refine ⟨c, ⟨before, after, horder, fun b hb => fault?_eq_none_iff.1 (hbefore b hb), fun hpassed => ?_⟩, hfault⟩
    rw [fault?_eq_none_iff.2 hpassed] at hfault
    cases hfault
  · rintro ⟨c, ⟨before, after, horder, hbefore, -⟩, hfault⟩
    exact ⟨before, c, after, horder, hfault, fun b hb => fault?_eq_none_iff.2 (hbefore b hb)⟩

theorem findSome?_cons_or {α β : Type} (f : α → Option β) (a : α) (l : List α) :
    (a :: l).findSome? f = (f a).or (l.findSome? f) := by
  rw [List.findSome?_cons]
  cases f a <;> rfl

/-- The toolchain of a document whose sections are tables. -/
def asSaid (path : Path) (document : Table) : Toolchain :=
  ofSections path ((section? document "target").getD []) ((section? document "compiler").getD [])

theorem Check.fault?_kind {s : Setting} {table : Table} (h : section? document s.place = some table) :
    fault? path document (.kind s) = (kindOffence? table s.name s.kind).map (Offence.fault path) := by
  rw [fault?, said?, h, Option.bind_some, kindOffence?, Option.map_bind]
  refine congrArg _ (funext fun v => ?_)
  rw [Function.comp_apply, apply_ite (Option.map _)]
  rfl

theorem Check.fault?_elements {table : Table} (h : section? document "target" = some table) :
    fault? path document .elements = (featureOffence? table).map (Offence.fault path) := by
  rw [fault?, said?, show section? document Setting.features.place = some table from h, Option.bind_some, featureOffence?,
    Option.map_bind]
  refine congrArg _ (funext fun items => ?_)
  rw [Function.comp_apply, apply_ite (Option.map _)]
  rfl

/-- **A document is checked in order.** -/
theorem ofDocument_order (path : Path) (document : Table) : ofDocument path document =
    match Check.order.findSome? (Check.fault? path document) with
    | some e => .error e
    | none => .ok (asSaid path document) := by
  cases htarget : section? document "target" with
  | none => simp [ofDocument, htarget, Check.order, Check.fault?]
  | some target =>
    cases hcompiler : section? document "compiler" with
    | none => simp [ofDocument, htarget, hcompiler, Check.order, Check.fault?]
    | some compiler =>
      have hsections : Check.fault? path document .sections = none := by simp [Check.fault?, htarget, hcompiler]
      have hfirst : Check.order.findSome? (Check.fault? path document) =
          (offences target compiler).head?.map (Offence.fault path) := by
        simp only [Check.order, findSome?_cons_or, hsections, Check.fault?_elements htarget,
          Check.fault?_kind (s := .features) htarget, Check.fault?_kind (s := .triple) htarget,
          Check.fault?_kind (s := .cpu) htarget, Check.fault?_kind (s := .api) htarget,
          Check.fault?_kind (s := .command) hcompiler, Check.fault?_kind (s := .timeout) hcompiler,
          offences, head?_reduceOption, Option.map_or, Option.none_or]
        rfl
      rw [ofDocument_eq path htarget hcompiler, hfirst, asSaid, htarget, hcompiler]
      cases (offences target compiler).head? <;> rfl

/-! ## What is taken over -/

theorem said?_eq (s : Setting) : said? document s = ((section? document s.place).getD []).get? s.name := by
  unfold said?
  cases section? document s.place <;> rfl

section
variable {α : Type} {table : Table} {name : Text} {view : Value → Option α} (usual : α)

theorem given_of_none (h : table.get? name = none) : given table name view usual = usual := by
  rw [given, h]
  rfl

theorem given_of_some {v : Value} {a : α} (h : table.get? name = some v) (hv : view v = some a) :
    given table name view usual = a := by
  rw [given, h, Option.bind_some, hv]
  rfl

/-- What is taken from a section that is fit for it: the item if it is there. -/
theorem given_of_fits {inj : α → Value} (hview : ∀ v a, view v = some a → v = inj a)
    (fits : ∀ v, table.get? name = some v → (view v).isSome = true) :
    inj (given table name view usual) = (table.get? name).getD (inj usual) := by
  cases hget : table.get? name with
  | none => rw [given_of_none usual hget, Option.getD_none]
  | some v =>
    obtain ⟨a, ha⟩ := Option.isSome_iff_exists.1 (fits v hget)
    rw [given_of_some usual hget ha, Option.getD_some, hview v a ha]

end

theorem string?_eq_some {v : Value} {t : Text} (h : v.string? = some t) : v = .string t := by
  cases v <;> cases h
  rfl

theorem integer?_eq_some {v : Value} {n : Int} (h : v.integer? = some n) : v = .integer n := by
  cases v <;> cases h
  rfl

theorem map_filterMap_string? {items : List Value} (h : ∀ v ∈ items, ∃ t, v = .string t) :
    (items.filterMap Value.string?).map .string = items := by
  induction items with
  | nil => rfl
  | cons v rest ih =>
    obtain ⟨⟨t, rfl⟩, hrest⟩ := List.forall_mem_cons.1 h
    rw [List.filterMap_cons_some (show (Value.string t).string? = some t from rfl), List.map_cons, ih hrest]

theorem givenFeatures_of_fits {table : Table} (fits : ∀ v, table.get? "features" = some v → v.items?.isSome = true)
    (strings : ∀ items, table.get? "features" = some (.array items) → ∀ v ∈ items, ∃ t, v = .string t) :
    .array ((givenFeatures table).map .string) =
      (table.get? "features").getD (.array (({} : Target).features.map .string)) := by
  refine Eq.trans (congrArg Value.array (map_filterMap_string? ?_))
    (given_of_fits _ (fun _ _ => items?_eq_some.1) fits)
  cases hget : table.get? "features" with
  | none =>
    rw [given_of_none _ hget]
    exact List.forall_mem_map.2 fun t _ => ⟨t, rfl⟩
  | some v =>
    obtain ⟨items, hv⟩ := Option.isSome_iff_exists.1 (fits v hget)
    rw [given_of_some _ hget hv]
    exact strings items (by rw [hget, items?_eq_some.1 hv])

/-- **Every item is as the document says it**, if all checks are passed. -/
theorem of_asSaid (passed : ∀ c ∈ Check.order, c.Passed document) (s : Setting) :
    s.of (asSaid path document) = (said? document s).getD (s.of {}) := by
  have fits : ∀ v, ((section? document s.place).getD []).get? s.name = some v → s.kind.accepts v = true := by
    intro v hv
    rw [← said?_eq] at hv
    exact accepts_iff.2 (passed (.kind s) (by cases s <;> simp [Check.order]) v hv)
  rw [said?_eq]
  cases s with
  | triple | cpu | command => exact given_of_fits _ (fun _ _ => string?_eq_some) fits
  | api | timeout => exact given_of_fits _ (fun _ _ => integer?_eq_some) fits
  | features =>
    have helements := passed .elements (by simp [Check.order])
    rw [Check.Passed, said?_eq] at helements
    exact givenFeatures_of_fits fits helements

/-! ## What a document comes to -/

/-- **A document describes its toolchain.** -/
theorem ofDocument_described (path : Path) (document : Table) : Described path document (ofDocument path document) := by
  rw [ofDocument_order]
  cases hfirst : Check.order.findSome? (Check.fault? path document) with
  | some e =>
    obtain ⟨c, ⟨before, after, horder, -, hfailed⟩, -⟩ := Check.findSome?_eq_some_iff.1 hfirst
    refine ⟨⟨nofun, fun hpassed => absurd (hpassed c ?_) hfailed⟩, nofun⟩
    rw [horder]
    exact List.mem_append_right _ List.mem_cons_self
  | none =>
    have passed : ∀ c ∈ Check.order, c.Passed document := fun c hc =>
      Check.fault?_eq_none_iff.1 (List.findSome?_eq_none_iff.1 hfirst c hc)
    refine ⟨⟨fun _ => passed, fun _ => ⟨_, rfl⟩⟩, ?_⟩
    rintro t ⟨⟩
    exact ⟨rfl, of_asSaid passed⟩

/-- **What is wrong first is named**, exactly if it can be shown. -/
theorem ofDocument_namesFirst_iff (path : Path) (document : Table) :
    NamesFirst path document (ofDocument path document) ↔ FirstShowable document := by
  rw [ofDocument_order]
  constructor
  · intro named s v hfirst hsaid
    obtain ⟨e, he⟩ : ∃ e, Check.fault? path document (.kind s) = some e := by
      obtain ⟨-, -, -, -, hfailed⟩ := hfirst
      exact Option.ne_none_iff_exists'.1 (mt Check.fault?_eq_none_iff.1 hfailed)
    have hfind := Check.findSome?_eq_some_iff.2 ⟨_, hfirst, he⟩
    rw [hfind] at named
    obtain ⟨c, -, hnames⟩ := named e rfl
    obtain ⟨problem, rfl⟩ := hnames.unusable
    rw [Check.fault?, hsaid, Option.bind_some, Option.ite_none_left_eq_some] at he
    exact (fault_unusable_iff path (.unfit s.name s.kind v)).1 ⟨problem, Option.some.inj he.2⟩
  · intro showable e he
    cases hfind : Check.order.findSome? (Check.fault? path document) with
    | none =>
      rw [hfind] at he
      cases he
    | some e' =>
      rw [hfind] at he
      obtain rfl := Except.error.inj he
      obtain ⟨c, hfirst, hfault⟩ := Check.findSome?_eq_some_iff.1 hfind
      refine ⟨c, hfirst, Check.names_of_fault? hfault fun s v hc hsaid => showable s v ?_ hsaid⟩
      rwa [← hc]

end

/-- **A configuration file is what is loaded**: a document is accepted exactly if every check is passed, and then every
item is as it says.  Otherwise the first check that is not passed is reported, exactly if that can be shown.  What is
loaded is passed on to every compiler. -/
theorem load_described {d : Disk} {named : Option Text} {start : Option Path} {path : Path} {l : Location}
    {bytes : List UInt8} {document : Table} (found : discover d named start = .ok (some path))
    (read : d.read path.toText = .ok (l, bytes)) (parsed : documentOf path bytes = .ok document) :
    Described path document (load d named start) ∧
    (NamesFirst path document (load d named start) ↔ FirstShowable document) ∧
    ∀ t, load d named start = .ok t → t.PassedOn := by
  rw [load_of_parsed found read parsed]
  exact ⟨ofDocument_described path document, ofDocument_namesFirst_iff path document, fun t _ => passedOn t⟩

/-- A configuration file that says the features and the limit, and something that nothing asks for. -/
def describedBytes : List UInt8 :=
  ("[target]\nfeatures = [\"+neon\"]\nvendor = true\n\n[compiler]\ntimeout = 30\n" : Text).toBytes

def describedDocument : Table :=
  [("target", .table [("features", .array [.string "+neon"]), ("vendor", .boolean true)]),
    ("compiler", .table [("timeout", .integer 30)])]

theorem load_described_features :
    (discover (projectOf describedBytes) (some projectFile) none = .ok (some (Path.ofText projectFile)) ∧
      (projectOf describedBytes).read (Path.ofText projectFile).toText =
        .ok ([("proj" : Text).toBytes, fileName.toBytes], describedBytes) ∧
      documentOf (Path.ofText projectFile) describedBytes = .ok describedDocument) ∧
    Described (Path.ofText projectFile) describedDocument (load (projectOf describedBytes) (some projectFile) none) ∧
    (NamesFirst (Path.ofText projectFile) describedDocument (load (projectOf describedBytes) (some projectFile) none) ↔
      FirstShowable describedDocument) ∧
    ∀ t, load (projectOf describedBytes) (some projectFile) none = .ok t → t.PassedOn := by
  have found := discover_projectOf describedBytes
  have read := read_projectOf describedBytes
  have parsed : documentOf (Path.ofText projectFile) describedBytes = .ok describedDocument := by rfl
  exact ⟨⟨found, read, parsed⟩, load_described found read parsed⟩

/-- A configuration file with a number where a string should be, too long to be shown; it is written in base 16, so that
it can be read. -/
def longLine : List Char := "[target]\ntriple = 0x".toList ++ List.replicate 3572 'f'

def longNumber : Nat := Toml.valueOf 16 (List.replicate 3572 'f')

def longDocument : Table := [("target", .table [("triple", .integer longNumber)])]

set_option maxRecDepth 20000 in
theorem longLine_read : Toml.read longLine = .ok longDocument := by rfl

theorem longNumber_unwritable : Decimal.write longNumber = .error ⟨none⟩ := by
  have hlong : Nat.pow 10 Decimal.digitLimit ≤ longNumber := by decide +kernel
  rw [Decimal.write, Int.natAbs_natCast, if_pos hlong]

theorem longDocument_firstFailed : Check.FirstFailed longDocument (.kind .triple) := by
  refine ⟨[.sections, .kind .features, .elements], _, rfl, fun c hc => ?_, fun hpassed => nomatch hpassed _ rfl⟩
  have hnothing : c.fault? (Path.ofText projectFile) longDocument = none := by
    simp only [List.mem_cons, List.not_mem_nil, or_false] at hc
    rcases hc with rfl | rfl | rfl <;> rfl
  exact Check.fault?_eq_none_iff.1 hnothing

theorem longDocument_fault (path : Path) : Check.fault? path longDocument (.kind .triple) = some (.integer ⟨none⟩) := by
  have hsaid : said? longDocument .triple = some (.integer longNumber) := rfl
  have hrefused : Setting.triple.kind.accepts (.integer longNumber) = false := rfl
  rw [Check.fault?, hsaid, Option.bind_some, hrefused, if_neg Bool.false_ne_true, Offence.fault, Toml.Value.spelling,
    longNumber_unwritable]

/-- **An item that is wrong is not always named**: what is reported here is a number that cannot be written. -/
theorem longLine_unnamed :
    documentOf (Path.ofText projectFile) (Utf8.encoded longLine) = .ok longDocument ∧
    Check.FirstFailed longDocument (.kind .triple) ∧
    load (projectOf (Utf8.encoded longLine)) (some projectFile) none = .error (.integer ⟨none⟩) ∧
    ¬ NamesFirst (Path.ofText projectFile) longDocument
      (load (projectOf (Utf8.encoded longLine)) (some projectFile) none) := by
  have parsed := documentOf_encoded (Path.ofText projectFile) longLine_read
  have refused : load (projectOf (Utf8.encoded longLine)) (some projectFile) none = .error (.integer ⟨none⟩) := by
    rw [load_of_parsed (discover_projectOf _) (read_projectOf _) parsed, ofDocument_order,
      Check.findSome?_eq_some_iff.2 ⟨_, longDocument_firstFailed, longDocument_fault _⟩]
  refine ⟨parsed, longDocument_firstFailed, refused, fun named => ?_⟩
  obtain ⟨c, -, hnames⟩ := named _ refused
  obtain ⟨problem, hproblem⟩ := hnames.unusable
  cases hproblem

end Toolchain
end ScriptDriver
