import ScriptDriver.Proofs.CommandLine.Selection
/-!
# Item — what is said on a command line

A command line for the standard table is a sequence of items of one or two tokens each, with perhaps the name of an
option without its value at the end.  Every command line can be cut up in this way (`exists_said`), and reading it gives
one argument for each item and a shortage for such a name (`read_of_said`).  So what a token means is settled by the
items alone: no two rows of the standard table accept the same token (`accepts_unique`).
-/
namespace ScriptDriver.CommandLine

def flagNames : List Text :=
  ["-M", "-MD", "-emit-asm", "-S", "-emit-llvm", "-emit-bc", "-emit-nothing", "-allow-rs-prefix", "-help", "--help",
    "-version", "--version"]

/-- The options with the next token as their value. -/
def valueNames : List Text :=
  ["-I", "-o", "-java-reflection-path-base", "-p", "-java-reflection-package-name", "-j", "-bitcode-storage", "-s",
    "-output-dep-dir", "-d", "-additional-dep-target", "-a", "-target-api"]

/-- The two names that a value can follow in the same token. -/
def includeName : Text := "-I"
def storageName : Text := "-bitcode-storage="

/-- **A token that looks like an option and is none.** -/
structure Unknown (token : Text) : Prop where
  dashed : isInput token = false
  noFlag : token ∉ flagNames
  noValue : token ∉ valueNames
  noInclude : ¬ includeName <+: token
  noStorage : ¬ storageName <+: token

/-- **One thing said on a command line.** -/
inductive Item where
  /-- A lone dash, or a token that does not start with a dash. -/
  | input (token : Text) (plain : isInput token = true)
  | flag (name : Text) (listed : name ∈ flagNames)
  /-- An option, and the next token whatever it looks like. -/
  | valued (name : Text) (listed : name ∈ valueNames) (value : Text)
  /-- An include path in one token with its option. -/
  | includeDir (dir : Text) (some : dir ≠ [])
  /-- A place for the bitcode in one token with its option. -/
  | storage (place : Text)
  | unknown (token : Text) (unknown : Unknown token)

namespace Item

def tokens : Item → List Text
  | input token _ => [token]
  | flag name _ => [name]
  | valued name _ value => [name, value]
  | includeDir dir _ => [includeName ++ dir]
  | storage place => [storageName ++ place]
  | unknown token _ => [token]

def name? : Item → Option Text
  | flag name _ | valued name _ _ => some name
  | includeDir _ _ => some includeName
  | storage _ => some storageName
  | input _ _ | unknown _ _ => none

/-- The values that are said; a token that is no option is its own value. -/
def values : Item → List Text
  | flag _ _ => []
  | valued _ _ value => [value]
  | includeDir dir _ => [dir]
  | storage place => [place]
  | input token _ | unknown token _ => [token]

end Item

/-- **A command line cut up into items**, with the name of an option without its value at the end, if there is one. -/
structure Said (tokens : List Text) (items : List Item) (last : Option Text) : Prop where
  listed : ∀ name ∈ last, name ∈ valueNames
  tokens_eq : tokens = items.flatMap Item.tokens ++ last.toList

/-! ## Every command line is said in items -/

theorem exists_head_item (token : Text) :
    (∃ item : Item, item.tokens = [token]) ∨ token ∈ valueNames := by
  by_cases hin : isInput token = true
  · exact .inl ⟨.input token hin, rfl⟩
  by_cases hflag : token ∈ flagNames
  · exact .inl ⟨.flag token hflag, rfl⟩
  by_cases hvalue : token ∈ valueNames
  · exact .inr hvalue
  by_cases hdir : includeName <+: token
  · obtain ⟨dir, rfl⟩ := hdir
    have hsome : dir ≠ [] := by
      rintro rfl
      exact hvalue (by decide)
    exact .inl ⟨.includeDir dir hsome, rfl⟩
  by_cases hplace : storageName <+: token
  · obtain ⟨place, rfl⟩ := hplace
    exact .inl ⟨.storage place, rfl⟩
  · exact .inl ⟨.unknown token ⟨by simpa using hin, hflag, hvalue, hdir, hplace⟩, rfl⟩

theorem Said.nil : Said [] [] none := ⟨nofun, rfl⟩

theorem Said.cons (item : Item) {tokens : List Text} {items : List Item} {last : Option Text}
    (h : Said tokens items last) : Said (item.tokens ++ tokens) (item :: items) last :=
  ⟨h.listed, by rw [h.tokens_eq, List.flatMap_cons, List.append_assoc]⟩

theorem Said.append {front back : List Text} {before later : List Item} {last : Option Text} (hfront : Said front before none)
    (hback : Said back later last) : Said (front ++ back) (before ++ later) last :=
  ⟨hback.listed, by
    rw [hfront.tokens_eq, hback.tokens_eq, Option.toList_none, List.append_nil, List.flatMap_append, List.append_assoc]⟩

/-- **Every command line can be cut up into items.** -/
theorem exists_said : ∀ tokens : List Text, ∃ items last, Said tokens items last
  | [] => ⟨[], none, .nil⟩
  | [token] => by
    rcases exists_head_item token with ⟨item, h⟩ | h
    · exact ⟨[item], none, by simpa [h] using Said.nil.cons item⟩
    · exact ⟨[], some token, fun name hname => by cases hname; exact h, rfl⟩
  | token :: value :: rest => by
    rcases exists_head_item token with ⟨item, h⟩ | h
    · obtain ⟨items, last, hsaid⟩ := exists_said (value :: rest)
      exact ⟨item :: items, last, by simpa [h] using hsaid.cons item⟩
    · obtain ⟨items, last, hsaid⟩ := exists_said rest
      exact ⟨.valued token h value :: items, last, hsaid.cons (.valued token h value)⟩

/-! ## The rows of the standard table -/

theorem standard_names_nodup : (standard.rows.map (·.name)).Nodup := by decide +kernel

theorem row_eq_of_name {d e : Descriptor} (hd : d ∈ standard.rows) (he : e ∈ standard.rows) (h : d.name = e.name) :
    d = e := List.inj_on_of_nodup_map standard_names_nodup hd he h

/-- A name that a value can follow in the same token begins no other name. -/
theorem name_eq_of_begins : ∀ d ∈ standard.rows, d.kind = .joined ∨ d.kind = .joinedOrSeparate →
    ∀ e ∈ standard.rows, d.name.isPrefixOf e.name = true → d.name = e.name := by decide +kernel

theorem standard_kinds : ∀ d ∈ standard.rows, d.kind = .group ∨ d.kind = .flag ∨ d.kind = .separate ∨
    d.kind = .joined ∨ d.kind = .joinedOrSeparate := by decide

/-- The names of the rows that can be matched and satisfy `p`. -/
def namesWhere (p : Descriptor → Bool) : List Text :=
  (standard.rows.filter fun d => d.isMatchable && p d).map (·.name)

theorem mem_namesWhere {p : Descriptor → Bool} {d : Descriptor} (hd : d ∈ standard.rows) :
    d.name ∈ namesWhere p ↔ d.isMatchable = true ∧ p d = true := by
  simp only [namesWhere, List.mem_map, List.mem_filter, Bool.and_eq_true]
  constructor
  · rintro ⟨e, ⟨he, hp⟩, hname⟩
    exact row_eq_of_name he hd hname ▸ hp
  · exact fun hp => ⟨d, ⟨hd, hp⟩, rfl⟩

theorem flagNames_eq : flagNames = namesWhere fun d => d.kind = .flag := rfl

theorem valueNames_eq : valueNames = namesWhere fun d => d.kind = .separate || d.kind = .joinedOrSeparate := rfl

theorem includeName_eq : [includeName] = namesWhere fun d => d.kind = .joinedOrSeparate := rfl

theorem storageName_eq : [storageName] = namesWhere fun d => d.kind = .joined := rfl

def rowNamed (name : Text) : Descriptor := (standard.rows.find? (·.name = name)).getD .unknown

theorem rowNamed_name {d : Descriptor} (hd : d ∈ standard.rows) : rowNamed d.name = d := by
  unfold rowNamed
  cases hfind : standard.rows.find? (·.name = d.name) with
  | none =>
    have hne : ¬ d.name = d.name := by simpa using List.find?_eq_none.1 hfind d hd
    exact absurd rfl hne
  | some e => exact row_eq_of_name (List.mem_of_find?_eq_some hfind) hd (by simpa using List.find?_some hfind)

/-- A row that can be matched, as it is found by its name. -/
structure Found (name : Text) : Prop where
  listed : rowNamed name ∈ standard.rows
  name_eq : (rowNamed name).name = name
  matchable : (rowNamed name).isMatchable = true

theorem found_of_mem {p : Descriptor → Bool} {name : Text} (h : name ∈ namesWhere p) :
    Found name ∧ p (rowNamed name) = true := by
  obtain ⟨d, hd, rfl⟩ := List.mem_map.1 h
  obtain ⟨hd, hp⟩ := List.mem_filter.1 hd
  rw [Bool.and_eq_true] at hp
  have hrow := rowNamed_name hd
  exact ⟨⟨hrow.symm ▸ hd, by rw [hrow], hrow.symm ▸ hp.1⟩, hrow.symm ▸ hp.2⟩

theorem found_flag {name : Text} (h : name ∈ flagNames) : Found name ∧ (rowNamed name).kind = .flag := by
  rw [flagNames_eq] at h
  simpa using found_of_mem h

theorem found_value {name : Text} (h : name ∈ valueNames) :
    Found name ∧ ((rowNamed name).kind = .separate ∨ (rowNamed name).kind = .joinedOrSeparate) := by
  rw [valueNames_eq] at h
  simpa using found_of_mem h

theorem found_include : Found includeName ∧ (rowNamed includeName).kind = .joinedOrSeparate := by
  have h := List.mem_singleton_self includeName
  rw [includeName_eq] at h
  simpa using found_of_mem h

theorem found_storage : Found storageName ∧ (rowNamed storageName).kind = .joined := by
  have h := List.mem_singleton_self storageName
  rw [storageName_eq] at h
  simpa using found_of_mem h

/-! ## What accepts a token -/

section
variable {d e : Descriptor} {token : Text}

/-- A row that accepts a token whole, or together with whatever follows its name. -/
theorem accepts_cases (hd : d ∈ standard.rows) (h : d.Accepts token) :
    token = d.name ∨ (d.kind = .joined ∨ d.kind = .joinedOrSeparate) ∧ d.name <+: token := by
  have hbegins := begins_of_accepts h
  unfold Descriptor.Accepts at h
  rcases standard_kinds d hd with hk | hk | hk | hk | hk <;> simp only [hk] at h
  · exact .inl h.symm
  · exact .inl h.symm
  · exact .inr ⟨.inl hk, hbegins⟩
  · exact .inr ⟨.inr hk, hbegins⟩

/-- **No two rows of the standard table accept the same token.** -/
theorem accepts_unique (hd : d ∈ standard.rows) (he : e ∈ standard.rows) (h : d.Accepts token) (h' : e.Accepts token) :
    d = e := by
  refine row_eq_of_name hd he ?_
  rcases accepts_cases hd h with rfl | ⟨hk, hp⟩ <;> rcases accepts_cases he h' with ht | ⟨hk', hp'⟩
  · exact ht
  · exact (name_eq_of_begins e he hk' d hd (List.isPrefixOf_iff_prefix.2 hp')).symm
  · subst ht
    exact name_eq_of_begins d hd hk e he (List.isPrefixOf_iff_prefix.2 hp)
  · rcases List.prefix_or_prefix_of_prefix hp hp' with hpre | hpre
    · exact name_eq_of_begins d hd hk e he (List.isPrefixOf_iff_prefix.2 hpre)
    · exact (name_eq_of_begins e he hk' d hd (List.isPrefixOf_iff_prefix.2 hpre)).symm

/-- **The row that accepts a token is the one that reads it**, wherever it stands among the rows. -/
theorem readOption_of_accepts (hd : d ∈ standard.rows) (h : d.Accepts token) (following : List Text) (index : Nat) :
    standard.readOption token following index =
      match d.fit token following with
      | .refused => .ok (.ok (⟨.unknown, .unknown, index, [token]⟩, 0))
      | .short missing => .ok (.error ⟨index, missing⟩)
      | .taken values n => .ok (.ok (⟨standardOption d, d, index, values⟩, n)) := by
  obtain ⟨e, he, -⟩ := OptionTable.exists_chosen hd h
  obtain rfl := accepts_unique he.listed hd he.accepts h
  obtain ⟨o, ho, hfirst⟩ := OptionTable.firstFit_of_chosen standard_closed he following
  obtain rfl := Except.ok.inj (ho.symm.trans (resolve_standard hd))
  unfold OptionTable.readOption
  cases hfit : e.fit token following <;> simp only [hfirst, hfit]

theorem Unknown.unaccepted (h : Unknown token) : ∀ d ∈ standard.rows, ¬ d.Accepts token := by
  intro d hd haccepts
  have hmatch := matchable_of_accepts haccepts
  unfold Descriptor.Accepts at haccepts
  rcases standard_kinds d hd with hk | hk | hk | hk | hk <;> simp only [hk] at haccepts
  · have hn : d.name ∈ flagNames := flagNames_eq ▸ (mem_namesWhere hd).2 ⟨hmatch, by simp [hk]⟩
    exact h.noFlag (haccepts ▸ hn)
  · have hn : d.name ∈ valueNames := valueNames_eq ▸ (mem_namesWhere hd).2 ⟨hmatch, by simp [hk]⟩
    exact h.noValue (haccepts ▸ hn)
  · have hn : d.name ∈ [storageName] := storageName_eq ▸ (mem_namesWhere hd).2 ⟨hmatch, by simp [hk]⟩
    exact h.noStorage (List.mem_singleton.1 hn ▸ haccepts)
  · have hn : d.name ∈ [includeName] := includeName_eq ▸ (mem_namesWhere hd).2 ⟨hmatch, by simp [hk]⟩
    exact h.noInclude (List.mem_singleton.1 hn ▸ haccepts)

end

/-! ## Reading items -/

def Arg.unplaced (a : Arg) : Arg := { a with index := 0 }

def rowArg (d : Descriptor) (values : List Text) : Arg := ⟨standardOption d, d, 0, values⟩

def namedArg (name : Text) (values : List Text) : Arg := rowArg (rowNamed name) values

/-- The argument that an item is read as. -/
def Item.arg (item : Item) : Arg :=
  match item with
  | .input token _ => ⟨.input, .input, 0, [token]⟩
  | .unknown token _ => ⟨.unknown, .unknown, 0, [token]⟩
  | .flag name _ => namedArg name []
  | .valued name _ value => namedArg name [value]
  | .includeDir dir _ => namedArg includeName [dir]
  | .storage place => namedArg storageName [place]

theorem dashed_of_begins {name token : Text} (h : name <+: token) (hd : isInput name = false) :
    isInput token = false := by
  obtain ⟨rest, rfl⟩ := h
  cases name with
  | nil => cases hd
  | cons g name =>
    have hdash : g = .char '-' := by
      simp only [isInput, Bool.or_eq_false_iff, Bool.not_eq_false'] at hd
      exact (List.cons_prefix_cons.1 (List.isPrefixOf_iff_prefix.1 hd.2)).1.symm
    subst hdash
    cases name with
    | nil => cases hd
    | cons g' name => rfl

theorem standard_dashed : ∀ d ∈ standard.rows, d.kind ≠ .group → isInput d.name = false := by decide +kernel

theorem fit_whole {d : Descriptor} (following : List Text) (hk : d.kind = .flag) :
    d.fit d.name following = .taken [] 0 := by
  simp only [Descriptor.fit, hk, if_true]

theorem fit_next {d : Descriptor} (following : List Text) (hk : d.kind = .separate ∨ d.kind = .joinedOrSeparate) :
    d.fit d.name following = .next following := by
  rcases hk with hk | hk <;> simp only [Descriptor.fit, hk, if_true]

theorem fit_attached {d : Descriptor} (value : Text) (following : List Text)
    (hk : d.kind = .joined ∨ d.kind = .joinedOrSeparate ∧ value ≠ []) :
    d.fit (d.name ++ value) following = .taken [value] 0 := by
  rcases hk with hk | ⟨hk, hv⟩
  · simp only [Descriptor.fit, hk, List.drop_left]
  · have hlength : ¬ (d.name ++ value).length = d.name.length := by simp [hv]
    simp only [Descriptor.fit, hk, hlength, if_false, List.drop_left]

section
variable {d : Descriptor} {token : Text} {following values : List Text} {n : Nat}

/-- A token that a row takes, read together with what the row takes after it. -/
theorem readAfter_taken (hd : d ∈ standard.rows) (hp : d.name <+: token) (hfit : d.fit token following = .taken values n)
    (hn : n ≤ following.length) (index : Nat) :
    standard.readAfter 0 index (token :: following) =
      match standard.readAfter 0 (index + 1 + n) (following.drop n) with
      | .error e => .error e
      | .ok (args, shortage) => .ok (⟨standardOption d, d, index, values⟩ :: args, shortage) := by
  have hclaims : d.claims token following = true := by
    simp [Descriptor.claims, hfit, List.isPrefixOf_iff_prefix.2 hp]
  have haccepts : d.Accepts token := claims_iff_accepts.1 hclaims
  have hkind : d.kind ≠ .group := by
    intro hk
    simp only [Descriptor.Accepts, hk] at haccepts
  have hdashed := dashed_of_begins hp (standard_dashed d hd hkind)
  rw [OptionTable.readAfter, hdashed, readOption_of_accepts hd haccepts, hfit]
  simp only [Bool.false_eq_true, if_false]
  have hskip := OptionTable.readAfter_skip standard n (index + 1) following hn
  rcases hrest : standard.readAfter 0 (index + 1 + n) (following.drop n) with e | ⟨args, shortage⟩ <;>
    simp only [hskip, hrest]

/-- The name of an option at the end of a command line that should have a value after it. -/
theorem readAfter_short (hd : d ∈ standard.rows) (hk : d.kind = .separate ∨ d.kind = .joinedOrSeparate) (index : Nat) :
    standard.readAfter 0 index [d.name] = .ok ([], some ⟨index, 1⟩) := by
  have hfit : d.fit d.name [] = .short 1 := fit_next [] hk
  have haccepts : d.Accepts d.name := by rcases hk with hk | hk <;> simp [Descriptor.Accepts, hk]
  have hkind : d.kind ≠ .group := by rcases hk with hk | hk <;> rw [hk] <;> decide
  rw [OptionTable.readAfter, standard_dashed d hd hkind, readOption_of_accepts hd haccepts, hfit]
  rfl

end

/-- **An item at the beginning of a command line** is read as its argument, and what follows is read by itself. -/
theorem readAfter_item (item : Item) (following : List Text) (index : Nat) : ∃ a : Arg, a.unplaced = item.arg ∧
    standard.readAfter 0 index (item.tokens ++ following) =
      match standard.readAfter 0 (index + item.tokens.length) following with
      | .error e => .error e
      | .ok (args, shortage) => .ok (a :: args, shortage) := by
  cases item with
  | input token plain =>
    refine ⟨⟨.input, .input, index, [token]⟩, rfl, ?_⟩
    rw [Item.tokens, List.singleton_append, OptionTable.readAfter, if_pos plain]
    rfl
  | unknown token unknown =>
    refine ⟨⟨.unknown, .unknown, index, [token]⟩, rfl, ?_⟩
    rw [Item.tokens, List.singleton_append, OptionTable.readAfter, unknown.dashed,
      (OptionTable.readOption_eq_unknown standard_closed token following index).2 unknown.unaccepted]
    rfl
  | flag name listed =>
    obtain ⟨⟨hd, hname, -⟩, hk⟩ := found_flag listed
    have hfit : (rowNamed name).fit name following = .taken [] 0 := by
      rw [← hname, rowNamed_name hd]
      exact fit_whole following hk
    exact ⟨_, rfl, readAfter_taken hd ⟨[], by rw [hname, List.append_nil]⟩ hfit (Nat.zero_le _) index⟩
  | valued name listed value =>
    obtain ⟨⟨hd, hname, -⟩, hk⟩ := found_value listed
    have hfit : (rowNamed name).fit name (value :: following) = .taken [value] 1 := by
      rw [← hname, rowNamed_name hd, fit_next _ hk]
      rfl
    exact ⟨_, rfl, readAfter_taken hd ⟨[], by rw [hname, List.append_nil]⟩ hfit (by simp) index⟩
  | includeDir dir some =>
    obtain ⟨⟨hd, hname, -⟩, hk⟩ := found_include
    have hfit := fit_attached dir following (.inr ⟨hk, some⟩)
    rw [hname] at hfit
    exact ⟨_, rfl, readAfter_taken hd (by rw [hname]; exact List.prefix_append _ _) hfit (Nat.zero_le _) index⟩
  | storage place =>
    obtain ⟨⟨hd, hname, -⟩, hk⟩ := found_storage
    have hfit := fit_attached place following (.inl hk)
    rw [hname] at hfit
    exact ⟨_, rfl, readAfter_taken hd (by rw [hname]; exact List.prefix_append _ _) hfit (Nat.zero_le _) index⟩

/-- Items at the beginning of a command line, one after the other. -/
theorem readAfter_items : ∀ (items : List Item) (following : List Text) (index : Nat), ∃ args : List Arg,
    args.map Arg.unplaced = items.map Item.arg ∧
      standard.readAfter 0 index (items.flatMap Item.tokens ++ following) =
        match standard.readAfter 0 (index + (items.flatMap Item.tokens).length) following with
        | .error e => .error e
        | .ok (more, shortage) => .ok (args ++ more, shortage)
  | [], following, index => by
    refine ⟨[], rfl, ?_⟩
    simp only [List.flatMap_nil, List.nil_append, List.length_nil, Nat.add_zero]
    rcases standard.readAfter 0 index following with e | ⟨more, shortage⟩ <;> rfl
  | item :: items, following, index => by
    obtain ⟨args, hargs, hmore⟩ := readAfter_items items following (index + item.tokens.length)
    obtain ⟨a, ha, hitem⟩ := readAfter_item item (items.flatMap Item.tokens ++ following) index
    refine ⟨a :: args, by rw [List.map_cons, List.map_cons, ha, hargs], ?_⟩
    rw [List.flatMap_cons, List.append_assoc, hitem, hmore, List.length_append, Nat.add_assoc]
    rcases standard.readAfter 0 (index + (item.tokens.length + (items.flatMap Item.tokens).length)) following with
      e | ⟨more, shortage⟩ <;> rfl

/-- **Reading a command line gives one argument for each of its items**, and a shortage of one value for the name of an
option at the end. -/
theorem read_of_said {tokens : List Text} {items : List Item} {last : Option Text} (h : Said tokens items last) :
    ∃ m, standard.read tokens = .ok m ∧ m.tokens = tokens ∧ m.args.map Arg.unplaced = items.map Item.arg ∧
      m.shortage = last.map fun _ => ⟨(items.flatMap Item.tokens).length, 1⟩ := by
  obtain ⟨args, hargs, hread⟩ := readAfter_items items last.toList 0
  rw [← h.tokens_eq, Nat.zero_add] at hread
  have hlast : standard.readAfter 0 (items.flatMap Item.tokens).length last.toList =
      .ok ([], last.map fun _ => ⟨(items.flatMap Item.tokens).length, 1⟩) := by
    cases last with
    | none => rfl
    | some name =>
      obtain ⟨⟨hd, hname, -⟩, hk⟩ := found_value (h.listed name rfl)
      have hshort := readAfter_short hd hk (items.flatMap Item.tokens).length
      rw [hname] at hshort
      exact hshort
  rw [hlast] at hread
  refine ⟨⟨tokens, args, last.map fun _ => ⟨(items.flatMap Item.tokens).length, 1⟩⟩, ?_, rfl, hargs, rfl⟩
  rw [OptionTable.read, hread]
  simp only [List.append_nil]

end ScriptDriver.CommandLine
