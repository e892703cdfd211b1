import ScriptDriver.Proofs.CommandLine.Item
/-!
# Query — what the items of a command line say

The questions asked about a command line that has been read can be answered from its items.  Each is about the items
named in one of a few ways, since an option counts by the names of its rows (`among_item`); and most are about the last
of these.
-/
namespace ScriptDriver.CommandLine

namespace Item

def isNamed (names : List Text) (item : Item) : Bool := item.name?.any names.contains

def value (item : Item) : Text := item.values.headD []

def written : Item → Text
  | flag name _ => name
  | valued name _ value => name ++ " " ++ value
  | includeDir dir _ => includeName ++ " " ++ dir
  | storage place => storageName ++ place
  | input token _ | unknown token _ => token

def input? : Item → Option Text
  | input token _ => some token
  | _ => none

def unknown? : Item → Option Text
  | unknown token _ => some token
  | _ => none

end Item

def lastNamed (names : List Text) (items : List Item) : Option Item := (items.filter (·.isNamed names)).getLast?

def lastValueNamed (names : List Text) (items : List Item) : Option Text := (lastNamed names items).map Item.value

/-- **How an option, or a group of options, can be named**: the names of the rows that count as it. -/
structure CountsAs (names : List Text) (id : OptionId) : Prop where
  noInput : id ≠ .input
  known : id ≠ .unknown
  rows : names = namesWhere fun d => (rowArg d []).among [id]

/-! ## Arguments and items -/

/-- An item is read as a row with its name, if it has one. -/
theorem arg_of_name {item : Item} {name : Text} (h : item.name? = some name) :
    Found name ∧ item.arg = namedArg name item.values := by
  cases item with
  | input | unknown => cases h
  | flag name listed => cases h; exact ⟨(found_flag listed).1, rfl⟩
  | valued name listed value => cases h; exact ⟨(found_value listed).1, rfl⟩
  | includeDir => cases h; exact ⟨found_include.1, rfl⟩
  | storage => cases h; exact ⟨found_storage.1, rfl⟩

theorem arg_value (item : Item) : item.arg.value = item.value := by cases item <;> rfl

/-- **An item counts as an option exactly if it is said by one of its names.** -/
theorem among_item {names : List Text} {id : OptionId} (h : CountsAs names id) (item : Item) :
    item.arg.among [id] = item.isNamed names := by
  unfold Item.isNamed
  cases hn : item.name? with
  | some name =>
    obtain ⟨⟨hd, hname, hmatch⟩, harg⟩ := arg_of_name hn
    have hmem := mem_namesWhere (p := fun d => (rowArg d []).among [id]) hd
    rw [← h.rows, hname, and_iff_right hmatch] at hmem
    rw [harg, Option.any_some, Bool.eq_iff_iff, List.contains_iff_mem, hmem]
    rfl
  | none =>
    rw [Option.any_none]
    cases item with
    | input => simpa [Item.arg, Arg.among, Arg.id, Descriptor.input] using h.noInput.symm
    | unknown => simpa [Item.arg, Arg.among, Arg.id, Descriptor.unknown] using h.known.symm
    | flag | valued | includeDir | storage => cases hn

/-- No row counts as an input or as unknown. -/
theorem standard_among : ∀ d ∈ standard.rows,
    (rowArg d []).among [.input] = false ∧ (rowArg d []).among [.unknown] = false := by decide

theorem among_of_name {item : Item} {name : Text} (h : item.name? = some name) :
    item.arg.among [.input] = false ∧ item.arg.among [.unknown] = false := by
  obtain ⟨hfound, harg⟩ := arg_of_name h
  rw [harg]
  exact standard_among _ hfound.listed

theorem input_item (item : Item) :
    item.input? = if item.arg.among [.input] then some item.arg.value else none := by
  cases item with
  | input | unknown => rfl
  | flag | valued | includeDir | storage => rw [(among_of_name rfl).1]; rfl

theorem unknown_item (item : Item) :
    item.unknown? = if item.arg.among [.unknown] then some item.arg.asText else none := by
  cases item with
  | input | unknown => rfl
  | flag | valued | includeDir | storage => rw [(among_of_name rfl).2]; rfl

/-- **An item is shown as its argument is.** -/
theorem written_item (item : Item) : item.arg.asText = item.written := by
  cases item with
  | input | unknown => rfl
  | flag name listed =>
    obtain ⟨hfound, hk⟩ := found_flag listed
    simp only [Item.arg, namedArg, rowArg, Arg.asText, hk, hfound.name_eq, Item.written]
  | valued name listed value =>
    obtain ⟨hfound, hk⟩ := found_value listed
    rcases hk with hk | hk <;> simp [Item.arg, namedArg, rowArg, Arg.asText, hk, hfound.name_eq, Item.written,
      Text.joinWith, List.intercalate]
  | includeDir dir some =>
    obtain ⟨hfound, hk⟩ := found_include
    simp [Item.arg, namedArg, rowArg, Arg.asText, hk, hfound.name_eq, Item.written, Text.joinWith, List.intercalate]
  | storage place =>
    obtain ⟨hfound, hk⟩ := found_storage
    simp only [Item.arg, namedArg, rowArg, Arg.asText, hk, hfound.name_eq, Item.written, Arg.value, List.headD_cons]

/-! ## Questions -/

theorem getLast?_filter_eq_some {α : Type} {p : α → Bool} {l : List α} {a : α} : (l.filter p).getLast? = some a ↔
    ∃ before after, l = before ++ a :: after ∧ p a = true ∧ ∀ b ∈ after, p b = false := by
  rw [List.getLast?_filter, List.find?_eq_some_iff_append]
  constructor
  · rintro ⟨ha, after, before, hl, hafter⟩
    refine ⟨before.reverse, after.reverse, ?_, ha, fun b hb => ?_⟩
    · rw [← List.reverse_reverse l, hl, List.reverse_append, List.reverse_cons, List.append_assoc, List.singleton_append]
    · exact Bool.not_eq_true' _ ▸ hafter b (List.mem_reverse.1 hb)
  · rintro ⟨before, after, rfl, ha, hafter⟩
    refine ⟨ha, after.reverse, before.reverse, ?_, fun b hb => ?_⟩
    · rw [List.reverse_append, List.reverse_cons, List.append_assoc, List.singleton_append]
    · rw [hafter b (List.mem_reverse.1 hb), Bool.not_false]

section
variable {m : Matched} {items : List Item} (h : m.args.map Arg.unplaced = items.map Item.arg) {names : List Text}
  {id : OptionId}
include h

theorem filtered_items (ids : List OptionId) :
    (m.filtered ids).map Arg.unplaced = (items.filter (·.arg.among ids)).map Item.arg := by
  have hfilter := congrArg (List.filter (·.among ids)) h
  rw [List.filter_map, List.filter_map] at hfilter
  exact hfilter

theorem inputs_items : (m.filtered [.input]).map (·.value) = items.filterMap Item.input? := by
  have hmap := congrArg (List.map (·.value)) (filtered_items h [.input])
  rw [List.map_map, List.map_map] at hmap
  calc (m.filtered [.input]).map (·.value)
      = (items.filter (·.arg.among [.input])).map (·.arg.value) := hmap
    _ = items.filterMap Item.input? := by rw [funext input_item, ← List.filterMap_eq_map, List.filterMap_filter]; rfl

theorem unknowns_items : (m.filtered [.unknown]).map (·.asText) = items.filterMap Item.unknown? := by
  have hmap := congrArg (List.map (·.asText)) (filtered_items h [.unknown])
  rw [List.map_map, List.map_map] at hmap
  calc (m.filtered [.unknown]).map (·.asText)
      = (items.filter (·.arg.among [.unknown])).map (·.arg.asText) := hmap
    _ = items.filterMap Item.unknown? := by
      rw [funext unknown_item, ← List.filterMap_eq_map, List.filterMap_filter]; rfl

/-- **The last argument that counts as an option is that of the last item said by one of its names.** -/
theorem last?_items (hnames : CountsAs names id) :
    (m.last? [id]).map Arg.unplaced = (lastNamed names items).map Item.arg := by
  unfold Matched.last? lastNamed
  rw [← List.getLast?_map, filtered_items h, List.getLast?_map, funext (among_item hnames)]

theorem asText_items (hnames : CountsAs names id) :
    (m.last? [id]).map Arg.asText = (lastNamed names items).map Item.written := by
  have hlast := congrArg (Option.map Arg.asText) (last?_items h hnames)
  rw [Option.map_map, Option.map_map] at hlast
  calc (m.last? [id]).map Arg.asText
      = (lastNamed names items).map (·.arg.asText) := hlast
    _ = (lastNamed names items).map Item.written := by rw [funext written_item]

theorem isSome_items (hnames : CountsAs names id) : (m.last? [id]).isSome = (lastNamed names items).isSome := by
  rw [← Option.isSome_map, last?_items h hnames, Option.isSome_map]

/-- Neither an argument nor an item, or both, with the same value and shown in the same way. -/
theorem last?_cases (hnames : CountsAs names id) : (m.last? [id] = none ∧ lastNamed names items = none) ∨
    ∃ a item, m.last? [id] = some a ∧ lastNamed names items = some item ∧ a.value = item.value ∧
      a.asText = item.written := by
  have hlast := last?_items h hnames
  cases hm : m.last? [id] <;> cases hi : lastNamed names items <;> rw [hm, hi] at hlast
  · exact .inl ⟨rfl, rfl⟩
  · cases hlast
  · cases hlast
  rename_i a item
  have harg : a.unplaced = item.arg := Option.some.inj hlast
  exact .inr ⟨a, item, rfl, rfl, (congrArg Arg.value harg).trans (arg_value item),
    (congrArg Arg.asText harg).trans (written_item item)⟩

theorem lastValue_items (hnames : CountsAs names id) (default : Text) :
    m.lastValue id default = (lastValueNamed names items).getD default := by
  unfold Matched.lastValue lastValueNamed
  rcases last?_cases h hnames with ⟨hm, hi⟩ | ⟨a, item, hm, hi, hvalue, -⟩ <;> rw [hm, hi]
  · rfl
  · exact hvalue

end

end ScriptDriver.CommandLine
