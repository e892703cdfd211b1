import ScriptDriver.Proofs.Text.Integer
import ScriptDriver.Toml.Draft
/-!
# Integers — the integers in a document

A value can be spelled exactly if the integers in it can be written (`spelling_ok_iff`).  A document has no integers but
those of the values that were added to it: what holds of these holds of all that are in it (`Draft.add?_fine`).
-/
namespace ScriptDriver.Toml

namespace Value

mutual

/-- The integers in a value. -/
def integers : Value → List Int
  | .integer n => [n]
  | .array items => itemIntegers items
  | .table entries => entryIntegers entries
  | _ => []

def itemIntegers : List Value → List Int
  | [] => []
  | v :: rest => integers v ++ itemIntegers rest

def entryIntegers : List (Text × Value) → List Int
  | [] => []
  | (_, v) :: rest => integers v ++ entryIntegers rest

end

theorem mem_itemIntegers {n : Int} : ∀ {items : List Value}, n ∈ itemIntegers items ↔ ∃ v ∈ items, n ∈ v.integers
  | [] => by simp [itemIntegers]
  | v :: rest => by rw [itemIntegers, List.mem_append, mem_itemIntegers, List.exists_mem_cons_iff]

theorem mem_entryIntegers {n : Int} : ∀ {t : Table}, n ∈ entryIntegers t ↔ ∃ e ∈ t, n ∈ e.2.integers
  | [] => by simp [entryIntegers]
  | (name, v) :: rest => by rw [entryIntegers, List.mem_append, mem_entryIntegers, List.exists_mem_cons_iff]

/-! ## Spelling -/

/-- All that is in the way of writing some integers. -/
def Writable (ns : List Int) : Prop := ∀ n ∈ ns, ∃ t, Decimal.write n = .ok t

theorem writable_append {ns ms : List Int} : Writable (ns ++ ms) ↔ Writable ns ∧ Writable ms := List.forall_mem_append

mutual

/-- **A value can be spelled exactly if the integers in it can be written.** -/
theorem spelling_ok_iff : ∀ v : Value, (∃ t, v.spelling = .ok t) ↔ Writable v.integers
  | .integer n => by simp [spelling, integers, Writable]
  | .array items => by
    rw [integers, ← itemSpellings_ok_iff items, spelling]
    cases itemSpellings items <;> simp [Except.map]
  | .table entries => by
    rw [integers, ← entrySpellings_ok_iff entries, spelling]
    cases entrySpellings entries <;> simp [Except.map]
  | .string _ | .float _ | .boolean _ | .moment _ => by simp [spelling, integers, Writable]

theorem itemSpellings_ok_iff : ∀ items : List Value, (∃ ts, itemSpellings items = .ok ts) ↔ Writable (itemIntegers items)
  | [] => by simp [itemSpellings, itemIntegers, Writable]
  | v :: rest => by
    rw [itemIntegers, writable_append, ← spelling_ok_iff v, ← itemSpellings_ok_iff rest, itemSpellings]
    cases spelling v <;> cases itemSpellings rest <;> simp

theorem entrySpellings_ok_iff : ∀ entries : List (Text × Value),
    (∃ ts, entrySpellings entries = .ok ts) ↔ Writable (entryIntegers entries)
  | [] => by simp [entrySpellings, entryIntegers, Writable]
  | (name, v) :: rest => by
    rw [entryIntegers, writable_append, ← spelling_ok_iff v, ← entrySpellings_ok_iff rest, entrySpellings]
    cases spelling v <;> cases entrySpellings rest <;> simp

end

end Value

/-! ## Adding to a document -/

section
variable {P : Int → Prop}

/-- **All integers in a value are fine.** -/
def Value.Fine (P : Int → Prop) (v : Value) : Prop := ∀ n ∈ v.integers, P n

def Table.Fine (P : Int → Prop) (t : Table) : Prop := ∀ e ∈ t, e.2.Fine P

theorem Value.fine_array {items : List Value} : (Value.array items).Fine P ↔ ∀ v ∈ items, v.Fine P := by
  simp only [Value.Fine, Value.integers, Value.mem_itemIntegers]
  exact ⟨fun h v hv n hn => h n ⟨v, hv, hn⟩, fun h n ⟨v, hv, hn⟩ => h v hv n hn⟩

theorem Value.fine_table {t : Table} : (Value.table t).Fine P ↔ t.Fine P := by
  simp only [Value.Fine, Table.Fine, Value.integers, Value.mem_entryIntegers]
  exact ⟨fun h e he n hn => h n ⟨e, he, hn⟩, fun h n ⟨e, he, hn⟩ => h e he n hn⟩

namespace Table

theorem fine_nil : Fine P [] := nofun

theorem Fine.get? {t : Table} {name : Text} {v : Value} (h : t.Fine P) (hget : t.get? name = some v) : v.Fine P := by
  obtain ⟨e, hfind, rfl⟩ := Option.map_eq_some_iff.1 hget
  exact h e (List.mem_of_find?_eq_some hfind)

theorem mem_set {name : Text} {v : Value} {e : Text × Value} : ∀ {t : Table}, e ∈ t.set name v → e.2 = v ∨ e ∈ t
  | [], h => .inl (congrArg Prod.snd (List.mem_singleton.1 h))
  | (n, w) :: t, h => by
    unfold set at h
    split at h
    · rcases List.mem_cons.1 h with rfl | h
      · exact .inl rfl
      · exact .inr (List.mem_cons_of_mem _ h)
    · rcases List.mem_cons.1 h with rfl | h
      · exact .inr List.mem_cons_self
      · exact (mem_set h).imp_right (List.mem_cons_of_mem _)

theorem Fine.set {t : Table} {name : Text} {v : Value} (h : t.Fine P) (hv : v.Fine P) : (t.set name v).Fine P := by
  intro e he
  rcases mem_set he with rfl | he
  · exact hv
  · exact h e he

/-- A change that adds fine integers only does so wherever it is made. -/
theorem Fine.changeAt {enterArrays : Bool} {change : Table → Option Table}
    (hchange : ∀ {t t' : Table}, change t = some t' → t.Fine P → t'.Fine P) :
    ∀ {k : Key} {t t' : Table}, t.changeAt enterArrays change k = some t' → t.Fine P → t'.Fine P
  -- the tables on the way are fine as parts of the whole, and stay so with what is changed in them
  | [], _, _, h, ht => hchange h ht
  | name :: key, t, t', h, ht => by
    unfold Table.changeAt at h
    split at h
    · obtain ⟨inner, hinner, rfl⟩ := Option.map_eq_some_iff.1 h
      exact ht.set (Value.fine_table.2 (Fine.changeAt hchange hinner fine_nil))
    · rename_i inner hget
      obtain ⟨inner', hinner, rfl⟩ := Option.map_eq_some_iff.1 h
      exact ht.set (Value.fine_table.2 (Fine.changeAt hchange hinner (Value.fine_table.1 (ht.get? hget))))
    · rename_i items hget
      have hitems := Value.fine_array.1 (ht.get? hget)
      split at h
      · rename_i inner hlast
        obtain ⟨inner', hinner, rfl⟩ := Option.map_eq_some_iff.1 h
        have hold := Value.fine_table.1 (hitems _ (List.mem_of_getLast? hlast))
        refine ht.set (Value.fine_array.2 (List.forall_mem_append.2 ⟨fun v hv => ?_, ?_⟩))
        · exact hitems v (List.mem_of_mem_dropLast hv)
        · simpa using Value.fine_table.2 (Fine.changeAt hchange hinner hold)
      · cases h
    · cases h

theorem Fine.add? {t t' : Table} {name : Text} {v : Value} (hv : v.Fine P) (h : Table.add? name v t = some t')
    (ht : t.Fine P) : t'.Fine P := by
  unfold Table.add? at h
  split at h
  · cases h
  · cases h
    exact ht.set hv

theorem Fine.extend? {t t' : Table} {name : Text} (h : Table.extend? name t = some t') (ht : t.Fine P) : t'.Fine P := by
  have hempty : (Value.table []).Fine P := Value.fine_table.2 fine_nil
  unfold Table.extend? at h
  split at h
  · cases h
    exact ht.set (Value.fine_array.2 (by simpa using hempty))
  · rename_i items hget
    cases h
    refine ht.set (Value.fine_array.2 (List.forall_mem_append.2 ⟨Value.fine_array.1 (ht.get? hget), ?_⟩))
    simpa using hempty
  · cases h

end Table

namespace Draft

variable {d d' : Draft} {k : Key} {v : Value}

theorem open?_fine (h : d.open? k = some d') (hd : d.table.Fine P) : d'.table.Fine P := by
  unfold open? at h
  split at h
  · cases h
  · split at h
    · cases h
    · rename_i hchange
      cases h
      exact Table.Fine.changeAt (fun hsome ht => Option.some.inj hsome ▸ ht) hchange hd

theorem openNext?_fine (h : d.openNext? k = some d') (hd : d.table.Fine P) : d'.table.Fine P := by
  unfold openNext? at h
  split at h
  · cases h
  · split at h
    · cases h
    · rename_i hchange
      cases h
      exact Table.Fine.changeAt Table.Fine.extend? hchange hd

/-- **A value that is added with fine integers** leaves a document with fine integers. -/
theorem add?_fine (hv : v.Fine P) (h : d.add? k v = some d') (hd : d.table.Fine P) : d'.table.Fine P := by
  unfold add? at h
  dsimp only at h
  split at h
  · cases h
  · split at h
    · cases h
    · rename_i hchange
      cases h
      exact Table.Fine.changeAt (Table.Fine.add? hv) hchange hd

theorem addInline?_fine (hv : v.Fine P) (h : d.addInline? k v = some d') (hd : d.table.Fine P) : d'.table.Fine P := by
  unfold addInline? at h
  split at h
  · cases h
  · split at h
    · cases h
    · rename_i hchange
      cases h
      exact Table.Fine.changeAt (Table.Fine.add? hv) hchange hd

end Draft

end

end ScriptDriver.Toml
