/-!
# Tables Keyed by Identifiers

Finite maps from identifiers to rows, the only container the server's state is
built from: live objects by reference, parked calls by call, connections by
connection, and so on.

Every identifier in this library is a natural number handed out by a counter,
so a table keeps its rows in ascending order of identifier. Order is what the
callers ask for — parked calls are advanced oldest first, replies are listed
by ticket — and it makes the representation canonical: two tables that answer
every lookup alike are the same table (`Table.ext_get?`). States that differ
only in the history that led to them are therefore equal, not merely
equivalent, which is how statements about disconnecting clients in either
order are phrased.

The order is part of the type. An operation that could break it cannot be
written, so no invariant about it has to be carried through the library.

## Main definitions

* `Table`: Rows in strictly ascending order of key.
* `Table.get?`, `Table.contains`: Lookup.
* `Table.insert`, `Table.erase`, `Table.filter`, `Table.mapRows`: Updates.
* `IdSet`: A table of bare keys.

## Theorems

* `Table.get?_insert`, `Table.get?_erase`, `Table.get?_mapRows`: Lookup after
  each update.
* `Table.mem_rows_iff`: Being listed and being found are the same.
* `Table.ext_get?`: A table is determined by its lookups.
* `Table.contains_iff`, `Table.mem_keys_iff`: Membership as lookup.
* `Table.keys_ascending`, `Table.keys_nodup`: No key is listed twice.
* `Table.contains_insert`, `Table.contains_erase`: Membership after each update.
* `Table.size_insert`, `Table.size_erase`, `Table.size_filter_add_size_filter_not`,
  `Table.size_filter_eq_countP`: How many rows there are after each update.
* `IdSet.contains_add`, `IdSet.contains_erase`: Membership after each update.
* `IdSet.add_of_contains`, `IdSet.add_comm`: Adding is idempotent and commutative.
-/

namespace Switchboard

/-- A finite map from identifiers, kept in strictly ascending order of key. -/
structure Table (α : Type) where
  /-- The rows, lowest key first. -/
  rows : List (Nat × α)
  /-- No key is listed twice and the order is ascending. -/
  ascending : rows.Pairwise fun a b => a.1 < b.1

namespace Table

variable {α β : Type}

/-- The table without rows. -/
def empty : Table α := ⟨[], List.Pairwise.nil⟩

instance : EmptyCollection (Table α) := ⟨empty⟩

instance : Inhabited (Table α) := ⟨empty⟩

/-- The row stored under a key. -/
def get? (t : Table α) (key : Nat) : Option α :=
  (t.rows.find? fun row => row.1 == key).map (·.2)

/-- Whether a row is stored under the key. -/
def contains (t : Table α) (key : Nat) : Bool := (t.get? key).isSome

/-- The keys in ascending order. -/
def keys (t : Table α) : List Nat := t.rows.map (·.1)

/-- The stored rows without their keys, in ascending order of key. -/
def values (t : Table α) : List α := t.rows.map (·.2)

/-- How many rows are stored. -/
def size (t : Table α) : Nat := t.rows.length

/-- Whether nothing is stored. -/
def isEmpty (t : Table α) : Bool := t.rows.isEmpty

/-- Places a row at its position, replacing the one under the same key. -/
def insertRow (key : Nat) (a : α) : List (Nat × α) → List (Nat × α)
  | [] => [(key, a)]
  | row :: rest =>
    if key < row.1 then (key, a) :: row :: rest
    else if key = row.1 then (key, a) :: rest
    else row :: insertRow key a rest

theorem of_mem_insertRow {key : Nat} {a : α} {rows : List (Nat × α)} {row : Nat × α}
    (h : row ∈ insertRow key a rows) : row = (key, a) ∨ row ∈ rows := by
  induction rows with
  | nil => exact Or.inl (by simpa [insertRow] using h)
  | cons r rest ih =>
    unfold insertRow at h
    split at h
    · simpa using h
    · split at h
      · rcases List.mem_cons.mp h with h | h
        · exact Or.inl h
        · exact Or.inr (List.mem_cons_of_mem _ h)
      · rcases List.mem_cons.mp h with h | h
        · exact Or.inr (h ▸ List.mem_cons_self)
        · exact (ih h).imp_right (List.mem_cons_of_mem _)

theorem insertRow_ascending {key : Nat} {a : α} {rows : List (Nat × α)}
    (h : rows.Pairwise fun a b => a.1 < b.1) :
    (insertRow key a rows).Pairwise fun a b => a.1 < b.1 := by
  induction rows with
  | nil => simp [insertRow]
  | cons r rest ih =>
    obtain ⟨hr, hrest⟩ := List.pairwise_cons.mp h
    unfold insertRow
    split
    · rename_i hlt
      refine List.pairwise_cons.mpr ⟨?_, h⟩
      intro b hb
      rcases List.mem_cons.mp hb with rfl | hb
      · exact hlt
      · exact Nat.lt_trans hlt (hr b hb)
    · split
      · rename_i heq
        exact List.pairwise_cons.mpr ⟨fun b hb => heq ▸ hr b hb, hrest⟩
      · rename_i hge hne
        refine List.pairwise_cons.mpr ⟨?_, ih hrest⟩
        intro b hb
        rcases of_mem_insertRow hb with rfl | hb
        · show r.1 < key
          omega
        · exact hr b hb

/-- Stores a row, replacing the one under the same key. -/
def insert (t : Table α) (key : Nat) (a : α) : Table α :=
  ⟨insertRow key a t.rows, insertRow_ascending t.ascending⟩

/-- Keeps the rows a test accepts. -/
def filter (t : Table α) (keep : Nat → α → Bool) : Table α :=
  ⟨t.rows.filter fun row => keep row.1 row.2, t.ascending.filter _⟩

/-- Removes the row under a key, if there is one. -/
def erase (t : Table α) (key : Nat) : Table α := t.filter fun k _ => k != key

/-- Changes every row in place. -/
def mapRows (t : Table α) (f : Nat → α → β) : Table β :=
  ⟨t.rows.map fun row => (row.1, f row.1 row.2), by
    refine List.pairwise_map.mpr (t.ascending.imp ?_)
    intro a b h
    exact h⟩

/-- A table with one row. -/
def single (key : Nat) (a : α) : Table α := ⟨[(key, a)], by simp⟩

/-- Looking a key up finds the row listed under it. -/
theorem mem_rows_iff {t : Table α} {key : Nat} {a : α} :
    (key, a) ∈ t.rows ↔ t.get? key = some a := by
  obtain ⟨rows, hasc⟩ := t
  simp only [get?]
  induction rows with
  | nil => simp
  | cons r rest ih =>
    obtain ⟨hr, hrest⟩ := List.pairwise_cons.mp hasc
    by_cases hk : r.1 = key
    · subst hk
      simp only [List.mem_cons, List.find?_cons, beq_self_eq_true, Option.map_some,
        Option.some.injEq]
      constructor
      · rintro (h | h)
        · exact (congrArg Prod.snd h).symm
        · exact absurd (hr _ h) (Nat.lt_irrefl _)
      · rintro rfl
        exact Or.inl rfl
    · have hb : (r.1 == key) = false := by simpa using hk
      rw [List.find?_cons, hb, ← ih hrest]
      constructor
      · intro h
        rcases List.mem_cons.mp h with h | h
        · exact absurd (congrArg Prod.fst h).symm hk
        · exact h
      · exact List.mem_cons_of_mem _

@[simp] theorem get?_empty (key : Nat) : (empty : Table α).get? key = none := rfl

theorem get?_insert (t : Table α) (key k : Nat) (a : α) :
    (t.insert key a).get? k = if k = key then some a else t.get? k := by
  obtain ⟨rows, hasc⟩ := t
  simp only [get?, insert]
  induction rows with
  | nil =>
    by_cases h : k = key
    · simp [insertRow, h]
    · simp [insertRow, h, Ne.symm h]
  | cons r rest ih =>
    have ih := ih (List.pairwise_cons.mp hasc).2
    unfold insertRow
    split
    · by_cases h : k = key
      · simp [h]
      · have : (key == k) = false := by simpa using Ne.symm h
        simp [List.find?_cons, h, this]
    · split
      · rename_i heq
        by_cases h : k = key
        · simp [h]
        · have h1 : (key == k) = false := by simpa using Ne.symm h
          have h2 : (r.1 == k) = false := by simpa [← heq] using Ne.symm h
          simp [h, h1, h2]
      · rename_i hne
        by_cases hk : r.1 = k
        · have : k ≠ key := fun h => hne (h ▸ hk.symm)
          simp [hk, this]
        · have h1 : (r.1 == k) = false := by simpa using hk
          rw [List.find?_cons, h1, List.find?_cons, h1]
          exact ih

theorem get?_filter (t : Table α) (keep : Nat → α → Bool) (key : Nat) :
    (t.filter keep).get? key = (t.get? key).filter (keep key) := by
  have hiff : ∀ a, (t.filter keep).get? key = some a ↔
      (t.get? key).filter (keep key) = some a := by
    intro a
    rw [← mem_rows_iff, Option.filter_eq_some_iff, ← mem_rows_iff]
    simp [filter, List.mem_filter]
  exact Option.ext hiff

theorem get?_erase (t : Table α) (key k : Nat) :
    (t.erase key).get? k = if k = key then none else t.get? k := by
  rw [erase, get?_filter]
  by_cases h : k = key
  · subst h
    cases t.get? k <;> simp [Option.filter]
  · have : (k != key) = true := by simpa using h
    cases t.get? k <;> simp [Option.filter, h, this]

theorem get?_filter_eq_some_iff {t : Table α} {keep : Nat → α → Bool} {key : Nat} {a : α} :
    (t.filter keep).get? key = some a ↔ t.get? key = some a ∧ keep key a = true := by
  rw [get?_filter, Option.filter_eq_some_iff]

theorem get?_erase_eq_some_iff {t : Table α} {key k : Nat} {a : α} :
    (t.erase key).get? k = some a ↔ t.get? k = some a ∧ k ≠ key := by
  rw [erase, get?_filter_eq_some_iff, bne_iff_ne]

theorem get?_mapRows (t : Table α) (f : Nat → α → β) (key : Nat) :
    (t.mapRows f).get? key = (t.get? key).map (f key) := by
  obtain ⟨rows, hasc⟩ := t
  simp only [get?, mapRows]
  induction rows with
  | nil => rfl
  | cons r rest ih =>
    have ih := ih (List.pairwise_cons.mp hasc).2
    by_cases hk : r.1 = key
    · simp [hk]
    · have h1 : (r.1 == key) = false := by simpa using hk
      simpa [List.find?_cons, h1] using ih

@[simp] theorem get?_emptyCollection (key : Nat) : ({} : Table α).get? key = none := rfl

theorem get?_single (key k : Nat) (a : α) :
    (single key a).get? k = if k = key then some a else none := by
  by_cases h : k = key
  · simp [get?, single, h]
  · have : (key == k) = false := by simpa using Ne.symm h
    simp [get?, single, h, this]

theorem contains_iff {t : Table α} {key : Nat} :
    t.contains key = true ↔ ∃ a, t.get? key = some a := by
  rw [contains, Option.isSome_iff_exists]

theorem contains_eq_false_iff {t : Table α} {key : Nat} :
    t.contains key = false ↔ t.get? key = none := by
  rw [contains, Option.isSome_eq_false_iff, Option.isNone_iff_eq_none]

theorem contains_insert {t : Table α} {key k : Nat} {a : α} :
    (t.insert key a).contains k = true ↔ k = key ∨ t.contains k = true := by
  rw [contains, get?_insert]
  by_cases h : k = key
  · simp [h]
  · simp [h, contains]

theorem contains_erase {t : Table α} {key k : Nat} :
    (t.erase key).contains k = true ↔ k ≠ key ∧ t.contains k = true := by
  rw [contains, get?_erase]
  by_cases h : k = key
  · simp [h]
  · simp [h, contains]

theorem mem_keys_iff {t : Table α} {key : Nat} : key ∈ t.keys ↔ ∃ a, t.get? key = some a := by
  constructor
  · intro h
    rcases List.mem_map.mp h with ⟨row, hrow, rfl⟩
    exact ⟨row.2, mem_rows_iff.mp hrow⟩
  · rintro ⟨a, ha⟩
    exact List.mem_map.mpr ⟨(key, a), mem_rows_iff.mpr ha, rfl⟩

theorem mem_values_iff {t : Table α} {a : α} : a ∈ t.values ↔ ∃ key, t.get? key = some a := by
  constructor
  · intro h
    rcases List.mem_map.mp h with ⟨row, hrow, rfl⟩
    exact ⟨row.1, mem_rows_iff.mp hrow⟩
  · rintro ⟨key, ha⟩
    exact List.mem_map.mpr ⟨(key, a), mem_rows_iff.mpr ha, rfl⟩

theorem keys_ascending (t : Table α) : t.keys.Pairwise (· < ·) :=
  List.pairwise_map.mpr t.ascending

theorem keys_nodup (t : Table α) : t.keys.Nodup := t.keys_ascending.imp Nat.ne_of_lt

/-- What is read off the rows is listed once if it tells the keys apart. -/
theorem values_map_nodup {t : Table α} {f : α → β}
    (hinj : ∀ {k k' : Nat} {a a' : α}, t.get? k = some a → t.get? k' = some a' → f a = f a' →
      k = k') : (t.values.map f).Nodup := by
  rw [values, List.map_map, List.Nodup, List.pairwise_map]
  refine t.ascending.imp_of_mem ?_
  intro row row' hrow hrow' hlt hsame
  have hkeys := hinj (mem_rows_iff.mp hrow) (mem_rows_iff.mp hrow') hsame
  omega

theorem isEmpty_eq_false_iff {t : Table α} :
    t.isEmpty = false ↔ ∃ key, t.contains key = true := by
  simp only [contains_iff, isEmpty, List.isEmpty_eq_false_iff_exists_mem]
  constructor
  · rintro ⟨row, hrow⟩
    exact ⟨row.1, row.2, mem_rows_iff.mp hrow⟩
  · rintro ⟨key, a, ha⟩
    exact ⟨(key, a), mem_rows_iff.mpr ha⟩

/-- A table is determined by its lookups. -/
theorem ext_get? {t u : Table α} (h : ∀ key, t.get? key = u.get? key) : t = u := by
  have hmem : ∀ row, row ∈ t.rows ↔ row ∈ u.rows := by
    intro row
    rw [show row = (row.1, row.2) from rfl, mem_rows_iff, mem_rows_iff, h]
  obtain ⟨rows, hr⟩ := t
  obtain ⟨others, ho⟩ := u
  simp only [Table.mk.injEq]
  replace hmem : ∀ row, row ∈ rows ↔ row ∈ others := hmem
  clear h
  induction rows generalizing others with
  | nil =>
    cases others with
    | nil => rfl
    | cons b _ => exact absurd ((hmem b).mpr List.mem_cons_self) (by simp)
  | cons a as ih =>
    cases others with
    | nil => exact absurd ((hmem a).mp List.mem_cons_self) (by simp)
    | cons b bs =>
      obtain ⟨ha, has⟩ := List.pairwise_cons.mp hr
      obtain ⟨hb, hbs⟩ := List.pairwise_cons.mp ho
      -- The least row of either list is the other's least row.
      have hab : a = b := by
        rcases List.mem_cons.mp ((hmem a).mp List.mem_cons_self) with h | h
        · exact h
        · rcases List.mem_cons.mp ((hmem b).mpr List.mem_cons_self) with h' | h'
          · exact h'.symm
          · have := ha _ h'
            have := hb _ h
            omega
      subst hab
      rw [ih has bs hbs]
      intro row
      have hrow := hmem row
      simp only [List.mem_cons] at hrow
      constructor
      · intro hin
        rcases hrow.mp (Or.inr hin) with h | h
        · have := ha _ hin
          rw [h] at this
          omega
        · exact h
      · intro hin
        rcases hrow.mpr (Or.inr hin) with h | h
        · have := hb _ hin
          rw [h] at this
          omega
        · exact h

/-! ## Sizes -/

theorem length_insertRow {key : Nat} {a : α} {rows : List (Nat × α)}
    (h : ∀ row ∈ rows, row.1 ≠ key) : (insertRow key a rows).length = rows.length + 1 := by
  induction rows with
  | nil => rfl
  | cons row rest ih =>
    obtain ⟨hrow, hrest⟩ := List.forall_mem_cons.mp h
    unfold insertRow
    split
    · rfl
    · rw [if_neg (Ne.symm hrow), List.length_cons, ih hrest, List.length_cons]

/-- A row under a new key is one more. -/
theorem size_insert {t : Table α} {key : Nat} (h : t.get? key = none) (a : α) :
    (t.insert key a).size = t.size + 1 := by
  refine length_insertRow fun row hrow heq => ?_
  rw [← heq, mem_rows_iff.mp hrow] at h
  exact absurd h (Option.some_ne_none _)

/-- A test divides the rows. -/
theorem size_filter_add_size_filter_not (t : Table α) (keep : Nat → α → Bool) :
    (t.filter keep).size + (t.filter fun k a => !keep k a).size = t.size := by
  have h := List.length_eq_countP_add_countP (fun row : Nat × α => keep row.1 row.2) (l := t.rows)
  simp only [size, filter, h, List.countP_eq_length_filter, Bool.not_eq_true,
    Bool.decide_eq_false]

/-- The rows that a test of what is stored accepts. -/
theorem size_filter_eq_countP (t : Table α) (keep : α → Bool) :
    (t.filter fun _ a => keep a).size = t.values.countP keep := by
  rw [values, List.countP_map, List.countP_eq_length_filter]
  rfl

theorem size_mapRows (t : Table α) (f : Nat → α → β) : (t.mapRows f).size = t.size :=
  List.length_map _

theorem size_single (key : Nat) (a : α) : (single key a).size = 1 := rfl

/-- What is removed was one row. -/
theorem size_erase {t : Table α} {key : Nat} {a : α} (h : t.get? key = some a) :
    (t.erase key).size + 1 = t.size := by
  have honly : (t.filter fun k _ => !(k != key)) = single key a := by
    refine ext_get? fun k => ?_
    rw [get?_filter, get?_single]
    by_cases hk : k = key
    · subst hk
      simp [h, Option.filter]
    · cases t.get? k <;> simp [Option.filter, hk]
  have hparts := t.size_filter_add_size_filter_not fun k _ => k != key
  rw [honly, size_single] at hparts
  exact hparts

/-- Removing what is not there removes nothing. -/
theorem erase_of_get?_eq_none {t : Table α} {key : Nat} (h : t.get? key = none) :
    t.erase key = t := by
  refine ext_get? fun k => ?_
  rw [get?_erase]
  split
  next hk => rw [hk, h]
  next => rfl

theorem erase_of_isEmpty {t : Table α} (h : t.isEmpty = true) (key : Nat) : t.erase key = t := by
  refine erase_of_get?_eq_none ?_
  rw [← contains_eq_false_iff, ← Bool.not_eq_true]
  intro hkey
  rw [isEmpty_eq_false_iff.mpr ⟨key, hkey⟩] at h
  exact absurd h (by decide)

theorem erase_erase (t : Table α) (key : Nat) : (t.erase key).erase key = t.erase key :=
  erase_of_get?_eq_none (by rw [get?_erase, if_pos rfl])

theorem erase_comm (t : Table α) (key other : Nat) :
    (t.erase key).erase other = (t.erase other).erase key := by
  refine ext_get? fun k => ?_
  simp only [get?_erase]
  split <;> split <;> rfl

/-- Removing a row makes a table smaller if it was there. -/
theorem size_erase_add_contains (t : Table α) (key : Nat) :
    (t.erase key).size + (t.contains key).toNat = t.size := by
  cases h : t.get? key with
  | none =>
    rw [erase_of_get?_eq_none h, contains_eq_false_iff.mpr h]
    rfl
  | some a =>
    rw [contains_iff.mpr ⟨a, h⟩]
    exact size_erase h

end Table

/-- A finite set of identifiers. -/
abbrev IdSet := Table Unit

namespace IdSet

/-- Adds an identifier. -/
def add (s : IdSet) (id : Nat) : IdSet := s.insert id ()

/-- The set with one member. -/
def of (id : Nat) : IdSet := Table.single id ()

theorem contains_add (s : IdSet) (id k : Nat) :
    (s.add id).contains k = true ↔ k = id ∨ s.contains k = true := Table.contains_insert

theorem contains_of (id k : Nat) : (of id).contains k = true ↔ k = id := by
  rw [Table.contains, of, Table.get?_single]
  by_cases h : k = id
  · simp [h]
  · simp [h]

theorem contains_erase (s : IdSet) (id k : Nat) :
    (s.erase id).contains k = true ↔ k ≠ id ∧ s.contains k = true := Table.contains_erase

/-- A member that is added is there once, however often it is added. -/
theorem add_of_contains {s : IdSet} {id : Nat} (h : s.contains id = true) : s.add id = s := by
  refine Table.ext_get? fun k => ?_
  rw [add, Table.get?_insert]
  split
  next hk =>
    rcases Table.contains_iff.mp h with ⟨⟨⟩, hid⟩
    rw [hk, hid]
  next => rfl

theorem add_add (s : IdSet) (id : Nat) : (s.add id).add id = s.add id :=
  add_of_contains ((contains_add s id id).mpr (.inl rfl))

theorem add_of (id : Nat) : (of id).add id = of id :=
  add_of_contains ((contains_of id id).mpr rfl)

theorem add_comm (s : IdSet) (a b : Nat) : (s.add a).add b = (s.add b).add a := by
  refine Table.ext_get? fun k => ?_
  simp only [add, Table.get?_insert]
  split <;> split <;> rfl

end IdSet

end Switchboard
