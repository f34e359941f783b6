/-
  CallFeed — tables: values under texts, each text at most once.

  * `Table.alter` changes the value under a key, or enters a new key behind the
    others (`keys_alterRows`);
  * `Table.put` and `Table.ofRows`: of two values for one key the last one stays;
  * `Table.get?_put`, `Table.get?_mapValues`: what is found after an entry, and after a change
    of all values.
-/

namespace CallFeed

/-- Values under distinct keys, in the order in which the keys were entered. -/
structure Table (α : Type) where
  rows : List (String × α)
  distinct : (rows.map Prod.fst).Nodup

namespace Table

variable {α : Type}

/-- The table without entries. -/
def empty : Table α := ⟨[], List.nodup_nil⟩

instance : Inhabited (Table α) := ⟨empty⟩

/-- The number of keys. -/
def size (t : Table α) : Nat := t.rows.length

/-- The value of the row of a key. -/
def lookupRows (key : String) : List (String × α) → Option α
  | [] => none
  | (k, v) :: r => if k = key then some v else lookupRows key r

/-- The value under a key. -/
def get? (t : Table α) (key : String) : Option α := lookupRows key t.rows

/-- The rows with the value under `key` changed by `f`, which is given no value for a
    new key. -/
def alterRows (key : String) (f : Option α → α) : List (String × α) → List (String × α)
  | [] => [(key, f none)]
  | (k, v) :: r => if k = key then (k, f (some v)) :: r else (k, v) :: alterRows key f r

theorem keys_alterRows (key : String) (f : Option α → α) (rows : List (String × α)) :
    (alterRows key f rows).map Prod.fst =
      if key ∈ rows.map Prod.fst then rows.map Prod.fst else rows.map Prod.fst ++ [key] := by
  induction rows with
  | nil => simp [alterRows]
  | cons row r ih =>
    obtain ⟨k, v⟩ := row
    by_cases h : k = key
    · simp [alterRows, h]
    · by_cases hr : key ∈ r.map Prod.fst <;> simp_all [alterRows, Ne.symm h]

theorem nodup_alterRows {rows : List (String × α)} (key : String) (f : Option α → α)
    (h : (rows.map Prod.fst).Nodup) : ((alterRows key f rows).map Prod.fst).Nodup := by
  rw [keys_alterRows]
  split
  · exact h
  · rename_i hk
    rw [List.nodup_append]
    refine ⟨h, by simp, ?_⟩
    rintro a ha b hb rfl
    rw [List.mem_singleton] at hb
    exact hk (hb ▸ ha)

/-- Changes the value under a key, or enters the key. -/
def alter (t : Table α) (key : String) (f : Option α → α) : Table α :=
  ⟨alterRows key f t.rows, nodup_alterRows key f t.distinct⟩

/-- Puts a value under a key, in the place of an earlier one. -/
def put (t : Table α) (key : String) (value : α) : Table α :=
  t.alter key fun _ => value

/-- The table of a list of rows; the last row of a key counts. -/
def ofRows (rows : List (String × α)) : Table α :=
  rows.foldl (fun t row => t.put row.1 row.2) empty

/-- The same keys with every value changed. -/
def mapValues {β : Type} (t : Table α) (f : α → β) : Table β :=
  ⟨t.rows.map fun row => (row.1, f row.2), by simpa [Function.comp_def] using t.distinct⟩

/-- The sum of the values of rows. -/
def sumRows : List (String × Nat) → Nat
  | [] => 0
  | row :: r => row.2 + sumRows r

theorem lookupRows_alterRows (key k : String) (f : Option α → α) (rows : List (String × α)) :
    lookupRows k (alterRows key f rows) =
      if k = key then some (f (lookupRows key rows)) else lookupRows k rows := by
  induction rows with
  | nil => simp [alterRows, lookupRows, eq_comm]
  | cons row r ih =>
    obtain ⟨k', v⟩ := row
    by_cases h : k' = key
    · subst h
      by_cases hk : k' = k
      · simp [alterRows, lookupRows, hk]
      · simp [alterRows, lookupRows, hk, Ne.symm hk]
    · by_cases hk : k' = k
      · subst hk
        simp [alterRows, lookupRows, h]
      · simp [alterRows, lookupRows, h, hk, ih]

theorem get?_alter (t : Table α) (key k : String) (f : Option α → α) :
    (t.alter key f).get? k = if k = key then some (f (t.get? key)) else t.get? k :=
  lookupRows_alterRows key k f t.rows

theorem get?_put (t : Table α) (key k : String) (value : α) :
    (t.put key value).get? k = if k = key then some value else t.get? k :=
  get?_alter t key k _

theorem get?_mapValues {β : Type} (t : Table α) (f : α → β) (key : String) :
    (t.mapValues f).get? key = (t.get? key).map f := by
  show lookupRows key (t.rows.map fun row => (row.1, f row.2)) = (lookupRows key t.rows).map f
  induction t.rows with
  | nil => rfl
  | cons row r ih =>
    simp only [List.map_cons, lookupRows]
    split
    · rfl
    · exact ih

end Table

end CallFeed
