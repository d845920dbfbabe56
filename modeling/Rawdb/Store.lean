import Rawdb.Schema

/-!
# The two-tier store

The accessors see the database through two interfaces. The live key/value store
(`ethdb.KeyValueReader`, `KeyValueWriter` and `Iteratee`) maps byte keys to byte values;
its iterators yield keys in ascending byte order. It is modelled as its list of entries
in strictly ascending key order, so that an iterator is a filter of that list and
sortedness is part of the value rather than a fact re-proved at every use.

The ancient store (`ethdb.AncientReader`) is a set of append-only tables indexed by block
number. `db.Ancient(table, n)` fails when `n` is past the end of the table, and the
accessors ignore that error and read an empty slice instead; a table is therefore a list
of items, and a probe returns `none` past its end.
-/

namespace Rawdb

/-- Insert or overwrite one entry of an ascending association list. -/
def insertEntry (key value : Bytes) : List (Bytes × Bytes) → List (Bytes × Bytes)
  | [] => [(key, value)]
  | entry :: rest =>
      if key < entry.1 then (key, value) :: entry :: rest
      else if key = entry.1 then (key, value) :: rest
      else entry :: insertEntry key value rest

/-- The value of the first entry under `key`. -/
def lookupEntry (key : Bytes) : List (Bytes × Bytes) → Option Bytes
  | [] => none
  | entry :: rest => if entry.1 = key then some entry.2 else lookupEntry key rest

theorem lookupEntry_insertEntry (key value probe : Bytes) :
    ∀ entries : List (Bytes × Bytes),
      lookupEntry probe (insertEntry key value entries) =
        if probe = key then some value else lookupEntry probe entries
  | [] => by by_cases probe = key <;> simp_all [insertEntry, lookupEntry, eq_comm]
  | first :: rest => by
      have ih := lookupEntry_insertEntry key value probe rest
      unfold insertEntry
      split_ifs <;> simp_all [lookupEntry, eq_comm]

theorem lookupEntry_filter (key probe : Bytes) (entries : List (Bytes × Bytes)) :
    lookupEntry probe (entries.filter fun entry => decide (entry.1 ≠ key)) =
      if probe = key then none else lookupEntry probe entries := by
  induction entries with
  | nil => simp [lookupEntry]
  | cons first rest ih =>
      by_cases firstKey : first.1 = key <;> by_cases probeKey : probe = key <;>
        simp_all [List.filter_cons, lookupEntry, @eq_comm _ key probe]

theorem mem_insertEntry {key value : Bytes} {entry : Bytes × Bytes} :
    ∀ {entries : List (Bytes × Bytes)}, entry ∈ insertEntry key value entries →
      entry = (key, value) ∨ entry ∈ entries
  | [] => by simp [insertEntry]
  | first :: rest => by
      unfold insertEntry
      split_ifs
      · simp only [List.mem_cons]; tauto
      · simp only [List.mem_cons]; tauto
      · simp only [List.mem_cons]
        rintro (rfl | mem)
        · exact .inr (.inl rfl)
        · rcases mem_insertEntry mem with inserted | old
          · exact .inl inserted
          · exact .inr (.inr old)

theorem pairwise_insertEntry (key value : Bytes) :
    ∀ {entries : List (Bytes × Bytes)},
      entries.Pairwise (fun entry entry' => entry.1 < entry'.1) →
      (insertEntry key value entries).Pairwise (fun entry entry' => entry.1 < entry'.1)
  | [] => fun _ => by simp [insertEntry]
  | first :: rest => fun sorted => by
      rw [List.pairwise_cons] at sorted
      unfold insertEntry
      split_ifs with before same
      · refine List.Pairwise.cons (fun entry mem => ?_) (List.Pairwise.cons sorted.1 sorted.2)
        rcases List.mem_cons.mp mem with rfl | later
        · exact before
        · exact lt_trans before (sorted.1 entry later)
      · subst same
        exact List.Pairwise.cons sorted.1 sorted.2
      · refine List.Pairwise.cons (fun entry mem => ?_) (pairwise_insertEntry key value sorted.2)
        rcases mem_insertEntry mem with rfl | old
        · exact lt_of_le_of_ne (not_lt.mp before) (Ne.symm same)
        · exact sorted.1 entry old

/-- The live key/value store: its entries, keys strictly ascending. -/
structure KeyValueStore where
  entries : List (Bytes × Bytes)
  sorted : entries.Pairwise (fun entry entry' => entry.1 < entry'.1)

namespace KeyValueStore

/-- The empty store. -/
def empty : KeyValueStore := ⟨[], .nil⟩

/-- `db.Get(key)`: the value stored under `key`, if any. -/
def get (db : KeyValueStore) (key : Bytes) : Option Bytes :=
  lookupEntry key db.entries

/-- `db.Has(key)`. -/
def has (db : KeyValueStore) (key : Bytes) : Bool :=
  (db.get key).isSome

/-- `db.Put(key, value)`. -/
def put (db : KeyValueStore) (key value : Bytes) : KeyValueStore :=
  ⟨insertEntry key value db.entries, pairwise_insertEntry key value db.sorted⟩

/-- `db.Delete(key)`. -/
def delete (db : KeyValueStore) (key : Bytes) : KeyValueStore :=
  ⟨db.entries.filter fun entry => decide (entry.1 ≠ key), db.sorted.filter _⟩

/-- `db.NewIterator(prefix, start)`: the entries whose key has the prefix and is at or
after `prefix ‖ start`, in ascending key order. -/
def newIterator (db : KeyValueStore) (keyPrefix start : Bytes) : List (Bytes × Bytes) :=
  db.entries.filter fun entry => decide (keyPrefix <+: entry.1 ∧ keyPrefix ++ start ≤ entry.1)

@[simp]
theorem get_put (db : KeyValueStore) (key value probe : Bytes) :
    (db.put key value).get probe = if probe = key then some value else db.get probe :=
  lookupEntry_insertEntry key value probe db.entries

@[simp]
theorem get_delete (db : KeyValueStore) (key probe : Bytes) :
    (db.delete key).get probe = if probe = key then none else db.get probe :=
  lookupEntry_filter key probe db.entries

@[simp]
theorem get_empty (probe : Bytes) : empty.get probe = none := rfl

theorem has_eq (db : KeyValueStore) (key : Bytes) : db.has key = (db.get key).isSome := rfl

/-- The entries under `key`, of which a sorted store has at most one, are what `get`
reads. -/
theorem filterMap_key_eq {β : Type} (db : KeyValueStore) (key : Bytes) (value : Bytes → β) :
    db.entries.filterMap (fun entry => if entry.1 = key then some (value entry.2) else none) =
      ((db.get key).map value).toList := by
  obtain ⟨entries, sorted⟩ := db
  simp only [get]
  induction entries with
  | nil => rfl
  | cons entry rest ih =>
      rw [List.pairwise_cons] at sorted
      by_cases here : entry.1 = key
      · have later : ∀ entry' ∈ rest, entry'.1 ≠ key := fun entry' mem =>
          here ▸ ne_of_gt (sorted.1 entry' mem)
        simpa [lookupEntry, here] using fun key' value' mem => later (key', value') mem
      · simp [lookupEntry, here, ih sorted.2]

end KeyValueStore

/-- One call on an `ethdb.KeyValueWriter`. -/
inductive Write where
  | put (key value : Bytes)
  | delete (key : Bytes)
deriving DecidableEq

namespace Write

/-- The key a write touches. -/
def key : Write → Bytes
  | put key _ => key
  | delete key => key

/-- The store after the write. -/
def apply : Write → KeyValueStore → KeyValueStore
  | put key value, db => db.put key value
  | delete key, db => db.delete key

@[simp]
theorem key_put (key value : Bytes) : (put key value).key = key := rfl

@[simp]
theorem key_delete (key : Bytes) : (delete key).key = key := rfl

@[simp]
theorem apply_put (key value : Bytes) (db : KeyValueStore) :
    (put key value).apply db = db.put key value := rfl

@[simp]
theorem apply_delete (key : Bytes) (db : KeyValueStore) :
    (delete key).apply db = db.delete key := rfl

/-- A write leaves every other key as it was. -/
theorem get_apply_of_ne (write : Write) (db : KeyValueStore) {probe : Bytes}
    (other : probe ≠ write.key) : (write.apply db).get probe = db.get probe := by
  cases write <;> simp_all [apply, key]

end Write

/-- The store after `writes`, in order. -/
def applyWrites (writes : List Write) (db : KeyValueStore) : KeyValueStore :=
  writes.foldl (fun db write => write.apply db) db

@[simp]
theorem applyWrites_nil (db : KeyValueStore) : applyWrites [] db = db := rfl

@[simp]
theorem applyWrites_cons (write : Write) (writes : List Write) (db : KeyValueStore) :
    applyWrites (write :: writes) db = applyWrites writes (write.apply db) := rfl

@[simp]
theorem applyWrites_append (writes writes' : List Write) (db : KeyValueStore) :
    applyWrites (writes ++ writes') db = applyWrites writes' (applyWrites writes db) :=
  List.foldl_append _ _ _ _

/-- The freezer's tables. -/
inductive Table where
  | hashTable
  | headerTable
  | bodiesTable
  | receiptTable
  | difficultyTable
deriving DecidableEq, Repr

/-- The database an accessor reads: the live store and the ancient tables. -/
structure Database where
  live : KeyValueStore
  ancient : Table → List Bytes

namespace Database

/-- `db.Ancient(table, number)`: the item at `number`, or `none` (an error) past the end. -/
def ancientAt (db : Database) (table : Table) (number : UInt64) : Option Bytes :=
  (db.ancient table)[number.toNat]?

/-- The freezer appends `item` to `table`. -/
def appendAncient (db : Database) (table : Table) (item : Bytes) : Database :=
  { db with ancient := Function.update db.ancient table (db.ancient table ++ [item]) }

/-- A live-store delete, leaving the ancient tables alone. -/
def deleteLive (db : Database) (key : Bytes) : Database :=
  { db with live := db.live.delete key }

end Database

end Rawdb
