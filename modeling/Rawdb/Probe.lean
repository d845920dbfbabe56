import Rawdb.Store

/-!
# Reader calls as sequences of probes

An accessor holds no lock. Each of its store operations (`db.Ancient`, `db.Get`,
`db.Has`) is atomic, but the freezer may move data between any two of them. A reader
call is therefore modelled as the tree of its probes: each node is one store operation,
and its continuation is the rest of the call given what that operation returned.

`Probe.eval` runs a call against one quiescent database. `Probe.Runs env` runs it while
an environment, given as a step relation on databases, takes any number of steps before
each probe; this covers every interleaving of the call with the environment's steps.
-/

namespace Rawdb

/-- A reader call, one store probe at a time. -/
inductive Probe (α : Type) where
  | done (result : α)
  | ancient (table : Table) (number : UInt64) (next : Option Bytes → Probe α)
  | get (key : Bytes) (next : Option Bytes → Probe α)
  | has (key : Bytes) (next : Bool → Probe α)

namespace Probe

variable {α β : Type}

/-- Sequencing: run `call`, then `rest` on its result. -/
def bind : Probe α → (α → Probe β) → Probe β
  | done result, rest => rest result
  | ancient table number next, rest => ancient table number fun item => (next item).bind rest
  | get key next, rest => get key fun value => (next value).bind rest
  | has key next, rest => has key fun present => (next present).bind rest

instance : Monad Probe where
  pure := done
  bind := bind

@[simp]
theorem pure_eq (result : α) : (pure result : Probe α) = done result := rfl

@[simp]
theorem bind_eq (call : Probe α) (rest : α → Probe β) : call >>= rest = call.bind rest := rfl

@[simp]
theorem done_bind (result : α) (rest : α → Probe β) : (done result).bind rest = rest result :=
  rfl

/-- `data, _ := db.Ancient(table, number)`: the item, or an empty slice on error. -/
def ancientData (table : Table) (number : UInt64) : Probe Bytes :=
  ancient table number fun item => done (item.getD [])

/-- `data, _ := db.Get(key)`: the value, or an empty slice when absent. -/
def getData (key : Bytes) : Probe Bytes :=
  get key fun value => done (value.getD [])

/-! ## Quiescent evaluation -/

/-- The result of `call` when every probe reads `db`. -/
def eval (db : Database) : Probe α → α
  | done result => result
  | ancient table number next => (next (db.ancientAt table number)).eval db
  | get key next => (next (db.live.get key)).eval db
  | has key next => (next (db.live.has key)).eval db

@[simp]
theorem eval_done (db : Database) (result : α) : (done result).eval db = result := rfl

@[simp]
theorem eval_bind (db : Database) (call : Probe α) (rest : α → Probe β) :
    (call.bind rest).eval db = (rest (call.eval db)).eval db := by
  induction call with
  | done => rfl
  | ancient table number next ih => exact ih _
  | get key next ih => exact ih _
  | has key next ih => exact ih _

@[simp]
theorem eval_ancientData (db : Database) (table : Table) (number : UInt64) :
    (ancientData table number).eval db = (db.ancientAt table number).getD [] := rfl

@[simp]
theorem eval_getData (db : Database) (key : Bytes) :
    (getData key).eval db = (db.live.get key).getD [] := rfl

/-! ## Runs under a concurrent environment -/

open Relation

/-- `Runs env db call result final`: started on `db`, with the environment taking any
number of `env` steps before each probe, `call` can return `result`, its last probe
having read `final`. -/
inductive Runs (env : Database → Database → Prop) :
    Database → Probe α → α → Database → Prop
  | done {db : Database} {result : α} : Runs env db (done result) result db
  | ancient {db probed final : Database} {table : Table} {number : UInt64}
      {next : Option Bytes → Probe α} {result : α} :
      ReflTransGen env db probed →
      Runs env probed (next (probed.ancientAt table number)) result final →
      Runs env db (ancient table number next) result final
  | get {db probed final : Database} {key : Bytes} {next : Option Bytes → Probe α}
      {result : α} :
      ReflTransGen env db probed →
      Runs env probed (next (probed.live.get key)) result final →
      Runs env db (get key next) result final
  | has {db probed final : Database} {key : Bytes} {next : Bool → Probe α} {result : α} :
      ReflTransGen env db probed →
      Runs env probed (next (probed.live.has key)) result final →
      Runs env db (has key next) result final

variable {env : Database → Database → Prop} {db final : Database}

theorem runs_done_iff {value result : α} :
    Runs env db (done value) result final ↔ result = value ∧ final = db := by
  constructor
  · rintro ⟨⟩
    exact ⟨rfl, rfl⟩
  · rintro ⟨rfl, rfl⟩
    exact .done

theorem runs_ancient_iff {table : Table} {number : UInt64} {next : Option Bytes → Probe α}
    {result : α} :
    Runs env db (ancient table number next) result final ↔
      ∃ probed, ReflTransGen env db probed ∧
        Runs env probed (next (probed.ancientAt table number)) result final := by
  constructor
  · rintro ⟨⟩
    exact ⟨_, ‹_›, ‹_›⟩
  · rintro ⟨probed, reach, rest⟩
    exact .ancient reach rest

theorem runs_get_iff {key : Bytes} {next : Option Bytes → Probe α} {result : α} :
    Runs env db (get key next) result final ↔
      ∃ probed, ReflTransGen env db probed ∧
        Runs env probed (next (probed.live.get key)) result final := by
  constructor
  · rintro ⟨⟩
    exact ⟨_, ‹_›, ‹_›⟩
  · rintro ⟨probed, reach, rest⟩
    exact .get reach rest

theorem runs_has_iff {key : Bytes} {next : Bool → Probe α} {result : α} :
    Runs env db (has key next) result final ↔
      ∃ probed, ReflTransGen env db probed ∧
        Runs env probed (next (probed.live.has key)) result final := by
  constructor
  · rintro ⟨⟩
    exact ⟨_, ‹_›, ‹_›⟩
  · rintro ⟨probed, reach, rest⟩
    exact .has reach rest

/-- The existentials of a probe followed by a run, reassociated: the shape each probe's
case of `runs_bind_iff` takes. -/
theorem exists_probe_runs_iff {γ : Type} {probe : Database → Prop}
    {run : Database → γ → Database → Prop} {rest : γ → Database → Prop} :
    (∃ probed, probe probed ∧
        ∃ value middle, run probed value middle ∧ rest value middle) ↔
      ∃ value middle,
        (∃ probed, probe probed ∧ run probed value middle) ∧ rest value middle :=
  ⟨fun ⟨probed, reach, value, middle, first, second⟩ =>
      ⟨value, middle, ⟨probed, reach, first⟩, second⟩,
    fun ⟨value, middle, ⟨probed, reach, first⟩, second⟩ =>
      ⟨probed, reach, value, middle, first, second⟩⟩

/-- A run of `call` followed by `rest` is a run of `call` and then a run of `rest` from
where the first left off. -/
theorem runs_bind_iff {call : Probe α} {rest : α → Probe β} {result : β} :
    Runs env db (call.bind rest) result final ↔
      ∃ value middle, Runs env db call value middle ∧
        Runs env middle (rest value) result final := by
  induction call generalizing db with
  | done value =>
      simp only [done_bind, runs_done_iff]
      exact ⟨fun run => ⟨value, db, ⟨rfl, rfl⟩, run⟩,
        by rintro ⟨_, _, ⟨rfl, rfl⟩, run⟩; exact run⟩
  | ancient table number next ih =>
      simp only [bind, runs_ancient_iff, ih]
      exact exists_probe_runs_iff
  | get key next ih =>
      simp only [bind, runs_get_iff, ih]
      exact exists_probe_runs_iff
  | has key next ih =>
      simp only [bind, runs_has_iff, ih]
      exact exists_probe_runs_iff

theorem runs_ancientData_iff {table : Table} {number : UInt64} {result : Bytes} :
    Runs env db (ancientData table number) result final ↔
      ReflTransGen env db final ∧ result = (final.ancientAt table number).getD [] := by
  simp only [ancientData, runs_ancient_iff, runs_done_iff]
  exact ⟨fun ⟨_, reach, same, rfl⟩ => ⟨reach, same⟩,
    fun ⟨reach, same⟩ => ⟨_, reach, same, rfl⟩⟩

theorem runs_getData_iff {key : Bytes} {result : Bytes} :
    Runs env db (getData key) result final ↔
      ReflTransGen env db final ∧ result = (final.live.get key).getD [] := by
  simp only [getData, runs_get_iff, runs_done_iff]
  exact ⟨fun ⟨_, reach, same, rfl⟩ => ⟨reach, same⟩,
    fun ⟨reach, same⟩ => ⟨_, reach, same, rfl⟩⟩

/-- Every call returns: with the environment idle, it returns its quiescent result. -/
theorem runs_eval (call : Probe α) (db : Database) : Runs env db call (call.eval db) db := by
  induction call with
  | done => exact .done
  | ancient table number next ih => exact .ancient .refl (ih _)
  | get key next ih => exact .get .refl (ih _)
  | has key next ih => exact .has .refl (ih _)

/-- The last probe of a run reads a database the environment reaches from the start. -/
theorem Runs.reach {call : Probe α} {result : α} (run : Runs env db call result final) :
    ReflTransGen env db final := by
  induction run with
  | done => exact .refl
  | ancient reach _ ih => exact reach.trans ih
  | get reach _ ih => exact reach.trans ih
  | has reach _ ih => exact reach.trans ih

end Probe

end Rawdb
