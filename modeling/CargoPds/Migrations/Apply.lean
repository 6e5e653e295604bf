import Mathlib.Data.List.Sort
import Mathlib.Logic.Function.Basic
import CargoPds.Foundation.Identity
import CargoPds.Foundation.Text

/-!
# Migrations

`Apply` installs the SQL files that are embedded in a release.  During a rollout several
instances, of older and of newer releases, start on one database; an advisory lock of the
session lets one of them work at a time.  Any statement may fail, the reply to a statement
may get lost after it has taken effect, and the unlocking at the end may fail as well, in
which case the lock is free when the session is closed.

* `migrations_applied_once`: what holds for any releases and any interleaving;
* `rollout_in_order`: when every release continues the one before it, the database is at
  every moment the result of the first migrations of the newest release, in order.

What a script does to a database is a parameter, under one restriction: it leaves the table
of the installed migrations, the advisory lock and the transaction that it runs in alone.  A
file that is not wrapped exactly in `BEGIN;` and `COMMIT;` keeps its own `COMMIT`, and nothing
is said about it.  `CREATE TABLE IF NOT EXISTS` is left out: the table of the installed
migrations is there from the start, without rows.
-/

namespace CargoPds
namespace Migrations

open Text

/-! ## The source -/

structure Migration where
  name : String
  contents : String
deriving DecidableEq, Repr

/-- The files of the embedded directory. -/
structure EmbeddedFiles where
  files : List Migration
  distinct : (files.map (·.name)).Nodup

/-- `embeddedMigrationNames`, with the contents that `ReadFile` returns for each name. -/
def embeddedMigrations (embedded : EmbeddedFiles) : List Migration :=
  (embedded.files.filter fun file => ".sql".toList <:+ file.name.toList).insertionSort
    fun file other => file.name ≤ other.name

/-- `strings.EqualFold` with a text of ASCII characters other than `k` and `s`, which have
no further case variants. -/
def EqualFold (text pattern : List Char) : Prop :=
  text.map Char.toLower = pattern.map Char.toLower
deriving Decidable

/-- `strings.TrimSpace` on the characters of a text. -/
def trimmed (text : List Char) : List Char := (text.dropWhile isSpace).rdropWhile isSpace

def withoutTransactionWrapper (contents : String) : String :=
  let lines := (trimmed contents.toList).splitOn '\n'
  let lines :=
    if 2 ≤ lines.length ∧ EqualFold (trimmed (lines.headD [])) "BEGIN;".toList ∧
        EqualFold (trimmed (lines.getLastD [])) "COMMIT;".toList then lines.tail.dropLast
    else lines
  String.ofList (trimmed (['\n'].intercalate lines))

inductive Error where
  | checksumMismatch (name : String)
  | database
deriving DecidableEq, Repr

/-- The rows of `cargoos_schema_migrations` in the order of insertion, and all the rest. -/
structure Database (σ : Type) where
  installed : List (String × String)
  schema : σ

/-- Where an instance stands in `Apply`. -/
inductive Phase where
  /-- At `pg_advisory_lock`. -/
  | waiting
  /-- At `applyOne` of the first of the migrations that are left. -/
  | applying (rest : List Migration)
  /-- In `applyOne`, after the `SELECT` has found no row. -/
  | installing (next : Migration) (rest : List Migration)
  | returned (result : Except Error Unit)
deriving DecidableEq

/-- The instance is between the lock and the deferred unlock. -/
def Phase.Working : Phase → Prop
  | applying _ => True
  | installing _ _ => True
  | _ => False

/-- What becomes of a statement. -/
inductive Reply where
  | succeeds
  | fails
  /-- It takes effect, and the caller sees an error. -/
  | lost
deriving DecidableEq, Repr

/-- What becomes of the statement at which an instance stands, and of the unlocking if it
returns. -/
structure Fate where
  statement : Reply
  unlocks : Bool

structure Rollout (ι σ : Type) where
  database : Database σ
  holder : Option ι
  phase : ι → Phase

section
variable {ι σ : Type} [DecidableEq ι]
variable (sha256 : Bytes → Digest) (execute : String → σ → Option σ)

/-- `fmt.Sprintf("%x", sha256.Sum256(contents))`. -/
def Migration.checksum (migration : Migration) : String :=
  String.ofList (Hex.digits 64 (sha256 (utf8 migration.contents)).toNat)

/-- The row of an installed migration. -/
def Migration.row (migration : Migration) : String × String :=
  (migration.name, migration.checksum sha256)

/-- The script of a migration. -/
def Migration.run (migration : Migration) (schema : σ) : Option σ :=
  execute (withoutTransactionWrapper migration.contents) schema

/-- The transaction of `applyOne`; the name is the primary key of the table. -/
def Database.install (database : Database σ) (migration : Migration) : Option (Database σ) := do
  let schema ← migration.run execute database.schema
  if migration.name ∈ database.installed.map Prod.fst then none
  else some ⟨database.installed ++ [migration.row sha256], schema⟩

namespace Rollout

/-- Every instance is about to call `Apply`. -/
def start (initial : σ) : Rollout ι σ := ⟨⟨[], initial⟩, none, fun _ => .waiting⟩

def move (rollout : Rollout ι σ) (i : ι) (phase : Phase) : Rollout ι σ :=
  { rollout with phase := Function.update rollout.phase i phase }

/-- Return from `Apply` behind the deferred unlock, whose error is ignored. -/
def finish (rollout : Rollout ι σ) (i : ι) (fate : Fate) (result : Except Error Unit) :
    Rollout ι σ :=
  { rollout.move i (.returned result) with
    holder := if fate.unlocks then none else rollout.holder }

/-- One statement of an instance. -/
def step (releases : ι → EmbeddedFiles) (rollout : Rollout ι σ) (i : ι) (fate : Fate) :
    Rollout ι σ :=
  match rollout.phase i with
  | .waiting =>
      if fate.statement = .fails then rollout.move i (.returned (.error .database))
      else if rollout.holder = none then
        { rollout.move i (if fate.statement = .succeeds then
            .applying (embeddedMigrations (releases i)) else .returned (.error .database)) with
          holder := some i }
      else rollout -- the lock is waited for
  | .applying [] => rollout.finish i fate (.ok ())
  | .applying (next :: rest) =>
      if fate.statement ≠ .succeeds then rollout.finish i fate (.error .database)
      else
        match rollout.database.installed.lookup next.name with
        | some checksum =>
            if checksum = next.checksum sha256 then rollout.move i (.applying rest)
            else rollout.finish i fate (.error (.checksumMismatch next.name))
        | none => rollout.move i (.installing next rest)
  | .installing next rest =>
      match rollout.database.install sha256 execute next with
      | none => rollout.finish i fate (.error .database)
      | some database =>
          match fate.statement with
          | .succeeds => { rollout.move i (.applying rest) with database := database }
          | .fails => rollout.finish i fate (.error .database)
          | .lost => { rollout.finish i fate (.error .database) with database := database }
  | .returned _ =>
      -- the session is closed
      if rollout.holder = some i ∧ fate.unlocks then { rollout with holder := none }
      else rollout

/-- The statements of all instances in the order in which they are executed. -/
def run (releases : ι → EmbeddedFiles) (rollout : Rollout ι σ) (schedule : List (ι × Fate)) :
    Rollout ι σ :=
  schedule.foldl (fun current turn => current.step sha256 execute releases turn.1 turn.2) rollout

end Rollout

/-! ## One step -/

/-- The database that the scripts of distinct migrations produce, one after another. -/
structure Database.Installs (initial : σ) (applied : List Migration) (database : Database σ) :
    Prop where
  rows : database.installed = applied.map (Migration.row sha256)
  schema : applied.foldlM (fun schema migration => migration.run execute schema) initial =
    some database.schema
  distinct : (applied.map (·.name)).Nodup

/-- The migrations are installed as they are in the release. -/
def Database.Contains (database : Database σ) (migrations : List Migration) : Prop :=
  ∀ migration ∈ migrations, migration.row sha256 ∈ database.installed

/-- What an instance has achieved when it stands at a phase. -/
def Phase.Achieved (plan : List Migration) (database : Database σ) : Phase → Prop
  | .applying rest => ∃ done, plan = done ++ rest ∧ database.Contains sha256 done
  | .installing next rest =>
      (∃ done, plan = done ++ next :: rest ∧ database.Contains sha256 done) ∧
        next.name ∉ database.installed.map Prod.fst
  | .returned (.ok _) => database.Contains sha256 plan
  | _ => True

/-- The lock is held by the instance that works, and every instance has achieved what its
phase says. -/
structure Rollout.Orderly (releases : ι → EmbeddedFiles) (rollout : Rollout ι σ) : Prop where
  exclusive : ∀ i, (rollout.phase i).Working → rollout.holder = some i
  achieved : ∀ i, (rollout.phase i).Achieved sha256 (embeddedMigrations (releases i))
    rollout.database

variable {sha256 execute} {initial : σ} {applied : List Migration} {database after : Database σ}
variable {releases : ι → EmbeddedFiles} {rollout : Rollout ι σ} {i : ι} {phase : Phase}
variable {migration : Migration}

theorem Database.install_eq_some :
    database.install sha256 execute migration = some after ↔
      ∃ schema, migration.run execute database.schema = some schema ∧
        migration.name ∉ database.installed.map Prod.fst ∧
        after = ⟨database.installed ++ [migration.row sha256], schema⟩ := by
  unfold Database.install
  cases migration.run execute database.schema with
  | none => simp
  | some schema => simp [eq_comm]

theorem Database.Installs.names (h : database.Installs sha256 execute initial applied) :
    database.installed.map Prod.fst = applied.map (·.name) := by
  rw [h.rows, List.map_map]
  rfl

/-- A transaction continues the sequence of the scripts. -/
theorem Database.Installs.install (h : database.Installs sha256 execute initial applied)
    (hinstall : database.install sha256 execute migration = some after) :
    after.Installs sha256 execute initial (applied ++ [migration]) := by
  obtain ⟨schema, hrun, hnew, rfl⟩ := Database.install_eq_some.mp hinstall
  rw [h.names] at hnew
  constructor
  · simp [h.rows]
  · simp [List.foldlM_append, h.schema, hrun]
  · simpa [List.nodup_append, h.distinct] using hnew

/-- Installed migrations stay; only a phase that is about to install one looks at what is
missing. -/
theorem Phase.Achieved.mono {plan : List Migration}
    (h : phase.Achieved sha256 plan database)
    (hle : ∀ row ∈ database.installed, row ∈ after.installed)
    (hquiet : ¬ phase.Working) : phase.Achieved sha256 plan after := by
  cases phase with
  | waiting => trivial
  | applying rest => exact absurd trivial hquiet
  | installing next rest => exact absurd trivial hquiet
  | returned result =>
      cases result with
      | error err => trivial
      | ok _ => exact fun migration hmem => hle _ (h migration hmem)

namespace Rollout.Orderly

omit [DecidableEq ι] in
/-- Another instance does not work while this one does. -/
theorem idle (h : rollout.Orderly sha256 releases) (hworking : (rollout.phase i).Working)
    {j : ι} (hj : j ≠ i) : ¬ (rollout.phase j).Working := by
  intro hother
  have hsame := (h.exclusive i hworking).symm.trans (h.exclusive j hother)
  exact hj (Option.some.inj hsame).symm

/-- One instance goes on; the others keep their phases. -/
theorem update (h : rollout.Orderly sha256 releases) {holder : Option ι}
    (hphase : phase.Achieved sha256 (embeddedMigrations (releases i)) after)
    (hholder : phase.Working → holder = some i)
    (hothers : ∀ j, j ≠ i → (rollout.phase j).Working → holder = some j)
    (hafter : after = rollout.database ∨
      ∀ j, j ≠ i → ¬ (rollout.phase j).Working ∧
        ∀ row ∈ rollout.database.installed, row ∈ after.installed) :
    (⟨after, holder, Function.update rollout.phase i phase⟩ : Rollout ι σ).Orderly sha256
      releases := by
  constructor
  · intro j hworking
    by_cases hj : j = i
    · subst hj
      simp only [Function.update_self] at hworking
      exact hholder hworking
    · simp only [Function.update_of_ne hj] at hworking
      exact hothers j hj hworking
  · intro j
    by_cases hj : j = i
    · subst hj
      simpa only [Function.update_self] using hphase
    · simp only [Function.update_of_ne hj]
      rcases hafter with rfl | hgrown
      · exact h.achieved j
      · exact (h.achieved j).mono (hgrown j hj).2 (hgrown j hj).1

/-- A working instance goes on under the lock. -/
theorem move (h : rollout.Orderly sha256 releases) (hworking : (rollout.phase i).Working)
    (hphase : phase.Achieved sha256 (embeddedMigrations (releases i)) rollout.database) :
    (rollout.move i phase).Orderly sha256 releases :=
  h.update hphase (fun _ => h.exclusive i hworking) (fun j _ hj => h.exclusive j hj) (.inl rfl)

/-- A working instance returns. -/
theorem finish (h : rollout.Orderly sha256 releases) (hworking : (rollout.phase i).Working)
    (fate : Fate) {result : Except Error Unit}
    (hresult : (Phase.returned result).Achieved sha256 (embeddedMigrations (releases i))
      rollout.database) :
    (rollout.finish i fate result).Orderly sha256 releases := by
  refine h.update hresult (fun hreturned => hreturned.elim) ?_ (.inl rfl)
  intro j hj hother
  exact absurd hother (h.idle hworking hj)

variable (execute) in
/-- **Step lemma.**  A step keeps the order, and changes the database by the transaction of
a migration of its release, which the instance has found missing. -/
theorem step (h : rollout.Orderly sha256 releases) (i : ι) (fate : Fate) :
    (rollout.step sha256 execute releases i fate).Orderly sha256 releases ∧
      ((rollout.step sha256 execute releases i fate).database = rollout.database ∨
        ∃ done next rest, embeddedMigrations (releases i) = done ++ next :: rest ∧
          rollout.database.Contains sha256 done ∧
          rollout.database.install sha256 execute next =
            some (rollout.step sha256 execute releases i fate).database) := by
  have hachieved := h.achieved i
  have hexclusive := h.exclusive i
  unfold Rollout.step
  cases hphase : rollout.phase i with
  | waiting =>
      dsimp only
      split
      · refine ⟨h.update trivial (fun hreturned => hreturned.elim)
          (fun j _ hj => h.exclusive j hj) (.inl rfl), .inl rfl⟩
      · split
        · rename_i hfree
          refine ⟨h.update ?_ (fun _ => rfl) ?_ (.inl rfl), .inl rfl⟩
          · -- the lock is acquired, or its acquisition is not seen
            split
            · exact ⟨[], rfl, fun _ hmem => absurd hmem List.not_mem_nil⟩
            · trivial
          · intro j _ hj
            exact absurd (h.exclusive j hj) (by simp [hfree])
        · exact ⟨h, .inl rfl⟩
  | applying rest =>
      rw [hphase] at hachieved
      have hworking : (rollout.phase i).Working := by simp [hphase, Phase.Working]
      obtain ⟨done, hplan, hdone⟩ := hachieved
      cases rest with
      | nil =>
          refine ⟨h.finish hworking fate ?_, .inl rfl⟩
          simpa [Phase.Achieved, hplan] using hdone
      | cons next rest =>
          dsimp only
          split
          · exact ⟨h.finish hworking fate trivial, .inl rfl⟩
          · split
            · rename_i checksum hfound
              split
              · rename_i hsame
                refine ⟨h.move hworking ⟨done ++ [next], by simp [hplan], ?_⟩, .inl rfl⟩
                intro migration hmem
                rcases List.mem_append.mp hmem with hold | hnew
                · exact hdone migration hold
                · rw [List.mem_singleton.mp hnew]
                  obtain ⟨before, behind, hrows, -⟩ := List.lookup_eq_some_iff.mp hfound
                  rw [hrows, hsame]
                  simp [Migration.row]
              · exact ⟨h.finish hworking fate trivial, .inl rfl⟩
            · rename_i hmissing
              refine ⟨h.move hworking ⟨⟨done, hplan, hdone⟩, ?_⟩, .inl rfl⟩
              intro hmem
              obtain ⟨row, hrow, hname⟩ := List.mem_map.mp hmem
              have hdiffers := List.lookup_eq_none_iff.mp hmissing row hrow
              simp [hname] at hdiffers
  | installing next rest =>
      rw [hphase] at hachieved
      have hworking : (rollout.phase i).Working := by simp [hphase, Phase.Working]
      obtain ⟨⟨done, hplan, hdone⟩, hnew⟩ := hachieved
      dsimp only
      split
      · exact ⟨h.finish hworking fate trivial, .inl rfl⟩
      · rename_i database hinstall
        obtain ⟨schema, -, -, hdatabase⟩ := Database.install_eq_some.mp hinstall
        have hgrown : ∀ j, j ≠ i → ¬ (rollout.phase j).Working ∧
            ∀ row ∈ rollout.database.installed, row ∈ database.installed := by
          intro j hj
          refine ⟨h.idle hworking hj, fun row hrow => ?_⟩
          simp [hdatabase, hrow]
        split
        · refine ⟨h.update ⟨done ++ [next], by simp [hplan], ?_⟩
            (fun _ => h.exclusive i hworking) (fun j _ hj => h.exclusive j hj) (.inr hgrown),
            .inr ⟨done, next, rest, hplan, hdone, hinstall⟩⟩
          intro migration hmem
          rcases List.mem_append.mp hmem with hold | hlast
          · simp [hdatabase, hdone migration hold]
          · simp [hdatabase, List.mem_singleton.mp hlast]
        · exact ⟨h.finish hworking fate trivial, .inl rfl⟩
        · refine ⟨h.update trivial (fun hreturned => hreturned.elim) ?_ (.inr hgrown),
            .inr ⟨done, next, rest, hplan, hdone, hinstall⟩⟩
          intro j hj hother
          exact absurd hother (h.idle hworking hj)
  | returned result =>
      dsimp only
      split
      · rename_i hheld
        refine ⟨⟨?_, h.achieved⟩, .inl rfl⟩
        intro j hother
        have hsame := hheld.1.symm.trans (h.exclusive j hother)
        rw [← Option.some.inj hsame, hphase] at hother
        exact hother.elim
      · exact ⟨h, .inl rfl⟩

end Rollout.Orderly

/-! ## Whole rollouts -/

omit [DecidableEq ι] in
theorem Rollout.start_orderly (releases : ι → EmbeddedFiles) (initial : σ) :
    (Rollout.start initial : Rollout ι σ).Orderly sha256 releases :=
  ⟨fun _ hworking => hworking.elim, fun _ => trivial⟩

/-- A property of the applied migrations that the transaction of a missing migration keeps,
behind the migrations before it. -/
def Kept (sha256 : Bytes → Digest) (releases : ι → EmbeddedFiles) (P : List Migration → Prop) :
    Prop :=
  ∀ i applied done next rest, embeddedMigrations (releases i) = done ++ next :: rest →
    (∀ migration ∈ done, migration.row sha256 ∈ applied.map (Migration.row sha256)) →
    next.name ∉ applied.map (·.name) → P applied → P (applied ++ [next])

variable (execute) in
/-- **Run lemma.**  What the transactions keep holds throughout, beside the order. -/
theorem Rollout.Orderly.run {P : List Migration → Prop} (hkept : Kept sha256 releases P)
    (h : rollout.Orderly sha256 releases)
    (hinstalls : rollout.database.Installs sha256 execute initial applied) (hP : P applied)
    (schedule : List (ι × Fate)) :
    (rollout.run sha256 execute releases schedule).Orderly sha256 releases ∧
      ∃ applied', (rollout.run sha256 execute releases schedule).database.Installs sha256 execute
        initial applied' ∧ P applied' := by
  induction schedule generalizing rollout applied with
  | nil => exact ⟨h, applied, hinstalls, hP⟩
  | cons turn schedule ih =>
      obtain ⟨horderly, hdatabase⟩ := h.step execute turn.1 turn.2
      rcases hdatabase with hsame | ⟨done, next, rest, hplan, hdone, htransaction⟩
      · exact ih horderly (by rwa [hsame]) hP
      · refine ih horderly (hinstalls.install htransaction) ?_
        obtain ⟨schema, -, hnew, -⟩ := Database.install_eq_some.mp htransaction
        rw [hinstalls.names] at hnew
        refine hkept turn.1 applied done next rest hplan ?_ hnew hP
        intro migration hmem
        rw [← hinstalls.rows]
        exact hdone migration hmem

theorem Database.installs_empty (initial : σ) :
    (⟨[], initial⟩ : Database σ).Installs sha256 execute initial [] :=
  ⟨rfl, rfl, List.nodup_nil⟩

end

/-- **Each migration is applied once.**  Whatever releases start on a database, in whatever
order their statements are executed and whichever of them fail or lose their reply, as long
as the scripts leave the runner's table, lock and transaction alone, the database is what
distinct migrations of these releases produce, each of them run once.  An instance that has
returned without an error finds all its migrations installed with its own checksums, also
later; and when an instance is about to run a migration, no other has installed it. -/
theorem migrations_applied_once {ι σ : Type} [DecidableEq ι] (sha256 : Bytes → Digest)
    (execute : String → σ → Option σ) (releases : ι → EmbeddedFiles) (initial : σ)
    (schedule : List (ι × Fate)) :
    let rollout := (Rollout.start initial).run sha256 execute releases schedule
    (∃ applied, rollout.database.Installs sha256 execute initial applied ∧
      ∀ migration ∈ applied, ∃ i, migration ∈ embeddedMigrations (releases i)) ∧
    ∀ i, (rollout.phase i = .returned (.ok ()) →
        rollout.database.Contains sha256 (embeddedMigrations (releases i))) ∧
      ∀ next rest, rollout.phase i = .installing next rest →
        next.name ∉ rollout.database.installed.map Prod.fst := by
  intro rollout
  have hkept : Kept sha256 releases fun applied =>
      ∀ migration ∈ applied, ∃ i, migration ∈ embeddedMigrations (releases i) := by
    intro i applied done next rest hplan _ _ horigin migration hmem
    rcases List.mem_append.mp hmem with hold | hnew
    · exact horigin migration hold
    · exact ⟨i, by simp [hplan, List.mem_singleton.mp hnew]⟩
  obtain ⟨horderly, hinstalls⟩ := (Rollout.start_orderly releases initial).run execute hkept
    (Database.installs_empty initial) (by simp) schedule
  refine ⟨hinstalls, fun i => ⟨fun hreturned => ?_, fun next rest hphase => ?_⟩⟩
  · have hachieved := horderly.achieved i
    rwa [hreturned] at hachieved
  · have hachieved := horderly.achieved i
    rw [hphase] at hachieved
    exact hachieved.2

/-! ## Releases that continue each other -/

theorem embeddedMigrations_nodup (embedded : EmbeddedFiles) :
    ((embeddedMigrations embedded).map (·.name)).Nodup := by
  have hsorted := (List.perm_insertionSort (fun file other : Migration => file.name ≤ other.name)
    (embedded.files.filter fun file => ".sql".toList <:+ file.name.toList)).map Migration.name
  exact hsorted.nodup_iff.mpr (embedded.distinct.sublist (List.filter_sublist.map _))

/-- Of two leading parts of a list with distinct names, the one whose names all occur in
the other is the shorter one. -/
theorem isPrefix_of_names {migrations applied all : List Migration}
    (hdistinct : (all.map (·.name)).Nodup) (hmigrations : migrations <+: all)
    (happlied : applied <+: all)
    (hnames : ∀ migration ∈ migrations, migration.name ∈ applied.map (·.name)) :
    migrations <+: applied := by
  rcases List.prefix_or_prefix_of_prefix hmigrations happlied with hle | ⟨tail, rfl⟩
  · exact hle
  · cases tail with
    | nil => simp
    | cons next tail =>
        -- the name of `next` would occur twice
        have hnext := hnames next (by simp)
        have hnodup := hdistinct.sublist (hmigrations.sublist.map (·.name))
        simp only [List.map_append, List.map_cons, List.nodup_append] at hnodup
        exact absurd rfl (hnodup.2.2 _ hnext _ List.mem_cons_self)

/-- **A rollout goes through the migrations in order.**  When the migrations of every
release are the first ones of the newest release, and the scripts leave the runner's table,
lock and transaction alone, the database is at every moment what the
first migrations of the newest release produce, one after another, and at least those of
each instance that has returned without an error. -/
theorem rollout_in_order {ι σ : Type} [DecidableEq ι] (sha256 : Bytes → Digest)
    (execute : String → σ → Option σ) (releases : ι → EmbeddedFiles) (newest : EmbeddedFiles)
    (hreleases : ∀ i, embeddedMigrations (releases i) <+: embeddedMigrations newest) (initial : σ)
    (schedule : List (ι × Fate)) :
    let rollout := (Rollout.start initial).run sha256 execute releases schedule
    ∃ applied, rollout.database.Installs sha256 execute initial applied ∧
      applied <+: embeddedMigrations newest ∧
      ∀ i, rollout.phase i = .returned (.ok ()) → embeddedMigrations (releases i) <+: applied := by
  intro rollout
  have hdistinct := embeddedMigrations_nodup newest
  have hnames : ∀ {migrations applied : List Migration},
      (∀ migration ∈ migrations, migration.row sha256 ∈ applied.map (Migration.row sha256)) →
      ∀ migration ∈ migrations, migration.name ∈ applied.map (·.name) := by
    intro migrations applied hrows migration hmem
    obtain ⟨other, hother, hrow⟩ := List.mem_map.mp (hrows migration hmem)
    exact List.mem_map.mpr ⟨other, hother, congrArg Prod.fst hrow⟩
  have hkept : Kept sha256 releases (· <+: embeddedMigrations newest) := by
    intro i applied done next rest hplan hdone hnew happlied
    have hnext : done ++ [next] <+: embeddedMigrations newest :=
      (show done ++ [next] <+: embeddedMigrations (releases i) by simp [hplan]).trans (hreleases i)
    have hle := isPrefix_of_names hdistinct ((List.prefix_append done [next]).trans hnext) happlied
      (hnames hdone)
    -- what is installed beyond `done` would begin with `next`
    have hsame : applied = done := by
      rcases List.prefix_or_prefix_of_prefix hnext happlied with hmore | hless
      · exact absurd (List.mem_map_of_mem (hmore.subset (by simp))) hnew
      · rcases List.prefix_concat_iff.mp hless with rfl | hshort
        · exact absurd (by simp) hnew
        · exact hshort.eq_of_length_le hle.length_le
    rw [hsame]
    exact hnext
  obtain ⟨horderly, applied, hinstalls, happlied⟩ := (Rollout.start_orderly releases initial).run
    execute hkept (Database.installs_empty initial) List.nil_prefix schedule
  refine ⟨applied, hinstalls, happlied, fun i hreturned => ?_⟩
  have hachieved := horderly.achieved i
  rw [hreturned] at hachieved
  refine isPrefix_of_names hdistinct (hreleases i) happlied (hnames fun migration hmem => ?_)
  rw [← hinstalls.rows]
  exact hachieved migration hmem

namespace Upgrade

def first : Migration :=
  ⟨"0001_evaluations.sql", "BEGIN;\nCREATE TABLE evaluations ();\nCOMMIT;\n"⟩

def second : Migration := ⟨"0002_evidence.sql", "CREATE TABLE evidence_objects ();"⟩

/-- The later release has a migration more. -/
def releases (later : Bool) : EmbeddedFiles where
  files := first :: if later then [second] else []
  distinct := by cases later <;> decide

/-- The SHA-256 sums of the two files. -/
def sha256 (file : Bytes) : Digest :=
  BitVec.ofNat 256 <|
    if file = utf8 first.contents then
      0xb7a6a933ab0bb614475be749222a04eb57f8eaaf08c7a38f429126c416d89ac1
    else if file = utf8 second.contents then
      0x4e5bd4c618e2e75499128696494c697610eba22f1c573820f52dc2acfc94e53c
    else 0

/-- A schema is what has been executed. -/
def execute (script : String) (schema : List String) : Option (List String) :=
  some (schema ++ [script])

/-- The later release starts while the earlier one installs its migration, whose reply is
lost. -/
def schedule : List (Bool × Fate) :=
  [false, true, false].map (·, ⟨.succeeds, true⟩) ++
    (false, ⟨.lost, true⟩) :: List.replicate 5 (true, ⟨.succeeds, true⟩)

/-- The earlier release reports an error, and the later one goes on where it has stopped. -/
theorem upgrade_in_order :
    let rollout := (Rollout.start []).run sha256 execute releases schedule
    rollout.phase false = .returned (.error .database) ∧
      rollout.database.Installs sha256 execute [] [first, second] := by
  intro rollout
  obtain ⟨applied, hinstalls, happlied, hreturned⟩ :=
    rollout_in_order sha256 execute releases (releases true) (by decide) [] schedule
  have hall : embeddedMigrations (releases true) = [first, second] := by decide
  have hdone := hreturned true (by decide)
  rw [hall] at happlied hdone
  rw [← happlied.eq_of_length_le hdone.length_le]
  exact ⟨by decide, hinstalls⟩

end Upgrade

end Migrations
end CargoPds
