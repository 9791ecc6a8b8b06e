import ModelMapper.Proofs.Backend.Runs
import ModelMapper.Proofs.Sqlite.Keeping

/-! # Records added one by one

Outside a transaction every record is stored by a statement of its own, which takes effect at
once.  So an addition that fails leaves the records before the failure behind.

* `Database.insert_eq_ok` — an insert that succeeded put one row into its table.
* `Grows` — a database with so many rows more in one table, and nothing else changed.
* `Database.insertAll` — the statements of a list of records, with their answers.
* `Stops`, `Cluster.add_stops` — why and where an addition goes no further.
* `Cluster.failed_add_leaves_prefix` — what an addition that failed leaves behind.
* `Cluster.failed_add_keeps_row` — two records of one key.
-/

namespace ModelMapper

namespace Sqlite

theorem sameName_congr {a b : String} (h : sameName a b = true) (c : String) :
    sameName a c = sameName b c := by
  rw [sameName, beq_iff_eq] at h
  rw [sameName, sameName, h]

/-! ## One row -/

namespace Database

variable {d after : Database} {t t' : Table} {name : String}

def rowsOf (d : Database) (name : String) : List Row := ((d.find? name).map Table.rows).getD []

theorem sameName_of_find? (h : d.find? name = some t) : sameName t.name name = true :=
  List.find?_some (p := fun u : Table => sameName u.name name) h

theorem find?_congr {other : String} (h : sameName name other = true) :
    d.find? other = d.find? name := by
  refine congrArg (List.find? · d.tables) (funext fun u => ?_)
  rw [sameName_comm, sameName_comm u.name, sameName_congr h]

/-- A table that takes the place of another of its name is found under that name, and the others
    as before. -/
theorem find?_replace (h : d.find? name = some t) (hname : t'.name = t.name) (other : String) :
    (d.replace t').find? other = if sameName name other then some t' else d.find? other := by
  have hkept : ∀ u : Table, sameName (if sameName u.name t'.name then t' else u).name other =
      sameName u.name other := by
    intro u
    split
    · next hsame => exact (sameName_congr hsame other).symm
    · rfl
  have hfind : (d.replace t').find? other =
      (d.find? other).map fun u => if sameName u.name t'.name then t' else u := by
    rw [find?, replace, List.find?_map]
    exact congrArg (fun p => (List.find? p d.tables).map _) (funext hkept)
  rw [hfind]
  have hfound := sameName_of_find? h
  split
  · next hother =>
    rw [find?_congr hother, h, Option.map_some, hname, sameName_self, if_pos rfl]
  · next hother =>
    cases hu : d.find? other with
    | none => rfl
    | some u =>
      -- Another table of that name would be found under the first name as well.
      have hne : ¬sameName u.name t'.name = true := by
        intro hsame
        rw [hname] at hsame
        rw [← sameName_congr hfound, ← sameName_congr hsame] at hother
        exact hother (sameName_of_find? hu)
      rw [Option.map_some, if_neg hne]

theorem table_eq_ok (h : d.table name = .ok t) : d.find? name = some t := by
  unfold table at h
  split at h
  · next hfound =>
    cases h
    exact hfound
  · cases h

/-- An insert that succeeded put one row into the table it found. -/
theorem insert_eq_ok {assignments : List (String × Value)} {returning : List String}
    {cells : List Cell} (h : d.insert name assignments returning = .ok (cells, after)) :
    ∃ t t' row bound, d.find? name = some t ∧ t.insertRow bound = .ok (row, t') ∧
      after = d.replace t' := by
  unfold insert at h
  dsimp only at h
  split at h
  · cases h
  · obtain ⟨t, htable, hrest⟩ := Result.bind_eq_ok.1 h
    obtain ⟨_, -, hinsert⟩ := Result.bind_eq_ok.1 hrest
    obtain ⟨⟨row, t'⟩, hrow, hpure⟩ := Result.bind_eq_ok.1 hinsert
    cases hpure
    exact ⟨t, t', row, _, table_eq_ok htable, hrow, rfl⟩

end Database

theorem Table.sublist_place (row : Row) (rows : List Row) : rows.Sublist (place row rows) := by
  induction rows with
  | nil => exact List.nil_sublist _
  | cons other rows ih =>
    rw [place]
    split
    · exact List.sublist_cons_self _ _
    · exact ih.cons_cons other

/-! ## More rows -/

/-- A database with so many rows more in one table.  The rows that were there are still there, in
    their order, and the other tables are as they were. -/
structure Grows (name : String) (n : Nat) (before after : Database) : Prop where
  kept : (before.rowsOf name).Sublist (after.rowsOf name)
  length : (after.rowsOf name).length = (before.rowsOf name).length + n
  others : ∀ other, sameName name other = false → after.find? other = before.find? other

namespace Grows

variable {name : String} {n m : Nat} {a b c : Database}

theorem refl (name : String) (d : Database) : Grows name 0 d d :=
  ⟨.refl _, rfl, fun _ _ => rfl⟩

theorem trans (h : Grows name n a b) (h' : Grows name m b c) : Grows name (n + m) a c where
  kept := h.kept.trans h'.kept
  length := by rw [h'.length, h.length, Nat.add_assoc]
  others other hother := by rw [h'.others other hother, h.others other hother]

/-- The table is as it was only if it has no row more. -/
theorem rows_eq_iff (h : Grows name n a b) : b.rowsOf name = a.rowsOf name ↔ n = 0 := by
  have hlength := h.length
  constructor
  · intro hsame
    rw [hsame] at hlength
    omega
  · rintro rfl
    exact (h.kept.eq_of_length hlength.symm).symm

end Grows

namespace Database

variable {d after : Database} {name : String} {s : Schema}

theorem rowsOf_eq {t : Table} (h : d.find? name = some t) : d.rowsOf name = t.rows := by
  rw [rowsOf, h, Option.map_some, Option.getD_some]

theorem insert_grows {assignments : List (String × Value)} {returning : List String}
    {cells : List Cell} (h : d.insert name assignments returning = .ok (cells, after)) :
    Grows name 1 d after := by
  obtain ⟨t, t', row, _, hfound, hrow, rfl⟩ := insert_eq_ok h
  obtain ⟨-, -, -, htaken⟩ := Table.insertRow_eq_ok hrow
  have hname : t'.name = t.name := by rw [htaken]
  have hrows : t'.rows = Table.place row t.rows := by rw [htaken]
  have hreplaced : (d.replace t').find? name = some t' := by
    rw [find?_replace hfound hname, sameName_self, if_pos rfl]
  constructor
  · rw [rowsOf_eq hfound, rowsOf_eq hreplaced, hrows]
    exact Table.sublist_place row t.rows
  · rw [rowsOf_eq hfound, rowsOf_eq hreplaced, hrows, (Table.place_perm row t.rows).length_eq,
      List.length_cons]
  · intro other hother
    rw [find?_replace hfound hname, hother, if_neg Bool.false_ne_true]

/-- The statement of a record adds one row to the table of its model. -/
theorem toInsert_grows {r : Record} {answer : Answer}
    (h : d.execute (s.toInsert r) = .ok (answer, after)) : Grows s.table 1 d after := by
  obtain ⟨⟨cells, d'⟩, hinsert, hpure⟩ := Result.bind_eq_ok.1 h
  cases hpure
  exact insert_grows hinsert

/-- The statements of some records one after the other, with what they answer. -/
def insertAll (s : Schema) (d : Database) : List Record → Outcome (List Answer × Database)
  | [] => .ok ([], d)
  | r :: rest => do
    let (answer, middle) ← d.execute (s.toInsert r)
    let (answers, after) ← insertAll s middle rest
    pure (answer :: answers, after)

theorem insertAll_cons {r : Record} {rest : List Record} {answer : Answer}
    {answers : List Answer} {middle : Database}
    (h : d.execute (s.toInsert r) = .ok (answer, middle))
    (hrest : middle.insertAll s rest = .ok (answers, after)) :
    d.insertAll s (r :: rest) = .ok (answer :: answers, after) := by
  rw [insertAll, h, Result.ok_bind]
  dsimp only
  rw [hrest]
  rfl

theorem insertAll_grows {records : List Record} {answers : List Answer}
    (h : d.insertAll s records = .ok (answers, after)) :
    Grows s.table records.length d after := by
  induction records generalizing d answers with
  | nil =>
    cases h
    exact .refl _ _
  | cons r rest ih =>
    obtain ⟨⟨answer, middle⟩, hfirst, hmore⟩ := Result.bind_eq_ok.1 h
    obtain ⟨⟨answers, d'⟩, hrest, hpure⟩ := Result.bind_eq_ok.1 hmore
    cases hpure
    rw [List.length_cons, Nat.add_comm]
    exact (toInsert_grows hfirst).trans (ih hrest)

end Database

/-! ## An addition that fails -/

/-- Why an addition goes no further on a database: the engine refuses the next record, or the
    row of the last one is not read back. -/
inductive Stops (s : Schema) (d : Database) (answers : List Database.Answer) :
    List Record → Error → Prop where
  | refused {r : Record} {rest : List Record} {cause : EngineError}
      (h : d.execute (s.toInsert r) = .error cause) :
      Stops s d answers (r :: rest) (cause.toError ("failed to insert " ++ s.name))
  | unreadable {rest : List Record} {answer : Database.Answer} {e : Error}
      (hlast : answers.getLast? = some answer)
      (h : s.readRow (answer.rows.headD []) = .error e) : Stops s d answers rest e

theorem Stops.cons {s : Schema} {d : Database} {answers : List Database.Answer}
    {rest : List Record} {e : Error} (h : Stops s d answers rest e) (answer : Database.Answer) :
    Stops s d (answer :: answers) rest e := by
  cases h with
  | refused h => exact .refused h
  | unreadable hlast h =>
    refine .unreadable ?_ h
    rw [List.getLast?_cons, hlast, Option.getD_some]

namespace Cluster

open Sql (Command)

variable {c : Cluster} {id : Nat} {s : Schema}

theorem setSession_session (c : Cluster) (id : Nat) : c.setSession id (c.session id) = c := by
  rw [setSession, session]
  cases hfound : c.sessions[id]? with
  | none => rw [List.set_eq_of_length_le (List.getElem?_eq_none_iff.1 hfound)]
  | some s =>
    obtain ⟨hlt, rfl⟩ := List.getElem?_eq_some_iff.1 hfound
    rw [Option.getD_some, List.set_getElem_self]

/-- A session without a transaction has none to lose. -/
theorem loseTransaction_none (hsession : (c.session id).connection = none) :
    c.loseTransaction id = c := by
  have hsame : ({ c.session id with connection := none } : Session) = c.session id := by
    rw [← hsession]
  rw [loseTransaction, hsame, setSession_session]

/-- Outside a transaction a command that fails changes nothing. -/
theorem run_eq_error (hsession : (c.session id).connection = none) {context : String}
    {command : Command} {e : EngineError} (h : c.shared.execute command = .error e) :
    c.run id context command = (.error (e.toError context), c) := by
  rw [run_shared hsession, h]
  dsimp only
  rw [loseTransaction_none hsession, ite_self]

/-- What the addition of a record and of others after it comes to, outside a transaction. -/
theorem add_cons (hsession : (c.session id).connection = none) (r : Record)
    (rest : List Record) (events : List Event) :
    ∃ events', add id s (r :: rest) ⟨c, events⟩ =
      match c.shared.execute (s.toInsert r) with
      | .error e => (.error (.error (e.toError ("failed to insert " ++ s.name))), ⟨c, events'⟩)
      | .ok (answer, d) =>
        match s.readRow (answer.rows.headD []) with
        | .error e => (.error (.error e), ⟨{ c with shared := d }, events'⟩)
        | .ok stored =>
          (add id s rest >>= fun others => pure (stored :: others))
            ⟨{ c with shared := d }, events'⟩ := by
  refine ⟨Report.statement (s.toInsert r) :: events, ?_⟩
  rw [add, Call.run_bind, call, Call.run_bind, Call.run_emit]
  dsimp only
  rw [Call.run_step]
  dsimp only
  cases hexecute : c.shared.execute (s.toInsert r) with
  | error e =>
    rw [run_eq_error hsession hexecute]
    rfl
  | ok result =>
    obtain ⟨answer, d⟩ := result
    rw [run_shared hsession, hexecute]
    dsimp only
    rw [Call.run_ofResult]
    dsimp only
    rw [Call.run_bind]
    cases s.readRow (answer.rows.headD []) with
    | error e => rfl
    | ok stored => rfl

/-- An addition that fails stops after some of its records. -/
theorem add_stops {records : List Record} {t t' : Traced Cluster} {e : Failure}
    (hsession : (t.state.session id).connection = none)
    (h : Cluster.add id s records t = (.error e, t')) :
    ∃ kept rest answers cause, records = kept ++ rest ∧ e = .error cause ∧
      t.state.shared.insertAll s kept = .ok (answers, t'.state.shared) ∧
      Stops s t'.state.shared answers rest cause ∧ t'.state.sessions = t.state.sessions := by
  -- The first record is refused, stored and not read back, or the others fail after it.
  induction records generalizing t e with
  | nil => cases h
  | cons r rest ih =>
    obtain ⟨events, hadd⟩ := add_cons (s := s) hsession r rest t.events
    rw [hadd] at h
    cases hexecute : t.state.shared.execute (s.toInsert r) with
    | error cause =>
      rw [hexecute] at h
      cases h
      exact ⟨[], r :: rest, [], _, rfl, rfl, rfl, .refused hexecute, rfl⟩
    | ok result =>
      obtain ⟨answer, d⟩ := result
      rw [hexecute] at h
      dsimp only at h
      cases hread : s.readRow (answer.rows.headD []) with
      | error cause =>
        rw [hread] at h
        cases h
        exact ⟨[r], rest, [answer], cause, rfl, rfl, Database.insertAll_cons hexecute rfl,
          .unreadable rfl hread, rfl⟩
      | ok stored =>
        rw [hread] at h
        dsimp only at h
        rw [Call.run_bind] at h
        rcases hothers : add id s rest ⟨{ t.state with shared := d }, events⟩ with ⟨outcome, after⟩
        rw [hothers] at h
        cases outcome with
        | ok others => cases h
        | error e' =>
          cases h
          obtain ⟨kept, rest', answers, cause, rfl, he, hkept, hstops, hsessions⟩ :=
            ih (t := ⟨{ t.state with shared := d }, events⟩) hsession hothers
          exact ⟨r :: kept, rest', answer :: answers, cause, rfl, he,
            Database.insertAll_cons hexecute hkept, hstops.cons answer, hsessions⟩

/-- Outside a transaction an addition that fails leaves behind what the statements before the
    failure did: a row for each of the records up to there.  So the table is as it was only if
    the first record was refused. -/
theorem failed_add_leaves_prefix {records : List Record} {t t' : Traced Cluster} {e : Failure}
    (hsession : (t.state.session id).connection = none)
    (h : Cluster.add id s records t = (.error e, t')) :
    ∃ kept rest answers cause, records = kept ++ rest ∧ e = .error cause ∧
      t.state.shared.insertAll s kept = .ok (answers, t'.state.shared) ∧
      Stops s t'.state.shared answers rest cause ∧
      Grows s.table kept.length t.state.shared t'.state.shared ∧
      (t'.state.shared.rowsOf s.table = t.state.shared.rowsOf s.table ↔ kept = []) ∧
      t'.state.sessions = t.state.sessions := by
  obtain ⟨kept, rest, answers, cause, hrecords, he, hkept, hstops, hsessions⟩ :=
    add_stops hsession h
  have hgrows := Database.insertAll_grows hkept
  exact ⟨kept, rest, answers, cause, hrecords, he, hkept, hstops, hgrows,
    hgrows.rows_eq_iff.trans List.length_eq_zero_iff, hsessions⟩

/-- Of three items the last has the key of the first. -/
theorem failed_add_leaves_prefix_of_items :
    let item : Schema := ⟨"Item", [.ofMarks "id" .int [.key]]⟩
    let row (id : Int64) : Record := .ofList [("id", .int id)]
    let t := (create 0 ⟨"c", [item]⟩ ⟨start, []⟩).2
    (t.state.session 0).connection = none ∧ ∃ e t',
      Cluster.add 0 item [row 1, row 2, row 1] t = (.error e, t') ∧
      ∃ kept rest answers cause, [row 1, row 2, row 1] = kept ++ rest ∧ e = .error cause ∧
        t.state.shared.insertAll item kept = .ok (answers, t'.state.shared) ∧
        Stops item t'.state.shared answers rest cause ∧
        Grows item.table kept.length t.state.shared t'.state.shared ∧
        (t'.state.shared.rowsOf item.table = t.state.shared.rowsOf item.table ↔ kept = []) ∧
        t'.state.sessions = t.state.sessions := by
  intro item row t
  have hsession : (t.state.session 0).connection = none := by
    decide +kernel
  have hfails : (Cluster.add 0 item [row 1, row 2, row 1] t).1.isOk = false := by
    decide +kernel
  rcases hrun : Cluster.add 0 item [row 1, row 2, row 1] t with ⟨outcome, t'⟩
  rw [hrun] at hfails
  cases outcome with
  | error e => exact ⟨hsession, e, t', rfl, failed_add_leaves_prefix hsession hrun⟩
  | ok stored => cases hfails

/-- Two items of one key: the addition fails, and the first item stays. -/
theorem failed_add_keeps_row :
    let item : Schema := ⟨"Item", [.ofMarks "id" .int [.key], .plain "name" .text]⟩
    let row (id : Int64) (name : String) : Record :=
      .ofList [("id", .int id), ("name", .text name)]
    let t := (create 0 ⟨"c", [item]⟩ ⟨start, []⟩).2
    let run := Cluster.add 0 item [row 1 "a", row 1 "b"] t
    (t.state.session 0).connection = none ∧ run.1.isOk = false ∧
      (t.state.shared.rowsOf item.table).length = 0 ∧
      (run.2.state.shared.rowsOf item.table).length = 1 := by
  decide +kernel

end Cluster

end Sqlite

end ModelMapper
