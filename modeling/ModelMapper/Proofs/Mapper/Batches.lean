import ModelMapper.Mapper.Cursor
import ModelMapper.Proofs.Backend.Runs
import ModelMapper.Proofs.Query.Windows

/-! # Cursors over one list of rows

A cursor whose batches are the runs of one list hands out exactly this list, whatever its
length is.

* `Backend.Serves` — a backend that answers every batch with its run.
* `Cursor.remaining` — what a cursor has still to hand out; fetching a batch keeps it
  (`remaining_accept`), and a model more is its head (`next_remaining`).
* `Cursor.run_toList` — opening a cursor and taking all it has.
-/

namespace ModelMapper

variable {σ M : Type}

/-- In the states of `R` every batch of the query is a run of the rows, and to fetch it leads to
    such a state again. -/
def Backend.Serves (b : Backend σ) (R : σ → Prop) (session : Nat) (q : Query)
    (rows : List Record) : Prop :=
  ∀ n t, R t.state → ∃ t', R t'.state ∧
    b.fetch session (q.batch n batchSize) t =
      (.ok ((rows.drop (n * batchSize)).take batchSize), t')

namespace Cursor

/-- The rows that are still to come. -/
def remaining (rows : List Record) (c : Cursor) : List Record :=
  c.buffer ++ if c.exhausted then [] else rows.drop (c.nextBatch * batchSize)

variable {b : Backend σ} {R : σ → Prop} {rows : List Record} {c : Cursor} {t : Traced σ}

/-- The next run moves from the rows into the buffer. A run that is not full reaches their
    end. -/
theorem remaining_accept (rows : List Record) (h : c.exhausted = false) :
    (c.accept ((rows.drop (c.nextBatch * batchSize)).take batchSize)).remaining rows =
      c.remaining rows := by
  rw [remaining, remaining, h, accept, h, Bool.false_or, if_neg Bool.false_ne_true,
    List.append_assoc]
  congr 1
  dsimp only
  rw [List.length_take]
  split
  · next hlast =>
    rw [decide_eq_true_eq] at hlast
    rw [List.append_nil, List.take_of_length_le (by omega)]
  · rw [Nat.add_mul, Nat.one_mul, ← List.drop_drop]
    exact List.take_append_drop _ _

/-- Fetching a batch leaves what remains, with its first row at hand unless nothing remains. -/
theorem run_fill (hb : b.Serves R c.session c.query rows) (ht : R t.state)
    (h : c.exhausted = false) :
    ∃ filled t', c.fill b t = (.ok filled, t') ∧ R t'.state ∧ filled.session = c.session ∧
      filled.query = c.query ∧ filled.remaining rows = c.remaining rows ∧
      (filled.buffer ≠ [] ∨ filled.exhausted = true) := by
  obtain ⟨t', ht', hfetch⟩ := hb c.nextBatch t ht
  have hkept := remaining_accept rows h
  generalize (rows.drop (c.nextBatch * batchSize)).take batchSize = batch at hfetch hkept
  refine ⟨c.accept batch, ⟨t'.state, c.fetched batch.length :: t'.events⟩, ?_, ht', rfl, rfl,
    hkept, ?_⟩
  · rw [fill, Call.run_bind, hfetch]
    rfl
  · cases batch with
    | nil => exact .inr (Bool.or_true _)
    | cons r batch => exact .inl (List.append_ne_nil_of_right_ne_nil _ (List.cons_ne_nil _ _))

/-- A cursor with rows at hand, or at the end, gives the first of what remains. -/
theorem pop_remaining (m : Model M) (rows : List Record)
    (h : c.buffer ≠ [] ∨ c.exhausted = true) :
    (c.pop m).1 = (c.remaining rows).head?.map (fun r => m.ofRecord r ⟨c.session⟩) ∧
      (c.pop m).2.remaining rows = (c.remaining rows).tail := by
  obtain ⟨session, q, buffer, nextBatch, exhausted⟩ := c
  cases buffer with
  | cons r rest => exact ⟨rfl, rfl⟩
  | nil =>
    obtain rfl : exhausted = true := h.resolve_left fun hne => hne rfl
    exact ⟨rfl, rfl⟩

theorem pop_same (m : Model M) (c : Cursor) :
    (c.pop m).2.session = c.session ∧ (c.pop m).2.query = c.query := by
  rw [pop]
  cases c.buffer <;> exact ⟨rfl, rfl⟩

/-- The next model is the first of what remains, and the rest remains. -/
theorem next_remaining (m : Model M) (hb : b.Serves R c.session c.query rows) (ht : R t.state) :
    ∃ rest t', c.next? b m t =
        (.ok ((c.remaining rows).head?.map fun r => m.ofRecord r ⟨c.session⟩, rest), t') ∧
      R t'.state ∧ rest.session = c.session ∧ rest.query = c.query ∧
      rest.remaining rows = (c.remaining rows).tail := by
  unfold next?
  split
  · next hempty =>
    rw [Bool.and_eq_true, List.isEmpty_iff, Bool.not_eq_true'] at hempty
    obtain ⟨filled, t', hfill, ht', hsession, hquery, hkept, hready⟩ := run_fill hb ht hempty.2
    have hattempt : Call.attempt (c.fill b) t = (.ok (c.fill b t).1, (c.fill b t).2) := rfl
    obtain ⟨hfirst, htail⟩ := pop_remaining m rows hready
    rw [hkept, hsession] at hfirst
    rw [hkept] at htail
    refine ⟨(filled.pop m).2, t', ?_, ht', (pop_same m filled).1.trans hsession,
      (pop_same m filled).2.trans hquery, htail⟩
    rw [Call.run_bind, hattempt, hfill, ← hfirst]
    rfl
  · next hready =>
    rw [Bool.and_eq_true, List.isEmpty_iff, Bool.not_eq_true', not_and,
      Bool.not_eq_false] at hready
    have hready : c.buffer ≠ [] ∨ c.exhausted = true := Decidable.or_iff_not_imp_left.2
      fun hne => hready (Decidable.not_not.1 hne)
    obtain ⟨hfirst, htail⟩ := pop_remaining m rows hready
    refine ⟨(c.pop m).2, t, ?_, ht, (pop_same m c).1, (pop_same m c).2, htail⟩
    rw [← hfirst]
    rfl

/-- Taking models until the cursor has none left gives all that remains, or the first failure to
    read one. -/
theorem toListUpTo_remaining (m : Model M) (limit : Nat)
    (hb : b.Serves R c.session c.query rows) (ht : R t.state)
    (hlimit : (c.remaining rows).length ≤ limit) :
    ∃ t', R t'.state ∧ toListUpTo b m limit c t =
      (((c.remaining rows).mapM fun r => m.ofRecord r ⟨c.session⟩).mapError .error, t') := by
  induction limit generalizing c t with
  | zero =>
    rw [List.length_eq_zero_iff.1 (Nat.le_zero.1 hlimit)]
    exact ⟨t, ht, rfl⟩
  | succ limit ih =>
    obtain ⟨rest, t', hnext, ht', hsession, hquery, hrest⟩ := next_remaining m hb ht
    rw [toListUpTo, Call.run_bind, hnext]
    cases hremaining : c.remaining rows with
    | nil => exact ⟨t', ht', rfl⟩
    | cons r others =>
      rw [hremaining] at hrest hlimit
      rw [← hsession, ← hquery] at hb
      -- The cursor after the first model has one row less to hand out.
      obtain ⟨t'', ht'', hothers⟩ := ih hb ht' (hrest ▸ Nat.le_of_succ_le_succ hlimit)
      rw [hrest, hsession, List.tail_cons] at hothers
      rw [List.mapM_cons, List.head?_cons, Option.map_some]
      dsimp only
      cases m.ofRecord r ⟨c.session⟩ with
      | error e => exact ⟨t', ht', rfl⟩
      | ok a =>
        refine ⟨t'', ht'', ?_⟩
        rw [Call.run_bind, Call.run_ofResult]
        dsimp only
        rw [Call.run_bind, hothers]
        cases others.mapM fun r => m.ofRecord r ⟨c.session⟩ <;> rfl

/-- A cursor over a query whose batches are runs of the rows gives all of them. -/
theorem run_toList (m : Model M) {session : Nat} {q : Query}
    (hb : b.Serves R session q.stableOrder rows) (hrows : rows.length ≤ maxCount)
    (ht : R t.state) :
    ∃ t', R t'.state ∧ (openOn b session q >>= toList b m) t =
      ((rows.mapM fun r => m.ofRecord r ⟨session⟩).mapError .error, t') := by
  have hremaining : (Cursor.mk session q.stableOrder [] 0 false).remaining rows = rows := by
    rw [remaining, Nat.zero_mul]
    rfl
  obtain ⟨opened, t', hfill, ht', hsession, hquery, hkept, -⟩ :=
    run_fill (c := ⟨session, q.stableOrder, [], 0, false⟩) hb ht rfl
  rw [hremaining] at hkept
  dsimp only at hsession hquery
  rw [← hsession, ← hquery] at hb
  have hlength : (opened.remaining rows).length ≤ maxCount := by
    rw [hkept]
    exact hrows
  obtain ⟨t'', ht'', hlist⟩ := toListUpTo_remaining m maxCount hb ht' hlength
  rw [hkept, hsession] at hlist
  refine ⟨t'', ht'', ?_⟩
  rw [Call.run_bind, openOn, hfill]
  exact hlist

/-- Where the first batch cannot be fetched there is no cursor. -/
theorem run_openOn_error {session : Nat} {q : Query} {f : Failure} {t' : Traced σ}
    (h : b.fetch session (q.stableOrder.batch 0 batchSize) t = (.error f, t')) :
    openOn b session q t = (.error f, t') := by
  rw [openOn, fill, Call.run_bind]
  dsimp only
  rw [h]

end Cursor

end ModelMapper
