import ModelMapper.Proofs.Mapper.Fetches
import ModelMapper.Sqlite.Backend

/-! # What a cursor tells of its answers

Whatever a backend answers, a cursor hands out the rows of one batch after the other, and stops
behind the first batch that is not full or behind the first failure.

* `Noted`, `Backend.noted` — a store with the answers to the fetches from it.
* `Backend.Answers` — every fetch ends with rows or an error, as with both stores.
* `Call.Forgets` — a call that does the same where nothing is noted.
* `Cursor.Follows` — the rows at hand are the last that the answers tell of; one more model keeps
  this (`Follows.next`).
* `CursorUse`, `CursorUse.play` — a cursor that is read from while other things happen to the store.
* `CursorUse.Sound` — the items so far are what the answers tell, and nothing behind it.
* `CursorUse.items_follow_answers` — the protocol of cursors, for every backend.
-/

namespace ModelMapper

variable {σ α β M : Type}

/-! ## Notes -/

/-- A store with the answers to the fetches from it, the oldest first. -/
structure Noted (σ : Type) where
  store : σ
  answers : List (Result (List Record))

namespace Noted

/-- A fetch that ended with rows or an error has been answered, one that panicked has not. -/
def answer : Except Failure (List Record) → List (Result (List Record))
  | .ok records => [.ok records]
  | .error (.error e) => [.error e]
  | .error (.panic _) => []

def call (c : Call σ α) : Call (Noted σ) α :=
  c.within Noted.store fun n s => { n with store := s }

def fetch (c : Call σ (List Record)) : Call (Noted σ) (List Record) := fun t =>
  match c ⟨t.state.store, t.events⟩ with
  | (outcome, after) => (outcome, ⟨⟨after.state, t.state.answers ++ answer outcome⟩, after.events⟩)

/-- The store without its notes. -/
def forget (t : Traced (Noted σ)) : Traced σ := ⟨t.state.store, t.events⟩

end Noted

/-- The backend on a store with notes. -/
def Backend.noted (b : Backend σ) : Backend (Noted σ) where
  name := b.name
  add id s records := Noted.call (b.add id s records)
  fetch id q := Noted.fetch (b.fetch id q)
  count id q := Noted.call (b.count id q)
  update id q values := Noted.call (b.update id q values)
  delete id q := Noted.call (b.delete id q)
  begin id := Noted.call (b.begin id)
  commit id := Noted.call (b.commit id)
  rollback id := Noted.call (b.rollback id)
  depth id n := b.depth id n.store
  create id c := Noted.call (b.create id c)
  drop id c := Noted.call (b.drop id c)
  openSession id := Noted.call (b.openSession id)
  ping id := Noted.call (b.ping id)
  close id := Noted.call (b.close id)

/-- The call ends with an answer or an error, and never by a panic. -/
def Call.Answers (c : Call σ α) : Prop :=
  ∀ t, ∃ (answer : Result α) (t' : Traced σ), c t = (answer.mapError .error, t')

namespace Call.Answers

theorem ofResult (r : Result α) : Answers (Call.ofResult r : Call σ α) :=
  fun t => ⟨r, t, ofResult_eq r t⟩

theorem step (f : σ → Result α × σ) : Answers (Call.step f) :=
  fun t => ⟨(f t.state).1, ⟨(f t.state).2, t.events⟩, by rw [run_step, ofResult_eq]⟩

theorem read (f : σ → Result α) : Answers (Call.read f) :=
  fun t => ⟨f t.state, t, by rw [run_read, ofResult_eq]⟩

theorem emit (e : Event) : Answers (Call.emit e : Call σ Unit) := fun t => ⟨.ok (), _, run_emit e t⟩

theorem bind {c : Call σ α} {f : α → Call σ β} (h : c.Answers) (hrest : ∀ a, (f a).Answers) :
    (c >>= f).Answers := by
  intro t
  obtain ⟨answer, t', hc⟩ := h t
  rw [run_bind, hc]
  cases answer with
  | error e => exact ⟨.error e, t', rfl⟩
  | ok a => exact hrest a t'

end Call.Answers

/-- Every fetch is answered, with rows or with an error. -/
def Backend.Answers (b : Backend σ) : Prop := ∀ session q, (b.fetch session q).Answers

open Call.Answers in
theorem Memory.backend_answers : Memory.backend.Answers := fun _ q =>
  (ofResult q.toFind).bind fun _ => (emit _).bind fun _ => read _

open Call.Answers in
theorem Sqlite.backend_answers : Sqlite.backend.Answers := fun _ q =>
  (ofResult q.toSelect).bind fun _ =>
    ((emit _).bind fun _ => step _).bind fun answer => ofResult (answer.rows.mapM q.model.readRow)

/-- The call has the outcome of the other one, and leaves the same store beside its notes. -/
def Call.Forgets (c : Call (Noted σ) α) (d : Call σ α) : Prop :=
  ∀ t, d (Noted.forget t) = ((c t).1, Noted.forget (c t).2)

namespace Call.Forgets

theorem pure (a : α) : Forgets (Pure.pure a : Call (Noted σ) α) (Pure.pure a) := fun _ => rfl

theorem throw (f : Failure) : Forgets (MonadExcept.throw f : Call (Noted σ) α)
    (MonadExcept.throw f) := fun _ => rfl

theorem emit (e : Event) : Forgets (Call.emit e : Call (Noted σ) Unit) (Call.emit e) :=
  fun _ => rfl

theorem fetch (c : Call σ (List Record)) : Forgets (Noted.fetch c) c := fun _ => rfl

theorem bind {c : Call (Noted σ) α} {d : Call σ α} {f : α → Call (Noted σ) β} {g : α → Call σ β}
    (h : Forgets c d) (hrest : ∀ a, Forgets (f a) (g a)) : Forgets (c >>= f) (d >>= g) := by
  intro t
  rw [run_bind, run_bind, h t]
  rcases hc : c t with ⟨outcome, t'⟩
  cases outcome with
  | error e => rfl
  | ok a => exact hrest a t'

theorem attempt {c : Call (Noted σ) α} {d : Call σ α} (h : Forgets c d) :
    Forgets (Call.attempt c) (Call.attempt d) := by
  intro t
  have hattempt : Call.attempt d (Noted.forget t) =
      (.ok (d (Noted.forget t)).1, (d (Noted.forget t)).2) := rfl
  rw [hattempt, h t]
  rfl

theorem ofResult (r : Result α) :
    Forgets (Call.ofResult r : Call (Noted σ) α) (Call.ofResult r) := by
  cases r <;> exact fun _ => rfl

end Call.Forgets

/-- What answers tell, one after the other: the models of a batch, or an error. -/
def told (m : Model M) (session : Nat) (answers : List (Result (List Record))) : List (Result M) :=
  answers.flatMap (Fetch.told m session)

/-- The last of the answers is no full batch. -/
def Ends (answers : List (Result (List Record))) : Prop :=
  ∃ last ∈ answers.getLast?, ¬Fetch.Full last

namespace Cursor

variable {b : Backend σ} {m : Model M} {c : Cursor}

theorem fill_forgets (b : Backend σ) (c : Cursor) : (c.fill b.noted).Forgets (c.fill b) :=
  (Call.Forgets.fetch _).bind fun _ => (Call.Forgets.emit _).bind fun _ => .pure _

theorem next_forgets (b : Backend σ) (m : Model M) (c : Cursor) :
    (c.next? b.noted m).Forgets (c.next? b m) := by
  unfold next?
  split
  · refine (fill_forgets b c).attempt.bind fun outcome => ?_
    rcases outcome with (e | text) | filled
    · exact .pure _
    · exact .throw _
    · exact .pure _
  · exact .pure _

theorem toList_forgets (b : Backend σ) (m : Model M) (limit : Nat) (c : Cursor) :
    (c.toListUpTo b.noted m limit).Forgets (c.toListUpTo b m limit) := by
  induction limit generalizing c with
  | zero => exact .pure _
  | succ limit ih =>
    refine (next_forgets b m c).bind fun ⟨item, rest⟩ => ?_
    cases item with
    | none => exact .pure _
    | some outcome =>
      refine (Call.Forgets.ofResult outcome).bind fun a => ?_
      exact (ih rest).bind fun _ => .pure _

/-! ## One more model -/

/-- Nothing is at hand, and nothing more will come. -/
structure AtEnd (c : Cursor) : Prop where
  empty : c.buffer = []
  exhausted : c.exhausted = true

/-- A cursor at its end has no model for any backend, and asks none. -/
theorem AtEnd.next (h : c.AtEnd) (b : Backend σ) (m : Model M) (t : Traced σ) :
    c.next? b m t = (.ok (none, c), t) := by
  have hwants : c.wants = false := by simp [wants, h.exhausted]
  have hpop : c.pop m = (none, c) := by rw [pop, h.empty]
  rw [next_pop m hwants, hpop]

/-- The models handed out and those of the rows at hand are what the answers tell. All answers but
    the last were full batches, and so was the last as long as the cursor goes on. -/
structure Follows (m : Model M) (session : Nat) (answers : List (Result (List Record)))
    (handed : List (Result M)) (c : Cursor) : Prop where
  sameSession : c.session = session
  told : told m session answers = handed ++ Fetch.told m session (.ok c.buffer)
  full : ∀ answer ∈ answers.dropLast, Fetch.Full answer
  going : c.exhausted = false → ∀ answer ∈ answers, Fetch.Full answer
  ended : c.exhausted = true → Ends answers

variable {session : Nat} {answers : List (Result (List Record))} {handed : List (Result M)}

theorem told_concat (m : Model M) (session : Nat) (answers : List (Result (List Record)))
    (last : Result (List Record)) :
    ModelMapper.told m session (answers ++ [last]) =
      ModelMapper.told m session answers ++ Fetch.told m session last := by
  simp [ModelMapper.told]

theorem ends_concat (answers : List (Result (List Record))) {last : Result (List Record)}
    (h : ¬Fetch.Full last) : Ends (answers ++ [last]) := ⟨last, by simp, h⟩

/-- Before its first fetch a cursor has been told nothing. -/
theorem Follows.start (m : Model M) (session : Nat) (q : Query) :
    (Cursor.mk session q [] 0 false).Follows m session [] [] where
  sameSession := rfl
  told := rfl
  full _ h := absurd h List.not_mem_nil
  going _ _ h := absurd h List.not_mem_nil
  ended h := absurd h Bool.false_ne_true

/-- A batch that was needed: all that was told before has been handed out. -/
theorem Follows.accept (h : c.Follows m session answers handed) (hwants : c.wants = true)
    (records : List Record) :
    (c.accept records).Follows m session (answers ++ [.ok records]) handed := by
  obtain ⟨hempty, hgoing⟩ := wants_iff.1 hwants
  have htold := h.told
  rw [hempty] at htold
  refine ⟨h.sameSession, ?_, ?_, fun hmore => ?_, fun hlast => ends_concat answers ?_⟩
  · rw [told_concat, htold, Cursor.accept, hempty]
    simp [Fetch.told]
  · rw [List.dropLast_concat]
    exact h.going hgoing
  · have hlong : batchSize ≤ records.length := by simpa [Cursor.accept, hgoing] using hmore
    intro answer hanswer
    rcases List.mem_append.1 hanswer with hanswer | hanswer
    · exact h.going hgoing answer hanswer
    · cases List.mem_singleton.1 hanswer
      exact ⟨records, rfl, hlong⟩
  · have hshort : records.length < batchSize := by simpa [Cursor.accept, hgoing] using hlast
    rintro ⟨found, heq, hlong⟩
    cases heq
    omega

/-- A failure is told once, behind all that was told before, and ends the cursor. -/
theorem Follows.fail (h : c.Follows m session answers handed) (hwants : c.wants = true)
    (e : Error) :
    Follows m session (answers ++ [.error e]) (handed ++ [.error e])
      { c with exhausted := true } := by
  obtain ⟨hempty, hgoing⟩ := wants_iff.1 hwants
  have htold := h.told
  rw [hempty] at htold
  refine ⟨h.sameSession, ?_, ?_, nofun, fun _ => ends_concat answers ?_⟩
  · rw [told_concat, htold, hempty]
    simp [Fetch.told]
  · rw [List.dropLast_concat]
    exact h.going hgoing
  · rintro ⟨found, heq, -⟩
    cases heq

/-- What is at hand is handed out from its front. -/
theorem Follows.pop (h : c.Follows m session answers handed) :
    (c.pop m).2.Follows m session answers (handed ++ (c.pop m).1.toList) := by
  rw [pop_eq]
  refine ⟨h.sameSession, ?_, h.full, h.going, h.ended⟩
  dsimp only
  rw [List.append_assoc, h.sameSession, CursorRun.told_pop]
  exact h.told

/-- A cursor that needs no batch has no model only at its end. -/
theorem atEnd_of_pop (hwants : c.wants = false) (h : (c.pop m).1 = none) : (c.pop m).2.AtEnd := by
  rw [pop_eq] at h ⊢
  have hempty : c.buffer = [] := by simpa using h
  refine ⟨by simp [hempty], ?_⟩
  simpa [wants, hempty] using hwants

theorem wants_accept (c : Cursor) (records : List Record) : (c.accept records).wants = false := by
  cases records with
  | nil => simp [wants, Cursor.accept, batchSize]
  | cons r records => simp [wants, Cursor.accept]

theorem noted_fetch (hb : b.Answers) (session : Nat) (q : Query) (t : Traced (Noted σ)) :
    ∃ (answer : Result (List Record)) (t' : Traced (Noted σ)),
      b.noted.fetch session q t = (answer.mapError .error, t') ∧
        t'.state.answers = t.state.answers ++ [answer] := by
  obtain ⟨answer, t', hfetch⟩ := hb session q (Noted.forget t)
  refine ⟨answer, ⟨⟨t'.state, t.state.answers ++ [answer]⟩, t'.events⟩, ?_, rfl⟩
  change Noted.fetch (b.fetch session q) t = _
  change b.fetch session q ⟨t.state.store, t.events⟩ = _ at hfetch
  rw [Noted.fetch, hfetch]
  cases answer <;> rfl

/-- The next model is the next that the answers tell of, and there is none only at the end. -/
theorem Follows.next (hb : b.Answers) {t : Traced (Noted σ)}
    (h : c.Follows m session t.state.answers handed) :
    ∃ item c' t', c.next? b.noted m t = (.ok (item, c'), t') ∧
      c'.Follows m session t'.state.answers (handed ++ item.toList) ∧ (item = none → c'.AtEnd) := by
  cases hwants : c.wants with
  | false => exact ⟨_, _, t, next_pop m hwants, h.pop, atEnd_of_pop hwants⟩
  | true =>
    obtain ⟨answer, t', hfetch, hnoted⟩ :=
      noted_fetch hb c.session (c.query.batch c.nextBatch batchSize) t
    obtain ⟨events, hnext⟩ := next_advance m hwants hfetch
    refine ⟨(c.advance m answer).1, (c.advance m answer).2, ⟨t'.state, events⟩, hnext, ?_⟩
    rw [hnoted]
    cases answer with
    | error e =>
      rw [advance_error m hwants]
      exact ⟨h.fail hwants e, nofun⟩
    | ok records =>
      rw [advance_ok m hwants]
      exact ⟨(h.accept hwants records).pop, atEnd_of_pop (wants_accept c records)⟩

/-- Taking the models up to the first failure gives what is still told, if there are not more than
    asked for. -/
theorem Follows.toListUpTo (hb : b.Answers) (limit : Nat) {t : Traced (Noted σ)}
    (h : c.Follows m session t.state.answers handed) :
    ∃ outcome t' rest, c.toListUpTo b.noted m limit t = (outcome, t') ∧
      ModelMapper.told m session t'.state.answers = handed ++ rest ∧
      (∀ answer ∈ t'.state.answers.dropLast, Fetch.Full answer) ∧
      (rest.length < limit → outcome = (rest.mapM id).mapError .error ∧
        (outcome.isOk = true → Ends t'.state.answers)) := by
  -- on the models that may still be taken; `handed` grows by each one that is
  induction limit generalizing c t handed with
  | zero => exact ⟨_, t, _, rfl, h.told, h.full, fun hlength => absurd hlength (Nat.not_lt_zero _)⟩
  | succ limit ih =>
    obtain ⟨item, c', t', hnext, hfollows, hend⟩ := h.next hb
    rw [Cursor.toListUpTo, Call.run_bind, hnext]
    cases item with
    | none =>
      -- nothing is told behind the end, so the last answer is the one that ended the cursor
      have hatEnd := hend rfl
      refine ⟨_, t', [], rfl, ?_, hfollows.full, fun _ => ⟨rfl, fun _ => ?_⟩⟩
      · rw [hfollows.told, hatEnd.empty]
        simp [Fetch.told]
      · exact hfollows.ended hatEnd.exhausted
    | some item =>
      dsimp only
      rw [Call.run_bind, Call.ofResult_eq]
      cases item with
      | error e =>
        -- a failed fetch, or a record that is no model: the rest is told but not taken
        refine ⟨_, t', .error e :: Fetch.told m session (.ok c'.buffer), rfl, ?_, hfollows.full,
          fun _ => ⟨rfl, fun h => absurd h Bool.false_ne_true⟩⟩
        rw [hfollows.told, List.append_assoc]
        rfl
      | ok a =>
        obtain ⟨outcome, t'', rest, hothers, htold, hfull, hall⟩ := ih hfollows
        refine ⟨outcome.map (a :: ·), t'', .ok a :: rest, ?_, ?_, hfull, fun hlength => ?_⟩
        · dsimp only [Except.mapError]
          rw [Call.run_bind, hothers]
          cases outcome <;> rfl
        · rw [htold, List.append_assoc]
          rfl
        · obtain ⟨houtcome, hends⟩ := hall (Nat.lt_of_succ_lt_succ hlength)
          rw [List.mapM_cons, houtcome]
          rw [houtcome] at hends
          cases hmodels : rest.mapM id with
          | error e => exact ⟨rfl, fun h => absurd h Bool.false_ne_true⟩
          | ok models =>
            rw [hmodels] at hends
            exact ⟨rfl, fun _ => hends rfl⟩

/-- Opening a cursor is a fetch, and fails with it. -/
theorem openOn_follows (hb : b.Answers) (m : Model M) (session : Nat) (q : Query)
    {t : Traced (Noted σ)} (hnone : t.state.answers = []) :
    (∃ e t', openOn b.noted session q t = (.error (.error e), t') ∧
        t'.state.answers = [.error e]) ∨
      ∃ c records t', openOn b.noted session q t = (.ok c, t') ∧
        t'.state.answers = [.ok records] ∧ c.Follows m session [.ok records] [] := by
  obtain ⟨answer, t', hfetch, hnoted⟩ :=
    noted_fetch hb session (q.stableOrder.batch 0 batchSize) t
  rw [hnone, List.nil_append] at hnoted
  rw [openOn, fill, Call.run_bind, hfetch]
  cases answer with
  | error e => exact .inl ⟨e, t', rfl, hnoted⟩
  | ok records =>
    exact .inr ⟨_, records, _, rfl, hnoted,
      (Follows.start m session q.stableOrder).accept rfl records⟩

end Cursor

/-! ## Uses of a cursor -/

/-- A cursor that is read from, on a store with notes. -/
structure CursorUse (σ M : Type) where
  now : Traced (Noted σ)
  cursor : Cursor
  /-- The items so far, the oldest first. -/
  items : List (Option (Result M))

namespace CursorUse

/-- The cursor is asked for its next model, or something else happens to the store. -/
inductive Step (σ : Type) where
  | next
  | elsewhere (change : σ → σ)

def Step.isNext : Step σ → Bool
  | .next => true
  | .elsewhere _ => false

def play (b : Backend σ) (m : Model M) (w : CursorUse σ M) : Step σ → CursorUse σ M
  | .next =>
    match w.cursor.next? b.noted m w.now with
    | (.ok (item, cursor), now) => ⟨now, cursor, w.items ++ [item]⟩
    | (.error _, now) => { w with now := now }
  | .elsewhere change =>
    { w with now := { w.now with state.store := change w.now.state.store } }

/-- The items are what the answers tell up to the rows at hand, and then none from the end on. -/
def Sound (m : Model M) (session : Nat) (w : CursorUse σ M) : Prop :=
  ∃ handed ended, w.items = handed.map some ++ List.replicate ended none ∧
    w.cursor.Follows m session w.now.state.answers handed ∧ (0 < ended → w.cursor.AtEnd)

variable {b : Backend σ} {m : Model M} {session : Nat} {w : CursorUse σ M}

/-- Asking for the next model gives an item, and keeps the items sound. -/
theorem Sound.next (hb : b.Answers) (h : w.Sound m session) :
    (w.play b m .next).Sound m session ∧
      (w.play b m .next).items.length = w.items.length + 1 := by
  obtain ⟨handed, ended, hitems, hfollows, hended⟩ := h
  rcases Nat.eq_zero_or_pos ended with rfl | hpos
  · obtain ⟨item, c', t', hnext, hfollows', hend⟩ := hfollows.next hb
    rw [play, hnext]
    refine ⟨?_, by simp⟩
    cases item with
    | none =>
      refine ⟨handed, 1, ?_, ?_, fun _ => hend rfl⟩
      · simp [hitems]
      · simpa using hfollows'
    | some item =>
      refine ⟨handed ++ [item], 0, ?_, hfollows', fun h => absurd h (Nat.lt_irrefl 0)⟩
      simp [hitems]
  · -- it was at the end before
    have hatEnd := hended hpos
    rw [play, hatEnd.next b.noted m w.now]
    refine ⟨⟨handed, ended + 1, ?_, hfollows, fun _ => hatEnd⟩, by simp⟩
    dsimp only
    rw [hitems, List.replicate_succ', List.append_assoc]

theorem Sound.run (hb : b.Answers) (h : w.Sound m session) (steps : List (Step σ)) :
    (steps.foldl (play b m) w).Sound m session ∧
      (steps.foldl (play b m) w).items.length = w.items.length + steps.countP Step.isNext := by
  induction steps generalizing w with
  | nil => exact ⟨h, rfl⟩
  | cons s rest ih =>
    cases s with
    | next =>
      obtain ⟨hnext, hlength⟩ := h.next hb
      obtain ⟨hrest, hcount⟩ := ih hnext
      refine ⟨hrest, ?_⟩
      rw [List.foldl_cons, hcount, hlength, List.countP_cons]
      simp [Step.isNext]
      omega
    | elsewhere change => exact ih h

/-- Each item is the one that the answers tell in its place, and there is none behind the last. -/
theorem Sound.getElem? (h : w.Sound m session) {i : Nat} (hi : i < w.items.length) :
    w.items[i]? = some (told m session w.now.state.answers)[i]? := by
  obtain ⟨handed, ended, hitems, hfollows, hended⟩ := h
  rw [hitems, hfollows.told]
  rcases Nat.lt_or_ge i handed.length with hlt | hge
  · rw [List.getElem?_append_left (by simpa using hlt), List.getElem?_append_left hlt]
    simp [hlt]
  · rw [hitems, List.length_append, List.length_map, List.length_replicate] at hi
    have hatEnd := hended (by omega)
    rw [hatEnd.empty, List.getElem?_append_right (by simpa using hge)]
    have hnone : (handed ++ Fetch.told m session (.ok []))[i]? = none := by
      simpa [Fetch.told] using hge
    rw [hnone, List.getElem?_replicate]
    simp
    omega

theorem Sound.atEnd (h : w.Sound m session) (hnone : none ∈ w.items) : w.cursor.AtEnd := by
  obtain ⟨handed, ended, hitems, -, hended⟩ := h
  refine hended (Nat.pos_of_ne_zero ?_)
  rintro rfl
  simp [hitems] at hnone

/-- What a cursor hands out, whatever its backend answers.

    Opening it is the first fetch, which fails as that fetch does.  Of the models of the batches in
    their order every request takes the next one, whatever else happens to the store; behind a
    failed fetch there is its error, once.  All answers but the last were full batches, and a
    cursor without a further model has been answered with a batch that is not full or with an
    error; from then on it has none for any backend, and asks none.  Taking all models gives these
    or the first error.  No list is longer than the largest count. -/
theorem items_follow_answers (hb : b.Answers) (m : Model M) (session : Nat) (q : Query)
    (t : Traced σ) :
    (Cursor.openOn b.noted session q).Forgets (Cursor.openOn b session q) ∧
    (∀ c : Cursor, (c.next? b.noted m).Forgets (c.next? b m) ∧
      (c.toList b.noted m).Forgets (c.toList b m)) ∧
    let opening := Cursor.openOn b.noted session q ⟨⟨t.state, []⟩, t.events⟩
    (∃ e, opening.1 = .error (.error e) ∧ opening.2.state.answers = [.error e]) ∨
    ∃ c records, opening.1 = .ok c ∧ opening.2.state.answers = [.ok records] ∧
      (∀ steps : List (Step σ),
        let w := steps.foldl (play b m) ⟨opening.2, c, []⟩
        let answers := w.now.state.answers
        w.items.length = steps.countP Step.isNext ∧
        (∀ i, i < w.items.length → w.items[i]? = some (told m session answers)[i]?) ∧
        (∀ answer ∈ answers.dropLast, Fetch.Full answer) ∧
        (none ∈ w.items → Ends answers ∧
          ∀ (b' : Backend σ) t', w.cursor.next? b' m t' = (.ok (none, w.cursor), t'))) ∧
      let all := c.toList b.noted m opening.2
      let answers := all.2.state.answers
      (∀ answer ∈ answers.dropLast, Fetch.Full answer) ∧
      ((told m session answers).length < maxCount →
        all.1 = ((told m session answers).mapM id).mapError .error ∧
          (all.1.isOk = true → Ends answers)) := by
  refine ⟨Cursor.fill_forgets b _, fun c => ⟨Cursor.next_forgets b m c,
    Cursor.toList_forgets b m maxCount c⟩, ?_⟩
  intro opening
  rcases Cursor.openOn_follows hb m session q (t := ⟨⟨t.state, []⟩, t.events⟩) rfl with
    ⟨e, t₀, hopening, hanswers⟩ | ⟨c, records, t₀, hopening, hanswers, hfollows⟩
  · exact .inl ⟨e, congrArg Prod.fst hopening,
      (congrArg (fun run => run.2.state.answers) hopening).trans hanswers⟩
  · -- the first batch is at hand, and nothing has been handed out
    have hopening : opening = (.ok c, t₀) := hopening
    rw [hopening]
    rw [← hanswers] at hfollows
    refine .inr ⟨c, records, rfl, hanswers, fun steps => ?_, ?_⟩
    · have hstart : Sound m session (⟨t₀, c, []⟩ : CursorUse σ M) :=
        ⟨[], 0, rfl, hfollows, fun h => absurd h (Nat.lt_irrefl 0)⟩
      obtain ⟨hsound, hlength⟩ := hstart.run hb steps
      refine ⟨hlength.trans (Nat.zero_add _), fun i hi => hsound.getElem? hi, ?_, fun hnone => ?_⟩
      · obtain ⟨handed, ended, -, hfollows, -⟩ := hsound
        exact hfollows.full
      · have hatEnd := hsound.atEnd hnone
        obtain ⟨handed, ended, -, hfollows, -⟩ := hsound
        exact ⟨hfollows.ended hatEnd.exhausted, fun b' t' => hatEnd.next b' m t'⟩
    · obtain ⟨outcome, t', rest, hall, htold, hfull, houtcome⟩ := hfollows.toListUpTo hb maxCount
      intro all answers
      have hall : all = (outcome, t') := hall
      have htold : told m session answers = rest := by
        rw [← List.nil_append rest, ← htold]
        exact congrArg (fun run => told m session run.2.state.answers) hall
      have hanswers : answers = t'.state.answers :=
        congrArg (fun run => run.2.state.answers) hall
      rw [htold, hanswers, hall]
      exact ⟨hfull, houtcome⟩

/-- The items fill one batch, and are dropped when it has been handed out. -/
theorem items_follow_answers_of_dropped :
    let item : Schema := ⟨"Item", [.ofMarks "size" .int []]⟩
    let model := Model.ofSchema item
    let created := (Memory.backend.create 0 ⟨"c", [item]⟩ ⟨.start, []⟩).2
    let t := (Memory.backend.add 0 item
      (List.replicate batchSize (Record.empty.set "size" (.int 1))) created).2
    let opening := Cursor.openOn Memory.backend.noted 0 ⟨item, none, []⟩ ⟨⟨t.state, []⟩, t.events⟩
    let dropped (s : Memory.Cluster) := (Memory.backend.drop 0 ⟨"c", [item]⟩ ⟨s, []⟩).2.state
    let steps := List.replicate batchSize Step.next ++ [.elsewhere dropped, .next, .next]
    ∃ c, opening.1 = .ok c ∧
      let w := steps.foldl (play Memory.backend model) ⟨opening.2, c, []⟩
      w.items.length = batchSize + 2 ∧ Ends w.now.state.answers ∧
        ∀ b' t', w.cursor.next? (b' : Backend Memory.Cluster) model t' =
          (.ok (none, w.cursor), t') := by
  intro item model created t opening dropped steps
  have hitems : (opening.1.toOption.map fun c =>
      (steps.foldl (play Memory.backend model) ⟨opening.2, c, []⟩).items.any Option.isNone) =
        some true := by decide +kernel
  have hcount : steps.countP Step.isNext = batchSize + 2 := by decide +kernel
  clear_value steps
  obtain ⟨e, herror, -⟩ | ⟨c, records, hopening, -, hsteps, -⟩ :=
    (items_follow_answers Memory.backend_answers model 0 ⟨item, none, []⟩ t).2.2
  · rw [show opening.1 = _ from herror] at hitems
    cases hitems
  · rw [show opening.1 = _ from hopening] at hitems
    obtain ⟨last, hlast, hnone⟩ := List.any_eq_true.1 (Option.some.inj hitems)
    obtain rfl := Option.isNone_iff_eq_none.1 hnone
    obtain ⟨hlength, -, -, hended⟩ := hsteps steps
    exact ⟨c, hopening, hlength.trans hcount, hended hlast⟩

end CursorUse

end ModelMapper
