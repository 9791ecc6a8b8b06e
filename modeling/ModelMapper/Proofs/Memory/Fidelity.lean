import Mathlib.Data.List.Induction
import ModelMapper.Proofs.Memory.Steps

/-! # The log of a transaction

The log of an open transaction leads from the store it was begun on to its private copy, whatever
other sessions have published meanwhile.  So an outermost commit publishes the private copy if
nobody else has published anything, and a commit whose log no longer applies publishes nothing.

The invariant is `Transaction.ReplaysFrom`: besides the copy it ties every savepoint to the part
of the log that was there when it was made, which is what a rollback cuts the log down to.
-/

namespace ModelMapper.Memory

/-! ## The invariant -/

/-- Each savepoint has the store that its part of the log leads to. -/
def SavedIn (snapshot : Store) (log : List Change) : List (Store × Nat) → Prop
  | [] => True
  | (store, length) :: outer =>
    length ≤ log.length ∧ Change.applyAll snapshot (log.take length) = .ok store ∧
      SavedIn snapshot (log.take length) outer

structure Transaction.ReplaysFrom (t : Transaction) (snapshot : Store) : Prop where
  working : Change.applyAll snapshot t.log = .ok t.working
  savepoints : SavedIn snapshot t.log t.savepoints

theorem SavedIn.append {snapshot : Store} {log : List Change} (rest : List Change) :
    ∀ {saved : List (Store × Nat)}, SavedIn snapshot log saved →
      SavedIn snapshot (log ++ rest) saved
  | [], _ => trivial
  | (store, length) :: outer, h => by
    obtain ⟨hlength, hstore, houter⟩ := h
    rw [SavedIn, List.take_append_of_le_length hlength]
    refine ⟨?_, hstore, houter⟩
    rw [List.length_append]
    omega

namespace Cluster.Step

variable {c c' : Cluster} {id : Nat} {a : Action} {t t' : Transaction} {snapshot : Store}

/-- A transaction starts with a copy of the shared store and without writes. -/
theorem opened_of_idle (h : Step id a c c') (hs : c.session id = none)
    (hs' : c'.session id = some t') : a = .begin ∧ t' = ⟨c.shared, [], []⟩ := by
  cases h with
  | still | published => simp_all [session]
  | opened ha =>
    rw [session_setSession] at hs'
    split at hs'
    · exact ⟨ha, (Option.some.inj hs').symm⟩
    · rw [hs] at hs'
      cases hs'
  | noted _ hs₀ | nested _ hs₀ | released _ hs₀ | merged _ hs₀ | undone _ hs₀ =>
    rw [hs] at hs₀
    cases hs₀
  | ended =>
    rw [session_setSession_none] at hs'
    cases hs'
  | joined =>
    rw [session_openSession, hs] at hs'
    cases hs'

/-- Steps of the session itself keep the log faithful. -/
theorem replaysFrom (h : Step id a c c') (hs : c.session id = some t)
    (hs' : c'.session id = some t') (ht : t.ReplaysFrom snapshot) : t'.ReplaysFrom snapshot := by
  cases h with
  | still =>
    cases hs.symm.trans hs'
    exact ht
  | published _ hs₀ | opened _ hs₀ =>
    rw [hs] at hs₀
    cases hs₀
  | noted _ hs₀ _ happly =>
    cases hs.symm.trans hs₀
    cases (session_setSession_self hs _).symm.trans hs'
    exact ⟨Change.applyAll_snoc ht.working happly, ht.savepoints.append _⟩
  | nested _ hs₀ =>
    cases hs.symm.trans hs₀
    cases (session_setSession_self hs _).symm.trans hs'
    -- The savepoint is made of the whole log.
    refine ⟨ht.working, Nat.le_refl _, ?_, ?_⟩
    · rw [List.take_length]
      exact ht.working
    · rw [List.take_length]
      exact ht.savepoints
  | @released _ saved outer _ hs₀ hsaved =>
    cases hs.symm.trans hs₀
    cases (session_setSession_self hs _).symm.trans hs'
    have houter := ht.savepoints
    rw [hsaved] at houter
    -- The outer savepoints have parts of the part that the released one had.
    refine ⟨ht.working, ?_⟩
    rw [← List.take_append_drop saved.2 t.log]
    exact houter.2.2.append _
  | undone _ hs₀ hsaved =>
    cases hs.symm.trans hs₀
    cases (session_setSession_self hs _).symm.trans hs'
    have houter := ht.savepoints
    rw [hsaved] at houter
    -- The log is cut down to the part that leads to the store of the savepoint.
    exact ⟨houter.2.1, houter.2.2⟩
  | merged | ended =>
    cases (session_setSession_none c id).symm.trans hs'
  | joined =>
    rw [session_openSession] at hs'
    cases hs.symm.trans hs'
    exact ht

/-- A session in a transaction publishes nothing. -/
theorem shared_of_active (h : Step id a c c') (hs' : c'.session id = some t') :
    c'.shared = c.shared := by
  cases h with
  | still | noted | opened | nested | released | undone | ended | joined => rfl
  | published _ hs₀ =>
    have hidle : c.session id = some t' := hs'
    rw [hs₀] at hidle
    cases hidle
  | merged =>
    cases (session_setSession_none c id).symm.trans hs'

end Cluster.Step

namespace Cluster

/-! ## Runs -/

/-- After the first requests the session has no transaction.  It begins one then, which stays
    open over the others. -/
structure Spans (id : Nat) (before during : List Request) : Prop where
  idle : (after before).session id = none
  active : ∀ first, first <+: during →
    ((after (before ++ ⟨id, .ok .begin⟩ :: first)).session id).isSome

/-- No other session has published anything since. -/
def Undisturbed (id : Nat) (before during : List Request) : Prop :=
  ∀ first r, first ++ [r] <+: during → r.session ≠ id →
    (after (before ++ ⟨id, .ok .begin⟩ :: (first ++ [r]))).shared =
      (after (before ++ ⟨id, .ok .begin⟩ :: first)).shared

theorem after_during (before first : List Request) (begun r : Request) :
    after (before ++ begun :: (first ++ [r])) = after ((before ++ begun :: first) ++ [r]) := by
  rw [List.append_assoc]
  rfl

/-- An open transaction was begun by its session, and its log is faithful to the shared store of
    that moment. -/
theorem begun_of_active (requests : List Request) {id : Nat} {t : Transaction}
    (h : (after requests).session id = some t) :
    ∃ before during, requests = before ++ ⟨id, .ok .begin⟩ :: during ∧ Spans id before during ∧
      t.ReplaysFrom (after before).shared := by
  -- The run is taken apart from its end: the last request began the transaction, or the
  -- transaction was open before it and has the same begin.
  induction requests using List.reverseRecOn generalizing t with
  | nil =>
    cases (session_start id).symm.trans h
  | append_singleton requests r ih =>
    cases hs : (after requests).session id with
    | none =>
      rcases after_snoc requests r with hsame | ⟨a, ha, hstep⟩
      · rw [hsame, hs] at h
        cases h
      · by_cases hid : r.session = id
        · subst hid
          obtain ⟨rfl, rfl⟩ := hstep.opened_of_idle hs h
          obtain ⟨id, action⟩ := r
          cases ha
          refine ⟨requests, [], rfl, ⟨hs, fun first hfirst => ?_⟩, rfl, trivial⟩
          rw [List.prefix_nil.1 hfirst, h]
          rfl
        · rw [hstep.session_of_ne hid, hs] at h
          cases h
    | some t₀ =>
      obtain ⟨before, during, rfl, hspans, hreplays⟩ := ih hs
      refine ⟨before, during ++ [r], by simp, ⟨hspans.idle, fun first hfirst => ?_⟩, ?_⟩
      · rcases List.prefix_concat_iff.1 hfirst with rfl | hfirst
        · rw [after_during, h]
          rfl
        · exact hspans.active first hfirst
      · rcases after_snoc (before ++ ⟨id, .ok .begin⟩ :: during) r with hsame | ⟨a, -, hstep⟩
        · rw [hsame, hs] at h
          cases h
          exact hreplays
        · by_cases hid : r.session = id
          · subst hid
            exact hstep.replaysFrom hs h hreplays
          · rw [hstep.session_of_ne hid, hs] at h
            cases h
            exact hreplays

/-- While nobody else publishes anything, the shared store is the one the transaction was begun
    on. -/
theorem Spans.shared {id : Nat} {before during : List Request} (h : Spans id before during)
    (hquiet : Undisturbed id before during) :
    (after (before ++ ⟨id, .ok .begin⟩ :: during)).shared = (after before).shared := by
  induction during using List.reverseRecOn with
  | nil =>
    obtain ⟨t, ht⟩ := Option.isSome_iff_exists.1 (h.active [] (List.prefix_refl _))
    rcases after_snoc before ⟨id, .ok .begin⟩ with hsame | ⟨a, -, hstep⟩
    · exact congrArg Cluster.shared hsame
    · exact hstep.shared_of_active ht
  | append_singleton during r ih =>
    have hwhole : during ++ [r] <+: during ++ [r] := List.prefix_refl _
    have hpart : during <+: during ++ [r] := List.prefix_append _ _
    have hbefore := ih ⟨h.idle, fun first hfirst => h.active first (hfirst.trans hpart)⟩
      fun first r' hfirst => hquiet first r' (hfirst.trans hpart)
    refine Eq.trans ?_ hbefore
    by_cases hid : r.session = id
    · -- The session itself publishes nothing while its transaction is open.
      subst hid
      obtain ⟨t, ht⟩ := Option.isSome_iff_exists.1 (h.active _ hwhole)
      rw [after_during] at ht ⊢
      rcases after_snoc (before ++ ⟨r.session, .ok .begin⟩ :: during) r with
        hsame | ⟨a, -, hstep⟩
      · rw [hsame]
      · exact hstep.shared_of_active ht
    · exact hquiet during r hwhole hid

end Cluster

theorem commitConflict_kind (e : Error) : (commitConflict e).kind = .raised .transaction := by
  unfold commitConflict Error.intoTransaction Error.into
  split
  · assumption
  · rfl

namespace Cluster

/-- Whatever run led to an open transaction, its log leads from the shared store of its outermost
    begin to its private copy.  An outermost commit that no other session has disturbed publishes
    that copy, and one whose log does not apply to the shared store any more fails as a
    transaction, changes no store and leaves the session without copy, log and savepoints. -/
theorem log_leads_to_working_copy (requests : List Request) (id : Nat) {t : Transaction}
    (h : (after requests).session id = some t) :
    ∃ before during, requests = before ++ ⟨id, .ok .begin⟩ :: during ∧ Spans id before during ∧
      Change.applyAll (after before).shared t.log = .ok t.working ∧
      (t.savepoints = [] → Undisturbed id before during →
        (after requests).commit id =
          (.ok (), { (after requests).setSession id none with shared := t.working })) ∧
      (t.savepoints = [] → ∀ e, Change.applyAll (after requests).shared t.log = .error e →
        ∃ e' ended, (after requests).commit id = (.error e', ended) ∧
          e'.kind = .raised .transaction ∧ ended.shared = (after requests).shared ∧
          ended.session id = none ∧ ended.depth id = 0) := by
  obtain ⟨before, during, rfl, hspans, hreplays⟩ := begun_of_active requests h
  refine ⟨before, during, rfl, hspans, hreplays.working, fun hsaved hquiet => ?_,
    fun hsaved e he => ?_⟩
  · refine commit_outermost h hsaved ?_
    rw [hspans.shared hquiet]
    exact hreplays.working
  · have hnone := session_setSession_none (after (before ++ ⟨id, .ok .begin⟩ :: during)) id
    refine ⟨_, _, commit_conflicting h hsaved he, commitConflict_kind e, rfl, hnone, ?_⟩
    rw [depth, hnone]
    rfl

/-- A second session adds an item, adds another one in an inner scope and rolls that scope back,
    while the first session publishes an item of its own. -/
theorem log_of_items_leads_to_working_copy :
    let item : Schema := ⟨"Item", [.ofMarks "id" .int [.key, .auto]]⟩
    let requests : List Request := [⟨0, .ok (.create ⟨"c", [item]⟩)⟩, ⟨0, .ok .openSession⟩,
      ⟨1, .ok .begin⟩, ⟨1, .ok (.add item [.empty])⟩, ⟨0, .ok (.add item [.empty])⟩,
      ⟨1, .ok .begin⟩, ⟨1, .ok (.add item [.empty])⟩, ⟨1, .ok .rollback⟩]
    ∃ t, (after requests).session 1 = some t ∧ t.log.length = 1 ∧
      ∃ before during, requests = before ++ ⟨1, .ok .begin⟩ :: during ∧
        Spans 1 before during ∧ Change.applyAll (after before).shared t.log = .ok t.working := by
  intro item requests
  have hlog : ((after requests).session 1).map (fun t => t.log.length) = some 1 := by
    decide +kernel
  obtain ⟨t, hs, hlength⟩ := Option.map_eq_some_iff.1 hlog
  obtain ⟨before, during, hrun, hspans, hworking, -⟩ := log_leads_to_working_copy requests 1 hs
  exact ⟨t, hs, hlength, before, during, hrun, hspans, hworking⟩

end Cluster

end ModelMapper.Memory
