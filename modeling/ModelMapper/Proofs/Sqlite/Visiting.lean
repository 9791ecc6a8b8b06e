import ModelMapper.Proofs.Query.Truth
import ModelMapper.Sqlite.Visiting

/-! # The rows that are visited

However the engine comes to the rows of a condition, they are those of the table that the
condition is true for.

* `Lookup.LeadsTo` — a way that misses no row of a condition and meets none twice.
* `Table.lookup_leadsTo` — every way by the key is one.
* `Table.visit_perm` — the rows visited, up to their order.
-/

namespace ModelMapper.Sqlite

open Sql (Condition)

theorem nodup_eraseDups {α : Type} [BEq α] [LawfulBEq α] : ∀ l : List α, l.eraseDups.Nodup
  | [] => List.nodup_nil
  | a :: l => by
    rw [List.eraseDups_cons, List.nodup_cons]
    refine ⟨fun hmem => ?_, nodup_eraseDups _⟩
    rw [List.mem_eraseDups, List.mem_filter] at hmem
    simp at hmem
termination_by l => l.length
decreasing_by exact Nat.lt_succ_of_le (List.length_filter_le _ l)

namespace Lookup

/-- The way meets rows of the key, none of them twice, and all that pass the test. -/
structure LeadsTo (byKey : List Row) (test : Row → Prop) (found : Lookup) : Prop where
  nodup : found.rows.Nodup
  subset : ∀ r ∈ found.rows, r ∈ byKey
  complete : ∀ r ∈ byKey, test r → r ∈ found.rows

theorem LeadsTo.mono {byKey : List Row} {test test' : Row → Prop} {found : Lookup}
    (h : found.LeadsTo byKey test) (htest : ∀ r, test' r → test r) :
    found.LeadsTo byKey test' where
  nodup := h.nodup
  subset := h.subset
  complete r hr hr' := h.complete r hr (htest r hr')

theorem leadsTo_of_rows {byKey : List Row} {test : Row → Prop} {found other : Lookup}
    (h : found.LeadsTo byKey test) (hrows : other.rows = found.rows) :
    other.LeadsTo byKey test where
  nodup := hrows ▸ h.nodup
  subset := hrows ▸ h.subset
  complete := hrows ▸ h.complete

/-- The whole key leads anywhere. -/
theorem leadsTo_all {byKey : List Row} (h : byKey.Nodup) (test : Row → Prop) (ranges : Nat)
    (branches equalities : Bool) :
    LeadsTo byKey test ⟨ranges, branches, equalities, byKey⟩ :=
  ⟨h, fun _ hr => hr, fun _ hr _ => hr⟩

theorem easier_eq_some {a b : Option Lookup} {found : Lookup} (h : easier a b = some found) :
    a = some found ∨ b = some found := by
  cases a with
  | none => exact .inr (by simpa [easier] using h)
  | some a =>
    cases b with
    | none => exact .inl (by simpa [easier] using h)
    | some b =>
      simp only [easier] at h
      split at h
      · exact .inl h
      · exact .inr h

theorem foldr_easier_mem {ways : List (Option Lookup)} {found : Lookup}
    (h : ways.foldr easier none = some found) : some found ∈ ways := by
  induction ways with
  | nil => cases h
  | cons way ways ih =>
    rcases easier_eq_some h with h | h
    · exact h ▸ List.mem_cons_self
    · exact List.mem_cons_of_mem _ (ih h)

/-- The way to all conditions at once is the way to one of them. -/
theorem ofAll_eq_some {ways : List (Option Lookup)} {found : Lookup}
    (h : ofAll ways = some found) : ∃ one, some one ∈ ways ∧ found.rows = one.rows := by
  unfold ofAll at h
  split at h
  · exact ⟨found, h ▸ List.mem_cons_self, rfl⟩
  · obtain ⟨one, hone, rfl⟩ := Option.map_eq_some_iff.1 h
    exact ⟨one, foldr_easier_mem hone, rfl⟩

theorem mapM_eq_some {α β : Type} {f : α → Option β} {as : List α} {bs : List β}
    (h : as.mapM f = some bs) :
    (∀ a ∈ as, ∃ b ∈ bs, f a = some b) ∧ ∀ b ∈ bs, ∃ a ∈ as, f a = some b := by
  induction as generalizing bs with
  | nil =>
    cases h
    exact ⟨nofun, nofun⟩
  | cons a as ih =>
    rw [List.mapM_cons] at h
    obtain ⟨b, hb, h⟩ := Option.bind_eq_some_iff.1 h
    obtain ⟨rest, hrest, h⟩ := Option.bind_eq_some_iff.1 h
    cases h
    obtain ⟨hleft, hright⟩ := ih hrest
    constructor
    · refine List.forall_mem_cons.2 ⟨⟨b, List.mem_cons_self, hb⟩, fun x hx => ?_⟩
      obtain ⟨y, hy, hxy⟩ := hleft x hx
      exact ⟨y, List.mem_cons_of_mem _ hy, hxy⟩
    · refine List.forall_mem_cons.2 ⟨⟨a, List.mem_cons_self, hb⟩, fun y hy => ?_⟩
      obtain ⟨x, hx, hxy⟩ := hright y hy
      exact ⟨x, List.mem_cons_of_mem _ hx, hxy⟩

/-- The way to any of several conditions meets the rows of a way to each. -/
theorem ofAny_eq_some {maxRanges : Nat} {byKey : List Row} {ways : List (Option Lookup)}
    {found : Lookup} (h : ofAny maxRanges byKey ways = some found) :
    ∃ each : List Lookup, ways.mapM id = some each ∧
      (found.rows = byKey.filter (each.flatMap rows).eraseDups.contains ∨
        found.rows = (each.flatMap rows).eraseDups) := by
  obtain ⟨each, heach, h⟩ := Option.bind_eq_some_iff.1 h
  refine ⟨each, heach, ?_⟩
  dsimp only at h
  split at h
  · cases h
  · split at h
    · cases h
      exact .inl rfl
    · cases h
      exact .inr rfl

end Lookup

namespace Table

variable {t : Table} {byKey : List Row}

/-! ## Conditions -/

/-- The condition is true on the row. -/
def IsTrue (t : Table) (c : Condition) (r : Row) : Prop := t.evaluate r c = some true

theorem selects_some {c : Condition} {r : Row} :
    t.selects (some c) r = true ↔ t.IsTrue c r := by
  rw [selects, Option.all_some, beq_iff_eq, IsTrue]

theorem evaluateAll_eq_map (t : Table) (r : Row) (cs : List Condition) :
    t.evaluateAll r cs = cs.map (t.evaluate r) := by
  induction cs with
  | nil => rfl
  | cons c cs ih => rw [evaluateAll, List.map_cons, ih]

theorem isTrue_of_and {children : List Condition} {r : Row}
    (h : t.IsTrue (.group .and children) r) : ∀ c ∈ children, t.IsTrue c r := by
  rw [IsTrue, evaluate, evaluateAll_eq_map] at h
  induction children with
  | nil => exact List.forall_mem_nil _
  | cons c children ih =>
    rw [List.map_cons, Truth.all_cons] at h
    have hboth : t.evaluate r c = some true ∧
        Truth.all (children.map (t.evaluate r)) = some true := by
      -- A conjunction is true of one pair of truths only.
      generalize t.evaluate r c = a at h
      generalize Truth.all (children.map (t.evaluate r)) = b at h
      rcases a with _ | _ | _ <;> rcases b with _ | _ | _ <;> cases h
      exact ⟨rfl, rfl⟩
    exact List.forall_mem_cons.2 ⟨hboth.1, ih hboth.2⟩

theorem isTrue_of_or {children : List Condition} {r : Row}
    (h : t.IsTrue (.group .or children) r) : ∃ c ∈ children, t.IsTrue c r := by
  rw [IsTrue, evaluate, evaluateAll_eq_map] at h
  induction children with
  | nil => cases h
  | cons c children ih =>
    rw [List.map_cons, Truth.any_cons] at h
    have hone : t.evaluate r c = some true ∨
        Truth.any (children.map (t.evaluate r)) = some true := by
      generalize t.evaluate r c = a at h ⊢
      generalize Truth.any (children.map (t.evaluate r)) = b at h ⊢
      rcases a with _ | _ | _ <;> rcases b with _ | _ | _ <;> cases h <;> simp
    rcases hone with hc | hrest
    · exact ⟨c, List.mem_cons_self, hc⟩
    · obtain ⟨d, hd, htrue⟩ := ih hrest
      exact ⟨d, List.mem_cons_of_mem _ hd, htrue⟩

/-! ## Ways -/

/-- The way to a condition, with the rows it keeps. -/
def way (t : Table) (byKey : List Row) (c : Condition) : Option Lookup :=
  (t.lookup byKey c).map fun found =>
    { found with rows := found.rows.filter (t.selects (some c)) }

theorem lookups_eq_map (cs : List Condition) : t.lookups byKey cs = cs.map (t.way byKey) := by
  induction cs with
  | nil => rfl
  | cons c cs ih => rw [lookups, List.map_cons, ih, way]

theorem way_leadsTo {c : Condition} {one : Lookup}
    (hc : ∀ found, t.lookup byKey c = some found → found.LeadsTo byKey (t.IsTrue c))
    (h : t.way byKey c = some one) : one.LeadsTo byKey (t.IsTrue c) := by
  obtain ⟨found, hfound, rfl⟩ := Option.map_eq_some_iff.1 h
  have hleads := hc found hfound
  exact {
    nodup := hleads.nodup.filter _
    subset := fun r hr => hleads.subset r (List.mem_filter.1 hr).1
    complete := fun r hr htrue =>
      List.mem_filter.2 ⟨hleads.complete r hr htrue, selects_some.2 htrue⟩ }

mutual

/-- Every way by the key leads to the rows of its condition. -/
theorem lookup_leadsTo (hkey : byKey.Nodup) : ∀ {c : Condition} {found : Lookup},
    t.lookup byKey c = some found → found.LeadsTo byKey (t.IsTrue c)
  | .group .and children, found, h => by
    rw [lookup, lookups_eq_map] at h
    obtain ⟨one, hone, hrows⟩ := Lookup.ofAll_eq_some h
    obtain ⟨c, hc, hway⟩ := List.mem_map.1 hone
    have hleads := way_leadsTo (lookups_leadTo hkey c hc) hway
    exact Lookup.leadsTo_of_rows (hleads.mono fun r hr => isTrue_of_and hr c hc) hrows
  | .group .or children, found, h => by
    rw [lookup, lookups_eq_map] at h
    obtain ⟨each, heach, hrows⟩ := Lookup.ofAny_eq_some h
    obtain ⟨hleft, hright⟩ := Lookup.mapM_eq_some heach
    -- Every alternative has a way of its own: one without any would have left the whole without.
    have hone : ∀ c ∈ children, ∃ one ∈ each, one.LeadsTo byKey (t.IsTrue c) := by
      intro c hc
      obtain ⟨one, hmem, hway⟩ := hleft _ (List.mem_map.2 ⟨c, hc, rfl⟩)
      exact ⟨one, hmem, way_leadsTo (lookups_leadTo hkey c hc) hway⟩
    have hsubset : ∀ one ∈ each, ∀ r ∈ one.rows, r ∈ byKey := by
      intro one hmem
      obtain ⟨way, hway, heq⟩ := hright one hmem
      obtain ⟨c, hc, rfl⟩ := List.mem_map.1 hway
      exact (way_leadsTo (lookups_leadTo hkey c hc) heq).subset
    have hcomplete : ∀ r ∈ byKey, t.IsTrue (.group .or children) r →
        r ∈ (each.flatMap Lookup.rows).eraseDups := by
      intro r hr htrue
      obtain ⟨c, hc, hctrue⟩ := isTrue_of_or htrue
      obtain ⟨one, hmem, hleads⟩ := hone c hc
      exact List.mem_eraseDups.2 (List.mem_flatMap.2 ⟨one, hmem, hleads.complete r hr hctrue⟩)
    -- Equal keys come in the order of the key, other rows as the alternatives follow.
    rcases hrows with hrows | hrows
    · exact {
        nodup := hrows ▸ hkey.filter _
        subset := fun r hr => (List.mem_filter.1 (hrows ▸ hr)).1
        complete := fun r hr htrue =>
          hrows ▸ List.mem_filter.2 ⟨hr, List.contains_iff_mem.2 (hcomplete r hr htrue)⟩ }
    · refine { nodup := hrows ▸ nodup_eraseDups _, subset := fun r hr => ?_, complete := ?_ }
      · rw [hrows, List.mem_eraseDups, List.mem_flatMap] at hr
        obtain ⟨one, hmem, hr⟩ := hr
        exact hsubset one hmem r hr
      · rw [hrows]
        exact hcomplete
  | .group .not children, found, h => nomatch h
  | .truth b, found, h => nomatch h
  | .isNull column, found, h => by
    rw [lookup] at h
    split at h
    · cases h
      exact Lookup.leadsTo_all hkey _ _ _ _
    · cases h
  | .isNotNull column, found, h => nomatch h
  | .compare column rel v, found, h => by
    unfold lookup at h
    split at h
    · cases rel <;> cases h <;> exact Lookup.leadsTo_all hkey _ _ _ _
    · cases h
  | .compareColumns column rel other, found, h => nomatch h
  | .like column pattern, found, h => nomatch h
  | .member column negated values, found, h => by
    cases negated with
    | true => cases h
    | false =>
      rw [lookup] at h
      split at h
      · cases h
        exact Lookup.leadsTo_all hkey _ _ _ _
      · cases h

theorem lookups_leadTo (hkey : byKey.Nodup) : ∀ {cs : List Condition}, ∀ c ∈ cs,
    ∀ found, t.lookup byKey c = some found → found.LeadsTo byKey (t.IsTrue c)
  | _ :: _ => List.forall_mem_cons.2
    ⟨fun _ h => lookup_leadsTo hkey h, lookups_leadTo hkey⟩
  | [] => nofun

end

/-! ## Visiting -/

theorem perm_rowsByKey (t : Table) : t.rowsByKey.Perm t.rows := List.mergeSort_perm _ _

/-- The rows that are visited are those the condition is true for, each once. -/
theorem visit_perm {t : Table} (h : t.rows.Nodup) (condition : Option Condition)
    (order : List (String × Direction)) :
    (t.visit condition order).Perm (t.rows.filter (t.selects condition)) := by
  have hperm := t.perm_rowsByKey
  have hkey : t.rowsByKey.Nodup := hperm.symm.nodup h
  rw [visit]
  split
  · exact hperm.filter _
  · exact (t.rowsByKey.reverse_perm.trans hperm).filter _
  · cases hfound : condition.bind (t.lookup t.rowsByKey) with
    | none => exact .refl _
    | some found =>
      obtain ⟨c, rfl, hlookup⟩ := Option.bind_eq_some_iff.1 hfound
      have hleads := lookup_leadsTo hkey hlookup
      -- Neither list has a row twice, so having the same rows is enough.
      show (found.rows.filter _).Perm _
      refine (List.perm_ext_iff_of_nodup (hleads.nodup.filter _) (h.filter _)).2 fun r => ?_
      rw [List.mem_filter, List.mem_filter, selects_some]
      constructor
      · rintro ⟨hr, htrue⟩
        exact ⟨hperm.mem_iff.1 (hleads.subset r hr), htrue⟩
      · rintro ⟨hr, htrue⟩
        exact ⟨hleads.complete r (hperm.mem_iff.2 hr) htrue, htrue⟩

end Table

end ModelMapper.Sqlite
