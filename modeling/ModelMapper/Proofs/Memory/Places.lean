import Mathlib.Data.Fintype.Basic
import Mathlib.Data.List.NodupEquivFin
import Mathlib.Order.Fin.Basic
import ModelMapper.Proofs.Document.SortOrder
import ModelMapper.Proofs.Memory.Sorting

/-! # The places of documents

Where the sort columns hold nulls and values of one kind each, the matching documents have places
in the order of a search, and its answer is what stands in the window.

* `Doc.Kind`, `Doc.Before` — the kinds of values that are in order, and their order.
* `Document.Precedes` — the order of documents by sort columns; `Documents.compareBy_eq_lt`.
* `Documents.Placed` — each document has its place, and those that are level have theirs in the
  order in which they were inserted. There is only one way to place them (`Placed.unique`).
* `Documents.find_placed` — an answer holds the documents with the places in the window.
-/

namespace ModelMapper

/-! ## Values -/

namespace Doc

/-- The kinds of values that are in a natural order. -/
inductive Kind where
  | bool
  | int
  | float
  | text

/-- A value is null or of a kind. -/
inductive Kind.Has : Kind → Doc → Prop where
  | null {k : Kind} : Has k .null
  | bool {b : Bool} : Has .bool (.bool b)
  | int {n : Int} (h : fitsInt64 n = true) : Has .int (.int n)
  | float {x : Binary64} (h : x.isFinite = true) : Has .float (.float x)
  | text {s : String} : Has .text (.text s)

/-- The natural order of values, with null before all others. -/
inductive Before : Doc → Doc → Prop where
  | null {d : Doc} (h : d ≠ .null) : Before .null d
  | bool : Before (.bool false) (.bool true)
  | int {m n : Int} (h : m < n) : Before (.int m) (.int n)
  | float {x y : Binary64} (h : x.scaled < y.scaled) : Before (.float x) (.float y)
  | text {s t : String} (h : s < t) : Before (.text s) (.text t)

variable {k : Kind} {a b c : Doc}

theorem Kind.Has.finite (h : k.Has a) : a.Finite := by
  cases h with
  | float hx => exact hx
  | null | bool | int | text => trivial

theorem asInt64?_of_fits {n : Int} (h : fitsInt64 n = true) :
    ∃ m : Int64, (Doc.int n).asInt64? = some m ∧ m.toInt = n := by
  obtain ⟨m, hm⟩ : ∃ m, (Doc.int n).asInt64? = some m := ⟨_, if_pos h⟩
  exact ⟨m, hm, (Doc.int.inj (asInt64?_eq_some hm)).symm⟩

theorem sortOrder_eq_lt (ha : k.Has a) (hb : k.Has b) : sortOrder a b = .lt ↔ Before a b := by
  cases ha with
  | null =>
    cases hb with
    | null =>
      constructor <;> intro h <;> cases h
      next h => exact absurd rfl h
    | bool | int | float | text => exact ⟨fun _ => .null (fun h => by cases h), fun _ => rfl⟩
  | @bool x =>
    cases hb with
    | null => constructor <;> intro h <;> cases h
    | @bool y =>
      cases x <;> cases y
      case false.true => exact ⟨fun _ => .bool, fun _ => rfl⟩
      all_goals constructor <;> intro h <;> cases h
  | @int m hm =>
    cases hb with
    | null => constructor <;> intro h <;> cases h
    | @int n hn =>
      obtain ⟨i, hi, rfl⟩ := asInt64?_of_fits hm
      obtain ⟨j, hj, rfl⟩ := asInt64?_of_fits hn
      show (compareNumbers? _ _).getD .eq = .lt ↔ _
      rw [compareNumbers?, hi, hj]
      refine compare_lt_iff_lt.trans ⟨.int, fun h => ?_⟩
      cases h with | int h => exact h
  | @float x hx =>
    cases hb with
    | null => constructor <;> intro h <;> cases h
    | @float y hy =>
      show (x.compare? y).getD .eq = .lt ↔ _
      rw [Binary64.compare?_of_isFinite hx hy]
      refine compare_lt_iff_lt.trans ⟨.float, fun h => ?_⟩
      cases h with | float h => exact h
  | @text s =>
    cases hb with
    | null => constructor <;> intro h <;> cases h
    | @text t =>
      refine (compareOfLessAndEq_eq_lt : compare s t = .lt ↔ s < t).trans ⟨.text, fun h => ?_⟩
      cases h with | text h => exact h

/-- Values of one kind are never blurred, so they are in order. -/
theorem sortOrder_isLE_trans (ha : k.Has a) (hb : k.Has b) (hc : k.Has c)
    (hab : (sortOrder a b).isLE) (hbc : (sortOrder b c).isLE) : (sortOrder a c).isLE := by
  rw [← Ordering.ne_gt_iff_isLE] at hab hbc ⊢
  rw [sortOrder_trans_iff ha.finite hb.finite hc.finite hab hbc]
  rintro ⟨⟨m, n, hm, -, -⟩, hnumber, hinexact, -, -⟩
  cases asInt64?_eq_some hm
  cases ha
  cases hb with
  | null => exact absurd hnumber Bool.false_ne_true
  | int hfits =>
    obtain ⟨i, hi, -⟩ := asInt64?_of_fits hfits
    exact absurd (hi.symm.trans hinexact) nofun

end Doc

/-! ## Documents -/

/-- A document comes before another one by the first sort column in which their values are not
    level, by a descending one if the other value comes first. -/
inductive Document.Precedes : List (String × Int) → Document → Document → Prop where
  | ascending {column : String} {sign : Int} {rest : List (String × Int)} {a b : Document}
      (hsign : 0 ≤ sign) (h : (a.column column).Before (b.column column)) :
    Precedes ((column, sign) :: rest) a b
  | descending {column : String} {sign : Int} {rest : List (String × Int)} {a b : Document}
      (hsign : sign < 0) (h : (b.column column).Before (a.column column)) :
    Precedes ((column, sign) :: rest) a b
  | later {column : String} {sign : Int} {rest : List (String × Int)} {a b : Document}
      (hab : ¬(a.column column).Before (b.column column))
      (hba : ¬(b.column column).Before (a.column column)) (h : Precedes rest a b) :
    Precedes ((column, sign) :: rest) a b

namespace Documents

/-- Each sort column holds nulls and values of one kind. -/
def Sortable (sort : List (String × Int)) (documents : Documents) : Prop :=
  ∀ e ∈ sort, ∃ k : Doc.Kind, ∀ d ∈ documents, k.Has (d.column e.1)

/-- Where each document of a list has its place: before those it precedes and, among documents
    that are level, before those that come later in the list. -/
def Placed (sort : List (String × Int)) (found : List Document)
    (place : Equiv.Perm (Fin found.length)) : Prop :=
  ∀ i j, place i < place j ↔ Document.Precedes sort found[i] found[j] ∨
    ¬Document.Precedes sort found[j] found[i] ∧ i < j

variable {sort : List (String × Int)} {found : List Document}

theorem Placed.unique {place place' : Equiv.Perm (Fin found.length)} (h : Placed sort found place)
    (h' : Placed sort found place') : place = place' := by
  have hle : ∀ i j, place' (place.symm i) ≤ place' (place.symm j) ↔ i ≤ j := by
    intro i j
    rw [← not_lt, ← not_lt, h', ← h, Equiv.apply_symm_apply, Equiv.apply_symm_apply]
  have hsame := Subsingleton.elim (⟨place.symm.trans place', hle _ _⟩ : Fin found.length ≃o _)
    (OrderIso.refl _)
  refine Equiv.ext fun i => ?_
  have hi := congrArg (fun e => e (place i)) hsame
  exact (hi.symm.trans (congrArg place' (place.symm_apply_apply i)))

theorem transCmp_compareBy (h : Sortable sort found) :
    Std.TransCmp fun a b : {d : Document // d ∈ found} => compareBy sort a.1 b.1 := by
  induction sort with
  | nil => exact { eq_swap := rfl, isLE_trans := fun _ _ => rfl }
  | cons e rest ih =>
    obtain ⟨column, sign⟩ := e
    obtain ⟨⟨k, hk⟩, hrest⟩ := List.forall_mem_cons.1 h
    have := ih hrest
    have horder : Std.TransCmp fun a b : {d : Document // d ∈ found} =>
        (a.1.column column).sortOrder (b.1.column column) :=
      { eq_swap := Std.OrientedCmp.eq_swap
        isLE_trans := fun {a b c} =>
          Doc.sortOrder_isLE_trans (hk _ a.2) (hk _ b.2) (hk _ c.2) }
    let direction : Direction := if sign < 0 then .descending else .ascending
    have := Direction.transCmp_orient (fun a b : {d : Document // d ∈ found} =>
      (a.1.column column).sortOrder (b.1.column column)) direction
    have hlex : (fun a b : {d : Document // d ∈ found} =>
        compareBy ((column, sign) :: rest) a.1 b.1) = compareLex
          (fun a b => direction.orient ((a.1.column column).sortOrder (b.1.column column)))
          fun a b => compareBy rest a.1 b.1 := by
      funext a b
      rw [compareBy]
      show _ = (Direction.orient (if sign < 0 then .descending else .ascending) _).then _
      split <;> rfl
    rw [hlex]
    infer_instance

/-- The comparison by sort columns is the order of documents. -/
theorem compareBy_eq_lt (h : Sortable sort found) {a b : Document} (ha : a ∈ found)
    (hb : b ∈ found) : compareBy sort a b = .lt ↔ Document.Precedes sort a b := by
  induction sort with
  | nil => constructor <;> intro h <;> cases h
  | cons e rest ih =>
    obtain ⟨column, sign⟩ := e
    obtain ⟨⟨k, hk⟩, hrest⟩ := List.forall_mem_cons.1 h
    have hab : (a.column column).sortOrder (b.column column) = .lt ↔ _ :=
      Doc.sortOrder_eq_lt (hk a ha) (hk b hb)
    have hba : (a.column column).sortOrder (b.column column) = .gt ↔ _ :=
      Std.OrientedCmp.gt_iff_lt.trans (Doc.sortOrder_eq_lt (hk b hb) (hk a ha))
    rw [compareBy, Ordering.then_eq_lt, ih hrest]
    generalize (a.column column).sortOrder (b.column column) = order at hab hba
    constructor
    · rintro (hfirst | ⟨hlevel, hlater⟩)
      · split at hfirst
        · next hsign => exact .descending hsign (hba.1 (Ordering.swap_eq_lt.1 hfirst))
        · next hsign => exact .ascending (not_lt.1 hsign) (hab.1 hfirst)
      · have hlevel : order = .eq := by
          split at hlevel
          · exact Ordering.swap_eq_eq.1 hlevel
          · exact hlevel
        rw [hlevel] at hab hba
        exact .later (fun h => by cases hab.2 h) (fun h => by cases hba.2 h) hlater
    · intro hprecedes
      cases hprecedes with
      | ascending hsign h =>
        rw [if_neg (not_lt.2 hsign)]
        exact .inl (hab.2 h)
      | descending hsign h =>
        rw [if_pos hsign]
        exact .inl (Ordering.swap_eq_lt.2 (hba.2 h))
      | later hnab hnba hlater =>
        refine .inr ⟨?_, hlater⟩
        cases order with
        | lt => exact absurd (hab.1 rfl) hnab
        | gt => exact absurd (hba.1 rfl) hnba
        | eq => split <;> rfl

/-- Positions in a list that holds each number once. -/
theorem exists_positions {n : Nat} {order : List (Fin n)} (h : order.Perm (List.finRange n)) :
    ∃ place : Equiv.Perm (Fin n), ∀ i k, order[k]? = some i ↔ (place i : Nat) = k := by
  have hnodup : order.Nodup := h.nodup_iff.2 (List.nodup_finRange n)
  have hmem : ∀ i, i ∈ order := fun i => h.mem_iff.2 (List.mem_finRange i)
  have hlength : order.length = n := h.length_eq.trans List.length_finRange
  refine ⟨(hnodup.getEquivOfForallMemList order hmem).symm.trans (finCongr hlength), fun i k => ?_⟩
  show _ ↔ order.idxOf i = k
  rw [List.getElem?_eq_some_iff]
  constructor
  · rintro ⟨hk, rfl⟩
    exact hnodup.idxOf_getElem k hk
  · rintro rfl
    exact ⟨List.idxOf_lt_length_iff.2 (hmem i), List.getElem_idxOf _⟩

/-- Numbers in a list without a repetition are in the order of their positions. -/
theorem position_lt_iff {n : Nat} {cmp : Fin n → Fin n → Ordering} [Std.OrientedCmp cmp]
    {order : List (Fin n)} (h : order.Pairwise fun i j => cmp i j = .lt)
    {place : Equiv.Perm (Fin n)} (hplace : ∀ i k, order[k]? = some i ↔ (place i : Nat) = k)
    (i j : Fin n) : place i < place j ↔ cmp i j = .lt := by
  have hbefore : ∀ i j, place i < place j → cmp i j = .lt := by
    intro i j hij
    obtain ⟨hi, hgeti⟩ := List.getElem?_eq_some_iff.1 ((hplace i _).2 rfl)
    obtain ⟨hj, hgetj⟩ := List.getElem?_eq_some_iff.1 ((hplace j _).2 rfl)
    have hlt := List.pairwise_iff_getElem.1 h _ _ hi hj hij
    rwa [hgeti, hgetj] at hlt
  refine ⟨hbefore i j, fun hlt => ?_⟩
  rcases lt_trichotomy (place i) (place j) with hplaces | hplaces | hplaces
  · exact hplaces
  · cases place.injective hplaces
    have hself : cmp i i = .eq := Std.ReflCmp.compare_self
    exact absurd (hself.symm.trans hlt) nofun
  · exact absurd (hbefore j i hplaces) (Std.OrientedCmp.not_lt_of_lt hlt)

/-- The documents of a sorted list stand in their places. -/
theorem exists_placed (h : Sortable sort found) :
    ∃ place, Placed sort found place ∧ ∀ k d,
      (sorted (fun a b => compareBy sort a b == .lt) found)[k]? = some d ↔
        ∃ i, (place i : Nat) = k ∧ d = found[i] := by
  -- The places are sorted in the place of the documents.
  have := transCmp_compareBy h
  let document (i : Fin found.length) : {d : Document // d ∈ found} :=
    ⟨found[i], List.getElem_mem i.2⟩
  have := transCmp_comap (fun a b : {d : Document // d ∈ found} => compareBy sort a.1 b.1) document
  let cmp (i j : Fin found.length) : Ordering := compareBy sort (document i).1 (document j).1
  let order := sorted (fun i j => cmp i j == .lt) (List.finRange found.length)
  have hperm : order.Perm (List.finRange found.length) := sorted_perm _ _
  have hordered : order.Pairwise fun i j => compareLex cmp compare i j = .lt := by
    refine pairwise_sorted_of ((List.pairwise_lt_finRange _).imp fun {i j} hij => ?_)
      fun _ _ _ _ _ _ => Std.TransCmp.lt_trans
    show if cmp j i == .lt then (cmp j i).then (compare j i) = .lt
      else (cmp i j).then (compare i j) = .lt
    split
    · next hbefore => rw [eq_of_beq hbefore, Ordering.lt_then]
    · next hbefore =>
      rw [Ordering.then_eq_lt, compare_lt_iff_lt]
      cases hcmp : cmp i j with
      | lt => exact .inl rfl
      | eq => exact .inr ⟨rfl, hij⟩
      | gt => exact absurd (beq_iff_eq.2 (Std.OrientedCmp.lt_of_gt hcmp)) hbefore
  have hrows : order.map (found[·]) = sorted (fun a b => compareBy sort a b == .lt) found := by
    have hfound : List.Forall₂ (fun i d => found[i] = d) (List.finRange found.length) found :=
      List.forall₂_iff_get.2 ⟨List.length_finRange, fun i _ _ => by simp⟩
    rw [← List.forall₂_eq_eq_eq, List.forall₂_map_left_iff]
    exact rel_sorted (fun i j x y hx hy => hx ▸ hy ▸ rfl) hfound
  obtain ⟨place, hplace⟩ := exists_positions hperm
  refine ⟨place, fun i j => ?_, fun k d => ?_⟩
  · have hswap : cmp j i = (cmp i j).swap := Std.OrientedCmp.eq_swap
    rw [position_lt_iff hordered hplace, ← compareBy_eq_lt h (document i).2 (document j).2,
      ← compareBy_eq_lt h (document j).2 (document i).2]
    show (cmp i j).then (compare i j) = .lt ↔ cmp i j = .lt ∨ ¬cmp j i = .lt ∧ i < j
    rw [Ordering.then_eq_lt, compare_lt_iff_lt, hswap]
    cases cmp i j <;> simp
  · rw [← hrows, List.getElem?_map, Option.map_eq_some_iff]
    simp only [hplace, eq_comm]

/-- Where the filter is decided on every document and each sort column holds, in the documents
    that match, nulls and values of one kind, these documents have places in the order, and an
    answer holds those with the places in the window. -/
theorem find_placed {f : Find} {documents : Documents} {holds : Document → Bool}
    (hholds : ∀ d ∈ documents, d.satisfies f.filter = .ok (holds d))
    (hsort : Sortable f.sort (documents.filter holds)) :
    ∃ place, Placed f.sort (documents.filter holds) place ∧
      (∀ place', Placed f.sort (documents.filter holds) place' → place' = place) ∧
      ∃ rows, find f documents = .ok rows ∧ ∀ (k : Nat) (row : Document), rows[k]? = some row ↔
        (∀ l ∈ f.limit, k < l) ∧
          ∃ i, (place i : Nat) = f.skip + k ∧ row = (documents.filter holds)[i] := by
  obtain ⟨place, hplace, hrows⟩ := exists_placed hsort
  refine ⟨place, hplace, fun _ h => h.unique hplace, _,
    congrArg _ (matching_of_satisfies hholds), fun k row => ?_⟩
  rw [Window.getElem?_slice, hrows]

/-- The second and the third of four items by a descending column: the two that are level, as they
    were inserted. -/
theorem find_placed_of_items :
    let items : Documents := [[("id", .int 1), ("x", .int 5)], [("id", .int 2)],
      [("id", .int 3), ("x", .int 7)], [("id", .int 4), ("x", .int 5)]]
    let f : Find := ⟨"Item", .object [], [("x", -1)], 1, some 2⟩
    (∀ d ∈ items, d.satisfies f.filter = .ok true) ∧
      Sortable f.sort (items.filter fun _ => true) ∧
      ∃ place, Placed f.sort (items.filter fun _ => true) place ∧
        ∃ rows, find f items = .ok rows ∧
          rows.map (fun d => (d.column "id").asInt64?) = [some 1, some 4] ∧
          ∀ (k : Nat) (row : Document), rows[k]? = some row ↔ (∀ l ∈ f.limit, k < l) ∧
            ∃ i, (place i : Nat) = f.skip + k ∧ row = (items.filter fun _ => true)[i] := by
  intro items f
  have hholds : ∀ d ∈ items, d.satisfies f.filter = .ok true := fun _ _ => rfl
  have hsort : Sortable f.sort (items.filter fun _ => true) := by
    intro e he
    cases List.mem_singleton.1 he
    refine ⟨.int, fun d hd => ?_⟩
    have hd : d ∈ items := List.mem_of_mem_filter hd
    simp only [items, List.mem_cons, List.not_mem_nil, or_false] at hd
    rcases hd with rfl | rfl | rfl | rfl
    · exact .int rfl
    · exact .null
    · exact .int rfl
    · exact .int rfl
  obtain ⟨place, hplace, -, rows, hrows, hwindow⟩ := find_placed hholds hsort
  refine ⟨hholds, hsort, place, hplace, rows, hrows, ?_, hwindow⟩
  have hfound : (find f items).toOption.map
      (fun rows => rows.map fun d => (d.column "id").asInt64?) = some [some 1, some 4] := by
    decide +kernel
  rw [hrows] at hfound
  exact Option.some.inj hfound

end Documents

end ModelMapper
