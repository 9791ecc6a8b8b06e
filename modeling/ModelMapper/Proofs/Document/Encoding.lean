import ModelMapper.Document.Codec
import ModelMapper.Proofs.Query.Meaning

/-! # Values in documents

A value and its form in a document are compared alike.

* `Value.isNull_toDoc`, `Value.equals_toDoc`, `Value.compare_toDoc` — null, equality and
  order; `Value.agrees_congr` — values that agree agree with the same ones.
* `Entries.get?_ofList` — a column of a document that is made column by column.
* `Schema.encode_eq_ok`, `Schema.stores_encode` — a typed record is encoded, each field in its
  column.
-/

namespace ModelMapper

/-! ## Whole numbers -/

theorem fitsInt64_toInt (i : Int64) : fitsInt64 i.toInt = true := by
  have hlow := i.le_toInt
  have hhigh := i.toInt_lt
  rw [fitsInt64, minInt64, maxInt64, Bool.and_eq_true]
  exact ⟨decide_eq_true (by omega), decide_eq_true (by omega)⟩

theorem Doc.asInt64_toInt (i : Int64) : (Doc.int i.toInt).asInt64? = some i := by
  rw [Doc.asInt64?, if_pos (fitsInt64_toInt i), Int64.ofInt_toInt]

/-! ## Floats -/

namespace Binary64

theorem isNaN_of_isFinite {x : Binary64} (h : x.isFinite = true) : x.isNaN = false := by
  rw [isFinite, bne_iff_ne] at h
  rw [isNaN, beq_false_of_ne h, Bool.false_and]

theorem compare?_of_isFinite {x y : Binary64} (hx : x.isFinite = true) (hy : y.isFinite = true) :
    x.compare? y = some (Ord.compare x.scaled y.scaled) := by
  rw [compare?, isNaN_of_isFinite hx, isNaN_of_isFinite hy]
  rfl

end Binary64

/-! ## Values -/

namespace Value

theorem isNull_toDoc {ty : FieldType} {v : Value} (h : v.Fits ty) :
    Document.isNull v.toDoc = v.isNull := by
  cases h with
  | float hfinite =>
    rw [toDoc, if_pos hfinite]
    rfl
  | _ => rfl

theorem compare_int (i j : Int64) :
    (Doc.int i.toInt).compareNumbers? (Doc.int j.toInt) =
      some (Ord.compare i.toInt j.toInt) := by
  simp only [Doc.compareNumbers?, Doc.asInt64_toInt]

theorem sameItems_bytes (a b : List UInt8) :
    Doc.sameItems (a.map fun byte => Doc.int byte.toNat) (b.map fun byte => Doc.int byte.toNat) =
      (a == b) := by
  induction a generalizing b with
  | nil => cases b <;> rfl
  | cons x a ih =>
    cases b with
    | nil => rfl
    | cons y b =>
      have hbyte : ((x.toNat : Int) == (y.toNat : Int)) = (x == y) := by
        rw [Bool.eq_iff_iff, beq_iff_eq, beq_iff_eq, Int.natCast_inj, UInt8.toNat_inj]
      rw [List.map_cons, List.map_cons, Doc.sameItems, Doc.same, ih, hbyte]
      rfl

/-- Values of one type are equal when their documents are. -/
theorem equals_toDoc {ty : FieldType} {v w : Value} (hv : v.Fits ty) (hw : w.Fits ty) :
    v.toDoc.equals w.toDoc = v.agrees w := by
  cases hv <;> cases hw
  case int.int i j =>
    show ((Doc.int i.toInt).compareNumbers? (Doc.int j.toInt) == some .eq) = (Value.int i == .int j)
    rw [compare_int, Bool.eq_iff_iff]
    simp [Int64.toInt_inj]
  case float.float x hx y hy =>
    rw [toDoc, toDoc, if_pos hx, if_pos hy]
    rfl
  case bytes.bytes a b =>
    show Doc.sameItems _ _ = (Value.bytes a == .bytes b)
    rw [sameItems_bytes, Bool.eq_iff_iff]
    simp
  case timestamp.timestamp a ha b hb =>
    show (a.toText == b.toText) = (Value.timestamp a == .timestamp b)
    rw [Bool.eq_iff_iff]
    simp [Timestamp.toText_inj ha hb]
  all_goals simp [toDoc, agrees, Doc.equals, Doc.isNumber, Doc.asFloat?, Doc.same, *]

/-- Values of one type are in the order of their documents; those of bytes have none. -/
theorem compare_toDoc {ty : FieldType} {v w : Value} (hv : v.Fits ty) (hw : w.Fits ty)
    (hty : ty ≠ .bytes) : v.toDoc.compare? w.toDoc = v.order? w := by
  cases hv <;> cases hw
  case int.int i j => exact compare_int i j
  case float.float x hx y hy =>
    rw [toDoc, toDoc, if_pos hx, if_pos hy]
    rfl
  case bytes.bytes => exact absurd rfl hty
  case timestamp.timestamp a ha b hb =>
    show some (Ord.compare a.toText b.toText) = some (a.compare b)
    rw [Timestamp.compare_toText ha hb]
  all_goals simp [toDoc, order?, Doc.compare?, Doc.isNumber, Doc.asFloat?, *]

/-- Agreeing values agree with the same others. -/
theorem agrees_congr {ty : FieldType} {u v w : Value} (hu : u.Fits ty) (hv : v.Fits ty)
    (hw : w.Fits ty) (h : v.agrees w = true) : u.agrees v = u.agrees w := by
  by_cases hsame : v = w
  · rw [hsame]
  cases hv <;> cases hw
  case float.float x hx y hy =>
    have hscaled : x.scaled = y.scaled := by
      change x.equals y = true at h
      rwa [Binary64.equals, Binary64.compare?_of_isFinite hx hy, beq_iff_eq, Option.some_inj,
        Std.compare_eq_iff_eq] at h
    cases hu with
    | null => rfl
    | float hz =>
      show Binary64.equals _ _ = Binary64.equals _ _
      rw [Binary64.equals, Binary64.equals, Binary64.compare?_of_isFinite hz hx,
        Binary64.compare?_of_isFinite hz hy, hscaled]
  all_goals exact absurd (eq_of_beq h) hsame

end Value

/-! ## Columns -/

namespace Entries

variable {α : Type}

theorem get?_foldl_put (pairs entries : List (String × α)) (key : String) :
    get? key (pairs.foldl (fun done (k, v) => put k v done) entries) =
      ((pairs.reverse.find? fun e => e.1 == key).map Prod.snd).or (get? key entries) := by
  induction pairs generalizing entries with
  | nil => rfl
  | cons e pairs ih =>
    rw [List.foldl_cons, ih, get?_put, List.reverse_cons, List.find?_append]
    cases hfound : pairs.reverse.find? fun e => e.1 == key with
    | some found => rfl
    | none =>
      by_cases hkey : key = e.1
      · simp [hkey]
      · simp [hkey, Ne.symm hkey]

/-- With distinct keys every entry is found. -/
theorem get?_ofList {pairs : List (String × α)} (h : (pairs.map Prod.fst).Nodup) {key : String}
    {value : α} (hmem : (key, value) ∈ pairs) : get? key (ofList pairs) = some value := by
  rw [ofList, get?_foldl_put]
  obtain ⟨found, hfound⟩ : ∃ found, pairs.reverse.find? (fun e => e.1 == key) = some found := by
    rw [← Option.isSome_iff_exists, List.find?_isSome]
    exact ⟨(key, value), List.mem_reverse.2 hmem, beq_self_eq_true key⟩
  have hsame : found = (key, value) := by
    have hfoundMem := List.mem_reverse.1 (List.mem_of_find?_eq_some hfound)
    have hkey : found.1 = key := by
      simpa using List.find?_some hfound
    exact List.inj_on_of_nodup_map h hfoundMem hmem hkey
  rw [hfound, hsame]
  rfl

end Entries

namespace Schema

/-- A record of known fields is encoded. -/
theorem encode_eq_ok {s : Schema} {r : Record} (h : ∀ e ∈ r.toList, (s.field? e.1).isSome = true) :
    s.encode r =
      .ok (Entries.ofList (s.fields.map fun f => (f.column, (r.value f.name).toDoc))) := by
  have hunknown : s.unknownField? r = none := by
    rw [unknownField?, List.find?_eq_none]
    intro name hname
    obtain ⟨e, he, rfl⟩ := List.mem_map.1 hname
    rw [Option.isNone_iff_eq_none, ← ne_eq, Option.ne_none_iff_isSome]
    exact h e he
  rw [encode, hunknown]

/-- The document has each field of the record in its column. -/
def Stores (s : Schema) (r : Record) (d : Document) : Prop :=
  ∀ f ∈ s.fields, d.column f.column = (r.value f.name).toDoc

theorem stores_encode {s : Schema} {r : Record} {d : Document}
    (hdistinct : (s.fields.map Field.column).Nodup) (h : s.encode r = .ok d) : s.Stores r d := by
  intro f hf
  rw [encode] at h
  split at h
  · cases h
  · cases h
    have hkeys : ((s.fields.map fun f => (f.column, (r.value f.name).toDoc)).map
        Prod.fst).Nodup := by
      rw [List.map_map]
      exact hdistinct
    rw [Document.column, Entries.get?_ofList hkeys (List.mem_map.2 ⟨f, hf, rfl⟩)]
    rfl

end Schema

end ModelMapper
