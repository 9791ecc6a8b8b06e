import Mathlib.Tactic.Choose
import ModelMapper.Document.Collection
import ModelMapper.Proofs.Document.Decoding
import ModelMapper.Proofs.Document.Filtering

/-! # Documents found by their key

What a document of well-typed columns holds beside the key that it is found by can be replaced by
the values of a record.

* `FieldType.Holds`, `Schema.WellTyped` — what a column of a type holds; timestamps are kept as
  text.
* `Value.Survives`, `Value.Survives.exists_of_equals` — values that come back from their document,
  and from any that equals it.
* `Record.Whole`, `Record.Agrees` — records of exactly the fields of a model, and their equality.
* `Schema.keyed`, `Schema.countP_keyed` — the documents with the key of a record; of distinct keys
  one has it, if any.
* `Document.Saved`, `Schema.decode_saved` — a document with the other values of a record, and what
  it is read as.
-/

namespace ModelMapper

/-! ## Stored forms -/

/-- The type whose values have the documents of a type: timestamps are kept as text. -/
def FieldType.stored : FieldType → FieldType
  | .timestamp => .text
  | ty => ty

/-- A document for a column of a type: that of null or of a value. -/
def FieldType.Holds (ty : FieldType) (d : Doc) : Prop :=
  ∃ v : Value, v.Fits ty.stored ∧ v.toDoc = d

theorem FieldType.holds_toDoc {ty : FieldType} {v : Value} (h : v.Fits ty) : ty.Holds v.toDoc := by
  cases h with
  | null => exact ⟨.null, .null _, rfl⟩
  | bool b => exact ⟨_, .bool b, rfl⟩
  | int i => exact ⟨_, .int i, rfl⟩
  | float hfinite => exact ⟨_, .float hfinite, rfl⟩
  | text s => exact ⟨_, .text s, rfl⟩
  | bytes b => exact ⟨_, .bytes b, rfl⟩
  | @timestamp t hcivil => exact ⟨_, .text t.toText, rfl⟩

/-- Documents for one column that are equal are equal to the same ones. -/
theorem FieldType.equals_congr {ty : FieldType} {a b c : Doc} (ha : ty.Holds a) (hb : ty.Holds b)
    (hc : ty.Holds c) (h : b.equals c = true) : a.equals b = a.equals c := by
  obtain ⟨u, hu, rfl⟩ := ha
  obtain ⟨v, hv, rfl⟩ := hb
  obtain ⟨w, hw, rfl⟩ := hc
  rw [Value.equals_toDoc hv hw] at h
  rw [Value.equals_toDoc hu hv, Value.equals_toDoc hu hw, Value.agrees_congr hu hv hw h]

namespace Value

variable {ty : FieldType} {v w : Value}

/-- The value is read from its document as it was. -/
def Survives (ty : FieldType) (v : Value) : Prop := ofDoc ty v.toDoc = .ok v

instance (ty : FieldType) (v : Value) : Decidable (v.Survives ty) :=
  decidable_of_iff _ Result.toOption_eq_some

/-- Such a value is one of the type: floats are finite, and a timestamp is one of those that its
    text is read as. -/
theorem Survives.holds (h : v.Survives ty) : ty.Holds v.toDoc := by
  unfold Survives at h
  cases v with
  | null => exact ⟨.null, .null _, rfl⟩
  | bool b =>
    cases ty with
    | bool => exact ⟨.bool b, .bool b, rfl⟩
    | _ => cases h
  | int i =>
    cases ty with
    | int => exact ⟨.int i, .int i, rfl⟩
    | _ => cases h
  | float x =>
    by_cases hx : x.isFinite = true
    · rw [toDoc, if_pos hx] at h ⊢
      cases ty with
      | float => exact ⟨.float x, .float hx, if_pos hx⟩
      | _ => cases h
    · rw [toDoc, if_neg hx] at h
      cases ty <;> cases h
  | text s =>
    cases ty with
    | text | timestamp => exact ⟨.text s, .text s, rfl⟩
    | _ => cases h
  | bytes b =>
    cases ty with
    | bytes => exact ⟨.bytes b, .bytes b, rfl⟩
    | _ => cases h
  | timestamp t =>
    cases ty with
    | timestamp => exact ⟨.text t.toText, .text _, rfl⟩
    | _ => cases h

/-- Such a value equals itself: it is not a float without a document. -/
theorem Survives.agrees_self (h : v.Survives ty) : v.agrees v = true := by
  cases v with
  | float x =>
    by_cases hx : x.isFinite = true
    · show x.equals x = true
      rw [Binary64.equals, Binary64.compare?_of_isFinite hx hx, Std.compare_self]
      rfl
    · unfold Survives at h
      rw [toDoc, if_neg hx] at h
      cases ty <;> cases h
  | _ => exact beq_self_eq_true _

/-- From a document that equals that of a value an equal value is read. -/
theorem Survives.exists_of_equals (hv : v.Survives ty) {d : Doc} (hd : ty.Holds d)
    (h : d.equals v.toDoc = true) : ∃ u, ofDoc ty d = .ok u ∧ u.agrees v = true := by
  obtain ⟨u, hu, rfl⟩ := hd
  obtain ⟨w, hw, hdoc⟩ := hv.holds
  rw [← hdoc, equals_toDoc hu hw] at h
  by_cases hty : ty = .timestamp
  · -- Texts that are equal are the same.
    subst hty
    have hsame : u = w := by
      cases hu <;> cases hw <;> exact eq_of_beq h
    rw [hsame, hdoc]
    exact ⟨v, hv, hv.agrees_self⟩
  · -- The two documents are those of values of the type.
    have hstored : ty.stored = ty := by
      cases ty <;> first | rfl | exact absurd rfl hty
    rw [hstored] at hu hw
    have hsame : v = w := by
      unfold Survives at hv
      rw [← hdoc, ofDoc_toDoc hw] at hv
      exact (Except.ok.inj hv).symm
    exact ⟨u, ofDoc_toDoc hu, hsame ▸ h⟩

end Value

/-! ## Records -/

namespace Record

variable {s : Schema} {r : Record}

/-- A value for every field of the model and no other, which comes back from its document, and no
    null for a key. -/
structure Whole (s : Schema) (r : Record) : Prop where
  known : ∀ e ∈ r.toList, (s.field? e.1).isSome = true
  named : ∀ f ∈ s.fields, r.contains f.name = true
  survives : ∀ f ∈ s.fields, (r.value f.name).Survives f.type
  keys : ∀ f ∈ s.keyFields, (r.value f.name).isNull = false

instance (s : Schema) (r : Record) : Decidable (r.Whole s) :=
  decidable_of_iff
    ((∀ e ∈ r.toList, (s.field? e.1).isSome = true) ∧
      (∀ f ∈ s.fields, r.contains f.name = true) ∧
      (∀ f ∈ s.fields, (r.value f.name).Survives f.type) ∧
      ∀ f ∈ s.keyFields, (r.value f.name).isNull = false)
    ⟨fun h => ⟨h.1, h.2.1, h.2.2.1, h.2.2.2⟩, fun h => ⟨h.known, h.named, h.survives, h.keys⟩⟩

theorem Whole.names (h : r.Whole s) (name : String) :
    r.contains name = (s.field? name).isSome := by
  rw [Bool.eq_iff_iff]
  constructor
  · intro hcontains
    obtain ⟨v, hv⟩ := Option.isSome_iff_exists.1 hcontains
    exact h.known (name, v) (Entries.mem_of_get? hv)
  · intro hknown
    obtain ⟨f, hf, rfl⟩ := Schema.isSome_field?_iff.1 hknown
    exact h.named f hf

/-- The same fields with equal values. -/
def Agrees (r r' : Record) : Prop :=
  ∀ name, Option.Rel (fun v w => v.agrees w = true) (r.get? name) (r'.get? name)

end Record

/-! ## Keyed documents -/

/-- Each column holds null or a value of its type. -/
def Schema.WellTyped (s : Schema) (d : Document) : Prop :=
  ∀ f ∈ s.fields, f.type.Holds (d.column f.column)

/-- The columns that are not of the key have the values of the record, all others what they had. -/
structure Document.Saved (s : Schema) (r : Record) (d d' : Document) : Prop where
  written : ∀ f ∈ s.fields, f.isKey = false →
    Entries.get? f.column d' = some (r.value f.name).toDoc
  kept : ∀ column, (∀ f ∈ s.fields, f.isKey = false → f.column ≠ column) →
    Entries.get? column d' = Entries.get? column d

namespace Schema

variable {s : Schema} {r : Record} {d d' : Document} {f g : Field}

/-- What stores a typed record is well-typed. -/
theorem Stores.wellTyped (hd : s.Stores r d) (hr : r.Typed s) : s.WellTyped d := by
  intro f hf
  rw [hd f hf]
  exact FieldType.holds_toDoc (hr.fits f hf)

/-- Whether a document has the key of a record. -/
def keyed (s : Schema) (r : Record) (d : Document) : Bool :=
  s.keyFields.all fun f => (d.column f.column).equals (r.value f.name).toDoc

theorem mem_keyFields_iff : f ∈ s.keyFields ↔ f ∈ s.fields ∧ f.isKey = true := List.mem_filter

theorem keyed_iff : s.keyed r d = true ↔
    ∀ f ∈ s.fields, f.isKey = true → (d.column f.column).equals (r.value f.name).toDoc = true := by
  simp only [keyed, List.all_eq_true, mem_keyFields_iff, and_imp]

/-- Documents with the key of one record have the same key. -/
theorem sameKey_of_keyed (hr : r.Whole s) (hd : s.WellTyped d) (hd' : s.WellTyped d')
    (h : s.keyed r d = true) (h' : s.keyed r d' = true) : Documents.sameKey s d d' = true := by
  refine List.all_eq_true.2 fun f hf => ?_
  obtain ⟨hmem, hkey⟩ := mem_keyFields_iff.1 hf
  rw [FieldType.equals_congr (hd f hmem) (hd' f hmem) (hr.survives f hmem).holds
    (keyed_iff.1 h' f hmem hkey)]
  exact keyed_iff.1 h f hmem hkey

/-- Of documents with distinct keys one has the key, if there is any. -/
theorem countP_keyed (hr : r.Whole s) {documents : Documents}
    (htyped : ∀ d ∈ documents, s.WellTyped d)
    (hdistinct : documents.Pairwise fun a b => Documents.sameKey s a b = false) :
    documents.countP (s.keyed r) = if documents.any (s.keyed r) then 1 else 0 := by
  induction documents with
  | nil => rfl
  | cons d rest ih =>
    obtain ⟨hd, hrest⟩ := List.forall_mem_cons.1 htyped
    obtain ⟨hhead, htail⟩ := List.pairwise_cons.1 hdistinct
    rw [List.countP_cons, List.any_cons]
    cases hkeyed : s.keyed r d with
    | false => exact ih hrest htail
    | true =>
      have hnone : rest.countP (s.keyed r) = 0 := by
        refine List.countP_eq_zero.2 fun e he hkeyed' => ?_
        have hsame := sameKey_of_keyed hr hd (hrest e he) hkeyed hkeyed'
        rw [hhead e he] at hsame
        cases hsame
      rw [hnone]
      rfl

theorem field?_of_mem (hnames : (s.fields.map Field.name).Nodup) (hf : f ∈ s.fields) :
    s.field? f.name = some f := by
  obtain ⟨g, hfound⟩ := Option.isSome_iff_exists.1 (isSome_field?_iff.2 ⟨f, hf, rfl⟩)
  obtain ⟨hg, hname⟩ := mem_of_field? hfound
  rw [hfound, List.inj_on_of_nodup_map hnames hg hf hname]

/-- Saving leaves the key columns as they are. -/
theorem column_saved (hcolumns : (s.fields.map Field.column).Nodup) (hsaved : d.Saved s r d')
    (hf : f ∈ s.fields) (hkey : f.isKey = true) : d'.column f.column = d.column f.column := by
  rw [Document.column, Document.column, hsaved.kept f.column fun g hg hother hcolumn => ?_]
  rw [List.inj_on_of_nodup_map hcolumns hg hf hcolumn, hkey] at hother
  cases hother

theorem keyed_saved (hcolumns : (s.fields.map Field.column).Nodup) (hsaved : d.Saved s r d') :
    s.keyed r d' = s.keyed r d := by
  rw [Bool.eq_iff_iff, keyed_iff, keyed_iff]
  refine forall_congr' fun f => forall_congr' fun hf => forall_congr' fun hkey => ?_
  rw [column_saved hcolumns hsaved hf hkey]

/-- The documents with the key are saved one by one. -/
theorem filter_saved (hcolumns : (s.fields.map Field.column).Nodup) {documents after : Documents}
    (h : List.Forall₂ (fun d d' => if s.keyed r d then d.Saved s r d' else d' = d) documents
      after) :
    List.Forall₂ (Document.Saved s r) (documents.filter (s.keyed r))
      (after.filter (s.keyed r)) := by
  induction h with
  | nil => exact .nil
  | @cons d d' documents after hd _ ih =>
    cases hkeyed : s.keyed r d with
    | true =>
      rw [hkeyed, if_pos rfl] at hd
      rw [List.filter_cons_of_pos hkeyed,
        List.filter_cons_of_pos ((keyed_saved hcolumns hd).trans hkeyed)]
      exact .cons hd ih
    | false =>
      rw [hkeyed, if_neg Bool.false_ne_true] at hd
      rw [hd, List.filter_cons_of_neg (by rw [hkeyed]; exact Bool.false_ne_true),
        List.filter_cons_of_neg (by rw [hkeyed]; exact Bool.false_ne_true)]
      exact ih

/-- What each field of the document is read as. -/
theorem ofDoc_saved (hcolumns : (s.fields.map Field.column).Nodup) (hr : r.Whole s)
    (hd : s.WellTyped d) (hkeyed : s.keyed r d = true) (hsaved : d.Saved s r d')
    (hf : f ∈ s.fields) : ∃ v, Value.ofDoc f.type (d'.column f.column) = .ok v ∧
      v.agrees (r.value f.name) = true := by
  cases hkey : f.isKey with
  | true =>
    rw [column_saved hcolumns hsaved hf hkey]
    exact (hr.survives f hf).exists_of_equals (hd f hf) (keyed_iff.1 hkeyed f hf hkey)
  | false =>
    have hwritten : d'.column f.column = (r.value f.name).toDoc := by
      rw [Document.column, hsaved.written f hf hkey]
      rfl
    rw [hwritten]
    exact ⟨_, hr.survives f hf, (hr.survives f hf).agrees_self⟩

/-- A document with the key of a record and its other values is read as an equal record. -/
theorem decode_saved (hcolumns : (s.fields.map Field.column).Nodup)
    (hnames : (s.fields.map Field.name).Nodup) (hr : r.Whole s) (hd : s.WellTyped d)
    (hkeyed : s.keyed r d = true) (hsaved : d.Saved s r d') :
    ∃ r', s.decode d' = .ok r' ∧ r'.Agrees r := by
  have hread : ∀ name, ∃ v, ∀ f, s.field? name = some f →
      Value.ofDoc f.type (d'.column f.column) = .ok v ∧ v.agrees (r.value name) = true := by
    intro name
    cases hfound : s.field? name with
    | none => exact ⟨.null, nofun⟩
    | some f =>
      obtain ⟨hf, rfl⟩ := mem_of_field? hfound
      obtain ⟨v, hv⟩ := ofDoc_saved hcolumns hr hd hkeyed hsaved hf
      exact ⟨v, fun g hg => Option.some.inj hg ▸ hv⟩
  choose value hvalue using hread
  refine ⟨_, foldlM_set _ Field.name (fun f => value f.name) s.fields
    (fun f hf => (hvalue f.name f (field?_of_mem hnames hf)).1) .empty, fun name => ?_⟩
  rw [get?_foldl_set value]
  -- Both records have exactly the fields of the model.
  have hcontains := hr.names name
  cases hfound : s.field? name with
  | none =>
    have hno : ¬∃ f ∈ s.fields, f.name = name := by
      rw [← isSome_field?_iff, hfound]
      nofun
    rw [hfound, Record.contains, Option.isSome_none, Option.isSome_eq_false_iff,
      Option.isNone_iff_eq_none] at hcontains
    rw [if_neg hno, hcontains]
    exact .none
  | some f =>
    rw [hfound] at hcontains
    obtain ⟨v, hv⟩ := Option.isSome_iff_exists.1 hcontains
    have hagrees := (hvalue name f hfound).2
    rw [Record.value, hv] at hagrees
    rw [if_pos (isSome_field?_iff.1 (hfound ▸ rfl)), hv]
    exact .some hagrees

end Schema

end ModelMapper
