import ModelMapper.Proofs.Document.Encoding
import ModelMapper.Proofs.Result
import ModelMapper.Proofs.Time.Reading

/-! # Reading documents back

A document that stores a record is read as that record, with null for the absent fields.

* `Value.ofDoc_toDoc` — one value.
* `Schema.completed` — the record with every field of the model.
* `Schema.decode_stored` — the whole document.
* `Schema.decode_encode` — a typed record there and back.
-/

namespace ModelMapper

namespace Value

theorem asByte_toNat (b : UInt8) : (Doc.int b.toNat).asByte? = some b := by
  have hb := b.toNat_lt
  have hsmall : b.toNat ≤ 255 := by omega
  rw [Doc.asByte?, if_pos ⟨by omega, by exact_mod_cast hsmall⟩, Int.toNat_natCast,
    UInt8.ofNat_toNat]

theorem mapM_asByte (b : List UInt8) :
    (b.map fun byte : UInt8 => Doc.int byte.toNat).mapM Doc.asByte? = some b := by
  induction b with
  | nil => rfl
  | cons x b ih => simp only [List.map_cons, List.mapM_cons, asByte_toNat, ih]; rfl

/-- A value is read from its document as it was. -/
theorem ofDoc_toDoc {ty : FieldType} {v : Value} (h : v.Fits ty) : ofDoc ty v.toDoc = .ok v := by
  cases h with
  | null => cases ty <;> rfl
  | bool b => rfl
  | int i =>
    rw [toDoc, ofDoc, Doc.asInt64_toInt]
  | float hfinite =>
    rw [toDoc, if_pos hfinite]
    rfl
  | text s => rfl
  | bytes b =>
    rw [toDoc, ofDoc, mapM_asByte]
  | timestamp hcivil =>
    rw [toDoc, ofDoc, Timestamp.read_toText hcivil]
    rfl

end Value

/-- An entry that is found is in the list. -/
theorem Entries.mem_of_get? {α : Type} {key : String} {value : α} {entries : List (String × α)}
    (h : get? key entries = some value) : (key, value) ∈ entries := by
  induction entries with
  | nil => cases h
  | cons e entries ih =>
    rw [get?] at h
    split at h
    · next hkey =>
      cases h
      exact hkey ▸ List.mem_cons_self
    · exact List.mem_cons_of_mem _ (ih h)

/-- An entry of a sorted list is found. -/
theorem Entries.get?_of_mem {α : Type} {key : String} {value : α} {entries : List (String × α)}
    (hsorted : Sorted entries) (h : (key, value) ∈ entries) : get? key entries = some value := by
  induction entries with
  | nil => cases h
  | cons e entries ih =>
    obtain ⟨hhead, hrest⟩ := List.pairwise_cons.1 hsorted
    rw [get?]
    rcases List.mem_cons.1 h with rfl | h
    · exact if_pos rfl
    · rw [if_neg fun hkey => ?_, ih hrest h]
      have hlt := hhead _ h
      rw [hkey] at hlt
      exact String.lt_irrefl _ hlt

namespace Schema

/-- The record with every field of the model, the absent ones as null. -/
def completed (s : Schema) (r : Record) : Record :=
  s.fields.foldl (fun done f => done.set f.name (r.value f.name)) .empty

theorem foldlM_set {ρ : Type} (read : ρ → Result Value) (name : ρ → String) (value : ρ → Value)
    (items : List ρ) (h : ∀ a ∈ items, read a = .ok (value a)) (r : Record) :
    (items.foldlM (fun r a => (read a).map fun v => r.set (name a) v) r : Result Record) =
      .ok (items.foldl (fun r a => r.set (name a) (value a)) r) := by
  induction items generalizing r with
  | nil => rfl
  | cons a items ih =>
    obtain ⟨ha, hitems⟩ := List.forall_mem_cons.1 h
    rw [List.foldlM_cons, ha]
    exact ih hitems _

theorem get?_foldl_set (value : String → Value) (fields : List Field) (done : Record)
    (name : String) :
    (fields.foldl (fun done f => done.set f.name (value f.name)) done).get? name =
      if ∃ f ∈ fields, f.name = name then some (value name) else done.get? name := by
  induction fields generalizing done with
  | nil => simp
  | cons f fields ih =>
    rw [List.foldl_cons, ih, Record.get?_set]
    by_cases hrest : ∃ g ∈ fields, g.name = name
    · simp [hrest]
    · by_cases hname : f.name = name
      · simp [hname]
      · simp [hrest, hname, Ne.symm hname]

/-- Completing a record changes no field of the model. -/
theorem value_completed {s : Schema} {f : Field} (hf : f ∈ s.fields) (r : Record) :
    (s.completed r).value f.name = r.value f.name := by
  rw [Record.value, completed, get?_foldl_set r.value, if_pos ⟨f, hf, rfl⟩]
  rfl

/-- A stored record is read as it is. -/
theorem decode_stored {s : Schema} {r : Record} {d : Document} (hr : r.Typed s)
    (hd : s.Stores r d) : s.decode d = .ok (s.completed r) := by
  have hread : ∀ f ∈ s.fields,
      Value.ofDoc f.type (d.column f.column) = .ok (r.value f.name) := by
    intro f hf
    rw [hd f hf]
    exact Value.ofDoc_toDoc (hr.fits f hf)
  exact foldlM_set _ Field.name (fun f => r.value f.name) s.fields hread .empty

theorem isSome_field?_iff {s : Schema} {name : String} :
    (s.field? name).isSome = true ↔ ∃ f ∈ s.fields, f.name = name := by
  simp [field?, List.find?_isSome]

/-- A completed record has the entries of the record, and null in the fields it lacks. -/
theorem get?_completed {s : Schema} {r : Record}
    (hknown : ∀ e ∈ r.toList, (s.field? e.1).isSome = true) (name : String) :
    (s.completed r).get? name = (r.get? name).or ((s.field? name).map fun _ => .null) := by
  rw [completed, get?_foldl_set r.value]
  cases hentry : r.get? name with
  | some v =>
    have hsome := hknown (name, v) (Entries.mem_of_get? hentry)
    rw [if_pos (isSome_field?_iff.1 hsome), Record.value, hentry]
    rfl
  | none =>
    rw [Record.value, hentry]
    cases hname : s.field? name with
    | some f => exact if_pos (isSome_field?_iff.1 (hname ▸ rfl))
    | none =>
      rw [if_neg fun hmem => by simpa [hname] using isSome_field?_iff.2 hmem]
      rfl

/-- A typed record can be stored in a document, and what the document is read as is the record
    with every field of the model. -/
theorem decode_encode {s : Schema} {r : Record} (hcolumns : (s.fields.map Field.column).Nodup)
    (hr : r.Typed s) :
    ∃ d, s.encode r = .ok d ∧ s.decode d = .ok (s.completed r) ∧
      ∀ name, (s.completed r).get? name =
        (r.get? name).or ((s.field? name).map fun _ => .null) := by
  have hencode := encode_eq_ok hr.known
  exact ⟨_, hencode, decode_stored hr (stores_encode hcolumns hencode), get?_completed hr.known⟩

/-- Every type of field, one of them in a column named like another field, a leap second, a
    negative zero and an absent text. -/
theorem decode_encode_of_sample :
    let s : Schema := ⟨"Sample", [.ofMarks "id" .int [.key, .auto], .plain "ratio" .float,
      .plain "payload" .bytes, .ofMarks "taken" .timestamp [.storeAs "at"], .plain "active" .bool,
      .ofMarks "at" .text [.storeAs "rank", .optional]]⟩
    let r : Record := .ofList [("id", .int (-7)), ("ratio", .float ⟨0x8000000000000000⟩),
      ("payload", .bytes [0, 255]), ("taken", .timestamp ⟨-62167219141, 1999999999⟩),
      ("active", .bool true)]
    ∃ d, s.encode r = .ok d ∧ s.decode d = .ok (s.completed r) ∧
      ∀ name, (s.completed r).get? name =
        (r.get? name).or ((s.field? name).map fun _ => .null) := by
  intro s r
  have hcivil : Timestamp.Civil ⟨-62167219141, 1999999999⟩ :=
    ⟨by decide, by decide, by decide⟩
  have hr : r.Typed s := by
    refine ⟨by decide, ?_⟩
    show ∀ f ∈ s.fields, _
    simp only [s, List.forall_mem_cons, List.not_mem_nil, false_implies, implies_true, and_true]
    exact ⟨.int _, .float (by decide), .bytes _, .timestamp hcivil, .bool _, .null _⟩
  exact decode_encode (by decide) hr

/-- More nanoseconds than a second has, at a second that does not end a minute: the text is that of
    the second after it, and is read back as that. -/
theorem decode_encode_moves_nanos :
    let s : Schema := ⟨"Event", [.ofMarks "id" .int [.key], .plain "at" .timestamp]⟩
    let record (t : Timestamp) : Record := .ofList [("id", .int 1), ("at", .timestamp t)]
    let t : Timestamp := ⟨1704110430, 1500000000⟩
    t.date.year = 2024 ∧ t.nanos < 2 * Timestamp.nanosPerSecond ∧
      (s.encode (record t) >>= s.decode).toOption = some (record ⟨1704110431, 500000000⟩) ∧
      record ⟨1704110431, 500000000⟩ ≠ s.completed (record t) := by
  decide +kernel

end Schema

end ModelMapper
