/-! # Sorted entries

Association lists in increasing order of their text keys, the order of Unicode code points.

* `Entries.put`, `Entries.get?`, `Entries.erase` — the operations on plain lists.
* `Entries.Sorted` — the keys increase, so each occurs once; every operation keeps it.
-/

namespace ModelMapper

namespace Entries

variable {α : Type}

/-- Add an entry, or replace the value of its key. -/
def put (key : String) (value : α) : List (String × α) → List (String × α)
  | [] => [(key, value)]
  | (k, v) :: rest =>
    if key < k then (key, value) :: (k, v) :: rest
    else if key = k then (key, value) :: rest
    else (k, v) :: put key value rest

def get? (key : String) : List (String × α) → Option α
  | [] => none
  | (k, v) :: rest => if key = k then some v else get? key rest

def erase (key : String) (entries : List (String × α)) : List (String × α) :=
  entries.filter fun e => e.1 != key

/-- The entries of a list, a later one replacing an earlier one of the same key. -/
def ofList (pairs : List (String × α)) : List (String × α) :=
  pairs.foldl (fun entries (k, v) => put k v entries) []

/-- The keys increase. -/
def Sorted (entries : List (String × α)) : Prop :=
  entries.Pairwise fun a b => a.1 < b.1

theorem sorted_nil : Sorted ([] : List (String × α)) := List.Pairwise.nil

/-- Every key of the result is the new key or an old one. -/
theorem mem_put {key : String} {value : α} {entries : List (String × α)} {e : String × α}
    (h : e ∈ put key value entries) : e = (key, value) ∨ e ∈ entries := by
  induction entries with
  | nil => simp [put] at h; exact .inl h
  | cons head rest ih =>
    obtain ⟨k, v⟩ := head
    simp only [put] at h
    split at h
    · rcases List.mem_cons.1 h with h | h
      · exact .inl h
      · exact .inr h
    · split at h
      · rcases List.mem_cons.1 h with h | h
        · exact .inl h
        · exact .inr (List.mem_cons_of_mem _ h)
      · rcases List.mem_cons.1 h with h | h
        · exact .inr (h ▸ List.mem_cons_self)
        · exact (ih h).imp id (List.mem_cons_of_mem _)

theorem lt_of_not_lt_of_ne {a b : String} (h : ¬a < b) (hne : a ≠ b) : b < a := by
  rcases Decidable.em (b < a) with h' | h'
  · exact h'
  · exact absurd (String.le_antisymm (String.not_lt.1 h') (String.not_lt.1 h)) hne

theorem sorted_put (key : String) (value : α) {entries : List (String × α)}
    (h : Sorted entries) : Sorted (put key value entries) := by
  induction entries with
  | nil => exact List.pairwise_singleton _ _
  | cons head rest ih =>
    obtain ⟨k, v⟩ := head
    obtain ⟨hhead, hrest⟩ := List.pairwise_cons.1 h
    simp only [put]
    split
    · rename_i hlt
      refine List.pairwise_cons.2 ⟨fun e he => ?_, h⟩
      rcases List.mem_cons.1 he with he | he
      · exact he ▸ hlt
      · exact String.lt_trans hlt (hhead e he)
    · split
      · rename_i heq
        subst heq
        exact List.pairwise_cons.2 ⟨hhead, hrest⟩
      · rename_i hlt hne
        refine List.pairwise_cons.2 ⟨fun e he => ?_, ih hrest⟩
        rcases mem_put he with he | he
        · exact he ▸ lt_of_not_lt_of_ne hlt hne
        · exact hhead e he

theorem sorted_erase (key : String) {entries : List (String × α)} (h : Sorted entries) :
    Sorted (erase key entries) :=
  List.Pairwise.sublist List.filter_sublist h

theorem get?_put (key : String) (value : α) (entries : List (String × α)) (k : String) :
    get? k (put key value entries) = if k = key then some value else get? k entries := by
  induction entries with
  | nil => rfl
  | cons head rest ih =>
    obtain ⟨k', v⟩ := head
    simp only [put]
    split
    · simp only [get?]
    · split
      · rename_i heq
        subst heq
        simp only [get?]
        split <;> rfl
      · rename_i hne
        simp only [get?, ih]
        split
        · rename_i hk
          subst hk
          rw [if_neg (Ne.symm hne)]
        · rfl

theorem get?_erase (key : String) (entries : List (String × α)) (k : String) :
    get? k (erase key entries) = if k = key then none else get? k entries := by
  induction entries with
  | nil => simp [erase, get?]
  | cons e rest ih =>
    simp only [erase, List.filter_cons] at ih ⊢
    split
    · rename_i hkept
      simp only [get?, ih]
      split
      · rename_i hk
        rw [if_neg (hk ▸ by simpa using hkept)]
      · rfl
    · rename_i hdropped
      rw [ih]
      split
      · rfl
      · rename_i hk
        obtain rfl : e.1 = key := by simpa using hdropped
        rw [get?, if_neg hk]

end Entries

end ModelMapper
