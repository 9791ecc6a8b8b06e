import Mathlib.Data.List.Infix
import ModelMapper.Postgres.Certificates

/-! # Runs of lines between markers

The blocks of a text stand between markers that are found line by line.  What one pass over the
lines gathers is told here by the places of the lines alone.

* `lines_spec` — the lines of a text.
* `IsRun` — lines from a begin marker to the first end marker, without another begin marker.
* `Holds`, `IsOpen` — a run that a line belongs to, and one that is not at its end before a line.
* `blocksFrom_runs` — the pass from some line on keeps the runs that end there or later.
* `readBlocks_runs` — the blocks of a text are its runs.
-/

namespace ModelMapper.Postgres.Certificates

/-! ## Lines and markers -/

theorem contains_iff {needle text : List Char} : contains needle text = true ↔ needle <:+: text := by
  induction text with
  | nil => simp [contains]
  | cons c text ih => simp [contains, ih, List.infix_cons_iff]

theorem lines_cons {c : Char} (h : c ≠ '\n') (text : List Char) :
    lines (c :: text) = (c :: (lines text).headD []) :: (lines text).tail := by
  rw [lines]
  · cases lines text <;> rfl
  · exact h

/-- The lines of a text have no line break in them, and each has one behind it; the last may be
    without. -/
theorem lines_spec (text : List Char) :
    (∀ line ∈ lines text, '\n' ∉ line) ∧
      (text = (lines text).flatMap (· ++ ['\n']) ∨
        text ++ ['\n'] = (lines text).flatMap (· ++ ['\n'])) := by
  induction text with
  | nil => exact ⟨nofun, .inl rfl⟩
  | cons c text ih =>
    obtain ⟨hbreak, htext⟩ := ih
    by_cases hc : c = '\n'
    · subst hc
      refine ⟨?_, ?_⟩
      · simpa [lines] using hbreak
      · simpa [lines] using htext
    · rw [lines_cons hc]
      cases hlines : lines text with
      | nil =>
        rw [hlines] at htext
        have hempty : text = [] := by simpa using htext
        simp [hempty, Ne.symm hc]
      | cons first others =>
        rw [hlines] at hbreak htext
        simp_all [Ne.symm hc]

def BeginsAt (ls : List (List Char)) (k : Nat) : Prop :=
  ∃ line, ls[k]? = some line ∧ beginMarker.toList <:+: line

def EndsAt (ls : List (List Char)) (k : Nat) : Prop :=
  ∃ line, ls[k]? = some line ∧ endMarker.toList <:+: line

/-- The lines from the first place to the second are a run: the first of them has a begin marker
    and no other one has, the last has an end marker and no other one has. -/
structure IsRun (ls : List (List Char)) (run : Nat × Nat) : Prop where
  ordered : run.1 ≤ run.2
  begins : BeginsAt ls run.1
  ends : EndsAt ls run.2
  noEnd : ∀ k, run.1 ≤ k → k < run.2 → ¬EndsAt ls k
  noBegin : ∀ k, run.1 < k → k ≤ run.2 → ¬BeginsAt ls k

/-- Lines as they are kept, each without the blanks around it and with a line break. -/
def kept (ls : List (List Char)) (start stop : Nat) : List Char :=
  (ls.extract start stop).flatMap fun line => trimBlank line ++ ['\n']

variable {ls : List (List Char)} {line : List Char} {n i : Nat}

theorem beginsAt_iff (h : ls[n]? = some line) :
    BeginsAt ls n ↔ contains beginMarker.toList line = true := by
  simp [BeginsAt, h, contains_iff]

theorem endsAt_iff (h : ls[n]? = some line) :
    EndsAt ls n ↔ contains endMarker.toList line = true := by
  simp [EndsAt, h, contains_iff]

theorem EndsAt.lt (h : EndsAt ls n) : n < ls.length := by
  obtain ⟨line, hline, -⟩ := h
  exact (List.getElem?_eq_some_iff.1 hline).1

theorem kept_self : kept ls n n = [] := by simp [kept]

theorem kept_succ (h : i ≤ n) (hline : ls[n]? = some line) :
    kept ls i (n + 1) = kept ls i n ++ keep line := by
  have hcount : n + 1 - i = n - i + 1 := by omega
  have hplace : i + (n - i) = n := by omega
  simp only [kept, List.extract_eq_take_drop, hcount, List.take_add_one, List.getElem?_drop, hplace,
    hline]
  simp [keep]

/-! ## One line after the other -/

/-- The line at `n` belongs to a run that has begun at `i`, if that run comes to its end. -/
structure Holds (ls : List (List Char)) (n i : Nat) : Prop where
  le : i ≤ n
  begins : BeginsAt ls i
  noEnd : ∀ k, i ≤ k → k < n → ¬EndsAt ls k
  noBegin : ∀ k, i < k → k ≤ n → ¬BeginsAt ls k

/-- Before the line at `n` a run has begun at `i` and has not come to its end. -/
structure IsOpen (ls : List (List Char)) (n i : Nat) : Prop where
  lt : i < n
  begins : BeginsAt ls i
  noEnd : ∀ k, i ≤ k → k < n → ¬EndsAt ls k
  noBegin : ∀ k, i < k → k < n → ¬BeginsAt ls k

theorem isRun_iff {run : Nat × Nat} : IsRun ls run ↔ Holds ls run.2 run.1 ∧ EndsAt ls run.2 :=
  ⟨fun h => ⟨⟨h.ordered, h.begins, h.noEnd, h.noBegin⟩, h.ends⟩,
    fun ⟨h, hends⟩ => ⟨h.le, h.begins, hends, h.noEnd, h.noBegin⟩⟩

theorem not_isOpen_zero : ¬IsOpen ls 0 i := fun h => Nat.not_lt_zero i h.lt

/-- A begin marker opens a run, whatever has been open before. -/
theorem holds_of_begins (h : BeginsAt ls n) : Holds ls n i ↔ n = i := by
  constructor
  · intro hholds
    rcases Nat.lt_or_eq_of_le hholds.le with hlt | heq
    · exact absurd h (hholds.noBegin n hlt le_rfl)
    · exact heq.symm
  · rintro rfl
    exact ⟨le_rfl, h, fun k _ _ => by omega, fun k _ _ => by omega⟩

/-- Any other line belongs to the run that is open. -/
theorem holds_of_not_begins (h : ¬BeginsAt ls n) : Holds ls n i ↔ IsOpen ls n i := by
  constructor
  · intro hholds
    rcases Nat.lt_or_eq_of_le hholds.le with hlt | rfl
    · exact ⟨hlt, hholds.begins, hholds.noEnd, fun k hk hkn => hholds.noBegin k hk hkn.le⟩
    · exact absurd hholds.begins h
  · intro hopen
    refine ⟨hopen.lt.le, hopen.begins, hopen.noEnd, fun k hk hkn => ?_⟩
    rcases Nat.lt_or_eq_of_le hkn with hlt | rfl
    · exact hopen.noBegin k hk hlt
    · exact h

/-- An end marker ends the run of its line. -/
theorem isOpen_succ : IsOpen ls (n + 1) i ↔ Holds ls n i ∧ ¬EndsAt ls n := by
  constructor
  · intro hopen
    exact ⟨⟨Nat.le_of_lt_succ hopen.lt, hopen.begins, fun k hk hkn => hopen.noEnd k hk (by omega),
      fun k hk hkn => hopen.noBegin k hk (by omega)⟩,
      hopen.noEnd n (Nat.le_of_lt_succ hopen.lt) (Nat.lt_succ_self n)⟩
  · rintro ⟨hholds, hends⟩
    refine ⟨Nat.lt_succ_of_le hholds.le, hholds.begins, fun k hk hkn => ?_,
      fun k hk hkn => hholds.noBegin k hk (by omega)⟩
    rcases Nat.lt_or_eq_of_le (Nat.le_of_lt_succ hkn) with hlt | rfl
    · exact hholds.noEnd k hk hlt
    · exact hends

/-- A run that ends behind the line of an end marker begins behind it too. -/
theorem IsRun.lt_of_ends {run : Nat × Nat} (h : IsRun ls run) (hends : EndsAt ls n)
    (hlt : n < run.2) : n < run.1 := by
  by_contra hle
  exact h.noEnd n (by omega) hlt hends

/-! ## The pass over the lines -/

theorem blocksFrom_cons (current : Option (List Char)) (line : List Char)
    (rest : List (List Char)) :
    blocksFrom current (line :: rest) =
      let held := (if contains beginMarker.toList line then some [] else current).map
        (· ++ keep line)
      if contains endMarker.toList line then held.toList ++ blocksFrom none rest
      else blocksFrom held rest := rfl

/-- The run that the line belongs to, from the one that was open. -/
theorem held_spec {held : Option Nat} (hline : ls[n]? = some line)
    (hopen : ∀ i, held = some i ↔ IsOpen ls n i) :
    ∃ held', (∀ i, held' = some i ↔ Holds ls n i) ∧
      (if contains beginMarker.toList line then some [] else held.map fun i => kept ls i n).map
        (· ++ keep line) = held'.map fun i => kept ls i (n + 1) := by
  by_cases hbegins : contains beginMarker.toList line = true
  · refine ⟨some n, fun i => ?_, ?_⟩
    · rw [holds_of_begins ((beginsAt_iff hline).2 hbegins), Option.some_inj]
    · simp [hbegins, kept_succ le_rfl hline, kept_self]
  · refine ⟨held, fun i => ?_, ?_⟩
    · rw [hopen, holds_of_not_begins (mt (beginsAt_iff hline).1 hbegins)]
    · cases held with
      | none => simp [hbegins]
      | some i =>
        have hlt := ((hopen i).1 rfl).lt
        simp [hbegins, kept_succ hlt.le hline]

/-- The run that an end marker ends is the one that its line belongs to. -/
theorem mem_ended {held : Option Nat} (hholds : ∀ i, held = some i ↔ Holds ls n i)
    (hends : EndsAt ls n) (run : Nat × Nat) :
    run ∈ (held.map fun i => (i, n)).toList ↔ IsRun ls run ∧ run.2 = n := by
  rw [Option.mem_toList, Option.map_eq_some_iff]
  constructor
  · rintro ⟨i, hi, rfl⟩
    exact ⟨isRun_iff.2 ⟨(hholds i).1 hi, hends⟩, rfl⟩
  · rintro ⟨hrun, rfl⟩
    exact ⟨run.1, (hholds run.1).2 (isRun_iff.1 hrun).1, rfl⟩

/-- From some line on the pass keeps the runs that end there or later. -/
theorem blocksFrom_runs {held : Option Nat} (hopen : ∀ i, held = some i ↔ IsOpen ls n i) :
    ∃ runs : List (Nat × Nat), (∀ run, run ∈ runs ↔ IsRun ls run ∧ n ≤ run.2) ∧
      runs.Pairwise (fun a b => a.2 < b.1) ∧
      blocksFrom (held.map fun i => kept ls i n) (ls.drop n) =
        runs.map fun run => kept ls run.1 (run.2 + 1) := by
  induction hrest : ls.drop n generalizing n held with
  | nil =>
    refine ⟨[], fun run => ?_, List.Pairwise.nil, rfl⟩
    have hlength := List.drop_eq_nil_iff.1 hrest
    refine iff_of_false List.not_mem_nil fun h => ?_
    have hlt := h.1.ends.lt
    omega
  | cons line rest ih =>
    have hline : ls[n]? = some line := by
      rw [← Nat.add_zero n, ← List.getElem?_drop, hrest]
      rfl
    have hnext : ls.drop (n + 1) = rest := by
      rw [← List.tail_drop, hrest]
      rfl
    obtain ⟨held', hholds, hkept⟩ := held_spec hline hopen
    rw [blocksFrom_cons, hkept]
    by_cases hends : EndsAt ls n
    · have hclosed : ∀ i, (none : Option Nat) = some i ↔ IsOpen ls (n + 1) i := fun i =>
        iff_of_false nofun fun h => (isOpen_succ.1 h).2 hends
      obtain ⟨runs, hruns, hsorted, hblocks⟩ := ih hclosed hnext
      have hlast := mem_ended hholds hends
      refine ⟨(held'.map fun i => (i, n)).toList ++ runs, fun run => ?_, ?_, ?_⟩
      · rw [List.mem_append, hlast, hruns, ← and_or_left]
        exact and_congr_right fun _ => by omega
      · refine List.pairwise_append.2 ⟨?_, hsorted, fun first hfirst run hrun => ?_⟩
        · cases held' <;> simp
        · obtain ⟨hrun, hlt⟩ := (hruns run).1 hrun
          rw [((hlast first).1 hfirst).2]
          exact hrun.lt_of_ends hends hlt
      · rw [Option.map_none] at hblocks
        rw [if_pos ((endsAt_iff hline).1 hends), hblocks, List.map_append]
        cases held' <;> rfl
    · have hopen' : ∀ i, held' = some i ↔ IsOpen ls (n + 1) i := fun i => by
        rw [hholds, isOpen_succ, and_iff_left hends]
      obtain ⟨runs, hruns, hsorted, hblocks⟩ := ih hopen' hnext
      refine ⟨runs, fun run => ?_, hsorted, ?_⟩
      · -- no run ends at this line
        rw [hruns]
        refine and_congr_right fun hrun => ⟨fun h => by omega, fun h => ?_⟩
        exact Nat.lt_of_le_of_ne h fun heq => hends (heq ▸ hrun.ends)
      · rw [if_neg (mt (endsAt_iff hline).2 hends), hblocks]

/-! ## Files -/

theorem fromUTF8?_toUTF8 (text : String) : String.fromUTF8? text.toUTF8 = some text :=
  dif_pos text.isValidUTF8

/-- The blocks of a text are its runs in their order, one for each: lines from one with a begin
    marker to the first with an end marker, none of them but the first with a begin marker. A block
    is the lines of its run, each without the blanks around it and with a line break. Where there
    is no run, there is an error. -/
theorem readBlocks_runs (text : String) :
    let ls := lines text.toList
    (∀ line ∈ ls, '\n' ∉ line) ∧
    (text.toList = ls.flatMap (· ++ ['\n']) ∨ text.toList ++ ['\n'] = ls.flatMap (· ++ ['\n'])) ∧
    ∃ runs : List (Nat × Nat), (∀ run, run ∈ runs ↔ IsRun ls run) ∧
      runs.Pairwise (fun a b => a.2 < b.1) ∧
      readBlocks text.toUTF8.data.toList =
        if runs = [] then .error (.connection "no certificates found in CA file")
        else .ok (runs.map fun run => String.ofList ((ls.extract run.1 (run.2 + 1)).flatMap
          fun line => trimBlank line ++ ['\n'])) := by
  intro ls
  obtain ⟨hbreak, htext⟩ := lines_spec text.toList
  have hopen : ∀ i, (none : Option Nat) = some i ↔ IsOpen ls 0 i := fun i =>
    iff_of_false nofun not_isOpen_zero
  obtain ⟨runs, hruns, hsorted, hblocks⟩ := blocksFrom_runs hopen
  have hfile : blocks text = runs.map fun run => String.ofList (kept ls run.1 (run.2 + 1)) := by
    rw [blocks]
    rw [List.drop_zero, Option.map_none] at hblocks
    rw [hblocks, List.map_map]
    rfl
  refine ⟨hbreak, htext, runs, fun run => ?_, hsorted, ?_⟩
  · rw [hruns, and_iff_left (Nat.zero_le _)]
  · rw [readBlocks, Array.toArray_toList, fromUTF8?_toUTF8]
    dsimp only
    rw [hfile]
    cases runs <;> rfl

end ModelMapper.Postgres.Certificates
