import Mathlib.Data.List.Chain
import Mathlib.Tactic
import ModelMapper.Sql.Command

/-! # The tokens of SQL text

Statements are written piece by piece. Here their text is read back, character by character,
and the tokens are those of the pieces: no piece runs into its neighbour.

* `Token` — words, names in double quotes, text in single quotes, numbers, parameters, symbols.
* `Lexer.scan` — the tokens of a text; each character continues a token or begins the next.
* `Statement.tokens` — the tokens of a statement, each piece on its own.
* `Statement.Spaced` — every piece ends where its text ends.
* `scan_chars` — the text of a spaced statement has the tokens of the statement.
-/

namespace ModelMapper.Sql

inductive Token where
  /-- A run of letters. -/
  | word (letters : List Char)
  /-- A name without its quotes. -/
  | name (ident : String)
  | text (chars : List Char)
  | number (n : Nat)
  /-- A parameter, by its number. -/
  | param (n : Nat)
  | symbol (chars : List Char)
deriving DecidableEq

/-! ## Reading characters -/

namespace Lexer

/-- The token being read. -/
inductive Mode where
  | between
  | word (seen : List Char)
  | number (digits : List Char)
  /-- A parameter that is written with its number. -/
  | numbered (digits : List Char)
  /-- A parameter that is counted. -/
  | counted (n : Nat)
  | name (seen : List Char)
  /-- A quote within a name, or the one that ends it. -/
  | nameQuote (seen : List Char)
  | text (seen : List Char)
  | textQuote (seen : List Char)
  | symbol (seen : List Char)

/-- The token goes on with one more character. -/
def continue? : Mode → Char → Option Mode
  | .between, _ => none
  | .word w, c => if c.isAlpha then some (.word (w ++ [c])) else none
  | .number ds, c => if c.isDigit then some (.number (ds ++ [c])) else none
  | .numbered ds, c => if c.isDigit then some (.numbered (ds ++ [c])) else none
  | .counted _, _ => none
  | .name s, c => if c = '"' then some (.nameQuote s) else some (.name (s ++ [c]))
  | .nameQuote s, c => if c = '"' then some (.name (s ++ [c])) else none
  | .text s, c => if c = '\'' then some (.textQuote s) else some (.text (s ++ [c]))
  | .textQuote s, c => if c = '\'' then some (.text (s ++ [c])) else none
  | .symbol s, c =>
    if (s = ['<'] ∧ (c = '=' ∨ c = '>')) ∨ (s = ['>'] ∧ c = '=') then some (.symbol (s ++ [c]))
    else none

/-- The token that ends here. An open quote does not end. -/
def close : Mode → Option (List Token)
  | .between => some []
  | .word w => some [.word w]
  | .number ds => some [.number (Nat.ofDigitChars 10 ds 0)]
  | .numbered ds => if ds = [] then none else some [.param (Nat.ofDigitChars 10 ds 0)]
  | .counted n => some [.param n]
  | .nameQuote s => some [.name (String.ofList s)]
  | .textQuote s => some [.text s]
  | .symbol s => some [.symbol s]
  | .name _ | .text _ => none

/-- The token a character begins. `n` is the number of the next parameter. -/
def start (d : Dialect) (n : Nat) (c : Char) : Option (Mode × Nat) :=
  if c = ' ' then some (.between, n)
  else if c.isAlpha then some (.word [c], n)
  else if c.isDigit then some (.number [c], n)
  else if c = '"' then some (.name [], n)
  else if c = '\'' then some (.text [], n)
  else if c = '?' ∧ d = .sqlite then some (.counted n, n + 1)
  else if c = '$' ∧ d = .postgres then some (.numbered [], n + 1)
  else if c = '(' ∨ c = ')' ∨ c = ',' ∨ c = '=' ∨ c = '<' ∨ c = '>' ∨ c = '*' ∨ c = '-' then
    some (.symbol [c], n)
  else none

/-- The tokens up to the end of the text. -/
def scan (d : Dialect) (m : Mode) (n : Nat) : List Char → Option (List Token)
  | [] => close m
  | c :: rest =>
    match continue? m c with
    | some m' => scan d m' n rest
    | none =>
      (close m).bind fun ended =>
        (start d n c).bind fun begun =>
          (scan d begun.1 begun.2 rest).map (ended ++ ·)

/-- The tokens read up to some place, and where the reading stands there. -/
def run (d : Dialect) (m : Mode) (n : Nat) : List Char → Option (List Token × Mode × Nat)
  | [] => some ([], m, n)
  | c :: rest =>
    match continue? m c with
    | some m' => run d m' n rest
    | none =>
      (close m).bind fun ended =>
        (start d n c).bind fun begun =>
          (run d begun.1 begun.2 rest).map fun out => (ended ++ out.1, out.2)

theorem scan_append (d : Dialect) (m : Mode) (n : Nat) (first rest : List Char) :
    scan d m n (first ++ rest) =
      (run d m n first).bind fun out => (scan d out.2.1 out.2.2 rest).map (out.1 ++ ·) := by
  induction first generalizing m n with
  | nil => simp [run]
  | cons c first ih =>
    simp only [List.cons_append, scan, run]
    cases continue? m c with
    | some m' => exact ih m' n
    | none =>
      cases close m with
      | none => rfl
      | some ended =>
        cases start d n c with
        | none => rfl
        | some begun =>
          simp only [Option.bind_some, ih]
          cases run d begun.1 begun.2 first with
          | none => rfl
          | some out => simp [Function.comp_def]

/-- The next character does not belong to the token being read. -/
def Stops (m : Mode) : List Char → Prop
  | [] => True
  | c :: _ => continue? m c = none

/-- Where a token stops, the text after it is read as if it stood alone. -/
theorem scan_of_stops {d : Dialect} {m : Mode} {n : Nat} {ts : List Token} {rest : List Char}
    (hclose : close m = some ts) (hstops : Stops m rest) :
    scan d m n rest = (scan d .between n rest).map (ts ++ ·) := by
  cases rest with
  | nil => simp only [scan, hclose, show close .between = some [] from rfl, Option.map_some,
      List.append_nil]
  | cons c rest =>
    have hc : continue? m c = none := hstops
    simp only [scan, hc, hclose, show continue? .between c = none from rfl,
      show close .between = some [] from rfl, Option.bind_some]
    cases start d n c with
    | none => rfl
    | some begun =>
      simp only [Option.bind_some]
      cases scan d begun.1 begun.2 rest <;> rfl

/-- The characters that end every token before them. -/
def isGap (c : Char) : Bool := c == ' ' || c == ')' || c == ','

theorem stops_of_isGap {m : Mode} {ts : List Token} {c : Char} {rest : List Char}
    (hclose : close m = some ts) (hgap : isGap c = true) : Stops m (c :: rest) := by
  have hc : c = ' ' ∨ c = ')' ∨ c = ',' := by
    simpa [isGap, or_assoc] using hgap
  show continue? m c = none
  cases m with
  | name s => cases hclose
  | text s => cases hclose
  | _ => rcases hc with rfl | rfl | rfl <;> first | rfl | simp [continue?]

/-- Text without parameters reads alike in both dialects, whatever number comes next. -/
theorem run_of_no_params {d : Dialect} {m : Mode} {n : Nat} {cs : List Char}
    (h : ∀ c ∈ cs, c ≠ '?' ∧ c ≠ '$') :
    run d m n cs = (run .sqlite m 0 cs).map fun out => (out.1, out.2.1, n) := by
  induction cs generalizing m with
  | nil => rfl
  | cons c cs ih =>
    have hrest : ∀ c ∈ cs, c ≠ '?' ∧ c ≠ '$' := fun x hx => h x (List.mem_cons_of_mem _ hx)
    have hstart : start d n c = (start .sqlite 0 c).map fun begun => (begun.1, n) := by
      simp only [start, (h c List.mem_cons_self).1, (h c List.mem_cons_self).2, false_and, if_false]
      split_ifs <;> rfl
    have hzero : ∀ begun, start .sqlite 0 c = some begun → begun.2 = 0 := by
      intro begun hb
      simp only [start, (h c List.mem_cons_self).1, (h c List.mem_cons_self).2, false_and,
        if_false] at hb
      split_ifs at hb <;> cases hb <;> rfl
    simp only [run]
    cases continue? m c with
    | some m' => exact ih hrest
    | none =>
      cases close m with
      | none => rfl
      | some ended =>
        rw [hstart]
        cases hb : start .sqlite 0 c with
        | none => rfl
        | some begun =>
          simp only [Option.bind_some, Option.map_some, ih hrest, hzero begun hb]
          cases run .sqlite begun.1 0 cs <;> rfl

/-- Inside a name every quote of the name is written twice. -/
theorem run_name (d : Dialect) (n : Nat) (seen cs rest : List Char) :
    run d (.name seen) n
        ((cs.flatMap fun c => if c = '"' then ['"', '"'] else [c]) ++ rest) =
      run d (.name (seen ++ cs)) n rest := by
  induction cs generalizing seen with
  | nil => simp
  | cons c cs ih =>
    have hstep : run d (.name seen) n
        ((if c = '"' then ['"', '"'] else [c]) ++
          ((cs.flatMap fun c => if c = '"' then ['"', '"'] else [c]) ++ rest)) =
        run d (.name (seen ++ [c])) n
          ((cs.flatMap fun c => if c = '"' then ['"', '"'] else [c]) ++ rest) := by
      by_cases hc : c = '"'
      · subst hc
        simp [run, continue?]
      · simp [run, continue?, hc]
    rw [List.flatMap_cons, List.append_assoc, hstep, ih, List.append_assoc, List.singleton_append]

theorem isAlpha_of_isDigit {c : Char} (h : c.isDigit = true) : c.isAlpha = false := by
  have hzero : '0'.toNat = 48 := rfl
  have hnine : '9'.toNat = 57 := rfl
  rw [Char.isDigit_iff_toNat, hzero, hnine] at h
  delta Char.isAlpha Char.isUpper Char.isLower
  simp only [ge_iff_le, UInt32.le_iff_toNat_le,
    Bool.or_eq_false_iff, Bool.and_eq_false_iff, decide_eq_false_iff_not]
  have hupper : 'A'.val.toNat = 65 := rfl
  have hlower : 'a'.val.toNat = 97 := rfl
  have hval : c.val.toNat = c.toNat := rfl
  omega

/-- From between two tokens a character begins the next one. -/
theorem run_between {d : Dialect} {n k : Nat} {m : Mode} {c : Char} (h : start d n c = some (m, k))
    (rest : List Char) : run d .between n (c :: rest) = run d m k rest := by
  simp only [run, show continue? .between c = none from rfl,
    show close .between = some [] from rfl, Option.bind_some, h]
  cases run d m k rest <;> rfl

theorem run_digits (d : Dialect) (n : Nat) (seen ds : List Char) (h : ∀ c ∈ ds, c.isDigit = true) :
    run d (.number seen) n ds = some ([], .number (seen ++ ds), n) ∧
      run d (.numbered seen) n ds = some ([], .numbered (seen ++ ds), n) := by
  induction ds generalizing seen with
  | nil => simp [run]
  | cons c ds ih =>
    have hc : c.isDigit = true := h c List.mem_cons_self
    simpa [run, continue?, hc] using ih (seen ++ [c]) fun x hx => h x (List.mem_cons_of_mem _ hx)

end Lexer

/-! ## Statements -/

namespace Piece

open Lexer

def chars (d : Dialect) (n : Nat) : Piece → List Char
  | .word text => text.toList
  | .name ident => (quoteIdent ident).toList
  | .number k => (toString k).toList
  | .param _ => (d.placeholder n).toList

/-- How many parameters the piece is. -/
def paramCount : Piece → Nat
  | .param _ => 1
  | _ => 0

/-- The reading of a fixed text alone. -/
def reading (text : String) : Option (List Token × Mode × Nat) :=
  run .sqlite .between 0 text.toList

def wordTokens (text : String) : List Token :=
  match reading text with
  | some (ts, m, _) => ts ++ (close m).getD []
  | none => []

/-- The tokens of a piece, a parameter having the number `n`. -/
def tokens (n : Nat) : Piece → List Token
  | .word text => wordTokens text
  | .name ident => [.name ident]
  | .number k => [.number k]
  | .param _ => [.param n]

/-- A fixed text ends no token too early and holds no parameter. -/
def readable : Piece → Bool
  | .word text =>
    (match reading text with
      | some (_, m, _) => (close m).isSome
      | none => false) && text.toList.all fun c => c != '?' && c != '$'
  | _ => true

/-- The piece begins with a gap. -/
def opensGap : Piece → Bool
  | .word text => text.toList.head?.any isGap
  | _ => false

/-- The piece ends with a space or an opening bracket, which nothing continues. -/
def closesGap : Piece → Bool
  | .word text =>
    match reading text with
    | some (_, .between, _) => true
    | some (_, .symbol s, _) => s == ['(']
    | _ => false
  | _ => false

/-- The piece is read alone: its tokens, the last of which ends with the piece. -/
def ReadAlone (p : Piece) (d : Dialect) (n : Nat) : Prop :=
  ∃ ts m us, run d .between n (p.chars d n) = some (ts, m, n + p.paramCount) ∧
    close m = some us ∧ p.tokens n = ts ++ us ∧ (p.closesGap = true → ∀ cs, Stops m cs)

section

variable {d : Dialect} {n : Nat}

theorem readAlone_word {text : String} (h : (word text).readable = true) :
    (word text).ReadAlone d n := by
  simp only [readable, Bool.and_eq_true, List.all_eq_true, bne_iff_ne, ne_eq] at h
  have hparams : ∀ c ∈ text.toList, c ≠ '?' ∧ c ≠ '$' := h.2
  have hrun := run_of_no_params (d := d) (m := .between) (n := n) hparams
  cases hread : reading text with
  | none => simp [hread] at h
  | some out =>
    obtain ⟨ts, m, k⟩ := out
    simp only [hread, Option.isSome_iff_exists] at h
    obtain ⟨us, hus⟩ := h.1
    refine ⟨ts, m, us, ?_, hus, ?_, fun hclosed => ?_⟩
    · simp only [chars, hrun, paramCount, Nat.add_zero]
      simp only [reading] at hread
      simp [hread]
    · simp [tokens, wordTokens, hread, hus]
    · simp only [closesGap, hread] at hclosed
      cases m <;> simp at hclosed
      case between => intro cs; cases cs <;> trivial
      case symbol s =>
        subst hclosed
        intro cs
        cases cs with
        | nil => trivial
        | cons c cs => simp [Stops, continue?]

theorem readAlone_name {ident : String} : (name ident).ReadAlone d n := by
  refine ⟨[], .nameQuote ident.toList, [.name ident], ?_, by simp [close], rfl, nofun⟩
  have hchars : (name ident).chars d n = '"' ::
      ((ident.toList.flatMap fun c => if c = '"' then ['"', '"'] else [c]) ++ ['"']) := by
    simp [chars, quoteIdent]
  rw [hchars, run_between (show start d n '"' = some (.name [], n) from rfl), run_name]
  rfl

theorem forall_isDigit_toDigits (k : Nat) : ∀ c ∈ Nat.toDigits 10 k, c.isDigit = true :=
  fun _ hc => Nat.isDigit_of_mem_toDigits (by decide) (by decide) hc

theorem readAlone_number {k : Nat} : (number k).ReadAlone d n := by
  have hdigits := forall_isDigit_toDigits k
  refine ⟨[], .number (Nat.toDigits 10 k), [.number k], ?_, ?_, rfl, nofun⟩
  · have hchars : (number k).chars d n = Nat.toDigits 10 k := by simp [chars]
    rw [hchars]
    cases hds : Nat.toDigits 10 k with
    | nil => exact absurd hds Nat.toDigits_ne_nil
    | cons c ds =>
      rw [hds] at hdigits
      have hc : c.isDigit = true := hdigits c List.mem_cons_self
      have hspace : c ≠ ' ' := by rintro rfl; cases hc
      have hstart : start d n c = some (.number [c], n) := by
        simp [start, hspace, isAlpha_of_isDigit hc, hc]
      rw [run_between hstart]
      exact (run_digits d n [c] ds fun x hx => hdigits x (List.mem_cons_of_mem _ hx)).1
  · simp only [close, Nat.ofDigitChars_toDigits (by decide : 1 < 10) (by decide : 10 ≤ 10)]

theorem readAlone_param {v : Value} : (param v).ReadAlone d n := by
  cases d with
  | sqlite =>
    refine ⟨[], .counted n, [.param n], ?_, rfl, rfl, nofun⟩
    have hchars : (param v).chars .sqlite n = ['?'] := by simp [chars, Dialect.placeholder]
    rw [hchars, run_between (show start .sqlite n '?' = some (.counted n, n + 1) from rfl)]
    rfl
  | postgres =>
    refine ⟨[], .numbered (Nat.toDigits 10 n), [.param n], ?_, ?_, rfl, nofun⟩
    · have hchars : (param v).chars .postgres n = '$' :: Nat.toDigits 10 n := by
        simp [chars, Dialect.placeholder]
      rw [hchars, run_between (show start .postgres n '$' = some (.numbered [], n + 1) from rfl)]
      exact (run_digits .postgres (n + 1) [] _ (forall_isDigit_toDigits n)).2
    · simp only [close, if_neg Nat.toDigits_ne_nil,
        Nat.ofDigitChars_toDigits (by decide : 1 < 10) (by decide : 10 ≤ 10)]

end

theorem readAlone {p : Piece} (h : p.readable = true) (d : Dialect) (n : Nat) :
    p.ReadAlone d n := by
  cases p with
  | word text => exact readAlone_word h
  | name ident => exact readAlone_name
  | number k => exact readAlone_number
  | param v => exact readAlone_param

end Piece

namespace Statement

open Lexer

/-- The characters of a statement, the parameters numbered from `n`. -/
def chars (d : Dialect) (n : Nat) (s : Statement) : List Char := (s.texts d n).flatMap String.toList

theorem toList_text (d : Dialect) (s : Statement) : (s.text d).toList = s.chars d 1 := by
  simp [text, chars, String.toList_join]

/-- The tokens of a statement, the parameters numbered from `n`. -/
def tokens (n : Nat) : Statement → List Token
  | [] => []
  | p :: rest => p.tokens n ++ tokens (n + p.paramCount) rest

/-- Every piece ends where its text ends: it is complete, and nothing continues it. -/
structure Spaced (s : Statement) : Prop where
  readable : ∀ p ∈ s, p.readable = true
  apart : s.IsChain fun p q => p.closesGap = true ∨ q.opensGap = true

@[simp] theorem chars_nil (d : Dialect) (n : Nat) : chars d n [] = [] := rfl

@[simp] theorem chars_cons (d : Dialect) (n : Nat) (p : Piece) (s : Statement) :
    chars d n (p :: s) = p.chars d n ++ chars d (n + p.paramCount) s := by
  cases p <;> rfl

theorem params_cons (p : Piece) (s : Statement) :
    params (p :: s) = (match p with
      | .param v => [v]
      | _ => []) ++ params s := by
  cases p <;> rfl

theorem params_append (s t : Statement) : params (s ++ t) = params s ++ params t :=
  List.filterMap_append

theorem length_params_cons (p : Piece) (s : Statement) :
    (params (p :: s)).length = p.paramCount + (params s).length := by
  rw [params_cons, List.length_append]
  cases p <;> rfl

theorem chars_append (d : Dialect) (n : Nat) (s t : Statement) :
    chars d n (s ++ t) = chars d n s ++ chars d (n + (params s).length) t := by
  induction s generalizing n with
  | nil => rfl
  | cons p s ih =>
    rw [List.cons_append, chars_cons, chars_cons, ih, length_params_cons, List.append_assoc,
      Nat.add_assoc]

theorem tokens_append (n : Nat) (s t : Statement) :
    tokens n (s ++ t) = tokens n s ++ tokens (n + (params s).length) t := by
  induction s generalizing n with
  | nil => rfl
  | cons p s ih =>
    rw [List.cons_append, tokens, tokens, ih, length_params_cons, List.append_assoc, Nat.add_assoc]

theorem Spaced.of_cons {p : Piece} {s : Statement} (h : Spaced (p :: s)) : Spaced s :=
  ⟨fun q hq => h.readable q (List.mem_cons_of_mem _ hq), h.apart.of_cons⟩

/-- The text of a spaced statement has the tokens of its pieces. -/
theorem scan_chars {s : Statement} (h : s.Spaced) (d : Dialect) (n : Nat) :
    scan d .between n (s.chars d n) = some (s.tokens n) := by
  induction s generalizing n with
  | nil => rfl
  | cons p s ih =>
    obtain ⟨ts, m, us, hrun, hclose, htokens, hcloses⟩ :=
      Piece.readAlone (h.readable p List.mem_cons_self) d n
    have hstops : Stops m (chars d (n + p.paramCount) s) := by
      cases s with
      | nil => trivial
      | cons q s =>
        rcases (List.isChain_cons_cons.1 h.apart).1 with hp | hq
        · exact hcloses hp _
        · cases q with
          | word text =>
            simp only [Piece.opensGap, Option.any_eq_true] at hq
            obtain ⟨c, hhead, hgap⟩ := hq
            obtain ⟨cs, hcs⟩ := List.head?_eq_some_iff.1 hhead
            simp only [chars_cons, Piece.chars, hcs, List.cons_append]
            exact stops_of_isGap hclose hgap
          | _ => cases hq
    rw [chars_cons, scan_append, hrun, Option.bind_some, scan_of_stops hclose hstops,
      ih h.of_cons]
    simp [tokens, htokens]

end Statement

end ModelMapper.Sql
