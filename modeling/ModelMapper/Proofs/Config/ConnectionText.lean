import Mathlib.Data.List.Infix
import ModelMapper.Config.Basic

/-! # Reading connection texts

The settings of a server are sent as keywords with their values.  The reader of such a text goes
through it once: blanks stand between settings and around the equals sign, a value between single
quotes ends at the next one, any other value at the next blank, and a backslash makes the
character behind it one of the value, whatever it is.

* `ConnectionText.Reader.run` — the reader after some more of a text.
* `ConnectionText.settings?` — the settings of a whole text.
* `ConnectionText.escaped` — a value with its backslashes and quotes marked, one after the other.
* `Reader.run_escaped`, `Reader.run_inside` — such a value is read as it was, and no part of it
  ends its quotes.
* `Reader.run_settings` — settings with blanks between them are read one by one.
* `PostgresTarget.connectionString_read` — what the text of a server is read as.
-/

namespace ModelMapper

namespace ConnectionText

/-! ## The reader -/

/-- The blanks of ASCII. -/
def isSpace (c : Char) : Bool := c.toNat == 32 || (decide (9 ≤ c.toNat) && decide (c.toNat ≤ 13))

/-- Where in a text the reader stands. -/
inductive Zone where
  /-- Before a keyword. -/
  | between
  | keyword (seen : List Char)
  /-- Behind a keyword that a blank has ended. -/
  | beforeEquals (key : List Char)
  | beforeValue (key : List Char)
  /-- In a value without quotes. -/
  | plain (key seen : List Char)
  /-- Behind a backslash in a value without quotes. -/
  | plainEscape (key seen : List Char)
  /-- In a value between quotes. -/
  | quoted (key seen : List Char)
  /-- Behind a backslash in a value between quotes. -/
  | quotedEscape (key seen : List Char)
deriving DecidableEq

/-- Between the quotes of the value of a keyword. -/
def Zone.isWithin (key : String) : Zone → Bool
  | .quoted key' _ | .quotedEscape key' _ => key' == key.toList
  | _ => false

structure Reader where
  /-- The settings so far. -/
  done : List (String × String)
  zone : Zone
deriving DecidableEq

namespace Reader

def start : Reader := ⟨[], .between⟩

def put (r : Reader) (key value : List Char) : List (String × String) :=
  r.done ++ [(String.ofList key, String.ofList value)]

/-- The reader behind one more character. -/
def step (r : Reader) (c : Char) : Option Reader :=
  match r.zone with
  | .between =>
    if isSpace c then some r else if c = '=' then none else some { r with zone := .keyword [c] }
  | .keyword seen =>
    if c = '=' then some { r with zone := .beforeValue seen }
    else if isSpace c then some { r with zone := .beforeEquals seen }
    else some { r with zone := .keyword (seen ++ [c]) }
  | .beforeEquals key =>
    if isSpace c then some r
    else if c = '=' then some { r with zone := .beforeValue key } else none
  | .beforeValue key =>
    if isSpace c then some r
    else if c = '\'' then some { r with zone := .quoted key [] }
    else if c = '\\' then some { r with zone := .plainEscape key [] }
    else some { r with zone := .plain key [c] }
  | .plain key seen =>
    if isSpace c then some ⟨r.put key seen, .between⟩
    else if c = '\\' then some { r with zone := .plainEscape key seen }
    else some { r with zone := .plain key (seen ++ [c]) }
  | .plainEscape key seen => some { r with zone := .plain key (seen ++ [c]) }
  | .quoted key seen =>
    if c = '\'' then some ⟨r.put key seen, .between⟩
    else if c = '\\' then some { r with zone := .quotedEscape key seen }
    else some { r with zone := .quoted key (seen ++ [c]) }
  | .quotedEscape key seen => some { r with zone := .quoted key (seen ++ [c]) }

/-- The reader behind some more of a text. -/
def run (r : Reader) (text : List Char) : Option Reader := text.foldlM step r

/-- The settings of a text that ends here. A keyword needs a value, and quotes need an end. -/
def finish (r : Reader) : Option (List (String × String)) :=
  match r.zone with
  | .between => some r.done
  | .keyword _ | .beforeEquals _ => none
  | .beforeValue key => some (r.put key [])
  | .plain key seen | .plainEscape key seen => some (r.put key seen)
  | .quoted _ _ | .quotedEscape _ _ => none

end Reader

/-- The settings of a text, or none where it is no list of settings. -/
def settings? (text : String) : Option (List (String × String)) :=
  (Reader.start.run text.toList).bind Reader.finish

/-! ## Escaped values -/

/-- A text with a backslash in front of each place of a character. -/
def marked (special : Char) (text : List Char) : List Char :=
  text.flatMap fun c => if c = special then ['\\', c] else [c]

/-- Backslashes come first, so that those in front of quotes are not marked themselves. -/
def escaped (value : String) : List Char := marked '\'' (marked '\\' value.toList)

/-- How a character stands in an escaped value. -/
def escapedChar (c : Char) : List Char := if c = '\\' ∨ c = '\'' then ['\\', c] else [c]

theorem escaped_eq (value : String) : escaped value = value.toList.flatMap escapedChar := by
  rw [escaped, marked, marked, List.flatMap_assoc]
  congr 1
  funext c
  by_cases hslash : c = '\\'
  · subst hslash
    rfl
  · by_cases hquote : c = '\''
    · subst hquote
      rfl
    · simp [escapedChar, hslash, hquote]

/-- The other way round the backslash in front of a quote is marked as well, and the quote ends the
    value. -/
example : marked '\\' (marked '\'' ['\'']) = ['\\', '\\', '\''] := by decide

/-- A value is sent between quotes. -/
theorem toList_quoteValue (value : String) :
    (PostgresTarget.quoteValue value).toList = '\'' :: (escaped value ++ ['\'']) := by
  rw [escaped_eq, PostgresTarget.quoteValue]
  simp only [String.toList_append, String.toList_ofList]
  rfl

namespace Reader

variable {done : List (String × String)} {key : List Char}

theorem run_append (r : Reader) (text rest : List Char) :
    r.run (text ++ rest) = (r.run text).bind fun r => r.run rest := List.foldlM_append

theorem run_cons (r : Reader) (c : Char) (rest : List Char) :
    r.run (c :: rest) = (r.step c).bind fun r => r.run rest := List.foldlM_cons

/-- An escaped character is one of the value, and the quotes stay open. -/
theorem run_escapedChar (seen : List Char) (c : Char) :
    run ⟨done, .quoted key seen⟩ (escapedChar c) = some ⟨done, .quoted key (seen ++ [c])⟩ := by
  by_cases hspecial : c = '\\' ∨ c = '\''
  · rw [escapedChar, if_pos hspecial]
    rfl
  · rw [escapedChar, if_neg hspecial]
    rw [not_or] at hspecial
    simp [run, step, hspecial]

/-- An escaped value is read as it was. -/
theorem run_escaped (seen value : List Char) :
    run ⟨done, .quoted key seen⟩ (value.flatMap escapedChar) =
      some ⟨done, .quoted key (seen ++ value)⟩ := by
  induction value generalizing seen with
  | nil => simp [run]
  | cons c value ih =>
    rw [List.flatMap_cons, run_append, run_escapedChar, Option.bind_some, ih, List.append_assoc,
      List.singleton_append]

/-- Only its backslash is a proper part of an escaped character. -/
theorem prefix_escapedChar {part : List Char} {c : Char} (h : part <+: escapedChar c) :
    part = [] ∨ part = ['\\'] ∨ part = escapedChar c := by
  rw [escapedChar] at h ⊢
  split at h
  · rcases part with _ | ⟨a, _ | ⟨b, part⟩⟩ <;> simp_all [List.cons_prefix_cons]
  · rcases part with _ | ⟨a, part⟩ <;> simp_all [List.cons_prefix_cons]

/-- No part of an escaped value ends its quotes. -/
theorem run_inside (name : String) (seen : List Char) {value part : List Char}
    (h : part <+: value.flatMap escapedChar) :
    ∃ zone, run ⟨done, .quoted name.toList seen⟩ part = some ⟨done, zone⟩ ∧
      zone.isWithin name = true := by
  have hwithin (seen : List Char) : (Zone.quoted name.toList seen).isWithin name = true :=
    beq_self_eq_true name.toList
  induction value generalizing seen part with
  | nil =>
    cases List.prefix_nil.1 h
    exact ⟨_, rfl, hwithin seen⟩
  | cons c value ih =>
    rw [List.flatMap_cons] at h
    rcases List.prefix_or_prefix_of_prefix h (List.prefix_append _ _) with hpart | ⟨rest, rfl⟩
    · rcases prefix_escapedChar hpart with rfl | rfl | rfl
      · exact ⟨_, rfl, hwithin seen⟩
      · exact ⟨.quotedEscape name.toList seen, rfl, hwithin seen⟩
      · exact ⟨_, run_escapedChar seen c, hwithin _⟩
    · rw [run_append, run_escapedChar]
      exact ih _ ((List.prefix_append_right_inj _).1 h)

/-! ## Keywords and values -/

/-- A keyword goes on with this character. -/
abbrev IsKeyChar (c : Char) : Prop := isSpace c = false ∧ c ≠ '='

/-- A value without quotes can begin with this character, and goes on with it. -/
abbrev IsPlainChar (c : Char) : Prop := isSpace c = false ∧ c ≠ '\\' ∧ c ≠ '\''

theorem run_keyword (seen : List Char) (h : ∀ c ∈ key, IsKeyChar c) :
    run ⟨done, .keyword seen⟩ (key ++ ['=']) = some ⟨done, .beforeValue (seen ++ key)⟩ := by
  induction key generalizing seen with
  | nil => simp [run, step]
  | cons c key ih =>
    obtain ⟨hspace, hequals⟩ := h c List.mem_cons_self
    have hstep : step ⟨done, .keyword seen⟩ c = some ⟨done, .keyword (seen ++ [c])⟩ := by
      simp [step, hspace, hequals]
    rw [List.cons_append, run_cons, hstep, Option.bind_some,
      ih (seen ++ [c]) fun d hd => h d (List.mem_cons_of_mem c hd), List.append_assoc,
      List.singleton_append]

theorem run_plain (seen : List Char) {value : List Char}
    (h : ∀ c ∈ value, IsPlainChar c) :
    run ⟨done, .plain key seen⟩ value = some ⟨done, .plain key (seen ++ value)⟩ := by
  induction value generalizing seen with
  | nil => simp [run]
  | cons c value ih =>
    obtain ⟨hspace, hslash, -⟩ := h c List.mem_cons_self
    have hstep : step ⟨done, .plain key seen⟩ c = some ⟨done, .plain key (seen ++ [c])⟩ := by
      simp [step, hspace, hslash]
    rw [run_cons, hstep, Option.bind_some,
      ih (seen ++ [c]) fun d hd => h d (List.mem_cons_of_mem c hd), List.append_assoc,
      List.singleton_append]

end Reader

/-! ## Settings -/

/-- A setting as it is sent. -/
structure Setting where
  key : String
  value : String
  /-- The value stands between quotes. -/
  isQuoted : Bool

namespace Setting

def valueChars (s : Setting) : List Char :=
  if s.isQuoted then '\'' :: (escaped s.value ++ ['\'']) else s.value.toList

def chars (s : Setting) : List Char := s.key.toList ++ '=' :: s.valueChars

/-- The keyword is a word, and so is the value if it has no quotes. -/
structure IsClear (s : Setting) : Prop where
  key_ne : s.key.toList ≠ []
  key_plain : ∀ c ∈ s.key.toList, Reader.IsKeyChar c
  value_ne : s.isQuoted = false → s.value.toList ≠ []
  value_plain : s.isQuoted = false → ∀ c ∈ s.value.toList, Reader.IsPlainChar c

end Setting

namespace Reader

variable {r : Reader} {done : List (String × String)} {s : Setting}

/-- A setting may end here, with a blank or with the text, and these are the settings then. -/
def Ends (r : Reader) (done : List (String × String)) : Prop :=
  r.finish = some done ∧ r.step ' ' = some ⟨done, .between⟩

/-- Behind a keyword and its equals sign comes the value. -/
theorem run_key (hr : r.Ends done) (hs : s.IsClear) :
    r.run (' ' :: (s.key.toList ++ ['='])) = some ⟨done, .beforeValue s.key.toList⟩ := by
  rw [run_cons, hr.2, Option.bind_some]
  have hplain := hs.key_plain
  cases hkey : s.key.toList with
  | nil => exact absurd hkey hs.key_ne
  | cons c key =>
    rw [hkey] at hplain
    obtain ⟨hspace, hequals⟩ := hplain c List.mem_cons_self
    have hstep : step ⟨done, .between⟩ c = some ⟨done, .keyword [c]⟩ := by
      simp [step, hspace, hequals]
    rw [List.cons_append, run_cons, hstep, Option.bind_some,
      run_keyword [c] fun d hd => hplain d (List.mem_cons_of_mem c hd), List.singleton_append]

theorem run_value (done : List (String × String)) (hs : s.IsClear) :
    ∃ r', run ⟨done, .beforeValue s.key.toList⟩ s.valueChars = some r' ∧
      r'.Ends (done ++ [(s.key, s.value)]) := by
  rw [Setting.valueChars]
  cases hquoted : s.isQuoted with
  | true =>
    refine ⟨⟨done ++ [(s.key, s.value)], .between⟩, ?_, rfl, rfl⟩
    have hopen : step ⟨done, .beforeValue s.key.toList⟩ '\'' =
        some ⟨done, .quoted s.key.toList []⟩ := rfl
    rw [if_pos rfl, run_cons, hopen, Option.bind_some, run_append, escaped_eq, run_escaped,
      List.nil_append, Option.bind_some]
    simp [run, step, put]
  | false =>
    refine ⟨⟨done, .plain s.key.toList s.value.toList⟩, ?_, ?_, ?_⟩
    · have hplain := hs.value_plain hquoted
      rw [if_neg (by decide)]
      cases hvalue : s.value.toList with
      | nil => exact absurd hvalue (hs.value_ne hquoted)
      | cons c value =>
        rw [hvalue] at hplain
        obtain ⟨hspace, hslash, hquote⟩ := hplain c List.mem_cons_self
        have hstep : step ⟨done, .beforeValue s.key.toList⟩ c =
            some ⟨done, .plain s.key.toList [c]⟩ := by
          simp [step, hspace, hslash, hquote]
        rw [run_cons, hstep, Option.bind_some,
          run_plain [c] fun d hd => hplain d (List.mem_cons_of_mem c hd), List.singleton_append]
    · simp [finish, put]
    · simp [step, put, isSpace]

theorem run_setting (hr : r.Ends done) (hs : s.IsClear) :
    ∃ r', r.run (' ' :: s.chars) = some r' ∧ r'.Ends (done ++ [(s.key, s.value)]) := by
  obtain ⟨r', hrun, hends⟩ := run_value done hs
  refine ⟨r', ?_, hends⟩
  have hchars : ' ' :: s.chars = (' ' :: (s.key.toList ++ ['='])) ++ s.valueChars := by
    simp [Setting.chars]
  rw [hchars, run_append, run_key hr hs]
  exact hrun

/-- Settings with blanks between them are read one by one. -/
theorem run_settings {settings : List Setting} (hr : r.Ends done)
    (hs : ∀ s ∈ settings, s.IsClear) :
    ∃ r', r.run (settings.flatMap fun s => ' ' :: s.chars) = some r' ∧
      r'.Ends (done ++ settings.map fun s => (s.key, s.value)) := by
  induction settings generalizing r done with
  | nil => exact ⟨r, rfl, by simpa using hr⟩
  | cons s settings ih =>
    obtain ⟨r', hrun, hends⟩ := run_setting hr (hs s List.mem_cons_self)
    obtain ⟨r'', hrun', hends'⟩ := ih hends fun s hmem => hs s (List.mem_cons_of_mem _ hmem)
    refine ⟨r'', ?_, by simpa using hends'⟩
    rw [List.flatMap_cons, run_append, hrun]
    exact hrun'

/-- Up to the end of its value the reader is within the quotes of a setting. -/
theorem run_within {before : List Setting} (hr : r.Ends done)
    (hbefore : ∀ s ∈ before, s.IsClear) (hs : s.IsClear) {part : List Char}
    (h : part <+: escaped s.value) :
    ∃ zone, r.run ((before.flatMap fun s => ' ' :: s.chars) ++ ' ' :: (s.key.toList ++ ['=']) ++
        '\'' :: part) = some ⟨done ++ before.map fun s => (s.key, s.value), zone⟩ ∧
      zone.isWithin s.key = true := by
  obtain ⟨r', hrun, hends⟩ := run_settings hr hbefore
  rw [escaped_eq] at h
  obtain ⟨zone, hpart, hzone⟩ := run_inside s.key [] h
  refine ⟨zone, ?_, hzone⟩
  rw [run_append, run_append, hrun, Option.bind_some, run_key hends hs, Option.bind_some]
  exact hpart

end Reader

end ConnectionText

/-! ## The text of a server -/

namespace PostgresTarget

open ConnectionText

/-- The settings that are sent to a server, in their order. -/
def sent (t : PostgresTarget) : List Setting :=
  [⟨"host", t.host, true⟩, ⟨"port", toString t.port, false⟩, ⟨"dbname", t.database, true⟩,
    ⟨"user", t.username, true⟩, ⟨"password", t.password, true⟩,
    ⟨"sslmode", t.sslMode.keyword, false⟩, ⟨"connect_timeout", toString t.connectTimeout, false⟩]

theorem toList_connectionString (t : PostgresTarget) :
    ' ' :: t.connectionString.toList = t.sent.flatMap fun s => ' ' :: s.chars := by
  unfold connectionString
  simp [sent, Setting.chars, Setting.valueChars, toList_quoteValue]

theorem isPlainChar_of_isDigit {c : Char} (h : c.isDigit = true) : Reader.IsPlainChar c := by
  simp only [Char.isDigit, Bool.and_eq_true, decide_eq_true_eq] at h
  refine ⟨?_, ?_, ?_⟩
  · have hlow : 48 ≤ c.toNat := h.1
    simp only [isSpace, Bool.or_eq_false_iff, Bool.and_eq_false_iff, beq_eq_false_iff_ne,
      decide_eq_false_iff_not]
    omega
  · rintro rfl
    exact absurd h (by decide)
  · rintro rfl
    exact absurd h (by decide)

theorem isClear_count {key : String} (hkey : key.toList ≠ [])
    (hplain : ∀ c ∈ key.toList, Reader.IsKeyChar c) (n : Nat) :
    (Setting.mk key (toString n) false).IsClear := by
  have hdigits : (toString n).toList = Nat.toDigits 10 n := String.toList_ofList
  refine ⟨hkey, hplain, fun _ => ?_, fun _ c hc => ?_⟩
  · rw [hdigits]
    exact Nat.toDigits_ne_nil
  · rw [hdigits] at hc
    exact isPlainChar_of_isDigit (Nat.isDigit_of_mem_toDigits (by decide) (by decide) hc)

theorem isClear_quoted {key : String} (hkey : key.toList ≠ [])
    (hplain : ∀ c ∈ key.toList, Reader.IsKeyChar c) (value : String) :
    (Setting.mk key value true).IsClear :=
  ⟨hkey, hplain, nofun, nofun⟩

theorem isClear_sent (t : PostgresTarget) : ∀ s ∈ t.sent, s.IsClear := by
  have hmode : (Setting.mk "sslmode" t.sslMode.keyword false).IsClear := by
    cases t.sslMode <;> constructor <;>
      simp [SslMode.keyword, Reader.IsKeyChar, Reader.IsPlainChar, isSpace]
  simp only [sent, List.forall_mem_cons, List.not_mem_nil, false_implies, implies_true, and_true]
  refine ⟨isClear_quoted ?_ ?_ _, isClear_count ?_ ?_ _, isClear_quoted ?_ ?_ _,
    isClear_quoted ?_ ?_ _, isClear_quoted ?_ ?_ _, hmode, isClear_count ?_ ?_ _⟩ <;>
      simp [Reader.IsKeyChar, isSpace]

/-- The text of a server's settings is read as those settings, each once, with all characters of
    the host, the database, the user and the password. From its opening quote on the reader leaves
    none of these four values before it has read all of it. -/
theorem connectionString_read (t : PostgresTarget) :
    settings? t.connectionString = some [("host", t.host), ("port", toString t.port),
      ("dbname", t.database), ("user", t.username), ("password", t.password),
      ("sslmode", t.sslMode.keyword), ("connect_timeout", toString t.connectTimeout)] ∧
    ∀ key value, (key, value) ∈ [("host", t.host), ("dbname", t.database), ("user", t.username),
        ("password", t.password)] →
      ∃ before after,
        t.connectionString.toList = before ++ '\'' :: (escaped value ++ '\'' :: after) ∧
        ∀ part, part <+: escaped value → ∃ r, Reader.start.run (before ++ '\'' :: part) = some r ∧
          r.zone.isWithin key = true := by
  have hblank (text : List Char) : Reader.start.run (' ' :: text) = Reader.start.run text := rfl
  have hstart : Reader.start.Ends [] := ⟨rfl, rfl⟩
  refine ⟨?_, fun key value hmem => ?_⟩
  · obtain ⟨r, hrun, hends⟩ := Reader.run_settings hstart t.isClear_sent
    rw [settings?, ← hblank, toList_connectionString, hrun, Option.bind_some, hends.1]
    rfl
  · have hsent : Setting.mk key value true ∈ t.sent := by
      simp only [List.mem_cons, Prod.mk.injEq, List.not_mem_nil, or_false] at hmem
      rcases hmem with ⟨rfl, rfl⟩ | ⟨rfl, rfl⟩ | ⟨rfl, rfl⟩ | ⟨rfl, rfl⟩ <;> simp [sent]
    obtain ⟨settings, others, hsplit⟩ := List.append_of_mem hsent
    have hclear := t.isClear_sent
    rw [hsplit, List.forall_mem_append, List.forall_mem_cons] at hclear
    -- The blank in front of the first setting is not sent.
    obtain ⟨before, hbefore⟩ : ∃ before, (settings.flatMap fun s => ' ' :: s.chars) ++
        ' ' :: (key.toList ++ ['=']) = ' ' :: before := by
      cases settings <;> exact ⟨_, rfl⟩
    refine ⟨before, others.flatMap fun s => ' ' :: s.chars, ?_, fun part hpart => ?_⟩
    · have htext := t.toList_connectionString
      rw [hsplit, List.flatMap_append, List.flatMap_cons] at htext
      apply List.cons_injective (a := ' ')
      rw [htext, ← List.cons_append, ← hbefore]
      simp [Setting.chars, Setting.valueChars]
    · rw [← hblank, ← List.cons_append, ← hbefore]
      obtain ⟨zone, hrun, hzone⟩ := Reader.run_within hstart hclear.1 hclear.2.1 hpart
      exact ⟨_, hrun, hzone⟩

end PostgresTarget

end ModelMapper
