import SqlWire.Proofs.Cleaning
import SqlWire.Proofs.Outcomes
import SqlWire.Proofs.TypeGrammar

/-! Settings and their values. A statement that begins with the word `SET` is cut at its first
equals sign, and a value in quotes loses them. The reader looks at the first and the last
character only, while the lexis says whether the two belong to one string. -/
namespace SqlWire.SetValues
open Lexeme Lexis Cleaning TypeGrammar

/-! ## Values in quotes -/

/-- A text in single quotes. -/
def quoted (inside : Text) : Text := '\'' :: (inside ++ ['\''])

/-- The text begins with a quote and ends with another, whatever stands between them. -/
def Wrapped (text : Text) : Prop := ∃ inside, text = quoted inside

/-- The text is one string of the lexis and nothing else. -/
def OneString (text : Text) : Prop := ∃ body, ofText text = [.string body true]

/-- The text begins with one string of the lexis and ends with another. -/
def SeveralStrings (text : Text) : Prop :=
  ∃ first middle last, ofText text = .string first true :: (middle ++ [.string last true])

/-- The value that a text is meant to give: what stands between the quotes of a string, and
any other text as it is. -/
inductive Meant : Text → Text → Prop where
  | string : StringInside inside → Meant (quoted inside) inside
  | other : ¬ OneString text → Meant text text

theorem inner_iff : (Text.dropLead? ['\''] text).bind (Text.dropLast? '\'') = some inside ↔
    text = quoted inside := by
  simp only [Option.bind_eq_some_iff, Text.dropLead?_iff, Text.dropLast?_iff]
  constructor
  · rintro ⟨rest, rfl, rfl⟩
    rfl
  · rintro rfl
    exact ⟨_, rfl, rfl⟩

private theorem unwrap_quoted (inside : Text) :
    StatementKind.unwrapQuotes (quoted inside) = inside := by
  rw [StatementKind.unwrapQuotes, inner_iff.mpr rfl]

private theorem unwrap_bare (bare : ¬ Wrapped text) : StatementKind.unwrapQuotes text = text := by
  rw [StatementKind.unwrapQuotes]
  split
  next inside found => exact absurd ⟨inside, inner_iff.mp found⟩ bare
  · rfl

theorem one_string_iff : OneString text ↔ ∃ inside, StringInside inside ∧ text = quoted inside := by
  constructor
  · rintro ⟨body, reads⟩
    have cut := text_joined text
    rw [reads] at cut
    obtain ⟨⟨inside, within, rfl⟩, -⟩ := cut
    refine ⟨inside, within, ?_⟩
    rw [← text_source text, reads, source_cons]
    simp [sourceOf, source, quoted]
  · rintro ⟨inside, within, rfl⟩
    have formed : Formed (.string (inside ++ ['\'']) true) := ⟨inside, within, rfl⟩
    have alone : Joined none [.string (inside ++ ['\'']) true] :=
      ⟨formed, by simp [sourceOf, EndsBefore], trivial⟩
    have reads := joined_alone alone
    exact ⟨inside ++ ['\''], by simpa [sourceOf, source, quoted] using reads⟩

private theorem one_string_wrapped (one : OneString text) : Wrapped text := by
  obtain ⟨inside, -, same⟩ := one_string_iff.mp one
  exact ⟨inside, same⟩

private theorem several_wrapped (several : SeveralStrings text) : Wrapped text := by
  obtain ⟨first, middle, last, reads⟩ := several
  have formed := joined_formed (text_joined text)
  rw [reads] at formed
  obtain ⟨inside, -, rfl⟩ : Formed (.string last true) := formed _ (by simp)
  refine ⟨first ++ sourceOf middle ++ '\'' :: inside, ?_⟩
  rw [← text_source text, reads]
  simp [sourceOf, source, quoted]

private theorem several_not_one (several : SeveralStrings text) : ¬ OneString text := by
  obtain ⟨first, middle, last, reads⟩ := several
  rintro ⟨body, single⟩
  rw [reads] at single
  simp at single

/-- Where nothing is left open, a text in quotes is one string or begins with one and ends
with another. -/
theorem wrapped_settled (settled : ∀ lexeme ∈ ofText text, Settled lexeme)
    (wrapped : Wrapped text) : OneString text ∨ SeveralStrings text := by
  obtain ⟨inside, rfl⟩ := wrapped
  have formed := joined_formed (text_joined (quoted inside))
  have opens : ofText (quoted inside) = _ := quote_opens
  generalize inString (inside ++ ['\'']) = pending at opens
  obtain ⟨body, closed, next⟩ := pending
  dsimp only at opens
  have first : Settled (.string body closed) := settled _ (opens ▸ List.mem_cons_self)
  cases first
  rcases List.eq_nil_or_concat next with rfl | ⟨middle, last, rfl⟩
  · exact .inl ⟨body, opens⟩
  · rw [List.concat_eq_append] at opens
    have member : last ∈ ofText (quoted inside) := by simp [opens]
    -- The last lexeme ends in a quote, and only strings do.
    have ends : last.source.getLast? = some '\'' := by
      rw [← source_stops (.string body true :: middle), List.cons_append, ← opens, text_source,
        quoted, ← List.cons_append, List.getLast?_concat]
    cases settled last member with
    | @string ending => exact .inr ⟨body, middle, ending, opens⟩
    | identifier =>
      obtain ⟨within, -, rfl⟩ := formed _ member
      rw [source, ← List.cons_append, List.getLast?_concat] at ends
      cases ends
    | char => exact absurd (Option.some.inj ends) (formed _ member).1

/-- What is meant is read unless a text in quotes is not one string. -/
theorem unwrap_meant_iff (text : Text) : Meant text (StatementKind.unwrapQuotes text) ↔
    (Wrapped text → OneString text) := by
  constructor
  · rintro meant ⟨inside, rfl⟩
    rw [unwrap_quoted] at meant
    generalize whole : quoted inside = text at meant
    cases meant with
    | string within => exact one_string_iff.mpr ⟨inside, within, rfl⟩
    | other none =>
      have length := congrArg List.length whole
      simp [quoted] at length
      omega
  · intro one
    by_cases wrapped : Wrapped text
    · obtain ⟨inside, within, rfl⟩ := one_string_iff.mp (one wrapped)
      rw [unwrap_quoted]
      exact .string within
    · rw [unwrap_bare wrapped]
      exact .other (mt one_string_wrapped wrapped)

/-! ## Statements that set -/

/-- How a statement is made up that sets the key to what `text` says: the word `SET` in any
case, a blank, the key up to the first equals sign, and the text behind it. -/
structure Assigns (clean key text : Text) : Prop where
  parts : ∃ word front back, clean = word ++ (front ++ '=' :: back) ∧
    Spells "set".toList word ∧ (∃ c ∈ front.head?, Text.isAsciiBlank c = true) ∧ '=' ∉ front ∧
    key = Text.trim front ∧ text = Text.trim back
  filled : key ≠ []
  valued : text ≠ []

theorem set_body_iff {clean body : Text} : StatementKind.setBody? clean = some body ↔
    ∃ word, clean = word ++ body ∧ Spells "set".toList word ∧
      ∃ c ∈ body.head?, Text.isAsciiBlank c = true := by
  constructor
  · intro found
    rw [StatementKind.setBody?] at found
    split at found
    next c rest dropped =>
      split at found
      next blank =>
        cases found
        obtain ⟨word, parts, spells⟩ := drop_word_iff.mp dropped
        exact ⟨word, parts, spells, c, rfl, blank⟩
      · cases found
    · cases found
  · rintro ⟨word, parts, spells, c, first, blank⟩
    obtain ⟨rest, rfl⟩ := List.head?_eq_some_iff.mp first
    have dropped : Text.dropWord? "set".toList clean = some (c :: rest) :=
      drop_word_iff.mpr ⟨word, parts, spells⟩
    simp only [StatementKind.setBody?, dropped, blank, if_true]

/-- The blank behind the word stands in front of the equals sign. -/
theorem blank_before (front back : Text) :
    (∃ c ∈ (front ++ '=' :: back).head?, Text.isAsciiBlank c = true) ↔
      ∃ c ∈ front.head?, Text.isAsciiBlank c = true := by
  cases front with
  | nil => simp [Text.isAsciiBlank]
  | cons c front => rfl

/-- A statement assigns what stands around the first equals sign behind its word. -/
theorem assigns_iff {clean key text : Text} : Assigns clean key text ↔
    ∃ body front back, StatementKind.setBody? clean = some body ∧
      Text.cutAt (· = '=') body = some (front, back) ∧ key = Text.trim front ∧
      text = Text.trim back ∧ key ≠ [] ∧ text ≠ [] := by
  constructor
  · rintro ⟨⟨word, front, back, parts, spells, blank, clear, own, behind⟩, filled, valued⟩
    refine ⟨front ++ '=' :: back, front, back, ?_, ?_, own, behind, filled, valued⟩
    · exact set_body_iff.mpr ⟨word, parts, spells, (blank_before front back).mpr blank⟩
    · exact Text.cutAt_eq_some_iff.mpr ⟨'=', rfl, by simp,
        fun d member => decide_eq_false fun same => clear (same ▸ member)⟩
  · rintro ⟨body, front, back, found, cut, own, behind, filled, valued⟩
    obtain ⟨word, parts, spells, blank⟩ := set_body_iff.mp found
    obtain ⟨c, rfl, equals, clear⟩ := Text.cutAt_eq_some_iff.mp cut
    obtain rfl : c = '=' := of_decide_eq_true equals
    exact ⟨⟨word, front, back, parts, spells, (blank_before front back).mp blank,
      fun member => of_decide_eq_false (clear _ member) rfl, own, behind⟩, filled, valued⟩

/-- A statement assigns one text to one key. -/
theorem assigns_unique {clean key text otherKey otherText : Text} (one : Assigns clean key text)
    (other : Assigns clean otherKey otherText) : key = otherKey ∧ text = otherText := by
  obtain ⟨body, front, back, found, cut, rfl, rfl, -⟩ := assigns_iff.mp one
  obtain ⟨again, before, after, same, cutAgain, rfl, rfl, -⟩ := assigns_iff.mp other
  obtain rfl : body = again := Option.some.inj (found.symm.trans same)
  cases cut.symm.trans cutAgain
  exact ⟨rfl, rfl⟩

/-- The statements that set a key are those that assign it a text. -/
theorem sets_iff {clean key value : Text} :
    StatementKind.ofClean clean = .ok (.setParameter key value) ↔
      ∃ text, Assigns clean key text ∧ value = StatementKind.unwrapQuotes text := by
  constructor
  · intro kind
    rw [StatementKind.ofClean] at kind
    split at kind
    next body found =>
      obtain ⟨⟨own, meant⟩, read, same⟩ := Outcomes.map_ok kind
      cases same
      rw [StatementKind.readAssignment] at read
      split at read
      · cases read
      next front back cut =>
        dsimp only at read
        split at read
        · cases read
        next some =>
          cases read
          rw [Bool.or_eq_true, not_or, List.isEmpty_iff, List.isEmpty_iff] at some
          exact ⟨_, assigns_iff.mpr ⟨body, front, back, found, cut, rfl, rfl, some⟩, rfl⟩
    · split at kind <;> cases kind
  · rintro ⟨text, assigns, rfl⟩
    obtain ⟨body, front, back, found, cut, rfl, rfl, filled, valued⟩ := assigns_iff.mp assigns
    have read : StatementKind.readAssignment body =
        .ok (Text.trim front, StatementKind.unwrapQuotes (Text.trim back)) := by
      simp [StatementKind.readAssignment, cut, filled, valued]
    rw [StatementKind.ofClean, found]
    dsimp only
    rw [read]
    rfl

/-- An equals sign stands behind the key, not in it. -/
theorem key_clear {clean key text : Text} (assigns : Assigns clean key text) : '=' ∉ key := by
  obtain ⟨⟨word, front, back, -, -, -, clear, rfl, -⟩, -⟩ := assigns
  obtain ⟨gap, tail, parts, -⟩ := trim_parts front
  intro member
  rw [parts] at clear
  exact clear (by simp [member])

/-! ## The lexis of a value -/

/-- Characters that open no quotes are lexemes of their own in front of settled ones. -/
theorem behind_plain {lexemes : List Lexeme} {front back : Text}
    (settled : ∀ lexeme ∈ lexemes, Settled lexeme) (plain : ∀ c ∈ front, c ∉ ['\'', '"'])
    (parts : sourceOf lexemes = front ++ back) :
    ∃ others, others <:+ lexemes ∧ sourceOf others = back := by
  induction front generalizing lexemes with
  | nil => exact ⟨lexemes, List.suffix_rfl, parts⟩
  | cons c front ih =>
    obtain ⟨here, behind⟩ := List.forall_mem_cons.mp plain
    cases lexemes with
    | nil => cases parts
    | cons lexeme lexemes =>
      obtain ⟨first, rest⟩ := List.forall_mem_cons.mp settled
      rw [source_cons] at parts
      cases first with
      | string =>
        obtain ⟨rfl, -⟩ := List.cons.inj parts
        exact absurd List.mem_cons_self here
      | identifier =>
        obtain ⟨rfl, -⟩ := List.cons.inj parts
        exact absurd (List.mem_cons_of_mem _ List.mem_cons_self) here
      | char =>
        obtain ⟨others, suffix, same⟩ := ih rest behind (List.cons.inj parts).2
        exact ⟨others, suffix.trans (List.suffix_cons ..), same⟩

private theorem blank_plain (blank : Text.isBlank c = true) : c ∉ ['\'', '"'] := by
  intro mark
  simp only [List.mem_cons, List.not_mem_nil, or_false] at mark
  rcases mark with rfl | rfl <;> cases blank

/-- No quote is a letter of the word. -/
theorem word_plain (spells : Spells "set".toList word) : ∀ c ∈ word, c ∉ ['\'', '"'] := by
  intro c member mark
  have lower : c.toLower ∈ Text.fold "set".toList := spells ▸ List.mem_map_of_mem member
  have letters : ∀ d ∈ ['\'', '"'], d.toLower ∉ Text.fold "set".toList := by
    simp [Text.fold]
  exact letters c mark lower

/-- No quote is among the blanks that trimming leaves out. -/
theorem trimmed_plain {front : Text} (plain : ∀ c ∈ Text.trim front, c ∉ ['\'', '"']) :
    ∀ c ∈ front, c ∉ ['\'', '"'] := by
  obtain ⟨gap, tail, parts, before, behind, -⟩ := trim_parts front
  intro c member
  rw [parts, List.mem_append, List.mem_append] at member
  rcases member with first | core | last
  · exact blank_plain (before c first)
  · exact plain c core
  · exact blank_plain (behind c last)

/-- Behind a key without quotes, nothing in the text of a clean statement is left open. -/
theorem value_settled {key text : Text} (clean : IsClean lexemes)
    (assigns : Assigns (sourceOf lexemes) key text) (unquoted : ∀ c ∈ key, c ∉ ['\'', '"']) :
    ∀ lexeme ∈ ofText text, Settled lexeme := by
  obtain ⟨⟨word, front, back, parts, spells, -, -, rfl, rfl⟩, -⟩ := assigns
  obtain ⟨gap, blank, behind, -⟩ := Text.trimStart_parts back
  have whole : sourceOf lexemes = (word ++ (front ++ '=' :: gap)) ++ Text.trimStart back := by
    rw [parts, List.append_assoc, List.append_assoc, List.cons_append, ← behind]
  -- No blank ends a clean text, so there is none to trim behind the value.
  have trimmed : Text.trim back = Text.trimStart back := by
    apply Text.trimEnd_eq_self
    intro c last
    apply (clean_solid clean).2 c
    rw [whole, List.getLast?_append, last, Option.some_or]
    rfl
  rw [trimmed]
  have plain : ∀ c ∈ word ++ (front ++ '=' :: gap), c ∉ ['\'', '"'] := by
    intro c member
    rw [List.mem_append, List.mem_append, List.mem_cons] at member
    rcases member with letter | key | rfl | last
    · exact word_plain spells c letter
    · exact trimmed_plain unquoted c key
    · decide
    · exact blank_plain (blank c last)
  obtain ⟨others, suffix, same⟩ := behind_plain clean.settled plain whole
  rw [← same, joined_alone (joined_part suffix.isInfix clean.joined)]
  exact fun lexeme member => clean.settled lexeme (suffix.subset member)

/-! ## Settings of a script -/

/-- How a value is read from its text. It loses a quote at both ends when it has them, which
is what is meant only for one string. Behind a key without quotes, a text in quotes that is not
one string begins with one and ends with another. -/
structure Reads (key text value : Text) : Prop where
  wrapped : ∀ inside, text = quoted inside → value = inside
  bare : ¬ Wrapped text → value = text
  meant : Meant text value ↔ (Wrapped text → OneString text)
  apart : (∀ c ∈ key, c ∉ ['\'', '"']) → (Meant text value ↔ ¬ SeveralStrings text)

/-- Settings are read from the texts around their first equals sign. For every statement that
a split finds to set a key: the key is what stands between the word and the first equals sign
without the blanks around it, is not empty and has no equals sign; the text of the value is
what stands behind it, likewise, and is not empty; and the value is the one that is meant
unless that text begins and ends with quotes that are not those of one string. -/
theorem settings_are_read {key value : Text} (ok : Script.split sql = .ok script)
    (member : statement ∈ script.statements) (kind : statement.kind = .setParameter key value) :
    ∃ text, Assigns statement.clean key text ∧ '=' ∉ key ∧ Reads key text value := by
  obtain ⟨lexemes, clean, source, -, classified⟩ := split_statement ok member
  rw [kind] at classified
  obtain ⟨text, assigns, rfl⟩ := sets_iff.mp classified
  have exact_iff := unwrap_meant_iff text
  refine ⟨text, assigns, key_clear assigns, ?_, unwrap_bare, exact_iff, ?_⟩
  · rintro inside rfl
    exact unwrap_quoted inside
  · intro unquoted
    rw [source] at assigns
    have settled := value_settled clean assigns unquoted
    rw [exact_iff]
    constructor
    · intro one several
      exact several_not_one several (one (several_wrapped several))
    · intro alone wrapped
      exact (wrapped_settled settled wrapped).resolve_right alone

/-- The value of a parameter that is one string with an equals sign in it. -/
theorem string_setting_is_read :
    ∃ script statement, Script.split "set\tx = 'a=b' ; SELECT 1".toList = .ok script ∧
      statement ∈ script.statements ∧ statement.kind = .setParameter ['x'] "a=b".toList ∧
      ∃ text, Assigns statement.clean ['x'] text ∧ '=' ∉ ['x'] ∧ Reads ['x'] text "a=b".toList := by
  have kinds : (Script.split "set\tx = 'a=b' ; SELECT 1".toList).map
      (fun script => script.statements.map Statement.kind) =
      .ok [.setParameter ['x'] "a=b".toList, .query none none] := by
    decide +kernel
  obtain ⟨script, ok, same⟩ := Outcomes.map_ok kinds
  obtain ⟨statement, others, parts, kind, -⟩ := List.map_eq_cons_iff.mp same.symm
  have member : statement ∈ script.statements := parts ▸ List.mem_cons_self
  exact ⟨script, statement, ok, member, kind, settings_are_read ok member kind⟩

/-- Two strings with an operator between them lose the first quote of one and the last of the
other. -/
theorem joined_strings_are_stripped :
    ∃ script statement, Script.split "SET a = 'x' || 'y'".toList = .ok script ∧
      statement ∈ script.statements ∧
      statement.kind = .setParameter ['a'] "x' || 'y".toList ∧
      Assigns statement.clean ['a'] "'x' || 'y'".toList ∧
      ∀ text, Assigns statement.clean ['a'] text → ¬ Meant text "x' || 'y".toList := by
  have found : (Script.split "SET a = 'x' || 'y'".toList).map
      (fun script => script.statements.map fun statement => (statement.kind, statement.clean)) =
      .ok [(.setParameter ['a'] "x' || 'y".toList, "SET a = 'x' || 'y'".toList)] := by
    decide +kernel
  obtain ⟨script, ok, same⟩ := Outcomes.map_ok found
  obtain ⟨statement, others, parts, shows, -⟩ := List.map_eq_cons_iff.mp same.symm
  obtain ⟨kind, clean⟩ := Prod.mk.inj shows
  have assigns : Assigns statement.clean ['a'] "'x' || 'y'".toList := by
    rw [clean]
    exact ⟨⟨"SET".toList, " a ".toList, " 'x' || 'y'".toList, rfl, rfl, ⟨' ', rfl, rfl⟩,
      by decide, by decide +kernel, by decide +kernel⟩, by decide, by decide⟩
  refine ⟨script, statement, ok, parts ▸ List.mem_cons_self, kind, assigns, ?_⟩
  intro text other meant
  obtain ⟨-, rfl⟩ := assigns_unique assigns other
  have several : SeveralStrings "'x' || 'y'".toList :=
    ⟨"x'".toList, " || ".toList.map .char, "y'".toList, by decide +kernel⟩
  exact several_not_one several ((unwrap_meant_iff _).mp meant (several_wrapped several))

end SqlWire.SetValues
