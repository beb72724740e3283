import SqlWire.Proofs.Cleaning
import SqlWire.Proofs.Outcomes
import SqlWire.Proofs.ReadBack

/-! The grammar of bracketed literals, and that the reader accepts just the texts of it. The
grammar says nothing of positions, of the nesting a reader can bear or of the order in which
it looks: a literal is a node between blanks, and a list or group holds such literals with
commas between them. -/
namespace SqlWire.LiteralGrammar
open Literal Cleaning Outcomes

/-! ## The grammar -/

/-- What stands between the quotes of a token, and the token: plain characters, backslash
escapes and doubled quotes. -/
inductive Body (quote : Char) : Text → Text → Prop where
  | nil : Body quote [] []
  | plain (unescaped : c ≠ '\\') (unquoted : c ≠ quote) (rest : Body quote body token) :
      Body quote (c :: body) (c :: token)
  | escaped (c : Char) (rest : Body quote body token) :
      Body quote ('\\' :: c :: body) (Text.unescapeChar c :: token)
  | doubled (rest : Body quote body token) : Body quote (quote :: quote :: body) (quote :: token)

/-- A token without quotes. It may be empty. -/
structure Bare (token : Text) : Prop where
  starts : ∀ c ∈ token.head?, Text.isBlank c = false
  stops : ∀ c ∈ token.getLast?, Text.isBlank c = false
  opens : ∀ c ∈ token.head?, c ∉ ['[', '(', '\'', '"']
  within : ∀ c ∈ token, c ∉ [',', ']', ')']

inductive Bracket where
  | square
  | round
deriving DecidableEq, Repr

namespace Bracket

def opening : Bracket → Char
  | .square => '['
  | .round => '('

def closing : Bracket → Char
  | .square => ']'
  | .round => ')'

def tree : Bracket → List Literal → Literal
  | .square => .list
  | .round => .group

end Bracket

/-- A node as it stands in a text, between blanks. -/
structure Member where
  front : Text
  core : Text
  back : Text
  node : Literal
  front_blank : ∀ c ∈ front, Text.isBlank c
  back_blank : ∀ c ∈ back, Text.isBlank c

def Member.text (member : Member) : Text := member.front ++ (member.core ++ member.back)

/-- The texts of a node, without blanks around it. The only member of a sequence is not the
empty token, since a sequence of nothing but blanks has no members. -/
inductive Node : Text → Literal → Prop where
  | bare (token : Bare text) : Node text (.bare text)
  | quoted (mark : quote = '\'' ∨ quote = '"') (body : Body quote inside token) :
      Node (quote :: (inside ++ [quote])) (.quoted token)
  | empty (bracket : Bracket) (blank : ∀ c ∈ gap, Text.isBlank c) :
      Node (bracket.opening :: (gap ++ [bracket.closing])) (bracket.tree [])
  | sequence (bracket : Bracket) (members : List Member) (some : members ≠ [])
      (several : members.map Member.node ≠ [.bare []])
      (each : ∀ member ∈ members, Node member.core member.node) :
      Node (bracket.opening :: (Text.joinWith [','] (members.map Member.text) ++
        [bracket.closing])) (bracket.tree (members.map Member.node))

/-- A text writes a literal: it is a node between blanks, and not an empty token. -/
def Writes (text : Text) (literal : Literal) : Prop :=
  ∃ member : Member, text = member.text ∧ literal = member.node ∧
    Node member.core member.node ∧ literal ≠ .bare []

/-! ## Tokens -/

theorem ends_bare_iff (c : Char) : endsBare c = true ↔ c ∈ [',', ']', ')'] := by
  simp [endsBare, or_assoc]

private theorem ends_solid (ends : endsBare c = true) : Text.isBlank c = false := by
  rw [ends_bare_iff] at ends
  simp only [List.mem_cons, List.not_mem_nil, or_false] at ends
  rcases ends with rfl | rfl | rfl <;> rfl

private theorem quoted_sound (reads : readQuoted quote text = .ok (token, after)) :
    ∃ body, text = body ++ quote :: after ∧ Body quote body token ∧ after.head? ≠ some quote := by
  fun_induction readQuoted quote text generalizing token with
  | case1 => cases reads
  | case2 => cases reads
  | case3 unescaped =>
    cases reads
    exact ⟨[], rfl, .nil, by simp⟩
  | case4 => cases reads
  | case5 d rest ih =>
    obtain ⟨⟨inner, behind⟩, found, same⟩ := map_ok reads
    cases same
    obtain ⟨body, rfl, holds, ends⟩ := ih found
    exact ⟨'\\' :: d :: body, rfl, .escaped d holds, ends⟩
  | case6 rest unescaped ih =>
    obtain ⟨⟨inner, behind⟩, found, same⟩ := map_ok reads
    cases same
    obtain ⟨body, rfl, holds, ends⟩ := ih found
    exact ⟨quote :: quote :: body, rfl, .doubled holds, ends⟩
  | case7 d rest single unescaped =>
    cases reads
    exact ⟨[], rfl, .nil, by simpa using single⟩
  | case8 c d rest unescaped unquoted ih =>
    obtain ⟨⟨inner, behind⟩, found, same⟩ := map_ok reads
    cases same
    obtain ⟨body, parts, holds, ends⟩ := ih found
    exact ⟨c :: body, by rw [parts]; rfl, .plain unescaped unquoted holds, ends⟩

private theorem quoted_complete (unescaping : quote ≠ '\\') (body : Body quote inside token)
    (ends : after.head? ≠ some quote) :
    readQuoted quote (inside ++ quote :: after) = .ok (token, after) := by
  induction body with
  | nil =>
    cases after with
    | nil => simp [readQuoted, unescaping]
    | cons d after =>
      have single : d ≠ quote := by simpa using ends
      simp [readQuoted, unescaping, single]
  | @plain c body token unescaped unquoted rest ih =>
    rw [List.cons_append]
    cases behind : body ++ quote :: after with
    | nil => simp at behind
    | cons d behind' =>
      rw [behind] at ih
      simp [readQuoted, unescaped, unquoted, ih, Except.map]
  | escaped c rest ih => simp [readQuoted, ih, Except.map]
  | doubled rest ih => simp [readQuoted, unescaping, ih, Except.map]

/-- A comma or a closing bracket stands next, or nothing does. -/
def Ends (after : Text) : Prop := ∀ c ∈ after.head?, endsBare c

/-- A run of characters that end no bare token, up to one that does. -/
theorem run_spans {run : Text} (passes : ∀ c ∈ run, endsBare c = false) (ends : Ends after) :
    (run ++ after).span (fun c => !endsBare c) = (run, after) := by
  have passed : ∀ c ∈ run, (!endsBare c) = true := fun c member => by simp [passes c member]
  have stopped : after.takeWhile (fun c => !endsBare c) = [] ∧
      after.dropWhile (fun c => !endsBare c) = after := by
    cases after with
    | nil => exact ⟨rfl, rfl⟩
    | cons c after => simp [ends c rfl]
  rw [List.span_eq_takeWhile_dropWhile, List.takeWhile_append_of_pos passed,
    List.dropWhile_append_of_pos passed, stopped.1, stopped.2, List.append_nil]

/-! ## Blanks -/

/-- A text is blanks and what is left without them. -/
theorem trim_start_twice (text : Text) :
    Text.trimStart (Text.trimStart text) = Text.trimStart text := by
  obtain ⟨-, -, -, solid⟩ := Text.trimStart_parts text
  exact Text.trimStart_eq_self solid

/-- A reader of nodes skips the blanks before one. -/
theorem node_skips_blanks (depth : Nat) (text : Text) :
    readNode depth (Text.trimStart text) = readNode depth text := by
  cases depth with
  | zero => rfl
  | succ depth => rw [readNode, readNode, trim_start_twice]

private theorem more_skips_blanks (depth : Nat) (close : Char) (within text : Text) :
    readMore (readNode depth) close within (Text.trimStart text) =
      readMore (readNode depth) close within text := by
  cases within with
  | nil => rfl
  | cons c within => rw [readMore, readMore, node_skips_blanks]

/-! ## What is read is written -/

/-- What a reader finds is a node, with blanks around it, at the beginning of its text. Where
that is the empty token, the reader has passed over blanks only, and not come to the end. -/
def Sound (item : Text → Except Fault (Literal × Text)) : Prop :=
  ∀ text node after, item text = .ok (node, after) →
    ∃ member : Member, text = member.text ++ after ∧ member.node = node ∧
      Node member.core node ∧ (node = .bare [] → Text.trimStart text = after ∧ after ≠ [])

/-- Blanks behind a member may count as its own. -/
def Member.before (member : Member) (gap : Text) (blank : ∀ c ∈ gap, Text.isBlank c) : Member :=
  { member with
    back := member.back ++ gap
    back_blank := fun c listed =>
      (List.mem_append.mp listed).elim (member.back_blank c) (blank c) }

private theorem before_text (member : Member) (blank : ∀ c ∈ gap, Text.isBlank c) :
    (member.before gap blank).text = member.text ++ gap := by
  simp only [Member.text, Member.before, List.append_assoc]

private theorem more_sound (sound : Sound item)
    (reads : readMore item close within text = .ok (items, after)) :
    ∃ members : List Member,
      text = Text.joinWith [','] (members.map Member.text) ++ close :: after ∧
      members.map Member.node = items ∧ members ≠ [] ∧
      (∀ member ∈ members, Node member.core member.node) ∧
      (items = [.bare []] → Text.trimStart text = close :: after) := by
  induction within generalizing text items with
  | nil => cases reads
  | cons w within ih =>
    rw [readMore] at reads
    obtain ⟨⟨first, behind⟩, found, reads⟩ := bind_ok reads
    obtain ⟨member, rfl, rfl, node, idle⟩ := sound text first behind found
    obtain ⟨gap, blank, parts, -⟩ := Text.trimStart_parts behind
    dsimp only at reads
    split at reads
    · cases reads
    next c rest trimmed =>
      rw [trimmed] at parts
      split at reads
      next comma =>
        obtain ⟨⟨nodes, last⟩, others, same⟩ := bind_ok reads
        cases same
        obtain ⟨members, same, nodes, some, each, -⟩ := ih others
        refine ⟨member.before gap blank :: members, ?_, ?_, List.cons_ne_nil _ _,
          List.forall_mem_cons.mpr ⟨node, each⟩, ?_⟩
        · obtain ⟨next, more, rfl⟩ := List.exists_cons_of_ne_nil some
          rw [parts, same, comma]
          simp [Text.joinWith, before_text]
        · rw [List.map_cons, nodes]
          rfl
        · intro single
          rw [← nodes] at single
          simp [some] at single
      split at reads
      next closes =>
        cases reads
        refine ⟨[member.before gap blank], ?_, rfl, List.cons_ne_nil _ _, ?_, ?_⟩
        · rw [parts, closes]
          simp [Text.joinWith, before_text]
        · exact List.forall_mem_singleton.mpr node
        · intro single
          obtain ⟨skipped, -⟩ := idle (List.cons.inj single).1
          rw [← skipped, trim_start_twice] at trimmed
          rw [trimmed, closes]
      · cases reads

private theorem items_sound (bracket : Bracket) (sound : Sound (readNode depth))
    (reads : readItems (readNode depth) bracket.closing text = .ok (items, after)) :
    ∃ inside, text = inside ++ bracket.closing :: after ∧
      Node (bracket.opening :: (inside ++ [bracket.closing])) (bracket.tree items) := by
  obtain ⟨front, blank, parts, -⟩ := Text.trimStart_parts text
  rw [readItems] at reads
  split at reads
  · cases reads
  next c rest trimmed =>
    split at reads
    next closes =>
      cases reads
      exact ⟨front, by rw [← closes, ← trimmed]; exact parts, .empty bracket blank⟩
    next other =>
      rw [← trimmed, more_skips_blanks] at reads
      obtain ⟨members, same, rfl, some, each, alone⟩ := more_sound sound reads
      refine ⟨_, same, .sequence bracket members some (fun single => ?_) each⟩
      rw [alone single] at trimmed
      exact other (List.cons.inj trimmed).1.symm

private theorem bracket_sound (bracket : Bracket) (sound : Sound (readNode depth))
    (blank : ∀ c ∈ front, Text.isBlank c)
    (reads : ((readItems (readNode depth) bracket.closing rest).map fun (items, after) =>
      (bracket.tree items, after)) = .ok (node, after)) :
    ∃ member : Member, front ++ bracket.opening :: rest = member.text ++ after ∧
      member.node = node ∧ Node member.core node ∧ node ≠ .bare [] := by
  obtain ⟨⟨items, behind⟩, found, same⟩ := map_ok reads
  cases same
  obtain ⟨inside, rfl, holds⟩ := items_sound bracket sound found
  have nothing : ∀ c ∈ ([] : Text), Text.isBlank c := by simp
  refine ⟨⟨front, _, [], _, blank, nothing⟩, ?_, rfl, holds, ?_⟩
  · simp [Member.text]
  · cases bracket <;> simp [Bracket.tree]

private theorem span_parts {list : List α} (spans : list.span p = (taken, after)) :
    list = taken ++ after := by
  rw [List.span_eq_takeWhile_dropWhile] at spans
  cases spans
  exact List.takeWhile_append_dropWhile.symm

/-- The run of characters of a bare token is the token and the blanks behind it. Only a
character that ends a token makes it empty. -/
theorem run_sound (solid : Text.isBlank c = false) (plain : c ∉ ['[', '(', '\'', '"'])
    (run : (c :: rest).span (fun c => !endsBare c) = (taken, after)) :
    ∃ core back, taken = core ++ back ∧ (∀ d ∈ back, Text.isBlank d) ∧ Text.trim taken = core ∧
      Bare core ∧ (core = [] → after = c :: rest) := by
  rw [List.span_eq_takeWhile_dropWhile] at run
  obtain ⟨rfl, rfl⟩ := Prod.mk.inj run
  have inside : ∀ d ∈ (c :: rest).takeWhile (fun c => !endsBare c), d ∉ [',', ']', ')'] := by
    intro d member
    have passed := List.mem_takeWhile_imp member
    rw [← ends_bare_iff]
    simpa using passed
  by_cases ends : endsBare c = true
  · rw [List.takeWhile_cons_of_neg (by simp [ends]), List.dropWhile_cons_of_neg (by simp [ends])]
    exact ⟨[], [], rfl, by simp, rfl, ⟨by simp, by simp, by simp, by simp⟩, fun _ => rfl⟩
  · rw [List.takeWhile_cons_of_pos (by simp [ends])] at inside ⊢
    obtain ⟨front, core, back, parts, before, behind, starts, stops⟩ :=
      surrounded Text.isBlank (c :: rest.takeWhile fun c => !endsBare c)
    cases front with
    | cons d front =>
      rw [List.cons_append, List.cons.injEq] at parts
      have blank := before d List.mem_cons_self
      rw [← parts.1, solid] at blank
      cases blank
    | nil =>
      rw [List.nil_append] at parts
      rw [parts] at inside ⊢
      have trimmed := trim_surrounded before behind starts stops
      cases core with
      | nil =>
        rw [List.nil_append] at parts
        have blank := behind c (parts ▸ List.mem_cons_self)
        rw [solid] at blank
        cases blank
      | cons d core =>
        rw [List.cons_append, List.cons.injEq] at parts
        obtain ⟨rfl, -⟩ := parts
        refine ⟨c :: core, back, rfl, behind, trimmed, ⟨starts, stops, ?_, ?_⟩, ?_⟩
        · rintro d ⟨⟩
          exact plain
        · exact fun d member => inside d (List.mem_append_left _ member)
        · intro nothing
          cases nothing

/-- What a reader of nodes finds is written there. -/
theorem node_sound (depth : Nat) : Sound (readNode depth) := by
  induction depth with
  | zero =>
    intro text node after reads
    cases reads
  | succ depth ih =>
    intro text node after reads
    obtain ⟨front, blank, parts, solid⟩ := Text.trimStart_parts text
    rw [readNode] at reads
    split at reads
    · cases reads
    next c rest trimmed =>
      rw [trimmed] at parts solid
      have nothing : ∀ d ∈ ([] : Text), Text.isBlank d := by simp
      split at reads
      next opens =>
        obtain ⟨member, whole, same, holds, full⟩ := bracket_sound .square ih blank reads
        exact ⟨member, by rw [parts, opens, ← whole, Bracket.opening], same, holds,
          fun empty => absurd empty full⟩
      split at reads
      next opens =>
        obtain ⟨member, whole, same, holds, full⟩ := bracket_sound .round ih blank reads
        exact ⟨member, by rw [parts, opens, ← whole, Bracket.opening], same, holds,
          fun empty => absurd empty full⟩
      split at reads
      next mark =>
        obtain ⟨⟨token, behind⟩, found, same⟩ := map_ok reads
        cases same
        obtain ⟨inside, rfl, holds, -⟩ := quoted_sound found
        have quotes : c = '\'' ∨ c = '"' := by simpa using mark
        refine ⟨⟨front, _, [], _, blank, nothing⟩, ?_, rfl, .quoted quotes holds, by simp⟩
        rw [parts]
        simp [Member.text]
      next list group quotes =>
        have plain : c ∉ ['[', '(', '\'', '"'] := by
          simp only [Bool.or_eq_true, decide_eq_true_eq, not_or] at quotes
          simp [list, group, quotes]
        cases run : (c :: rest).span (fun c => !endsBare c) with
        | mk taken behind =>
          obtain ⟨core, back, rfl, blanks, token, holds, idle⟩ :=
            run_sound (solid c rfl) plain run
          have whole := span_parts run
          rw [run] at reads
          dsimp only at reads
          rw [token] at reads
          cases reads
          refine ⟨⟨front, core, back, _, blank, blanks⟩, ?_, rfl, .bare holds, ?_⟩
          · rw [parts, whole]
            simp [Member.text]
          · intro empty
            cases empty
            have left := idle rfl
            rw [left]
            exact ⟨trimmed, List.cons_ne_nil _ _⟩

/-! ## What is written is read -/

private theorem ends_trimmed (ends : Ends after) : Text.trimStart after = after :=
  Text.trimStart_eq_self fun c first => ends_solid (ends c first)

private theorem blanks_run {back : Text} (blank : ∀ c ∈ back, Text.isBlank c) :
    ∀ c ∈ back, endsBare c = false := by
  intro c member
  by_contra ends
  have solid := ends_solid (Bool.eq_true_of_not_eq_false ends)
  rw [blank c member] at solid
  cases solid

/-- Neither a blank nor what ends a token begins a node, and only the empty token has no
beginning. -/
theorem node_starts (node : Node core literal) : core = [] ∧ literal = .bare [] ∨
    ∃ c rest, core = c :: rest ∧ Text.isBlank c = false ∧ endsBare c = false := by
  cases node with
  | bare token =>
    cases core with
    | nil => exact .inl ⟨rfl, rfl⟩
    | cons c rest =>
      refine .inr ⟨c, rest, rfl, token.starts c rfl, ?_⟩
      rw [← Bool.not_eq_true, ends_bare_iff]
      exact token.within c List.mem_cons_self
  | quoted mark body => rcases mark with rfl | rfl <;> exact .inr ⟨_, _, rfl, rfl, rfl⟩
  | empty bracket blank => cases bracket <;> exact .inr ⟨_, _, rfl, rfl, rfl⟩
  | sequence bracket members some several each =>
    cases bracket <;> exact .inr ⟨_, _, rfl, rfl, rfl⟩

private theorem node_stops (node : Node core literal) :
    ∀ c ∈ core.getLast?, Text.isBlank c = false := by
  cases node with
  | bare token => exact token.stops
  | quoted mark body =>
    rw [← List.cons_append, List.getLast?_concat]
    rintro c ⟨⟩
    rcases mark with rfl | rfl <;> rfl
  | empty bracket blank =>
    rw [← List.cons_append, List.getLast?_concat]
    rintro c ⟨⟩
    cases bracket <;> rfl
  | sequence bracket members some several each =>
    rw [← List.cons_append, List.getLast?_concat]
    rintro c ⟨⟩
    cases bracket <;> rfl

/-- A reader finds this node at the beginning of the text of its member. -/
def Finds (item : Text → Except Fault (Literal × Text)) (member : Member) : Prop :=
  ∀ after, Ends after → (member.core = [] → after ≠ []) →
    ∃ behind, item (member.text ++ after) = .ok (member.node, behind) ∧
      Text.trimStart behind = after

private theorem more_complete {members : List Member} (some : members ≠ [])
    (found : ∀ member ∈ members, Finds item member) (closes : endsBare close)
    (apart : close ≠ ',') (room : members.length ≤ within.length) (after : Text) :
    readMore item close within
        (Text.joinWith [','] (members.map Member.text) ++ close :: after) =
      .ok (members.map Member.node, after) := by
  induction members generalizing within with
  | nil => exact absurd rfl some
  | cons member members ih =>
    cases within with
    | nil => cases room
    | cons w within =>
      have here := found member List.mem_cons_self
      rw [readMore]
      cases members with
      | nil =>
        have ends : Ends (close :: after) := by
          rintro c ⟨⟩
          exact closes
        obtain ⟨behind, reads, trimmed⟩ := here (close :: after) ends fun _ => List.cons_ne_nil _ _
        rw [List.map_cons, List.map_nil, Text.joinWith, reads]
        simp [bind, Except.bind, trimmed, apart]
      | cons next others =>
        have more := ih (List.cons_ne_nil next others)
          (fun other listed => found other (List.mem_cons_of_mem _ listed))
          (Nat.le_of_succ_le_succ room)
        obtain ⟨behind, reads, trimmed⟩ := here
          (',' :: (Text.joinWith [','] ((next :: others).map Member.text) ++ close :: after))
          (by rintro c ⟨⟩; rfl) fun _ => List.cons_ne_nil _ _
        have parts : Text.joinWith [','] ((member :: next :: others).map Member.text) ++
            close :: after = member.text ++ ',' ::
              (Text.joinWith [','] ((next :: others).map Member.text) ++ close :: after) := by
          simp [Text.joinWith]
        rw [parts, reads]
        simp only [bind, Except.bind, trimmed, ↓reduceIte, more]
        rfl

private theorem separators_counted (pieces : List Text) :
    pieces.length ≤ (Text.joinWith [','] pieces).countP endsBare + 1 := by
  fun_induction Text.joinWith [','] pieces with
  | case1 => exact Nat.zero_le _
  | case2 last => exact Nat.le_add_left ..
  | case3 first next others ih =>
    have comma : [','].countP endsBare = 1 := rfl
    rw [List.countP_append, List.countP_append, comma]
    simp only [List.length_cons] at ih ⊢
    omega

/-- Also without the blanks before it, a sequence has a character for each member. -/
theorem sequence_room (pieces : List Text) (closes : endsBare close) (after : Text) :
    pieces.length ≤ (Text.trimStart (Text.joinWith [','] pieces ++ close :: after)).length := by
  obtain ⟨front, blank, parts, -⟩ := Text.trimStart_parts (Text.joinWith [','] pieces ++ close :: after)
  have counted := separators_counted pieces
  have idle : front.countP endsBare = 0 := by
    rw [List.countP_eq_zero]
    intro c listed
    simp [blanks_run blank c listed]
  have count := congrArg (List.countP endsBare) parts
  rw [List.countP_append, List.countP_append, idle, List.countP_cons_of_pos closes] at count
  calc pieces.length
      ≤ (Text.trimStart (Text.joinWith [','] pieces ++ close :: after)).countP endsBare := by omega
    _ ≤ _ := List.countP_le_length

/-- A sequence with members does not begin with its end. -/
theorem sequence_opens {members : List Member} (some : members ≠ [])
    (several : members.map Member.node ≠ [.bare []])
    (each : ∀ member ∈ members, Node member.core member.node) (closes : endsBare close)
    (apart : close ≠ ',') (after : Text) :
    ∃ c rest, Text.trimStart
        (Text.joinWith [','] (members.map Member.text) ++ close :: after) = c :: rest ∧
      c ≠ close := by
  obtain ⟨member, others, rfl⟩ := List.exists_cons_of_ne_nil some
  rcases node_starts (each member List.mem_cons_self) with
    ⟨empty, bare⟩ | ⟨c, rest, core, solid, runs⟩
  · cases others with
    | nil => exact absurd (congrArg (· :: []) bare) several
    | cons next others =>
      refine ⟨',', Text.joinWith [','] ((next :: others).map Member.text) ++ close :: after, ?_,
        apart.symm⟩
      have parts : Text.joinWith [','] ((member :: next :: others).map Member.text) ++
          close :: after = member.front ++ (member.back ++ ',' ::
            (Text.joinWith [','] ((next :: others).map Member.text) ++ close :: after)) := by
        simp [Text.joinWith, Member.text, empty]
      rw [parts, Text.trimStart_blanks member.front_blank, Text.trimStart_blanks member.back_blank]
      exact Text.trimStart_eq_self (by rintro c ⟨⟩; rfl)
  · have parts : ∃ tail, Text.joinWith [','] ((member :: others).map Member.text) ++
        close :: after = member.front ++ c :: tail := by
      cases others <;> simp [Text.joinWith, Member.text, core]
    obtain ⟨tail, parts⟩ := parts
    refine ⟨c, tail, ?_, ?_⟩
    · rw [parts, Text.trimStart_blanks member.front_blank]
      apply Text.trimStart_eq_self
      rintro d ⟨⟩
      exact solid
    · rintro rfl
      rw [closes] at runs
      cases runs

private theorem closing_ends (bracket : Bracket) :
    endsBare bracket.closing = true ∧ bracket.closing ≠ ',' ∧
      Text.isBlank bracket.closing = false := by
  cases bracket <;> exact ⟨rfl, Char.ne_of_val_ne (by decide), rfl⟩

private theorem items_complete (bracket : Bracket) {members : List Member} (some : members ≠ [])
    (several : members.map Member.node ≠ [.bare []])
    (each : ∀ member ∈ members, Node member.core member.node)
    (found : ∀ member ∈ members, Finds (readNode depth) member) (after : Text) :
    readItems (readNode depth) bracket.closing
        (Text.joinWith [','] (members.map Member.text) ++ bracket.closing :: after) =
      .ok (members.map Member.node, after) := by
  obtain ⟨closes, apart, -⟩ := closing_ends bracket
  obtain ⟨c, rest, trimmed, opens⟩ := sequence_opens some several each closes apart after
  have room := sequence_room (members.map Member.text) closes after
  rw [List.length_map, trimmed] at room
  have more := more_complete some found closes apart room after
  rw [← more_skips_blanks, trimmed] at more
  rw [readItems, trimmed]
  dsimp only
  rw [if_neg opens, more]

private theorem empty_complete (bracket : Bracket) (blank : ∀ c ∈ gap, Text.isBlank c)
    (item : Text → Except Fault (Literal × Text)) (after : Text) :
    readItems item bracket.closing (gap ++ bracket.closing :: after) = .ok ([], after) := by
  obtain ⟨-, -, solid⟩ := closing_ends bracket
  rw [readItems, Text.trimStart_blanks blank, Text.trimStart_eq_self (by rintro c ⟨⟩; exact solid)]
  exact if_pos rfl

private theorem member_trimmed {member : Member} (core : member.core = c :: rest)
    (solid : Text.isBlank c = false) (after : Text) :
    Text.trimStart (member.text ++ after) = c :: (rest ++ (member.back ++ after)) := by
  have parts : member.text ++ after = member.front ++ c :: (rest ++ (member.back ++ after)) := by
    simp [Member.text, core]
  rw [parts, Text.trimStart_blanks member.front_blank]
  apply Text.trimStart_eq_self
  rintro d ⟨⟩
  exact solid

/-- A run of characters is read as a token where no bracket or quote begins it. -/
theorem run_reads (depth : Nat) (trimmed : Text.trimStart text = c :: rest)
    (plain : c ∉ ['[', '(', '\'', '"'])
    (run : (c :: rest).span (fun c => !endsBare c) = (taken, after)) :
    readNode (depth + 1) text = .ok (.bare (Text.trim taken), after) := by
  simp only [List.mem_cons, List.not_mem_nil, or_false, not_or] at plain
  obtain ⟨list, group, single, double⟩ := plain
  rw [readNode, trimmed]
  simp only [list, group, single, double, ↓reduceIte, decide_false, Bool.or_self,
    Bool.false_eq_true, run]

private theorem bare_complete {member : Member} (token : Bare member.core)
    (node : member.node = .bare member.core) (depth : Nat) :
    Finds (readNode (depth + 1)) member := by
  intro after ends some
  refine ⟨after, ?_, ends_trimmed ends⟩
  cases core : member.core with
  | nil =>
    obtain ⟨c, rest, rfl⟩ := List.exists_cons_of_ne_nil (some core)
    have stops := ends c rfl
    have parts : member.text ++ c :: rest = member.front ++ (member.back ++ c :: rest) := by
      simp [Member.text, core]
    have trimmed : Text.trimStart (member.text ++ c :: rest) = c :: rest := by
      rw [parts, Text.trimStart_blanks member.front_blank, Text.trimStart_blanks member.back_blank]
      exact ends_trimmed ends
    have plain : c ∉ ['[', '(', '\'', '"'] := by
      intro opens
      simp only [List.mem_cons, List.not_mem_nil, or_false] at opens
      rcases opens with rfl | rfl | rfl | rfl <;> cases stops
    have nothing : ∀ d ∈ ([] : Text), endsBare d = false := by simp
    rw [run_reads depth trimmed plain (run_spans nothing ends), node, core]
    rfl
  | cons c rest =>
    have solid := token.starts c (by rw [core]; rfl)
    have plain := token.opens c (by rw [core]; rfl)
    have passes : ∀ d ∈ member.core ++ member.back, endsBare d = false := by
      intro d listed
      rcases List.mem_append.mp listed with inside | behind
      · rw [← Bool.not_eq_true, ends_bare_iff]
        exact token.within d inside
      · exact blanks_run member.back_blank d behind
    have nothing : ∀ d ∈ ([] : Text), Text.isBlank d := by simp
    have trimmed := trim_surrounded nothing member.back_blank token.starts token.stops
    have run := run_spans passes ends
    rw [List.append_assoc] at run
    rw [core] at run trimmed node
    rw [List.nil_append] at trimmed
    rw [run_reads depth (member_trimmed core solid after) plain run, node, trimmed]

/-- Neither a blank nor what ends a token is a quote. -/
theorem no_quote_behind (blank : ∀ c ∈ back, Text.isBlank c) (ends : Ends after)
    (mark : quote = '\'' ∨ quote = '"') : (back ++ after).head? ≠ some quote := by
  intro first
  cases back with
  | nil =>
    have stops := ends quote first
    rcases mark with rfl | rfl <;> cases stops
  | cons c back =>
    cases first
    have gap := blank quote List.mem_cons_self
    rcases mark with rfl | rfl <;> cases gap

private theorem quoted_found {member : Member} (mark : quote = '\'' ∨ quote = '"')
    (body : Body quote inside token) (core : member.core = quote :: (inside ++ [quote]))
    (node : member.node = .quoted token) (depth : Nat) : Finds (readNode (depth + 1)) member := by
  intro after ends _
  refine ⟨member.back ++ after, ?_, ?_⟩
  · have unescaping : quote ≠ '\\' := by rcases mark with rfl | rfl <;> simp
    have solid : Text.isBlank quote = false := by rcases mark with rfl | rfl <;> rfl
    have reads := quoted_complete unescaping body (no_quote_behind member.back_blank ends mark)
    rw [readNode, member_trimmed core solid after, node]
    rcases mark with rfl | rfl <;> simp [reads, Except.map]
  · rw [Text.trimStart_blanks member.back_blank, ends_trimmed ends]

/-- A sequence is found where its items are. -/
theorem bracket_found {member : Member} (bracket : Bracket)
    (core : member.core = bracket.opening :: (inside ++ [bracket.closing]))
    (node : member.node = bracket.tree items)
    (reads : ∀ after, readItems (readNode depth) bracket.closing
      (inside ++ bracket.closing :: after) = .ok (items, after)) :
    Finds (readNode (depth + 1)) member := by
  intro after ends _
  refine ⟨member.back ++ after, ?_, ?_⟩
  · have solid : Text.isBlank bracket.opening = false := by cases bracket <;> rfl
    have found := reads (member.back ++ after)
    rw [readNode, member_trimmed core solid after, node]
    cases bracket <;>
      simp only [Bracket.closing] at found <;>
      simp [Bracket.opening, Bracket.closing, Bracket.tree, found, Except.map]
  · rw [Text.trimStart_blanks member.back_blank, ends_trimmed ends]

/-- Every node is found by a reader that bears more nesting than the node has characters. -/
theorem node_complete (node : Node core literal) :
    ∀ {depth : Nat} {member : Member}, member.core = core → member.node = literal →
      core.length < depth → Finds (readNode depth) member := by
  induction node with
  | bare token =>
    rintro depth member rfl holds room
    obtain ⟨depth, rfl⟩ := Nat.exists_eq_add_of_lt room
    exact bare_complete token holds _
  | quoted mark body =>
    intro depth member same holds room
    obtain ⟨depth, rfl⟩ := Nat.exists_eq_add_of_lt room
    exact quoted_found mark body same holds _
  | empty bracket blank =>
    intro depth member same holds room
    obtain ⟨depth, rfl⟩ := Nat.exists_eq_add_of_lt room
    exact bracket_found bracket same holds (empty_complete bracket blank _)
  | sequence bracket members some several each ih =>
    intro depth member same holds room
    obtain ⟨depth, rfl⟩ := Nat.exists_eq_add_of_lt room
    refine bracket_found bracket same holds (items_complete bracket some several each ?_)
    intro inner listed
    apply ih inner listed rfl rfl
    have piece := ReadBack.piece_fits [','] (List.mem_map_of_mem (f := Member.text) listed)
    simp only [Member.text, List.length_append, List.length_cons] at piece room ⊢
    omega

/-! ## Nesting and positions -/

private theorem node_suffix (depth : Nat) (reads : readNode depth text = .ok (node, after)) :
    after <:+ text := by
  obtain ⟨member, parts, -⟩ := node_sound depth text node after reads
  exact ⟨member.text, parts.symm⟩

private theorem more_agrees {item other : Text → Except Fault (Literal × Text)}
    (suffix : ∀ text node after, item text = .ok (node, after) → after <:+ text)
    (agree : ∀ text : Text, text.length ≤ bound → item text = other text) (close : Char)
    (within : Text) {text : Text} (short : text.length ≤ bound) :
    readMore item close within text = readMore other close within text := by
  induction within generalizing text with
  | nil => rfl
  | cons w within ih =>
    rw [readMore, readMore, ← agree text short]
    cases found : item text with
    | error fault => rfl
    | ok result =>
      obtain ⟨node, after⟩ := result
      simp only [bind, Except.bind]
      cases trimmed : Text.trimStart after with
      | nil => rfl
      | cons c rest =>
        have behind := (suffix text node after found).length_le
        have skipped := Text.trimStart_length_le after
        rw [trimmed, List.length_cons] at skipped
        dsimp only
        rw [ih (by omega)]

/-- Readers that agree on every text that is no longer read the same items. -/
theorem items_agree (agree : ∀ inner : Text, inner.length ≤ text.length →
      readNode one inner = readNode other inner) (close : Char) :
    readItems (readNode one) close text = readItems (readNode other) close text := by
  have skipped := Text.trimStart_length_le text
  rw [readItems, readItems]
  cases trimmed : Text.trimStart text with
  | nil => rfl
  | cons c rest =>
    rw [trimmed] at skipped
    dsimp only
    rw [more_agrees (fun _ _ _ => node_suffix one) agree close _ skipped]

/-- Once a reader bears as much nesting as its text is long, more makes no difference. -/
theorem depth_suffices {one other : Nat} (room : text.length < one) (more : text.length < other) :
    readNode one text = readNode other text := by
  induction one generalizing text other with
  | zero => cases room
  | succ one ih =>
    obtain ⟨other, rfl⟩ := Nat.exists_eq_succ_of_ne_zero (Nat.ne_zero_of_lt more)
    have skipped := Text.trimStart_length_le text
    rw [readNode, readNode]
    cases trimmed : Text.trimStart text with
    | nil => rfl
    | cons c rest =>
      rw [trimmed, List.length_cons] at skipped
      have agree : ∀ inner : Text, inner.length ≤ rest.length →
          readNode one inner = readNode other inner := by
        intro inner short
        apply ih <;> omega
      dsimp only
      rw [items_agree agree, items_agree agree]

/-- A sequence has no more members than characters, so that a larger bound on them makes no
difference. -/
theorem within_suffices (depth : Nat) (close : Char) {within other : Text}
    (room : text.length ≤ within.length) (more : text.length ≤ other.length) :
    readMore (readNode depth) close within text = readMore (readNode depth) close other text := by
  have ended : readNode depth [] = .error .unexpectedEnd := by cases depth <;> rfl
  induction within generalizing text other with
  | nil =>
    obtain rfl := List.eq_nil_of_length_eq_zero (Nat.le_zero.mp room)
    cases other with
    | nil => rfl
    | cons o other =>
      rw [readMore, readMore, ended]
      rfl
  | cons w within ih =>
    cases other with
    | nil =>
      obtain rfl := List.eq_nil_of_length_eq_zero (Nat.le_zero.mp more)
      rw [readMore, readMore, ended]
      rfl
    | cons o other =>
      rw [readMore, readMore]
      cases found : readNode depth text with
      | error fault => rfl
      | ok result =>
        obtain ⟨node, after⟩ := result
        simp only [bind, Except.bind]
        cases trimmed : Text.trimStart after with
        | nil => rfl
        | cons c rest =>
          have behind := (node_suffix depth found).length_le
          have skipped := Text.trimStart_length_le after
          rw [trimmed, List.length_cons] at skipped
          rw [List.length_cons] at room more
          have others := @ih rest other (by omega) (by omega)
          dsimp only
          rw [others]

/-! ## Faults -/

private theorem quoted_not_trailing (quote : Char) (text : Text) (position : Nat) :
    readQuoted quote text ≠ .error (.trailing position) := by
  intro reads
  fun_induction readQuoted quote text with
  | case1 | case2 | case3 | case4 | case7 => cases reads
  | case5 d rest ih => exact ih (map_error reads)
  | case6 rest unescaped ih => exact ih (map_error reads)
  | case8 c d rest unescaped unquoted ih => exact ih (map_error reads)

private theorem more_not_trailing {item : Text → Except Fault (Literal × Text)}
    (never : ∀ text, item text ≠ .error (.trailing position)) (close : Char) (within text : Text) :
    readMore item close within text ≠ .error (.trailing position) := by
  intro reads
  induction within generalizing text with
  | nil => cases reads
  | cons w within ih =>
    rw [readMore] at reads
    rcases bind_error reads with first | ⟨⟨node, after⟩, -, reads⟩
    · exact never text first
    dsimp only at reads
    split at reads
    · cases reads
    next c rest trimmed =>
      split at reads
      · rcases bind_error reads with others | ⟨⟨nodes, last⟩, -, same⟩
        · exact ih rest others
        · cases same
      · split at reads <;> cases reads

/-- Only a whole literal, and no node, is at fault for the text behind it. -/
theorem node_not_trailing (depth : Nat) (text : Text) (position : Nat) :
    readNode depth text ≠ .error (.trailing position) := by
  induction depth generalizing text with
  | zero =>
    intro reads
    cases reads
  | succ depth ih =>
    have items : ∀ close rest,
        readItems (readNode depth) close rest ≠ .error (.trailing position) := by
      intro close rest reads
      rw [readItems] at reads
      split at reads
      · cases reads
      split at reads
      · cases reads
      · exact more_not_trailing ih close _ _ reads
    intro reads
    rw [readNode] at reads
    split at reads
    · cases reads
    split at reads
    · exact items _ _ (map_error reads)
    split at reads
    · exact items _ _ (map_error reads)
    split at reads
    · exact quoted_not_trailing _ _ position (map_error reads)
    · cases reads

/-! ## The reader of literals -/

/-- Trimming leaves the node of a member, whatever blanks are around it. -/
theorem trim_member (member : Member) (node : Node member.core member.node) :
    Text.trim member.text = member.core := by
  apply trim_surrounded member.front_blank member.back_blank _ (node_stops node)
  rcases node_starts node with ⟨empty, -⟩ | ⟨c, rest, core, solid, -⟩
  · simp [empty]
  · rw [core]
    rintro d ⟨⟩
    exact solid

theorem read_writes (reads : read text = .ok literal) : Writes text literal := by
  obtain ⟨front, back, parts, before, behind, starts, stops⟩ := trim_parts text
  rw [Literal.read] at reads
  generalize Text.trim text = core at parts starts stops reads
  obtain ⟨⟨node, after⟩, found, reads⟩ := bind_ok reads
  dsimp only at reads
  split at reads
  next ended =>
    cases reads
    obtain ⟨member, same, rfl, holds, idle⟩ := node_sound _ core _ after found
    obtain ⟨gap, blank, rest, -⟩ := Text.trimStart_parts after
    rw [ended, List.append_nil] at rest
    have whole : (member.before gap blank).text = core := by rw [before_text, ← rest, same]
    have own := trim_member (member.before gap blank) holds
    rw [whole, Text.trim_eq_self starts stops] at own
    refine ⟨⟨front, core, back, member.node, before, behind⟩, parts, rfl, ?_, fun empty => ?_⟩
    · rw [own]
      exact holds
    · obtain ⟨skipped, some⟩ := idle empty
      rw [← skipped, trim_start_twice, skipped] at ended
      exact some ended
  · cases reads

theorem writes_read (writes : Writes text literal) : read text = .ok literal := by
  obtain ⟨member, rfl, rfl, node, full⟩ := writes
  have some : member.core ≠ [] := by
    intro empty
    rcases node_starts node with ⟨-, bare⟩ | ⟨c, rest, core, -⟩
    · exact full bare
    · rw [empty] at core
      cases core
  have nothing : ∀ c ∈ ([] : Text), Text.isBlank c := by simp
  have ends : Ends [] := by simp [Ends]
  let bare : Member := ⟨[], member.core, [], member.node, nothing, nothing⟩
  have finds : Finds (readNode (member.core.length + 1)) bare :=
    node_complete node rfl rfl (Nat.lt_succ_self _)
  obtain ⟨behind, reads, ended⟩ := finds [] ends fun empty => absurd empty some
  have whole : bare.text ++ [] = member.core := by simp [bare, Member.text]
  rw [whole] at reads
  rw [Literal.read, trim_member member node, reads]
  simp only [bind, Except.bind, ended, bare]

private theorem trailing_within (reads : read text = .error (.trailing position)) :
    position < (Text.trim text).length := by
  rw [Literal.read] at reads
  rcases bind_error reads with first | ⟨⟨node, after⟩, found, reads⟩
  · exact absurd first (node_not_trailing _ _ _)
  dsimp only at reads
  split at reads
  · cases reads
  next rest =>
    cases reads
    have behind := (node_suffix _ found).length_le
    have skipped := Text.trimStart_length_le after
    have some := List.length_pos_iff.mpr rest
    omega

/-- A text is read as a literal just where it writes that literal. It writes one at most, and
what is read of it ends within it. Neither the bound on nesting nor that on the members of a
sequence cuts a reading short. -/
theorem read_accepts_grammar (text : Text) :
    (∀ literal, read text = .ok literal ↔ Writes text literal) ∧
    (∀ one other, Writes text one → Writes text other → one = other) ∧
    (∀ depth node after, readNode depth text = .ok (node, after) → after <:+ text) ∧
    (∀ position, read text = .error (.trailing position) → position < (Text.trim text).length) ∧
    (∀ depth, text.length < depth → readNode depth text = readNode (text.length + 1) text) ∧
    (∀ depth close within, text.length ≤ within.length →
      readMore (readNode depth) close within text = readMore (readNode depth) close text text) := by
  refine ⟨fun literal => ⟨read_writes, writes_read⟩, ?_, fun depth _ _ => node_suffix depth,
    fun _ => trailing_within, fun _ room => depth_suffices room (Nat.lt_succ_self _),
    fun depth close _ room => within_suffices depth close room le_rfl⟩
  intro one other first second
  have same := writes_read first
  rw [writes_read second] at same
  exact (Except.ok.inj same).symm

/-- A list of a quoted token and of a group with an empty member. -/
theorem nested_literal_read :
    Writes "[ 'it''s' , (a,) ]".toList
      (.list [.quoted "it's".toList, .group [.bare ['a'], .bare []]]) :=
  ((read_accepts_grammar "[ 'it''s' , (a,) ]".toList).1 _).mp rfl

end SqlWire.LiteralGrammar
