import SqlWire.Proofs.TypeReading

/-! Layout around the marks of a type. It may stand before and behind every parenthesis and every
comma, but not between the digits of a timestamp and the comma of its time zone: there it leaves
the whole text without a type. -/
namespace SqlWire.TypeSpacing
open SqlWire.TypeName SqlWire.TypeGrammar NumeralText

/-- The marks between the words of a type. -/
def isMark (c : Char) : Bool := c = '(' || c = ')' || c = ','

/-- A text, and the same with layout put before and behind its marks. -/
inductive Spaced : Text → Text → Prop where
  | nil : Spaced [] []
  | keep (c : Char) (behind : Spaced text again) : Spaced (c :: text) (c :: again)
  | mark (mark : isMark c = true) (before : Layout front) (after : Layout back)
      (behind : Spaced text again) : Spaced (c :: text) (front ++ c :: (back ++ again))

/-- The beginning of a text that would be a type but for layout before the comma of a time zone,
at whatever depth. -/
inductive Broken : Text → Prop where
  | zone (name : Spells "datetime64".toList word) (gap : Layout front) (before : Layout between)
      (number : Argument digits n) (layout : Layout middle) (apart : middle ≠ []) (rest : Text) :
      Broken (word ++ (front ++ '(' :: (between ++ (digits ++ (middle ++ ',' :: rest)))))
  | nullable (name : Spells "nullable".toList word) (gap : Layout front) (before : Layout between)
      (inner : Broken text) : Broken (word ++ (front ++ '(' :: (between ++ text)))
  | array (name : Spells "array".toList word) (gap : Layout front) (before : Layout between)
      (inner : Broken text) : Broken (word ++ (front ++ '(' :: (between ++ text)))
  | tuple (name : Spells "tuple".toList word) (gap : Layout front) (members : List Member)
      (each : ∀ member ∈ members, Core member.form member.core member.type)
      (before : Layout between) (inner : Broken text) :
      Broken (word ++ (front ++ '(' ::
        ((members.flatMap fun member => member.text ++ [',']) ++ (between ++ text))))

/-- A text with layout between the digits of a timestamp and the comma of its time zone. -/
def Parted (text : Text) : Prop := ∃ front rest, text = front ++ rest ∧ Layout front ∧ Broken rest

private theorem broken_append (broken : Broken text) (more : Text) : Broken (text ++ more) := by
  induction broken with
  | zone name gap before number layout apart rest =>
    have longer := Broken.zone name gap before number layout apart (rest ++ more)
    simpa using longer
  | nullable name gap before inner ih =>
    have longer := Broken.nullable name gap before ih
    simpa using longer
  | array name gap before inner ih =>
    have longer := Broken.array name gap before ih
    simpa using longer
  | tuple name gap members each before inner ih =>
    have longer := Broken.tuple name gap members each before ih
    simpa using longer

private theorem parted_append (parted : Parted text) (more : Text) : Parted (text ++ more) := by
  obtain ⟨front, rest, rfl, layout, broken⟩ := parted
  exact ⟨front, rest ++ more, List.append_assoc .., layout, broken_append broken more⟩

private theorem parted_before (parted : Parted text) (layout : Layout gap) :
    Parted (gap ++ text) := by
  obtain ⟨front, rest, rfl, before, broken⟩ := parted
  exact ⟨gap ++ front, rest, (List.append_assoc ..).symm, layout_append.mpr ⟨layout, before⟩,
    broken⟩

/-! ## Parts of a text -/

/-- A text without marks. -/
def Plain (text : Text) : Prop := ∀ c ∈ text, isMark c = false

private theorem spaced_append (spaced : Spaced (front ++ back) again) :
    ∃ first second, again = first ++ second ∧ Spaced front first ∧ Spaced back second := by
  induction front generalizing again with
  | nil => exact ⟨[], again, rfl, .nil, spaced⟩
  | cons c front ih =>
    cases spaced with
    | keep _ behind =>
      obtain ⟨first, second, rfl, one, two⟩ := ih behind
      exact ⟨c :: first, second, rfl, .keep c one, two⟩
    | mark mark before after behind =>
      obtain ⟨first, second, rfl, one, two⟩ := ih behind
      exact ⟨_, second, by simp, .mark mark before after one, two⟩

private theorem spaced_mark (spaced : Spaced (c :: text) again) :
    ∃ front back behind, again = front ++ c :: (back ++ behind) ∧ Layout front ∧ Layout back ∧
      Spaced text behind := by
  cases spaced with
  | keep _ behind => exact ⟨[], [], _, rfl, layout_nil, layout_nil, behind⟩
  | mark mark before after behind => exact ⟨_, _, _, rfl, before, after, behind⟩

private theorem spaced_kept (front : Text) (spaced : Spaced text again) :
    Spaced (front ++ text) (front ++ again) := by
  induction front with
  | nil => exact spaced
  | cons c front ih => exact .keep c ih

private theorem spaced_refl (text : Text) : Spaced text text := by
  have kept := spaced_kept text .nil
  rwa [List.append_nil] at kept

/-- No layout is put into a text without marks. -/
theorem spaced_plain (plain : Plain text) (spaced : Spaced text again) : again = text := by
  induction spaced with
  | nil => rfl
  | keep c behind ih => rw [ih (List.forall_mem_cons.mp plain).2]
  | mark mark =>
    rw [(List.forall_mem_cons.mp plain).1] at mark
    cases mark

/-- All that is new in a text is layout. -/
theorem spaced_mem (spaced : Spaced text again) (member : c ∈ again) :
    c ∈ text ∨ Text.isLayout c = true := by
  induction spaced with
  | nil => cases member
  | keep _ behind ih =>
    rcases List.mem_cons.mp member with rfl | later
    · exact .inl List.mem_cons_self
    · exact (ih later).imp_left (List.mem_cons_of_mem _)
  | mark mark before after behind ih =>
    rcases List.mem_append.mp member with front | later
    · exact .inr (before c front)
    rcases List.mem_cons.mp later with rfl | later
    · exact .inl List.mem_cons_self
    rcases List.mem_append.mp later with back | later
    · exact .inr (after c back)
    · exact (ih later).imp_left (List.mem_cons_of_mem _)

/-- Characters of a sort that no mark belongs to. -/
theorem plain_of {sort : Char → Bool} (marks : ['(', ')', ','].any sort = false)
    (every : ∀ c ∈ text, sort c = true) : Plain text := by
  intro c member
  by_contra mark
  have listed : c ∈ ['(', ')', ','] := by
    simpa [isMark, or_assoc] using Bool.eq_true_of_not_eq_false mark
  exact List.any_eq_false.mp marks c listed (every c member)

private theorem plain_append (first : Plain front) (second : Plain back) : Plain (front ++ back) :=
  List.forall_mem_append.mpr ⟨first, second⟩

private theorem word_plain (word : IsWord text) : Plain text := plain_of (by decide +kernel) word.2

private theorem layout_plain (layout : Layout text) : Plain text := plain_of (by decide) layout

private theorem digits_plain (digits : AllDigits text) : Plain text := plain_of (by decide) digits

theorem blank_plain (blank : Text.allBlank text = true) : Plain text :=
  plain_of (by decide) (List.all_eq_true.mp blank)

private theorem words_plain (each : ∀ other ∈ others, Further other) : Plain (wordsOf others) := by
  induction others with
  | nil => simp [Plain, wordsOf]
  | cons other others ih =>
    obtain ⟨first, each⟩ := List.forall_mem_cons.mp each
    exact plain_append (plain_append (layout_plain first.layout) (word_plain first.word)) (ih each)

private theorem suffix_plain (suffix : NullSuffix text allowed) : Plain text := by
  cases suffix with
  | absent => simp [Plain]
  | null gap word => exact plain_append (layout_plain gap) (word_plain (null_word word))
  | notNull gap negation between apart word =>
    exact plain_append (layout_plain gap) (plain_append (word_plain (not_word negation))
      (plain_append (layout_plain between) (word_plain (null_word word))))

/-! ## Arguments -/

private theorem decimal_arguments_before (arguments : DecimalArguments inside found)
    (layout : Layout gap) : DecimalArguments (gap ++ inside) found := by
  cases arguments with
  | precision before number behind =>
    rw [← List.append_assoc]
    exact .precision (layout_append.mpr ⟨layout, before⟩) number behind
  | scale before number gap next places behind =>
    rw [← List.append_assoc]
    exact .scale (layout_append.mpr ⟨layout, before⟩) number gap next places behind

private theorem decimal_arguments_spaced (arguments : DecimalArguments inside found)
    (spaced : Spaced inside again) : DecimalArguments again found := by
  cases arguments with
  | precision before number behind =>
    have plain := plain_append (layout_plain before)
      (plain_append (digits_plain number.digits) (layout_plain behind))
    rw [spaced_plain plain spaced]
    exact .precision before number behind
  | scale before number gap next places behind =>
    obtain ⟨first, rest, rfl, one, spaced⟩ := spaced_append spaced
    obtain ⟨second, rest, rfl, two, spaced⟩ := spaced_append spaced
    obtain ⟨third, rest, rfl, three, spaced⟩ := spaced_append spaced
    obtain ⟨close, open_, rest, rfl, closeLayout, openLayout, spaced⟩ := spaced_mark spaced
    have plain := plain_append (layout_plain next)
      (plain_append (digits_plain places.digits) (layout_plain behind))
    rw [spaced_plain (layout_plain before) one, spaced_plain (digits_plain number.digits) two,
      spaced_plain (layout_plain gap) three, spaced_plain plain spaced]
    have whole := DecimalArguments.scale before number (layout_append.mpr ⟨gap, closeLayout⟩)
      (layout_append.mpr ⟨openLayout, next⟩) places behind
    simpa using whole

private theorem timestamp_arguments_before (arguments : TimestampArguments inside found)
    (layout : Layout gap) : TimestampArguments (gap ++ inside) found := by
  cases arguments with
  | digits before number behind =>
    rw [← List.append_assoc]
    exact .digits (layout_append.mpr ⟨layout, before⟩) number behind
  | zone before number inside =>
    rw [← List.append_assoc]
    exact .zone (layout_append.mpr ⟨layout, before⟩) number inside

/-- The arguments of a timestamp with layout before the comma of the zone. -/
def PartedZone (text : Text) : Prop :=
  ∃ front digits n middle rest, text = front ++ (digits ++ (middle ++ ',' :: rest)) ∧
    Layout front ∧ Argument digits n ∧ Layout middle ∧ middle ≠ []

private theorem timestamp_arguments_spaced (arguments : TimestampArguments inside found)
    (spaced : Spaced inside again) : TimestampArguments again found ∨ PartedZone again := by
  cases arguments with
  | digits before number behind =>
    have plain := plain_append (layout_plain before)
      (plain_append (digits_plain number.digits) (layout_plain behind))
    rw [spaced_plain plain spaced]
    exact .inl (.digits before number behind)
  | @zone front digits n zone before number inside =>
    obtain ⟨first, rest, rfl, one, spaced⟩ := spaced_append spaced
    obtain ⟨second, rest, rfl, two, spaced⟩ := spaced_append spaced
    obtain ⟨middle, open_, rest, rfl, layout, openLayout, spaced⟩ := spaced_mark spaced
    rw [spaced_plain (layout_plain before) one, spaced_plain (digits_plain number.digits) two]
    by_cases apart : middle = []
    · have solid : ')' ∉ open_ ++ rest := by
        intro member
        rcases List.mem_append.mp member with front | later
        · exact absurd (openLayout _ front) (by decide)
        · exact (spaced_mem spaced later).elim inside (by decide)
      rw [apart]
      exact .inl (.zone before number solid)
    · exact .inr ⟨front, digits, found, middle, _, rfl, before, number, layout, apart⟩

/-! ## Types -/

/-- With layout around its marks, a text is the same type still, and what was put behind its last
mark is left over; or it was put before the comma of a zone. -/
def StaysCore (form : Form) (text : Text) (type : Column) : Prop :=
  ∀ again, Spaced text again → (∃ core back, again = core ++ back ∧ Layout back ∧
    Core form core type ∧ (form = .words → back = [])) ∨ Broken again

private theorem plain_stays (core : Core form text type) (plain : Plain text) :
    StaysCore form text type := by
  intro again spaced
  rw [spaced_plain plain spaced]
  exact .inl ⟨text, [], (List.append_nil text).symm, layout_nil, core, fun _ => rfl⟩

/-- What stands in parentheses is spaced, and the parentheses with it. -/
theorem called_stays {holds parts : Text → Prop} (name : IsWord word) (layout : Layout gap)
    (inside_spaced : ∀ again, Spaced inside again → holds again ∨ parts again)
    (core : ∀ front again back close, Layout front → Layout back → holds again → Layout close →
      Core .closed (called word front (back ++ (again ++ close))) type)
    (breaks : ∀ front again back rest, Layout front → Layout back → parts again →
      Broken (word ++ (front ++ '(' :: (back ++ (again ++ rest))))) :
    StaysCore .closed (called word gap inside) type := by
  intro again spaced
  obtain ⟨first, rest, rfl, one, spaced⟩ := spaced_append spaced
  obtain ⟨second, rest, rfl, two, spaced⟩ := spaced_append spaced
  obtain ⟨before, after, rest, rfl, beforeLayout, afterLayout, spaced⟩ := spaced_mark spaced
  obtain ⟨within, rest, rfl, inner, spaced⟩ := spaced_append spaced
  obtain ⟨close, back, rest, rfl, closeLayout, backLayout, spaced⟩ := spaced_mark spaced
  cases spaced
  rw [spaced_plain (word_plain name) one, spaced_plain (layout_plain layout) two]
  have front : Layout (gap ++ before) := layout_append.mpr ⟨layout, beforeLayout⟩
  rcases inside_spaced within inner with held | parted
  · left
    refine ⟨_, back, ?_, backLayout, core _ _ _ _ front afterLayout held closeLayout,
      fun words => by cases words⟩
    simp [called]
  · right
    rw [← List.append_assoc gap]
    exact breaks _ _ _ _ front afterLayout parted

/-- A null suffix takes layout in front of it as its own, where it is there at all. -/
theorem null_suffix_before (suffix : NullSuffix text allowed) (layout : Layout gap) :
    text = [] ∨ NullSuffix (gap ++ text) allowed := by
  cases suffix with
  | absent => exact .inl rfl
  | null front word =>
    right
    rw [← List.append_assoc]
    exact .null (layout_append.mpr ⟨layout, front⟩) word
  | notNull front negation between apart word =>
    right
    rw [← List.append_assoc]
    exact .notNull (layout_append.mpr ⟨layout, front⟩) negation between apart word

/-- Layout behind a type, before its null suffix. -/
theorem member_parted (member : Member) (layout : Layout gap)
    (closed : member.form = .words → gap = [])
    (core : Core member.form member.core member.type) :
    Whole (member.front ++ (member.core ++ (gap ++ (member.suffix ++ member.back))))
      member.column := by
  rcases null_suffix_before member.null_suffix layout with none | suffix
  · refine ⟨{ member with
      back := gap ++ member.back
      back_layout := layout_append.mpr ⟨layout, member.back_layout⟩ }, ?_, rfl, core⟩
    simp [Member.text, none]
  · refine ⟨{ member with
      suffix := gap ++ member.suffix
      null_suffix := suffix
      apart := fun words => ?_ }, ?_, rfl, core⟩
    · rw [closed words]
      exact member.apart words
    · simp [Member.text]

private theorem member_spaced (member : Member)
    (stays : StaysCore member.form member.core member.type)
    (spaced : Spaced member.text again) : Whole again member.column ∨ Parted again := by
  obtain ⟨front, rest, rfl, one, spaced⟩ := spaced_append spaced
  obtain ⟨core, rest, rfl, two, three⟩ := spaced_append spaced
  have plain := plain_append (suffix_plain member.null_suffix) (layout_plain member.back_layout)
  rw [spaced_plain (layout_plain member.front_layout) one, spaced_plain plain three]
  rcases stays _ two with ⟨core, gap, rfl, layout, holds, closed⟩ | broken
  · rw [List.append_assoc]
    exact .inl (member_parted { member with core := core } layout closed holds)
  · exact .inr ⟨member.front, _, rfl, member.front_layout, broken_append broken _⟩

private theorem whole_before (whole : Whole used column) (layout : Layout gap) :
    Whole (gap ++ used) column := by
  obtain ⟨member, rfl, rfl, core⟩ := whole
  exact ⟨member.behind gap layout, (behind_text member layout).symm, rfl, core⟩

private theorem listed_before (listed : Listed used columns) (layout : Layout gap) :
    Listed (gap ++ used) columns := by
  obtain ⟨members, some, rfl, rfl, each⟩ := listed
  obtain ⟨member, others, rfl⟩ := List.exists_cons_of_ne_nil some
  obtain ⟨core, cores⟩ := List.forall_mem_cons.mp each
  refine ⟨member.behind gap layout :: others, List.cons_ne_nil _ _, ?_, rfl,
    List.forall_mem_cons.mpr ⟨core, cores⟩⟩
  rw [List.map_cons, List.map_cons, behind_text]
  cases others <;> simp [Text.joinWith]

/-- Members before one with layout before the comma of a zone. -/
def PartedList (text : Text) : Prop :=
  ∃ (members : List Member) (rest : Text),
    text = (members.flatMap fun member => member.text ++ [',']) ++ rest ∧
    (∀ member ∈ members, Core member.form member.core member.type) ∧ Parted rest

private theorem parted_list_before (parted : PartedList text) (layout : Layout gap) :
    PartedList (gap ++ text) := by
  obtain ⟨members, rest, rfl, each, parted⟩ := parted
  cases members with
  | nil => exact ⟨[], gap ++ rest, rfl, each, parted_before parted layout⟩
  | cons member members =>
    obtain ⟨core, cores⟩ := List.forall_mem_cons.mp each
    refine ⟨member.behind gap layout :: members, rest, ?_, List.forall_mem_cons.mpr ⟨core, cores⟩,
      parted⟩
    simp [behind_text]

/-- Layout before a comma ends one member, and layout behind it begins the next. -/
theorem list_spaced (members : List Member) (some : members ≠ [])
    (stays : ∀ member ∈ members, StaysCore member.form member.core member.type)
    (spaced : Spaced (Text.joinWith [','] (members.map Member.text)) again) :
    Listed again (members.map Member.column) ∨ PartedList again := by
  induction members generalizing again with
  | nil => exact absurd rfl some
  | cons member members ih =>
    obtain ⟨first, others⟩ := List.forall_mem_cons.mp stays
    have alone (parted : Parted again) : PartedList again := ⟨[], again, rfl, by simp, parted⟩
    cases members with
    | nil => exact (member_spaced member first spaced).imp listed_one alone
    | cons next more =>
      have parts : Text.joinWith [','] ((member :: next :: more).map Member.text) =
          member.text ++ ',' :: Text.joinWith [','] ((next :: more).map Member.text) := by
        simp [Text.joinWith]
      rw [parts] at spaced
      obtain ⟨one, rest, rfl, inner, spaced⟩ := spaced_append spaced
      obtain ⟨front, back, rest, rfl, before, after, spaced⟩ := spaced_mark spaced
      rcases member_spaced member first inner with whole | parted
      · have head := whole_padded whole before
        rcases ih (List.cons_ne_nil next more) others spaced with listed | parted
        · have tail := whole_listed head (listed_before listed after)
          rw [List.append_assoc] at tail
          exact .inl tail
        · obtain ⟨member, text, -, core⟩ := head
          obtain ⟨members, rest, shape, each, parted⟩ := parted_list_before parted after
          refine .inr ⟨member :: members, rest, ?_, List.forall_mem_cons.mpr ⟨core, each⟩, parted⟩
          rw [shape, ← List.append_assoc one, text]
          simp
      · exact .inr (alone (parted_append parted _))

/-- Spacing keeps every type of the grammar, or parts a zone from the digits before it. -/
theorem core_stays (core : Core form text type) : StaysCore form text type := by
  induction core with
  | scalar word plain each =>
    exact plain_stays (.scalar word plain each) (plain_append (word_plain word) (words_plain each))
  | decimal name =>
    have word := name.elim (name_word (by decide)) (name_word (by decide))
    exact plain_stays (.decimal name) (word_plain word)
  | decimalOf name layout arguments =>
    have word := name.elim (name_word (by decide)) (name_word (by decide))
    apply called_stays word layout fun again spaced =>
      .inl (decimal_arguments_spaced arguments spaced)
    · intro front again back close before behind held ends
      exact .decimalOf name before
        (decimal_arguments_before (decimal_arguments_padded held ends) behind)
    · exact fun _ _ _ _ _ _ none => False.elim none
  | timestamp name => exact plain_stays (.timestamp name) (word_plain (name_word (by decide) name))
  | timestampOf name layout arguments =>
    apply called_stays (name_word (by decide) name) layout fun again spaced =>
      timestamp_arguments_spaced arguments spaced
    · intro front again back close before behind held ends
      exact .timestampOf name before
        (timestamp_arguments_before (timestamp_arguments_padded held ends) behind)
    · rintro front - back rest before behind ⟨gap, digits, n, middle, zone, rfl, layout, number,
        apart, some⟩
      have broken := Broken.zone name before (layout_append.mpr ⟨behind, layout⟩) number apart some
        (zone ++ rest)
      simpa using broken
  | nullable name layout member inner ih =>
    apply called_stays (name_word (by decide) name) layout fun again spaced =>
      member_spaced member ih spaced
    · intro front again back close before behind held ends
      exact nullable_of_whole name before (whole_before (whole_padded held ends) behind)
    · intro front again back rest before behind parted
      obtain ⟨gap, text, same, layout, broken⟩ := parted_before (parted_append parted rest) behind
      rw [same]
      exact .nullable name before layout broken
  | array name layout member inner ih =>
    apply called_stays (name_word (by decide) name) layout fun again spaced =>
      member_spaced member ih spaced
    · intro front again back close before behind held ends
      exact array_of_whole name before (whole_before (whole_padded held ends) behind)
    · intro front again back rest before behind parted
      obtain ⟨gap, text, same, layout, broken⟩ := parted_before (parted_append parted rest) behind
      rw [same]
      exact .array name before layout broken
  | tuple name layout members some each ih =>
    apply called_stays (name_word (by decide) name) layout fun again spaced =>
      list_spaced members some ih spaced
    · intro front again back close before behind held ends
      exact tuple_of_listed name before (listed_before (listed_padded held ends) behind)
    · intro front again back rest before behind parted
      obtain ⟨members, text, same, each, parted⟩ := parted_list_before parted behind
      obtain ⟨gap, text, shape, layout, broken⟩ := parted_append parted rest
      rw [← List.append_assoc back, same, List.append_assoc, shape]
      exact .tuple name before members each layout broken

/-- Spacing keeps what a text names, or parts a zone from the digits before it. -/
theorem names_spaced (names : Names text column) (spaced : Spaced text again) :
    Names again column ∨ Parted again := by
  obtain ⟨-, rest, rfl, ⟨member, rfl, rfl, core⟩, blank⟩ := names
  obtain ⟨whole, behind, rfl, one, two⟩ := spaced_append spaced
  rw [spaced_plain (blank_plain blank) two]
  rcases member_spaced member (core_stays core) one with held | parted
  · exact .inl ⟨whole, rest, rfl, held, blank⟩
  · exact .inr (parted_append parted rest)

/-! ## Layout before a zone -/

/-- An opening parenthesis comes next. -/
def Stuck (rest : Text) : Prop := ∃ gap inside, rest = gap ++ '(' :: inside ∧ Layout gap

private theorem stuck_mark (stuck : Stuck rest) (other : '(' ≠ mark) : mark? mark rest = none := by
  obtain ⟨gap, inside, rfl, layout⟩ := stuck
  exact mark_other layout rfl other inside

private theorem stuck_suffix (stuck : Stuck rest) : nullSuffix rest = (false, rest) := by
  obtain ⟨gap, inside, rfl, layout⟩ := stuck
  apply null_suffix_absent
  rw [skip_layout layout, skip_solid rfl]
  rintro c ⟨⟩
  exact opening_not_word

/-- A word before a parenthesis is read as a scalar, where it is read as nothing else. -/
theorem scalar_stuck (word : IsWord first) (layout : Layout gap)
    (found : scalar? (first ++ (gap ++ '(' :: inside)) = some (type, rest)) : Stuck rest := by
  have next : NoWordNext (gap ++ '(' :: inside) := by
    cases gap with
    | nil =>
      rintro c ⟨⟩
      exact opening_not_word
    | cons c gap => exact layout_next (List.cons_ne_nil c gap) layout
  have ends : nextWord? (gap ++ '(' :: inside) = none := by
    apply next_word_absent
    rw [skip_layout layout, skip_solid rfl]
    rintro c ⟨⟩
    exact opening_not_word
  have none : ∀ within, furtherWords within (gap ++ '(' :: inside) =
      ([], gap ++ '(' :: inside) := by
    intro within
    cases within with
    | nil => rfl
    | cons w within => rw [furtherWords, ends]
  have read := next_word_complete layout_nil word next
  rw [List.nil_append] at read
  rw [scalar?, read] at found
  simp only [Option.bind_eq_bind, Option.bind_some, none] at found
  cases found
  exact ⟨gap, inside, rfl, layout⟩

private theorem wrapper_stuck (listed : name ∈ wrapperNames) (spells : Spells name word)
    (layout : Layout gap) (bare : core? depth (word ++ (gap ++ '(' :: inside)) =
      (decimal? (word ++ (gap ++ '(' :: inside)) <|> timestamp? (word ++ (gap ++ '(' :: inside)) <|>
        scalar? (word ++ (gap ++ '(' :: inside))))
    (found : core? depth (word ++ (gap ++ '(' :: inside)) = some (type, rest)) : Stuck rest := by
  have apart : ∀ wrapper ∈ wrapperNames, ∀ sized ∈ sizedNames, sized ≠ wrapper := by decide
  have other (sized : Text) (among : sized ∈ sizedNames) :
      Text.dropWord? sized (word ++ (gap ++ '(' :: inside)) = none :=
    other_name (List.mem_append_right _ among) name (List.mem_append_left _ listed)
      (apart name listed sized among) spells _
  have decimal : decimal? (word ++ (gap ++ '(' :: inside)) = none := by
    rw [decimal?, other _ (by decide), other _ (by decide)]
    rfl
  have timestamp : timestamp? (word ++ (gap ++ '(' :: inside)) = none := by
    rw [timestamp?, other _ (by decide)]
    rfl
  rw [bare, decimal, timestamp] at found
  exact scalar_stuck (name_word (List.mem_append_left _ listed) spells) layout found

private theorem timestamp_stuck (name : Spells "datetime64".toList word) (gap : Layout front)
    (before : Layout between) (number : Argument digits n) (layout : Layout middle)
    (apart : middle ≠ []) :
    core? depth (word ++ (front ++ '(' :: (between ++ (digits ++ (middle ++ ',' :: rest))))) =
      some (Column.ofKind .timestamp,
        front ++ '(' :: (between ++ (digits ++ (middle ++ ',' :: rest)))) := by
  have first := number_complete before number (digits_end layout ',' rfl rest)
  have arguments : timestampArguments? (between ++ (digits ++ (middle ++ ',' :: rest))) =
      some (n, middle ++ ',' :: rest) := by
    apply timestamp_arguments_plain first
    obtain ⟨c, middle, rfl⟩ := List.exists_cons_of_ne_nil apart
    rintro ⟨⟩
    exact absurd (layout ',' List.mem_cons_self) (by decide)
  have unclosed : parenthesised? timestampArguments?
      (front ++ '(' :: (between ++ (digits ++ (middle ++ ',' :: rest)))) = none := by
    apply parenthesised_unclosed gap
    intro found behind read
    rw [arguments] at read
    cases read
    exact mark_other layout rfl (by decide) rest
  apply timestamp_core name
  rw [(timestamp_named name _).2, unclosed]

private theorem wrapped_unclosed {α : Type} {reader : Text → Option (α × Text)}
    (spells : Spells name word)
    (layout : Layout gap)
    (unclosed : ∀ a rest, reader inside = some (a, rest) → mark? ')' rest = none) :
    wrapped? name reader (word ++ (gap ++ '(' :: inside)) = none := by
  rw [wrapped_eq, drop_spelled spells, Option.bind_some]
  exact parenthesised_unclosed layout unclosed

private theorem broken_solid (broken : Broken text) : skipLayout text = text := by
  cases broken with
  | zone name => exact skip_word (name_word (by decide) name) _
  | nullable name => exact skip_word (name_word (by decide) name) _
  | array name => exact skip_word (name_word (by decide) name) _
  | tuple name => exact skip_word (name_word (by decide) name) _

/-- A parenthesis is left over behind a type. -/
def LeavesStuck (text : Text) : Prop :=
  ∀ depth type rest, text.length ≤ depth → core? depth text = some (type, rest) → Stuck rest

private theorem column_stuck (leaves : LeavesStuck text) (broken : Broken text)
    (layout : Layout gap)
    (room : text.length < depth) (found : column? depth (gap ++ text) = some (column, rest)) :
    Stuck rest := by
  obtain ⟨depth, rfl⟩ := Nat.exists_eq_add_one_of_ne_zero (Nat.ne_zero_of_lt room)
  rw [column_eq, skip_layout layout, broken_solid broken] at found
  obtain ⟨⟨type, behind⟩, read, same⟩ := Option.map_eq_some_iff.mp found
  have stuck := leaves depth type behind (Nat.le_of_lt_succ room) read
  dsimp only at same
  rw [stuck_suffix stuck] at same
  cases same
  exact stuck

/-- Members before a broken one. The list ends with it or before it, and is not closed there. -/
theorem list_unclosed (members : List Member)
    (each : ∀ member ∈ members, Core member.form member.core member.type)
    (leaves : LeavesStuck text) (broken : Broken text) (layout : Layout gap)
    (room : ((members.flatMap fun member => member.text ++ [',']) ++ (gap ++ text)).length < depth)
    (found : list? (column? depth) within
      ((members.flatMap fun member => member.text ++ [',']) ++ (gap ++ text)) =
        some (columns, rest)) : mark? ')' rest = none := by
  induction members generalizing within columns with
  | nil =>
    cases within with
    | nil => cases found
    | cons w within =>
      have short : text.length < depth := by
        simp only [List.flatMap_nil, List.nil_append, List.length_append] at room
        omega
      simp only [list?, List.flatMap_nil, List.nil_append, Option.bind_eq_bind,
        Option.bind_eq_some_iff] at found
      obtain ⟨⟨column, behind⟩, first, found⟩ := found
      have stuck := column_stuck leaves broken layout short first
      have comma : mark? ',' behind = none := stuck_mark stuck (by decide)
      simp only [comma, Option.bind_none] at found
      cases found
      exact stuck_mark stuck (by decide)
  | cons member members ih =>
    obtain ⟨core, cores⟩ := List.forall_mem_cons.mp each
    cases within with
    | nil => cases found
    | cons w within =>
      have parts (rest : Text) : ((member :: members).flatMap fun member =>
          member.text ++ [',']) ++ rest = member.text ++ ',' ::
            ((members.flatMap fun member => member.text ++ [',']) ++ rest) := by simp
      have short := core_length member
      rw [parts] at room found
      simp only [List.length_append, List.length_cons] at room
      have read (rest : Text) := member_complete member core (core_complete core)
        (show member.core.length < depth by omega) (closes_mark (.inr rfl) rest)
      have comma (rest : Text) : mark? ',' (member.back ++ ',' :: rest) = some rest :=
        mark_complete member.back_layout rfl rest
      simp only [list?, read, comma, Option.bind_eq_bind, Option.bind_some] at found
      split at found
      next others after more =>
        cases found
        refine ih cores ?_ more
        simp only [List.length_append]
        omega
      · cases found
        exact mark_other member.back_layout rfl (by decide) _

private theorem broken_stuck (broken : Broken text) : LeavesStuck text := by
  induction broken with
  | zone name gap before number layout apart zone =>
    intro depth type rest room found
    rw [timestamp_stuck name gap before number layout apart] at found
    cases found
    exact ⟨_, _, rfl, gap⟩
  | @nullable word front between text name gap before inner ih =>
    intro depth type rest room found
    have short : text.length < depth := by
      simp only [List.length_append, List.length_cons] at room
      omega
    have unclosed := wrapped_unclosed name gap fun column rest read =>
      stuck_mark (column_stuck ih inner before short read) (by decide)
    exact wrapper_stuck (by decide) name gap (core_bare unclosed
      (wrapped_other (by decide) _ (by decide) (by decide) name _)
      (wrapped_other (by decide) _ (by decide) (by decide) name _)) found
  | @array word front between text name gap before inner ih =>
    intro depth type rest room found
    have short : text.length < depth := by
      simp only [List.length_append, List.length_cons] at room
      omega
    have unclosed := wrapped_unclosed name gap fun column rest read =>
      stuck_mark (column_stuck ih inner before short read) (by decide)
    exact wrapper_stuck (by decide) name gap (core_bare
      (wrapped_other (by decide) _ (by decide) (by decide) name _) unclosed
      (wrapped_other (by decide) _ (by decide) (by decide) name _)) found
  | @tuple word front between text name gap members each before inner ih =>
    intro depth type rest room found
    have short : ((members.flatMap fun member => member.text ++ [',']) ++
        (between ++ text)).length < depth := by
      simp only [List.length_append, List.length_cons] at room ⊢
      omega
    have unclosed : wrapped? "tuple".toList (fun inside => list? (column? depth) inside inside) _ =
        none := wrapped_unclosed name gap fun columns rest read =>
      list_unclosed members each ih inner before short read
    exact wrapper_stuck (by decide) name gap (core_bare
      (wrapped_other (by decide) _ (by decide) (by decide) name _)
      (wrapped_other (by decide) _ (by decide) (by decide) name _) unclosed) found

/-- Layout before a zone, at any depth, leaves the whole text without a type. -/
theorem broken_unread (broken : Broken text) (layout : Layout front) :
    read? (front ++ text) = none := by
  rw [read?]
  cases found : column? ((front ++ text).length + 1) (front ++ text) with
  | none => rfl
  | some read =>
    obtain ⟨column, rest⟩ := read
    have room : text.length < (front ++ text).length + 1 := by
      rw [List.length_append]
      omega
    obtain ⟨gap, inside, rfl, -⟩ := column_stuck (broken_stuck broken) broken layout room found
    have solid : ¬ Text.allBlank (gap ++ '(' :: inside) = true := by
      intro blank
      have char := List.all_eq_true.mp blank '(' (by simp)
      cases char
    exact if_neg solid

private theorem parted_unread (parted : Parted text) : read? text = none := by
  obtain ⟨front, rest, rfl, layout, broken⟩ := parted
  exact broken_unread broken layout

/-- Layout before and behind the marks of a type changes nothing. Only the comma of a time zone has
to stand directly behind the digits: layout before it leaves the whole text without a type. -/
theorem spacing_keeps_type (read : read? text = some column) (spaced : Spaced text again) :
    (¬ Parted again → read? again = some column ∧ ∀ name, Column.ofDeclaration name again =
      (Column.ofDeclaration name text).declaredAs name again) ∧
    (Parted again → read? again = none ∧ ∀ name, Column.ofDeclaration name again =
      (Column.ofKind .unknown).declaredAs name again) := by
  refine ⟨fun whole => ?_, fun parted => ?_⟩
  · have names := (names_spaced (read_names read) spaced).resolve_right whole
    have same : read? again = some column := names_read names
    refine ⟨same, fun name => ?_⟩
    rw [Column.ofDeclaration, Column.ofDeclaration, same, read]
    cases column <;> rfl
  · have none := parted_unread parted
    refine ⟨none, fun name => ?_⟩
    rw [Column.ofDeclaration, none]
    rfl

theorem spaced_zones_keep_or_lose_type :
    let plain := "Array(DateTime64(3,'UTC'))".toList
    let apart := "Array ( DateTime64(3,\t'UTC') )".toList
    let broken := "Array(DateTime64(3 ,'UTC'))".toList
    Column.ofDeclaration ['t'] apart = (Column.ofDeclaration ['t'] plain).declaredAs ['t'] apart ∧
    Column.ofDeclaration ['t'] broken = (Column.ofKind .unknown).declaredAs ['t'] broken := by
  intro plain apart broken
  have read : read? plain = some (Column.arrayOf (.timestamp {} 3)) := by rfl
  have tab : Layout ['\t'] := by decide
  have last : Spaced "'UTC'))".toList "'UTC') )".toList :=
    spaced_kept "'UTC')".toList (.mark rfl blank_layout layout_nil .nil)
  have spaced : Spaced plain apart :=
    spaced_kept "Array".toList (.mark rfl blank_layout blank_layout
      (spaced_kept "DateTime64(3".toList (.mark rfl layout_nil tab last)))
  have whole : ¬ Parted apart := by
    intro parted
    have found : read? apart = some (Column.arrayOf (.timestamp {} 3)) := by rfl
    rw [parted_unread parted] at found
    cases found
  have misplaced : Spaced plain broken :=
    spaced_kept "Array(DateTime64(3".toList (.mark rfl blank_layout layout_nil (spaced_refl _))
  have name : Spells "array".toList "Array".toList := by decide
  have timestamp : Spells "datetime64".toList "DateTime64".toList := by decide
  have number : Argument ['3'] 3 := ⟨by decide, by simp [AllDigits], rfl, by decide⟩
  have inner := Broken.zone timestamp layout_nil layout_nil number blank_layout (by decide)
    "'UTC'))".toList
  have parted : Parted broken := ⟨[], _, rfl, layout_nil, .array name layout_nil layout_nil inner⟩
  exact ⟨((spacing_keeps_type read spaced).1 whole).2 ['t'],
    ((spacing_keeps_type read misplaced).2 parted).2 ['t']⟩

/-- One blank before the comma of a time zone. -/
theorem blank_before_zone_loses_type :
    read? "DateTime64(3, 'UTC')".toList = some (.timestamp {} 3) ∧
    Spaced "DateTime64(3, 'UTC')".toList "DateTime64(3 , 'UTC')".toList ∧
    (Column.ofDeclaration ['c'] "DateTime64(3 , 'UTC')".toList).kind = .unknown := by
  have behind := spaced_refl " 'UTC')".toList
  have spaced := spaced_kept "DateTime64(3".toList
    (.mark (c := ',') rfl blank_layout layout_nil behind)
  exact ⟨by rfl, spaced, by rfl⟩

end SqlWire.TypeSpacing
