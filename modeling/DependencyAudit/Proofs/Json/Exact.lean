import DependencyAudit.Proofs.Json.Parts

namespace DependencyAudit.Json

variable {admits : List Char → Prop} {s rest : List Char}

/-- What the reader of a part gives is written there, and the text holds what the reader stops for,
where `levels` arrays and objects may be opened. -/
structure Sound {α : Type} (levels : Nat) (part : α → Part)
    (reader : List Char → Except Stop (α × List Char)) : Prop where
  spells : ∀ {s a rest}, reader s = .ok (a, rest) → Spells Short s (part a) rest
  due : ∀ {s stop}, reader s = .error stop → Due levels s stop

variable {levels : Nat} {reader : List Char → Except Stop (Value × List Char)}

theorem sound_readScalar (levels : Nat) : Sound levels .value readScalar where
  spells := by
    intro s value rest read
    rw [readScalar] at read
    split at read
    next found word =>
      cases read
      obtain ⟨word, member, rfl⟩ := exists_word word
      exact .word member
    next =>
      dsimp only at read
      split at read
      next =>
        obtain ⟨⟨number, left⟩, first, same⟩ := Except.bind_eq_ok_iff.mp read
        cases same
        exact .number (.negative (unsigned_of_readUnsigned first))
      next =>
        obtain ⟨⟨number, left⟩, first, same⟩ := Except.bind_eq_ok_iff.mp read
        cases same
        exact .number (.positive (unsigned_of_readUnsigned first))
  due := by
    intro s stop read
    rw [readScalar] at read
    split at read
    next => cases read
    next =>
      dsimp only at read
      split at read
      next =>
        rcases Except.bind_eq_error_iff.mp read with read | ⟨_, _, read⟩
        · exact due_of_readUnsigned (List.suffix_cons _ _) read
        · cases read
      next =>
        rcases Except.bind_eq_error_iff.mp read with read | ⟨_, _, read⟩
        · exact due_of_readUnsigned (List.suffix_refl _) read
        · cases read

/-- A comma and the space behind it open and close nothing. -/
theorem leads_of_comma {left more : List Char} (comma : skipSpace left = ',' :: more) :
    Leads 0 left (skipSpace more) :=
  (((spaces_of_skipSpace comma).runs.trans ((Runs.refl _).cons (by decide))).trans
    (spaces_skipSpace more).runs).leads

theorem Sound.readItems (sound : Sound levels .value reader) (fuel : Nat) :
    Sound levels .items (readItems reader fuel) := by
  induction fuel with
  | zero => exact ⟨nofun, fun read => by cases read; trivial⟩
  | succ fuel ih =>
    constructor
    · intro s items rest read
      obtain ⟨⟨item, left⟩, first, read⟩ := Except.bind_eq_ok_iff.mp read
      dsimp only at read
      split at read
      next closed =>
        cases read
        exact .lastItem (sound.spells first) (spaces_of_skipSpace closed)
      next comma =>
        obtain ⟨⟨others, left⟩, later, same⟩ := Except.bind_eq_ok_iff.mp read
        cases same
        exact .nextItem (sound.spells first) (spaces_of_skipSpace comma) (spaces_skipSpace _)
          (ih.spells later)
      next => cases read
    · intro s stop read
      rcases Except.bind_eq_error_iff.mp read with read | ⟨⟨item, left⟩, first, read⟩
      · exact sound.due read
      dsimp only at read
      split at read
      next => cases read
      next comma =>
        rcases Except.bind_eq_error_iff.mp read with read | ⟨_, _, read⟩
        · exact (ih.due read).of_leads ((sound.spells first).leads.trans (leads_of_comma comma))
        · cases read
      next =>
        cases read
        trivial

/-- A key and the colon behind it open and close nothing. -/
theorem leads_of_key {points : List Text.Point} {text colon more : List Char}
    (key : Points text points colon) (separated : skipSpace colon = ':' :: more) :
    Leads 0 ('"' :: text) (skipSpace more) :=
  key.leads.trans (((spaces_of_skipSpace separated).runs.trans
    ((Runs.refl _).cons (by decide))).trans (spaces_skipSpace more).runs).leads

theorem Sound.spells_readMembers (sound : Sound levels .value reader) {fuel : Nat}
    {members : List (Name × Value)} (read : readMembers reader fuel s = .ok (members, rest)) :
    Spells Short s (.members members) rest := by
  induction fuel generalizing s members rest with
  | zero => cases read
  | succ fuel ih =>
    rw [readMembers.eq_def] at read
    split at read
    next => cases read
    next text same =>
      obtain rfl := Nat.succ.inj same
      obtain ⟨⟨found, colon⟩, key, read⟩ := Except.bind_eq_ok_iff.mp read
      obtain ⟨points, points, rfl⟩ := readString_eq_ok_iff.mp key
      dsimp only at read
      split at read
      next separated =>
        obtain ⟨⟨value, left⟩, first, read⟩ := Except.bind_eq_ok_iff.mp read
        dsimp only at read
        split at read
        next closed =>
          cases read
          exact .lastMember points (spaces_of_skipSpace separated) (spaces_skipSpace _)
            (sound.spells first) (spaces_of_skipSpace closed)
        next comma =>
          obtain ⟨⟨others, left⟩, later, same⟩ := Except.bind_eq_ok_iff.mp read
          cases same
          exact .nextMember points (spaces_of_skipSpace separated) (spaces_skipSpace _)
            (sound.spells first) (spaces_of_skipSpace comma) (spaces_skipSpace _) (ih later)
        next => cases read
      next => cases read
    next => cases read

theorem Sound.due_readMembers (sound : Sound levels .value reader) {fuel : Nat} {stop : Stop}
    (read : readMembers reader fuel s = .error stop) : Due levels s stop := by
  induction fuel generalizing s with
  | zero =>
    cases read
    trivial
  | succ fuel ih =>
    rw [readMembers.eq_def] at read
    split at read
    next =>
      cases read
      trivial
    next text same =>
      obtain rfl := Nat.succ.inj same
      rcases Except.bind_eq_error_iff.mp read with read | ⟨⟨found, colon⟩, key, read⟩
      · exact due_of_readString read
      obtain ⟨points, points, rfl⟩ := readString_eq_ok_iff.mp key
      dsimp only at read
      split at read
      next separated =>
        have atValue := leads_of_key points separated
        rcases Except.bind_eq_error_iff.mp read with read | ⟨⟨value, left⟩, first, read⟩
        · exact (sound.due read).of_leads atValue
        dsimp only at read
        split at read
        next => cases read
        next comma =>
          rcases Except.bind_eq_error_iff.mp read with read | ⟨_, _, read⟩
          · have atNext := (sound.spells first).leads.trans (leads_of_comma comma)
            exact (ih read).of_leads (atValue.trans atNext)
          · cases read
        next =>
          cases read
          trivial
      next =>
        cases read
        trivial
    next =>
      cases read
      trivial

/-- No array or object can be opened where no level is left. -/
theorem due_zero {c : Char} (opens : c = '[' ∨ c = '\x7b') (s : List Char) (place : TooDeep) :
    Due 0 (c :: s) (.tooDeep place) := by
  intro opened
  have inside := le_deepest false (opened + 1) s
  rcases opens with rfl | rfl <;> simpa [deepest_cons] using inside

section

variable (sound : ∀ n < levels, Sound n .value (readValue n))
include sound

theorem spells_readValue {value : Value} (read : readValue levels s = .ok (value, rest)) :
    Spells Short s (.value value) rest := by
  rw [readValue.eq_def] at read
  split at read
  next text =>
    obtain ⟨⟨found, left⟩, first, same⟩ := Except.bind_eq_ok_iff.mp read
    cases same
    obtain ⟨points, points, rfl⟩ := readString_eq_ok_iff.mp first
    exact .text points
  next => cases read
  next n spaced =>
    split at read
    next closed =>
      cases read
      exact .noItems (spaces_of_skipSpace closed)
    next =>
      obtain ⟨⟨items, left⟩, first, same⟩ := Except.bind_eq_ok_iff.mp read
      cases same
      exact .array (spaces_skipSpace spaced) (((sound n n.lt_succ_self).readItems _).spells first)
  next => cases read
  next n spaced =>
    split at read
    next closed =>
      cases read
      exact .noMembers (spaces_of_skipSpace closed)
    next =>
      obtain ⟨⟨members, left⟩, first, same⟩ := Except.bind_eq_ok_iff.mp read
      cases same
      exact .object (spaces_skipSpace spaced) ((sound n n.lt_succ_self).spells_readMembers first)
  next => exact (sound_readScalar levels).spells read

theorem due_readValue {stop : Stop} (read : readValue levels s = .error stop) :
    Due levels s stop := by
  rw [readValue.eq_def] at read
  split at read
  next text =>
    rcases Except.bind_eq_error_iff.mp read with read | ⟨_, _, read⟩
    · exact due_of_readString read
    · cases read
  next =>
    cases read
    exact due_zero (.inl rfl) _ _
  next n spaced =>
    split at read
    next => cases read
    next =>
      rcases Except.bind_eq_error_iff.mp read with read | ⟨_, _, read⟩
      · have inside := ((sound n n.lt_succ_self).readItems _).due read
        exact (inside.of_leads (spaces_skipSpace spaced).runs.leads).open (.inl rfl)
      · cases read
  next =>
    cases read
    exact due_zero (.inr rfl) _ _
  next n spaced =>
    split at read
    next => cases read
    next =>
      rcases Except.bind_eq_error_iff.mp read with read | ⟨_, _, read⟩
      · have inside := (sound n n.lt_succ_self).due_readMembers read
        exact (inside.of_leads (spaces_skipSpace spaced).runs.leads).open (.inr rfl)
      · cases read
  next => exact (sound_readScalar levels).due read

end

/-- Whatever is read is written, however many levels are left. -/
theorem sound_readValue (levels : Nat) : Sound levels .value (readValue levels) := by
  induction levels using Nat.strongRecOn with
  | ind levels ih => exact ⟨spells_readValue ih, due_readValue ih⟩

section Completeness

/-- The characters with which a word or a number starts. -/
def OpensScalar (c : Char) : Prop := c ∈ ['-', 'n', 't', 'f', 'N', 'I'] ∨ c.isDigit

/-- The characters with which a value starts. -/
def Opens (c : Char) : Prop := c ∈ ['"', '[', '\x7b'] ∨ OpensScalar c

theorem OpensScalar.ne {c other : Char} (opens : OpensScalar c)
    (apart : other ∈ ['"', '[', '\x7b', ' ', '\t', '\n', '\r', ']', '\x7d', '\uFEFF']) :
    c ≠ other := by
  have all : ∀ c ∈ ['"', '[', '\x7b', ' ', '\t', '\n', '\r', ']', '\x7d', '\uFEFF'],
      c ∉ ['-', 'n', 't', 'f', 'N', 'I'] ∧ c.isDigit = false := by
    simp only [List.forall_mem_cons, List.not_mem_nil, false_imp_iff, implies_true, and_true]
    decide
  rintro rfl
  obtain ⟨noMark, noDigit⟩ := all c apart
  rcases opens with mark | digit
  · exact noMark mark
  · rw [noDigit] at digit
    cases digit

theorem Opens.ne {c other : Char} (opens : Opens c)
    (apart : other ∈ [' ', '\t', '\n', '\r', ']', '\x7d', '\uFEFF']) : c ≠ other := by
  rcases opens with mark | scalar
  · have all : ∀ c ∈ ['"', '[', '\x7b'],
        c ∉ [' ', '\t', '\n', '\r', ']', '\x7d', '\uFEFF'] := by
      simp only [List.forall_mem_cons, List.not_mem_nil, false_imp_iff, implies_true, and_true]
      decide
    rintro rfl
    exact all c mark apart
  · exact scalar.ne (List.mem_cons_of_mem _ (List.mem_cons_of_mem _ (List.mem_cons_of_mem _ apart)))

theorem exists_head_of_mem_words {word : List Char} {value : Value}
    (member : (word, value) ∈ words) (rest : List Char) :
    ∃ c tail, word ++ rest = c :: tail ∧ OpensScalar c := by
  simp only [words, List.mem_cons, List.not_mem_nil, or_false, Prod.mk.injEq] at member
  rcases member with ⟨rfl, -⟩ | ⟨rfl, -⟩ | ⟨rfl, -⟩ | ⟨rfl, -⟩ | ⟨rfl, -⟩ | ⟨rfl, -⟩
  all_goals exact ⟨_, _, rfl, .inl (by decide)⟩

theorem Numeral.exists_head {number : Number} (written : Numeral admits s number rest) :
    ∃ c tail, s = c :: tail ∧ OpensScalar c := by
  cases written with
  | positive unsigned =>
    obtain ⟨c, tail, rfl, digit⟩ := unsigned.exists_digit
    exact ⟨c, tail, rfl, .inr digit⟩
  | negative _ => exact ⟨_, _, rfl, .inl (by decide)⟩

theorem Spells.exists_head {part : Part} (written : Spells admits s part rest) :
    ∃ c tail, s = c :: tail ∧ Opens c := by
  induction written with
  | word member =>
    obtain ⟨c, tail, shape, opens⟩ := exists_head_of_mem_words member _
    exact ⟨c, tail, shape, .inr opens⟩
  | number numeral =>
    obtain ⟨c, tail, shape, opens⟩ := numeral.exists_head
    exact ⟨c, tail, shape, .inr opens⟩
  | text _ => exact ⟨_, _, rfl, .inl (by decide)⟩
  | noItems _ => exact ⟨_, _, rfl, .inl (by decide)⟩
  | array _ _ => exact ⟨_, _, rfl, .inl (by decide)⟩
  | noMembers _ => exact ⟨_, _, rfl, .inl (by decide)⟩
  | object _ _ => exact ⟨_, _, rfl, .inl (by decide)⟩
  | lastItem _ _ ih => exact ih
  | nextItem _ _ _ _ ih => exact ih
  | lastMember _ _ _ _ _ => exact ⟨_, _, rfl, .inl (by decide)⟩
  | nextMember _ _ _ _ _ _ _ => exact ⟨_, _, rfl, .inl (by decide)⟩

theorem Opens.not_isSpace {c : Char} (opens : Opens c) : ¬ isSpace c := by
  simp only [isSpace, Bool.or_eq_true, beq_iff_eq, not_or]
  exact ⟨⟨⟨opens.ne (by decide), opens.ne (by decide)⟩, opens.ne (by decide)⟩, opens.ne (by decide)⟩

/-- Space before something that is written is passed over, and nothing more. -/
theorem Spaces.skipSpace_eq_of_spells {part : Part} {left : List Char} (spaces : Spaces s left)
    (written : Spells admits left part rest) : skipSpace s = left := by
  obtain ⟨c, tail, rfl, opens⟩ := written.exists_head
  refine spaces.skipSpace_eq ?_
  intro other next
  cases next
  exact opens.not_isSpace

theorem Spaces.skipSpace_eq_of_mark {c : Char} (spaces : Spaces s (c :: rest))
    (mark : c ∈ [',', ']', '\x7d', ':']) : skipSpace s = c :: rest := by
  refine spaces.skipSpace_eq ?_
  intro other next
  cases next
  have all : ∀ c ∈ [',', ']', '\x7d', ':'], isSpace c = false := by
    simp only [List.forall_mem_cons, List.not_mem_nil, false_imp_iff, implies_true, and_true]
    decide
  simp [all c mark]

/-- Space and a mark behind it can stand behind a value. -/
theorem Spaces.behind {c : Char} (spaces : Spaces s (c :: rest)) (mark : c ∈ [',', ']', '\x7d']) :
    Behind s := by
  obtain ⟨run, rfl, all⟩ := spaces
  intro other next
  cases run with
  | nil =>
    cases next
    exact .inr mark
  | cons =>
    cases next
    exact .inl (all other List.mem_cons_self)

theorem OpensScalar.readValue_eq {c : Char} (opens : OpensScalar c) (depth : Nat)
    (tail : List Char) : readValue depth (c :: tail) = readScalar (c :: tail) :=
  readValue_eq_readScalar depth (opens.ne (by decide)) (opens.ne (by decide))
    (opens.ne (by decide)) tail

section

variable {depth fuel : Nat} {item value : Value} {left more next start colon text : List Char}
  {items : List Value} {members : List (Name × Value)} {points : List Text.Point}

theorem comes_readItems_last (first : Comes admits (reader s) item left)
    (closed : Spaces left (']' :: rest)) :
    Comes admits (readItems reader (fuel + 1) s) [item] rest := by
  rw [readItems]
  refine first.bind ?_
  dsimp only
  rw [closed.skipSpace_eq_of_mark (by decide)]
  exact .inl rfl

theorem comes_readItems_next (first : Comes admits (reader s) item left)
    (comma : Spaces left (',' :: more)) (spaces : skipSpace more = next)
    (later : Comes admits (readItems reader fuel next) items rest) :
    Comes admits (readItems reader (fuel + 1) s) (item :: items) rest := by
  rw [readItems]
  refine first.bind ?_
  dsimp only
  rw [comma.skipSpace_eq_of_mark (by decide)]
  change Comes admits (readItems reader fuel (skipSpace more) >>= _) _ _
  rw [spaces]
  exact later.bind (.inl rfl)

theorem comes_readMembers_last (key : Points text points colon)
    (separated : Spaces colon (':' :: more)) (spaces : skipSpace more = start)
    (first : Comes admits (reader start) value left) (closed : Spaces left ('\x7d' :: rest)) :
    Comes admits (readMembers reader (fuel + 1) ('"' :: text)) [(.ofPoints points, value)] rest := by
  rw [readMembers]
  refine Comes.bind (.inl (readString_eq_ok_iff.mpr ⟨_, key, rfl⟩)) ?_
  dsimp only
  rw [separated.skipSpace_eq_of_mark (by decide)]
  change Comes admits (reader (skipSpace more) >>= _) _ _
  rw [spaces]
  refine first.bind ?_
  dsimp only
  rw [closed.skipSpace_eq_of_mark (by decide)]
  exact .inl rfl

theorem comes_readMembers_next {behind : List Char} (key : Points text points colon)
    (separated : Spaces colon (':' :: more)) (spaces : skipSpace more = start)
    (first : Comes admits (reader start) value left) (comma : Spaces left (',' :: behind))
    (spaces' : skipSpace behind = next)
    (later : Comes admits (readMembers reader fuel next) members rest) :
    Comes admits (readMembers reader (fuel + 1) ('"' :: text))
      ((.ofPoints points, value) :: members) rest := by
  rw [readMembers]
  refine Comes.bind (.inl (readString_eq_ok_iff.mpr ⟨_, key, rfl⟩)) ?_
  dsimp only
  rw [separated.skipSpace_eq_of_mark (by decide)]
  change Comes admits (reader (skipSpace more) >>= _) _ _
  rw [spaces]
  refine first.bind ?_
  dsimp only
  rw [comma.skipSpace_eq_of_mark (by decide)]
  change Comes admits (readMembers reader fuel (skipSpace behind) >>= _) _ _
  rw [spaces']
  exact later.bind (.inl rfl)

theorem comes_readValue_items {c : Char} (spaces : skipSpace s = c :: text) (notClosed : c ≠ ']')
    (read : ∀ depth, Comes admits (readItems (readValue depth) (text.length + 1) (c :: text)) items
      rest) : Comes admits (readValue depth ('[' :: s)) (.array items) rest := by
  cases depth with
  | zero => exact .inr (.inr ⟨⟨.array⟩, by rw [readValue]⟩)
  | succ depth =>
    rw [readValue, spaces]
    split
    next closed => exact absurd (List.cons.inj closed).1 notClosed
    next => exact (read depth).bind (.inl rfl)

theorem comes_readValue_members {c : Char} (spaces : skipSpace s = c :: text)
    (notClosed : c ≠ '\x7d')
    (read : ∀ depth, Comes admits (readMembers (readValue depth) (text.length + 1) (c :: text))
      members rest) :
    Comes admits (readValue depth ('\x7b' :: s)) (.object (Members.ofWritten members)) rest := by
  cases depth with
  | zero => exact .inr (.inr ⟨⟨.object⟩, by rw [readValue]⟩)
  | succ depth =>
    rw [readValue, spaces]
    split
    next closed => exact absurd (List.cons.inj closed).1 notClosed
    next => exact (read depth).bind (.inl rfl)

theorem comes_readValue_noItems (closed : Spaces s (']' :: rest)) :
    Comes admits (readValue depth ('[' :: s)) (.array []) rest := by
  cases depth with
  | zero => exact .inr (.inr ⟨⟨.array⟩, by rw [readValue]⟩)
  | succ depth =>
    rw [readValue, closed.skipSpace_eq_of_mark (by decide)]
    exact .inl rfl

theorem comes_readValue_noMembers (closed : Spaces s ('\x7d' :: rest)) :
    Comes admits (readValue depth ('\x7b' :: s)) (.object []) rest := by
  cases depth with
  | zero => exact .inr (.inr ⟨⟨.object⟩, by rw [readValue]⟩)
  | succ depth =>
    rw [readValue, closed.skipSpace_eq_of_mark (by decide)]
    exact .inl rfl

theorem comes_readValue_text (written : Points s points rest) :
    Comes admits (readValue depth ('"' :: s)) (.text (.ofPoints points)) rest := by
  refine .inl ?_
  rw [readValue, readString_eq_ok_iff.mpr ⟨_, written, rfl⟩]
  rfl

theorem comes_readValue_word {word : List Char} (member : (word, value) ∈ words) :
    Comes admits (readValue depth (word ++ rest)) value rest := by
  obtain ⟨c, tail, shape, opens⟩ := exists_head_of_mem_words member rest
  refine .inl ?_
  rw [shape, opens.readValue_eq, ← shape, readScalar_word member]

theorem comes_readValue_number {number : Number} (written : Numeral admits s number rest)
    (behind : Behind rest) : Comes admits (readValue depth s) (.number number) rest := by
  obtain ⟨c, tail, rfl, opens⟩ := written.exists_head
  rw [opens.readValue_eq]
  exact readScalar_of_numeral written behind

end

/-- What the reader gives for a part that is written, with enough fuel. -/
def ReadBack (admits : List Char → Prop) (s : List Char) : Part → List Char → Prop
  | .value value, rest => Behind rest → ∀ depth, Comes admits (readValue depth s) value rest
  | .items items, rest =>
    ∀ depth fuel, s.length ≤ fuel → Comes admits (readItems (readValue depth) fuel s) items rest
  | .members members, rest =>
    ∀ depth fuel, s.length ≤ fuel →
      Comes admits (readMembers (readValue depth) fuel s) members rest

/-- What stands behind a comma takes less fuel than what stands before it. -/
theorem exists_fuel {left next : List Char} {fuel : Nat} (enough : s.length ≤ fuel)
    (leads : Leads 0 s (',' :: left)) (spaces : Spaces left next) :
    ∃ less, fuel = less + 1 ∧ next.length ≤ less := by
  have within := leads.suffix.length_le
  have later := spaces.runs.leads.suffix.length_le
  rw [List.length_cons] at within
  exact ⟨fuel - 1, by omega, by omega⟩

/-- All that is written is read, unless a long number or a bracket that is too deep comes first. -/
theorem Spells.readBack {part : Part} (written : Spells admits s part rest) :
    ReadBack admits s part rest := by
  have mark : ∀ {s rest : List Char} {c : Char}, Spaces s (c :: rest) → c ∈ [',', ']', '\x7d'] →
      Behind s := fun spaces => spaces.behind
  induction written with
  | word member => exact fun _ _ => comes_readValue_word member
  | number numeral => exact fun behind _ => comes_readValue_number numeral behind
  | text points => exact fun _ _ => comes_readValue_text points
  | noItems closed => exact fun _ _ => comes_readValue_noItems closed
  | noMembers closed => exact fun _ _ => comes_readValue_noMembers closed
  | array spaces written ih =>
    intro _ depth
    have start := spaces.skipSpace_eq_of_spells written
    obtain ⟨c, tail, rfl, opens⟩ := written.exists_head
    exact comes_readValue_items start (opens.ne (by decide)) fun depth => ih depth _ (Nat.le_refl _)
  | object spaces written ih =>
    intro _ depth
    have start := spaces.skipSpace_eq_of_spells written
    obtain ⟨c, tail, rfl, opens⟩ := written.exists_head
    exact comes_readValue_members start (opens.ne (by decide)) fun depth =>
      ih depth _ (Nat.le_refl _)
  | lastItem written closed ih =>
    rintro depth (_ | fuel) enough
    · obtain ⟨c, tail, rfl, -⟩ := written.exists_head
      simp at enough
    exact comes_readItems_last (ih (mark closed (by decide)) depth) closed
  | nextItem written comma spaces later ih ih' =>
    intro depth fuel enough
    obtain ⟨fuel, rfl, less⟩ := exists_fuel enough (written.leads.trans comma.runs.leads) spaces
    exact comes_readItems_next (ih (mark comma (by decide)) depth) comma
      (spaces.skipSpace_eq_of_spells later) (ih' depth fuel less)
  | lastMember key separated spaces written closed ih =>
    rintro depth (_ | fuel) enough
    · simp at enough
    exact comes_readMembers_last key separated (spaces.skipSpace_eq_of_spells written)
      (ih (mark closed (by decide)) depth) closed
  | nextMember key separated spaces written comma spaces' later ih ih' =>
    intro depth fuel enough
    have colon : ∀ s, Leads 0 (':' :: s) s := fun _ => ((Runs.refl _).cons (by decide)).leads
    have atValue := key.leads.trans ((separated.runs.leads.trans (colon _)).trans
      spaces.runs.leads)
    obtain ⟨fuel, rfl, less⟩ := exists_fuel enough
      (atValue.trans (written.leads.trans comma.runs.leads)) spaces'
    exact comes_readMembers_next key separated (spaces.skipSpace_eq_of_spells written)
      (ih (mark comma (by decide)) depth) comma (spaces'.skipSpace_eq_of_spells later)
      (ih' depth fuel less)

/-- A whole number that is not short is where the reader stops. -/
theorem readValue_of_long {digits : List Char} (whole : WholeDigits digits)
    (long : ¬ Short digits) (behind : Behind rest) (depth : Nat) :
    readValue depth (digits ++ rest) = .error (.tooLong ⟨digits.length⟩) := by
  have parts : readUnsigned false (digits ++ rest) (digits ++ rest) =
      .error (.tooLong ⟨digits.length⟩) := by
    rw [readUnsigned_eq (wholeDigits?_append whole behind.noDigit)
      (fractionDigits_eq .none behind.noDigit (behind.head?_ne '.' (by decide)))
      (exponent?_eq .none behind) (fun _ => rfl), if_pos ⟨rfl, rfl, Nat.not_le.mp long⟩]
  obtain ⟨c, others, rfl, digit, -⟩ := whole.1.exists_head behind.noDigit
  have notMinus : c ≠ '-' := ne_of_isDigit digit rfl
  have opens : OpensScalar c := .inr digit
  rw [List.cons_append] at parts ⊢
  rw [opens.readValue_eq, readScalar, findSome?_words_of_digit digit]
  dsimp only
  split
  next minus => exact absurd (List.cons.inj minus).1 notMinus
  next =>
    rw [parts]
    rfl

end Completeness

section Texts

variable {limit : Nat} {value : Value}

theorem Spaces.behind_of_nil (spaces : Spaces s []) : Behind s := by
  obtain ⟨run, rfl, all⟩ := spaces
  intro c next
  rw [List.append_nil] at next
  exact .inl (all c (List.mem_of_mem_head? next))

/-- No text starts with a byte order mark. -/
theorem IsText.ne_byteOrderMark (written : IsText admits s value) (tail : List Char) :
    s ≠ '\uFEFF' :: tail := by
  obtain ⟨start, left, ⟨run, rfl, all⟩, written, -⟩ := written
  obtain ⟨c, others, rfl, opens⟩ := written.exists_head
  intro same
  cases run with
  | nil => exact opens.ne (by decide) (List.cons.inj same).1
  | cons first more =>
    have space := all first List.mem_cons_self
    rw [(List.cons.inj same).1] at space
    exact absurd space (by decide)

/-- A text that is not read holds what the reader stops for. -/
theorem due_of_readText {stop : Stop} (read : readText limit s = .error stop) :
    Due limit s stop := by
  rw [readText.eq_def] at read
  split at read
  next =>
    cases read
    trivial
  next =>
    rcases Except.bind_eq_error_iff.mp read with read | ⟨⟨found, left⟩, -, read⟩
    · exact ((sound_readValue limit).due read).of_leads (spaces_skipSpace s).runs.leads
    · dsimp only at read
      split at read
      next => cases read
      next =>
        cases read
        trivial

theorem readText_eq_bind (limit : Nat) (noMark : ∀ tail, s ≠ '\uFEFF' :: tail) :
    ∃ finish, readText limit s = readValue limit (skipSpace s) >>= finish ∧
      ∀ value rest, skipSpace rest = [] → finish (value, rest) = .ok value := by
  rw [readText]
  · exact ⟨_, rfl, fun value rest ends => by dsimp only; rw [ends]⟩
  · exact fun tail same => noMark tail same

/-- All that is a text and is not nested too deep is read as its value, unless a long number comes
first. -/
theorem readText_of_isText (written : IsText admits s value) (shallow : nesting s ≤ limit) :
    readText limit s = .ok value ∨
      ∃ number digits, readText limit s = .error (.tooLong number) ∧ admits digits ∧
        ¬ Short digits := by
  obtain ⟨finish, whole, finishes⟩ := readText_eq_bind limit written.ne_byteOrderMark
  obtain ⟨start, left, spaces, written, ends⟩ := written
  rw [spaces.skipSpace_eq_of_spells written] at whole
  obtain read | ⟨number, digits, read, long⟩ | ⟨place, read⟩ :=
    written.readBack ends.behind_of_nil limit
  · refine .inl ?_
    rw [whole, read]
    exact finishes value left (ends.skipSpace_eq (by simp))
  · refine .inr ⟨number, digits, ?_, long⟩
    rw [whole, read]
    rfl
  · have stopped : readText limit s = .error (.tooDeep place) := by
      rw [whole, read]
      rfl
    have deeper := due_of_readText stopped 0
    rw [Nat.zero_add] at deeper
    exact absurd shallow (Nat.not_le.mpr deeper)

theorem isText_of_readText (read : readText limit s = .ok value) : IsText Short s value := by
  rw [readText.eq_def] at read
  split at read
  next => cases read
  next =>
    obtain ⟨⟨found, left⟩, first, read⟩ := Except.bind_eq_ok_iff.mp read
    dsimp only at read
    split at read
    next ends =>
      cases read
      exact ⟨_, left, spaces_skipSpace s, (sound_readValue _).spells first,
        spaces_of_skipSpace ends⟩
    next => cases read

variable {text : String}

theorem isText_of_parse (read : parse limit text = .ok value) : IsText Short text.toList value :=
  isText_of_readText (Except.mapError_eq_ok_iff.mp read)

theorem parse_of_isText (written : IsText admits text.toList value)
    (shallow : nesting text.toList ≤ limit) :
    parse limit text = .ok value ∨
      ∃ number digits, parse limit text = .error (.tooLong number) ∧ admits digits ∧
        ¬ Short digits := by
  unfold parse
  obtain read | ⟨number, digits, read, long⟩ := readText_of_isText written shallow
  · exact .inl (by rw [read]; rfl)
  · exact .inr ⟨number, digits, by rw [read]; rfl, long⟩

/-- A text is read as the value that it writes, and all texts that write a value with short whole
numbers are read, as far as they are not nested too deep. -/
theorem parse_eq_ok_iff (shallow : nesting text.toList ≤ limit) :
    parse limit text = .ok value ↔ IsText Short text.toList value := by
  refine ⟨isText_of_parse, fun written => ?_⟩
  obtain read | ⟨_, digits, -, short, long⟩ := parse_of_isText written shallow
  · exact read
  · exact absurd short long

/-- A text is refused because it is malformed, because of a long number in it, or because it is
nested too deep. -/
theorem due_of_parse {fault : Fault} (read : parse limit text = .error fault) :
    (∃ complaint line column position, fault = .malformed complaint line column position) ∨
      (∃ number, fault = .tooLong number ∧ LongRun text.toList number) ∨
      ∃ place, fault = .tooDeep place ∧ limit < nesting text.toList := by
  obtain ⟨stop, stopped, rfl⟩ := Except.mapError_eq_error_iff.mp read
  have due := due_of_readText stopped
  cases stop with
  | malformed complaint left => exact .inl ⟨_, _, _, _, rfl⟩
  | tooLong number => exact .inr (.inl ⟨number, rfl, due⟩)
  | tooDeep place =>
    refine .inr (.inr ⟨place, rfl, ?_⟩)
    have deeper := due 0
    rwa [Nat.zero_add] at deeper

end Texts

end DependencyAudit.Json
