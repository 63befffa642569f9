import TypedStyle.Proofs.Truncation

/-!
Which form wins where several fit. No two forms fit at one place, except that a number with a unit
is also a number without one. The unit makes it longer, so the forms that take a unit have to be
tried before the one that takes none, and then the first form that fits is the one with the longest
match. No other part of the order makes a difference to any source.
-/

namespace TypedStyle

open Text
open scoped Computability List

namespace Form

variable {form other : Form} {text : List Char}

def Fits (form : Form) (text : List Char) : Prop := ∃ front ∈ form.pattern, front <+: text

theorem endsBefore_nil (form : Form) : form.EndsBefore [] := by
  cases form with
  | blank | lineComment => exact Cut.stops_nil _
  | blockComment => trivial
  | token kind => exact endsBefore_of_stops kind (Cut.stops_nil goesOn)

theorem fits_iff : form.Fits text ↔ ∃ front back, form.cut text = some (front, back) := by
  constructor
  · rintro ⟨front, written, more, rfl⟩
    have alone := form.takes_cut front [] written form.endsBefore_nil
    rw [List.append_nil] at alone
    exact form.grows_cut front front [] more alone
  · rintro ⟨front, back, fits⟩
    exact ⟨front, form.within_cut text front back fits, back, (form.exact_cut _ _ _ fits).symm⟩

theorem fits_of_cut {front back : List Char} (fits : form.cut text = some (front, back)) :
    form.Fits text :=
  fits_iff.mpr ⟨front, back, fits⟩

theorem cut_eq_none_iff : form.cut text = none ↔ ¬ form.Fits text := by
  simp [fits_iff, Option.eq_none_iff_forall_ne_some]

theorem nodup_all : all.Nodup := by decide

theorem mem_all_of_fits (fits : form.Fits text) : form ∈ all := by
  cases form with
  | blank | lineComment | blockComment => decide
  | token kind =>
      apply mem_all
      rintro rfl
      obtain ⟨front, absent, _⟩ := fits
      exact absent.elim

theorem lead?_eq_of_fits (here : form.Fits text) (there : other.Fits text) :
    form.lead? = other.lead? := by
  obtain ⟨front, back, fits⟩ := fits_iff.mp here
  obtain ⟨_, _, likewise⟩ := fits_iff.mp there
  cases text with
  | nil =>
      have nonempty := form.progresses_cut _ _ _ fits
      exact absurd (form.exact_cut _ _ _ fits) (by simp [nonempty])
  | cons first rest => rw [lead?_of_cut fits, lead?_of_cut likewise]

def HasUnit (form : Form) : Prop := form = .token .pixel ∨ form = .token .percentage

theorem not_hasUnit_scalar : ¬ HasUnit (.token .scalar) := by
  rintro (same | same) <;> cases same

theorem HasUnit.scalar_fits (unit : form.HasUnit) (fits : form.Fits text) :
    Fits (.token .scalar) text := by
  obtain ⟨_, written, begins⟩ := fits
  rcases unit with rfl | rfl
  all_goals
    obtain ⟨digits, decimal, unit, _, rfl⟩ := Language.mem_mul.mp written
    exact ⟨digits, decimal, (List.prefix_append digits unit).trans begins⟩

/-- One of the forms is that of a number with a unit, the other that of a number without one. -/
def Contend (form other : Form) : Prop :=
  form.HasUnit ∧ other = .token .scalar ∨ form = .token .scalar ∧ other.HasUnit

theorem not_fits_comments : ¬ (Fits .lineComment text ∧ Fits .blockComment text) := by
  rintro ⟨⟨_, line, begins⟩, ⟨_, block, likewise⟩⟩
  obtain ⟨_, rfl, _, _, rfl⟩ := Language.mem_mul.mp line
  obtain ⟨_, rfl, _, _, rfl⟩ := Language.mem_mul.mp block
  obtain ⟨_, rfl⟩ := begins
  obtain ⟨_, same⟩ := likewise
  cases same

theorem not_fits_units : ¬ (Fits (.token .pixel) text ∧ Fits (.token .percentage) text) := by
  rintro ⟨pixel, percentage⟩
  obtain ⟨_, _, fits⟩ := fits_iff.mp pixel
  obtain ⟨_, _, likewise⟩ := fits_iff.mp percentage
  obtain ⟨_, rest, _, digits, unit, _⟩ := Cut.andThen_eq_some.mp fits
  obtain ⟨_, _, _, again, other, _⟩ := Cut.andThen_eq_some.mp likewise
  cases digits.symm.trans again
  have same := (Cut.exactly_eq_some unit).2.symm.trans (Cut.exactly_eq_some other).2
  cases same

theorem hasUnit_of_earlier (before : other ∈ form.earlier) (here : form.Fits text)
    (there : other.Fits text) : other.HasUnit ∧ form = .token .scalar := by
  have lead := lead?_eq_of_fits there here
  rcases earlier_cases form (mem_all_of_fits here) other before lead with
    ⟨rfl, rfl⟩ | ⟨rfl, rfl | rfl⟩ | ⟨rfl, rfl⟩
  · exact (not_fits_comments ⟨there, here⟩).elim
  · exact (not_fits_units ⟨there, here⟩).elim
  · exact ⟨Or.inl rfl, rfl⟩
  · exact ⟨Or.inr rfl, rfl⟩

theorem earlier_or_earlier : ∀ form ∈ all, ∀ other ∈ all, form ≠ other →
    other ∈ form.earlier ∨ form ∈ other.earlier := by
  decide

theorem contend_of_fits (different : form ≠ other) (here : form.Fits text)
    (there : other.Fits text) : Contend form other := by
  rcases earlier_or_earlier form (mem_all_of_fits here) other (mem_all_of_fits there) different with
    before | before
  · obtain ⟨unit, scalar⟩ := hasUnit_of_earlier before here there
    exact Or.inr ⟨scalar, unit⟩
  · obtain ⟨unit, scalar⟩ := hasUnit_of_earlier before there here
    exact Or.inl ⟨unit, scalar⟩

end Form

/-- Of two fronts of one text, that with a character which the other lacks is the longer one. -/
theorem Text.byteLength_lt_of_mem {text shorter front : List Char} (short : shorter <+: text)
    (long : front <+: text) {char : Char} (present : char ∈ front) (absent : char ∉ shorter) :
    byteLength shorter < byteLength front := by
  rcases List.prefix_or_prefix_of_prefix short long with ⟨more, rfl⟩ | longer
  · have nonempty : more ≠ [] := by
      rintro rfl
      exact absent (by simpa using present)
    have positive := byteLength_pos nonempty
    rw [byteLength_append]
    omega
  · exact absurd (longer.subset present) absent

theorem Form.HasUnit.exists_mem {form : Form} (unit : form.HasUnit) {front : List Char}
    (written : front ∈ form.pattern) : ∃ char ∈ front, char.isDigit = false := by
  rcases unit with rfl | rfl
  · obtain ⟨_, _, _, rfl, rfl⟩ := Language.mem_mul.mp written
    exact ⟨'p', by simp, rfl⟩
  · obtain ⟨_, _, _, rfl, rfl⟩ := Language.mem_mul.mp written
    exact ⟨'%', by simp, rfl⟩

namespace Lexeme

/-- The lexeme starts the text, and whatever other forms match there is shorter. -/
structure Longest (text : List Char) (lexeme : Lexeme) (back : List Char) : Prop where
  fits : lexeme.form.cut text = some (lexeme.text, back)
  longer : ∀ other ≠ lexeme.form, ∀ shorter ∈ other.pattern, shorter <+: text →
    byteLength shorter < byteLength lexeme.text

namespace Longest

variable {text back rest : List Char} {lexeme other : Lexeme}

theorem written (longest : Longest text lexeme back) : lexeme.text ∈ lexeme.form.pattern :=
  lexeme.form.within_cut _ _ _ longest.fits

theorem whole (longest : Longest text lexeme back) : text = lexeme.text ++ back :=
  lexeme.form.exact_cut _ _ _ longest.fits

theorem begins (longest : Longest text lexeme back) : lexeme.text <+: text :=
  ⟨back, longest.whole.symm⟩

theorem unique (here : Longest text lexeme back) (there : Longest text other rest) :
    (lexeme, back) = (other, rest) := by
  by_cases same : other.form = lexeme.form
  · obtain ⟨form, front⟩ := lexeme
    obtain ⟨_, start⟩ := other
    cases same
    obtain ⟨rfl, rfl⟩ := Prod.mk.inj (Option.some.inj (here.fits.symm.trans there.fits))
    rfl
  · have less := here.longer other.form same other.text there.written there.begins
    have more := there.longer lexeme.form (Ne.symm same) lexeme.text here.written here.begins
    omega

end Longest

/-! ### Forms tried in another order -/

/-- As `first?`, with the forms tried in the order given. -/
def firstIn (order : List Form) (text : List Char) : Option (Lexeme × List Char) :=
  order.findSome? fun form => (form.cut text).map fun (front, back) => (⟨form, front⟩, back)

theorem firstIn_all (text : List Char) : firstIn Form.all text = first? text := rfl

variable {order : List Form} {text back : List Char} {lexeme : Lexeme}

theorem firstIn_eq_some_iff :
    firstIn order text = some (lexeme, back) ↔
      ∃ before after, order = before ++ lexeme.form :: after ∧
        lexeme.form.cut text = some (lexeme.text, back) ∧
        ∀ earlier ∈ before, ¬ earlier.Fits text := by
  simp only [firstIn, List.findSome?_eq_some_iff, Option.map_eq_none_iff, Form.cut_eq_none_iff]
  constructor
  · rintro ⟨before, form, after, split, hit, unfit⟩
    obtain ⟨⟨front, rest⟩, fits, parts⟩ := Option.map_eq_some_iff.mp hit
    obtain ⟨rfl, rfl⟩ := Prod.mk.inj parts
    exact ⟨before, after, split, fits, unfit⟩
  · rintro ⟨before, after, split, fits, unfit⟩
    exact ⟨before, lexeme.form, after, split, by rw [fits]; rfl, unfit⟩

theorem exists_firstIn {form : Form} (member : form ∈ order) (fits : form.Fits text) :
    ∃ lexeme back, firstIn order text = some (lexeme, back) := by
  obtain ⟨front, back, done⟩ := Form.fits_iff.mp fits
  have found : (firstIn order text).isSome = true :=
    List.findSome?_isSome_iff.mpr ⟨form, member, by rw [done]; rfl⟩
  obtain ⟨⟨lexeme, rest⟩, found⟩ := Option.isSome_iff_exists.mp found
  exact ⟨lexeme, rest, found⟩

theorem firstIn_shorter (found : firstIn order text = some (lexeme, back)) :
    back.length < text.length := by
  obtain ⟨_, _, _, fits, _⟩ := firstIn_eq_some_iff.mp found
  have nonempty := List.length_pos_iff.mpr (Form.progresses_cut _ _ _ _ fits)
  rw [Form.exact_cut _ _ _ _ fits, List.length_append]
  omega

def splitIn (order : List Form) (text : List Char) : List Lexeme × List Char :=
  match found : firstIn order text with
  | none => ([], text)
  | some (lexeme, back) =>
      have := firstIn_shorter found
      let (later, left) := splitIn order back
      (lexeme :: later, left)
termination_by text.length

theorem splitIn_of_some (found : firstIn order text = some (lexeme, back)) :
    splitIn order text = (lexeme :: (splitIn order back).1, (splitIn order back).2) := by
  rw [splitIn]
  split
  · rename_i nothing
    cases nothing.symm.trans found
  · rename_i other
    cases found.symm.trans other
    rfl

theorem splitIn_of_none (nothing : firstIn order text = none) :
    splitIn order text = ([], text) := by
  rw [splitIn]
  split
  · rfl
  · rename_i found
    cases nothing.symm.trans found

theorem splitIn_eq_split (agree : ∀ text, firstIn order text = first? text) (text : List Char) :
    splitIn order text = split text := by
  fun_induction split text with
  | case1 text nothing => exact splitIn_of_none ((agree text).trans nothing)
  | case2 text lexeme back found _ later left same ih =>
      rw [splitIn_of_some ((agree text).trans found), ih, same]

def UnitsFirst (order : List Form) : Prop :=
  ∀ form : Form, form.HasUnit → [form, .token .scalar] <+ order

theorem unitsFirst_all : UnitsFirst Form.all := by
  rintro _ (rfl | rfl) <;> decide

theorem mem_of_sublist {before after : List Form} {form last : Form}
    (single : (before ++ last :: after).Nodup) (within : [form, last] <+ before ++ last :: after) :
    form ∈ before := by
  have absent : last ∉ after := (List.nodup_cons.mp (List.nodup_append.mp single).2.1).1
  obtain ⟨front, back, split, inside, behind⟩ := List.sublist_append_iff.mp within
  cases front with
  | nil =>
      rw [List.nil_append] at split
      rw [← split] at behind
      have tail : [last] <+ after := behind.tail
      exact absurd (tail.subset List.mem_cons_self) absent
  | cons first more =>
      obtain ⟨rfl, _⟩ := List.cons.inj split
      exact inside.subset List.mem_cons_self

theorem longest_of_firstIn (single : order.Nodup) (units : UnitsFirst order)
    (found : firstIn order text = some (lexeme, back)) : Longest text lexeme back := by
  obtain ⟨before, after, rfl, fits, unfit⟩ := firstIn_eq_some_iff.mp found
  refine ⟨fits, ?_⟩
  intro other different shorter written begins
  have here := Form.fits_of_cut fits
  have there : other.Fits text := ⟨shorter, written, begins⟩
  rcases Form.contend_of_fits (Ne.symm different) here there with ⟨unit, rfl⟩ | ⟨scalar, unit⟩
  · obtain ⟨char, present, sign⟩ := unit.exists_mem (lexeme.form.within_cut _ _ _ fits)
    apply byteLength_lt_of_mem begins ⟨back, (lexeme.form.exact_cut _ _ _ fits).symm⟩ present
    intro digit
    have digits := (Pattern.mem_many1.mp written).2 char digit
    rw [sign] at digits
    cases digits
  -- The form with a unit comes before this one, so that it would have been found.
  · have earlier := units other unit
    rw [← scalar] at earlier
    exact absurd there (unfit other (mem_of_sublist single earlier))

theorem firstIn_eq_first? (same : order.Perm Form.all) (units : UnitsFirst order)
    (text : List Char) : firstIn order text = first? text := by
  cases found : first? text with
  | some parts =>
      obtain ⟨lexeme, back⟩ := parts
      rw [← firstIn_all] at found
      have longest := longest_of_firstIn Form.nodup_all unitsFirst_all found
      have fits := Form.fits_of_cut longest.fits
      have member := same.mem_iff.mpr (Form.mem_all_of_fits fits)
      obtain ⟨other, rest, there⟩ := exists_firstIn member fits
      have likewise := longest_of_firstIn (same.nodup_iff.mpr Form.nodup_all) units there
      rw [there, likewise.unique longest]
  | none =>
      cases there : firstIn order text with
      | none => rfl
      | some parts =>
          obtain ⟨_, _, _, done, _⟩ := firstIn_eq_some_iff.mp there
          have fits := Form.fits_of_cut done
          obtain ⟨_, _, other⟩ := exists_firstIn (Form.mem_all_of_fits fits) fits
          rw [firstIn_all, found] at other
          cases other

theorem firstIn_of_scalar (single : order.Nodup) {before after : List Form}
    (split : order = before ++ .token .scalar :: after) {form : Form} (unit : form.HasUnit)
    (absent : form ∉ before) (fits : form.Fits text) {front : List Char}
    (number : Form.cut (.token .scalar) text = some (front, back)) :
    firstIn order text = some (⟨.token .scalar, front⟩, back) := by
  refine firstIn_eq_some_iff.mpr ⟨before, after, split, number, ?_⟩
  intro earlier member likewise
  have different : earlier ≠ form := by
    rintro rfl
    exact absent member
  rcases Form.contend_of_fits different likewise fits with ⟨_, rfl⟩ | ⟨rfl, _⟩
  · exact Form.not_hasUnit_scalar unit
  · rw [split] at single
    exact (List.nodup_append.mp single).2.2 _ member _ List.mem_cons_self rfl

end Lexeme

namespace Token

def ofSourceIn (order : List Form) (source file : String) : Except Diagnostic (List Token) :=
  match Lexeme.splitIn order source.toList with
  | (lexemes, []) => .ok (Lexeme.place file 0 lexemes)
  | (lexemes, char :: _) =>
      .error ⟨.unrecognisedToken (String.singleton char),
        Position.ofBytes (byteLength (lexemes.flatMap Lexeme.text)) file⟩

variable {order : List Form} {source file : String} {kind : TokenKind} {front back : List Char}

theorem ofSourceIn_eq (agree : ∀ text, Lexeme.firstIn order text = Lexeme.first? text)
    (source file : String) : ofSourceIn order source file = ofSource source file := by
  rw [ofSourceIn, Lexeme.splitIn_eq_split agree]
  rfl

theorem kind_of_ofSourceIn {first : Token} {later : List Token}
    (found : Lexeme.firstIn order source.toList = some (⟨.token kind, front⟩, back))
    (done : ofSourceIn order source file = .ok (first :: later)) : first.kind = kind := by
  rw [ofSourceIn, Lexeme.splitIn_of_some found] at done
  cases left : (Lexeme.splitIn order back).2 with
  | nil =>
      rw [left] at done
      cases done
      rfl
  | cons char more =>
      rw [left] at done
      cases done

theorem ofSource_single
    (found : Lexeme.first? source.toList = some (⟨.token kind, source.toList⟩, []))
    (file : String) :
    ∃ first last, ofSource source file = .ok [first, last] ∧ first.kind = kind := by
  have nothing : Lexeme.first? [] = none := by decide
  rw [ofSource, Lexeme.split_of_some found, Lexeme.split_of_none nothing]
  exact ⟨_, _, rfl, rfl⟩

-- A source that is nothing but a number with a unit tells which of the two forms comes first.
theorem sublist_of_agree (same : order.Perm Form.all) (unit : (Form.token kind).HasUnit)
    (whole : Lexeme.first? source.toList = some (⟨.token kind, source.toList⟩, []))
    (agree : ofSourceIn order source file = ofSource source file) :
    [.token kind, .token .scalar] <+ order := by
  have single : order.Nodup := same.nodup_iff.mpr Form.nodup_all
  have member : Form.token .scalar ∈ order := same.mem_iff.mpr (by decide)
  obtain ⟨before, after, split⟩ := List.append_of_mem member
  by_cases earlier : .token kind ∈ before
  · have after : [Form.token .scalar] <+ .token .scalar :: after :=
      List.singleton_sublist.mpr List.mem_cons_self
    rw [split]
    exact (List.singleton_sublist.mpr earlier).append after
  · have fits := Form.fits_of_cut (Lexeme.first?_eq_some whole).2
    obtain ⟨digits, rest, number⟩ := Form.fits_iff.mp (unit.scalar_fits fits)
    have found := Lexeme.firstIn_of_scalar single split unit earlier fits number
    obtain ⟨first, last, done, made⟩ := ofSource_single whole file
    have scalar := kind_of_ofSourceIn found (agree.trans done)
    rw [← made, scalar] at unit
    exact absurd unit Form.not_hasUnit_scalar

theorem unitsFirst_of_agree (same : order.Perm Form.all)
    (agree : ∀ source file, ofSourceIn order source file = ofSource source file) :
    Lexeme.UnitsFirst order := by
  rintro _ (rfl | rfl)
  · have whole : Lexeme.first? "1px".toList = some (⟨.token .pixel, "1px".toList⟩, []) := by decide
    exact sublist_of_agree same (Or.inl rfl) whole (agree "1px" "")
  · have whole : Lexeme.first? "1%".toList = some (⟨.token .percentage, "1%".toList⟩, []) := by
      decide
    exact sublist_of_agree same (Or.inr rfl) whole (agree "1%" "")

end Token

namespace Lexeme

/-- The lexeme found first is the longest. Wherever a form fits, the first that does matches more
than nothing, ends at a character boundary, and matches more than every other form that fits. Two
forms fit at one place only if they are those of a number with a unit and without one. So the order
of the forms makes no difference to any source as long as those with a unit come before the one
without, and no other order gives the same tokens for every source. -/
theorem first?_longest :
    (∀ (text : List Char) (form : Form), form.Fits text →
      ∃ lexeme back, first? text = some (lexeme, back) ∧ lexeme.text ≠ [] ∧
        lexeme.text ∈ lexeme.form.pattern ∧ text = lexeme.text ++ back ∧
        fromByte? (byteLength lexeme.text) text = some back ∧
        ∀ other ≠ lexeme.form, ∀ shorter ∈ other.pattern, shorter <+: text →
          byteLength shorter < byteLength lexeme.text) ∧
    (∀ (text : List Char) (form other : Form), form ≠ other → form.Fits text → other.Fits text →
      form.Contend other) ∧
    ∀ order : List Form, order.Perm Form.all →
      ((∀ source file, Token.ofSourceIn order source file = Token.ofSource source file) ↔
        UnitsFirst order) := by
  refine ⟨?_, fun _ _ _ => Form.contend_of_fits, ?_⟩
  · intro text form fits
    obtain ⟨lexeme, back, found⟩ := exists_firstIn (Form.mem_all_of_fits fits) fits
    have longest := longest_of_firstIn Form.nodup_all unitsFirst_all found
    have nonempty := lexeme.form.progresses_cut _ _ _ longest.fits
    have boundary := fromByte?_append lexeme.text back
    rw [← longest.whole] at boundary
    rw [firstIn_all] at found
    exact ⟨lexeme, back, found, nonempty, longest.written, longest.whole, boundary, longest.longer⟩
  · intro order same
    exact ⟨Token.unitsFirst_of_agree same,
      fun units => Token.ofSourceIn_eq (firstIn_eq_first? same units)⟩

def backwards : List Form :=
  [.token .star, .token .dash, .token .plus, .token .comma, .token .semicolon, .token .colon,
   .token .closeParen, .token .openParen, .token .closeCurly, .token .openCurly,
   .token .identifier, .token .variableName, .token .classSelector, .token .hash,
   .token .percentage, .token .pixel, .token .scalar, .blockComment, .lineComment, .blank]

theorem first?_longest_tenPixels :
    Form.Fits (.token .scalar) "10px;".toList ∧ backwards.Perm Form.all ∧ UnitsFirst backwards ∧
    (∃ lexeme back, first? "10px;".toList = some (lexeme, back) ∧
      byteLength "10".toList < byteLength lexeme.text) ∧
    ∀ source file, Token.ofSourceIn backwards source file = Token.ofSource source file := by
  have number : "10".toList ∈ (Form.token .scalar).pattern :=
    Pattern.mem_many1.mpr ⟨by simp, by simp⟩
  have fits : Form.Fits (.token .scalar) "10px;".toList := ⟨"10".toList, number, "px;".toList, rfl⟩
  have same : backwards.Perm Form.all := by decide
  have units : UnitsFirst backwards := by
    rintro _ (rfl | rfl) <;> decide
  obtain ⟨longest, _, reordered⟩ := first?_longest
  obtain ⟨lexeme, back, found, _, _, _, _, longer⟩ := longest _ _ fits
  have pixel : lexeme.form = .token .pixel := by
    have unit : first? "10px;".toList = some (⟨.token .pixel, "10px".toList⟩, [';']) := by decide
    cases unit.symm.trans found
    rfl
  have less := longer (.token .scalar) (by simp [pixel]) _ number ⟨"px;".toList, rfl⟩
  exact ⟨fits, same, units, ⟨lexeme, back, found, less⟩, (reordered backwards same).mpr units⟩

end Lexeme

end TypedStyle
