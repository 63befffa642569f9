import Mathlib.Computability.Language
import TypedStyle.Token.Lexeme

/-!
The forms of the language as sets of texts. What a form cuts off a text lies in its pattern, and a
text of the pattern is cut off whole, unless what follows would go on with it. The first character
of a text tells which forms can fit at all, so that a token is found again wherever its text stands
in front of something that does not go on with it.
-/

namespace TypedStyle

open Text
open scoped Computability

namespace Text.Pattern

def one (holds : Char → Bool) : Language Char := {text | ∃ char, holds char = true ∧ text = [char]}

def many1 (holds : Char → Bool) : Language Char := one holds * (one holds)∗

def closing : Language Char :=
  {text | ∃ inner, text = inner ++ ['*', '/'] ∧ ¬ ['*', '/'] <:+: inner ++ ['*']}

theorem mem_kstar_one {holds : Char → Bool} {text : List Char} :
    text ∈ (one holds)∗ ↔ ∀ char ∈ text, holds char = true := by
  rw [Language.mem_kstar]
  constructor
  · rintro ⟨pieces, rfl, single⟩ char member
    obtain ⟨piece, present, inside⟩ := List.mem_flatten.mp member
    obtain ⟨only, hit, rfl⟩ := single piece present
    rw [List.mem_singleton.mp inside]
    exact hit
  · intro hits
    refine ⟨text.map ([·]), ?_, ?_⟩
    · rw [← List.flatMap_def, List.flatMap_singleton']
    · intro piece member
      obtain ⟨char, present, rfl⟩ := List.mem_map.mp member
      exact ⟨char, hits char present, rfl⟩

theorem mem_many1 {holds : Char → Bool} {text : List Char} :
    text ∈ many1 holds ↔ text ≠ [] ∧ ∀ char ∈ text, holds char = true := by
  constructor
  · intro member
    obtain ⟨_, ⟨first, hit, rfl⟩, rest, hits, rfl⟩ := Language.mem_mul.mp member
    refine ⟨by simp, ?_⟩
    exact List.forall_mem_cons.mpr ⟨hit, mem_kstar_one.mp hits⟩
  · rintro ⟨nonempty, hits⟩
    cases text with
    | nil => exact absurd rfl nonempty
    | cons first rest =>
        obtain ⟨hit, hits⟩ := List.forall_mem_cons.mp hits
        exact Language.mem_mul.mpr ⟨[first], ⟨first, hit, rfl⟩, rest, mem_kstar_one.mpr hits, rfl⟩

theorem append_mem_kstar {pattern : Language Char} {piece rest : List Char}
    (here : piece ∈ pattern) (there : rest ∈ pattern∗) : piece ++ rest ∈ pattern∗ := by
  obtain ⟨pieces, rfl, every⟩ := Language.mem_kstar.mp there
  exact Language.mem_kstar.mpr ⟨piece :: pieces, rfl, List.forall_mem_cons.mpr ⟨here, every⟩⟩

end Text.Pattern

open Pattern in
def TokenKind.pattern : TokenKind → Language Char
  | .eof => 0
  | .pixel => many1 Char.isDigit * {['p', 'x']}
  | .percentage => many1 Char.isDigit * {['%']}
  | .scalar => many1 Char.isDigit
  | .hash => {['#']} * many1 Form.isNameChar
  | .classSelector => {['.']} * (one Form.isClassLetter * (one Form.isNameChar)∗)
  | .variableName => {['@']} * (one Form.isLetter * (one Form.isNameChar)∗)
  | .identifier => one Form.isLetter * (one Form.isNameChar)∗
  | .openCurly => {['\x7b']}
  | .closeCurly => {['\x7d']}
  | .openParen => {['(']}
  | .closeParen => {[')']}
  | .colon => {[':']}
  | .semicolon => {[';']}
  | .comma => {[',']}
  | .plus => {['+']}
  | .dash => {['-']}
  | .star => {['*']}

def Form.pattern : Form → Language Char
  | .blank => Pattern.many1 isBlank
  | .lineComment => {['/', '/']} * (Pattern.one (· != '\n'))∗
  | .blockComment => {['/', '*']} * Pattern.closing
  | .token kind => kind.pattern

namespace Text.Cut

def Within (cut : Cut) (pattern : Language Char) : Prop :=
  ∀ text front back, cut text = some (front, back) → front ∈ pattern

theorem within_one (holds : Char → Bool) : Within (one holds) (Pattern.one holds) := by
  intro text front back done
  cases text with
  | nil => simp [one] at done
  | cons first rest =>
      by_cases hit : holds first <;> simp [one, hit] at done
      exact ⟨first, hit, done.1.symm⟩

theorem within_run (holds : Char → Bool) : Within (run holds) (Pattern.one holds)∗ := by
  intro text front back done
  simp only [run, Option.some.injEq, Prod.mk.injEq] at done
  rw [Pattern.mem_kstar_one, ← done.1]
  exact List.all_eq_true.mp List.all_takeWhile

theorem within_exactly (wanted : List Char) : Within (exactly wanted) {wanted} := by
  intro text front back done
  exact (exactly_eq_some done).1

theorem closing_cons {seen rest : List Char} {first : Char}
    (apart : ¬ ['*', '/'] <+: first :: rest) :
    closing seen (first :: rest) = closing (first :: seen) rest := by
  apply closing.eq_2
  rintro back rfl rfl
  exact apart (by simp)

-- A `*/` that starts with the first character ends in `inner` or in front of the closing one.
theorem prefix_closing_iff (first : Char) (inner back : List Char) :
    ['*', '/'] <+: first :: (inner ++ ['*', '/'] ++ back) ↔
      ['*', '/'] <+: first :: (inner ++ ['*']) := by
  cases inner <;> simp

theorem closing_eq_some_iff {seen text front back : List Char} :
    closing seen text = some (front, back) ↔
      ∃ inner, text = inner ++ ['*', '/'] ++ back ∧ front = seen.reverse ++ (inner ++ ['*', '/']) ∧
        ¬ ['*', '/'] <:+: inner ++ ['*'] := by
  constructor
  · intro done
    fun_induction closing seen text with
    | case1 seen rest =>
        cases done
        exact ⟨[], by simp, by simp, by decide⟩
    | case2 seen first rest other ih =>
        obtain ⟨inner, rfl, rfl, unclosed⟩ := ih done
        refine ⟨first :: inner, by simp, by simp, ?_⟩
        rw [List.cons_append, List.infix_cons_iff, ← prefix_closing_iff first inner back]
        rintro (⟨rest, here⟩ | there)
        · obtain ⟨rfl, after⟩ := List.cons.inj here
          exact other rest rfl after.symm
        · exact unclosed there
    | case3 => cases done
  · rintro ⟨inner, rfl, rfl, unclosed⟩
    induction inner generalizing seen with
    | nil => simp [closing]
    | cons first inner ih =>
        rw [List.cons_append, List.infix_cons_iff, not_or] at unclosed
        have apart := mt (prefix_closing_iff first inner back).mp unclosed.1
        rw [List.cons_append, List.cons_append, closing_cons apart, ih unclosed.2]
        simp

theorem within_closing : Within (closing []) Pattern.closing := by
  intro text front back done
  obtain ⟨inner, _, rfl, unclosed⟩ := closing_eq_some_iff.mp done
  exact ⟨inner, rfl, unclosed⟩

theorem Within.andThen {first second : Cut} {pattern other : Language Char}
    (left : Within first pattern) (right : Within second other) :
    Within (first.andThen second) (pattern * other) := by
  intro text front back done
  obtain ⟨one, rest, two, here, there, rfl⟩ := andThen_eq_some.mp done
  exact Language.append_mem_mul (left _ _ _ here) (right _ _ _ there)

theorem within_many1 (holds : Char → Bool) : Within (many1 holds) (Pattern.many1 holds) :=
  (within_one holds).andThen (within_run holds)

def Stops (holds : Char → Bool) (text : List Char) : Prop :=
  ∀ first ∈ text.head?, holds first = false

theorem stops_nil (holds : Char → Bool) : Stops holds [] := fun _ absent => nomatch absent

/-- A text of the pattern is cut off whole in front of a rest at which it ends. -/
def Takes (cut : Cut) (pattern : Language Char) (ends : List Char → Prop) : Prop :=
  ∀ front back, front ∈ pattern → ends back → cut (front ++ back) = some (front, back)

def anywhere (_ : List Char) : Prop := True

theorem takes_one (holds : Char → Bool) : Takes (one holds) (Pattern.one holds) anywhere := by
  rintro _ back ⟨char, hit, rfl⟩ _
  simp [one, hit]

theorem takes_run (holds : Char → Bool) :
    Takes (run holds) (Pattern.one holds)∗ (Stops holds) := by
  intro front back hits stops
  rw [Pattern.mem_kstar_one] at hits
  rw [run, List.takeWhile_append_of_pos hits, List.dropWhile_append_of_pos hits]
  cases back with
  | nil => simp
  | cons first rest => simp [stops first rfl]

theorem takes_exactly (wanted : List Char) : Takes (exactly wanted) {wanted} anywhere := by
  intro front back same _
  cases same
  induction wanted with
  | nil => rfl
  | cons first later ih => simp [exactly, ih]

theorem takes_closing : Takes (closing []) Pattern.closing anywhere := by
  rintro _ back ⟨inner, rfl, unclosed⟩ _
  exact closing_eq_some_iff.mpr ⟨inner, rfl, rfl, unclosed⟩

theorem Takes.andThen {first second : Cut} {pattern other : Language Char}
    {ends here : List Char → Prop} (left : Takes first pattern here)
    (right : Takes second other ends)
    (divides : ∀ middle ∈ other, ∀ back, ends back → here (middle ++ back)) :
    Takes (first.andThen second) (pattern * other) ends := by
  intro front back member stops
  obtain ⟨one, inFirst, two, inSecond, rfl⟩ := Language.mem_mul.mp member
  have done := left one (two ++ back) inFirst (divides two inSecond back stops)
  rw [List.append_assoc, andThen_eq_some]
  exact ⟨one, two ++ back, two, done, right two back inSecond stops, rfl⟩

theorem takes_many1 (holds : Char → Bool) :
    Takes (many1 holds) (Pattern.many1 holds) (Stops holds) :=
  (takes_one holds).andThen (takes_run holds) fun _ _ _ _ => trivial

end Text.Cut

namespace Form

theorem within_cut (form : Form) : Cut.Within form.cut form.pattern := by
  have word : Cut.Within identifier (Pattern.one isLetter * (Pattern.one isNameChar)∗) :=
    (Cut.within_one _).andThen (Cut.within_run _)
  have number : Cut.Within digits (Pattern.many1 Char.isDigit) := Cut.within_many1 _
  cases form with
  | blank => exact Cut.within_many1 _
  | lineComment => exact (Cut.within_exactly _).andThen (Cut.within_run _)
  | blockComment => exact (Cut.within_exactly _).andThen Cut.within_closing
  | token kind =>
      cases kind with
      | eof => exact fun _ _ _ done => nomatch done
      | pixel => exact number.andThen (Cut.within_exactly _)
      | percentage => exact number.andThen (Cut.within_exactly _)
      | scalar => exact number
      | hash => exact (Cut.within_exactly _).andThen (Cut.within_many1 _)
      | classSelector =>
          exact (Cut.within_exactly _).andThen ((Cut.within_one _).andThen (Cut.within_run _))
      | variableName => exact (Cut.within_exactly _).andThen word
      | identifier => exact word
      | _ => exact Cut.within_exactly _

def EndsBefore : Form → List Char → Prop
  | .blank => Cut.Stops isBlank
  | .lineComment => Cut.Stops (· != '\n')
  | .token .scalar => Cut.Stops Char.isDigit
  | .token .hash | .token .classSelector | .token .variableName | .token .identifier =>
      Cut.Stops isNameChar
  | _ => Cut.anywhere

theorem takes_cut (form : Form) : Cut.Takes form.cut form.pattern form.EndsBefore := by
  have word : Cut.Takes identifier (Pattern.one isLetter * (Pattern.one isNameChar)∗)
      (Cut.Stops isNameChar) :=
    (Cut.takes_one _).andThen (Cut.takes_run _) fun _ _ _ _ => trivial
  have number : Cut.Takes digits (Pattern.many1 Char.isDigit) (Cut.Stops Char.isDigit) :=
    Cut.takes_many1 _
  -- No unit starts with a digit.
  have unit {first : Char} {later : List Char} (apart : first.isDigit = false) :
      ∀ middle ∈ ({first :: later} : Language Char), ∀ back, Cut.anywhere back →
        Cut.Stops Char.isDigit (middle ++ back) := by
    rintro _ rfl back _ char same
    cases same
    exact apart
  have signed {sign : List Char} {cut : Cut} {pattern : Language Char} {ends : List Char → Prop}
      (name : Cut.Takes cut pattern ends) :
      Cut.Takes ((Cut.exactly sign).andThen cut) ({sign} * pattern) ends :=
    (Cut.takes_exactly sign).andThen name fun _ _ _ _ => trivial
  cases form with
  | blank => exact Cut.takes_many1 _
  | lineComment => exact signed (Cut.takes_run _)
  | blockComment => exact signed Cut.takes_closing
  | token kind =>
      cases kind with
      | eof => exact fun _ _ absent => absent.elim
      | pixel => exact number.andThen (Cut.takes_exactly _) (unit rfl)
      | percentage => exact number.andThen (Cut.takes_exactly _) (unit rfl)
      | scalar => exact number
      | hash => exact signed (Cut.takes_many1 _)
      | classSelector =>
          exact signed ((Cut.takes_one _).andThen (Cut.takes_run _) fun _ _ _ _ => trivial)
      | variableName => exact signed word
      | identifier => exact word
      | _ => exact Cut.takes_exactly _

end Form

/-! ### The first character -/

namespace Form

theorem isDigit_iff {char : Char} :
    char.isDigit = true ↔ 48 ≤ char.toNat ∧ char.toNat ≤ 57 := by
  simp only [Char.isDigit, Bool.and_eq_true, decide_eq_true_eq, UInt32.le_iff_toNat_le]
  exact Iff.rfl

theorem isLetter_iff {char : Char} :
    isLetter char = true ↔
      65 ≤ char.toNat ∧ char.toNat ≤ 90 ∨ 97 ≤ char.toNat ∧ char.toNat ≤ 122 ∨ char = '_' := by
  have upper : char.isUpper = true ↔ 65 ≤ char.toNat ∧ char.toNat ≤ 90 := decide_eq_true_iff
  have lower : char.isLower = true ↔ 97 ≤ char.toNat ∧ char.toNat ≤ 122 :=
    Bool.and_eq_true_iff.trans (and_congr decide_eq_true_iff decide_eq_true_iff)
  have alpha : char.isAlpha = true ↔ char.isUpper = true ∨ char.isLower = true :=
    Bool.or_eq_true_iff
  rw [isLetter, Bool.or_eq_true, alpha, upper, lower, beq_iff_eq, or_assoc]

theorem isNameChar_iff {char : Char} :
    isNameChar char = true ↔ isLetter char = true ∨ char.isDigit = true ∨ char = '-' := by
  simp only [isNameChar, isLetter, Char.isAlphanum, Bool.or_eq_true, beq_iff_eq]
  tauto

theorem not_isDigit_of_isLetter {char : Char} (letter : isLetter char = true) :
    char.isDigit = false := by
  rw [Bool.eq_false_iff, ne_eq, isDigit_iff]
  rcases isLetter_iff.mp letter with upper | lower | rfl
  · omega
  · omega
  · decide

end Form

theorem not_isBlank_of_graphic {char : Char} (low : 33 ≤ char.toNat) (high : char.toNat ≤ 126) :
    isBlank char = false := by
  apply List.any_eq_false.mpr
  simp only [blankRanges, List.mem_cons, List.not_mem_nil, or_false, forall_eq_or_imp, forall_eq,
    Bool.and_eq_true, decide_eq_true_eq]
  omega

theorem not_isBlank_of_isNameChar {char : Char} (named : Form.isNameChar char = true) :
    isBlank char = false := by
  rcases Form.isNameChar_iff.mp named with letter | digit | rfl
  · rcases Form.isLetter_iff.mp letter with upper | lower | rfl
    · exact not_isBlank_of_graphic (by omega) (by omega)
    · exact not_isBlank_of_graphic (by omega) (by omega)
    · decide
  · have range := Form.isDigit_iff.mp digit
    exact not_isBlank_of_graphic (by omega) (by omega)
  · decide

/-- What the first character of a text says about the form that the text starts with. -/
inductive Lead where
  | blank
  | digit
  | letter
  | sign (char : Char)
  deriving DecidableEq

namespace Lead

def of (char : Char) : Lead :=
  if isBlank char then .blank
  else if char.isDigit then .digit
  else if Form.isLetter char then .letter
  else .sign char

theorem of_isBlank {char : Char} (blank : isBlank char = true) : of char = .blank :=
  if_pos blank

theorem of_isDigit {char : Char} (digit : char.isDigit = true) : of char = .digit := by
  have inked := not_isBlank_of_isNameChar (Form.isNameChar_iff.mpr (Or.inr (Or.inl digit)))
  simp [of, inked, digit]

theorem of_isLetter {char : Char} (letter : Form.isLetter char = true) : of char = .letter := by
  have inked := not_isBlank_of_isNameChar (Form.isNameChar_iff.mpr (Or.inl letter))
  simp [of, inked, Form.not_isDigit_of_isLetter letter, letter]

end Lead

namespace Form

def lead? : Form → Option Lead
  | .blank => some .blank
  | .lineComment | .blockComment => some (.sign '/')
  | .token .eof => none
  | .token .pixel | .token .percentage | .token .scalar => some .digit
  | .token .identifier => some .letter
  | .token .hash => some (.sign '#')
  | .token .classSelector => some (.sign '.')
  | .token .variableName => some (.sign '@')
  | .token .openCurly => some (.sign '\x7b')
  | .token .closeCurly => some (.sign '\x7d')
  | .token .openParen => some (.sign '(')
  | .token .closeParen => some (.sign ')')
  | .token .colon => some (.sign ':')
  | .token .semicolon => some (.sign ';')
  | .token .comma => some (.sign ',')
  | .token .plus => some (.sign '+')
  | .token .dash => some (.sign '-')
  | .token .star => some (.sign '*')

theorem lead?_of_pattern {form : Form} {first : Char} {rest : List Char}
    (written : first :: rest ∈ form.pattern) : form.lead? = some (Lead.of first) := by
  have run {holds : Char → Bool} {pattern : Language Char}
      (written : first :: rest ∈ Pattern.one holds * pattern) : holds first = true := by
    obtain ⟨_, ⟨char, hit, rfl⟩, _, _, same⟩ := Language.mem_mul.mp written
    cases same
    exact hit
  have number {unit : List Char} (written : first :: rest ∈ Pattern.many1 Char.isDigit * {unit}) :
      first.isDigit = true := by
    obtain ⟨digits, decimal, _, _, same⟩ := Language.mem_mul.mp written
    obtain ⟨nonempty, hits⟩ := Pattern.mem_many1.mp decimal
    cases digits with
    | nil => exact absurd rfl nonempty
    | cons digit more =>
        cases same
        exact hits first List.mem_cons_self
  have sign {wanted : Char} {later : List Char} {pattern : Language Char}
      (written : first :: rest ∈ ({wanted :: later} : Language Char) * pattern) :
      first = wanted := by
    obtain ⟨_, rfl, _, _, same⟩ := Language.mem_mul.mp written
    cases same
    rfl
  cases form with
  | blank => rw [Lead.of_isBlank (run written)]; rfl
  | lineComment | blockComment => rw [sign written]; decide
  | token kind =>
      cases kind with
      | eof => exact written.elim
      | pixel | percentage => rw [Lead.of_isDigit (number written)]; rfl
      | scalar => rw [Lead.of_isDigit (run written)]; rfl
      | identifier => rw [Lead.of_isLetter (run written)]; rfl
      | hash | classSelector | variableName => rw [sign written]; decide
      | _ => cases written; decide

theorem lead?_of_cut {form : Form} {first : Char} {rest front back : List Char}
    (fits : form.cut (first :: rest) = some (front, back)) :
    form.lead? = some (Lead.of first) := by
  have nonempty := progresses_cut form _ _ _ fits
  have whole := exact_cut form _ _ _ fits
  have written := within_cut form _ _ _ fits
  cases front with
  | nil => exact absurd rfl nonempty
  | cons char more =>
      cases whole
      exact lead?_of_pattern written

def earlier (form : Form) : List Form := all.takeWhile (· != form)

theorem eq_takeWhile_append {forms : List Form} {form : Form} (member : form ∈ forms) :
    ∃ later, forms = forms.takeWhile (· != form) ++ form :: later := by
  induction forms with
  | nil => cases member
  | cons first rest ih =>
      by_cases same : first = form
      · exact ⟨rest, by simp [same]⟩
      · obtain ⟨later, split⟩ := ih (List.mem_of_ne_of_mem (Ne.symm same) member)
        refine ⟨later, ?_⟩
        rw [List.takeWhile_cons_of_pos (by simpa using same), List.cons_append, ← split]

/-- Only comments, and numbers, need more than their first character to be told apart. -/
theorem earlier_cases : ∀ form ∈ all, ∀ other ∈ form.earlier, other.lead? = form.lead? →
    other = .lineComment ∧ form = .blockComment ∨
    other = .token .pixel ∧ (form = .token .percentage ∨ form = .token .scalar) ∨
    other = .token .percentage ∧ form = .token .scalar := by
  decide

theorem mem_all {kind : TokenKind} (inside : kind ≠ .eof) : Form.token kind ∈ all := by
  cases kind with
  | eof => exact absurd rfl inside
  | _ => decide

/-- A number whose unit is missing is no number with this unit. -/
theorem cut_unit_none {digits rest unit : List Char} (decimal : digits ∈ Pattern.many1 Char.isDigit)
    (stops : Cut.Stops Char.isDigit rest) (missing : Cut.exactly unit rest = none) :
    Form.digits.andThen (Cut.exactly unit) (digits ++ rest) = none := by
  have number := Cut.takes_many1 Char.isDigit digits rest decimal stops
  rw [Cut.andThen, Form.digits, number]
  simp [missing]

def goesOn (char : Char) : Bool := isNameChar char || char == '%'

theorem endsBefore_of_stops (kind : TokenKind) {back : List Char} (stops : Cut.Stops goesOn back) :
    (Form.token kind).EndsBefore back := by
  have named : Cut.Stops isNameChar back := by
    intro first here
    exact (Bool.or_eq_false_iff.mp (stops first here)).1
  have counted : Cut.Stops Char.isDigit back := by
    intro first here
    rw [Bool.eq_false_iff]
    intro digit
    have name := isNameChar_iff.mpr (Or.inr (Or.inl digit))
    rw [named first here] at name
    cases name
  cases kind with
  | scalar => exact counted
  | hash | classSelector | variableName | identifier => exact named
  | _ => trivial

theorem ne_nil_of_mem_pattern {kind : TokenKind} {text : List Char}
    (written : text ∈ kind.pattern) : text ≠ [] := by
  rintro rfl
  have ends := endsBefore_of_stops kind (Cut.stops_nil goesOn)
  have done := takes_cut (.token kind) [] [] written ends
  exact progresses_cut (.token kind) _ _ _ done rfl

end Form

namespace Lexeme

theorem first?_of_cut {form : Form} {text front back : List Char} (member : form ∈ Form.all)
    (fits : form.cut text = some (front, back))
    (alone : ∀ other ∈ form.earlier, other.lead? = form.lead? → other.cut text = none) :
    first? text = some (⟨form, front⟩, back) := by
  obtain ⟨later, split⟩ := Form.eq_takeWhile_append member
  refine List.findSome?_eq_some_iff.mpr ⟨form.earlier, form, later, split, by rw [fits]; rfl, ?_⟩
  intro other before
  rw [Option.map_eq_none_iff]
  cases found : other.cut text with
  | none => rfl
  | some parts =>
      cases text with
      | nil =>
          have nonempty := Form.progresses_cut _ _ _ _ fits
          exact absurd (Form.exact_cut _ _ _ _ fits) (by simp [nonempty])
      | cons first rest =>
          have same := (Form.lead?_of_cut found).trans (Form.lead?_of_cut fits).symm
          exact found.symm.trans (alone other before same)

/-- The text of a token is found again in front of anything that no token could go on with. -/
theorem first?_token {kind : TokenKind} {front back : List Char} (written : front ∈ kind.pattern)
    (stops : Cut.Stops Form.goesOn back) :
    first? (front ++ back) = some (⟨.token kind, front⟩, back) := by
  have inside : kind ≠ .eof := by
    rintro rfl
    exact written.elim
  have member := Form.mem_all inside
  have ends := Form.endsBefore_of_stops kind stops
  apply first?_of_cut member (Form.takes_cut (.token kind) front back written ends)
  intro other before same
  rcases Form.earlier_cases _ member other before same with
    ⟨_, absent⟩ | ⟨rfl, percentage | scalar⟩ | ⟨rfl, scalar⟩
  · cases absent
  · cases percentage
    obtain ⟨digits, decimal, _, rfl, rfl⟩ := Language.mem_mul.mp written
    rw [List.append_assoc]
    apply Form.cut_unit_none decimal
    · rintro _ ⟨⟩
      decide
    · simp [Cut.exactly]
  · cases scalar
    apply Form.cut_unit_none written ends
    cases back with
    | nil => rfl
    | cons first rest =>
        have apart : first ≠ 'p' := by
          rintro rfl
          exact absurd (stops 'p' rfl) (by decide)
        simp [Cut.exactly, apart]
  · cases scalar
    apply Form.cut_unit_none written ends
    cases back with
    | nil => rfl
    | cons first rest =>
        have apart : first ≠ '%' := by
          rintro rfl
          exact absurd (stops '%' rfl) (by decide)
        simp [Cut.exactly, apart]

end Lexeme

end TypedStyle
