import TypedStyle.Proofs.Tiling

/-!
Splitting a text that is cut short. A form that does not fit at the start of a text does not fit at
the start of any front of it, and a lexeme is found again as long as all of it is there. So the
lexemes of a text are those of each of its fronts that holds them whole, and the character at which
splitting stops is where it stops in every front that holds this character.
-/

namespace TypedStyle

open Text

namespace Text.Cut

/-- What fits at the start of a text fits there with more text behind, where it may be longer. -/
def Grows (cut : Cut) : Prop :=
  ∀ text front back more, cut text = some (front, back) →
    ∃ longer rest, cut (text ++ more) = some (longer, rest)

def Steady (cut : Cut) : Prop :=
  ∀ text front back more, cut text = some (front, back) →
    cut (text ++ more) = some (front, back ++ more)

theorem Steady.grows {cut : Cut} (steady : Steady cut) : Grows cut := by
  intro text front back more done
  exact ⟨front, back ++ more, steady text front back more done⟩

/-- Whatever ends where it likes, without regard to what follows, is steady. -/
theorem steady_of_takes {cut : Cut} {pattern : Language Char} (faithful : Exact cut)
    (within : Within cut pattern) (takes : Takes cut pattern anywhere) : Steady cut := by
  intro text front back more done
  have written := within text front back done
  rw [faithful text front back done, List.append_assoc]
  exact takes front (back ++ more) written trivial

theorem steady_one (holds : Char → Bool) : Steady (one holds) :=
  steady_of_takes (exact_one holds) (within_one holds) (takes_one holds)

theorem steady_exactly (wanted : List Char) : Steady (exactly wanted) :=
  steady_of_takes (exact_exactly wanted) (within_exactly wanted) (takes_exactly wanted)

theorem grows_run (holds : Char → Bool) : Grows (run holds) := by
  intro text _ _ more _
  exact ⟨_, _, rfl⟩

theorem Steady.andThen {first second : Cut} (left : Steady first) (right : Grows second) :
    Grows (first.andThen second) := by
  intro text front back more done
  obtain ⟨one, rest, two, here, there, rfl⟩ := andThen_eq_some.mp done
  obtain ⟨longer, final, onward⟩ := right rest two back more there
  have begun := left text one rest more here
  exact ⟨one ++ longer, final, andThen_eq_some.mpr ⟨one, rest ++ more, longer, begun, onward, rfl⟩⟩

theorem grows_many1 (holds : Char → Bool) : Grows (many1 holds) :=
  (steady_one holds).andThen (grows_run holds)

def Halts (cut : Cut) (ends : List Char → Prop) : Prop :=
  ∀ text front back, cut text = some (front, back) → ends back

theorem halts_run (holds : Char → Bool) : Halts (run holds) (Stops holds) := by
  intro text front back done
  simp only [run, Option.some.injEq, Prod.mk.injEq] at done
  rw [← done.2]
  intro first here
  have apart := List.head?_dropWhile_not holds text
  rwa [Option.mem_def.mp here] at apart

theorem Halts.andThen {second : Cut} {ends : List Char → Prop} (right : Halts second ends)
    (first : Cut) : Halts (first.andThen second) ends := by
  intro text front back done
  obtain ⟨_, rest, two, _, there, _⟩ := andThen_eq_some.mp done
  exact right rest two back there

theorem Stops.of_front {holds : Char → Bool} {back shorter : List Char}
    (stops : Stops holds back) (begins : shorter <+: back) : Stops holds shorter := by
  obtain ⟨more, rfl⟩ := begins
  intro first here
  cases shorter with
  | nil => cases here
  | cons char rest => exact stops first here

end Text.Cut

namespace Form

theorem grows_cut (form : Form) : Cut.Grows form.cut := by
  have word : Cut.Grows identifier := (Cut.steady_one _).andThen (Cut.grows_run _)
  -- Of the forms that end regardless of what follows, nothing needs to be known but that.
  have regardless {form : Form} (anywhere : form.EndsBefore = Cut.anywhere) :
      Cut.Grows form.cut :=
    (Cut.steady_of_takes form.exact_cut form.within_cut (anywhere ▸ form.takes_cut)).grows
  cases form with
  | blank => exact Cut.grows_many1 _
  | lineComment => exact (Cut.steady_exactly _).andThen (Cut.grows_run _)
  | blockComment => exact regardless rfl
  | token kind =>
      cases kind with
      | scalar => exact Cut.grows_many1 _
      | hash => exact (Cut.steady_exactly _).andThen (Cut.grows_many1 _)
      | classSelector =>
          exact (Cut.steady_exactly _).andThen ((Cut.steady_one _).andThen (Cut.grows_run _))
      | variableName => exact (Cut.steady_exactly _).andThen word
      | identifier => exact word
      | _ => exact regardless rfl

theorem halts_cut (form : Form) : Cut.Halts form.cut form.EndsBefore := by
  have regardless {cut : Cut} : Cut.Halts cut Cut.anywhere := fun _ _ _ _ => trivial
  cases form with
  | blank => exact (Cut.halts_run _).andThen _
  | lineComment => exact (Cut.halts_run _).andThen _
  | blockComment => exact regardless
  | token kind =>
      cases kind with
      | scalar => exact (Cut.halts_run _).andThen _
      | hash => exact ((Cut.halts_run _).andThen _).andThen _
      | classSelector => exact ((Cut.halts_run _).andThen _).andThen _
      | variableName => exact ((Cut.halts_run _).andThen _).andThen _
      | identifier => exact (Cut.halts_run _).andThen _
      | _ => exact regardless

theorem EndsBefore.of_front {form : Form} {back shorter : List Char} (ends : form.EndsBefore back)
    (begins : shorter <+: back) : form.EndsBefore shorter := by
  cases form with
  | blank | lineComment => exact Cut.Stops.of_front ends begins
  | blockComment => trivial
  | token kind =>
      cases kind with
      | scalar | hash | classSelector | variableName | identifier =>
          exact Cut.Stops.of_front ends begins
      | _ => trivial

/-- A form that does not fit a text does not fit any front of it. -/
theorem cut_none_of_front {form : Form} {text shorter : List Char} (begins : shorter <+: text)
    (unfit : form.cut text = none) : form.cut shorter = none := by
  obtain ⟨more, rfl⟩ := begins
  cases fits : form.cut shorter with
  | none => rfl
  | some parts =>
      obtain ⟨longer, rest, grown⟩ := form.grows_cut shorter parts.1 parts.2 more fits
      cases unfit.symm.trans grown

/-- What a form has cut off is cut off again, however much of the rest follows. -/
theorem cut_of_front {form : Form} {text front back shorter : List Char}
    (fits : form.cut text = some (front, back)) (begins : shorter <+: back) :
    form.cut (front ++ shorter) = some (front, shorter) := by
  have written := form.within_cut text front back fits
  have ends := form.halts_cut text front back fits
  exact form.takes_cut front shorter written (ends.of_front begins)

end Form

namespace Lexeme

theorem first?_none_of_front {text shorter : List Char} (begins : shorter <+: text)
    (nothing : first? text = none) : first? shorter = none := by
  rw [first?, List.findSome?_eq_none_iff] at nothing ⊢
  intro form member
  rw [Option.map_eq_none_iff]
  exact Form.cut_none_of_front begins (Option.map_eq_none_iff.mp (nothing form member))

theorem first?_of_front {text back shorter : List Char} {lexeme : Lexeme}
    (found : first? text = some (lexeme, back)) (begins : shorter <+: back) :
    first? (lexeme.text ++ shorter) = some (lexeme, shorter) := by
  have front : lexeme.text ++ shorter <+: text := by
    rw [first?_append found]
    exact (List.prefix_append_right_inj lexeme.text).mpr begins
  obtain ⟨earlier, form, later, all, hit, unfit⟩ := List.findSome?_eq_some_iff.mp found
  obtain ⟨⟨cutOff, rest⟩, fits, parts⟩ := Option.map_eq_some_iff.mp hit
  obtain ⟨rfl, rfl⟩ := Prod.mk.inj parts
  refine List.findSome?_eq_some_iff.mpr ⟨earlier, form, later, all, ?_, ?_⟩
  · rw [Form.cut_of_front fits begins]
    rfl
  · intro other member
    rw [Option.map_eq_none_iff]
    exact Form.cut_none_of_front front (Option.map_eq_none_iff.mp (unfit other member))

/-- A front of a text that holds its lexemes is split into the same lexemes. -/
theorem split_of_front {text shorter : List Char} (begins : shorter <+: (split text).2) :
    split ((split text).1.flatMap Lexeme.text ++ shorter) = ((split text).1, shorter) := by
  fun_induction split text generalizing shorter with
  | case1 text nothing => exact split_of_none (first?_none_of_front begins nothing)
  | case2 text lexeme back found _ later left same ih =>
      have rest : later.flatMap Lexeme.text ++ left = back := by
        have whole := split_append back
        rwa [same] at whole
      have behind : later.flatMap Lexeme.text ++ shorter <+: back := by
        rw [← rest]
        exact (List.prefix_append_right_inj _).mpr begins
      rw [same] at ih
      rw [List.flatMap_cons, List.append_assoc, split_of_some (first?_of_front found behind),
        ih begins]

end Lexeme

/-- What is longer than `front` and a front of the same text goes on with the same character. -/
theorem Text.exists_of_longer {front back longer : List Char} {char : Char}
    (begins : longer <+: front ++ char :: back) (more : byteLength front < byteLength longer) :
    ∃ rest, rest <+: back ∧ longer = front ++ char :: rest := by
  have start : front ++ [char] <+: front ++ char :: back := by simp
  rcases List.prefix_or_prefix_of_prefix start begins with ⟨rest, rfl⟩ | inside
  · refine ⟨rest, ?_, by simp⟩
    simpa using begins
  · rcases List.prefix_concat_iff.mp inside with rfl | ⟨missing, rfl⟩
    · exact ⟨[], List.nil_prefix, rfl⟩
    · rw [byteLength_append] at more
      omega

/-- A text that cannot be split is rejected for the first character that starts no lexeme. What
stands before this character can be split, and every front of the text that is longer is rejected
for the same character at the same place. -/
theorem Token.ofSource_stops {source file : String} (short : source.utf8ByteSize < 2 ^ 32)
    {diagnostic : Diagnostic} (failed : Token.ofSource source file = .error diagnostic) :
    ∃ front char back, source.toList = front ++ char :: back ∧
      diagnostic.fault = .unrecognisedToken (String.singleton char) ∧
      diagnostic.position.offset.toNat = byteLength front ∧ diagnostic.position.file = file ∧
      (∃ tokens, Token.ofSource (String.ofList front) file = .ok tokens) ∧
      ∀ longer, longer <+: source.toList → byteLength front < byteLength longer →
        Token.ofSource (String.ofList longer) file = .error diagnostic := by
  have again (shorter : List Char) (begins : shorter <+: (Lexeme.split source.toList).2) :=
    Lexeme.split_of_front begins
  have whole := Lexeme.split_append source.toList
  unfold Token.ofSource at failed
  cases parts : Lexeme.split source.toList with
  | mk lexemes left =>
      rw [parts] at failed whole again
      cases left with
      | nil => cases failed
      | cons char back =>
          cases failed
          have whole : lexemes.flatMap Lexeme.text ++ char :: back = source.toList := whole
          have fits : byteLength (lexemes.flatMap Lexeme.text) < 2 ^ 32 := by
            rw [← byteLength_toList, ← whole, byteLength_append] at short
            omega
          refine ⟨_, char, back, whole.symm, rfl, Position.ofBytes_offset fits file, rfl, ?_, ?_⟩
          · have split := again [] List.nil_prefix
            rw [List.append_nil] at split
            rw [Token.ofSource, String.toList_ofList, split]
            exact ⟨_, rfl⟩
          · intro longer begins more
            rw [← whole] at begins
            obtain ⟨rest, inside, rfl⟩ := exists_of_longer begins more
            have split := again (char :: rest) (List.cons_prefix_cons.mpr ⟨rfl, inside⟩)
            rw [Token.ofSource, String.toList_ofList, split]

/-- The digit and the name are lexemes, and a comment with no end is none. Its second character is
no part of what is reported, and its third has two bytes. -/
theorem Token.ofSource_stops_unclosedComment :
    let diagnostic : Diagnostic := ⟨.unrecognisedToken "/", .ofBytes 2 "s"⟩
    Token.ofSource "1p/*é" "s" = .error diagnostic ∧
    (∃ front tokens, front <+: "1p/*é".toList ∧ byteLength front = 2 ∧
      Token.ofSource (String.ofList front) "s" = .ok tokens) ∧
    ∀ longer, longer <+: "1p/*é".toList → 2 < byteLength longer →
      Token.ofSource (String.ofList longer) "s" = .error diagnostic := by
  have number : Lexeme.first? "1p/*é".toList = some (⟨.token .scalar, ['1']⟩, "p/*é".toList) := by
    decide
  have name : Lexeme.first? "p/*é".toList = some (⟨.token .identifier, ['p']⟩, "/*é".toList) := by
    decide
  have nothing : Lexeme.first? "/*é".toList = none := by decide
  have failed : Token.ofSource "1p/*é" "s" =
      .error ⟨.unrecognisedToken "/", .ofBytes 2 "s"⟩ := by
    rw [Token.ofSource, Lexeme.split_of_some number, Lexeme.split_of_some name,
      Lexeme.split_of_none nothing]
    rfl
  obtain ⟨front, char, back, whole, _, offset, _, ⟨tokens, before⟩, longer⟩ :=
    Token.ofSource_stops (by decide) failed
  have two : byteLength front = 2 := offset.symm
  rw [two] at longer
  exact ⟨failed, ⟨front, tokens, ⟨char :: back, whole.symm⟩, two, before⟩, longer⟩

end TypedStyle
