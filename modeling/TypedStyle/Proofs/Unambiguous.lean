import TypedStyle.Proofs.CssWords
import TypedStyle.Proofs.Flattening

/-!
The text of blocks says which blocks it was made from. A kind of text is legible if it tells, in
front of whatever may follow it, which element it writes and where it ends. Selectors, properties
and values are legible by the characters that tokens are made of, and paths, lists of paths,
settings and blocks by the signs that divide and close them.
-/

namespace TypedStyle

open Text

/-- In front of any rest at which it ends, the text of an element tells which element it is of and
where it ends. -/
def Legible {Element : Type} (write : Element → String) (valid : Element → Prop)
    (ends : List Char → Prop) : Prop :=
  ∀ one other, valid one → valid other → ∀ back rest, ends back → ends rest →
    (write one).toList ++ back = (write other).toList ++ rest → one = other ∧ back = rest

theorem intercalate_cons (separator first : String) (later : List String) :
    separator.intercalate (first :: later) = first ++ String.join (later.map (separator ++ ·)) := by
  induction later generalizing first with
  | nil => simp [String.intercalate_singleton, String.join_nil]
  | cons second later ih =>
      rw [String.intercalate_cons_cons, ih, List.map_cons, String.join_cons]
      simp [String.append_assoc]

namespace Legible

variable {Element Other : Type} {write : Element → String} {valid : Element → Prop}
  {middle ends : List Char → Prop}

theorem mono (legible : Legible write valid ends) {fewer : Element → Prop}
    (stronger : ∀ element, fewer element → valid element) : Legible write fewer ends :=
  fun one other here there => legible one other (stronger one here) (stronger other there)

theorem comp {name : Other → Element} (legible : Legible write valid ends)
    (injective : Function.Injective name) :
    Legible (fun other => write (name other)) (fun other => valid (name other)) ends := by
  intro one other here there back rest stops halts same
  obtain ⟨names, after⟩ := legible _ _ here there back rest stops halts same
  exact ⟨injective names, after⟩

theorem behind (legible : Legible write valid ends) (front : String) :
    Legible (fun element => front ++ write element) valid ends := by
  intro one other here there back rest stops halts same
  simp only [String.toList_append, List.append_assoc] at same
  exact legible one other here there back rest stops halts (List.append_cancel_left same)

theorem closedBy (legible : Legible write valid ends) (closing : String)
    (closes : ∀ more, ends (closing.toList ++ more)) :
    Legible (fun element => write element ++ closing) valid Cut.anywhere := by
  intro one other here there back rest _ _ same
  simp only [String.toList_append, List.append_assoc] at same
  obtain ⟨elements, after⟩ := legible one other here there _ _ (closes back) (closes rest) same
  exact ⟨elements, List.append_cancel_left after⟩

theorem both {follow : Other → String} {fits : Other → Prop} (first : Legible write valid middle)
    (second : Legible follow fits ends)
    (divides : ∀ other, fits other → ∀ rest, ends rest → middle ((follow other).toList ++ rest)) :
    Legible (fun pair : Element × Other => write pair.1 ++ follow pair.2)
      (fun pair => valid pair.1 ∧ fits pair.2) ends := by
  rintro ⟨one, more⟩ ⟨other, others⟩ ⟨here, hereToo⟩ ⟨there, thereToo⟩ back rest stops halts same
  simp only [String.toList_append, List.append_assoc] at same
  obtain ⟨rfl, follows⟩ := first one other here there _ _ (divides more hereToo back stops)
    (divides others thereToo rest halts) same
  obtain ⟨rfl, after⟩ := second more others hereToo thereToo back rest stops halts follows
  exact ⟨rfl, after⟩

theorem middle_join (divides : ∀ element, valid element → ∀ more,
      middle ((write element).toList ++ more)) (closes : ∀ rest, ends rest → middle rest)
    (elements : List Element) (fit : ∀ element ∈ elements, valid element) (rest : List Char)
    (halts : ends rest) : middle ((String.join (elements.map write)).toList ++ rest) := by
  cases elements with
  | nil => exact closes rest halts
  | cons first later =>
      rw [List.map_cons, String.join_cons, String.toList_append, List.append_assoc]
      exact divides first (fit first List.mem_cons_self) _

/-- Elements one after another, up to where no element can start. -/
theorem join (legible : Legible write valid middle)
    (divides : ∀ element, valid element → ∀ more, middle ((write element).toList ++ more))
    (closes : ∀ rest, ends rest → middle rest)
    (apart : ∀ element, valid element → ∀ more, ¬ ends ((write element).toList ++ more)) :
    Legible (fun elements => String.join (List.map write elements))
      (fun elements => ∀ element ∈ elements, valid element) ends := by
  intro one other here there back rest stops halts same
  induction one generalizing other with
  | nil =>
      cases other with
      | nil => exact ⟨rfl, same⟩
      | cons first later =>
          simp only [List.map_cons, String.join_cons, String.toList_append,
            List.append_assoc] at same
          cases same
          exact absurd stops (apart first (there first List.mem_cons_self) _)
  | cons first later ih =>
      obtain ⟨validFirst, validLater⟩ := List.forall_mem_cons.mp here
      simp only [List.map_cons, String.join_cons, String.toList_append, List.append_assoc] at same
      cases other with
      | nil =>
          cases same
          exact absurd halts (apart first validFirst _)
      | cons second more =>
          obtain ⟨validSecond, validMore⟩ := List.forall_mem_cons.mp there
          simp only [List.map_cons, String.join_cons, String.toList_append,
            List.append_assoc] at same
          obtain ⟨rfl, follows⟩ := legible _ _ validFirst validSecond _ _
            (middle_join divides closes later validLater back stops)
            (middle_join divides closes more validMore rest halts) same
          obtain ⟨rfl, after⟩ := ih more validLater validMore follows
          exact ⟨rfl, after⟩

/-- Elements with a separator between them, up to where no separator can start. -/
theorem intercalate (legible : Legible write valid middle) (separator : String)
    (divides : ∀ more, middle (separator.toList ++ more))
    (closes : ∀ rest, ends rest → middle rest)
    (apart : ∀ element, valid element → ∀ more,
      ¬ ends (separator.toList ++ ((write element).toList ++ more))) :
    Legible (fun elements => separator.intercalate (List.map write elements))
      (fun elements => elements ≠ [] ∧ ∀ element ∈ elements, valid element) ends := by
  -- All elements but the first stand behind a separator.
  have divided (element : Element) (_ : valid element) (more : List Char) :
      middle ((separator ++ write element).toList ++ more) := by
    simpa using divides _
  have pieces : Legible (fun elements => String.join (List.map (separator ++ write ·) elements))
      (fun elements => ∀ element ∈ elements, valid element) ends :=
    (legible.behind separator).join divided closes
      fun element fit more => by simpa using apart element fit more
  have whole := legible.both pieces (middle_join divided closes)
  rintro (_ | ⟨first, later⟩) (_ | ⟨second, more⟩) ⟨nonempty, here⟩ ⟨others, there⟩
    back rest stops halts same
  · exact ⟨rfl, same⟩
  · exact absurd rfl nonempty
  · exact absurd rfl others
  · simp only [List.map_cons, intercalate_cons, List.map_map] at same
    obtain ⟨elements, after⟩ := whole (first, later) (second, more) (List.forall_mem_cons.mp here)
      (List.forall_mem_cons.mp there) back rest stops halts same
    cases elements
    exact ⟨rfl, after⟩

end Legible

theorem legible_word : Legible (fun word : TokenKind × String => word.2)
    (fun word => word.2.toList ∈ word.1.pattern) (Cut.Stops Form.goesOn) := by
  rintro ⟨kind, text⟩ ⟨other, more⟩ here there back rest stops halts same
  have one := Lexeme.first?_token here stops
  have two := Lexeme.first?_token there halts
  rw [show text.toList ++ back = more.toList ++ rest from same, two] at one
  simp only [Option.some.injEq, Prod.mk.injEq, Lexeme.mk.injEq, Form.token.injEq,
    String.toList_inj] at one
  obtain ⟨⟨rfl, rfl⟩, rfl⟩ := one
  exact ⟨rfl, rfl⟩

theorem Selector.legible : Legible Selector.text Selector.Written (Cut.Stops Form.goesOn) := by
  have injective : Function.Injective fun selector : Selector =>
      (selector.kind, selector.text) := by
    intro one other same
    obtain ⟨kinds, texts⟩ := Prod.mk.inj same
    cases one <;> cases other <;> cases kinds <;> simp_all [Selector.text]
  exact legible_word.comp injective

theorem Property.legible : Legible Property.name (fun _ => True) (Cut.Stops Form.goesOn) := by
  have injective : Function.Injective fun property : Property =>
      (TokenKind.identifier, property.name) := by
    intro one other same
    have names := congrArg ofName? (Prod.mk.inj same).2
    rw [ofName?_name, ofName?_name] at names
    exact Option.some.inj names
  exact (legible_word.comp injective).mono fun property _ => property.name_mem_pattern

/-- What a token writes starts with no sign that its kind does not start with. -/
theorem ne_sign_of_pattern {kind : TokenKind} {text : List Char} (written : text ∈ kind.pattern)
    {sign : Char} (other : (Form.token kind).lead? ≠ some (Lead.of sign)) (more rest : List Char) :
    text ++ more ≠ sign :: rest := by
  cases text with
  | nil => exact absurd rfl (Form.ne_nil_of_mem_pattern written)
  | cons first later =>
      rintro ⟨⟩
      exact other (Form.lead?_of_pattern written)

/-- A number is written by its digits, behind a sign if it is negative. -/
theorem exists_sign_digits (value : Int) :
    ∃ sign digits, (toString value).toList = sign ++ digits ∧ (sign = [] ∨ sign = ['-']) ∧
      Decimal digits ∧ Numeral (sign ++ digits) value := by
  cases value with
  | ofNat magnitude =>
      have decimal := decimal_toDigits magnitude
      have numeral := Numeral.unsigned decimal
      rw [digitsValue_toDigits] at numeral
      exact ⟨[], _, toList_toString_natural magnitude, Or.inl rfl, decimal, numeral⟩
  | negSucc less =>
      have decimal := decimal_toDigits (less + 1)
      have numeral := Numeral.minus decimal
      rw [digitsValue_toDigits] at numeral
      refine ⟨['-'], _, ?_, Or.inr rfl, decimal, numeral⟩
      change ("-" ++ Nat.repr (less + 1)).toList = _
      rw [String.toList_append, Nat.toList_repr]
      rfl

theorem toString_int_injective : Function.Injective (toString : Int → String) := by
  intro one other same
  obtain ⟨_, _, here, _, _, first⟩ := exists_sign_digits one
  obtain ⟨_, _, there, _, _, second⟩ := exists_sign_digits other
  rw [← here, ← integer?_eq_some] at first
  rw [← there, ← same, ← integer?_eq_some, first] at second
  exact Option.some.inj second

namespace Literal

/-- The text of a literal is a word of its kind, behind a sign if the literal is negative. -/
theorem exists_sign_word {value : Literal} (written : value.Written) :
    ∃ sign word, value.text.toList = sign ++ word ∧ (sign = [] ∨ sign = ['-']) ∧
      word ∈ value.kind.pattern := by
  cases value with
  | pixel magnitude | percentage magnitude =>
      obtain ⟨sign, digits, split, signed, decimal, _⟩ := exists_sign_digits magnitude.toInt
      rw [text, String.toList_append, split, List.append_assoc]
      exact ⟨sign, _, rfl, signed,
        Language.append_mem_mul (Pattern.mem_many1.mpr decimal) rfl⟩
  | scalar magnitude =>
      obtain ⟨sign, digits, split, signed, decimal, _⟩ := exists_sign_digits magnitude.toInt
      exact ⟨sign, digits, split, signed, Pattern.mem_many1.mpr decimal⟩
  | color text =>
      have natural : (Literal.color text).NonNegative := by rintro magnitude ⟨⟩
      exact ⟨[], _, rfl, Or.inl rfl, text_mem_pattern written natural⟩

theorem kind_color (name : String) :
    (color name).kind = .hash ∨ (color name).kind = .identifier :=
  ite_eq_or_eq (Color.isHex name = true) _ _

def typeOfKind : TokenKind → ValueType
  | .pixel => .pixel
  | .percentage => .percentage
  | .scalar => .scalar
  | _ => .color

theorem typeOfKind_kind (value : Literal) : typeOfKind value.kind = value.type := by
  cases value with
  | color name => rcases kind_color name with same | same <;> rw [same] <;> rfl
  | _ => rfl

theorem eq_of_kind_text {one other : Literal} (kinds : one.kind = other.kind)
    (texts : one.text = other.text) : one = other := by
  have number {unit : String} {one other : Int32}
      (texts : toString one.toInt ++ unit = toString other.toInt ++ unit) : one = other :=
    Int32.toInt_inj.mp (toString_int_injective ((String.append_left_inj unit).mp texts))
  have types : one.type = other.type := by rw [← typeOfKind_kind, kinds, typeOfKind_kind]
  cases one <;> cases other <;> cases types
  case pixel.pixel | percentage.percentage => rw [number texts]
  case scalar.scalar => rw [Int32.toInt_inj.mp (toString_int_injective texts)]
  case color.color => exact congrArg color texts

theorem legible : Legible text Written (Cut.Stops Form.goesOn) := by
  intro one other here there back rest stops halts same
  obtain ⟨sign, word, split, signed, spelled⟩ := exists_sign_word here
  obtain ⟨sign', word', split', signed', spelled'⟩ := exists_sign_word there
  have unsigned (value : Literal) : (Form.token value.kind).lead? ≠ some (Lead.of '-') := by
    cases value with
    | color name => rcases kind_color name with same | same <;> rw [same] <;> decide
    | _ => exact nofun
  rw [split, split', List.append_assoc, List.append_assoc] at same
  -- No word starts with the sign, so that both texts have it or neither does.
  obtain ⟨rfl, words⟩ : sign = sign' ∧ word ++ back = word' ++ rest := by
    rcases signed with rfl | rfl <;> rcases signed' with rfl | rfl
    · exact ⟨rfl, same⟩
    · exact absurd same (ne_sign_of_pattern spelled (unsigned one) _ _)
    · exact absurd same.symm (ne_sign_of_pattern spelled' (unsigned other) _ _)
    · exact ⟨rfl, List.append_cancel_left same⟩
  obtain ⟨found, after⟩ := legible_word (one.kind, .ofList word) (other.kind, .ofList word')
    (by simpa using spelled) (by simpa using spelled') back rest stops halts (by simpa using words)
  obtain ⟨kinds, texts⟩ := Prod.mk.inj found
  have texts : one.text = other.text := by
    rw [← String.toList_inj, split, split', String.ofList_inj.mp texts]
  exact ⟨eq_of_kind_text kinds texts, after⟩

end Literal

/-! ### Blocks -/

namespace Css

def Opens (rest : List Char) : Prop := [' ', '\x7b'] <+: rest

def EndsPath (rest : List Char) : Prop := [',', ' '] <+: rest ∨ Opens rest

theorem legible_path : Legible pathText PathWritten EndsPath := by
  refine Selector.legible.intercalate " " ?_ ?_ ?_
  · rintro more _ ⟨⟩
    decide
  · rintro _ (⟨more, rfl⟩ | ⟨more, rfl⟩) _ ⟨⟩ <;> decide
  · rintro selector written more (⟨rest, same⟩ | ⟨rest, same⟩)
    · cases same
    · have unopened : (Form.token selector.kind).lead? ≠ some (Lead.of '\x7b') := by
        cases selector <;> exact nofun
      exact ne_sign_of_pattern written unopened more rest (List.cons.inj same).2.symm

theorem legible_paths : Legible (fun paths => ", ".intercalate (List.map pathText paths))
    (fun paths => paths ≠ [] ∧ ∀ path ∈ paths, PathWritten path) Opens := by
  refine legible_path.intercalate ", " ?_ ?_ ?_
  · exact fun more => Or.inl ⟨more, rfl⟩
  · exact fun rest opens => Or.inr opens
  · rintro path written more ⟨rest, same⟩
    cases same

theorem legible_setting (indent : Nat) :
    Legible (settingText indent) (fun setting => setting.2.Written) Cut.anywhere := by
  have value := (Literal.legible.closedBy ";\n" (by rintro more _ ⟨⟩; decide)).behind ": "
  have divided (value : Literal) (_ : value.Written) (rest : List Char) (_ : Cut.anywhere rest) :
      Cut.Stops Form.goesOn ((": " ++ (value.text ++ ";\n")).toList ++ rest) := by
    rw [String.toList_append]
    rintro _ ⟨⟩
    decide
  have line := (Property.legible.both value divided).behind
    (String.ofList (List.replicate indent ' '))
  have same : settingText indent = fun setting => String.ofList (List.replicate indent ' ') ++
      (setting.1.name ++ (": " ++ (setting.2.text ++ ";\n"))) := by
    funext setting
    simp [settingText, String.append_assoc]
  rw [same]
  exact line.mono fun setting written => ⟨trivial, written⟩

def Closes (rest : List Char) : Prop := ['\x7d'] <+: rest

theorem not_closes_settingText (indent : Nat) (setting : Property × Literal) (more : List Char) :
    ¬ Closes ((settingText indent setting).toList ++ more) := by
  rintro ⟨rest, same⟩
  cases indent with
  | zero =>
      have unclosed : (Form.token .identifier).lead? ≠ some (Lead.of '\x7d') := nofun
      simp only [settingText, List.replicate_zero, String.ofList_nil, String.empty_append,
        String.toList_append, List.append_assoc] at same
      exact ne_sign_of_pattern setting.1.name_mem_pattern unclosed _ rest same.symm
  | succ indent => simp [settingText, List.replicate_succ] at same

theorem legible_settings (indent : Nat) :
    Legible (fun settings => String.join (List.map (settingText indent) settings))
      (fun settings => ∀ setting ∈ settings, setting.2.Written) Closes :=
  (legible_setting indent).join (fun _ _ _ => trivial) (fun _ _ => trivial)
    fun setting _ => not_closes_settingText indent setting

theorem legible_block (indent : Nat) :
    Legible (Block.text indent) (Block.Sound fun setting => setting.2.Written) Cut.anywhere := by
  have body := ((legible_settings indent).closedBy "\x7d" fun more => ⟨more, rfl⟩).behind " \x7b\n"
  have whole := legible_paths.both body fun settings _ rest _ => ⟨_, by
    rw [String.toList_append]
    rfl⟩
  have parts : Function.Injective fun block : Block => (block.paths, block.settings) := by
    rintro ⟨paths, settings⟩ ⟨others, more⟩ same
    cases same
    rfl
  have same : Block.text indent = fun block => ", ".intercalate (block.paths.map pathText) ++
      (" \x7b\n" ++ (String.join (block.settings.map (settingText indent)) ++ "\x7d")) := by
    funext block
    simp [Block.text, String.append_assoc]
  rw [same]
  exact (whole.comp parts).mono fun block sound => ⟨sound.headed, sound.filled.2⟩

/-- Blocks can be told from their text. -/
theorem eq_of_text {indent : Nat} {one other : List Block}
    (here : ∀ block ∈ one, block.Sound fun setting => setting.2.Written)
    (there : ∀ block ∈ other, block.Sound fun setting => setting.2.Written)
    (same : text indent one = text indent other) : one = other := by
  have blocks : Legible (fun blocks => "\n\n".intercalate (List.map (Block.text indent) blocks))
      (fun blocks => blocks ≠ [] ∧ ∀ block ∈ blocks,
        block.Sound fun setting => setting.2.Written) (· = ['\n']) :=
    (legible_block indent).intercalate "\n\n" (fun _ => trivial) (fun _ _ => trivial) nofun
  have shown (block : Block) (later : List Block) : (text indent (block :: later)).toList =
      ("\n\n".intercalate ((block :: later).map (Block.text indent))).toList ++ ['\n'] := by
    simp [text]
  have blank : (text indent []).toList = [] := rfl
  rw [← String.toList_inj] at same
  cases one with
  | nil =>
      cases other with
      | nil => rfl
      | cons block later => simp [blank, shown] at same
  | cons first later =>
      cases other with
      | nil => simp [blank, shown] at same
      | cons second more =>
          rw [shown, shown] at same
          exact (blocks _ _ ⟨List.cons_ne_nil _ _, here⟩ ⟨List.cons_ne_nil _ _, there⟩ _ _ rfl rfl
            same).1

end Css

def Declaration.setting? (declared : Declaration) : Option (Property × Literal) :=
  match declared.value with
  | .literal value _ => some (declared.property, value)
  | _ => none

/-- The blocks of the rules of the body, for each rule that sets something one with all choices of
a selector from each rule on the way to it. -/
def Body.flattened (body : Body) : List Css.Block :=
  body.rules.flatMap fun placed =>
    Css.blockOf (Css.product placed.heads) (placed.inner.own.filterMap Declaration.setting?)

theorem Body.Written.selected {body : Body} (written : body.Written) {placed : Placed}
    (member : placed ∈ body.rules) : ∀ selectors ∈ placed.heads, selectors ≠ [] := by
  induction body generalizing placed with
  | empty => cases member
  | declaration _ later ih | assignment _ later ih =>
      obtain ⟨before, present, rfl⟩ := List.mem_map.mp member
      exact (ih written.2 present :)
  | rule selectors inner span later ihInner ihLater =>
      obtain ⟨⟨selected, _⟩, innerWritten, laterWritten⟩ := written
      rcases List.mem_append.mp member with member | member
      · rcases List.mem_cons.mp member with rfl | member
        · exact List.forall_mem_singleton.mpr selected
        · obtain ⟨inside, present, rfl⟩ := List.mem_map.mp member
          exact List.forall_mem_cons.mpr ⟨selected, ihInner innerWritten present⟩
      · obtain ⟨before, present, rfl⟩ := List.mem_map.mp member
        exact (ihLater laterWritten present :)

namespace Css

variable {indent : Nat}

theorem filterMap_setting? {own : List Declaration} {made : List (Property × Literal)}
    (done : List.Forall₂ (fun declared first => setting indent declared = .ok first) own made) :
    own.filterMap Declaration.setting? = made := by
  induction done with
  | nil => rfl
  | @cons declared first own made here later ih =>
      obtain ⟨value, span, literal, rfl⟩ := eq_of_setting here
      have sets : declared.setting? = some (declared.property, value) := by
        rw [Declaration.setting?, literal]
      rw [List.filterMap_cons_some sets, ih]

theorem flatten_eq {rules : List Placed} {lists : List (List Block)}
    (selected : ∀ placed ∈ rules, ∀ selectors ∈ placed.heads, selectors ≠ [])
    (done : List.Forall₂ (fun placed list => blocksAt indent [] placed = .ok list) rules lists) :
    lists.flatten = rules.flatMap fun placed =>
      blockOf (product placed.heads) (placed.inner.own.filterMap Declaration.setting?) := by
  induction done with
  | nil => rfl
  | @cons placed list rules lists here later ih =>
      obtain ⟨selectedHere, selectedLater⟩ := List.forall_mem_cons.mp selected
      obtain ⟨own, settled, rfl⟩ := blocksAt_eq_ok.mp here
      rw [List.flatten_cons, List.flatMap_cons, ih selectedLater,
        foldl_extendPaths_nil placed.heads_ne_nil selectedHere,
        filterMap_setting? (mapM_eq_ok.mp settled)]

theorem blocks_eq_flattened {body : Body} (written : body.Written) {made : List Block}
    (done : blocks indent [] body = .ok made) : made = body.flattened := by
  obtain ⟨lists, passed, rfl⟩ := blocks_eq_ok.mp done
  exact flatten_eq (fun placed => written.selected) (mapM_eq_ok.mp passed)

end Css

namespace Sheet

/-- A sheet that a source evaluates to, without a fault at any stage. -/
def Obtained (evaluated : Sheet) : Prop :=
  ∃ source file sheet, Sheet.ofSource source file = .ok sheet ∧ sheet.check.isClean = true ∧
    sheet.check.evaluate = .ok evaluated

theorem Obtained.written {sheet : Sheet} (obtained : sheet.Obtained) : sheet.body.Written := by
  obtain ⟨source, file, parsed, read, clean, done⟩ := obtained
  rw [check_eq_self clean] at done
  obtain ⟨after, body, folded, rfl⟩ := body_of_evaluate done
  exact (Body.written_of_folded (written_of_source read) Scopes.written_initial folded).1

theorem text_flattened {sheet : Sheet} (written : sheet.body.Written) {indent : Nat}
    {css : String} (shown : sheet.css indent = .ok css) :
    css = Css.text indent sheet.body.flattened ∧
      ∀ block ∈ sheet.body.flattened, block.Sound fun setting => setting.2.Written := by
  obtain ⟨made, done, rfl⟩ := css_eq_ok.mp shown
  have sets : Css.Sets (fun setting => setting.2.Written) sheet.body := by
    intro declared member value span literal
    have value := written.of_mem member
    rwa [literal] at value
  rw [← Css.blocks_eq_flattened written done]
  exact ⟨rfl, Css.blocks_sound written (List.forall_mem_nil _) sets done⟩

/-- The text of a sheet is unambiguous: of the sheets that sources evaluate to, those and only those
with the same blocks, paths and settings have the same text. -/
theorem css_eq_iff_flattened_eq {one other : Sheet} (first : one.Obtained)
    (second : other.Obtained) {indent : Nat} {css text : String}
    (here : one.css indent = .ok css) (there : other.css indent = .ok text) :
    css = text ↔ one.body.flattened = other.body.flattened := by
  obtain ⟨rfl, sound⟩ := text_flattened first.written here
  obtain ⟨rfl, otherSound⟩ := text_flattened second.written there
  exact ⟨Css.eq_of_text sound otherSound, congrArg (Css.text indent)⟩

def namedDifference : Sheet where
  body :=
    .rule [.byClass "a"]
      (.assignment ⟨"@w",
         .operation .subtract (.literal (.pixel 2) (.ofBytes 6 9 ""))
           (.literal (.pixel 5) (.ofBytes 10 13 "")) (.ofBytes 6 13 "") none, .ofBytes 3 14 ""⟩ <|
       .rule [.tag "b"]
         (.declaration ⟨.width, .reference "@w" (.ofBytes 22 24 "") none, .ofBytes 16 25 "", none⟩
           .empty)
         (.ofBytes 14 26 "") .empty)
      (.ofBytes 0 27 "") .empty
  span := .ofBytes 0 27 ""

def plainDifference : Sheet where
  body :=
    .rule [.byClass "a"]
      (.rule [.tag "b"]
         (.declaration ⟨.width,
           .operation .subtract (.literal (.pixel 0) (.ofBytes 11 14 ""))
             (.literal (.pixel 3) (.ofBytes 15 18 "")) (.ofBytes 11 18 "") none,
           .ofBytes 5 19 "", none⟩ .empty)
         (.ofBytes 3 20 "") .empty)
      (.ofBytes 0 21 "") .empty
  span := .ofBytes 0 21 ""

/-- A negative width in a nested rule, by the name of a variable and without it. -/
theorem differences_css_eq :
    ∃ one other : Sheet, one.Obtained ∧ other.Obtained ∧ one ≠ other ∧
      one.css 2 = .ok ".a b \x7b\n  width: -3px;\n\x7d\n" ∧
      other.css 2 = .ok ".a b \x7b\n  width: -3px;\n\x7d\n" ∧
      one.body.flattened = other.body.flattened := by
  have named : Sheet.ofSource ".a\x7b@w:2px-5px;b\x7bwidth:@w;\x7d\x7d" "" =
      .ok namedDifference := by
    rw [Sheet.ofSource, Token.ofSource, Lexeme.split_eq]
    decide +kernel
  have plain : Sheet.ofSource ".a\x7bb\x7bwidth:0px-3px;\x7d\x7d" "" = .ok plainDifference := by
    rw [Sheet.ofSource, Token.ofSource, Lexeme.split_eq]
    decide +kernel
  obtain ⟨one, other, first, second, apart, here, there⟩ :
      ∃ one other : Sheet, one.Obtained ∧ other.Obtained ∧ one ≠ other ∧
        one.css 2 = .ok ".a b \x7b\n  width: -3px;\n\x7d\n" ∧
        other.css 2 = .ok ".a b \x7b\n  width: -3px;\n\x7d\n" :=
    ⟨_, _, ⟨_, "", namedDifference, named, rfl, rfl⟩, ⟨_, "", plainDifference, plain, rfl, rfl⟩,
      by rintro ⟨⟩, rfl, rfl⟩
  exact ⟨one, other, first, second, apart, here, there,
    (css_eq_iff_flattened_eq first second here there).mp rfl⟩

end Sheet

end TypedStyle
