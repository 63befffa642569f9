import TypedStyle.Proofs.FileSystems
import TypedStyle.Proofs.Written

/-!
Runs of the command line. Checking alone accepts a source exactly if compiling it gives a text, and
rejects it for the same reasons. A run is all or nothing: one that does not end well puts nothing
out and changes no file, and one that ends well does just what its options ask for. This holds on
every file system that does what is documented of it at the path that a run writes to.
-/

namespace TypedStyle

theorem checkedSheet_eq_ok {source file : String} {checked : Sheet} :
    checkedSheet source file = .ok checked ↔
      ∃ sheet, Sheet.ofSource source file = .ok sheet ∧ sheet.check.isClean = true ∧
        checked = sheet.check := by
  unfold checkedSheet
  constructor
  · intro accepted
    obtain ⟨sheet, read, accepted⟩ := ok_of_bind accepted
    cases found : Sheet.ofSource source file with
    | error stop =>
        rw [found] at read
        cases read
    | ok other =>
        rw [found] at read
        cases read
        dsimp only at accepted
        split at accepted
        · rename_i clean
          cases accepted
          exact ⟨sheet, rfl, clean, rfl⟩
        · cases accepted
  · rintro ⟨sheet, read, clean, rfl⟩
    rw [read]
    exact if_pos clean

theorem compile_of_rejected {source file : String} {stop : Stop (List Diagnostic)}
    (rejected : checkedSheet source file = .error stop) (indent : Nat) :
    compile source file indent = .error stop := by
  rw [compile, rejected]
  rfl

theorem compile_of_accepted {source file : String} {checked : Sheet}
    (accepted : checkedSheet source file = .ok checked) {indent : Nat}
    (narrow : indent ≤ widestField) : ∃ css, compile source file indent = .ok css := by
  obtain ⟨sheet, read, clean, rfl⟩ := checkedSheet_eq_ok.mp accepted
  obtain ⟨evaluated, folded, literals⟩ :=
    Sheet.evaluate_of_clean (Sheet.unmarked_of_source read) clean
  obtain ⟨css, written⟩ := Sheet.css_of_evaluated narrow literals
  have compiled := compile_of_clean indent read clean folded
  rw [written] at compiled
  exact ⟨css, compiled⟩

/-- Checking alone is the front half of compiling. -/
theorem checkSource_eq (source file : String) :
    checkSource source file = (checkedSheet source file).map fun _ => () := by
  unfold checkSource checkedSheet
  cases Sheet.ofSource source file with
  | error stop => rfl
  | ok sheet =>
      dsimp only [Compiled.ofStage, Except.mapError, bind, Except.bind]
      split
      · rfl
      · rfl

/-- Checking a source alone is the front half of compiling it, and foretells how that ends: there is
a text exactly if the source is accepted, and it is rejected with the same diagnostics, never with a
breach. -/
theorem checkSource_foretells (source file : String) (indent : Nat)
    (narrow : indent ≤ widestField) :
    checkSource source file = (checkedSheet source file).map (fun _ => ()) ∧
    (checkSource source file = .ok () ↔ ∃ css, compile source file indent = .ok css) ∧
    (∀ diagnostics, checkSource source file = .error (.fault diagnostics) ↔
      compile source file indent = .error (.fault diagnostics)) ∧
    ∀ cause, checkSource source file ≠ .error (.breach cause) := by
  refine ⟨checkSource_eq source file, ?_⟩
  rw [checkSource_eq]
  cases checked : checkedSheet source file with
  | ok sheet =>
      obtain ⟨css, compiled⟩ := compile_of_accepted checked narrow
      simp [compiled, Except.map]
  | error stop =>
      have compiled := compile_of_rejected checked indent
      obtain ⟨ending, holds⟩ := Ending.exists_holds source file narrow
      obtain ⟨diagnostics, rfl, _⟩ := holds.reports compiled
      simp [compiled, Except.map]

/-- A variable without a value, and then a length for a color. -/
theorem checkSource_foretells_both :
    65535 ≤ widestField ∧ checkSource "a\x7bwidth:@x;color:1px;\x7d" "s" =
      .error (.fault [⟨.undefinedVariable "@x", ⟨8, "s"⟩⟩,
        ⟨.typeNotAllowed .undefined "width", ⟨2, "s"⟩⟩,
        ⟨.typeNotAllowed .pixel "color", ⟨11, "s"⟩⟩]) := by
  obtain ⟨_, _, same, _⟩ :=
    checkSource_foretells "a\x7bwidth:@x;color:1px;\x7d" "s" 65535 (by decide)
  refine ⟨by decide, (same _).mpr ?_⟩
  rw [compile, checkedSheet, Sheet.ofSource, Token.ofSource, Lexeme.split_eq]
  decide +kernel

def Text.Place.arrow (place : Text.Place) : Nat :=
  place.column - (place.text.length - (place.text.dropWhile isIndent).length) + 1

/-- The arrow to the place of the diagnostic, if the source has this place, can be written. -/
def Diagnostic.Narrow (diagnostic : Diagnostic) (source : String) : Prop :=
  ∀ place, Text.place? source.toList diagnostic.position.offset.toNat = some place →
    place.arrow ≤ widestField

theorem Diagnostic.report_of_narrow {diagnostic : Diagnostic} {source : String}
    (narrow : diagnostic.Narrow source) : ∃ text, diagnostic.report source = .ok text := by
  unfold report
  split
  · exact ⟨_, rfl⟩
  · rename_i place found
    have fits : place.arrow ≤ widestField := narrow place found
    exact exists_ok_bind (if_pos fits) ⟨_, rfl⟩

namespace Command

variable {Path File Files : Type}

theorem Answer.reportsFrom_of_narrow (Path : Type) {diagnostics : List Diagnostic} {source : String}
    (narrow : ∀ diagnostic ∈ diagnostics, diagnostic.Narrow source) (number : Nat)
    (reported : String) :
    ∃ texts, List.Forall₂ (fun diagnostic text => diagnostic.report source = .ok text)
        diagnostics texts ∧
      (Answer.reportsFrom source number reported diagnostics : Answer Path) =
        .failure (reported ++ String.join texts ++ toString number ++ " error(s) found\n") := by
  induction diagnostics generalizing reported with
  | nil => exact ⟨[], .nil, by simp [reportsFrom, String.join]⟩
  | cons diagnostic later ih =>
      obtain ⟨here, there⟩ := List.forall_mem_cons.mp narrow
      obtain ⟨text, shown⟩ := Diagnostic.report_of_narrow here
      obtain ⟨texts, others, rest⟩ := ih there (reported ++ text)
      refine ⟨text :: texts, .cons shown others, ?_⟩
      rw [reportsFrom, shown]
      dsimp only
      rw [rest, String.join_cons, ← String.append_assoc]

theorem Answer.reportsFrom_eq (Path : Type) (source : String) (number : Nat) (reported : String)
    (diagnostics : List Diagnostic) :
    ∃ code errors, code ≠ 0 ∧
      (Answer.reportsFrom source number reported diagnostics : Answer Path) =
        .done code "" errors := by
  induction diagnostics generalizing reported with
  | nil => exact ⟨1, _, by decide, rfl⟩
  | cons diagnostic later ih =>
      rw [reportsFrom]
      split
      · exact ih _
      · exact ⟨101, _, by decide, rfl⟩

/-! ### Runs -/

namespace Options

variable (options : Options Path) (system : FileSystem Path Files) (view : View Path File Files)
  (stdin : Except String ByteArray) (files : Files)

def source? : Option String :=
  (options.input system stdin files).toOption.bind String.fromUTF8?

def Stops (name : Path → String) (source : String) (stop : Stop (List Diagnostic)) : Prop :=
  if options.checkOnly then checkSource source (options.inputName name) = .error stop
  else compile source (options.inputName name) options.indent = .error stop

inductive Fails : Prop where
  | unread (unread : options.source? system stdin files = none)
  | stopped {source : String} {stop : Stop (List Diagnostic)}
      (found : options.source? system stdin files = some source)
      (stops : options.Stops system.name source stop)
  | unwritten {source css : String} {path : Path} {after : Files} {reason : String}
      (found : options.source? system stdin files = some source)
      (writes : options.checkOnly = false)
      (compiled : compile source (options.inputName system.name) options.indent = .ok css)
      (named : options.output? = some path)
      (failed : system.write files path css.toUTF8 = (after, .error reason))

/-- What the options ask for: to check the source, which puts nothing out and changes no file, or
to compile it, and put the text out or into the file named for it. -/
def Fulfils (source : String) (output : String) (after : Files) : Prop :=
  if options.checkOnly then
    checkSource source (options.inputName system.name) = .ok () ∧ output = "" ∧ after = files
  else
    ∃ css, compile source (options.inputName system.name) options.indent = .ok css ∧
      match options.output? with
      | none => output = css ∧ after = files
      | some path => output = "" ∧ system.Rewritten view files path css.toUTF8 after

end Options

namespace Answer

variable {system : FileSystem Path Files} {files after : Files} {path : Path} {css : String}

theorem outcome_stopped (stop : Stop (List Diagnostic)) (source : String) :
    ∃ code errors, code ≠ 0 ∧
      (stopped stop source).outcome system files = ⟨code, "", errors, files⟩ := by
  cases stop with
  | fault diagnostics =>
      obtain ⟨code, errors, failed, same⟩ :=
        reportsFrom_eq Path source diagnostics.length "" diagnostics
      exact ⟨code, errors, failed, by rw [stopped, reports, same]; rfl⟩
  | breach cause => exact ⟨101, "", by decide, rfl⟩

theorem outcome_of_written (written : system.write files path css.toUTF8 = (after, .ok ())) :
    (Answer.write path css).outcome system files = ⟨0, "", "", after⟩ := by
  simp only [outcome, written]

theorem outcome_of_unwritten {reason : String}
    (failed : system.write files path css.toUTF8 = (after, .error reason)) :
    (Answer.write path css).outcome system files =
      ⟨1, "", writeFailure (system.name path) reason, after⟩ := by
  simp only [outcome, failed]

end Answer

def Outcome.Settles (outcome : Outcome Files) (before : Files) (Asked : String → Files → Prop)
    (Fails : Prop) : Prop :=
  outcome.code = 0 ∧ Asked outcome.output outcome.files ∨
  outcome.code ≠ 0 ∧ outcome.output = "" ∧ outcome.files = before ∧ Fails

theorem Outcome.settles_of_failed {outcome : Outcome Files} {before : Files} {code : UInt32}
    {errors : String} {Asked : String → Files → Prop} {Fails : Prop} (failed : code ≠ 0)
    (ends : outcome = ⟨code, "", errors, before⟩) (fails : Fails) :
    outcome.Settles before Asked Fails := by
  subst ends
  exact .inr ⟨failed, rfl, rfl, fails⟩

namespace Options

variable {options : Options Path} {system : FileSystem Path Files} {view : View Path File Files}
  {stdin : Except String ByteArray} {files : Files}

theorem run_of_unread (unread : options.source? system stdin files = none) :
    ∃ errors, options.run system stdin files = ⟨1, "", errors, files⟩ := by
  unfold source? at unread
  unfold run answer
  cases read : options.input system stdin files with
  | error reason => exact ⟨_, rfl⟩
  | ok bytes =>
      rw [read] at unread
      have text : String.fromUTF8? bytes = none := unread
      simp only [text]
      exact ⟨_, rfl⟩

section

variable {source : String} (found : options.source? system stdin files = some source)

include found

theorem run_of_source :
    options.run system stdin files =
      (options.answerSource system.name source).outcome system files := by
  unfold source? at found
  unfold run answer
  cases read : options.input system stdin files with
  | error reason =>
      rw [read] at found
      cases found
  | ok bytes =>
      rw [read] at found
      have text : String.fromUTF8? bytes = some source := found
      simp only [text]

theorem run_of_stops {stop : Stop (List Diagnostic)}
    (stops : options.Stops system.name source stop) :
    options.run system stdin files = (Answer.stopped stop source).outcome system files := by
  rw [run_of_source found]
  unfold Stops at stops
  unfold answerSource
  split at stops <;> simp_all

theorem run_of_checked (checks : options.checkOnly = true)
    (accepted : checkSource source (options.inputName system.name) = .ok ()) :
    options.run system stdin files = ⟨0, "", "", files⟩ := by
  rw [run_of_source found, answerSource, if_pos checks, accepted]
  rfl

theorem run_of_compiled {css : String} (writes : options.checkOnly = false)
    (compiled : compile source (options.inputName system.name) options.indent = .ok css) :
    (options.output? = none → options.run system stdin files = ⟨0, css, "", files⟩) ∧
    ∀ path, options.output? = some path →
      options.run system stdin files = (Answer.write path css).outcome system files := by
  rw [run_of_source found]
  constructor
  · intro unnamed
    simp [answerSource, writes, compiled, unnamed, Answer.outcome]
  · intro path named
    simp [answerSource, writes, compiled, named]

theorem settles_of_stops {stop : Stop (List Diagnostic)} {Asked : String → Files → Prop}
    (stops : options.Stops system.name source stop) :
    (options.run system stdin files).Settles files Asked (options.Fails system stdin files) := by
  obtain ⟨code, errors, failed, ends⟩ := Answer.outcome_stopped stop source
  exact Outcome.settles_of_failed failed ((run_of_stops found stops).trans ends)
    (.stopped found stops)

theorem settles_of_compiled {css : String}
    (documented : ∀ path, options.output? = some path → system.Documented view path)
    (writes : options.checkOnly = false)
    (compiled : compile source (options.inputName system.name) options.indent = .ok css) :
    (options.run system stdin files).Settles files (options.Fulfils system view files source)
      (options.Fails system stdin files) := by
  obtain ⟨printed, written⟩ := run_of_compiled found writes compiled
  have one : (1 : UInt32) ≠ 0 := by decide
  cases named : options.output? with
  | none =>
      rw [printed named]
      exact .inl ⟨rfl, by simp [Fulfils, writes, compiled, named]⟩
  | some path =>
      have documented := documented path named
      rw [written path named]
      cases done : system.write files path css.toUTF8 with
      | mk after result =>
          cases result with
          | ok _ =>
              rw [Answer.outcome_of_written done]
              have rewritten := documented.rewritten done
              exact .inl ⟨rfl, by simpa [Fulfils, writes, compiled, named] using rewritten⟩
          | error reason =>
              rw [Answer.outcome_of_unwritten done, documented.fails done]
              exact Outcome.settles_of_failed one rfl
                (.unwritten found writes compiled named done)

end

theorem run_settles (options : Options Path) (system : FileSystem Path Files)
    (view : View Path File Files) (stdin : Except String ByteArray) (files : Files)
    (documented : ∀ path, options.output? = some path → system.Documented view path) :
    (options.run system stdin files).Settles files
      (fun output after => ∃ source, options.source? system stdin files = some source ∧
        options.Fulfils system view files source output after)
      (options.Fails system stdin files) := by
  cases found : options.source? system stdin files with
  | none =>
      obtain ⟨errors, runs⟩ := run_of_unread found
      exact Outcome.settles_of_failed (by decide) runs (.unread found)
  | some source =>
      simp only [Option.some.injEq, exists_eq_left']
      cases mode : options.checkOnly with
      | true =>
          cases checked : checkSource source (options.inputName system.name) with
          | ok _ =>
              rw [run_of_checked found mode checked]
              exact .inl ⟨rfl, by simp [Fulfils, mode, checked]⟩
          | error stop => exact settles_of_stops found (by simpa [Stops, mode] using checked)
      | false =>
          cases compiled : compile source (options.inputName system.name) options.indent with
          | ok css => exact settles_of_compiled found documented mode compiled
          | error stop => exact settles_of_stops found (by simpa [Stops, mode] using compiled)

theorem Fails.code_ne_zero (fails : options.Fails system stdin files) :
    (options.run system stdin files).code ≠ 0 := by
  cases fails with
  | unread unread =>
      obtain ⟨errors, runs⟩ := run_of_unread unread
      simp [runs]
  | @stopped source stop found stops =>
      obtain ⟨code, errors, failed, ends⟩ := Answer.outcome_stopped stop source
      rw [run_of_stops found stops, ends]
      exact failed
  | unwritten found writes compiled named failed =>
      have written := (run_of_compiled found writes compiled).2 _ named
      simp [written, Answer.outcome_of_unwritten failed]

theorem run_of_rejected {source : String} {diagnostics : List Diagnostic}
    (found : options.source? system stdin files = some source)
    (stops : options.Stops system.name source (.fault diagnostics))
    (narrow : ∀ diagnostic ∈ diagnostics, diagnostic.Narrow source) :
    ∃ texts, List.Forall₂ (fun diagnostic text => diagnostic.report source = .ok text)
        diagnostics texts ∧
      options.run system stdin files = ⟨1, "",
        String.join texts ++ toString diagnostics.length ++ " error(s) found\n", files⟩ := by
  obtain ⟨texts, reported, same⟩ :=
    Answer.reportsFrom_of_narrow Path narrow diagnostics.length ""
  refine ⟨texts, reported, ?_⟩
  rw [run_of_stops found stops, Answer.stopped, Answer.reports, same, String.empty_append]
  rfl

end Options

end Command

end TypedStyle
