import TypedStyle.Command.Directory
import TypedStyle.Proofs.Folding

/-!
File systems by what is documented of them. A content that has been written is read back and no
other file is changed, and what cannot be written changes nothing. A directory of files behaves in
this way at every path.
-/

namespace TypedStyle.Command

variable {Path File Files : Type}

/-- What there is in the files: the one that a path leads to, and the content of each. -/
structure View (Path File Files : Type) where
  locate? : Files → Path → Option File
  content? : Files → File → Option ByteArray

namespace FileSystem

variable (system : FileSystem Path Files) (view : View Path File Files)

structure Documented (path : Path) : Prop where
  /-- What is read is the content of the file that the path leads to. -/
  reads {files : Files} {content : ByteArray} (read : system.read files path = .ok content) :
    ∃ file, view.locate? files path = some file ∧ view.content? files file = some content
  /-- What has been written is read back. -/
  reads_back {before after : Files} {content : ByteArray}
    (written : system.write before path content = (after, .ok ())) :
    system.read after path = .ok content
  /-- No other file is changed. -/
  keeps {before after : Files} {content : ByteArray} {file other : File}
    (written : system.write before path content = (after, .ok ()))
    (leads : view.locate? after path = some file) (different : other ≠ file) :
    view.content? after other = view.content? before other
  /-- What cannot be written changes nothing. -/
  fails {before after : Files} {content : ByteArray} {reason : String}
    (failed : system.write before path content = (after, .error reason)) : after = before

structure Rewritten (before : Files) (path : Path) (content : ByteArray) (after : Files) :
    Prop where
  read : system.read after path = .ok content
  rest : ∃ file, view.locate? after path = some file ∧ view.content? after file = some content ∧
    ∀ other, other ≠ file → view.content? after other = view.content? before other

variable {system view}

theorem Documented.rewritten {path : Path} (documented : system.Documented view path)
    {before after : Files} {content : ByteArray}
    (written : system.write before path content = (after, .ok ())) :
    system.Rewritten view before path content after := by
  have read := documented.reads_back written
  obtain ⟨file, leads, held⟩ := documented.reads read
  exact ⟨read, file, leads, held, fun _ => documented.keeps written leads⟩

end FileSystem

namespace Directory

def locate? (directory : Directory) (path : String) : Option String :=
  match Route.ofString path with
  | .error _ => none
  | .ok route =>
      match directory.walk route.start route.parts with
      | .ok (.file .inside name) =>
          if route.slashed = false ∧ name.utf8ByteSize ≤ 255 then some name else none
      | _ => none

def view : View String String Directory where
  locate? := locate?
  content? directory name := directory.lookup name

theorem locate?_eq_some {directory : Directory} {path name : String} :
    directory.locate? path = some name ↔ ∃ route, Route.ofString path = .ok route ∧
      directory.walk route.start route.parts = .ok (.file .inside name) ∧
      route.slashed = false ∧ name.utf8ByteSize ≤ 255 := by
  unfold locate?
  cases Route.ofString path with
  | error error => simp
  | ok route =>
      dsimp only
      split
      · rename_i found leads
        simp only [Option.ite_none_right_eq_some, Option.some.injEq, Except.ok.injEq,
          exists_eq_left', leads, Target.file.injEq, true_and]
        constructor
        · rintro ⟨proper, rfl⟩
          exact ⟨rfl, proper⟩
        · rintro ⟨rfl, proper⟩
          exact ⟨proper, rfl⟩
      · rename_i other
        simp only [Except.ok.injEq, exists_eq_left', reduceCtorEq, false_iff]
        rintro ⟨leads, -⟩
        exact other name leads

theorem find_eq_ok {directory : Directory} {side : Side} {name : String}
    {found : Option ByteArray} :
    directory.find side name = .ok found ↔ name.utf8ByteSize ≤ 255 ∧
      found = match side with
        | .inside => directory.lookup name
        | .outside => none := by
  unfold find
  split
  · rename_i long
    simp [Nat.not_le.mpr long]
  · rename_i short
    cases side <;> simp [Nat.not_lt.mp short, eq_comm]

theorem read_eq_ok {directory : Directory} {path : String} {content : ByteArray} :
    directory.read path = .ok content ↔ ∃ name, directory.locate? path = some name ∧
      directory.lookup name = some content := by
  simp only [locate?_eq_some]
  constructor
  · intro done
    obtain ⟨route, spelled, done⟩ := ok_of_bind done
    obtain ⟨target, leads, done⟩ := ok_of_bind done
    cases target with
    | directory => cases done
    | file side name =>
        obtain ⟨found, there, done⟩ := ok_of_bind done
        obtain ⟨short, rfl⟩ := find_eq_ok.mp there
        cases side with
        | outside => cases done
        | inside =>
            dsimp only at done
            split at done
            · rename_i held
              split at done
              · cases done
              · rename_i unslashed
                cases done
                exact ⟨name, ⟨route, spelled, leads, by simpa using unslashed, short⟩, held⟩
            · cases done
  · rintro ⟨name, ⟨route, spelled, leads, unslashed, short⟩, held⟩
    have found : directory.find .inside name = .ok (some content) :=
      find_eq_ok.mpr ⟨short, held.symm⟩
    simp [Directory.read, spelled, leads, unslashed, found, bind, Except.bind]

theorem write_eq_ok {before after : Directory} {path : String} {content : ByteArray} :
    before.write path content = .ok after ↔ ∃ name, before.locate? path = some name ∧
      after = (name, content) :: before.filter fun file => file.1 != name := by
  simp only [locate?_eq_some]
  constructor
  · intro done
    obtain ⟨route, spelled, done⟩ := ok_of_bind done
    obtain ⟨target, leads, done⟩ := ok_of_bind done
    cases target with
    | directory => cases done
    | file side name =>
        dsimp only at done
        split at done
        · cases done
        · rename_i unslashed
          obtain ⟨found, there, done⟩ := ok_of_bind done
          cases side with
          | outside => cases done
          | inside =>
              cases done
              have short := (find_eq_ok.mp there).1
              exact ⟨name, ⟨route, spelled, leads, by simpa using unslashed, short⟩, rfl⟩
  · rintro ⟨name, ⟨route, spelled, leads, unslashed, short⟩, rfl⟩
    have found : before.find .inside name = .ok (before.lookup name) :=
      find_eq_ok.mpr ⟨short, rfl⟩
    simp [write, spelled, leads, unslashed, found, bind, Except.bind]

-- Only the directory itself and those above it can be entered, so the files in it play no part.
theorem enter_eq_ok {directory : Directory} {side next : Side} {part : String}
    (enters : directory.enter side part = .ok next) (other : Directory) :
    other.enter side part = .ok next := by
  unfold enter at enters ⊢
  by_cases same : part = "."
  · rwa [if_pos same] at enters ⊢
  · rw [if_neg same] at enters ⊢
    by_cases up : part = ".."
    · rwa [if_pos up] at enters ⊢
    · rw [if_neg up] at enters
      split at enters <;> cases enters

theorem walk_eq_ok {directory : Directory} {side : Side} {parts : List String} {target : Target}
    (leads : directory.walk side parts = .ok target) (other : Directory) :
    other.walk side parts = .ok target := by
  induction parts generalizing side with
  | nil => exact leads
  | cons part later ih =>
      cases later with
      | nil => exact leads
      | cons next later =>
          have step (directory : Directory) : directory.walk side (part :: next :: later) =
              directory.enter side part >>= (directory.walk · (next :: later)) := by
            rw [walk.eq_3 _ _ _ _ (List.cons_ne_nil next later)]
            cases directory.enter side part <;> rfl
          rw [step] at leads ⊢
          obtain ⟨inner, enters, leads⟩ := ok_of_bind leads
          rw [enter_eq_ok enters other]
          exact ih leads

theorem locate?_of_some {directory : Directory} {path name : String}
    (leads : directory.locate? path = some name) (other : Directory) :
    other.locate? path = some name := by
  obtain ⟨route, spelled, walks, proper⟩ := locate?_eq_some.mp leads
  exact locate?_eq_some.mpr ⟨route, spelled, walk_eq_ok walks other, proper⟩

theorem lookup_filter {other name : String} (different : other ≠ name) (directory : Directory) :
    (directory.filter fun file => file.1 != name).lookup other = directory.lookup other := by
  induction directory with
  | nil => rfl
  | cons file later ih =>
      obtain ⟨found, content⟩ := file
      by_cases same : found = name
      · have apart : (other == found) = false := by simpa [same] using different
        rw [List.filter_cons_of_neg (by simp [same]), ih, List.lookup_cons, apart]
      · rw [List.filter_cons_of_pos (by simpa using same), List.lookup_cons, List.lookup_cons, ih]

theorem system_read_eq_ok {directory : Directory} {path : String} {content : ByteArray} :
    system.read directory path = .ok content ↔ directory.read path = .ok content := by
  simp only [system]
  cases directory.read path <;> simp [Except.mapError]

theorem system_write_eq_ok {before after : Directory} {path : String} {content : ByteArray} :
    system.write before path content = (after, .ok ()) ↔
      before.write path content = .ok after := by
  simp only [system]
  cases before.write path content <;> simp

/-- The directory does what is documented of a file system, whatever the path. -/
theorem documented (path : String) : system.Documented view path where
  reads read := read_eq_ok.mp (system_read_eq_ok.mp read)
  reads_back written := by
    obtain ⟨name, leads, rfl⟩ := write_eq_ok.mp (system_write_eq_ok.mp written)
    rw [system_read_eq_ok, read_eq_ok]
    exact ⟨name, locate?_of_some leads _, List.lookup_cons_self⟩
  keeps written leads different := by
    obtain ⟨name, located, rfl⟩ := write_eq_ok.mp (system_write_eq_ok.mp written)
    cases (locate?_of_some located _).symm.trans leads
    have apart := beq_false_of_ne different
    simp only [view, List.lookup_cons, apart]
    exact lookup_filter different _
  fails {before after content reason} failed := by
    simp only [system] at failed
    split at failed
    · cases failed
    · cases failed
      rfl

end Directory

end TypedStyle.Command
