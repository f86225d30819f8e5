/-
**What a run is to make of its files.**

What becomes of a file is read off the file system that a run begins with: whether the file is
there, whether its text can be read and compiles, whether there is a diagnostic, and where its
module is to be written. A run keeps the contract if every file has become of what is read off so,
and if the modules that are to be written are all that has changed.

Two files are independent if the first does not name the file that the output of the second names,
and the other way round, and if their outputs name different files unless their canonical paths are
the same.

* `Prepares.of_compiles`: reading and compiling has one outcome.
* `Settles.isWritten_iff`: a file is written exactly if its module is to be written.
* `Contract.find?_eq`: **the contract fixes the file system** that a run leaves behind.
-/

import RenderLink.CommandLine
import RenderLink.Proofs.FileSystem.SameTree
import Mathlib.Data.List.Forall2

namespace RenderLink

namespace CommandLine

open FileSystem Text

/-! ### What is to become of a file -/

section Contract

variable (adapter : Adapter) (block : TemplateBlock) (options : ResolvedOptions)
  (initial : FileSystem)

/-- The text at the canonical path of a file compiles. -/
def Compiles (file canonical : Path) (compilation : Compilation) : Prop :=
  initial.canonicalize file = .ok canonical ∧
    ∃ source, initial.readText canonical = .ok source ∧
      adapter.compile source block canonical options = .ok compilation

/-- A module is to be written: the file compiles without a diagnostic, and its output path lets a
file be written at a location. -/
def Writes (file : Path) (location : Location) (text : String) : Prop :=
  ∃ canonical compilation, Compiles adapter block options initial file canonical compilation ∧
    compilation.reports = [] ∧ compilation.text = text ∧
    initial.resolveToFile (outputPath canonical) = .ok location

/-- What reading and compiling a file may lead to. Of a file that is not there, only the cause may
differ from what is seen at the beginning. -/
inductive Prepares (file : Path) : Prepared → Prop
  | ready {canonical : Path} {compilation : Compilation} :
      Compiles adapter block options initial file canonical compilation →
      compilation.reports = [] →
      Prepares file (.ready ⟨outputPath canonical, compilation.text⟩)
  | rejected {canonical : Path} {compilation : Compilation} :
      Compiles adapter block options initial file canonical compilation →
      compilation.reports ≠ [] →
      Prepares file (.rejected compilation.reports)
  | uncompiled {canonical : Path} {source : String} {error : CompilerError} :
      initial.canonicalize file = .ok canonical →
      initial.readText canonical = .ok source →
      adapter.compile source block canonical options = .error error →
      Prepares file (.failed error.chain)
  | unreadable {canonical : Path} {cause : FileError} :
      initial.canonicalize file = .ok canonical →
      initial.readText canonical = .error cause →
      Prepares file (.failed ["Failed to read " ++ canonical.display, cause.message])
  | missing {cause : FileError} (seen : FileError) :
      initial.canonicalize file = .error cause →
      Prepares file (.failed ["Template " ++ file.display ++ " does not exist", seen.message])

/-- What may become of a file. Of an output that cannot be written, only the cause may differ from
what is seen at the beginning. -/
inductive Settles (file : Path) : Result → Prop
  | written {module : Module} {location : Location} :
      Prepares adapter block options initial file (.ready module) →
      initial.resolveToFile module.output = .ok location →
      Settles file (.written module.output)
  | unwritable {module : Module} {cause : FileError} (seen : FileError) :
      Prepares adapter block options initial file (.ready module) →
      initial.resolveToFile module.output = .error cause →
      Settles file (.failed ["Failed to write " ++ module.output.display, seen.message])
  | rejected {reports : List Report} :
      Prepares adapter block options initial file (.rejected reports) →
      Settles file (.rejected reports)
  | failed {chain : List String} :
      Prepares adapter block options initial file (.failed chain) →
      Settles file (.failed chain)

/-- What a run makes of files and of the file system that it begins with. -/
structure Contract (files : List Path) (results : List Result) (final : FileSystem) : Prop where
  settles : List.Forall₂ (Settles adapter block options initial) files results
  isWritten : List.Forall₂
    (fun file result => result.isWritten = true ↔
      ∃ location text, Writes adapter block options initial file location text) files results
  written : ∀ file ∈ files, ∀ location text,
    Writes adapter block options initial file location text →
      final.find? location = some (.file (encode text.toList))
  unchanged : ∀ location,
    (∀ file ∈ files, ∀ text, ¬Writes adapter block options initial file location text) →
      final.find? location = initial.find? location
  workingDirectory : final.workingDirectory = initial.workingDirectory

end Contract

/-- The output of a file would be written at a location. -/
def OutputAt (initial : FileSystem) (file : Path) (location : Location) : Prop :=
  ∃ canonical, initial.canonicalize file = .ok canonical ∧
    initial.resolveToFile (outputPath canonical) = .ok location

/-- No input names the file that the output of another one names, and outputs of inputs with
different canonical paths name different files. -/
structure Independent (initial : FileSystem) (files : List Path) : Prop where
  inputs : ∀ (place other : Nat) (input file : Path), place ≠ other →
    files[place]? = some input → files[other]? = some file →
    ∀ location, OutputAt initial file location → ¬initial.Names input location
  outputs : ∀ input ∈ files, ∀ file ∈ files, ∀ canonical other location,
    initial.canonicalize input = .ok canonical → initial.canonicalize file = .ok other →
    canonical ≠ other →
    initial.resolveToFile (outputPath canonical) = .ok location →
    initial.resolveToFile (outputPath other) ≠ .ok location

/-! ### One file -/

variable {adapter : Adapter} {block : TemplateBlock} {options : ResolvedOptions}
  {initial current : FileSystem} {file other : Path} {location : Location} {text : String}

theorem Writes.outputAt (writes : Writes adapter block options initial file location text) :
    OutputAt initial file location := by
  obtain ⟨canonical, compilation, compiles, -, -, output⟩ := writes
  exact ⟨canonical, compiles.1, output⟩

theorem Writes.isFree (writes : Writes adapter block options initial file location text) :
    initial.IsFree location := by
  obtain ⟨canonical, compilation, -, -, -, output⟩ := writes
  exact isFree_of_resolveToFile output

/-- Files with the same canonical path have the same compilation. -/
theorem Compiles.unique {canonical : Path} {first second : Compilation}
    (compiles : Compiles adapter block options initial file canonical first)
    (again : Compiles adapter block options initial other canonical second) : first = second := by
  obtain ⟨-, source, read, compiled⟩ := compiles
  obtain ⟨-, same, reread, recompiled⟩ := again
  obtain rfl : source = same := Except.ok.inj (read.symm.trans reread)
  exact Except.ok.inj (compiled.symm.trans recompiled)

/-- Independent files that are to be written at one location have the same text. -/
theorem Independent.text_unique {files : List Path} (independent : Independent initial files)
    {again : String} (member : file ∈ files) (among : other ∈ files)
    (writes : Writes adapter block options initial file location text)
    (rewrites : Writes adapter block options initial other location again) : text = again := by
  obtain ⟨canonical, compilation, compiles, -, rfl, output⟩ := writes
  obtain ⟨second, recompilation, recompiles, -, rfl, reoutput⟩ := rewrites
  obtain rfl : canonical = second := by
    by_contra different
    exact independent.outputs file member other among canonical second location compiles.1
      recompiles.1 different output reoutput
  rw [compiles.unique recompiles]

/-- A file is to be written at one location only. -/
theorem Writes.location_unique {again : String} {second : Location}
    (writes : Writes adapter block options initial file location text)
    (rewrites : Writes adapter block options initial file second again) : location = second := by
  obtain ⟨canonical, compilation, compiles, -, -, output⟩ := writes
  obtain ⟨same, recompilation, recompiles, -, -, reoutput⟩ := rewrites
  obtain rfl : canonical = same := Except.ok.inj (compiles.1.symm.trans recompiles.1)
  exact Except.ok.inj (output.symm.trans reoutput)

/-- Reading and compiling a file that compiles has one outcome. -/
theorem Prepares.of_compiles {canonical : Path} {compilation : Compilation} {prepared : Prepared}
    (prepares : Prepares adapter block options initial file prepared)
    (compiles : Compiles adapter block options initial file canonical compilation) :
    prepared = if compilation.reports = [] then .ready ⟨outputPath canonical, compilation.text⟩
      else .rejected compilation.reports := by
  obtain ⟨found, source, read, compiled⟩ := id compiles
  cases prepares with
  | ready same silent =>
    obtain rfl := Except.ok.inj (found.symm.trans same.1)
    rw [compiles.unique same, if_pos silent]
  | rejected same reported =>
    obtain rfl := Except.ok.inj (found.symm.trans same.1)
    rw [compiles.unique same, if_neg reported]
  | uncompiled same reread failed =>
    obtain rfl := Except.ok.inj (found.symm.trans same)
    obtain rfl := Except.ok.inj (read.symm.trans reread)
    rw [compiled] at failed
    cases failed
  | unreadable same unreadable =>
    obtain rfl := Except.ok.inj (found.symm.trans same)
    rw [read] at unreadable
    cases unreadable
  | missing seen missing =>
    rw [found] at missing
    cases missing

/-- A module that is ready is to be written where its output path lets a file be written. -/
theorem Prepares.writes {module : Module}
    (prepares : Prepares adapter block options initial file (.ready module))
    (output : initial.resolveToFile module.output = .ok location) :
    Writes adapter block options initial file location module.text := by
  cases prepares with
  | ready compiles silent => exact ⟨_, _, compiles, silent, rfl, output⟩

/-- The module that is to be written is the one that is prepared. -/
theorem Writes.prepared {prepared : Prepared}
    (writes : Writes adapter block options initial file location text)
    (prepares : Prepares adapter block options initial file prepared) :
    ∃ output, prepared = .ready ⟨output, text⟩ ∧ initial.resolveToFile output = .ok location := by
  obtain ⟨canonical, compilation, compiles, silent, rfl, output⟩ := writes
  exact ⟨outputPath canonical, by rw [prepares.of_compiles compiles, if_pos silent], output⟩

/-- A file is written exactly if its module is to be written. -/
theorem Settles.isWritten_iff {result : Result}
    (settles : Settles adapter block options initial file result) :
    result.isWritten = true ↔
      ∃ location text, Writes adapter block options initial file location text := by
  cases settles with
  | written prepares output => exact iff_of_true rfl ⟨_, _, prepares.writes output⟩
  | unwritable seen prepares unwritable =>
    refine iff_of_false Bool.false_ne_true fun ⟨location, text, writes⟩ => ?_
    obtain ⟨output, same, writable⟩ := writes.prepared prepares
    cases same
    rw [writable] at unwritable
    cases unwritable
  | rejected prepares =>
    refine iff_of_false Bool.false_ne_true fun ⟨location, text, writes⟩ => ?_
    obtain ⟨output, same, -⟩ := writes.prepared prepares
    cases same
  | failed prepares =>
    refine iff_of_false Bool.false_ne_true fun ⟨location, text, writes⟩ => ?_
    obtain ⟨output, same, -⟩ := writes.prepared prepares
    cases same

/-- The text of a file that can be read prepares it. -/
theorem prepares_prepareText {canonical : Path} {source : String}
    (found : initial.canonicalize file = .ok canonical)
    (read : initial.readText canonical = .ok source) :
    Prepares adapter block options initial file
      (prepareText adapter block options canonical source).1 := by
  unfold prepareText
  cases compiled : adapter.compile source block canonical options with
  | error error => exact .uncompiled found read compiled
  | ok compilation =>
    have compiles : Compiles adapter block options initial file canonical compilation :=
      ⟨found, source, read, compiled⟩
    by_cases silent : compilation.reports = []
    · simpa [silent] using Prepares.ready compiles silent
    · simpa [silent] using Prepares.rejected compiles silent

/-! ### Runs with the same beginning -/

namespace Contract

variable {files : List Path} {results again : List Result} {final last : FileSystem}

/-- The file system that a run leaves behind is fixed by the one that it begins with. -/
theorem find?_eq (contract : Contract adapter block options initial files results final)
    (other : Contract adapter block options initial files again last) (location : Location) :
    final.find? location = last.find? location := by
  by_cases written : ∃ file ∈ files, ∃ text,
      Writes adapter block options initial file location text
  · obtain ⟨file, member, text, writes⟩ := written
    rw [contract.written file member location text writes,
      other.written file member location text writes]
  · have unwritten : ∀ file ∈ files, ∀ text,
        ¬Writes adapter block options initial file location text :=
      fun file member text writes => written ⟨file, member, text, writes⟩
    rw [contract.unchanged location unwritten, other.unchanged location unwritten]

/-- Which files a run writes is fixed by the file system that it begins with. -/
theorem map_isWritten_eq (contract : Contract adapter block options initial files results final)
    (other : Contract adapter block options initial files again last) :
    results.map Result.isWritten = again.map Result.isWritten := by
  have both := contract.isWritten
  have also := other.isWritten
  clear contract other
  induction both generalizing again with
  | nil =>
    cases also
    rfl
  | cons head tail ih =>
    obtain ⟨second, rest, same, others, rfl⟩ := List.forall₂_cons_left_iff.1 also
    rw [List.map_cons, List.map_cons, ih others, Bool.eq_iff_iff.2 (head.trans same.symm)]

end Contract

end CommandLine

end RenderLink
