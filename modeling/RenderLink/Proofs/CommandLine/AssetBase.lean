/-
**The asset base that the compiler is handed.**

With a live server, and unless the overrides say otherwise, the compiler is handed the base of the
server with the way from the project root to the directory of the file behind it. The root is
settled with the configuration and the file only when it is compiled, when the disk may have
changed.

* `assetBase_leads_to_directory`: **the base that the compiler is handed** for a file.
-/

import RenderLink.Proofs.CommandLine.Run
import RenderLink.Proofs.Path.AssetBase

namespace RenderLink

namespace CommandLine

open FileSystem RenderLink.Path Text

/-- Preparing a file hands some options to the compiler, whichever it is, and makes what it makes of
the answer. -/
def HandsOver (block : TemplateBlock) (options : ResolvedOptions) (current : FileSystem)
    (file canonical : Path) (source : String) (handed : CompileOptions) : Prop :=
  ∀ adapter : Adapter,
    prepare FileSystem.disk adapter block options file current =
        (prepareText adapter block options canonical source, current) ∧
      adapter.compile source block canonical options =
        (adapter.compiler.compile handed).map (adapter.finish options handed)

variable {environment : Config.Environment} {initial current : FileSystem} {config : Config}

/-- The root of a configuration is a canonical path, and the live server that of the variables. -/
theorem options_of_configured
    (configured : (Config.ofEnvironment FileSystem.disk environment initial).1 = .ok config) :
    initial.canonicalize (namedRoot environment initial) = .ok config.options.root ∧
      config.options.liveServerBase = environment "TEMPLATE_LINKER_LIVE_BASE" := by
  rw [ofEnvironment_disk] at configured
  cases found : initial.canonicalize (namedRoot environment initial) with
  | error cause =>
    rw [found] at configured
    cases configured
  | ok root =>
    rw [found] at configured
    obtain ⟨overrides, bundle, -, -, rfl, -⟩ := withRoot_eq_ok_iff.mp configured
    exact ⟨rfl, rfl⟩

/-- A text that can be read is that of a file below the top of the tree. -/
theorem ne_root_of_readText {path : Path} {location : Location} {source : String}
    (resolved : current.resolve path = .ok location)
    (read : current.readText path = .ok source) : location ≠ [] := by
  rintro rfl
  unfold readText at read
  split_ifs at read
  simp [resolved, bind, Except.bind] at read

/-- **The base that the compiler is handed** for a file, with a live server and no other base in the
overrides: that of the server without the slashes at its end, and the way from the project root to
the directory of the file. -/
theorem assetBase_leads_to_directory {base source : String} {argument canonical : Path}
    (settled : initial.WellFormed) (wellFormed : current.WellFormed)
    (configured : (Config.ofEnvironment FileSystem.disk environment initial).1 = .ok config)
    (live : environment "TEMPLATE_LINKER_LIVE_BASE" = some base)
    (noOther : config.options.overrides.transformAssetUrlsOptions = none)
    (found : current.canonicalize argument = .ok canonical)
    (read : current.readText canonical = .ok source)
    (utf8 : ∃ text, canonical.bytes = encode text) (block : TemplateBlock) :
    let handed := config.options.compileOptions source block canonical
    HandsOver block config.options current argument canonical source handed ∧
      ∃ root directory name trimmed slashes way,
        initial.resolve config.options.root = .ok root ∧
        current.resolve canonical = .ok (directory ++ [name]) ∧
        base.toList = trimmed ++ List.replicate slashes '/' ∧ trimmed.getLast? ≠ some '/' ∧
        handed.transformAssetUrlsOptions.base = some (String.ofList (trimmed ++ '/' :: way)) ∧
        LeadsTo root directory way := by
  intro handed
  obtain ⟨rooted, server⟩ := options_of_configured configured
  obtain ⟨root, -, rootPath, rootResolved⟩ := resolve_of_canonicalize settled rooted
  obtain ⟨location, -, path, resolved⟩ := resolve_of_canonicalize wellFormed found
  obtain ⟨directory, name, rfl⟩ : ∃ directory name, location = directory ++ [name] :=
    (List.eq_nil_or_concat' location).resolve_left (ne_root_of_readText resolved read)
  obtain ⟨text, bytes⟩ := utf8
  have rootNames : ∀ other ∈ root, IsName other :=
    settled.isName_of_stands (stands_of_resolve settled rootResolved)
  have names : ∀ other ∈ directory ++ [name], IsName other :=
    wellFormed.isName_of_stands (stands_of_resolve wellFormed resolved)
  obtain ⟨trimmed, slashes, way, whole, last, spelled, leads⟩ :=
    leadsTo_assetBase base rootNames names (path ▸ bytes)
  refine ⟨fun adapter => ⟨prepare_read found read, rfl⟩, root, directory, name, trimmed, slashes,
    way, rootResolved, resolved, whole, last, ?_, leads⟩
  have computed : handed.transformAssetUrlsOptions.base =
      some (assetBase base config.options.root canonical) := by
    simp only [handed, ResolvedOptions.compileOptions, CompileOptions.applyOverrides, noOther,
      server, live]
    rfl
  rw [computed, rootPath, path, spelled]

/-! ### A file beside the project -/

/-- The directories a and ab in the root, and the template c in the second one. -/
def neighbours : FileSystem where
  entries := [([[97]], .directory), ([[97, 98]], .directory), ([[97, 98], [99]], .file [120])]

def neighboursEnvironment : Config.Environment
  | "TEMPLATE_LINKER_ROOT" => some "/a"
  | "TEMPLATE_LINKER_COMPILER" => some "/x"
  | "TEMPLATE_LINKER_LIVE_BASE" => some "/static//"
  | _ => none

def neighboursConfig : Config where
  options := { root := ⟨[47, 97]⟩, liveServerBase := some "/static//" }
  bundle := ⟨[47, 120]⟩

theorem neighbours_wellFormed : neighbours.WellFormed := by
  have entry : ∀ location name, neighbours.find? (location ++ [name]) ≠ none →
      neighbours.find? location = some .directory ∧ IsName name := by
    intro location name present
    obtain ⟨entry, member⟩ := mem_entries_of_find? present
    have known : (location = [] ∧ (name = [97] ∨ name = [97, 98])) ∨
        (location = [[97, 98]] ∧ name = [99]) := by
      simp only [neighbours, List.mem_cons, Prod.mk.injEq, List.not_mem_nil, or_false] at member
      rcases location with _ | ⟨first, _ | ⟨second, rest⟩⟩ <;> simp at member <;> tauto
    obtain ⟨rfl, rfl | rfl⟩ | ⟨rfl, rfl⟩ := known <;>
      exact ⟨rfl, by decide, by decide, by decide, by decide, by decide⟩
  exact ⟨fun location name present => (entry location name present).1,
    fun location name present => (entry location name present).2⟩

theorem neighbours_configured :
    (Config.ofEnvironment FileSystem.disk neighboursEnvironment neighbours).1 =
      .ok neighboursConfig := by
  have root : neighbours.canonicalize ⟨[47, 97]⟩ = .ok ⟨[47, 97]⟩ := by
    have resolved : neighbours.resolve (pathOf [[97]]) = .ok [[97]] :=
      resolve_pathOf neighbours_wellFormed (stands_of_directory rfl)
    exact congrArg (Except.map pathOf) resolved
  have spelled : namedRoot neighboursEnvironment neighbours = ⟨[47, 97]⟩ := rfl
  rw [ofEnvironment_disk, spelled, root]
  rfl

theorem neighbours_find? : neighbours.find? [[97, 98], [99]] = some (.file [120]) := rfl

theorem neighbours_resolve :
    neighbours.resolve ⟨[47, 97, 98, 47, 99]⟩ = .ok [[97, 98], [99]] := by
  have stands : neighbours.Stands [[97, 98], [99]] := by simp [Stands, neighbours_find?]
  exact resolve_pathOf neighbours_wellFormed stands

theorem neighbours_readText : neighbours.readText ⟨[47, 97, 98, 47, 99]⟩ = .ok "x" := by
  have decoded : decode? [120] = some ['x'] := rfl
  rw [readText, if_neg (by decide), neighbours_resolve]
  simp [neighbours_find?, bind, Except.bind, decoded]

/-- A directory whose name begins with that of the root is beside the root. -/
theorem base_of_neighbour :
    let handed := neighboursConfig.options.compileOptions "x" ⟨false⟩ ⟨[47, 97, 98, 47, 99]⟩
    handed.transformAssetUrlsOptions.base = some "/static/../ab" ∧
      HandsOver ⟨false⟩ neighboursConfig.options neighbours ⟨[47, 97, 98, 47, 99]⟩
        ⟨[47, 97, 98, 47, 99]⟩ "x" handed ∧
      ∃ trimmed way, handed.transformAssetUrlsOptions.base =
          some (String.ofList (trimmed ++ '/' :: way)) ∧
        LeadsTo [[97]] [[97, 98]] way := by
  intro handed
  have found : neighbours.canonicalize ⟨[47, 97, 98, 47, 99]⟩ = .ok ⟨[47, 97, 98, 47, 99]⟩ :=
    congrArg (Except.map pathOf) neighbours_resolve
  have stands : neighbours.Stands [[97]] := stands_of_directory rfl
  have rooted : neighbours.resolve neighboursConfig.options.root = .ok [[97]] :=
    resolve_pathOf neighbours_wellFormed stands
  obtain ⟨handsOver, root, directory, name, trimmed, slashes, way, first, second, -, -, base,
      leads⟩ :=
    assetBase_leads_to_directory neighbours_wellFormed neighbours_wellFormed neighbours_configured
      rfl rfl found neighbours_readText ⟨"/ab/c".toList, by decide⟩ ⟨false⟩
  obtain rfl : root = [[97]] := Except.ok.inj (first.symm.trans rooted)
  have place : directory ++ [name] = [[97, 98]] ++ [[99]] :=
    Except.ok.inj (second.symm.trans neighbours_resolve)
  obtain ⟨rfl, -⟩ := List.append_inj' place rfl
  exact ⟨by decide +kernel, handsOver, trimmed, way, base, leads⟩

end CommandLine

end RenderLink
