/-
**Call sites replaced by identifiers.**

Hoisting is described by the spans that the search finds and by one map from literals to
identifiers: the source with the identifier of its literal in place of each span, below one import
declaration for each literal in the order of first occurrence.

* `slice`, `replaceFrom`: a source between two byte offsets, and with texts in place of spans.
* `replaceFrom_sites`: the gaps of the search are the bytes between the spans.
* `Hoisted.body_eq`: the identifiers that are written one after another are those of the last table.
* `hoist_eq_replace`: **hoisting is replacing.**
-/

import RenderLink.Hoist.Hoisted
import RenderLink.Proofs.Hoist.Leftmost
import RenderLink.Proofs.Hoist.Resolution

namespace RenderLink

open Text

/-! ### Bytes of a source -/

/-- The characters of a source from one byte offset up to another. -/
def slice (source : List Char) (start stop : Nat) : List Char :=
  takeBytes (stop - start) (dropBytes start source)

theorem takeBytes_append (first second : List Char) :
    takeBytes (byteLength first) (first ++ second) = first := by
  induction first with
  | nil =>
    cases second with
    | nil => rfl
    | cons c second =>
      have positive := c.utf8Size_pos
      rw [List.nil_append, takeBytes, if_neg (by simp; omega)]
  | cons c first ih =>
    have remaining : c.utf8Size + byteLength first - c.utf8Size = byteLength first := by omega
    rw [List.cons_append, takeBytes, byteLength_cons, if_pos (by omega), remaining, ih]

theorem slice_append (first middle last : List Char) :
    slice (first ++ middle ++ last) (byteLength first) (byteLength (first ++ middle)) = middle := by
  have length : byteLength (first ++ middle) - byteLength first = byteLength middle := by
    rw [byteLength_append]
    omega
  rw [slice, length, List.append_assoc, dropBytes_append, takeBytes_append]

/-- A source from a byte offset on, with texts in place of call sites. -/
def replaceFrom (source : List Char) (text : CallSite → List Char) :
    Nat → List CallSite → List Char
  | last, [] => dropBytes last source
  | last, site :: sites =>
    slice source last site.start ++ text site ++ replaceFrom source text site.stop sites

variable {callee before text tail : List Char} {occurrences : List Occurrence}

/-- The gaps of a search are the bytes between its call sites. -/
theorem Leftmost.replaceFrom_eq (leftmost : Leftmost callee before text occurrences tail)
    (replacement : CallSite → List Char) :
    replaceFrom (before ++ text) replacement (byteLength before)
        (occurrences.map Occurrence.site) =
      (occurrences.flatMap fun occurrence => occurrence.gap ++ replacement occurrence.site) ++
        tail := by
  induction leftmost with
  | done => exact dropBytes_append _ _
  | @site before gap literal rest tail occurrences _ _ _ ih =>
    rw [List.map_cons, replaceFrom, List.flatMap_cons]
    have gapBytes : slice (before ++ (gap ++ callText callee literal ++ rest)) (byteLength before)
        (byteLength (before ++ gap)) = gap := by
      have bytes := slice_append before gap (callText callee literal ++ rest)
      simpa using bytes
    have whole : before ++ (gap ++ callText callee literal ++ rest) =
        before ++ gap ++ callText callee literal ++ rest := by simp
    rw [Cursor.site_stop]
    simp only [Cursor.site, Cursor.between, gapBytes]
    rw [whole, ih]
    simp

theorem Leftmost.text_eq (leftmost : Leftmost callee before text occurrences tail) :
    (occurrences.flatMap fun occurrence =>
      occurrence.gap ++ callText callee occurrence.site.literal) ++ tail = text := by
  induction leftmost with
  | done => rfl
  | site _ _ _ ih =>
    rw [List.flatMap_cons, List.append_assoc, ih]
    rfl

theorem CallSite.Spans.slice_eq {source : List Char} {site : CallSite}
    (spans : site.Spans callee source) :
    slice source site.start site.stop = callText callee site.literal := by
  obtain ⟨first, last, whole, start, stop⟩ := spans
  rw [whole, start, stop, slice_append]

/-- A source with texts in place of its call sites is made up of the gaps and of these texts. -/
theorem replaceFrom_sites (callee source : String) (replacement : CallSite → List Char) :
    replaceFrom source.toList replacement 0 (Scanner.start callee source).sites =
      ((Scanner.start callee source).split.1.flatMap fun occurrence =>
        occurrence.gap ++ replacement occurrence.site) ++
          (Scanner.start callee source).split.2 := by
  by_cases empty : callee = ""
  · rw [Scanner.sites, split_of_empty empty]
    exact dropBytes_append [] _
  · exact (start_leftmost empty source).replaceFrom_eq replacement

theorem split_text (callee source : String) :
    ((Scanner.start callee source).split.1.flatMap fun occurrence =>
      occurrence.gap ++ callText callee.toList occurrence.site.literal) ++
        (Scanner.start callee source).split.2 = source.toList := by
  by_cases empty : callee = ""
  · rw [split_of_empty empty]
    rfl
  · exact (start_leftmost empty source).text_eq

/-! ### Literals as they are written -/

/-- A literal is closed by its quotation mark only. -/
theorem LiteralState.eq_mark_of_step {mark c : Char}
    (ended : LiteralState.inside.step mark c = .closed) : c = mark := by
  by_contra other
  by_cases escape : c = '\\'
  · simp [LiteralState.step, escape] at ended
  · simp [LiteralState.step, escape, other] at ended

theorem getLast?_of_literalFrom? {mark : Char} {state : LiteralState} {text body rest : List Char}
    (begun : state ≠ .closed) (found : literalFrom? mark state text = some (body, rest)) :
    body.getLast? = some mark := by
  induction text generalizing state body with
  | nil => cases state <;> simp_all [literalFrom?]
  | cons c text ih =>
    cases state with
    | closed => exact absurd rfl begun
    | escaped =>
      obtain ⟨⟨body', rest'⟩, tail, same⟩ := Option.map_eq_some_iff.mp found
      cases same
      rw [List.getLast?_cons, ih (by simp [LiteralState.step]) tail]
      rfl
    | inside =>
      obtain ⟨⟨body', rest'⟩, tail, same⟩ := Option.map_eq_some_iff.mp found
      cases same
      by_cases ended : LiteralState.inside.step mark c = .closed
      · have marked := LiteralState.eq_mark_of_step ended
        rw [ended, literalFrom?] at tail
        cases tail
        rw [marked]
        rfl
      · rw [List.getLast?_cons, ih ended tail]
        rfl

/-- A literal stands between two quotation marks of one kind. -/
theorem literal?_quoted {text literal rest : List Char}
    (found : literal? text = some (literal, rest)) :
    ∃ mark inner, isQuotationMark mark = true ∧ literal = mark :: inner ++ [mark] := by
  cases text with
  | nil => cases found
  | cons mark text =>
    rw [literal?] at found
    split at found
    · next quotation =>
      obtain ⟨⟨body, rest'⟩, tail, same⟩ := Option.map_eq_some_iff.mp found
      cases same
      obtain ⟨inner, rfl⟩ := List.getLast?_eq_some_iff.mp
        (getLast?_of_literalFrom? (by simp) tail)
      exact ⟨mark, inner, quotation, rfl⟩
    · cases found

theorem Cursor.call?_quoted {cursor : Cursor} {literal after : List Char}
    (called : cursor.call? callee = some (literal, after)) :
    ∃ mark inner, isQuotationMark mark = true ∧ literal = mark :: inner ++ [mark] := by
  unfold Cursor.call? at called
  split at called
  · cases called
  · simp only [RenderLink.call?, Option.bind_eq_bind, Option.bind_eq_some_iff, Option.pure_def,
      Option.some.injEq, Prod.mk.injEq, Prod.exists] at called
    obtain ⟨_, _, _, _, _, _, quoted, _, _, rfl, -⟩ := called
    exact literal?_quoted quoted

theorem Leftmost.quoted (leftmost : Leftmost callee before text occurrences tail) :
    ∀ site ∈ occurrences.map Occurrence.site,
      ∃ mark inner, isQuotationMark mark = true ∧ site.literal = mark :: inner ++ [mark] := by
  induction leftmost with
  | done => simp
  | site _ called _ ih =>
    intro site member
    rcases List.mem_cons.mp member with rfl | member
    · exact Cursor.call?_quoted called
    · exact ih site member

/-! ### The names of a table -/

namespace BindingTable

/-- The identifier that a table has for a literal, or the empty text. -/
def nameOf (table : BindingTable) (literal : String) : String :=
  ((table.find? literal).map Binding.identifier).getD ""

variable {table : BindingTable}

theorem Consistent.nameOf_eq (consistent : table.Consistent) {binding : Binding}
    (member : binding ∈ table.entries) : table.nameOf binding.literal = binding.identifier := by
  rw [nameOf, consistent.find?_eq_some_iff.mpr ⟨member, rfl⟩]
  rfl

/-- A consistent table is its literals with their names. -/
theorem Consistent.entries_eq (consistent : table.Consistent) :
    table.entries.toList = (table.entries.toList.map Binding.literal).map fun literal =>
      ⟨literal, table.nameOf literal⟩ := by
  rw [List.map_map]
  refine (List.map_id _).symm.trans (List.map_congr_left fun binding member => ?_)
  simp only [Function.comp_apply, consistent.nameOf_eq (Array.mem_toList_iff.mp member)]
  rfl

end BindingTable

/-! ### The body -/

/-- The questions that the call sites of a source put to a table. -/
def questions (callee : String) (occurrences : List Occurrence) : List (String × String) :=
  occurrences.map fun occurrence => (callee, String.ofList occurrence.site.literal)

theorem Hoisted.body_table (callee : String) (table : BindingTable)
    (occurrences : List Occurrence) :
    (Hoisted.body callee table occurrences).2 =
      (table.resolveAll (questions callee occurrences)).2 := by
  induction occurrences generalizing table with
  | nil => rfl
  | cons occurrence occurrences ih => exact ih _

/-- **Each call site becomes the identifier that its literal has in the last table.** -/
theorem Hoisted.body_eq (callee : String) {table : BindingTable} (consistent : table.Consistent)
    (occurrences : List Occurrence) :
    (Hoisted.body callee table occurrences).1 = occurrences.flatMap fun occurrence =>
      occurrence.gap ++ ((Hoisted.body callee table occurrences).2.nameOf
        (String.ofList occurrence.site.literal)).toList := by
  induction occurrences generalizing table with
  | nil => rfl
  | cons occurrence occurrences ih =>
    have step := consistent.resolve callee (String.ofList occurrence.site.literal)
    have answered := consistent.resolve_mem callee (String.ofList occurrence.site.literal)
    have final := step.resolveAll (questions callee occurrences)
    have kept := BindingTable.prefix_resolveAll
      (table.resolve callee (String.ofList occurrence.site.literal)).2
      (questions callee occurrences)
    have named := final.nameOf_eq (Array.mem_toList_iff.mp
      (kept.subset (Array.mem_toList_iff.mpr answered)))
    rw [← Hoisted.body_table] at named
    rw [List.flatMap_cons]
    refine congrArg₂ _ ?_ (ih step)
    rw [Hoisted.body]
    exact congrArg (fun name => occurrence.gap ++ String.toList name) named.symm

/-- A call site of a source is the bytes of its call, with a literal between quotation marks. -/
theorem site_spans {callee source : String} {site : CallSite}
    (member : site ∈ (Scanner.start callee source).sites) :
    site.Spans callee.toList source.toList ∧
      ∃ mark inner, isQuotationMark mark = true ∧ site.literal = mark :: inner ++ [mark] := by
  by_cases empty : callee = ""
  · rw [Scanner.sites, split_of_empty empty] at member
    cases member
  · have leftmost := start_leftmost empty source
    exact ⟨(leftmost.spans site member).1, leftmost.quoted site member⟩

/-! ### Hoisting -/

/-- The literals of call sites in the order of their first occurrence. -/
def firstLiterals (sites : List CallSite) : List String :=
  (sites.map fun site => String.ofList site.literal).eraseDups

/-- The import declarations of literals with their names, one on each line. -/
def importLines (name : String → String) (literals : List String) : List Char :=
  literals.flatMap fun literal =>
    ("import " ++ name literal ++ " from " ++ literal ++ "\n").toList

theorem imports_eq (name : String → String) (literals : List String) :
    Hoisted.imports (literals.map fun literal => ⟨literal, name literal⟩) =
      importLines name literals := by
  rw [Hoisted.imports, importLines, List.flatMap_map]
  refine List.flatMap_congr fun literal _ => ?_
  simp [Binding.importDeclaration]

/-- The table behind the last call site of a source. -/
def lastTable (callee source : String) : BindingTable :=
  (BindingTable.empty.resolveAll (questions callee (Scanner.start callee source).split.1)).2

theorem lastTable_consistent (callee source : String) : (lastTable callee source).Consistent :=
  BindingTable.consistent_empty.resolveAll _

theorem hoist_bindings (callee source : String) :
    (hoist callee source).bindings = (lastTable callee source).entries.toList := by
  rw [lastTable, ← Hoisted.body_table]
  rfl

theorem hoist_bindings_eq_map (callee source : String) :
    (hoist callee source).bindings = (firstLiterals (Scanner.start callee source).sites).map
      fun literal => ⟨literal, (lastTable callee source).nameOf literal⟩ := by
  have literals : (lastTable callee source).entries.toList.map Binding.literal =
      firstLiterals (Scanner.start callee source).sites := by
    rw [lastTable, BindingTable.consistent_empty.resolveAll_literals]
    simp [BindingTable.empty, questions, firstLiterals, Scanner.sites, Function.comp_def]
  rw [hoist_bindings, (lastTable_consistent callee source).entries_eq, literals]

/-- The literal of each call site is bound to its name. -/
theorem mem_hoist_bindings {callee source : String} {occurrence : Occurrence}
    (member : occurrence ∈ (Scanner.start callee source).split.1) :
    ⟨String.ofList occurrence.site.literal,
      (lastTable callee source).nameOf (String.ofList occurrence.site.literal)⟩ ∈
        (hoist callee source).bindings := by
  rw [hoist_bindings_eq_map]
  refine List.mem_map.mpr ⟨_, List.mem_eraseDups.mpr ?_, rfl⟩
  simp only [Scanner.sites, List.map_map]
  exact List.mem_map_of_mem member

/-- The code is import declarations, and below them gaps and names. -/
theorem hoist_code (callee source : String) :
    (hoist callee source).code.toList = Hoisted.imports (hoist callee source).bindings ++
      (((Scanner.start callee source).split.1.flatMap fun occurrence => occurrence.gap ++
        ((lastTable callee source).nameOf (String.ofList occurrence.site.literal)).toList) ++
          (Scanner.start callee source).split.2) := by
  rw [lastTable, ← Hoisted.body_table, ← Hoisted.body_eq callee BindingTable.consistent_empty,
    ← List.append_assoc]
  exact String.toList_ofList

/-- A source in which no call site is found stays as it is. -/
theorem hoist_of_sites_eq_nil {callee source : String}
    (none : (Scanner.start callee source).sites = []) :
    hoist callee source = { code := source, bindings := [], callSites := 0 } := by
  have unfound : (Scanner.start callee source).split.1 = [] := List.map_eq_nil_iff.mp none
  have text := split_text callee source
  rw [unfound, List.flatMap_nil, List.nil_append] at text
  have split : (Scanner.start callee source).split = ([], source.toList) := Prod.ext unfound text
  simp [hoist, split, Hoisted.body, Hoisted.imports, BindingTable.empty]

/-- A source with one call site has one import declaration, of the plain identifier. -/
theorem hoist_of_one_site {callee source : String} {occurrence : Occurrence} {tail : List Char}
    (one : (Scanner.start callee source).split = ([occurrence], tail)) :
    let literal := String.ofList occurrence.site.literal
    let binding : Binding := ⟨literal, BindingTable.plainName callee literal⟩
    hoist callee source =
      { code := String.ofList (Hoisted.imports [binding] ++
          (occurrence.gap ++ binding.identifier.toList ++ tail))
        bindings := [binding]
        callSites := 1 } := by
  intro literal binding
  have unbound : BindingTable.empty.find? literal = none := by
    simp [BindingTable.find?, BindingTable.empty]
  have plain : BindingTable.empty.freshIdentifier callee literal = binding.identifier := by
    rw [BindingTable.freshIdentifier_eq_ite, if_neg (by simp [BindingTable.empty])]
  have added : (BindingTable.empty.insert callee literal).2.entries.toList = [binding] := by
    simp only [BindingTable.insert, plain, Array.toList_push]
    rfl
  have answered : (BindingTable.empty.insert callee literal).1 = binding.identifier := plain
  have step := BindingTable.resolve_of_find?_eq_none callee unbound
  simp only [hoist, one, Hoisted.body]
  rw [step, added, answered]
  simp

/-- **Hoisting is replacing.** The spans of the call sites are their calls, with literals as they
are written, and the bytes between them are the gaps. There is one map from literals to names such
that the bindings are the literals in the order of their first occurrence with their names, and the
code is one import declaration for each of them above the source with the name of its literal in
place of each call site. Without call sites nothing changes. -/
theorem hoist_eq_replace (callee source : String) :
    let sites := (Scanner.start callee source).sites
    let result := hoist callee source
    replaceFrom source.toList (fun site => callText callee.toList site.literal) 0 sites =
        source.toList ∧
      (∀ site ∈ sites, slice source.toList site.start site.stop =
          callText callee.toList site.literal ∧
        ∃ mark inner, isQuotationMark mark = true ∧ site.literal = mark :: inner ++ [mark]) ∧
      (∃ name : String → String,
        result.bindings =
          (firstLiterals sites).map (fun literal => ⟨literal, name literal⟩) ∧
        result.code.toList = importLines name (firstLiterals sites) ++
          replaceFrom source.toList (fun site => (name (String.ofList site.literal)).toList) 0
            sites) ∧
      (sites = [] → result = { code := source, bindings := [], callSites := 0 }) := by
  intro sites result
  have bindings := hoist_bindings_eq_map callee source
  refine ⟨?_, fun site member => ?_, ⟨(lastTable callee source).nameOf, bindings, ?_⟩,
    fun none => ?_⟩
  · rw [replaceFrom_sites]
    exact split_text callee source
  · obtain ⟨spans, quoted⟩ := site_spans member
    exact ⟨spans.slice_eq, quoted⟩
  · rw [hoist_code, bindings, replaceFrom_sites, imports_eq]
  · exact hoist_of_sites_eq_nil none

/-- A call with a literal for its argument is a call site, one with a name is not. -/
theorem hoist_of_quoted_and_named_argument :
    (⟨0, 5, ['"', '"']⟩ : CallSite) ∈ (Scanner.start "f" "f(\"\")").sites ∧
      slice "f(\"\")".toList 0 5 = callText "f".toList ['"', '"'] ∧
      (Scanner.start "f" "f(x)").sites = [] ∧
      hoist "f" "f(x)" = { code := "f(x)", bindings := [], callSites := 0 } := by
  have called : (Cursor.between [] "f(\"\")".toList).call? "f".toList = some (['"', '"'], []) := by
    decide +kernel
  have one : (Scanner.start "f" "f(\"\")").sites = [⟨0, 5, ['"', '"']⟩] := by
    refine (start_leftmost (by decide) _).sites_eq.trans ?_
    refine (plainSites_of_call called).trans ?_
    rw [plainSites_nil]
    rfl
  have none : (Scanner.start "f" "f(x)").sites = [] := by
    refine (start_leftmost (by decide) "f(x)").sites_eq.trans ?_
    refine (plainSites_of_uncalled (by decide +kernel)).trans ?_
    refine (plainSites_of_uncalled (by decide +kernel)).trans ?_
    refine (plainSites_of_uncalled (by decide +kernel)).trans ?_
    exact (plainSites_of_uncalled (by decide +kernel)).trans plainSites_nil
  have member : (⟨0, 5, ['"', '"']⟩ : CallSite) ∈ (Scanner.start "f" "f(\"\")").sites := by
    rw [one]
    exact List.mem_singleton_self _
  exact ⟨member, ((hoist_eq_replace "f" "f(\"\")").2.1 _ member).1, none,
    (hoist_eq_replace "f" "f(x)").2.2.2 none⟩

end RenderLink
