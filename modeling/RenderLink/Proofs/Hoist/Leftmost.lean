/-
**Call sites, found from left to right.**

The search for call sites jumps from one occurrence of the callee to the next and, where the callee
is not called, goes on one character further. What it finds is described by `Leftmost`: gaps in
which no call begins (`Uncalled`), with a call behind each, and a last gap. The other results of
this module are read off that description.

The invariant of the search is that its cursor stands between two texts that make up the source
(`Cursor.between`), so that the look-behind reads the last character of the first one.

* `Scanner.split_leftmost`: the search finds gaps and calls as described.
* `Leftmost.sites_eq`: they are the call sites that one finds by trying every place in turn.
* `sites_eq_plainSites`: **the jumping search is the plain search**, with what follows for spans,
  for their order and for the searches behind the last call site.
-/

import RenderLink.Hoist.Scanner
import Mathlib.Data.List.Basic
import Mathlib.Logic.Function.Iterate

namespace RenderLink

open Text

variable {callee before rest : List Char}

/-! ### Places -/

/-- The place between two texts. -/
def Cursor.between (before rest : List Char) : Cursor :=
  { previous := before.getLast?, offset := byteLength before, rest }

theorem Cursor.over_between (before rest taken rest' : List Char) :
    (Cursor.between before rest).over taken rest' = Cursor.between (before ++ taken) rest' := by
  simp [Cursor.over, Cursor.between, List.getLast?_append]

/-- A cursor between two texts that passes over some text stands between two texts again. -/
theorem Cursor.over_eq {cursor : Cursor} (stands : cursor = .between before cursor.rest)
    (taken rest' : List Char) :
    cursor.over taken rest' = .between (before ++ taken) rest' := by
  rw [stands, Cursor.over_between]

/-- A call at a place is the text behind it, and the text before it does not end in a character
that continues a name. -/
theorem Cursor.call?_between {literal after : List Char}
    (called : (Cursor.between before rest).call? callee = some (literal, after)) :
    before.getLast?.any continuesName = false ∧ rest = callText callee literal ++ after := by
  unfold Cursor.call? at called
  split at called
  · cases called
  · next separate =>
    exact ⟨by simpa [Cursor.between] using separate, (call?_eq called).symm⟩

theorem Cursor.call?_eq_none_of_afterWord? {cursor : Cursor}
    (absent : afterWord? callee cursor.rest = none) : cursor.call? callee = none := by
  unfold Cursor.call?
  split
  · rfl
  · simp [RenderLink.call?, absent]

/-! ### Gaps -/

/-- No call begins at a character of a gap between two texts. -/
def Uncalled (callee : List Char) : (before gap after : List Char) → Prop
  | _, [], _ => True
  | before, c :: gap, after =>
    (Cursor.between before (c :: gap ++ after)).call? callee = none ∧
      Uncalled callee (before ++ [c]) gap after

theorem Uncalled.append {gap gap' after : List Char}
    (first : Uncalled callee before gap (gap' ++ after))
    (second : Uncalled callee (before ++ gap) gap' after) :
    Uncalled callee before (gap ++ gap') after := by
  induction gap generalizing before with
  | nil => simpa using second
  | cons c gap ih =>
    obtain ⟨uncalled, later⟩ := first
    refine ⟨by simpa using uncalled, ih later ?_⟩
    simpa using second

/-- In a gap before the first occurrence of the callee no call begins. -/
theorem uncalled_of_splitAtWord {text gap found : List Char}
    (split : splitAtWord callee text = some (gap, found)) : Uncalled callee before gap found := by
  induction text generalizing before gap with
  | nil =>
    rw [splitAtWord] at split
    split at split
    · cases split
      trivial
    · cases split
  | cons c text ih =>
    rw [splitAtWord] at split
    split at split
    · cases split
      trivial
    · next absent =>
      obtain ⟨⟨gap', found'⟩, later, same⟩ := Option.map_eq_some_iff.mp split
      cases same
      refine ⟨Cursor.call?_eq_none_of_afterWord? ?_, ih later⟩
      rw [Cursor.between, List.cons_append, splitAtWord_eq later]
      simpa using absent

theorem uncalled_of_splitAtWord_eq_none {text : List Char}
    (absent : splitAtWord callee text = none) : Uncalled callee before text [] := by
  induction text generalizing before with
  | nil => trivial
  | cons c text ih =>
    rw [splitAtWord] at absent
    split at absent
    · cases absent
    · next here =>
      refine ⟨Cursor.call?_eq_none_of_afterWord? ?_, ih (Option.map_eq_none_iff.mp absent)⟩
      simpa [Cursor.between] using here

/-- A word made of characters of one class does not begin inside of a text that it does not stand in
and whose last character is not of that class: it would have to reach beyond that text. -/
theorem not_begin_of_separate {word gap after : List Char} {p : Char → Bool}
    (made : ∀ c ∈ word, p c = true) (nonempty : gap ≠ []) (absent : ¬ word <:+: gap)
    (separate : gap.getLast?.any p = false ∨ after = []) : ¬ word <+: gap ++ after := by
  intro begins
  have beyond : ¬ word.length ≤ gap.length := fun short => absent
    (List.prefix_of_prefix_length_le begins (List.prefix_append gap after) short).isInfix
  rcases separate with separate | rfl
  · have covered : gap <+: word :=
      List.prefix_of_prefix_length_le (List.prefix_append gap after) begins (by omega)
    have last := List.getLast?_eq_getLast_of_ne_nil nonempty
    rw [last, Option.any_some, made _ (covered.subset (List.getLast_mem nonempty))] at separate
    cases separate
  · exact beyond (by simpa using begins.length_le)

/-- In a text without the callee whose last character continues no name, no call begins. -/
theorem uncalled_of_absent {gap after : List Char}
    (plain : ∀ c ∈ callee, continuesName c = true) (absent : ¬ callee <:+: gap)
    (separate : gap.getLast?.any continuesName = false ∨ after = []) :
    Uncalled callee before gap after := by
  induction gap generalizing before with
  | nil => trivial
  | cons c gap ih =>
    refine ⟨Cursor.call?_eq_none_of_afterWord? ?_, ih ?_ ?_⟩
    · rw [Option.eq_none_iff_forall_ne_some]
      intro rest found
      exact not_begin_of_separate plain (List.cons_ne_nil c gap) absent separate
        ⟨rest, (afterWord?_eq_some_iff.mp found).symm⟩
    · exact fun inside => absent (inside.trans (List.suffix_cons c gap).isInfix)
    · cases gap with
      | nil => exact Or.inl rfl
      | cons d gap => simpa using separate

/-! ### What the search finds -/

/-- The call sites of a text that stands behind another, each with the gap before it, and the gap
behind the last one: no call begins in a gap. -/
inductive Leftmost (callee : List Char) :
    (before text : List Char) → List Occurrence → (tail : List Char) → Prop
  | done {before tail : List Char} :
      Uncalled callee before tail [] → Leftmost callee before tail [] tail
  | site {before gap literal rest tail : List Char} {occurrences : List Occurrence} :
      Uncalled callee before gap (callText callee literal ++ rest) →
      (Cursor.between (before ++ gap) (callText callee literal ++ rest)).call? callee =
        some (literal, rest) →
      Leftmost callee (before ++ gap ++ callText callee literal) rest occurrences tail →
      Leftmost callee before (gap ++ callText callee literal ++ rest)
        (⟨gap, (Cursor.between (before ++ gap) rest).site callee literal⟩ :: occurrences) tail

/-- A gap without calls in front widens the first gap. -/
theorem Leftmost.widen {gap tail : List Char} {occurrence : Occurrence}
    {occurrences : List Occurrence} (uncalled : Uncalled callee before gap rest)
    (leftmost : Leftmost callee (before ++ gap) rest (occurrence :: occurrences) tail) :
    Leftmost callee before (gap ++ rest)
      ({ occurrence with gap := gap ++ occurrence.gap } :: occurrences) tail := by
  cases leftmost with
  | @site _ gap' literal rest' _ _ uncalled' called later =>
    have joined : before ++ gap ++ gap' = before ++ (gap ++ gap') := List.append_assoc ..
    have whole : gap ++ (gap' ++ callText callee literal ++ rest') =
        gap ++ gap' ++ callText callee literal ++ rest' := by simp
    rw [List.append_assoc] at uncalled
    rw [joined] at called later
    rw [whole, joined]
    exact Leftmost.site (uncalled.append uncalled') called later

/-- A search that finds nothing passes over a text without calls. -/
theorem uncalled_of_nextFrom {cursor : Cursor} (stands : cursor = .between before cursor.rest)
    (missing : nextFrom callee cursor = none) : Uncalled callee before cursor.rest [] := by
  fun_induction nextFrom callee cursor generalizing before with
  | case1 cursor split => exact uncalled_of_splitAtWord_eq_none split
  | case2 cursor gap split =>
    rw [← splitAtWord_eq split, List.append_nil]
    exact uncalled_of_splitAtWord split
  | case3 => cases missing
  | case4 cursor gap c text split place uncalled =>
    rename_i ih
    have here : place = .between (before ++ gap) (c :: text) := Cursor.over_eq stands gap _
    have behind : place.over [c] text = .between (before ++ gap ++ [c]) text := by
      rw [here, Cursor.over_between]
    have later := ih behind (Option.map_eq_none_iff.mp missing)
    rw [← splitAtWord_eq split]
    refine Uncalled.append (by simpa using uncalled_of_splitAtWord split) ⟨?_, later⟩
    rw [List.append_nil, ← here]
    exact uncalled

/-- What a search finds comes first, and what is found behind it comes next. -/
theorem Leftmost.of_nextFrom {cursor after : Cursor} {occurrence : Occurrence}
    (stands : cursor = .between before cursor.rest)
    (found : nextFrom callee cursor = some (occurrence, after)) :
    ∃ before', after = .between before' after.rest ∧ ∀ occurrences tail,
      Leftmost callee before' after.rest occurrences tail →
        Leftmost callee before cursor.rest (occurrence :: occurrences) tail := by
  fun_induction nextFrom callee cursor generalizing before occurrence after with
  | case1 => cases found
  | case2 => cases found
  | case3 cursor gap c text split place literal rest =>
    rename_i called
    cases found
    have here : place = .between (before ++ gap) (c :: text) := Cursor.over_eq stands gap _
    rw [here] at called ⊢
    have whole := (Cursor.call?_between called).2
    refine ⟨before ++ gap ++ callText callee literal, Cursor.over_between .., ?_⟩
    intro occurrences tail later
    rw [← splitAtWord_eq split, whole, ← List.append_assoc]
    rw [whole] at called
    exact Leftmost.site (whole ▸ uncalled_of_splitAtWord split) called later
  | case4 cursor gap c text split place uncalled =>
    rename_i ih
    obtain ⟨⟨occurrence', after'⟩, later, same⟩ := Option.map_eq_some_iff.mp found
    cases same
    have here : place = .between (before ++ gap) (c :: text) := Cursor.over_eq stands gap _
    have behind : place.over [c] text = .between (before ++ gap ++ [c]) text := by
      rw [here, Cursor.over_between]
    obtain ⟨before', stands', further⟩ := ih behind later
    refine ⟨before', stands', fun occurrences tail rest => ?_⟩
    have passed : Uncalled callee before (gap ++ [c]) text :=
      Uncalled.append (uncalled_of_splitAtWord split) ⟨here ▸ uncalled, trivial⟩
    have widened := further occurrences tail rest
    rw [List.append_assoc] at widened
    rw [← splitAtWord_eq split, List.append_cons]
    simpa using widened.widen passed

/-! ### The whole search -/

theorem Scanner.next_eq_some {scanner after : Scanner} {occurrence : Occurrence}
    (found : scanner.next = (some occurrence, after)) :
    nextFrom scanner.callee scanner.cursor = some (occurrence, after.cursor) ∧
      after.callee = scanner.callee := by
  unfold Scanner.next at found
  split at found
  · next searched =>
    cases found
    split at searched
    · cases searched
    · exact ⟨searched, rfl⟩
  · cases found

theorem Scanner.next_eq_none {scanner after : Scanner} (missing : scanner.next = (none, after)) :
    (scanner.callee = [] ∨ nextFrom scanner.callee scanner.cursor = none) ∧
      after.callee = scanner.callee ∧ after.cursor.rest = [] := by
  unfold Scanner.next at missing
  split at missing
  · cases missing
  · next searched =>
    cases missing
    refine ⟨?_, rfl, rfl⟩
    split at searched
    · next empty => exact Or.inl (List.isEmpty_iff.mp empty)
    · exact Or.inr searched

/-- **The search finds gaps without calls and a call behind each of them.** -/
theorem Scanner.split_leftmost (scanner : Scanner) (nonempty : scanner.callee ≠ [])
    (stands : scanner.cursor = .between before scanner.cursor.rest) :
    Leftmost scanner.callee before scanner.cursor.rest scanner.split.1 scanner.split.2 := by
  fun_induction Scanner.split scanner generalizing before with
  | case1 scanner after missing =>
    obtain ⟨empty | searched, -⟩ := Scanner.next_eq_none missing
    · exact absurd empty nonempty
    · exact Leftmost.done (uncalled_of_nextFrom stands searched)
  | case2 scanner occurrence after found occurrences tail later ih =>
    obtain ⟨searched, same⟩ := Scanner.next_eq_some found
    obtain ⟨before', stands', further⟩ := Leftmost.of_nextFrom stands searched
    refine further _ _ ?_
    have rest := ih (same ▸ nonempty) stands'
    rw [later, same] at rest
    exact rest

theorem split_of_empty {callee source : String} (empty : callee = "") :
    (Scanner.start callee source).split = ([], source.toList) := by
  rw [Scanner.split]
  split
  · rfl
  · next found => simp [Scanner.next, Scanner.start, empty] at found

/-- The search from the beginning of a source, for a callee that is not empty. -/
theorem start_leftmost {callee : String} (nonempty : callee ≠ "") (source : String) :
    Leftmost callee.toList [] source.toList (Scanner.start callee source).split.1
      (Scanner.start callee source).split.2 :=
  Scanner.split_leftmost (Scanner.start callee source)
    (fun empty => nonempty (String.toList_eq_nil_iff.mp empty)) rfl

/-! ### The plain search -/

theorem Cursor.call?_shorter {literal after : List Char}
    (called : (Cursor.between before rest).call? callee = some (literal, after)) :
    after.length < rest.length := by
  rw [(Cursor.call?_between called).2, callText, List.length_append, List.length_append,
    List.length_cons]
  omega

/-- The call sites of a text behind another, by trying every place in turn: a call is a call site
and the search goes on behind it, and else it goes on one character further. -/
def plainSites (callee before rest : List Char) : List CallSite :=
  match _called : (Cursor.between before rest).call? callee with
  | some (literal, after) =>
    (Cursor.between before rest).site callee literal ::
      plainSites callee (before ++ callText callee literal) after
  | none =>
    match rest with
    | [] => []
    | c :: rest => plainSites callee (before ++ [c]) rest
termination_by rest.length
decreasing_by
  · exact Cursor.call?_shorter _called
  · simp

theorem plainSites_of_call {literal after : List Char}
    (called : (Cursor.between before rest).call? callee = some (literal, after)) :
    plainSites callee before rest = (Cursor.between before rest).site callee literal ::
      plainSites callee (before ++ callText callee literal) after := by
  rw [plainSites]
  split
  · next called' =>
    rw [called] at called'
    cases called'
    rfl
  · next uncalled =>
    rw [called] at uncalled
    cases uncalled

theorem plainSites_of_uncalled {c : Char}
    (uncalled : (Cursor.between before (c :: rest)).call? callee = none) :
    plainSites callee before (c :: rest) = plainSites callee (before ++ [c]) rest := by
  rw [plainSites]
  split
  · next called =>
    rw [called] at uncalled
    cases uncalled
  · rfl

theorem Cursor.call?_nil : (Cursor.between before []).call? callee = none := by
  cases called : (Cursor.between before []).call? callee with
  | none => rfl
  | some found => exact absurd (Cursor.call?_shorter called) (Nat.not_lt_zero _)

theorem plainSites_nil : plainSites callee before [] = [] := by
  rw [plainSites]
  split
  · next called =>
    rw [Cursor.call?_nil] at called
    cases called
  · rfl

theorem Uncalled.plainSites_eq {gap after : List Char}
    (uncalled : Uncalled callee before gap after) :
    plainSites callee before (gap ++ after) = plainSites callee (before ++ gap) after := by
  induction gap generalizing before with
  | nil => simp
  | cons c gap ih =>
    obtain ⟨here, later⟩ := uncalled
    rw [List.append_cons before, ← ih later]
    exact plainSites_of_uncalled here

variable {text tail : List Char} {occurrences : List Occurrence}

/-- **What is found by jumping is found by trying every place.** -/
theorem Leftmost.sites_eq (leftmost : Leftmost callee before text occurrences tail) :
    occurrences.map Occurrence.site = plainSites callee before text := by
  induction leftmost with
  | done uncalled =>
    have passed := uncalled.plainSites_eq
    rw [List.append_nil, plainSites_nil] at passed
    exact passed.symm
  | site uncalled called _ ih =>
    rw [List.append_assoc, uncalled.plainSites_eq, plainSites_of_call called, ← ih]
    rfl

/-! ### Spans -/

theorem byteLength_callText (callee literal : List Char) :
    byteLength (callText callee literal) = byteLength callee + byteLength literal + 2 := by
  have opening : '('.utf8Size = 1 := rfl
  have closing : ')'.utf8Size = 1 := rfl
  simp only [callText, byteLength_append, byteLength_cons, byteLength_nil, opening, closing]
  omega

/-- The call site of a call ends where the text of the call does. -/
theorem Cursor.site_stop (callee before rest literal : List Char) :
    ((Cursor.between before rest).site callee literal).stop =
      byteLength (before ++ callText callee literal) := by
  rw [byteLength_append, byteLength_callText]
  rfl

/-- A call site is the bytes of its call in a source. -/
def CallSite.Spans (callee source : List Char) (site : CallSite) : Prop :=
  ∃ first last, source = first ++ callText callee site.literal ++ last ∧
    site.start = byteLength first ∧ site.stop = byteLength (first ++ callText callee site.literal)

theorem Leftmost.spans (leftmost : Leftmost callee before text occurrences tail) :
    ∀ site ∈ occurrences.map Occurrence.site,
      site.Spans callee (before ++ text) ∧ byteLength before ≤ site.start := by
  induction leftmost with
  | done => simp
  | @site before gap literal rest _ _ _ _ _ ih =>
    intro site member
    rcases List.mem_cons.mp member with rfl | member
    · refine ⟨⟨before ++ gap, rest, ?_, rfl, Cursor.site_stop ..⟩, ?_⟩
      · simp [Cursor.site]
      · simp [Cursor.site, Cursor.between]
    · obtain ⟨spans, bound⟩ := ih site member
      simp only [byteLength_append] at bound
      refine ⟨?_, by omega⟩
      simpa using spans

theorem Leftmost.pairwise (leftmost : Leftmost callee before text occurrences tail) :
    (occurrences.map Occurrence.site).Pairwise fun first second =>
      first.start < first.stop ∧ first.stop ≤ second.start := by
  induction leftmost with
  | done => exact List.Pairwise.nil
  | @site before gap literal rest _ _ _ _ later ih =>
    refine List.Pairwise.cons (fun second member => ?_) ih
    obtain ⟨-, bound⟩ := later.spans second member
    rw [byteLength_append, byteLength_callText] at bound
    simp only [Cursor.site, Cursor.between]
    omega

/-! ### No call is missed -/

theorem Uncalled.call?_eq_none {first second after : List Char} {c : Char}
    (uncalled : Uncalled callee before (first ++ c :: second) after) :
    (Cursor.between (before ++ first) (c :: second ++ after)).call? callee = none := by
  induction first generalizing before with
  | nil =>
    rw [List.append_nil]
    exact uncalled.1
  | cons d first ih =>
    rw [List.append_cons]
    exact ih uncalled.2

/-- A place in a text of three parts is inside of the first part, at the beginning of the second,
inside of the second, or behind it. -/
theorem place_cases {gap call after middle rest : List Char}
    (whole : middle ++ rest = gap ++ call ++ after) :
    (∃ c inside, gap = middle ++ c :: inside ∧ rest = c :: inside ++ (call ++ after)) ∨
      middle = gap ∧ rest = call ++ after ∨
      (∃ first last, middle = gap ++ first ∧ call = first ++ last ∧ first ≠ [] ∧ last ≠ []) ∨
      ∃ past, middle = gap ++ call ++ past ∧ after = past ++ rest := by
  rw [List.append_assoc] at whole
  rcases List.append_eq_append_iff.mp whole with ⟨inside, parts, behind⟩ | ⟨first, parts, behind⟩
  · cases inside with
    | nil =>
      rw [List.append_nil] at parts
      exact Or.inr (Or.inl ⟨parts.symm, behind⟩)
    | cons c inside => exact Or.inl ⟨c, inside, parts, behind⟩
  · rcases List.append_eq_append_iff.mp behind with
      ⟨past, parts', behind'⟩ | ⟨last, parts', behind'⟩
    · refine Or.inr (Or.inr (Or.inr ⟨past, ?_, behind'⟩))
      rw [parts, parts', List.append_assoc]
    · by_cases start : first = []
      · subst start
        rw [List.append_nil] at parts
        exact Or.inr (Or.inl ⟨parts, behind.symm⟩)
      · by_cases stop : last = []
        · subst stop
          rw [List.append_nil] at parts'
          rw [← parts'] at parts
          exact Or.inr (Or.inr (Or.inr ⟨[], by rw [parts, List.append_nil], behind'.symm⟩))
        · exact Or.inr (Or.inr (Or.inl ⟨first, last, parts, parts', start, stop⟩))

/-- **Every call is a call site or begins inside of one.** -/
theorem Leftmost.mem_of_call (leftmost : Leftmost callee before text occurrences tail)
    {middle literal after : List Char} (whole : middle ++ rest = text)
    (called : (Cursor.between (before ++ middle) rest).call? callee = some (literal, after)) :
    ∃ site ∈ occurrences.map Occurrence.site,
      site = (Cursor.between (before ++ middle) rest).site callee literal ∨
        site.start < byteLength (before ++ middle) ∧
          byteLength (before ++ middle) < site.stop := by
  induction leftmost generalizing middle with
  | @done before tail uncalled =>
    cases rest with
    | nil =>
      rw [Cursor.call?_nil] at called
      cases called
    | cons c rest =>
      have none := Uncalled.call?_eq_none (whole ▸ uncalled)
      rw [List.append_nil, called] at none
      cases none
  | @site before gap literal' rest' tail occurrences uncalled called' later ih =>
    rcases place_cases whole with ⟨c, inside, rfl, rfl⟩ | ⟨rfl, rfl⟩ | ⟨first, last, rfl, parts,
      start, stop⟩ | ⟨past, rfl, behind⟩
    · rw [uncalled.call?_eq_none] at called
      cases called
    · rw [called'] at called
      cases called
      exact ⟨_, List.mem_cons_self, Or.inl rfl⟩
    · refine ⟨_, List.mem_cons_self, Or.inr ?_⟩
      have length := congrArg byteLength parts
      have positive := byteLength_pos start
      have positive' := byteLength_pos stop
      rw [byteLength_callText, byteLength_append] at length
      simp only [Cursor.site, Cursor.between, byteLength_append]
      omega
    · rw [← List.append_assoc, ← List.append_assoc] at called ⊢
      obtain ⟨site, member, place⟩ := ih behind.symm called
      exact ⟨site, List.mem_cons_of_mem _ member, place⟩

/-! ### One division -/

/-- No call begins inside of a gap. -/
theorem Uncalled.call?_inside {gap after middle : List Char}
    (uncalled : Uncalled callee before gap after) (whole : middle ++ rest = gap ++ after)
    (inside : middle.length < gap.length) :
    (Cursor.between (before ++ middle) rest).call? callee = none := by
  have begins : middle <+: gap :=
    List.prefix_of_prefix_length_le (whole ▸ List.prefix_append middle rest)
      (List.prefix_append gap after) (by omega)
  obtain ⟨last, rfl⟩ := begins
  cases last with
  | nil => simp at inside
  | cons c last =>
    rw [List.append_assoc, List.append_cancel_left_eq] at whole
    rw [whole]
    exact uncalled.call?_eq_none

theorem length_lt_of_call (callee gap literal rest : List Char) :
    gap.length < (gap ++ callText callee literal ++ rest).length := by
  simp only [callText, List.length_append, List.length_cons]
  omega

/-- A text has one division into gaps and calls. -/
theorem Leftmost.unique {occurrences' : List Occurrence} {tail' : List Char}
    (leftmost : Leftmost callee before text occurrences tail)
    (leftmost' : Leftmost callee before text occurrences' tail') :
    occurrences = occurrences' ∧ tail = tail' := by
  induction leftmost generalizing occurrences' tail' with
  | done uncalled =>
    cases leftmost' with
    | done => exact ⟨rfl, rfl⟩
    | @site _ gap literal _ _ _ _ called _ =>
      rw [uncalled.call?_inside (by simp) (length_lt_of_call ..)] at called
      cases called
  | @site before gap literal rest tail occurrences uncalled called later ih =>
    have longer := length_lt_of_call callee gap literal rest
    generalize whole : gap ++ callText callee literal ++ rest = text at leftmost' longer
    rw [List.append_assoc] at whole
    cases leftmost' with
    | done uncalled' =>
      rw [uncalled'.call?_inside (by simpa using whole) longer] at called
      cases called
    | @site _ gap' literal' rest' _ _ uncalled' called' later' =>
      rw [List.append_assoc] at whole
      rcases Nat.lt_trichotomy gap.length gap'.length with shorter | same | longer
      · rw [uncalled'.call?_inside whole shorter] at called
        cases called
      · obtain ⟨rfl, behind⟩ := List.append_inj whole same
        rw [behind, called'] at called
        cases called
        obtain ⟨rfl, rfl⟩ := ih later'
        exact ⟨rfl, rfl⟩
      · rw [uncalled.call?_inside whole.symm longer] at called'
        cases called'
/-! ### Behind the last call site -/

theorem Scanner.next_of_end {scanner : Scanner} (ended : scanner.cursor.rest = []) :
    scanner.next.1 = none := by
  cases found : scanner.next with
  | mk occurrence after =>
    cases occurrence with
    | none => rfl
    | some occurrence =>
      have shorter := Scanner.next_shorter found
      rw [ended] at shorter
      exact absurd shorter (Nat.not_lt_zero _)

/-- Where nothing is found, nothing is found later. -/
theorem Scanner.next_iterate_eq_none {scanner : Scanner} (missing : scanner.next.1 = none)
    (n : Nat) : ((fun searched => searched.next.2)^[n] scanner).next.1 = none := by
  induction n generalizing scanner with
  | zero => exact missing
  | succ n ih =>
    rw [Function.iterate_succ_apply]
    have step : scanner.next = (none, scanner.next.2) := by rw [← missing]
    exact ih (Scanner.next_of_end (Scanner.next_eq_none step).2.2)

/-- **The jumping search is the plain search.** The call sites of a callee that is not empty are
those that one finds by trying every place; the empty callee has none. Each is the bytes of its
call, each ends before the next begins, every call is a call site or begins inside of one, and a
search that has found nothing finds nothing any more. -/
theorem sites_eq_plainSites (callee source : String) :
    let sites := (Scanner.start callee source).sites
    (callee ≠ "" → sites = plainSites callee.toList [] source.toList) ∧
      (callee = "" → sites = []) ∧
      (∀ site ∈ sites, site.Spans callee.toList source.toList) ∧
      (sites.Pairwise fun first second =>
        first.start < first.stop ∧ first.stop ≤ second.start) ∧
      (callee ≠ "" → ∀ before rest literal after, before ++ rest = source.toList →
        (Cursor.between before rest).call? callee.toList = some (literal, after) →
          ∃ site ∈ sites, site = (Cursor.between before rest).site callee.toList literal ∨
            site.start < byteLength before ∧ byteLength before < site.stop) ∧
      ∀ scanner : Scanner, scanner.next.1 = none →
        ∀ n, ((fun searched => searched.next.2)^[n] scanner).next.1 = none := by
  intro sites
  by_cases empty : callee = ""
  · have nothing : sites = [] := by
      simp [sites, Scanner.sites, split_of_empty empty]
    rw [nothing]
    refine ⟨fun nonempty => absurd empty nonempty, fun _ => rfl, by simp, List.Pairwise.nil,
      fun nonempty => absurd empty nonempty, fun scanner missing n => ?_⟩
    exact Scanner.next_iterate_eq_none missing n
  · have leftmost := start_leftmost empty source
    refine ⟨fun _ => leftmost.sites_eq, fun empty' => absurd empty' empty, fun site member => ?_,
      leftmost.pairwise, fun _ before rest literal after whole called => ?_,
      fun scanner missing n => ?_⟩
    · exact (leftmost.spans site member).1
    · exact leftmost.mem_of_call whole called
    · exact Scanner.next_iterate_eq_none missing n

/-- A callee that overlaps itself: the first occurrence is not called, the second one is. -/
theorem sites_of_overlapping_callee :
    "++" ≠ "" ∧ "" = "" ∧ (Scanner.start "++" "+++(\"x\")").sites = [⟨1, 8, ['"', 'x', '"']⟩] ∧
      (Scanner.start "" "(\"x\")").sites = [] ∧
      (∃ site ∈ (Scanner.start "++" "+++(\"x\")").sites, site = ⟨1, 8, ['"', 'x', '"']⟩ ∨
        site.start < byteLength ['+'] ∧ byteLength ['+'] < site.stop) ∧
      (Scanner.start "++" "+").next.1 = none ∧
      ((fun searched => searched.next.2)^[2] (Scanner.start "++" "+")).next.1 = none := by
  obtain ⟨plain, -, -, -, found, forever⟩ := sites_eq_plainSites "++" "+++(\"x\")"
  have nonempty : "++" ≠ "" := by decide
  have called : (Cursor.between ['+'] "++(\"x\")".toList).call? "++".toList =
      some (['"', 'x', '"'], []) := by decide +kernel
  have sites : plainSites "++".toList [] "+++(\"x\")".toList = [⟨1, 8, ['"', 'x', '"']⟩] := by
    refine (plainSites_of_uncalled (by decide +kernel)).trans ?_
    refine (plainSites_of_call called).trans ?_
    rw [plainSites_nil]
    rfl
  have ended : (Scanner.start "++" "+").next.1 = none := by
    simp [Scanner.next, Scanner.start, nextFrom, splitAtWord, afterWord?]
  exact ⟨nonempty, rfl, (plain nonempty).trans sites,
    (sites_eq_plainSites "" "(\"x\")").2.1 rfl, found nonempty ['+'] _ _ _ rfl called, ended,
    forever _ ended 2⟩

end RenderLink
