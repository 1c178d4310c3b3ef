/-
**Facts without a text.**

Of some facts the extractor keeps what a group `(.+)` has read, without the blanks around it.  A
group has read something; but the pattern `\s*` before it gives back a blank where the rest of the
pattern does not match otherwise, and then there is nothing but blanks in the group.  The fact is
stored with an empty text, and the verification step sends it to the identity and the employer
service, which take no empty texts.

Main definitions:

* `FinAssist.EmployerAt`, `FinAssist.AddressAt` — what an employer and an address are, in the text;
* `FinAssist.FirstPlace` — the first place where there is one;
* `FinAssist.WithText` — **the employer, the street and the city of the documents have a text**;
* `FinAssist.Ask.Filled` — the requests that the services take.

Main results:

* `FinAssist.afterComma_groups`, `FinAssist.afterAddress_groups` — what the groups have read;
* `FinAssist.filled_verification` — facts with a text make requests that are taken;
* `FinAssist.facts_have_text` — **the facts of a document have a text exactly when its employer,
  its street and its city have one**.
-/

import FinAssist.FactOrder
import FinAssist.SyntheticDocuments
import Mathlib.Data.List.TakeWhile

set_option relaxedAutoImplicit false
set_option autoImplicit false

namespace FinAssist

open Backtracking ReadCommitted

/-! ### Blanks -/

/-- Not only blanks. -/
def Visible (xs : List Char) : Prop := ∃ c ∈ xs, isSpace c = false

theorem Visible.mono {xs ys : List Char} (h : Visible xs) (hsub : xs ⊆ ys) : Visible ys := by
  obtain ⟨c, hc, hspace⟩ := h
  exact ⟨c, hsub hc, hspace⟩

theorem not_visible_iff {xs : List Char} : ¬ Visible xs ↔ ∀ c ∈ xs, isSpace c = true := by
  simp [Visible]

theorem visible_of_all {p : Char → Bool} (hp : ∀ c, p c = true → isSpace c = false)
    {xs : List Char} (hne : xs ≠ []) (hxs : ∀ c ∈ xs, p c = true) : Visible xs := by
  obtain ⟨c, ys, rfl⟩ := List.exists_cons_of_ne_nil hne
  exact ⟨c, List.mem_cons_self, hp c (hxs c List.mem_cons_self)⟩

theorem isBlankText_ofList {xs : List Char} : isBlankText (String.ofList xs) = false ↔ Visible xs := by
  simp [isBlankText_eq, Visible]

theorem mem_dropWhile {c : Char} {xs : List Char} (hc : c ∈ xs) (hspace : isSpace c = false) :
    c ∈ xs.dropWhile isSpace := by
  rw [← List.takeWhile_append_dropWhile (p := isSpace) (l := xs), List.mem_append] at hc
  rcases hc with hc | hc
  · rw [List.mem_takeWhile_imp hc] at hspace
    cases hspace
  · exact hc

/-- A text begins after some blanks. -/
theorem Visible.split {xs : List Char} (h : Visible xs) :
    ∃ blanks c tail, xs = blanks ++ c :: tail ∧ (∀ d ∈ blanks, isSpace d = true) ∧
      isSpace c = false := by
  obtain ⟨d, hd, hspace⟩ := h
  cases hrest : xs.dropWhile isSpace with
  | nil =>
      have hmem := mem_dropWhile hd hspace
      rw [hrest] at hmem
      cases hmem
  | cons c tail =>
      refine ⟨xs.takeWhile isSpace, c, tail, ?_, fun e he => List.mem_takeWhile_imp he, ?_⟩
      · rw [← hrest, List.takeWhile_append_dropWhile]
      · simpa [hrest] using List.head?_dropWhile_not isSpace xs

theorem visible_strip {xs : List Char} : Visible (strip xs) ↔ Visible xs := by
  constructor
  · exact fun h => h.mono (infix_strip xs).subset
  · rintro ⟨c, hc, hspace⟩
    refine ⟨c, ?_, hspace⟩
    rw [strip, List.mem_reverse]
    exact mem_dropWhile (List.mem_reverse.2 (mem_dropWhile hc hspace)) hspace

/-- Of two ways to split off blanks, the second one ends no later if something else follows the
first. -/
theorem length_le_of_blanks {xs ys xs' ys' : List Char} {c : Char}
    (h : xs ++ c :: ys = xs' ++ ys') (hc : isSpace c = false) (hxs' : ∀ d ∈ xs', isSpace d = true) :
    xs'.length ≤ xs.length := by
  by_contra hlt
  have hget := congrArg (·[xs.length]?) h
  simp only [List.getElem?_append_right le_rfl, Nat.sub_self, List.getElem?_cons_zero] at hget
  rw [List.getElem?_append_left (by omega)] at hget
  rw [hxs' c (List.mem_of_getElem? hget.symm)] at hc
  cases hc

/-- Blanks end where something else begins. -/
theorem blanks_inj {xs ys xs' ys' : List Char} {c d : Char} (h : xs ++ c :: ys = xs' ++ d :: ys')
    (hc : isSpace c = false) (hd : isSpace d = false) (hxs : ∀ e ∈ xs, isSpace e = true)
    (hxs' : ∀ e ∈ xs', isSpace e = true) : xs = xs' ∧ c :: ys = d :: ys' :=
  List.append_inj h (le_antisymm (length_le_of_blanks h.symm hd hxs)
    (length_le_of_blanks h hc hxs'))

/-! ### What the groups have read -/

theorem isDot_of_visible {c : Char} (h : isSpace c = false) : isDot c = true := by
  rw [isDot, decide_eq_true_eq]
  rintro rfl
  revert h
  decide

/-- Blanks, and then something in a line. -/
theorem afterComma_isSome_iff {xs : List Char} :
    (afterComma.groupsAt xs).isSome ↔ ∃ c ∈ xs, isDot c = true := by
  constructor
  · intro h
    obtain ⟨groups, hgroups⟩ := Option.isSome_iff_exists.1 h
    obtain ⟨gap, rest, rfl, -, hrest, -⟩ := Pattern.groupsAt_many_seq_longest hgroups
    obtain ⟨read, gs, after, rfl, hr⟩ :=
      Pattern.groupsAt_isSome_iff.1 (Option.isSome_iff_exists.2 ⟨_, hrest⟩)
    obtain ⟨hs, -, hplus⟩ := Pattern.reads_group_iff.1 hr
    obtain ⟨hne, hdots, -⟩ := Pattern.reads_plus_iff.1 hplus
    obtain ⟨c, ys, rfl⟩ := List.exists_cons_of_ne_nil hne
    exact ⟨c, by simp, hdots c List.mem_cons_self⟩
  · rintro ⟨c, hc, hdot⟩
    have hread : ∀ {gap after : List Char} {d : Char}, xs = gap ++ d :: after →
        (∀ e ∈ gap, isSpace e = true) → isDot d = true → (afterComma.groupsAt xs).isSome := by
      intro gap after d hxs hgap hd
      refine Pattern.groupsAt_isSome_iff.2 ⟨gap ++ [d], [] ++ [[d]], after, by simp [hxs], ?_⟩
      refine Pattern.reads_seq_iff.2 ⟨gap, [d], [], [[d]], rfl, rfl, .many hgap, ?_⟩
      exact .group (Pattern.reads_plus_iff.2 ⟨by simp, by simpa using hd, rfl⟩)
    by_cases hxs : Visible xs
    · obtain ⟨gap, d, after, rfl, hgap, hd⟩ := hxs.split
      exact hread rfl hgap (isDot_of_visible hd)
    · rw [not_visible_iff] at hxs
      obtain ⟨gap, after, rfl⟩ := List.append_of_mem hc
      exact hread rfl (fun e he => hxs e (List.mem_append_left _ he)) hdot

/-- **The group has a text if there is one**: the blanks before it are read first. -/
theorem afterComma_groups {xs : List Char} {groups : List (List Char)}
    (h : afterComma.groupsAt xs = some groups) :
    ∃ g, groups = [g] ∧ (Visible g ↔ Visible xs) := by
  obtain ⟨gap, rest, rfl, hgap, hrest, hlonger⟩ := Pattern.groupsAt_many_seq_longest h
  rw [Pattern.groupsAt, Option.map_eq_some_iff] at hrest
  obtain ⟨⟨g, gs, after⟩, hm, rfl⟩ := hrest
  obtain ⟨hsplit, hr⟩ := Pattern.reads_of_matchAt hm
  obtain ⟨hs, hgroups, hplus⟩ := Pattern.reads_group_iff.1 hr
  obtain ⟨hne, hdots, rfl⟩ := Pattern.reads_plus_iff.1 hplus
  simp only at hsplit hgroups
  subst hsplit hgroups
  refine ⟨g, rfl, fun hg => hg.mono (by simp), fun hxs => ?_⟩
  by_contra hblank
  rw [not_visible_iff] at hblank
  -- with only blanks in the group, the text begins after it, and `\s*` would have gone up to there
  obtain ⟨c, hc, hspace⟩ := hxs
  have hafter : Visible after := by
    refine ⟨c, ?_, hspace⟩
    rcases List.mem_append.1 hc with hc | hc
    · rw [hgap c hc] at hspace
      cases hspace
    · rcases List.mem_append.1 hc with hc | hc
      · rw [hblank c hc] at hspace
        cases hspace
      · exact hc
  obtain ⟨blanks, d, tail, rfl, hblanks, hd⟩ := hafter.split
  have hno := hlonger (gap ++ g ++ blanks) (d :: tail) (by simp) ?_ ?_
  · have hsome : ((Pattern.group (.plus isDot)).groupsAt (d :: tail)).isSome :=
      Pattern.groupsAt_isSome_iff.2 ⟨[d], [[d]], tail, rfl, .group (Pattern.reads_plus_iff.2
        ⟨by simp, by simpa using isDot_of_visible hd, rfl⟩)⟩
    rw [hno] at hsome
    cases hsome
  · intro e he
    rcases List.mem_append.1 he with he | he
    · rcases List.mem_append.1 he with he | he
      · exact hgap e he
      · exact hblank e he
    · exact hblanks e he
  · have hpos : 0 < g.length := List.length_pos_iff.2 hne
    simp only [List.length_append]
    omega

/-! ### An employer -/

/-- **An employer in the text** after the marker: blanks, `--`, and something in a line. -/
def EmployerAt (rest after : List Char) : Prop :=
  ∃ gap, rest = gap ++ ("--".toList ++ after) ∧ (∀ c ∈ gap, isSpace c = true) ∧
    ∃ c ∈ after, isDot c = true

theorem EmployerAt.unique {rest after after' : List Char} (h : EmployerAt rest after)
    (h' : EmployerAt rest after') : after = after' := by
  obtain ⟨gap, rfl, hgap, -⟩ := h
  obtain ⟨gap', heq, hgap', -⟩ := h'
  obtain ⟨-, hrest⟩ := blanks_inj (c := '-') (d := '-') heq (by decide) (by decide) hgap hgap'
  simpa using hrest

theorem afterPayStub_isSome_iff {rest : List Char} :
    (afterPayStub.groupsAt rest).isSome ↔ ∃ after, EmployerAt rest after := by
  constructor
  · intro h
    obtain ⟨groups, hgroups⟩ := Option.isSome_iff_exists.1 h
    obtain ⟨gap, tail, rfl, hgap, htail, -⟩ := Pattern.groupsAt_many_seq_longest hgroups
    rw [Pattern.groupsAt_marker] at htail
    split at htail
    next hprefix =>
      obtain ⟨after, rfl⟩ := hprefix
      rw [List.drop_left] at htail
      exact ⟨after, gap, rfl, hgap, afterComma_isSome_iff.1 (Option.isSome_iff_exists.2 ⟨_, htail⟩)⟩
    next => cases htail
  · rintro ⟨after, gap, rfl, hgap, hdot⟩
    obtain ⟨groups, hgroups⟩ := Option.isSome_iff_exists.1 (afterComma_isSome_iff.2 hdot)
    have hread : afterPayStub.groupsAt (gap ++ ("--".toList ++ after)) = some groups := by
      refine Pattern.groupsAt_many_seq hgap ?_ ((Pattern.groupsAt_word_seq _ _ _).trans hgroups)
      intro c hc
      cases hc
      decide
    rw [hread]
    rfl

theorem afterPayStub_groups {rest : List Char} {groups : List (List Char)}
    (h : afterPayStub.groupsAt rest = some groups) :
    ∃ g, groups = [g] ∧ (Visible g ↔ ∀ after, EmployerAt rest after → Visible after) := by
  obtain ⟨gap, tail, rfl, hgap, htail, -⟩ := Pattern.groupsAt_many_seq_longest h
  rw [Pattern.groupsAt_marker] at htail
  split at htail
  next hprefix =>
    obtain ⟨after, rfl⟩ := hprefix
    rw [List.drop_left] at htail
    obtain ⟨g, hg, hvisible⟩ := afterComma_groups htail
    have hat : EmployerAt (gap ++ ("--".toList ++ after)) after :=
      ⟨gap, rfl, hgap, afterComma_isSome_iff.1 (Option.isSome_iff_exists.2 ⟨_, htail⟩)⟩
    refine ⟨g, hg, hvisible.trans ⟨fun hv after' hat' => ?_, fun hall => hall after hat⟩⟩
    exact hat.unique hat' ▸ hv
  next => cases htail

/-! ### An address -/

/-- **An address in the text** after the marker: blanks, a street in one line, a comma, and
something in a line. -/
def AddressAt (rest line after : List Char) : Prop :=
  ∃ gap, rest = gap ++ (line ++ ',' :: after) ∧ (∀ c ∈ gap, isSpace c = true) ∧ line ≠ [] ∧
    (∀ c ∈ line, isDot c = true) ∧ ∃ c ∈ after, isDot c = true

/-- What follows the blanks in `_ADDRESS_RE`. -/
def fromStreet : Pattern Char :=
  .seq (.group (.plus isDot)) (.seq (.one (· = ',')) afterComma)

/-- What follows the street. -/
theorem fromComma_isSome_iff {xs : List Char} :
    ((Pattern.seq (.one (· = ',')) afterComma).groupsAt xs).isSome ↔
      ∃ after, xs = ',' :: after ∧ ∃ c ∈ after, isDot c = true := by
  cases xs with
  | nil => simp [Pattern.groupsAt_seq, Pattern.ends]
  | cons x xs =>
      rw [Pattern.groupsAt_one_seq]
      by_cases hx : x = ','
      · subst hx
        simp [afterComma_isSome_iff]
      · simp [hx]

theorem fromStreet_isSome {line after : List Char} (hne : line ≠ [])
    (hline : ∀ c ∈ line, isDot c = true) (hafter : ∃ c ∈ after, isDot c = true) :
    (fromStreet.groupsAt (line ++ ',' :: after)).isSome := by
  obtain ⟨read, gs, rest, hsplit, hr⟩ :=
    Pattern.groupsAt_isSome_iff.1 (fromComma_isSome_iff.2 ⟨after, rfl, hafter⟩)
  refine Pattern.groupsAt_isSome_iff.2 ⟨line ++ read, [line] ++ gs, rest, by simp [hsplit], ?_⟩
  exact .seq (.group (Pattern.reads_plus_iff.2 ⟨hne, hline, rfl⟩)) hr

theorem afterAddress_isSome_iff {rest : List Char} :
    (afterAddress.groupsAt rest).isSome ↔ ∃ line after, AddressAt rest line after := by
  constructor
  · intro h
    obtain ⟨groups, hgroups⟩ := Option.isSome_iff_exists.1 h
    obtain ⟨gap, tail, rfl, hgap, htail, -⟩ := Pattern.groupsAt_many_seq_longest hgroups
    obtain ⟨line, tail', hs, rfl, hne, hline, htail', -, -⟩ :=
      Pattern.groupsAt_plus_seq_longest htail
    obtain ⟨after, rfl, hafter⟩ :=
      fromComma_isSome_iff.1 (Option.isSome_iff_exists.2 ⟨_, htail'⟩)
    exact ⟨line, after, gap, rfl, hgap, hne, hline, hafter⟩
  · rintro ⟨line, after, gap, rfl, hgap, hne, hline, hafter⟩
    obtain ⟨read, gs, rest, hsplit, hr⟩ :=
      Pattern.groupsAt_isSome_iff.1 (fromStreet_isSome hne hline hafter)
    exact Pattern.groupsAt_isSome_iff.2
      ⟨gap ++ read, [] ++ gs, rest, by rw [List.append_assoc, ← hsplit], .seq (.many hgap) hr⟩

/-- A text in some street, and the street read has one: a blank one would be read as the gap, which
goes as far as it can. -/
theorem visible_street {gap street line after after' : List Char}
    (hgap : ∀ c ∈ gap, isSpace c = true) (hne : street ≠ [])
    (hgaps : ∀ gap' tail, gap ++ (street ++ ',' :: after) = gap' ++ tail →
      (∀ c ∈ gap', isSpace c = true) → gap.length < gap'.length → fromStreet.groupsAt tail = none)
    (hat : AddressAt (gap ++ (street ++ ',' :: after)) line after') (hvisible : Visible line) :
    Visible street := by
  obtain ⟨gap', hsplit, hgap', -, hline, hafter'⟩ := hat
  by_contra hblank
  rw [not_visible_iff] at hblank
  -- the blanks go up to the comma, so that of the street up to where the text begins
  obtain ⟨blanks, c, line', rfl, hblanks, hc⟩ := hvisible.split
  have hsplit' : gap ++ (street ++ ',' :: after) =
      (gap' ++ blanks) ++ (c :: line' ++ ',' :: after') := by
    simpa using hsplit
  have hlength : (gap ++ street).length ≤ (gap' ++ blanks).length := by
    have hends : (gap' ++ blanks) ++ c :: (line' ++ ',' :: after') =
        (gap ++ street) ++ ',' :: after := by
      simpa using hsplit'.symm
    refine length_le_of_blanks hends hc ?_
    intro d hd
    rcases List.mem_append.1 hd with hd | hd
    · exact hgap d hd
    · exact hblank d hd
  have hno := hgaps (gap' ++ blanks) (c :: line' ++ ',' :: after') hsplit' ?_ ?_
  · have hsome := fromStreet_isSome (List.cons_ne_nil c line')
      (fun d hd => hline d (List.mem_append_right _ hd)) hafter'
    rw [hno] at hsome
    cases hsome
  · intro d hd
    rcases List.mem_append.1 hd with hd | hd
    · exact hgap' d hd
    · exact hblanks d hd
  · have hpos : 0 < street.length := List.length_pos_iff.2 hne
    rw [List.length_append] at hlength
    omega

/-- What follows the street read is what follows the last comma that will do, and a text there is one
after every such comma. -/
theorem visible_after {gap street line after after' : List Char}
    (hstreet : ∀ c ∈ street, isDot c = true)
    (hstreets : ∀ street' tail, street ++ ',' :: after = street' ++ tail →
      (∀ c ∈ street', isDot c = true) → street.length < street'.length →
      (Pattern.seq (.one (· = ',')) afterComma).groupsAt tail = none)
    (hv : Visible after) (hat : AddressAt (gap ++ (street ++ ',' :: after)) line after') :
    Visible after' := by
  obtain ⟨gap', hsplit, hgap', -, hline, hafter'⟩ := hat
  by_contra hblank
  rw [← List.append_assoc, ← List.append_assoc] at hsplit
  rcases List.append_eq_append_iff.1 hsplit with ⟨a, hlater, hrest⟩ | ⟨a, -, hrest⟩
  · cases a with
    | nil => exact hblank ((List.cons.inj hrest).2 ▸ hv)
    | cons x a =>
        -- a later comma would do as well, and the street would have gone up to there
        obtain ⟨rfl, rfl⟩ := List.cons.inj hrest
        have hmore : ∀ c ∈ street ++ ',' :: a, isDot c = true := by
          intro c hc
          rcases List.mem_append.1 hc with hc | hc
          · exact hstreet c hc
          · refine hline c ?_
            rcases List.append_eq_append_iff.1 hlater with ⟨b, -, rfl⟩ | ⟨b, hb, hcomma⟩
            · exact List.mem_append_right _ hc
            · cases b with
              | nil =>
                  rw [List.nil_append] at hcomma
                  exact hcomma ▸ hc
              | cons y b =>
                  obtain ⟨rfl, -⟩ := List.cons.inj hcomma
                  have hspace := hgap' ',' (by simp [hb])
                  have hcommaSpace : isSpace ',' = false := by decide
                  rw [hcommaSpace] at hspace
                  cases hspace
        have hno := hstreets (street ++ ',' :: a) (',' :: after') (by simp) hmore (by simp)
        have hsome := fromComma_isSome_iff.2 ⟨after', rfl, hafter'⟩
        rw [hno] at hsome
        cases hsome
  · cases a with
    | nil => exact hblank ((List.cons.inj hrest).2.symm ▸ hv)
    | cons x a =>
        obtain ⟨-, rfl⟩ := List.cons.inj hrest
        exact hblank ⟨',', by simp, by decide⟩

/-- **The street has a text if some street in the text has one, and the city if every city has.** -/
theorem afterAddress_groups {rest : List Char} {groups : List (List Char)}
    (h : afterAddress.groupsAt rest = some groups) :
    ∃ street city, groups = [street, city] ∧
      (Visible street ↔ ∃ line after, AddressAt rest line after ∧ Visible line) ∧
      (Visible city ↔ ∀ line after, AddressAt rest line after → Visible after) := by
  obtain ⟨gap, tail, rfl, hgap, htail, hgaps⟩ := Pattern.groupsAt_many_seq_longest h
  obtain ⟨street, tail', hs, rfl, hne, hstreet, htail', rfl, hstreets⟩ :=
    Pattern.groupsAt_plus_seq_longest htail
  obtain ⟨after, rfl, hafter⟩ := fromComma_isSome_iff.1 (Option.isSome_iff_exists.2 ⟨_, htail'⟩)
  rw [Pattern.groupsAt_one_seq, if_pos (by simp)] at htail'
  obtain ⟨city, rfl, hcity⟩ := afterComma_groups htail'
  have hat : AddressAt (gap ++ (street ++ ',' :: after)) street after :=
    ⟨gap, rfl, hgap, hne, hstreet, hafter⟩
  refine ⟨street, city, rfl, ⟨fun hv => ⟨street, after, hat, hv⟩, ?_⟩, hcity.trans ⟨?_, ?_⟩⟩
  · rintro ⟨line, after', hread, hvisible⟩
    exact visible_street hgap hne hgaps hread hvisible
  · exact fun hv line after' hread => visible_after hstreet hstreets hv hread
  · exact fun hall => hall street after hat

/-! ### The first place -/

/-- **The first place** where a marker is followed by what can be read: on the first page that has
one, the first one. -/
def FirstPlace (marker : List Char) (Readable : List Char → Prop) (pages : List PageText)
    (rest : List Char) : Prop :=
  ∃ earlier page later before, pages = earlier ++ page :: later ∧
    page.text.toList = before ++ (marker ++ rest) ∧ Readable rest ∧
    (∀ q ∈ earlier, ∀ s t, q.text.toList = s ++ (marker ++ t) → ¬ Readable t) ∧
    ∀ s t, page.text.toList = s ++ (marker ++ t) → s.length < before.length → ¬ Readable t

section Places

variable {marker : List Char} {s : Pattern Char} {Readable : List Char → Prop}
variable {pages : List PageText}

/-- A search ends at the first place. -/
theorem FirstMatch.place (hs : ∀ t, (s.groupsAt t).isSome ↔ Readable t) {page : PageText}
    {groups : List (List Char)} (h : FirstMatch pages (.seq (.word marker) s) page groups) :
    ∃ rest, FirstPlace marker Readable pages rest ∧ s.groupsAt rest = some groups := by
  have hno : ∀ t, s.groupsAt t = none → ¬ Readable t := by
    intro t ht hread
    rw [← hs, ht] at hread
    cases hread
  obtain ⟨earlier, later, hpages, hearlier⟩ := h.first
  obtain ⟨before, rest, hpage, hrest, hfirst⟩ := Pattern.search_word_seq_iff.1 h.groups
  refine ⟨rest, ⟨earlier, page, later, before, hpages, hpage, (hs rest).1 (hrest ▸ rfl), ?_, ?_⟩,
    hrest⟩
  · exact fun q hq b t ht => hno t (Pattern.search_word_seq_none.1 (hearlier q hq) b t ht)
  · exact fun b t ht hlt => hno t (hfirst b t ht hlt)

/-- And there is one where there is such a place. -/
theorem FirstPlace.firstMatch (hs : ∀ t, (s.groupsAt t).isSome ↔ Readable t) {rest : List Char}
    (h : FirstPlace marker Readable pages rest) :
    ∃ page groups, FirstMatch pages (.seq (.word marker) s) page groups ∧
      s.groupsAt rest = some groups := by
  have hnone : ∀ t, ¬ Readable t → s.groupsAt t = none := by
    intro t ht
    rwa [← hs, Option.not_isSome_iff_eq_none] at ht
  obtain ⟨earlier, page, later, before, hpages, hpage, hread, hearlier, hfirst⟩ := h
  obtain ⟨groups, hgroups⟩ := Option.isSome_iff_exists.1 ((hs rest).2 hread)
  refine ⟨page, groups, ⟨⟨earlier, later, hpages, fun q hq => ?_⟩, ?_⟩, hgroups⟩
  · exact Pattern.search_word_seq_none.2 fun b t ht => hnone t (hearlier q hq b t ht)
  · exact Pattern.search_word_seq_iff.2 ⟨before, rest, hpage, hgroups,
      fun b t ht hlt => hnone t (hfirst b t ht hlt)⟩

end Places

/-! ### Facts with a text -/

def Finding.HasText (f : Finding) : Prop :=
  isBlankText f.value = false ∧ isBlankText f.normalizedValue = false

instance (f : Finding) : Decidable f.HasText := inferInstanceAs (Decidable (_ ∧ _))

/-- **A fact with a text**: neither its value nor the normalized value is blank. -/
def ExtractedFact.HasText (f : ExtractedFact) : Prop := f.finding.HasText

/-- What a search finds has a text. -/
def Search.HasText (pages : List PageText) (s : Search) : Prop :=
  ∀ page groups, FirstMatch pages s.pattern page groups → ∀ f ∈ s.findings groups, f.HasText

theorem FirstMatch.unique {pages : List PageText} {pattern : Pattern Char} {page page' : PageText}
    {groups groups' : List (List Char)} (h : FirstMatch pages pattern page groups)
    (h' : FirstMatch pages pattern page' groups') : groups = groups' := by
  have heq := h.findPage.symm.trans h'.findPage
  exact congrArg Prod.snd (Option.some.inj heq)

theorem hasText_findings {facts : List ExtractedFact} :
    (∀ f ∈ facts, f.HasText) ↔ ∀ f ∈ facts.map ExtractedFact.finding, f.HasText := by
  rw [List.forall_mem_map]
  exact Iff.rfl

/-- The facts of a document have a text if what each search finds has one. -/
theorem hasText_iff {pages : List PageText} {ss : List Search} {facts : List (List ExtractedFact)}
    (h : List.Forall₂ (FoundBy pages) ss facts) :
    (∀ f ∈ facts.flatten, f.HasText) ↔ ∀ s ∈ ss, s.HasText pages := by
  induction h with
  | nil => simp
  | @cons s facts ss rest hfound _ ih =>
      have hhead : (∀ f ∈ facts, f.HasText) ↔ s.HasText pages := by
        rcases hfound with ⟨hnone, rfl⟩ | ⟨page, groups, hfirst, hfindings, -⟩
        · refine ⟨fun _ page groups hfirst => ?_, fun _ => by simp⟩
          have hno := hnone page hfirst.mem
          rw [hfirst.groups] at hno
          cases hno
        · rw [hasText_findings, hfindings]
          constructor
          · intro htext page' groups' hfirst'
            exact hfirst.unique hfirst' ▸ htext
          · exact fun htext => htext page groups hfirst
      rw [List.flatten_cons, List.forall_mem_append, List.forall_mem_cons, hhead, ih]

theorem isSpace_of_isDecimal {c : Char} (h : isDecimal c = true) : isSpace c = false := by
  rw [isDecimal, Bool.or_eq_true] at h
  rcases h with h | h
  · exact isSpace_of_isDigit h
  · obtain ⟨z, hz, hrange⟩ := List.any_eq_true.1 h
    simp only [Bool.and_eq_true, decide_eq_true_eq] at hrange
    have hlarge : ∀ z ∈ Uuid.decimalZeros, 128 ≤ z := by decide
    have hz' := hlarge z hz
    simp only [isSpace, not_wideSpace_of_decimal hz hrange, Bool.or_false, Bool.or_eq_false_iff, Bool.and_eq_false_iff,
      decide_eq_false_iff_not]
    omega

/-- What a pattern reads in a group after a marker and blanks. -/
theorem reads_marked {marker : List Char} {r : Pattern Char} {xs : List Char}
    {groups : List (List Char)}
    (h : (Pattern.seq (.word marker) (.seq spaces r)).search xs = some groups) :
    ∃ read, r.Reads read groups := by
  obtain ⟨_, _, _, _, hall⟩ := Pattern.reads_of_search h
  obtain ⟨_, _, _, _, -, rfl, hword, hrest⟩ := Pattern.reads_seq_iff.1 hall
  obtain ⟨_, _, _, _, -, rfl, hspaces, hread⟩ := Pattern.reads_seq_iff.1 hrest
  obtain ⟨-, rfl⟩ := Pattern.reads_word hword
  obtain ⟨-, rfl⟩ := Pattern.reads_many_iff.1 hspaces
  exact ⟨_, hread⟩

theorem hasText_grossPay (pages : List PageText) : grossPaySearch.HasText pages := by
  intro page groups hfirst
  obtain ⟨_, hread⟩ := reads_marked hfirst.groups
  obtain ⟨_, _, _, _, -, rfl, hdollar, hgroup⟩ := Pattern.reads_seq_iff.1 hread
  obtain ⟨-, rfl⟩ := Pattern.reads_one_iff.1 hdollar
  obtain ⟨_, rfl, hamount⟩ := Pattern.reads_group_iff.1 hgroup
  obtain ⟨w, _, _, _, rfl, -, -, hcents⟩ := Pattern.reads_seq_iff.1 hamount
  obtain ⟨_, cents, _, _, rfl, -, hone, -⟩ := Pattern.reads_seq_iff.1 hcents
  obtain ⟨⟨point, hpoint, rfl⟩, -⟩ := Pattern.reads_one_iff.1 hone
  obtain rfl : point = '.' := by simpa using hpoint
  have hvisible : isSpace '.' = false := by decide
  simp only [grossPaySearch, grossPayFindings, List.mem_singleton, forall_eq, Finding.HasText,
    isBlankText_ofList]
  exact ⟨⟨'.', by simp [group], hvisible⟩, ⟨'.', by simp [group], hvisible⟩⟩

theorem hasText_tenure (pages : List PageText) : tenureSearch.HasText pages := by
  intro page groups hfirst
  obtain ⟨_, hread⟩ := reads_marked hfirst.groups
  obtain ⟨_, _, _, _, -, rfl, hgroup, -⟩ := Pattern.reads_seq_iff.1 hread
  obtain ⟨_, rfl, hmonths⟩ := Pattern.reads_group_iff.1 hgroup
  obtain ⟨hne, hdigits, -⟩ := Pattern.reads_plus_iff.1 hmonths
  have hvisible := visible_of_all (fun _ => isSpace_of_isDecimal) hne hdigits
  simp only [tenureSearch, tenureFindings, List.mem_singleton, forall_eq, Finding.HasText,
    isBlankText_ofList]
  exact ⟨hvisible, hvisible⟩

theorem hasText_name (U : Unicode) (pages : List PageText) : (nameSearch U).HasText pages := by
  have hvisible : ∀ {xs : List Char} {hs : List (List Char)},
      (Pattern.plus isVisible).Reads xs hs → hs = [] ∧ Visible xs := by
    intro xs hs h
    obtain ⟨hne, hxs, rfl⟩ := Pattern.reads_plus_iff.1 h
    exact ⟨rfl, visible_of_all (fun c hc => by simpa [isVisible] using hc) hne hxs⟩
  have hlower : ∀ xs : List Char, Visible xs →
      isBlankText (String.ofList xs) = false ∧ isBlankText (U.lower (String.ofList xs)) = false := by
    intro xs h
    have htext := isBlankText_ofList.2 h
    refine ⟨htext, ?_⟩
    rw [Bool.eq_false_iff]
    intro hblank
    rw [U.lower_isBlank _ hblank] at htext
    cases htext
  intro page groups hfirst
  obtain ⟨_, hread⟩ := reads_marked hfirst.groups
  obtain ⟨_, _, _, _, -, rfl, hfirstGroup, hrest⟩ := Pattern.reads_seq_iff.1 hread
  obtain ⟨_, _, _, _, -, rfl, hblanks, hsecondGroup⟩ := Pattern.reads_seq_iff.1 hrest
  obtain ⟨-, -, rfl⟩ := Pattern.reads_plus_iff.1 hblanks
  obtain ⟨_, rfl, hgiven⟩ := Pattern.reads_group_iff.1 hfirstGroup
  obtain ⟨_, rfl, hfamily⟩ := Pattern.reads_group_iff.1 hsecondGroup
  obtain ⟨rfl, hgivenText⟩ := hvisible hgiven
  obtain ⟨-, hfamilyText⟩ := hvisible hfamily
  simp only [nameSearch, nameFindings, List.forall_mem_cons, Finding.HasText]
  exact ⟨hlower _ hgivenText, hlower _ hfamilyText, by simp⟩

theorem hasText_dateOfBirth (pages : List PageText) : dateOfBirthSearch.HasText pages := by
  intro page groups hfirst
  obtain ⟨_, hread⟩ := reads_marked hfirst.groups
  obtain ⟨_, rfl, hdate⟩ := Pattern.reads_group_iff.1 hread
  obtain ⟨_, _, _, _, rfl, -, -, hrest⟩ := Pattern.reads_seq_iff.1 hdate
  obtain ⟨_, _, _, _, rfl, -, hone, -⟩ := Pattern.reads_seq_iff.1 hrest
  obtain ⟨⟨dash, hdash, rfl⟩, -⟩ := Pattern.reads_one_iff.1 hone
  obtain rfl : dash = '-' := by simpa using hdash
  have hvisible : isSpace '-' = false := by decide
  have hformatted : ∀ date : Date, isBlankText date.isoformat = false := by
    intro date
    rw [isBlankText_eq, List.all_eq_false]
    exact ⟨'-', by simp [Date.isoformat], by simp [hvisible]⟩
  simp only [dateOfBirthSearch, dateOfBirthFindings, List.mem_singleton, forall_eq, Finding.HasText,
    isBlankText_ofList]
  refine ⟨⟨'-', by simp [group], hvisible⟩, ?_⟩
  split
  · exact hformatted _
  · exact isBlankText_ofList.2 ⟨'-', by simp [group], hvisible⟩

theorem hasText_syntheticId (U : Unicode) (pages : List PageText) :
    (syntheticIdSearch U).HasText pages := by
  have hword : ∀ c, U.isWordOrDash c = true → isSpace c = false := by
    intro c hc
    simp only [Unicode.isWordOrDash, Bool.or_eq_true, decide_eq_true_eq] at hc
    rcases hc with (hc | rfl) | rfl
    · exact U.isAlnum_isSpace c hc
    · decide
    · decide
  intro page groups hfirst
  obtain ⟨_, hread⟩ := reads_marked hfirst.groups
  obtain ⟨_, rfl, hid⟩ := Pattern.reads_group_iff.1 hread
  obtain ⟨hne, hxs, -⟩ := Pattern.reads_plus_iff.1 hid
  have hvisible := visible_of_all hword hne hxs
  simp only [syntheticIdSearch, syntheticIdFindings, List.mem_singleton, forall_eq,
    Finding.HasText, isBlankText_ofList]
  exact ⟨hvisible, hvisible⟩

/-! ### Which documents have facts without a text -/

def employerMarker : List Char := payStubMarker.toList

def addressMarker : List Char := "Address:".toList

/-- The employer of a pay stub has a text: the text does not end after `--`. -/
def EmployerHasText (pages : List PageText) : Prop :=
  ∀ rest, FirstPlace employerMarker (fun t => ∃ after, EmployerAt t after) pages rest →
    ∀ after, EmployerAt rest after → Visible after

/-- The street and the city of an identity document have a text: some comma of the line has a text
before it, and all of them have one somewhere after it. -/
def AddressHasText (pages : List PageText) : Prop :=
  ∀ rest, FirstPlace addressMarker (fun t => ∃ line after, AddressAt t line after) pages rest →
    (∃ line after, AddressAt rest line after ∧ Visible line) ∧
    ∀ line after, AddressAt rest line after → Visible after

/-- **The employer, the street and the city have a text**, at the first place where there are any. -/
def WithText (pages : List PageText) : DocumentClassification → Prop
  | .incomeProof => EmployerHasText pages
  | .identityDocument => AddressHasText pages
  | .unknown => True

theorem hasText_employer (pages : List PageText) :
    employerSearch.HasText pages ↔ EmployerHasText pages := by
  have htext : ∀ {rest : List Char} {groups : List (List Char)},
      afterPayStub.groupsAt rest = some groups →
        ((∀ f ∈ employerFindings groups, f.HasText) ↔
          ∀ after, EmployerAt rest after → Visible after) := by
    intro rest groups h
    obtain ⟨g, rfl, hg⟩ := afterPayStub_groups h
    simp only [employerFindings, List.mem_singleton, forall_eq, Finding.HasText, isBlankText_ofList,
      and_self, visible_strip]
    exact hg
  constructor
  · intro h rest hplace
    obtain ⟨page, groups, hfirst, hgroups⟩ := hplace.firstMatch fun _ => afterPayStub_isSome_iff
    exact (htext hgroups).1 (h page groups hfirst)
  · intro h page groups hfirst
    obtain ⟨rest, hplace, hgroups⟩ := hfirst.place fun _ => afterPayStub_isSome_iff
    exact (htext hgroups).2 (h rest hplace)

theorem hasText_address (pages : List PageText) :
    addressSearch.HasText pages ↔ AddressHasText pages := by
  have htext : ∀ {rest : List Char} {groups : List (List Char)},
      afterAddress.groupsAt rest = some groups →
        ((∀ f ∈ addressFindings groups, f.HasText) ↔
          (∃ line after, AddressAt rest line after ∧ Visible line) ∧
          ∀ line after, AddressAt rest line after → Visible after) := by
    intro rest groups h
    obtain ⟨street, city, rfl, hstreet, hcity⟩ := afterAddress_groups h
    simp only [addressFindings, List.forall_mem_cons, Finding.HasText, isBlankText_ofList, and_self,
      visible_strip, List.not_mem_nil, false_implies, implies_true, and_true]
    exact and_congr hstreet hcity
  constructor
  · intro h rest hplace
    obtain ⟨page, groups, hfirst, hgroups⟩ := hplace.firstMatch fun _ => afterAddress_isSome_iff
    exact (htext hgroups).1 (h page groups hfirst)
  · intro h page groups hfirst
    obtain ⟨rest, hplace, hgroups⟩ := hfirst.place fun _ => afterAddress_isSome_iff
    exact (htext hgroups).2 (h rest hplace)

theorem searches_hasText_iff (U : Unicode) (pages : List PageText)
    (classification : DocumentClassification) :
    (∀ s ∈ searches U classification, s.HasText pages) ↔ WithText pages classification := by
  cases classification with
  | incomeProof =>
      simp [searches, WithText, hasText_employer, hasText_grossPay, hasText_tenure]
  | identityDocument =>
      simp [searches, WithText, hasText_name, hasText_dateOfBirth, hasText_address,
        hasText_syntheticId]
  | unknown => simp [searches, WithText]

/-! ### The requests -/

/-- **The requests that the services take**: the texts of `VerifyIdentityRequest` and of
`VerifyEmploymentRequest` have `min_length=1`. -/
def Ask.Filled : Ask → Prop
  | .verifyIdentity givenName familyName _ syntheticId streetAddress city =>
      1 ≤ givenName.length ∧ 1 ≤ familyName.length ∧ 1 ≤ syntheticId.length ∧
        1 ≤ streetAddress.length ∧ 1 ≤ city.length
  | .verifyEmployment givenName familyName syntheticId employerName _ =>
      1 ≤ givenName.length ∧ 1 ≤ familyName.length ∧ 1 ≤ syntheticId.length ∧
        1 ≤ employerName.length
  | _ => True

theorem length_pos_of_text {s : String} (h : isBlankText s = false) : 1 ≤ s.length := by
  rw [Nat.one_le_iff_ne_zero]
  intro hzero
  rw [String.length_eq_zero_iff.1 hzero] at h
  revert h
  decide

/-- A piece of a handler that sends only requests that are taken. -/
abbrev Handler.Fills {α : Type} (p : Handler α) : Prop :=
  p.Inside Ask.Filled (fun _ => True) fun _ => True

theorem fills_ask {q : Ask} (h : q.Filled) : (Handler.ask q).Fills := ⟨h, fun _ => trivial⟩

theorem fills_ofExcept {α : Type} (r : Except Error α) : (Handler.ofExcept r).Fills := by
  cases r <;> trivial

theorem fills_ofPort {α : Type} (r : Except PortError α) : (Handler.ofPort r).Fills := by
  cases r <;> trivial

section Requests

variable (applicant : Applicant) {facts : List ExtractedFact}

theorem factOfType_filled (hfacts : ∀ f ∈ facts, f.HasText) {factType : FactType}
    {f : ExtractedFact} (h : factOfType facts factType = some f) : 1 ≤ f.normalizedValue.length :=
  length_pos_of_text (hfacts f (factOfType_mem h).1).2

theorem fills_checkIdentity (hfacts : ∀ f ∈ facts, f.HasText) :
    (checkIdentity applicant facts).Fills := by
  unfold checkIdentity
  split
  next syntheticId street city hid hstreet hcity =>
    refine Prog.Inside.bind (fills_ask ⟨length_pos_of_text applicant.givenName_nonblank,
      length_pos_of_text applicant.familyName_nonblank, factOfType_filled hfacts hid,
      factOfType_filled hfacts hstreet, factOfType_filled hfacts hcity⟩) fun answered => ?_
    refine Prog.Inside.bind (fills_ofPort answered) fun result => ?_
    exact Prog.Inside.bind (fills_ofExcept _) fun check => trivial
  next => exact Prog.Inside.bind (fills_ofExcept _) fun check => trivial

theorem fills_declaredIncome : (declaredIncome facts).Fills := by
  unfold declaredIncome
  split
  next => trivial
  next fact _ =>
    generalize annualIncome fact.normalizedValue = income
    exact Prog.Inside.bind (fills_ofExcept income) fun income => trivial

theorem fills_checkEmployment (hfacts : ∀ f ∈ facts, f.HasText) (income : Option ℤ) :
    (checkEmployment applicant facts income).Fills := by
  unfold checkEmployment
  split
  next syntheticId employerName income hid hemployer =>
    refine Prog.Inside.bind (fills_ask ⟨length_pos_of_text applicant.givenName_nonblank,
      length_pos_of_text applicant.familyName_nonblank, factOfType_filled hfacts hid,
      factOfType_filled hfacts hemployer⟩) fun answered => ?_
    refine Prog.Inside.bind (fills_ofPort answered) fun result => ?_
    refine Prog.Inside.bind (fills_ofExcept _) fun deviation => ?_
    exact Prog.Inside.bind (fills_ofExcept _) fun check => trivial
  next => exact Prog.Inside.bind (fills_ofExcept _) fun check => trivial

theorem fills_captureCreditReport : (captureCreditReport applicant facts).Fills := by
  unfold captureCreditReport
  split
  next => trivial
  next =>
    refine Prog.Inside.bind (fills_ask trivial) fun answered => ?_
    exact Prog.Inside.bind (fills_ofPort answered) fun report => trivial

theorem fills_captureTransactionHistory (income : Option ℤ) :
    (captureTransactionHistory applicant facts income).Fills := by
  unfold captureTransactionHistory
  split
  next =>
    refine Prog.Inside.bind (fills_ask trivial) fun answered => ?_
    exact Prog.Inside.bind (fills_ofPort answered) fun history => trivial
  next => trivial

/-- **Facts with a text make requests that are taken**, whatever the services answer. -/
theorem filled_verification (hfacts : ∀ f ∈ facts, f.HasText) :
    (verification applicant facts).Fills := by
  refine Prog.Inside.bind (fills_checkIdentity applicant hfacts) fun identity => ?_
  refine Prog.Inside.bind fills_declaredIncome fun income => ?_
  refine Prog.Inside.bind (fills_checkEmployment applicant hfacts income) fun employment => ?_
  refine Prog.Inside.bind (fills_captureCreditReport applicant) fun creditReport => ?_
  exact Prog.Inside.bind (fills_captureTransactionHistory applicant income) fun history => trivial

end Requests

/-- **The facts of a document have a text exactly when its employer, its street and its city have
one** in the text of its pages; and from such facts the verification makes only requests that the
identity and the employer service take. -/
theorem facts_have_text (U : Unicode) {pages : List PageText}
    (hpages : ∀ page ∈ pages, 1 ≤ page.page) (classification : DocumentClassification)
    (sourceChecksum : String) :
    (∃ facts, extractFacts U pages classification sourceChecksum = .ok facts ∧
      ((∀ f ∈ facts, f.HasText) ↔ WithText pages classification)) ∧
    ∀ (applicant : Applicant) (facts : List ExtractedFact), (∀ f ∈ facts, f.HasText) →
      (verification applicant facts).Fills := by
  refine ⟨?_, fun applicant facts => filled_verification applicant⟩
  obtain ⟨facts, hfacts, hfound⟩ := extractFacts_ok U hpages classification sourceChecksum
  exact ⟨facts.flatten, hfacts,
    (hasText_iff hfound).trans (searches_hasText_iff U pages classification)⟩

/-! ### Documents with facts without a text -/

/-- What is chosen of the facts is chosen of what was found. -/
theorem factOfType_finding (facts : List ExtractedFact) (factType : FactType) :
    (factOfType facts factType).map ExtractedFact.finding =
      (facts.map ExtractedFact.finding).reverse.find? fun f => f.factType = factType := by
  rw [factOfType, ← List.map_reverse, List.find?_map]
  rfl

/-- An address with a street or a city that is empty makes a request that is not taken. -/
theorem not_fills_of_empty (applicant : Applicant) {facts : List ExtractedFact}
    {syntheticId street city : ExtractedFact} (hid : factOfType facts .syntheticId = some syntheticId)
    (hstreet : factOfType facts .streetAddress = some street)
    (hcity : factOfType facts .city = some city)
    (hempty : street.normalizedValue = "" ∨ city.normalizedValue = "") :
    ¬ (verification applicant facts).Fills := by
  intro h
  simp only [verification, checkIdentity, hid, hstreet, hcity] at h
  obtain ⟨⟨-, -, -, hstreetLength, hcityLength⟩, -⟩ := h
  rcases hempty with hempty | hempty
  · rw [hempty] at hstreetLength
    cases hstreetLength
  · rw [hempty] at hcityLength
    cases hcityLength

namespace Sample

/-- The line of the address has a city and no street. -/
def streetlessPages : List PageText :=
  [⟨1, "GOVERNMENT-ISSUED ID\nName: Ada Lovelace\nAddress: , London\nSynthetic ID: SYN-1"⟩]

def streetlessFindings : List Finding :=
  [⟨.applicantGivenName, "Ada", "ada"⟩, ⟨.applicantFamilyName, "Lovelace", "lovelace"⟩,
   ⟨.streetAddress, "", ""⟩, ⟨.city, "London", "London"⟩, ⟨.syntheticId, "SYN-1", "SYN-1"⟩]

/-- A second line of an address is read where the first one has no comma. -/
def addressedPages : List PageText :=
  [⟨1, "Address: none"⟩, ⟨2, "Address: 1 Main Street, London\nSynthetic ID: SYN-1"⟩]

def addressedFindings : List Finding :=
  [⟨.streetAddress, "1 Main Street", "1 Main Street"⟩, ⟨.city, "London", "London"⟩,
   ⟨.syntheticId, "SYN-1", "SYN-1"⟩]

/-- The text ends after the marker. -/
def namelessPages : List PageText := [⟨1, "SYNTHETIC PAY STUB -- "⟩]

/-- What the facts of a document are, if it is known what was found. -/
theorem findings_of {pages : List PageText} {classification : DocumentClassification}
    {findings : List Finding} {facts : List ExtractedFact}
    (hfacts : extractFacts .ascii pages classification "" = .ok facts)
    (h : (extractFacts .ascii pages classification "").map
      (fun facts => facts.map ExtractedFact.finding) = .ok findings) :
    facts.map ExtractedFact.finding = findings := by
  rw [hfacts] at h
  exact Except.ok.inj h

theorem streetlessPages_found : (extractFacts .ascii streetlessPages .identityDocument "").map
    (fun facts => facts.map ExtractedFact.finding) = .ok streetlessFindings := by
  decide +kernel

end Sample

/-- A document without a street has a fact without a text, and the identity service does not take
the request that is made from it, whoever the applicant is. -/
theorem facts_without_text :
    classify Sample.streetlessPages = .identityDocument ∧
    ∃ facts, extractFacts .ascii Sample.streetlessPages .identityDocument "" = .ok facts ∧
      (∃ f ∈ facts, f.factType = .streetAddress ∧ f.value = "" ∧ f.normalizedValue = "") ∧
      ¬ (∀ f ∈ facts, f.HasText) ∧
      ∀ applicant : Applicant, ¬ (verification applicant facts).Fills := by
  obtain ⟨facts, hfacts, -⟩ := extractFacts_ok .ascii
    (show ∀ page ∈ Sample.streetlessPages, 1 ≤ page.page by decide) .identityDocument ""
  have hfindings := Sample.findings_of hfacts Sample.streetlessPages_found
  have hfound : ∀ factType, (factOfType facts.flatten factType).map ExtractedFact.finding =
      Sample.streetlessFindings.reverse.find? fun f => f.factType = factType := by
    intro factType
    rw [factOfType_finding, hfindings]
  obtain ⟨syntheticId, hid, -⟩ := Option.map_eq_some_iff.1 ((hfound .syntheticId).trans rfl)
  obtain ⟨street, hstreet, hempty⟩ := Option.map_eq_some_iff.1 ((hfound .streetAddress).trans rfl)
  obtain ⟨city, hcity, -⟩ := Option.map_eq_some_iff.1 ((hfound .city).trans rfl)
  have hvalue : street.value = "" := congrArg Finding.value hempty
  have hnormalized : street.normalizedValue = "" := congrArg Finding.normalizedValue hempty
  refine ⟨by decide +kernel, facts.flatten, hfacts, ⟨street, (factOfType_mem hstreet).1,
    (factOfType_mem hstreet).2, hvalue, hnormalized⟩, fun hall => ?_, fun applicant => ?_⟩
  · have hblank := (hall street (factOfType_mem hstreet).1).1
    rw [show street.finding.value = "" from hvalue] at hblank
    revert hblank
    decide
  · exact not_fills_of_empty applicant hid hstreet hcity (Or.inl hnormalized)

/-- Of three documents. -/
theorem facts_have_text_documents :
    WithText Sample.addressedPages .identityDocument ∧
      ¬ WithText Sample.streetlessPages .identityDocument ∧
      ¬ WithText Sample.namelessPages .incomeProof := by
  refine ⟨?_, ?_, ?_⟩
  · obtain ⟨⟨facts, hfacts, hiff⟩, -⟩ := facts_have_text .ascii
      (show ∀ page ∈ Sample.addressedPages, 1 ≤ page.page by decide) .identityDocument ""
    refine hiff.1 (hasText_findings.2 ?_)
    have hfindings : facts.map ExtractedFact.finding = Sample.addressedFindings :=
      Sample.findings_of hfacts (by decide +kernel)
    rw [hfindings]
    decide
  · obtain ⟨⟨facts, hfacts, hiff⟩, -⟩ := facts_have_text .ascii
      (show ∀ page ∈ Sample.streetlessPages, 1 ≤ page.page by decide) .identityDocument ""
    intro h
    have htext := hasText_findings.1 (hiff.2 h)
    rw [Sample.findings_of hfacts Sample.streetlessPages_found] at htext
    revert htext
    decide
  · obtain ⟨⟨facts, hfacts, hiff⟩, -⟩ := facts_have_text .ascii
      (show ∀ page ∈ Sample.namelessPages, 1 ≤ page.page by decide) .incomeProof ""
    intro h
    have htext := hasText_findings.1 (hiff.2 h)
    have hfindings : facts.map ExtractedFact.finding = [⟨.employerName, "", ""⟩] :=
      Sample.findings_of hfacts (by decide +kernel)
    rw [hfindings] at htext
    revert htext
    decide

end FinAssist
