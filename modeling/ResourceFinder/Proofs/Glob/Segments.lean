import ResourceFinder.Proofs.Glob.Append
import ResourceFinder.Proofs.Text.Join

/-
Patterns segment by segment.

Without two stars a pattern reaches over no slash that it does not have itself, and a slash outside
of the groups stands for itself, so a pattern can be cut at its slashes and a name at its own, and
the pieces can be matched one by one.  That there is no other way to match the whole is because a
piece matches no name with a slash: the first slash of a name is where the first piece ends.
-/

namespace ResourceFinder
namespace Glob

namespace Token

/-- A slash, written as it is or behind a backslash. -/
def isSlash : Token → Bool
  | escaped c => c = .char '/'
  | stars => false
  | single c => c = .char '/'

end Token

/-- The pieces of a text between its slashes, one more than there are slashes. -/
def pieces (pattern : Text) : List Text :=
  ((tokens pattern).splitOnP Token.isSlash).map (·.flatMap Token.text)

/-- A slash stands behind a brace that opens a group and before the one that closes it. -/
def SlashInGroup (ts : List Token) : Prop :=
  ∃ before slash after, ts = before ++ slash :: after ∧ slash.isSlash = true ∧ IsOpen before

theorem isOpen_cons {token : Token} {ts : List Token} :
    IsOpen (token :: ts) ↔ token = .openingBrace ∧ .closingBrace ∉ ts ∨ IsOpen ts := by
  constructor
  · rintro ⟨early, late, h, hlate⟩
    cases early with
    | nil =>
      obtain ⟨rfl, rfl⟩ := List.cons.inj h
      exact .inl ⟨rfl, hlate⟩
    | cons first early =>
      obtain ⟨-, rfl⟩ := List.cons.inj h
      exact .inr ⟨early, late, rfl, hlate⟩
  · rintro (⟨rfl, hlate⟩ | ⟨early, late, rfl, hlate⟩)
    · exact ⟨[], ts, rfl, hlate⟩
    · exact ⟨token :: early, late, rfl, hlate⟩

instance decidableIsOpen : DecidablePred IsOpen
  | [] => isFalse not_isOpen_nil
  | _ :: ts =>
    have := decidableIsOpen ts
    decidable_of_iff' _ isOpen_cons

theorem slashInGroup_iff {ts : List Token} :
    SlashInGroup ts ↔
      ∃ k, ∃ h : k < ts.length, ts[k].isSlash = true ∧ IsOpen (ts.take k) := by
  constructor
  · rintro ⟨before, slash, after, rfl, hslash, hopen⟩
    exact ⟨before.length, by simp, by simpa using hslash, by simpa using hopen⟩
  · rintro ⟨k, hk, hslash, hopen⟩
    refine ⟨ts.take k, ts[k], ts.drop (k + 1), ?_, hslash, hopen⟩
    rw [List.getElem_cons_drop, List.take_append_drop]

instance : DecidablePred SlashInGroup := fun _ => decidable_of_iff' _ slashInGroup_iff

/-- The text is a pattern, and the name is one of those that it denotes. -/
def Denotes (pattern name : Text) : Prop := ∃ g, parse pattern = .ok g ∧ name ∈ language g

theorem denotes_iff_mem {pattern name : Text} {g : Glob} (h : parse pattern = .ok g) :
    Denotes pattern name ↔ name ∈ language g := by
  constructor
  · rintro ⟨g', hparse, hname⟩
    obtain rfl := Except.ok.inj (h.symm.trans hparse)
    exact hname
  · intro hname
    exact ⟨g, h, hname⟩

theorem denotes_iff_accepts {pattern name : Text} :
    Denotes pattern name ↔ ∃ m, compile pattern = .ok m ∧ m.accepts name = true := by
  cases hparse : parse pattern with
  | error e =>
    constructor
    · rintro ⟨g, hg, -⟩
      rw [hparse] at hg
      cases hg
    · rintro ⟨m, hcompile, -⟩
      simp only [compile, toRegexText, hparse] at hcompile
      cases hcompile
  | ok g =>
    rw [denotes_iff_mem hparse, ← accepts_node hparse name, compile_of_parse hparse]
    simp

/-! ## Within a segment -/

/-- No text of the language has a slash. -/
def IsSegmental (L : Language CodePoint) : Prop := ∀ t ∈ L, .char '/' ∉ t

theorem isSegmental_prod {languages : List (Language CodePoint)}
    (h : ∀ L ∈ languages, IsSegmental L) : IsSegmental languages.prod := by
  induction languages with
  | nil =>
    intro t ht
    obtain rfl : t = [] := Language.mem_one t |>.1 ht
    exact List.not_mem_nil
  | cons L languages ih =>
    obtain ⟨hL, hlanguages⟩ := List.forall_mem_cons.1 h
    intro t ht
    rw [List.prod_cons] at ht
    obtain ⟨s, hs, s', hs', rfl⟩ := Language.mem_mul.1 ht
    rw [List.mem_append, not_or]
    exact ⟨hL s hs, ih hlanguages s' hs'⟩

/-- All atoms of an item stay within a segment. -/
def Item.Stays : Item → Prop
  | atom a => IsSegmental a.language
  | group alternatives => ∀ as ∈ alternatives, ∀ a ∈ as, IsSegmental a.language

/-- All atoms that a group has so far stay within a segment. -/
def OpenGroup.Stays (opened : OpenGroup) : Prop :=
  ∀ as ∈ opened.current :: opened.finished, ∀ a ∈ as, IsSegmental a.language

theorem Item.Stays.isSegmental {i : Item} (h : i.Stays) : IsSegmental i.language := by
  cases i with
  | atom a => exact h
  | group alternatives =>
    rintro t ⟨as, has, ht⟩
    refine isSegmental_prod (fun L hL => ?_) t ht
    obtain ⟨a, ha, rfl⟩ := List.mem_map.1 hL
    exact h as has a ha

theorem isSegmental_language {g : Glob} (h : ∀ i ∈ g, i.Stays) : IsSegmental (language g) := by
  refine isSegmental_prod fun L hL => ?_
  obtain ⟨i, hi, rfl⟩ := List.mem_map.1 hL
  exact (h i hi).isSegmental

section

variable {opened : OpenGroup} {a : Atom}

theorem OpenGroup.stays_start : OpenGroup.start.Stays := by
  intro as has a ha
  obtain rfl : as = [] := List.mem_singleton.1 has
  cases ha

theorem OpenGroup.Stays.push (h : opened.Stays) (ha : IsSegmental a.language) :
    (opened.push a).Stays := by
  obtain ⟨hcurrent, hfinished⟩ := List.forall_mem_cons.1 h
  exact List.forall_mem_cons.2 ⟨List.forall_mem_cons.2 ⟨ha, hcurrent⟩, hfinished⟩

theorem OpenGroup.Stays.alternative (h : opened.Stays) : opened.alternative.Stays := by
  obtain ⟨hcurrent, hfinished⟩ := List.forall_mem_cons.1 h
  have hlast : ∀ a ∈ opened.current.reverse, IsSegmental a.language :=
    fun a ha => hcurrent a (List.mem_reverse.1 ha)
  exact List.forall_mem_cons.2
    ⟨fun _ ha => (List.not_mem_nil ha).elim, List.forall_mem_cons.2 ⟨hlast, hfinished⟩⟩

theorem OpenGroup.Stays.close (h : opened.Stays) : opened.close.Stays := by
  intro as has
  exact h.alternative as (List.mem_cons_of_mem _ (List.mem_reverse.1 has))

end

theorem Token.isSegmental_atom {token : Token} (hstars : token ≠ .stars)
    (hslash : token.isSlash = false) : IsSegmental token.atom.language := by
  have hliteral {c : CodePoint} (hc : c ≠ .char '/') : IsSegmental (Atom.literal c).language := by
    rintro t rfl hmem
    exact hc (List.mem_singleton.1 hmem).symm
  cases token with
  | stars => exact absurd rfl hstars
  | escaped c => exact hliteral (of_decide_eq_false hslash)
  | single c =>
    rw [Token.atom]
    split
    · intro t ht hmem
      exact ht _ hmem rfl
    · split
      · rintro t ⟨d, hd, rfl⟩ hmem
        exact hd (List.mem_singleton.1 hmem).symm
      · exact hliteral (of_decide_eq_false hslash)

section

variable {group : Option OpenGroup} {token : Token} {ts : List Token}
  {result : Glob × Option OpenGroup}

/-- One token keeps to the segment. -/
theorem stays_of_step (h : token.step group = .ok result) (hatom : IsSegmental token.atom.language)
    (hgroup : ∀ opened ∈ group, opened.Stays) :
    (∀ i ∈ result.1, i.Stays) ∧ ∀ opened ∈ result.2, opened.Stays := by
  obtain ⟨rfl, -, -⟩ | ⟨-, -, rfl⟩ | ⟨-, opened, rfl, rfl⟩ | ⟨-, opened, rfl, rfl⟩ := step_cases h
  · cases group with
    | none => exact ⟨List.forall_mem_singleton.2 hatom, fun _ h => by cases h⟩
    | some opened =>
      refine ⟨fun _ h => (List.not_mem_nil h).elim, fun _ h => ?_⟩
      obtain rfl := Option.some.inj h
      exact (hgroup opened rfl).push hatom
  · refine ⟨fun _ h => (List.not_mem_nil h).elim, fun _ h => ?_⟩
    obtain rfl := Option.some.inj h
    exact OpenGroup.stays_start
  · refine ⟨fun _ h => (List.not_mem_nil h).elim, fun _ h => ?_⟩
    obtain rfl := Option.some.inj h
    exact (hgroup opened rfl).alternative
  · exact ⟨List.forall_mem_singleton.2 (hgroup opened rfl).close, fun _ h => by cases h⟩

/-- So do all tokens of a row. -/
theorem stays_of_steps (h : steps group ts = .ok result)
    (hatoms : ∀ token ∈ ts, IsSegmental token.atom.language)
    (hgroup : ∀ opened ∈ group, opened.Stays) : ∀ i ∈ result.1, i.Stays := by
  induction ts generalizing group result with
  | nil =>
    obtain rfl := Except.ok.inj h
    exact fun _ h => (List.not_mem_nil h).elim
  | cons token ts ih =>
    obtain ⟨htoken, hts⟩ := List.forall_mem_cons.1 hatoms
    obtain ⟨first, later, hstep, hlater, rfl⟩ := exists_of_steps_cons h
    obtain ⟨hitems, hopened⟩ := stays_of_step hstep htoken hgroup
    exact List.forall_mem_append.2 ⟨hitems, ih hlater hts hopened⟩

/-- A slash outside of the groups stands for itself. -/
theorem step_slash {slash : Token} (h : slash.isSlash = true) :
    slash.step none = .ok ([.atom (.literal (.char '/'))], none) := by
  cases slash with
  | stars => cases h
  | escaped c =>
    obtain rfl : c = .char '/' := of_decide_eq_true h
    rfl
  | single c =>
    obtain rfl : c = .char '/' := of_decide_eq_true h
    rfl

/-! ## Cutting at the slashes -/

/-- What holds of a row of tokens without slashes, and of such a row with a slash and tokens behind
it if it holds of these, holds of all tokens. -/
theorem cutInduction {motive : List Token → Prop}
    (whole : ∀ us, (∀ token ∈ us, token.isSlash = false) → motive us)
    (cut : ∀ us slash ts, (∀ token ∈ us, token.isSlash = false) → slash.isSlash = true →
      motive ts → motive (us ++ slash :: ts)) (ts : List Token) : motive ts := by
  -- The tokens since the last slash are carried along.
  suffices h : ∀ us, (∀ token ∈ us, token.isSlash = false) → motive (us ++ ts) from
    h [] fun _ h => (List.not_mem_nil h).elim
  induction ts with
  | nil =>
    intro us hus
    rw [List.append_nil]
    exact whole us hus
  | cons token ts ih =>
    intro us hus
    cases htoken : token.isSlash with
    | true => exact cut us token ts hus htoken (ih [] fun _ h => (List.not_mem_nil h).elim)
    | false =>
      rw [← List.singleton_append, ← List.append_assoc]
      exact ih _ (List.forall_mem_append.2 ⟨hus, List.forall_mem_singleton.2 htoken⟩)

variable {us : List Token} {slash : Token} {g : Glob} {name : Text}

theorem IsOpen.append (h : IsOpen ts) (us : List Token) : IsOpen (us ++ ts) := by
  obtain ⟨early, late, rfl, hlate⟩ := h
  exact ⟨us ++ early, late, (List.append_assoc _ _ _).symm, hlate⟩

theorem SlashInGroup.append (h : SlashInGroup ts) (us : List Token) : SlashInGroup (us ++ ts) := by
  obtain ⟨before, slash, after, rfl, hslash, hopen⟩ := h
  exact ⟨us ++ before, slash, after, (List.append_assoc _ _ _).symm, hslash, hopen.append us⟩

/-- A pattern without slashes and without two stars has no name with a slash. -/
theorem isSegmental_of_steps (h : steps none us = .ok (g, none))
    (hus : ∀ token ∈ us, token.isSlash = false) (hstars : .stars ∉ us) :
    IsSegmental (language g) := by
  have hatoms : ∀ token ∈ us, IsSegmental token.atom.language := by
    intro token htoken
    have hne : token ≠ .stars := fun heq => hstars (heq ▸ htoken)
    exact Token.isSegmental_atom hne (hus token htoken)
  exact isSegmental_language (stays_of_steps h hatoms fun _ h => by cases h)

/-- Around a slash that is in no group there are two rows of tokens that leave none open. -/
theorem exists_of_steps_slash (h : steps none (us ++ slash :: ts) = .ok (g, none))
    (hslash : slash.isSlash = true) (hclosed : ¬IsOpen us) :
    ∃ g₁ g₂, steps none us = .ok (g₁, none) ∧ steps none ts = .ok (g₂, none) ∧
      g = g₁ ++ .atom (.literal (.char '/')) :: g₂ := by
  obtain ⟨g₁, group, later, hus, hlater, hg⟩ := exists_of_steps_append h
  obtain rfl : group = none :=
    Option.not_isSome_iff_eq_none.1 fun hsome => hclosed ((isSome_of_steps hus).1 hsome)
  obtain ⟨first, rest, hstep, hts, rfl⟩ := exists_of_steps_cons hlater
  obtain rfl := Except.ok.inj ((step_slash hslash).symm.trans hstep)
  obtain ⟨rfl, hrest⟩ := Prod.mk.inj hg
  refine ⟨g₁, rest.1, hus, ?_, rfl⟩
  rw [hts, hrest]

theorem mem_language_slash {g₁ g₂ : Glob} :
    name ∈ language (g₁ ++ .atom (.literal (.char '/')) :: g₂) ↔
      ∃ s s', name = s ++ .char '/' :: s' ∧ s ∈ language g₁ ∧ s' ∈ language g₂ := by
  have hslash (t : Text) : t ∈ language (.atom (.literal (.char '/')) :: g₂) ↔
      ∃ s', t = .char '/' :: s' ∧ s' ∈ language g₂ := by
    rw [language, List.map_cons, List.prod_cons]
    constructor
    · intro ht
      obtain ⟨s, rfl, s', hs', rfl⟩ := Language.mem_mul.1 ht
      exact ⟨s', rfl, hs'⟩
    · rintro ⟨s', rfl, hs'⟩
      have hone : [.char '/'] ∈ (Item.atom (.literal (.char '/'))).language := rfl
      exact Language.append_mem_mul hone hs'
  rw [mem_language_append]
  constructor
  · rintro ⟨s, t, rfl, hs, ht⟩
    obtain ⟨s', rfl, hs'⟩ := (hslash t).1 ht
    exact ⟨s, s', rfl, hs, hs'⟩
  · rintro ⟨s, s', rfl, hs, hs'⟩
    exact ⟨s, _, rfl, hs, (hslash _).2 ⟨s', rfl, hs'⟩⟩

theorem countP_slash (hus : ∀ token ∈ us, token.isSlash = false) (hslash : slash.isSlash = true) :
    (us ++ slash :: ts).countP Token.isSlash = ts.countP Token.isSlash + 1 := by
  have hzero : us.countP Token.isSlash = 0 :=
    List.countP_eq_zero.2 fun token htoken => by simp [hus token htoken]
  rw [List.countP_append, hzero, List.countP_cons_of_pos hslash, Nat.zero_add]

theorem count_slash {s : Text} (hs : .char '/' ∉ s) (s' : Text) :
    (s ++ .char '/' :: s').count (.char '/') = s'.count (.char '/') + 1 := by
  rw [List.count_append, List.count_eq_zero.2 hs, List.count_cons_self, Nat.zero_add]

/-- The name has the slashes of the tokens, and each piece matches the segment in its place. -/
def MatchesPieces (ts : List Token) (name : Text) : Prop :=
  name.count (.char '/') = ts.countP Token.isSlash ∧
    List.Forall₂ (fun us segment => Denotes (us.flatMap Token.text) segment)
      (ts.splitOnP Token.isSlash) (Text.splitAt '/' name)

theorem matchesPieces_whole (hus : ∀ token ∈ us, token.isSlash = false)
    (hparse : parse (us.flatMap Token.text) = .ok g) (hsegmental : IsSegmental (language g)) :
    MatchesPieces us name ↔ name ∈ language g := by
  have hcount : us.countP Token.isSlash = 0 :=
    List.countP_eq_zero.2 fun token htoken => by simp [hus token htoken]
  rw [MatchesPieces, List.splitOnP_eq_singleton hus, hcount, List.count_eq_zero]
  constructor
  · rintro ⟨hname, hpieces⟩
    rw [Text.splitAt_of_not_mem hname, List.forall₂_cons] at hpieces
    exact (denotes_iff_mem hparse).1 hpieces.1
  · intro hname
    have hslash : .char '/' ∉ name := hsegmental name hname
    rw [Text.splitAt_of_not_mem hslash]
    exact ⟨hslash, .cons ⟨g, hparse, hname⟩ .nil⟩

/-- The first slash of a name is the one behind the first piece. -/
theorem matchesPieces_cut (hus : ∀ token ∈ us, token.isSlash = false)
    (hslash : slash.isSlash = true) (hparse : parse (us.flatMap Token.text) = .ok g)
    (hsegmental : IsSegmental (language g)) :
    MatchesPieces (us ++ slash :: ts) name ↔
      ∃ s s', name = s ++ .char '/' :: s' ∧ s ∈ language g ∧ MatchesPieces ts s' := by
  simp only [MatchesPieces]
  rw [List.splitOnP_append_cons_of_forall_mem hus slash hslash ts, countP_slash hus hslash]
  constructor
  · rintro ⟨hcount, hpieces⟩
    have hmem : .char '/' ∈ name := List.count_pos_iff.1 (by omega)
    obtain ⟨s, s', rfl, hs⟩ := List.eq_append_cons_of_mem hmem
    rw [Text.splitAt_append hs, List.forall₂_cons] at hpieces
    rw [count_slash hs, Nat.add_right_cancel_iff] at hcount
    exact ⟨s, s', rfl, (denotes_iff_mem hparse).1 hpieces.1, hcount, hpieces.2⟩
  · rintro ⟨s, s', rfl, hs, hcount, hpieces⟩
    have hno : .char '/' ∉ s := hsegmental s hs
    rw [count_slash hno, Text.splitAt_append hno, hcount]
    exact ⟨rfl, .cons ⟨g, hparse, hs⟩ hpieces⟩

/-- The pieces of a pattern are patterns, and its names are those that they match. -/
theorem mem_language_iff_matchesPieces (hts : tokens (ts.flatMap Token.text) = ts)
    (hsteps : steps none ts = .ok (g, none)) (hstars : .stars ∉ ts) (hgroup : ¬SlashInGroup ts) :
    (∀ us ∈ ts.splitOnP Token.isSlash, ∃ g, parse (us.flatMap Token.text) = .ok g) ∧
      ∀ name, name ∈ language g ↔ MatchesPieces ts name := by
  induction ts using cutInduction generalizing g with
  | whole us hus =>
    have hparse : parse (us.flatMap Token.text) = .ok g := parse_eq_ok.2 (by rw [hts, hsteps])
    have hsegmental := isSegmental_of_steps hsteps hus hstars
    rw [List.splitOnP_eq_singleton hus]
    refine ⟨List.forall_mem_singleton.2 ⟨g, hparse⟩, fun name => ?_⟩
    exact (matchesPieces_whole hus hparse hsegmental).symm
  | cut us slash ts hus hslash ih =>
    obtain ⟨g₁, g₂, hfirst, hrest, rfl⟩ := exists_of_steps_slash hsteps hslash
      fun hopen => hgroup ⟨us, slash, ts, rfl, hslash, hopen⟩
    obtain ⟨htokens, hbehind⟩ := tokens_parts hts
    have hparse : parse (us.flatMap Token.text) = .ok g₁ := parse_eq_ok.2 (by rw [htokens, hfirst])
    rw [List.mem_append, List.mem_cons, not_or, not_or] at hstars
    have hsegmental := isSegmental_of_steps hfirst hus hstars.1
    have hgroup' : ¬SlashInGroup ts := by
      intro hts'
      apply hgroup
      simpa using hts'.append (us ++ [slash])
    have htokens' : tokens (ts.flatMap Token.text) = ts :=
      (tokens_parts (show _ = [slash] ++ ts from hbehind)).2
    obtain ⟨hpatterns, hnames⟩ := ih htokens' hrest hstars.2.2 hgroup'
    rw [List.splitOnP_append_cons_of_forall_mem hus slash hslash ts]
    refine ⟨List.forall_mem_cons.2 ⟨⟨g₁, hparse⟩, hpatterns⟩, fun name => ?_⟩
    rw [mem_language_slash, matchesPieces_cut hus hslash hparse hsegmental]
    simp only [hnames]

end

/-- A pattern without two stars and without a slash in a group is matched segment by segment: what
it has between its slashes are patterns, and it matches the names with as many slashes in which each
piece matches the segment in its place. -/
theorem accepts_iff_pieces {pattern text : Text} (h : toRegexText pattern = .ok text)
    (hstars : .stars ∉ tokens pattern) (hgroup : ¬SlashInGroup (tokens pattern)) :
    (∀ piece ∈ pieces pattern, ∃ text, toRegexText piece = .ok text) ∧
    ∃ m, compile pattern = .ok m ∧ ∀ name, m.accepts name = true ↔
      name.count (.char '/') = (tokens pattern).countP Token.isSlash ∧
      List.Forall₂ (fun piece segment => ∃ m, compile piece = .ok m ∧ m.accepts segment = true)
        (pieces pattern) (Text.splitAt '/' name) := by
  obtain ⟨g, hparse, -⟩ := toRegexText_eq_ok.1 h
  have htokens : tokens ((tokens pattern).flatMap Token.text) = tokens pattern := by
    rw [flatMap_text_tokens]
  obtain ⟨hpatterns, hnames⟩ :=
    mem_language_iff_matchesPieces htokens (parse_eq_ok.1 hparse) hstars hgroup
  refine ⟨?_, _, compile_of_parse hparse, fun name => ?_⟩
  · intro piece hpiece
    obtain ⟨us, hus, rfl⟩ := List.mem_map.1 hpiece
    obtain ⟨g', hg'⟩ := hpatterns us hus
    exact ⟨_, toRegexText_eq_ok.2 ⟨g', hg', rfl⟩⟩
  · rw [accepts_node hparse, hnames, MatchesPieces, pieces, List.forall₂_map_left_iff]
    simp only [denotes_iff_accepts]

/-- A star before an escaped slash, a group, and a question mark behind a plain slash. -/
theorem accepts_iff_pieces_threeSegments :
    toRegexText "a*\\/\x7bb,c\x7d/?" = .ok "a[^/]*/(?:b|c)/[^/]" ∧
    pieces "a*\\/\x7bb,c\x7d/?" = ["a*", "\x7bb,c\x7d", "?"] ∧
    ∃ m, compile "a*\\/\x7bb,c\x7d/?" = .ok m ∧ ∀ name, m.accepts name = true ↔
      name.count (.char '/') = 2 ∧
      List.Forall₂ (fun piece segment => ∃ m, compile piece = .ok m ∧ m.accepts segment = true)
        ["a*", "\x7bb,c\x7d", "?"] (Text.splitAt '/' name) := by
  have htext : toRegexText "a*\\/\x7bb,c\x7d/?" = .ok "a[^/]*/(?:b|c)/[^/]" := by decide
  exact ⟨htext, by decide, (accepts_iff_pieces htext (by decide) (by decide)).2⟩

/-- Cut at a slash in a group, a pattern leaves pieces that are none. -/
example : toRegexText "\x7ba/b,c\x7d" = .ok "(?:a/b|c)" ∧ SlashInGroup (tokens "\x7ba/b,c\x7d") ∧
    toRegexText "\x7ba" = .error ⟨.missingClosingBrace, "\x7ba", 1⟩ := by decide

end Glob
end ResourceFinder
