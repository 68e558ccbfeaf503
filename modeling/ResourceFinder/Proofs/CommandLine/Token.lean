import Mathlib.Data.List.Forall2
import ResourceFinder.CommandLine.Parser
import ResourceFinder.Proofs.List.Lookup

/-
What a reader who knows only the options of a configuration file makes of an argument.

It sees an option that it knows as the reader of all options sees it, and it passes over the others.
The two never take an argument for different options: no spelling is the beginning of one of another
option, and a shortened spelling that only one option has among all has at most that one among some.
-/

namespace ResourceFinder
namespace CommandLine

open ResourceFinder.CommandLine.Flag

/-- What a reader of some options sees where a reader of all options sees something. -/
inductive Seen : Token → Token → Prop where
  | known (s : Spelled) (h : s.flag ∈ configurable) : Seen (.known s) (.known s)
  | passedOver (s : Spelled) (h : s.flag ∉ configurable) (t : Token)
      (ht : t = .unknown ∨ t = .plain) : Seen (.known s) t
  | endOfOptions : Seen .endOfOptions .endOfOptions
  | plain : Seen .plain .plain

theorem seen_known_iff {t : Token} {s : Spelled} :
    Seen t (.known s) ↔ t = .known s ∧ s.flag ∈ configurable := by
  constructor
  · intro h
    generalize ht' : Token.known s = t' at h
    cases h with
    | known s' h =>
      obtain rfl := Token.known.inj ht'
      exact ⟨rfl, h⟩
    | passedOver s' _ _ h =>
      rw [← ht'] at h
      rcases h with h | h <;> cases h
    | endOfOptions => cases ht'
    | plain => cases ht'
  · rintro ⟨rfl, h⟩
    exact .known s h

theorem Seen.eq_of_configurable {t : Token} {s : Spelled} (h : Seen (.known s) t)
    (hs : s.flag ∈ configurable) : t = .known s := by
  cases h with
  | known _ _ => rfl
  | passedOver _ h _ _ => exact absurd hs h

/-! ## Spellings -/

theorem spellingsOf_configurable :
    spellingsOf configurable = (spellingsOf all).filter (·.2 ∈ configurable) := by decide

theorem nodup_spellings : ((spellingsOf all).map (·.1)).Nodup := by decide +kernel

theorem lookup_configurable (t : Text) : (spellingsOf configurable).lookup t =
    ((spellingsOf all).lookup t).filter (· ∈ configurable) := by
  rw [spellingsOf_configurable]
  exact lookup_filter (fun f => decide (f ∈ configurable)) (spellingsOf all) t nodup_spellings

/-! ## Options that an argument spells out -/

/-- The option that an argument spells out, with the value after an equals sign. -/
def spelledOut? (flags : List Flag) (argument : Text) : Option Spelled :=
  (((spellingsOf flags).lookup argument).map (Spelled.mk · argument none)).or
    ((splitValue? argument).bind fun (spelling, value) =>
      ((spellingsOf flags).lookup spelling).map (Spelled.mk · spelling (some value)))

/-- What an argument is that spells no option out, by the options that it may spell. -/
def shortened (argument : Text) : List Spelled → Except UsageError Token
  | [s] => .ok (.known s)
  | [] =>
    if isNegativeNumber argument || argument.contains (.char ' ') then .ok .plain
    else .ok .unknown
  | several => .error (.ambiguous argument (several.map Spelled.spelling))

theorem tokenOf_dash (flags : List Flag) (c : CodePoint) (t : Text) :
    tokenOf flags (.char '-' :: c :: t) =
      match spelledOut? flags (.char '-' :: c :: t) with
      | some s => .ok (.known s)
      | none => shortened (.char '-' :: c :: t) (candidates flags (.char '-' :: c :: t)) := by
  unfold tokenOf spelledOut?
  cases hexact : (spellingsOf flags).lookup (.char '-' :: c :: t) with
  | some f => simp [hexact]
  | none =>
    cases hsplit : splitValue? (.char '-' :: c :: t) with
    | none =>
      simp only [hexact]
      rfl
    | some parts =>
      obtain ⟨spelling, value⟩ := parts
      cases hlookup : (spellingsOf flags).lookup spelling with
      | none =>
        simp only [hexact, Option.bind_eq_bind, Option.bind_some, hlookup]
        rfl
      | some f => simp [hexact, hlookup]

theorem splitValue?_spelling : ∀ x ∈ spellingsOf all, splitValue? x.1 = none := by decide

theorem splitValue?_eq_some {argument spelling value : Text}
    (h : splitValue? argument = some (spelling, value)) :
    argument = spelling ++ .char '=' :: value := by
  unfold splitValue? at h
  split at h
  · cases h
  · rename_i c rest hdrop
    obtain ⟨rfl, rfl⟩ := Prod.mk.inj (Option.some.inj h)
    have hc := List.head_dropWhile_not (· != CodePoint.char '=') (l := argument) (by simp [hdrop])
    simp only [hdrop, List.head_cons, bne_eq_false_iff_eq] at hc
    have hsplit := List.takeWhile_append_dropWhile (p := (· != CodePoint.char '=')) (l := argument)
    rw [hdrop, hc] at hsplit
    exact hsplit.symm

/-- An option that is spelled out is an option with one of its spellings, and what follows the
spelling is nothing or an equals sign and the value. -/
theorem spelledOut?_eq_some {flags : List Flag} {argument : Text} {s : Spelled}
    (h : spelledOut? flags argument = some s) : (s.spelling, s.flag) ∈ spellingsOf flags ∧
      (argument = s.spelling ∨ ∃ value, argument = s.spelling ++ .char '=' :: value) := by
  unfold spelledOut? at h
  rcases Option.or_eq_some_iff.1 h with h | ⟨-, h⟩
  · obtain ⟨f, hf, rfl⟩ := Option.map_eq_some_iff.1 h
    exact ⟨mem_of_lookup hf, Or.inl rfl⟩
  · obtain ⟨⟨spelling, value⟩, hsplit, h⟩ := Option.bind_eq_some_iff.1 h
    obtain ⟨f, hf, rfl⟩ := Option.map_eq_some_iff.1 h
    exact ⟨mem_of_lookup hf, Or.inr ⟨value, splitValue?_eq_some hsplit⟩⟩

theorem spelledOut?_configurable (argument : Text) : spelledOut? configurable argument =
    (spelledOut? all argument).filter (·.flag ∈ configurable) := by
  unfold spelledOut?
  rw [lookup_configurable]
  cases hexact : (spellingsOf all).lookup argument with
  | some f =>
    have hsplit := splitValue?_spelling _ (mem_of_lookup hexact)
    by_cases hf : f ∈ configurable <;> simp [Option.filter, hf, hsplit]
  | none =>
    cases hsplit : splitValue? argument with
    | none => rfl
    | some parts =>
      obtain ⟨spelling, value⟩ := parts
      simp only [Option.bind_some, lookup_configurable]
      cases hlookup : (spellingsOf all).lookup spelling with
      | none => rfl
      | some f => by_cases hf : f ∈ configurable <;> simp [Option.filter, hf]

/-! ## Options that an argument may spell -/

theorem filterMap_filter {α β : Type} {p : α → Bool} {q : β → Bool} {f : α → Option β}
    (h : ∀ a b, f a = some b → q b = p a) (l : List α) :
    (l.filter p).filterMap f = (l.filterMap f).filter q := by
  induction l with
  | nil => rfl
  | cons a l ih =>
    cases hf : f a with
    | none =>
      rw [List.filterMap_cons_none hf, ← ih]
      cases hp : p a with
      | true => rw [List.filter_cons_of_pos hp, List.filterMap_cons_none hf]
      | false => rw [List.filter_cons_of_neg (by simp [hp])]
    | some b =>
      rw [List.filterMap_cons_some hf]
      have hq := h a b hf
      cases hp : p a with
      | true =>
        rw [List.filter_cons_of_pos hp, List.filterMap_cons_some hf, ih,
          List.filter_cons_of_pos (hq.trans hp)]
      | false =>
        rw [List.filter_cons_of_neg (by simp [hp]), ih, List.filter_cons_of_neg (by simp [hq, hp])]

theorem candidates_configurable (argument : Text) :
    candidates configurable argument =
      (candidates all argument).filter (·.flag ∈ configurable) := by
  rw [candidates.eq_def, candidates.eq_def, spellingsOf_configurable]
  split
  · refine filterMap_filter ?_ _
    rintro ⟨spelling, f⟩ s hs
    simp only [Option.ite_none_right_eq_some, Option.some.injEq] at hs
    obtain ⟨-, rfl⟩ := hs
    rfl
  · refine filterMap_filter ?_ _
    rintro ⟨spelling, f⟩ s hs
    by_cases htake : spelling = argument.take 2
    · simp only [if_pos htake, Option.some.injEq] at hs
      rw [← hs]
    · simp only [if_neg htake, Option.ite_none_right_eq_some, Option.some.injEq] at hs
      rw [← hs.2]

/-- No option that a configuration file can set has a spelling that begins with one of another
option. -/
theorem candidates_of_spelledOut {argument : Text} {s : Spelled}
    (h : spelledOut? all argument = some s) (hs : s.flag ∉ configurable) :
    candidates configurable argument = [] := by
  obtain ⟨hmem, hargument⟩ := spelledOut?_eq_some h
  have hspellings : ∀ x ∈ spellingsOf all, x.2 ∉ configurable →
      candidates configurable x.1 = [] ∧
        ∀ value, candidates configurable (x.1 ++ .char '=' :: value) = [] := by
    intro x hx hflag
    simp [spellingsOf, all, spellings] at hx
    rcases hx with rfl | rfl | rfl | rfl | rfl | rfl | rfl | rfl | rfl | rfl | rfl | rfl | rfl |
      rfl | rfl | rfl | rfl
    all_goals first | exact absurd (by decide) hflag | exact ⟨rfl, fun _ => rfl⟩
  obtain ⟨hself, hvalue⟩ := hspellings _ hmem hs
  rcases hargument with hargument | ⟨value, hargument⟩
  · rw [hargument]
    exact hself
  · rw [hargument]
    exact hvalue value

/-! ## Arguments -/

theorem mem_of_mem_candidates {flags : List Flag} {argument : Text} {s : Spelled}
    (h : s ∈ candidates flags argument) : (s.spelling, s.flag) ∈ spellingsOf flags := by
  unfold candidates at h
  split at h
  · obtain ⟨⟨spelling, f⟩, hmem, h⟩ := List.mem_filterMap.1 h
    simp only [Option.ite_none_right_eq_some, Option.some.injEq] at h
    obtain ⟨-, rfl⟩ := h
    exact hmem
  · obtain ⟨⟨spelling, f⟩, hmem, h⟩ := List.mem_filterMap.1 h
    by_cases htake : spelling = argument.take 2
    · simp only [if_pos htake, Option.some.injEq] at h
      rw [← h]
      exact hmem
    · simp only [if_neg htake, Option.ite_none_right_eq_some, Option.some.injEq] at h
      rw [← h.2]
      exact hmem

/-- Without a dash and something after it an argument is no option. -/
theorem exists_dash_or_plain (argument : Text) : (∃ c t, argument = .char '-' :: c :: t) ∨
    ∀ flags, tokenOf flags argument = .ok .plain := by
  by_cases h : ∃ c t, argument = .char '-' :: c :: t
  · exact Or.inl h
  · refine Or.inr fun flags => tokenOf.eq_2 flags argument fun c t heq => h ⟨c, t, heq⟩

/-- An argument that is read as an option has one of the option's spellings. -/
theorem mem_spellingsOf {flags : List Flag} {argument : Text} {s : Spelled}
    (h : tokenOf flags argument = .ok (.known s)) : (s.spelling, s.flag) ∈ spellingsOf flags := by
  rcases exists_dash_or_plain argument with ⟨c, t, rfl⟩ | hplain
  · rw [tokenOf_dash] at h
    cases hspelled : spelledOut? flags (.char '-' :: c :: t) with
    | some s' =>
      rw [hspelled] at h
      obtain rfl := Token.known.inj (Except.ok.inj h)
      exact (spelledOut?_eq_some hspelled).1
    | none =>
      rw [hspelled] at h
      cases hcandidates : candidates flags (.char '-' :: c :: t) with
      | nil =>
        simp only [hcandidates, shortened] at h
        split at h <;> cases h
      | cons s' others =>
        cases others with
        | nil =>
          simp only [hcandidates, shortened] at h
          obtain rfl := Token.known.inj (Except.ok.inj h)
          exact mem_of_mem_candidates (hcandidates ▸ List.mem_singleton_self s')
        | cons s'' others =>
          simp only [hcandidates, shortened] at h
          cases h
  · rw [hplain] at h
    cases h

theorem shortened_nil (argument : Text) :
    shortened argument [] = .ok .unknown ∨ shortened argument [] = .ok .plain := by
  by_cases h : (isNegativeNumber argument || argument.contains (.char ' ')) = true
  · exact Or.inr (if_pos h)
  · exact Or.inl (if_neg h)

/-- Where the reader of all options makes something of an argument, the other one does. -/
theorem tokenOf_configurable {argument : Text} {t : Token} (h : tokenOf all argument = .ok t)
    (ht : t ≠ .unknown) : ∃ t', tokenOf configurable argument = .ok t' ∧ Seen t t' := by
  rcases exists_dash_or_plain argument with ⟨c, rest, rfl⟩ | hplain
  · have hpassed (s : Spelled) (hs : s.flag ∉ configurable) :
        ∃ t', shortened (.char '-' :: c :: rest) [] = .ok t' ∧ Seen (.known s) t' := by
      rcases shortened_nil (.char '-' :: c :: rest) with hnil | hnil
      · exact ⟨.unknown, hnil, .passedOver s hs _ (Or.inl rfl)⟩
      · exact ⟨.plain, hnil, .passedOver s hs _ (Or.inr rfl)⟩
    rw [tokenOf_dash] at h ⊢
    rw [spelledOut?_configurable]
    cases hspelled : spelledOut? all (.char '-' :: c :: rest) with
    | some s =>
      rw [hspelled] at h
      obtain rfl := Except.ok.inj h
      by_cases hs : s.flag ∈ configurable
      · exact ⟨.known s, by simp [Option.filter, hs], .known s hs⟩
      · rw [candidates_of_spelledOut hspelled hs]
        simpa [Option.filter, hs] using hpassed s hs
    | none =>
      rw [hspelled] at h
      rw [candidates_configurable]
      cases hcandidates : candidates all (.char '-' :: c :: rest) with
      | nil =>
        rw [hcandidates] at h
        rcases shortened_nil (.char '-' :: c :: rest) with hnil | hnil
        · exact absurd (Except.ok.inj (h.symm.trans hnil)) ht
        · obtain rfl := Except.ok.inj (h.symm.trans hnil)
          exact ⟨.plain, hnil, .plain⟩
      | cons s others =>
        rw [hcandidates] at h
        cases others with
        | nil =>
          obtain rfl := Except.ok.inj h
          by_cases hs : s.flag ∈ configurable
          · exact ⟨.known s, by simp [hs, shortened], .known s hs⟩
          · simpa [hs] using hpassed s hs
        | cons s' others => cases h
  · obtain rfl := Except.ok.inj ((hplain all).symm.trans h)
    exact ⟨.plain, hplain configurable, .plain⟩

theorem mem_spellingsOf_of_tokensOf {flags : List Flag} {arguments : List Text}
    {tokens : List (Text × Token)} (h : tokensOf flags arguments = .ok tokens) :
    ∀ x ∈ tokens, ∀ s, x.2 = .known s → (s.spelling, s.flag) ∈ spellingsOf flags := by
  induction arguments generalizing tokens with
  | nil =>
    obtain rfl := Except.ok.inj h
    simp
  | cons argument rest ih =>
    simp only [tokensOf] at h
    by_cases hend : argument = ("--" : Text)
    · rw [if_pos hend] at h
      obtain rfl := Except.ok.inj h
      simp
    · rw [if_neg hend] at h
      cases htoken : tokenOf flags argument with
      | error e =>
        rw [htoken] at h
        cases h
      | ok t =>
        cases htokens : tokensOf flags rest with
        | error e =>
          rw [htoken, htokens] at h
          cases h
        | ok ts =>
          rw [htoken, htokens] at h
          obtain rfl := Except.ok.inj h
          refine List.forall_mem_cons.2 ⟨fun s hs => ?_, ih htokens⟩
          obtain rfl := hs
          exact mem_spellingsOf htoken

/-- Both readers see the same arguments, each its own options in them. -/
theorem tokensOf_configurable {arguments : List Text} {tokens : List (Text × Token)}
    (h : tokensOf all arguments = .ok tokens) (hknown : ∀ x ∈ tokens, x.2 ≠ .unknown) :
    ∃ tokens', tokensOf configurable arguments = .ok tokens' ∧
      List.Forall₂ (fun x y => x.1 = y.1 ∧ Seen x.2 y.2) tokens tokens' := by
  induction arguments generalizing tokens with
  | nil =>
    obtain rfl := Except.ok.inj h
    exact ⟨[], rfl, .nil⟩
  | cons argument rest ih =>
    simp only [tokensOf] at h ⊢
    by_cases hend : argument = ("--" : Text)
    · rw [if_pos hend] at h ⊢
      obtain rfl := Except.ok.inj h
      refine ⟨_, rfl, .cons ⟨rfl, .endOfOptions⟩ ?_⟩
      rw [List.forall₂_same]
      intro x hx
      obtain ⟨argument, -, rfl⟩ := List.mem_map.1 hx
      exact ⟨rfl, .plain⟩
    · rw [if_neg hend] at h ⊢
      cases htoken : tokenOf all argument with
      | error e =>
        rw [htoken] at h
        cases h
      | ok t =>
        cases htokens : tokensOf all rest with
        | error e =>
          rw [htoken, htokens] at h
          cases h
        | ok ts =>
          rw [htoken, htokens] at h
          obtain rfl := Except.ok.inj h
          obtain ⟨t', ht', hseen⟩ := tokenOf_configurable htoken (hknown _ List.mem_cons_self)
          obtain ⟨ts', hts', hall⟩ := ih htokens fun x hx => hknown x (List.mem_cons_of_mem _ hx)
          rw [ht', hts']
          exact ⟨_, rfl, .cons ⟨rfl, hseen⟩ hall⟩

end CommandLine
end ResourceFinder
